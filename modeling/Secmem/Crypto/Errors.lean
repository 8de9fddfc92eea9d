import Secmem.Errors
import Secmem.Framework.Der
import Secmem.Framework.ByteStrings

/-!
# Errors of `secmem-crypto`

An error is its text and the values `errors.Is` finds in it.  The parsers build theirs from a few
sentinels with `fmt.Errorf`; what they repeat from a file goes through `labelForError` or
`oidForError`, which bound it.
-/

namespace Secmem.Crypto

/-- The values callers compare against. -/
inductive Sentinel
  | errEncryptedKey
  | errRetiredAlgorithm
  | errUnsupportedKey
  | errMalformed
  | errNotEncrypted
  | errHeapTransients
  | errBadSeedLength
  | errBadScalarLength
  | incorrectPassword
  | errRounds
  | errPassword
  | errSalt
  | errKeyLen
  | errOutput
  | core (e : Secmem.Sentinel)
  deriving DecidableEq, Repr

def Sentinel.text : Sentinel → String
  | errEncryptedKey => "secmemcrypto: private key is passphrase-protected"
  | errRetiredAlgorithm => "secmemcrypto: retired algorithm, permanently unsupported"
  | errUnsupportedKey => "secmemcrypto: unsupported private key type"
  | errMalformed => "malformed private key"
  | errNotEncrypted => "secmemcrypto: private key is not passphrase-protected"
  | errHeapTransients => "secmemcrypto: operation would leave key material on the unprotected " ++
      "heap on this build"
  | errBadSeedLength => "secmemcrypto: bad seed length"
  | errBadScalarLength => "secmemcrypto: bad scalar length"
  | incorrectPassword => "x509: decryption password incorrect"
  | errRounds => "bcrypt_pbkdf: number of rounds is too small"
  | errPassword => "bcrypt_pbkdf: empty password"
  | errSalt => "bcrypt_pbkdf: bad salt length"
  | errKeyLen => "bcrypt_pbkdf: keyLen is too large"
  | errOutput => "bcrypt_pbkdf: empty output"
  | core e => e.text

/-- An error: its text, and what `errors.Is` finds. -/
structure Err where
  text : String
  chain : List Sentinel
  deriving DecidableEq, Repr

namespace Err

def of (s : Sentinel) : Err := ⟨s.text, [s]⟩

/-- `errors.New`. -/
def new (text : String) : Err := ⟨text, []⟩

/-- `fmt.Errorf` with one `%w`, before a text. -/
def then_ (e : Err) (text : String) : Err := ⟨e.text ++ text, e.chain⟩

/-- `fmt.Errorf` with one `%w`, after a text. -/
def after (text : String) (e : Err) : Err := ⟨text ++ e.text, e.chain⟩

/-- `fmt.Errorf("%w: %w", e₁, e₂)`. -/
def and (e₁ e₂ : Err) : Err := ⟨e₁.text ++ ": " ++ e₂.text, e₁.chain ++ e₂.chain⟩

/-- `errors.Join`. -/
def join (e₁ e₂ : Err) : Err := ⟨e₁.text ++ "\n" ++ e₂.text, e₁.chain ++ e₂.chain⟩

/-- `errors.Is`. -/
def Is (e : Err) (s : Sentinel) : Prop := s ∈ e.chain

instance (e : Err) (s : Sentinel) : Decidable (e.Is s) :=
  inferInstanceAs (Decidable (s ∈ e.chain))

section Is

variable {e e₁ e₂ : Err} {s t : Sentinel} {text : String}

@[simp] lemma is_of : (of t).Is s ↔ s = t := by simp [of, Is]

@[simp] lemma not_is_new : ¬ (new text).Is s := by simp [new, Is]

@[simp] lemma is_then : (e.then_ text).Is s ↔ e.Is s := Iff.rfl

@[simp] lemma is_after : (after text e).Is s ↔ e.Is s := Iff.rfl

@[simp] lemma is_and : (e₁.and e₂).Is s ↔ e₁.Is s ∨ e₂.Is s := List.mem_append

@[simp] lemma is_join : (e₁.join e₂).Is s ↔ e₁.Is s ∨ e₂.Is s := List.mem_append

end Is

end Err

/-! ## What an error repeats from a file -/

def maxQuotedLabel : ℕ := 32

/-- `strconv.Quote`, for printable ASCII. -/
def quote (s : Bytes) : String :=
  "\"" ++ String.ofList (s.flatMap fun b =>
    if b = 0x22 ∨ b = 0x5C then ['\\', Char.ofNat b.toNat] else [Char.ofNat b.toNat]) ++ "\""

/-- `labelForError`. -/
def labelForError (label : Bytes) : String :=
  if label.any (fun b => b < 0x20 || b > 0x7e) then
    "<" ++ toString label.length ++ "-byte non-printable label>"
  else if label.length ≤ maxQuotedLabel then quote label
  else quote (label.take maxQuotedLabel) ++ "... (" ++ toString label.length ++ " bytes)"

def maxOIDArcs : ℕ := 16
def maxOIDText : ℕ := 64

/-- `oidForError`. -/
def oidForError (oid : Der.ObjectIdentifier) : String :=
  let s := ".".intercalate (oid.map toString)
  if oid.length ≤ maxOIDArcs ∧ s.length ≤ maxOIDText then s
  else "<object identifier of " ++ toString oid.length ++ " arcs>"

/-! ## Errors the parsers share -/

def errMalformed : Err := .of .errMalformed
def errUnsupportedKey : Err := .of .errUnsupportedKey
def errEncryptedKey : Err := .of .errEncryptedKey
def errNotEncrypted : Err := .of .errNotEncrypted
def errDestroyed : Err := .of (.core .errDestroyed)

/-- A panic: a write outside its slice, or a slice outside its array. -/
def errPanic : Err := .new "runtime error: slice bounds out of range"

def errLegacyPEM : Err := (Err.of .errRetiredAlgorithm).then_
  (": legacy PEM encryption (Proc-Type / DEK-Info headers); re-encrypt it with ssh-keygen -p " ++
    "or openssl pkey")

def errRetiredPBE : Err := (Err.of .errRetiredAlgorithm).then_
  (": PKCS#8 PBES1 / PKCS#12 password-based encryption (MD5 or SHA-1 with DES, 3DES or RC2); " ++
    "re-encrypt it with openssl pkcs8 -topk8 -v2 aes-256-cbc")

def errRetiredPBES2Cipher : Err := (Err.of .errRetiredAlgorithm).then_
  ": PBES2 over DES, 3DES or RC2; re-encrypt it with openssl pkcs8 -topk8 -v2 aes-256-cbc"

def errOpenSSHDecrypt : Err := (Err.of .incorrectPassword).after
  "OpenSSH private block did not decrypt to a valid key (wrong passphrase or corrupt file): "

def errPBES2Decrypt : Err := (Err.of .incorrectPassword).after
  "PKCS#8 encrypted key did not decrypt to a valid key (wrong passphrase or corrupt file): "

def errPBES2Unsupported : Err := errUnsupportedKey.then_
  ": the encrypted PKCS#8 file holds a key of a type this package has no signer for"

def errPBES2HeapTransients : Err := (Err.of .errHeapTransients).then_
  ": the encrypted PKCS#8 file holds an RSA or EC key; pass AllowHeapTransients to open it"

def errCheckMismatch : Err := errMalformed.then_ ": check integers disagree"

def errNotRSADER : Err :=
  .new "DER is neither a PKCS#1 RSAPrivateKey nor a PKCS#8 PrivateKeyInfo"

section Is

variable {s : Sentinel}

@[simp] lemma is_errMalformed : errMalformed.Is s ↔ s = .errMalformed := Err.is_of

@[simp] lemma is_errUnsupportedKey : errUnsupportedKey.Is s ↔ s = .errUnsupportedKey := Err.is_of

@[simp] lemma is_errEncryptedKey : errEncryptedKey.Is s ↔ s = .errEncryptedKey := Err.is_of

@[simp] lemma is_errNotEncrypted : errNotEncrypted.Is s ↔ s = .errNotEncrypted := Err.is_of

@[simp] lemma is_errDestroyed : errDestroyed.Is s ↔ s = .core .errDestroyed := Err.is_of

@[simp] lemma is_errLegacyPEM : errLegacyPEM.Is s ↔ s = .errRetiredAlgorithm := by
  rw [errLegacyPEM, Err.is_then, Err.is_of]

@[simp] lemma is_errRetiredPBE : errRetiredPBE.Is s ↔ s = .errRetiredAlgorithm := by
  rw [errRetiredPBE, Err.is_then, Err.is_of]

@[simp] lemma is_errRetiredPBES2Cipher :
    errRetiredPBES2Cipher.Is s ↔ s = .errRetiredAlgorithm := by
  rw [errRetiredPBES2Cipher, Err.is_then, Err.is_of]

@[simp] lemma is_errOpenSSHDecrypt : errOpenSSHDecrypt.Is s ↔ s = .incorrectPassword := by
  rw [errOpenSSHDecrypt, Err.is_after, Err.is_of]

@[simp] lemma is_errPBES2Decrypt : errPBES2Decrypt.Is s ↔ s = .incorrectPassword := by
  rw [errPBES2Decrypt, Err.is_after, Err.is_of]

@[simp] lemma is_errPBES2Unsupported :
    errPBES2Unsupported.Is s ↔ s = .errUnsupportedKey := by
  rw [errPBES2Unsupported, Err.is_then, is_errUnsupportedKey]

@[simp] lemma is_errPBES2HeapTransients :
    errPBES2HeapTransients.Is s ↔ s = .errHeapTransients := by
  rw [errPBES2HeapTransients, Err.is_then, Err.is_of]

@[simp] lemma is_errCheckMismatch : errCheckMismatch.Is s ↔ s = .errMalformed := by
  rw [errCheckMismatch, Err.is_then, is_errMalformed]

@[simp] lemma not_is_errNotRSADER : ¬ errNotRSADER.Is s := Err.not_is_new

end Is

/-! ## Readers that fail -/

/-- The value, or the error for its absence. -/
def require {α : Type} (e : Err) : Option α → Except Err α
  | some a => .ok a
  | none => .error e

/-- Goes on only if the condition holds. -/
def demand (c : Prop) [Decidable c] (e : Err) : Except Err Unit :=
  if c then .ok () else .error e

section Except

variable {α β : Type}

lemma bind_eq_ok {x : Except Err α} {f : α → Except Err β} {b : β} :
    x >>= f = .ok b ↔ ∃ a, x = .ok a ∧ f a = .ok b := by
  cases x with
  | error e => simp [bind, Except.bind]
  | ok a => simp [bind, Except.bind]

lemma bind_eq_error {x : Except Err α} {f : α → Except Err β} {e : Err} :
    x >>= f = .error e ↔ x = .error e ∨ ∃ a, x = .ok a ∧ f a = .error e := by
  cases x with
  | error e' => simp [bind, Except.bind]
  | ok a => simp [bind, Except.bind]

@[simp] lemma require_eq_ok {e : Err} {o : Option α} {a : α} :
    require e o = .ok a ↔ o = some a := by
  cases o <;> simp [require]

@[simp] lemma require_eq_error {e e' : Err} {o : Option α} :
    require e o = .error e' ↔ o = none ∧ e = e' := by
  cases o <;> simp [require]

@[simp] lemma demand_eq_ok {c : Prop} [Decidable c] {e : Err} {u : Unit} :
    demand c e = .ok u ↔ c := by
  by_cases h : c <;> simp [demand, h]

@[simp] lemma demand_eq_error {c : Prop} [Decidable c] {e e' : Err} :
    demand c e = .error e' ↔ ¬ c ∧ e = e' := by
  by_cases h : c <;> simp [demand, h]

/-- Every error of the computation is one of `S`. -/
def Fails (S : Err → Prop) (x : Except Err α) : Prop := ∀ e, x = .error e → S e

section Fails

variable {S : Err → Prop}

@[simp] lemma fails_ok {a : α} : Fails S (.ok a) := fun _ h => by cases h

@[simp] lemma fails_error {e : Err} : Fails S (.error e : Except Err α) ↔ S e := by
  simp [Fails]

@[simp] lemma fails_bind {x : Except Err α} {f : α → Except Err β} :
    Fails S (x >>= f) ↔ Fails S x ∧ ∀ a, x = .ok a → Fails S (f a) := by
  cases x with
  | error e => simp [bind, Except.bind]
  | ok a => simp [bind, Except.bind]

@[simp] lemma fails_require {e : Err} {o : Option α} :
    Fails S (require e o) ↔ (o = none → S e) := by
  cases o <;> simp [require]

@[simp] lemma fails_demand {c : Prop} [Decidable c] {e : Err} :
    Fails S (demand c e) ↔ (¬ c → S e) := by
  by_cases h : c <;> simp [demand, h]

end Fails

end Except

end Secmem.Crypto
