import Secmem.InPlace.Pbkdf2
import Secmem.Crypto.Parse

/-!
# PBES2

`pbes2.go` and the two cipher modes of `openssh_cipher.go`: reading an `EncryptedPrivateKeyInfo`,
which decides every refusal that needs no passphrase, and decrypting its contents.
-/

namespace Secmem.Crypto

open Ownership Der ByteStrings

variable [Cryptobyte]

def maxPBKDF2Iterations : ℕ := 2000000
def maxScryptMemory : ℕ := 64 * 2 ^ 20
def maxScryptWork : ℕ := 2 ^ 22
def maxPBES2Salt : ℕ := 1024

def oidPBKDF2 : ObjectIdentifier := [1, 2, 840, 113549, 1, 5, 12]
def oidScrypt : ObjectIdentifier := [1, 3, 6, 1, 4, 1, 11591, 4, 11]
def oidHMACArc : ObjectIdentifier := [1, 2, 840, 113549, 2]
def oidAES128CBC : ObjectIdentifier := [2, 16, 840, 1, 101, 3, 4, 1, 2]
def oidAES192CBC : ObjectIdentifier := [2, 16, 840, 1, 101, 3, 4, 1, 22]
def oidAES256CBC : ObjectIdentifier := [2, 16, 840, 1, 101, 3, 4, 1, 42]
def oidAES128GCM : ObjectIdentifier := [2, 16, 840, 1, 101, 3, 4, 1, 6]
def oidAES192GCM : ObjectIdentifier := [2, 16, 840, 1, 101, 3, 4, 1, 26]
def oidAES256GCM : ObjectIdentifier := [2, 16, 840, 1, 101, 3, 4, 1, 46]

/-! ## Working regions -/

export InPlace (pbkdf2RegionSize maxHashSize)

/-- The hash, among all of `hmac_inplace.go`. -/
def InPlaceHash.inPlace : InPlaceHash → InPlace.InPlaceHash
  | .hashSHA1 => .hashSHA1
  | .hashSHA224 => .hashSHA224
  | .hashSHA256 => .hashSHA256
  | .hashSHA384 => .hashSHA384
  | .hashSHA512 => .hashSHA512
  | .hashSHA512_224 => .hashSHA512_224
  | .hashSHA512_256 => .hashSHA512_256

/-- `scryptRegionSize`, with `scrypt.WorkSize` and `scrypt.BlockSize`. -/
def scryptRegionSize (saltLen n r p : ℕ) : ℕ :=
  let b := p * (128 * r)
  (128 * r * n + 256 * r + 64) + b + pbkdf2RegionSize .hashSHA256 (max saltLen b)

/-! ## Reading -/

/-- The parameters of the two key derivations. -/
inductive KDF
  | pbkdf2 (prf : InPlaceHash) (iter : ℕ)
  | scrypt (n r p : ℕ)
  deriving DecidableEq, Repr

/-- `pbes2File`. -/
structure Pbes2File where
  kdf : KDF
  keyLen : ℕ
  salt : Bytes
  iv : Bytes
  ct : Bytes
  deriving DecidableEq, Repr

/-- `readASN1Count`: a count, or none for an integer of more than 31 bits. -/
def readASN1Count (s : Bytes) : Option (Option ℕ × Bytes) :=
  match readASN1 INTEGER s with
  | none => none
  | some (raw, rest) =>
    match raw with
    | [] => none
    | a :: tail =>
      if 0x80 ≤ a.toNat then none
      else if a = 0 ∧ tail ≠ [] ∧ (tail.headD 0).toNat < 0x80 then none
      else
        let digits := if a = 0 then tail else raw
        let v := unsigned digits
        if 4 < digits.length ∨ 2 ^ 31 ≤ v then some (none, rest) else some (some v, rest)

/-- `prfByOID`. -/
def prfByOID (oid : ObjectIdentifier) : Option InPlaceHash :=
  match below oidHMACArc oid with
  | some 7 => some .hashSHA1
  | some 8 => some .hashSHA224
  | some 9 => some .hashSHA256
  | some 10 => some .hashSHA384
  | some 11 => some .hashSHA512
  | some 12 => some .hashSHA512_224
  | some 13 => some .hashSHA512_256
  | _ => none

/-- The optional keyLength, which has to be the cipher's. -/
def readKeyLength (kdf : String) (keyLen : ℕ) (s : Bytes) : Except Err Bytes :=
  if peekASN1Tag INTEGER s = true then do
    let (n, s) ← require errMalformed (readASN1Integer s)
    demand (n = keyLen)
      (errMalformed.then_ (": " ++ kdf ++ " keyLength disagrees with the encryption scheme"))
    .ok s
  else .ok s

/-- The salt, within its bound. -/
def readSalt (kdf : String) (s : Bytes) : Except Err (Bytes × Bytes) := do
  let (salt, s) ← require errMalformed (readASN1 OCTET_STRING s)
  demand (salt ≠ []) errMalformed
  demand (salt.length ≤ maxPBES2Salt)
    (errMalformed.then_ (": " ++ kdf ++ " salt of " ++ toString salt.length ++ " bytes exceeds " ++
      toString maxPBES2Salt))
  .ok (salt, s)

/-- The pseudo-random function, SHA-1 by default. -/
def readPRF (s : Bytes) : Except Err (InPlaceHash × Bytes) := do
  let (prf, s) ← require errMalformed (readOptionalASN1 SEQUENCE s)
  match prf with
  | none => .ok (.hashSHA1, s)
  | some prf => do
    let (oid, prf) ← require errMalformed (readASN1ObjectIdentifier prf)
    let prf ← require errMalformed (skipOptionalASN1 NULL prf)
    demand (prf = []) errMalformed
    let h ← require (errUnsupportedKey.then_ (": PBKDF2 PRF " ++ oidForError oid)) (prfByOID oid)
    .ok (h, s)

/-- `readPBKDF2Params`. -/
def readPBKDF2Params (keyLen : ℕ) (s : Bytes) : Except Err (KDF × Bytes) := do
  demand (peekASN1Tag SEQUENCE s = false)
    (errUnsupportedKey.then_ ": PBKDF2 salt given as otherSource")
  let (salt, s) ← readSalt "PBKDF2" s
  let (iter, s) ← require errMalformed (readASN1Count s)
  demand (iter ≠ some 0) errMalformed
  let iter ← require (errUnsupportedKey.then_ (": PBKDF2 iteration count exceeds the maximum " ++
    toString maxPBKDF2Iterations ++ " this parser will run"))
    (iter.filter (· ≤ maxPBKDF2Iterations))
  let s ← readKeyLength "PBKDF2" keyLen s
  let (prf, s) ← readPRF s
  demand (s = []) errMalformed
  .ok (.pbkdf2 prf iter, salt)

/-- The rules scrypt's parameters have to meet; an absent one is too wide to read.  The products
are those of `uint64`. -/
def checkScryptParams (n r p : Option ℕ) : Except Err KDF := do
  demand (n ≠ some 0 ∧ r ≠ some 0 ∧ p ≠ some 0) errMalformed
  demand (∀ N, n = some N → N ≠ 1 ∧ N &&& (N - 1) = 0)
    (errMalformed.then_ ": scrypt cost parameter N is not a power of two greater than 1")
  demand (∀ N, n = some N → r = some 1 → N < 2 ^ 16)
    (errMalformed.then_ ": scrypt cost parameter N is not below 2^(128*r/8)")
  let tooMuch := errUnsupportedKey.then_ (": scrypt parameters need more working memory than " ++
    "the " ++ toString maxScryptMemory ++ " bytes this parser will lock")
  let n ← require tooMuch n
  let r ← require tooMuch r
  let p ← require tooMuch p
  demand (r ≤ maxScryptMemory / 128 ∧ 128 * r * (n + 2 * p + 2) % 2 ^ 64 ≤ maxScryptMemory) tooMuch
  demand (n * r * p % 2 ^ 64 ≤ maxScryptWork) (errUnsupportedKey.then_
    (": scrypt cost N*r*p exceeds the maximum " ++ toString maxScryptWork ++
      " this parser will run"))
  .ok (.scrypt n r p)

/-- `readScryptParams`. -/
def readScryptParams (keyLen : ℕ) (s : Bytes) : Except Err (KDF × Bytes) := do
  let (salt, s) ← readSalt "scrypt" s
  let (n, s) ← require errMalformed (readASN1Count s)
  let (r, s) ← require errMalformed (readASN1Count s)
  let (p, s) ← require errMalformed (readASN1Count s)
  let kdf ← checkScryptParams n r p
  let s ← readKeyLength "scrypt" keyLen s
  demand (s = []) errMalformed
  .ok (kdf, salt)

/-- The key length an encryption scheme fixes. -/
def schemeKeyLen (oid : ObjectIdentifier) : Except Err ℕ :=
  if oid = oidAES128CBC then .ok 16
  else if oid = oidAES192CBC then .ok 24
  else if oid = oidAES256CBC then .ok 32
  else if oid = oidAES128GCM ∨ oid = oidAES192GCM ∨ oid = oidAES256GCM then
    .error (errUnsupportedKey.then_ ": PBES2 scheme AES-GCM")
  else if oidIsRetiredCipher oid = true then .error (errUnsupportedKey.and errRetiredPBES2Cipher)
  else .error (errUnsupportedKey.then_ (": PBES2 scheme " ++ oidForError oid))

/-- The parameters of the key derivation an identifier names. -/
def readKDF (keyLen : ℕ) (kdf : Bytes) : Except Err (KDF × Bytes) := do
  let (oid, kdf) ← require errMalformed (readASN1ObjectIdentifier kdf)
  demand (oid = oidPBKDF2 ∨ oid = oidScrypt)
    (errUnsupportedKey.then_ (": PBES2 KDF " ++ oidForError oid))
  let (params, kdf) ← require errMalformed (readASN1 SEQUENCE kdf)
  demand (kdf = []) errMalformed
  if oid = oidScrypt then readScryptParams keyLen params else readPBKDF2Params keyLen params

/-- The outer structure: the algorithm's identifier and parameters, and the ciphertext. -/
def readEncryptedPrivateKeyInfo (der : Bytes) :
    Except Err (ObjectIdentifier × Bytes × Bytes) := do
  let (seq, rest) ← require errMalformed (readASN1 SEQUENCE der)
  demand (rest = []) errMalformed
  let (alg, seq) ← require errMalformed (readASN1 SEQUENCE seq)
  let (oid, alg) ← require errMalformed (readASN1ObjectIdentifier alg)
  let (ct, seq) ← require errMalformed (readASN1 OCTET_STRING seq)
  demand (seq = []) errMalformed
  .ok (oid, alg, ct)

/-- Whether an encryption algorithm is PBES2. -/
def demandPBES2 (oid : ObjectIdentifier) : Except Err Unit :=
  if oid = oidPBES2 then .ok ()
  else if oidIsRetiredPBE oid = true then .error (errUnsupportedKey.and errRetiredPBE)
  else .error (errUnsupportedKey.then_ (": PKCS#8 encryption algorithm " ++ oidForError oid))

/-- `readPBES2`. -/
def readPBES2 (der : Bytes) : Except Err Pbes2File := do
  let (oid, alg, ct) ← readEncryptedPrivateKeyInfo der
  demandPBES2 oid
  let (params, alg) ← require errMalformed (readASN1 SEQUENCE alg)
  demand (alg = []) errMalformed
  let (kdf, params) ← require errMalformed (readASN1 SEQUENCE params)
  let (scheme, params) ← require errMalformed (readASN1 SEQUENCE params)
  demand (params = []) errMalformed
  let (oid, scheme) ← require errMalformed (readASN1ObjectIdentifier scheme)
  let keyLen ← schemeKeyLen oid
  let (iv, scheme) ← require errMalformed (readASN1 OCTET_STRING scheme)
  demand (scheme = [] ∧ iv.length = opensshAESBlock) errMalformed
  let (kdf, salt) ← readKDF keyLen kdf
  demand (ct ≠ [] ∧ ct.length % opensshAESBlock = 0)
    (errMalformed.then_ ": encrypted data is not a multiple of the cipher block size")
  .ok ⟨kdf, keyLen, salt, iv, ct⟩

/-! ## Cipher modes -/

variable (E : Env) (o : Options)

/-- `aes.NewCipher`, which admits three sizes of key. -/
def checkAESKey (key : Bytes) : Except Err Unit :=
  demand (key.length = 16 ∨ key.length = 24 ∨ key.length = 32)
    (.new ("crypto/aes: invalid key size " ++ toString key.length))

/-- The result of a cipher, if its key schedule could be wiped. -/
def wipeAESBlock (out : Bytes) : Except Err Bytes :=
  match E.wipeAES with
  | some text => .error (.new text)
  | none => .ok out

/-- Runs in a locked scratch buffer, which is wiped and freed whatever happens: `withScratch`. -/
def withScratch {α : Type} (size : ℕ) (fn : Call α) : Call α := do
  let scratch ← (newEmptyBuffer E size).mapError (Err.after "allocate kdf workspace: ")
  (do
    let _ ← borrow scratch
    fn).andRelease scratch

/-- The working region of a file's key derivation. -/
def Pbes2File.regionSize (f : Pbes2File) : ℕ :=
  match f.kdf with
  | .pbkdf2 prf _ => pbkdf2RegionSize prf.inPlace f.salt.length
  | .scrypt n r p => scryptRegionSize f.salt.length n r p

/-- The key a file's derivation makes of a passphrase. -/
def Pbes2File.key (f : Pbes2File) (passphrase : Bytes) : Bytes :=
  match f.kdf with
  | .pbkdf2 prf iter => (E.pbkdf2 prf passphrase f.salt iter f.keyLen).val
  | .scrypt n r p => (E.scrypt passphrase f.salt n r p f.keyLen).val

/-- `pbes2Decrypt`. -/
def pbes2Decrypt (f : Pbes2File) (passphrase : Bytes) : Call Bytes :=
  withScratch E (f.regionSize + f.keyLen + cipherScratch) do
    Op.emit .derive
    let key := f.key E passphrase
    Op.lift (checkAESKey key)
    Op.lift (wipeAESBlock E (cbcPlain (E.aesDecrypt key) (f.ct.length / 16) f.iv f.ct))

/-- What `decryptPKCS8` makes of `pkcs7Unpad`: the length of the plaintext. -/
def unpad (p : Bytes) : Except Err ℕ :=
  match pkcs7Unpad p with
  | none => .error errPanic
  | some (n, ok) => if ok = true then .ok n else .error errPBES2Decrypt

/-- What `parsePKCS8Encrypted` reports for a failure after decryption. -/
def pbes2Verdict (e : Err) : Err :=
  if e.Is .errHeapTransients then errPBES2HeapTransients
  else if e.Is .errUnsupportedKey then errPBES2Unsupported
  else errPBES2Decrypt

/-- The part of `parsePKCS8Encrypted` that ends with the container: the plaintext, in a buffer of
its own, and its length without the padding. -/
def decryptPKCS8 (blob : Buf) (passphrase : Bytes) : Call (Buf × ℕ) :=
  (do
    let b ← borrow blob
    let f ← Op.lift (readPBES2 b)
    let plain ← (newEmptyBuffer E f.ct.length).mapError (Err.after "allocate key buffer: ")
    let n ← (do
      let p ← pbes2Decrypt E f passphrase
      store plain p
      Op.lift (unpad p)).orRelease plain
    return (plain, n)).andRelease blob

/-- `parsePKCS8Encrypted`. -/
def parsePKCS8Encrypted (blob : Buf) (passphrase : Bytes) : Call Signer := do
  let (plain, n) ← decryptPKCS8 E blob passphrase
  (truncate plain n).orRelease plain
  (parsePKCS8 E o plain).mapError pbes2Verdict

end Secmem.Crypto
