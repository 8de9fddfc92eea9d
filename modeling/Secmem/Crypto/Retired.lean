import Secmem.Crypto.Protection

/-!
# Retired algorithms

A file under a construction that is refused for good is refused as such by both entry points.
`ParsePrivateKeyWithPassphrase` arrives at `ErrRetiredAlgorithm` in two ways: from the headers of
legacy PEM encryption, and from `readPBES2`, which reads the whole structure and is strict about
it.  `ParsePrivateKey` reads only the algorithm identifiers, behind a detection of containers of
its own.  `Retires` says what a file must be for the first, and `parsePrivateKey_of_retires` that
the second follows.
-/

namespace Secmem.Crypto

open Ownership Der ByteStrings
open Op hiding bind

variable {E : Env} {o : Options} {e : Err} {oid : ObjectIdentifier}

/-! ## Readers -/

/-- A scheme that is refused as retired is one of the retired ciphers. -/
lemma schemeKeyLen_retired (h : schemeKeyLen oid = .error e)
    (he : e.Is .errRetiredAlgorithm) : oidIsRetiredCipher oid = true := by
  unfold schemeKeyLen at h
  split at h
  · cases h
  split at h
  · cases h
  split at h
  · cases h
  split at h
  · cases h
    simp at he
  split at h
  next hretired => exact hretired
  · cases h
    simp at he

lemma demandPBES2_retired (h : demandPBES2 oid = .error e)
    (he : e.Is .errRetiredAlgorithm) : oidIsRetiredPBE oid = true := by
  unfold demandPBES2 at h
  split at h
  · cases h
  split at h
  next hretired => exact hretired
  · cases h
    simp at he

lemma demandPBES2_ok {u : Unit} (h : demandPBES2 oid = .ok u) :
    oid = oidPBES2 := by
  unfold demandPBES2 at h
  split at h
  next hoid => exact hoid
  · split at h
    · cases h
    · cases h

/-- The headers of legacy encryption are the only thing in PEM that is retired. -/
lemma pemBlock_retired {data : Bytes} (h : pemBlock data = .error e) :
    e.Is .errRetiredAlgorithm ↔ e.Is .errEncryptedKey := by
  refine (?_ : Fails (fun e => e.Is .errRetiredAlgorithm ↔ e.Is .errEncryptedKey)
    (pemBlock data)) e h
  simp only [pemBlock, fails_bind, Prod.forall]
  refine ⟨by simp, fun _ rest _ => ⟨by simp, fun typ rest _ => ⟨by simp, fun _ rest _ => ⟨?_,
    fun encrypted headers rest _ => by simp⟩⟩⟩⟩
  exact fun e he => iff_of_false (ordinary_pemHeaders _ _ _ _ e he).2
    (ordinary_pemHeaders _ _ _ _ e he).1.1

/-- What the entry point with a passphrase makes of the PEM block of a file. -/
lemma pemEncrypted_retired {data : Bytes} (h : pemEncrypted data = .error e)
    (he : e.Is .errRetiredAlgorithm) :
    ∃ e', pemBlock data = .error e' ∧ e'.Is .errEncryptedKey := by
  unfold pemEncrypted at h
  split at h
  next e' hblock =>
    split at h
    next henc => exact ⟨e', hblock, henc⟩
    next henc =>
      cases h
      exact absurd ((pemBlock_retired hblock).mp he) henc
  next typ body hblock =>
    unfold pemContainer at h
    split at h
    · cases h
    split at h
    · cases h
    split at h
    · cases h
      simp at he
    · cases h
      simp [errPEMType] at he

lemma pemEncrypted_pkcs8 {data body : Bytes} (h : pemEncrypted data = .ok (.pkcs8, body)) :
    pemBlock data = .ok (ascii "ENCRYPTED PRIVATE KEY", body) := by
  unfold pemEncrypted at h
  split at h
  next e' hblock =>
    split at h
    · cases h
    · cases h
  next typ body' hblock =>
    simp only [bind_eq_ok, Except.ok.injEq, Prod.mk.injEq] at h
    obtain ⟨c, hc, rfl, rfl⟩ := h
    unfold pemContainer at hc
    split at hc
    · cases hc
    split at hc
    next htyp => rw [hblock, htyp]
    · split at hc
      · cases hc
      · cases hc

section Files

variable [Cryptobyte]

/-- The outer structure that the strict reader accepts is that of the plain entry point. -/
lemma readEncryptedPrivateKeyInfo_ok {der alg ct : Bytes}
    (h : readEncryptedPrivateKeyInfo der = .ok (oid, alg, ct)) :
    isEncryptedPrivateKeyInfo der = true ∧ encryptionAlgorithm der = some (oid, alg) := by
  simp only [readEncryptedPrivateKeyInfo, bind_eq_ok, require_eq_ok, demand_eq_ok, Prod.exists,
    Except.ok.injEq, Prod.mk.injEq] at h
  obtain ⟨seq, rest, hseq, _, -, c, seq', halg, oid', alg', hoid, ct', seq'', hct, _, rfl, rfl,
    rfl, rfl⟩ := h
  obtain ⟨contents, hcontents⟩ := readASN1_of_objectIdentifier hoid
  refine ⟨by simp [isEncryptedPrivateKeyInfo, hseq, halg, hcontents, hct], ?_⟩
  simp [encryptionAlgorithm, hseq, halg, hoid]

/-- What the strict reader refuses as retired has the shape of an encrypted structure, and its
identifiers say so. -/
lemma readPBES2_retired {der : Bytes} (h : readPBES2 der = .error e)
    (he : e.Is .errRetiredAlgorithm) :
    isEncryptedPrivateKeyInfo der = true ∧
      (encryptedPKCS8Error der).Is .errRetiredAlgorithm := by
  rw [readPBES2, bind_eq_error] at h
  rcases h with h | ⟨⟨oid, alg, ct⟩, hinfo, h⟩
  · have hord : Fails Ordinary (readEncryptedPrivateKeyInfo der) := by
      simp [readEncryptedPrivateKeyInfo]
    exact absurd he (hord e h).2
  obtain ⟨hshape, halgorithm⟩ := readEncryptedPrivateKeyInfo_ok hinfo
  refine ⟨hshape, ?_⟩
  rw [encryptedPKCS8Error, halgorithm]
  rw [bind_eq_error] at h
  rcases h with h | ⟨u, hdemand, h⟩
  · simp [demandPBES2_retired h he]
  obtain rfl := demandPBES2_ok hdemand
  -- nothing before the scheme is retired, and nothing after it
  simp only [bind_eq_error, require_eq_error, demand_eq_error, require_eq_ok, demand_eq_ok,
    Prod.exists, reduceCtorEq, or_false, and_false, exists_const] at h
  have hmalformed : ¬ errMalformed.Is .errRetiredAlgorithm := by simp
  rcases h with ⟨-, rfl⟩ | ⟨params, alg', hparams, h⟩
  · exact absurd he hmalformed
  rcases h with ⟨-, rfl⟩ | ⟨-, h⟩
  · exact absurd he hmalformed
  rcases h with ⟨-, rfl⟩ | ⟨kdf, params', hkdf, h⟩
  · exact absurd he hmalformed
  rcases h with ⟨-, rfl⟩ | ⟨scheme, params'', hscheme, h⟩
  · exact absurd he hmalformed
  rcases h with ⟨-, rfl⟩ | ⟨-, h⟩
  · exact absurd he hmalformed
  rcases h with ⟨-, rfl⟩ | ⟨oid, scheme', hoid, h⟩
  · exact absurd he hmalformed
  have hname : encryptionScheme alg = some oid := by
    simp [encryptionScheme, hparams, hkdf, hscheme, hoid]
  rcases h with h | ⟨keyLen, -, h⟩
  · have hne : oidIsRetiredPBE oidPBES2 = false := by decide
    simp [hne, hname, schemeKeyLen_retired h he]
  rcases h with ⟨-, rfl⟩ | ⟨iv, scheme'', -, h⟩
  · exact absurd he hmalformed
  rcases h with ⟨-, rfl⟩ | ⟨-, h⟩
  · exact absurd he hmalformed
  rcases h with h | ⟨kdf', salt, -, h⟩
  · exact absurd he (ordinary_readKDF keyLen kdf e h).2
  · obtain ⟨-, rfl⟩ := h
    exact absurd he (by simp)

/-! ## Calls -/

def Current (e : Err) : Prop := ¬ e.Is .errRetiredAlgorithm

/-- Nothing about an OpenSSH container is retired. -/
lemma current_parseOpenSSHEncrypted (hE : E.Grants) (blob : Buf) (passphrase : Bytes) :
    Op.Raises Current (parseOpenSSHEncrypted E o blob passphrase) := by
  refine raises_bind (raises_andRelease ?_ blob) fun opened => ?_
  · refine raises_bind ((ordinary_borrow blob).mono fun _ he => he.2) fun b => ?_
    have hheader : Fails Current (readOpenSSHHeader b) := fun e h =>
      (ordinary_readOpenSSHHeader b e h).2
    have htype (pubBlob : Bytes) : Fails Current (admitOpenSSHKeyType E o pubBlob) := fun e h =>
      (ordinary_admitOpenSSHKeyType pubBlob e h).2
    refine raises_bind ?_ fun c => (ordinary_openSealed hE c passphrase).mono fun _ he => he.2
    simp [admitEncrypted, readKDFOpts, hheader, htype, Current]
  · cases opened with
    | signer s => exact raises_pure
    | der blob => exact raises_mapError (raises_of_forall (fun _ => by simp [Current]) _)

variable {p : Holdings Bytes Event}

/-- An encrypted structure is refused as retired by its reader or not at all. -/
lemma retired_parsePKCS8Encrypted (hE : E.Grants) {blob : Buf} {der : Bytes}
    (hb : p.held blob = some der) (passphrase : Bytes) :
    (parsePKCS8Encrypted E o blob passphrase).wp p fun r _ =>
      ∀ e, r = .error e → e.Is .errRetiredAlgorithm → readPBES2 der = .error e := by
  rw [parsePKCS8Encrypted, wp_bind, decryptPKCS8, wp_andRelease, wp_bind, borrow,
    wp_read hb]
  dsimp only
  rw [wp_bind, wp_lift]
  cases hf : readPBES2 der with
  | error e =>
    rintro _ ⟨⟩ -
    rfl
  | ok f =>
    refine (ordinary_openDecrypted hE f passphrase).wp (fun x p' => ?_) fun e p' he => ?_
    · refine (ordinary_parseDecrypted x).wp (fun s p'' e h => by cases h) fun e p'' he => ?_
      rintro _ ⟨⟩ hretired
      exact absurd hretired he.2
    · rintro _ ⟨⟩ hretired
      exact absurd hretired he.2

/-! ## The entry points -/

/-- What a file must be to be refused as retired. -/
def Retires (data : Bytes) : Prop :=
  if opensshMagic.isPrefixOf data = true then False
  else if looksLikeDER data = true then
    isEncryptedPrivateKeyInfo data = true ∧ (encryptedPKCS8Error data).Is .errRetiredAlgorithm
  else if contains data pemBegin = true then
    match pemBlock data with
    | .error e => e.Is .errEncryptedKey
    | .ok (typ, body) => typ = ascii "ENCRYPTED PRIVATE KEY" ∧
        ∃ b, decodedBody body = .ok b ∧ (encryptedPKCS8Error b).Is .errRetiredAlgorithm
  else False

/-- The entry point with a passphrase reports retirement only for files that are retired. -/
lemma retires_of_parseEncrypted (hE : E.Grants) (data passphrase : Bytes) :
    (parseEncryptedPrivateKey E o data passphrase).wp p fun r _ =>
      ∀ e, r = .error e → e.Is .errRetiredAlgorithm → Retires data := by
  have hcurrent {x : Call Signer} {p : Holdings Bytes Event} (h : Op.Raises Current x) :
      x.wp p fun r _ => ∀ e, r = .error e → e.Is .errRetiredAlgorithm → Retires data := by
    refine h.wp (fun s p' e h => by cases h) fun e p' he => ?_
    rintro _ ⟨⟩ hretired
    exact absurd hretired he
  unfold parseEncryptedPrivateKey locateEncrypted
  by_cases h₁ : opensshMagic.isPrefixOf data = true
  · simp only [if_pos h₁]
    rw [wp_bind, wp_bind, wp_copyToBuffer hE (ne_nil_of_magic h₁)]
    exact hcurrent (current_parseOpenSSHEncrypted hE _ passphrase)
  by_cases h₂ : looksLikeDER data = true
  · simp only [if_neg h₁, if_pos h₂]
    rw [wp_bind, wp_bind, wp_lift]
    cases hder : derIsEncrypted data with
    | error e =>
      have hshape : Fails Current (derIsEncrypted data) := by
        simp only [derIsEncrypted, fails_bind, fails_require, Prod.forall]
        refine ⟨by simp [Current], fun seq _ _ => ⟨by simp [Current], fun x _ _ => ?_⟩⟩
        split
        · simp [Current]
        split
        · simp
        · simp [Current]
      rintro _ ⟨⟩ hretired
      exact absurd hretired (hshape e hder)
    | ok u =>
      rw [wp_bind, wp_copyToBuffer hE (looksLikeDER_ne_nil h₂)]
      change (parsePKCS8Encrypted E o p.requests passphrase).wp (p.grant data) fun r _ =>
        ∀ e, r = .error e → e.Is .errRetiredAlgorithm → Retires data
      refine wp_mono (retired_parsePKCS8Encrypted hE (Holdings.held_grant p data) passphrase)
        fun r p' hr e he hretired => ?_
      rw [Retires, if_neg h₁, if_pos h₂]
      exact readPBES2_retired (hr e he hretired) hretired
  by_cases h₃ : contains data pemBegin = true
  · simp only [if_neg h₁, if_neg h₂, if_pos h₃]
    rw [wp_bind, wp_bind, wp_lift]
    cases hpem : pemEncrypted data with
    | error e =>
      rintro _ ⟨⟩ hretired
      obtain ⟨e', hblock, henc⟩ := pemEncrypted_retired hpem hretired
      simp only [Retires, if_neg h₁, if_neg h₂, if_pos h₃, hblock]
      exact henc
    | ok x =>
      obtain ⟨c, body⟩ := x
      dsimp only
      rw [wp_bind]
      refine wp_decodePEMBody hE (fun b hbody => ?_) fun e p' hbody _ => ?_
      · cases c with
        | openSSH => exact hcurrent (current_parseOpenSSHEncrypted hE _ passphrase)
        | pkcs8 =>
          change (parsePKCS8Encrypted E o p.requests passphrase).wp (p.grant b) fun r _ =>
            ∀ e, r = .error e → e.Is .errRetiredAlgorithm → Retires data
          refine wp_mono (retired_parsePKCS8Encrypted hE (Holdings.held_grant p b) passphrase)
            fun r p' hr e he hretired => ?_
          simp only [Retires, if_neg h₁, if_neg h₂, if_pos h₃, pemEncrypted_pkcs8 hpem]
          exact ⟨trivial, b, hbody, (readPBES2_retired (hr e he hretired) hretired).2⟩
      · rintro _ ⟨⟩ hretired
        exact absurd hretired (ordinary_decodedBody body e hbody).2
  · simp only [if_neg h₁, if_neg h₂, if_neg h₃]
    rintro _ ⟨⟩ hretired
    exact absurd hretired (by simp [errNotAnyContainer])

/-- The plain entry point names such a file as encrypted and as retired. -/
lemma parsePrivateKey_of_retires (hE : E.Grants) {data : Bytes} (h : Retires data) :
    (parsePrivateKey E o data).wp p fun r _ =>
      ∃ e, r = .error e ∧ e.Is .errEncryptedKey ∧ e.Is .errRetiredAlgorithm := by
  unfold parsePrivateKey
  unfold Retires at h
  by_cases h₁ : opensshMagic.isPrefixOf data = true
  · rw [if_pos h₁] at h
    exact h.elim
  by_cases h₂ : looksLikeDER data = true
  · rw [if_neg h₁, if_pos h₂] at h
    obtain ⟨hshape, hretired⟩ := h
    obtain ⟨seq, rest, hseq, hpeek⟩ := readASN1_of_isEncrypted hshape
    have herror : derShape data = .error (encryptedPKCS8Error data) := by
      simp only [derShape, hseq, require, bind, Except.bind, if_pos hpeek, if_pos hshape]
    simp only [if_neg h₁, if_pos h₂]
    rw [wp_bind, wp_copyToBuffer hE (looksLikeDER_ne_nil h₂)]
    dsimp only
    rw [parseDER, wp_bind, wp_orRelease, wp_bind, borrow,
      wp_read (Holdings.held_grant p data)]
    dsimp only
    rw [wp_lift, herror]
    exact ⟨_, rfl, is_encryptedPKCS8Error data, hretired⟩
  by_cases h₃ : contains data pemBegin = true
  · rw [if_neg h₁, if_neg h₂, if_pos h₃] at h
    simp only [if_neg h₁, if_neg h₂, if_pos h₃]
    rw [wp_bind, wp_lift]
    cases hblock : pemBlock data with
    | error e =>
      rw [hblock] at h
      exact ⟨e, rfl, h, (pemBlock_retired hblock).mpr h⟩
    | ok x =>
      obtain ⟨typ, body⟩ := x
      rw [hblock] at h
      obtain ⟨rfl, b, hbody, hretired⟩ := h
      dsimp only
      rw [wp_bind]
      refine wp_decodePEMBody hE (fun b' hbody' => ?_) fun e p' hbody' _ => ?_
      · obtain rfl : b = b' := Except.ok.inj (hbody.symm.trans hbody')
        dsimp only
        rw [parsePEM, if_neg (by decide), if_neg (by decide), if_neg (by decide),
          if_neg (by decide), if_pos rfl, wp_andRelease, wp_bind, borrow,
          wp_read (Holdings.held_grant p b)]
        exact ⟨_, rfl, is_encryptedPKCS8Error b, hretired⟩
      · rw [hbody] at hbody'
        cases hbody'
  · rw [if_neg h₁, if_neg h₂, if_neg h₃] at h
    exact h.elim

section EntryPoints

variable (E) (data passphrase : Bytes) (opts opts' : List Opt) (p p' : Holdings Bytes Event)

/-- What `ParsePrivateKeyWithPassphrase` refuses as retired, `ParsePrivateKey` refuses as encrypted
and as retired. -/
theorem retired_agree (hE : E.Grants)
    (hretired : Reports ((parsePrivateKeyWithPassphrase E data passphrase opts').run p').1
      .errRetiredAlgorithm) (hpass : passphrase ≠ []) :
    ∃ e, ((parsePrivateKeyCall E data opts).run p).1 = .error e ∧
      e.Is .errEncryptedKey ∧ e.Is .errRetiredAlgorithm := by
  obtain ⟨e, he, hsentinel⟩ := hretired
  have hretires : data ≠ [] ∧ Retires data := by
    unfold parsePrivateKeyWithPassphrase at he
    rw [if_neg hpass] at he
    split at he
    · cases he
      exact absurd hsentinel (by simp)
    next hdata =>
      have hwp : ((parseEncryptedPrivateKey E (resolveOptions opts') data passphrase).mapError
          (Err.after "secmemcrypto: parse private key: ")).wp p' fun r _ =>
            ∀ e, r = .error e → e.Is .errRetiredAlgorithm → Retires data := by
        rw [Op.wp_mapError]
        refine Op.wp_mono (retires_of_parseEncrypted hE data passphrase) fun r q hr => ?_
        cases r with
        | ok s => exact fun _ h => nomatch h
        | error e =>
          rintro _ ⟨⟩ hsentinel
          exact hr e rfl hsentinel
      exact ⟨hdata, hwp e he hsentinel⟩
  obtain ⟨hdata, hretires⟩ := hretires
  change (parsePrivateKeyCall E data opts).wp p fun r _ =>
    ∃ e, r = .error e ∧ e.Is .errEncryptedKey ∧ e.Is .errRetiredAlgorithm
  rw [parsePrivateKeyCall, if_neg hdata, Op.wp_mapError]
  refine Op.wp_mono (parsePrivateKey_of_retires hE hretires) fun r q hr => ?_
  obtain ⟨e, rfl, henc, hret⟩ := hr
  exact ⟨_, rfl, henc, hret⟩

end EntryPoints

end Files

/-- An encrypted structure under MD5 and DES. -/
def pbeWithMD5AndDES : Bytes :=
  [0x30, 0x0f, 0x30, 0x0b, 0x06, 0x09, 0x2a, 0x86, 0x48, 0x86, 0xf7, 0x0d, 0x01, 0x05, 0x03, 0x04,
    0x00]

open Der.Cursor in
theorem retired_agree_pbeWithMD5AndDES :
    grantingEnv.Grants ∧
      Reports
        ((parsePrivateKeyWithPassphrase grantingEnv pbeWithMD5AndDES [1] []).run .empty).1
        .errRetiredAlgorithm ∧
      ∃ e, ((parsePrivateKeyCall grantingEnv pbeWithMD5AndDES []).run .empty).1 = .error e ∧
        e.Is .errEncryptedKey ∧ e.Is .errRetiredAlgorithm := by
  have hreports : Reports
      ((parsePrivateKeyWithPassphrase grantingEnv pbeWithMD5AndDES [1] []).run .empty).1
      .errRetiredAlgorithm := ⟨_, rfl, by decide⟩
  exact ⟨grants_grantingEnv, hreports, retired_agree grantingEnv pbeWithMD5AndDES [1] [] [] .empty
    .empty grants_grantingEnv hreports (by decide)⟩

end Secmem.Crypto
