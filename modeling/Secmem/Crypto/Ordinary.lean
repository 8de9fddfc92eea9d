import Secmem.Crypto.Granted

/-!
# Errors that say nothing about protection

Callers of the two entry points act on `ErrEncryptedKey`, `ErrNotEncrypted` and
`ErrRetiredAlgorithm`.  The readers and the parsers below the classification of a file report none
of them: each of their errors is `Ordinary`, provided that no allocation is refused, since the
host's own errors are not the package's to choose.  Only `readPBES2` may find that an algorithm is
retired; its errors are `Silent` about protection.
-/

namespace Secmem.Crypto

open Ownership Der ByteStrings
open Op hiding bind

variable {E : Env} {o : Options}

def Silent (e : Err) : Prop := ¬ e.Is .errEncryptedKey ∧ ¬ e.Is .errNotEncrypted

def Ordinary (e : Err) : Prop := Silent e ∧ ¬ e.Is .errRetiredAlgorithm

@[simp] lemma silent_iff {e : Err} :
    Silent e ↔ ¬ e.Is .errEncryptedKey ∧ ¬ e.Is .errNotEncrypted := Iff.rfl

@[simp] lemma ordinary_iff {e : Err} :
    Ordinary e ↔ Silent e ∧ ¬ e.Is .errRetiredAlgorithm := Iff.rfl

lemma ordinary_errMalformed : Ordinary errMalformed := by simp

@[simp] lemma not_is_errPanic {s : Sentinel} : ¬ errPanic.Is s := Err.not_is_new

@[simp] lemma is_errBlocksDisagree {s : Sentinel} :
    errBlocksDisagree.Is s ↔ s = .errMalformed := by
  rw [errBlocksDisagree, Err.is_then, is_errMalformed]

@[simp] lemma is_errPubMismatch {s : Sentinel} : errPubMismatch.Is s ↔ s = .errMalformed := by
  rw [errPubMismatch, Err.is_then, is_errMalformed]

/-! ## Readers -/

@[simp] lemma ordinary_readOpenSSHHeader (b : Bytes) :
    Fails Ordinary (readOpenSSHHeader b) := by
  simp [readOpenSSHHeader]

@[simp] lemma ordinary_checkHeapTransients (op : String) :
    Fails Ordinary (checkHeapTransients E o op) := by
  simp [checkHeapTransients]

@[simp] lemma ordinary_checkRSAIntegers (n e d p q : Bytes) (crt : List Bytes) :
    Fails Ordinary (checkRSAIntegers n e d p q crt) := by
  simp [checkRSAIntegers]

@[simp] lemma ordinary_pkcs1Fields (n e d p q iqmp : Bytes) :
    Fails Ordinary (pkcs1Fields n e d p q iqmp) := by
  simp [pkcs1Fields]

@[simp] lemma ordinary_checkOpenSSHPadding (pad : Bytes) (blockSize : ℕ) :
    Fails Ordinary (checkOpenSSHPadding pad blockSize) := by
  simp [checkOpenSSHPadding]

@[simp] lemma is_errKeyType {name : Bytes} {s : Sentinel} :
    (errKeyType name).Is s ↔ s = .errUnsupportedKey := by
  simp [errKeyType]

@[simp] lemma ordinary_readBlockType (privBlock pubBlob : Bytes) :
    Fails Ordinary (readBlockType privBlock pubBlob) := by
  simp [readBlockType]

@[simp] lemma ordinary_readEd25519 (p pub : Bytes) (blockSize : ℕ) :
    Fails Ordinary (readEd25519 p pub blockSize) := by
  simp [readEd25519]

@[simp] lemma ordinary_readECDSA (name p pub : Bytes) (blockSize : ℕ) :
    Fails Ordinary (readECDSA name p pub blockSize) := by
  simp [readECDSA]

@[simp] lemma ordinary_readRSA (p pub : Bytes) (blockSize : ℕ) :
    Fails Ordinary (readRSA p pub blockSize) := by
  simp [readRSA]

@[simp] lemma ordinary_admitOpenSSHKeyType (pubBlob : Bytes) :
    Fails Ordinary (admitOpenSSHKeyType E o pubBlob) := by
  simp only [admitOpenSSHKeyType, fails_bind, fails_require, Prod.forall]
  refine ⟨by simp, fun keyType _ _ => ?_⟩
  split
  · simp
  · simp
  · simp
  · simp

@[simp] lemma silent_schemeKeyLen (oid : ObjectIdentifier) :
    Fails Silent (schemeKeyLen oid) := by
  unfold schemeKeyLen
  split
  · simp
  split
  · simp
  split
  · simp
  split
  · simp
  split
  · simp
  · simp

@[simp] lemma silent_demandPBES2 (oid : ObjectIdentifier) :
    Fails Silent (demandPBES2 oid) := by
  unfold demandPBES2
  split
  · simp
  split
  · simp
  · simp

section Readers

variable [Cryptobyte]

@[simp] lemma ordinary_locatePKCS1 (der : Bytes) : Fails Ordinary (locatePKCS1 der) := by
  simp only [locatePKCS1, fails_bind, fails_require, Prod.forall]
  refine ⟨by simp, fun seq _ _ => ⟨by simp, fun _ seq _ => ?_⟩⟩
  split
  · simp
  · split
    · simp
    · simp

@[simp] lemma ordinary_readIntegers (k : ℕ) (s : Bytes) :
    Fails Ordinary (readIntegers k s) := by
  induction k generalizing s with
  | zero => simp [readIntegers]
  | succ k ih =>
    rw [readIntegers]
    split
    · simp [ih]
    · simp

@[simp] lemma ordinary_checkPrimeInfo (k : ℕ) (info : Bytes) :
    Fails Ordinary (checkPrimeInfo k info) := by
  induction k generalizing info with
  | zero => simp [checkPrimeInfo]
  | succ k ih => simp [checkPrimeInfo, ih]

@[simp] lemma ordinary_checkOtherPrimes (k : ℕ) (others : Bytes) :
    Fails Ordinary (checkOtherPrimes k others) := by
  induction k generalizing others with
  | zero => simp [checkOtherPrimes]
  | succ k ih =>
    rw [checkOtherPrimes]
    split
    · simp
    · simp [ih]

@[simp] lemma ordinary_checkPKCS1Size (pkcs1 : Bytes) :
    Fails Ordinary (checkPKCS1Size pkcs1) := by
  simp only [checkPKCS1Size, fails_bind, fails_require, Prod.forall]
  refine ⟨by simp, fun seq _ _ => ⟨by simp, fun _ seq _ => ⟨by simp, fun ints seq _ => ?_⟩⟩⟩
  split
  · simp only [fails_bind, ordinary_checkRSAIntegers, true_and]
    intro _ _
    split
    · simp
    · simp
  · simp

lemma ordinary_rejectNonRSAPKCS8 (der : Bytes) : Ordinary (rejectNonRSAPKCS8 der) := by
  unfold rejectNonRSAPKCS8
  dsimp only
  split
  next e h =>
    refine (?_ : Fails Ordinary _) e h
    simp
  next oid h =>
    split
    · simp
    · split
      · simp
      · split
        · simp
        · simp

@[simp] lemma ordinary_rsaPublic (der : Bytes) : Fails Ordinary (rsaPublic E der) := by
  simp only [rsaPublic, fails_bind, ordinary_locatePKCS1, true_and]
  intro pkcs1 _
  cases pkcs1 with
  | none => exact fails_error.mpr (ordinary_rejectNonRSAPKCS8 der)
  | some pkcs1 =>
    simp only [fails_bind, ordinary_checkPKCS1Size, true_and]
    intro _ _
    split
    · simp
    · split
      · split <;> simp
      · split <;> simp

@[simp] lemma ordinary_sec1Curve (params : Option Bytes) (curve : Option Curve) :
    Fails Ordinary (sec1Curve params curve) := by
  cases params with
  | none => simp [sec1Curve]
  | some params => simp [sec1Curve]

@[simp] lemma ordinary_readSEC1 (der : Bytes) (curve : Option Curve) :
    Fails Ordinary (readSEC1 der curve) := by
  simp only [readSEC1, fails_bind, fails_require, fails_demand, ordinary_sec1Curve,
    ordinary_errMalformed, Prod.forall, implies_true, true_and]
  intros
  split
  · simp
  · simp

@[simp] lemma ordinary_readPKCS8 (der : Bytes) : Fails Ordinary (readPKCS8 der) := by
  simp only [readPKCS8, fails_bind, fails_require, fails_demand, ordinary_errMalformed,
    Prod.forall, implies_true, true_and]
  intros
  split
  · simp
  · simp only [fails_bind, fails_demand, ordinary_errMalformed, implies_true, true_and]
    intro _ _
    split
    · simp
    · simp

@[simp] lemma ordinary_readSeed (priv : Bytes) : Fails Ordinary (readSeed priv) := by
  simp [readSeed]

@[simp] lemma ordinary_readNamedCurve (alg : Bytes) : Fails Ordinary (readNamedCurve alg) := by
  simp [readNamedCurve]

@[simp] lemma ordinary_readKeyLength (kdf : String) (keyLen : ℕ) (s : Bytes) :
    Fails Ordinary (readKeyLength kdf keyLen s) := by
  unfold readKeyLength
  split
  · simp
  · simp

@[simp] lemma ordinary_readSalt (kdf : String) (s : Bytes) : Fails Ordinary (readSalt kdf s) := by
  simp [readSalt]

@[simp] lemma ordinary_readPRF (s : Bytes) : Fails Ordinary (readPRF s) := by
  simp only [readPRF, fails_bind, fails_require, Prod.forall]
  refine ⟨by simp, fun prf _ _ => ?_⟩
  cases prf with
  | none => simp
  | some prf => simp

@[simp] lemma ordinary_readPBKDF2Params (keyLen : ℕ) (s : Bytes) :
    Fails Ordinary (readPBKDF2Params keyLen s) := by
  simp [readPBKDF2Params]

@[simp] lemma ordinary_readScryptParams (keyLen : ℕ) (s : Bytes) :
    Fails Ordinary (readScryptParams keyLen s) := by
  simp [readScryptParams, checkScryptParams]

@[simp] lemma ordinary_readKDF (keyLen : ℕ) (kdf : Bytes) :
    Fails Ordinary (readKDF keyLen kdf) := by
  simp only [readKDF, fails_bind, fails_require, fails_demand, Prod.forall]
  refine ⟨by simp, fun oid _ _ => ⟨by simp, fun _ _ => ⟨by simp, fun params _ _ =>
    ⟨by simp, fun _ _ => ?_⟩⟩⟩⟩
  split
  · simp
  · simp

@[simp] lemma silent_readPBES2 (der : Bytes) : Fails Silent (readPBES2 der) := by
  have hkdf (keyLen : ℕ) (kdf : Bytes) : Fails Silent (readKDF keyLen kdf) :=
    fun e h => (ordinary_readKDF keyLen kdf e h).1
  simp [readPBES2, readEncryptedPrivateKeyInfo, hkdf]

end Readers

/-! ## Calls -/

lemma ordinary_newEmptyBuffer (hE : E.Grants) (size : ℕ) :
    Op.Raises Ordinary (newEmptyBuffer E size) := by
  unfold newEmptyBuffer
  split
  · simp
  · exact raises_request fun n e h => by simp [hE n] at h

@[simp] lemma ordinary_borrow (b : Buf) : Op.Raises Ordinary (borrow b) :=
  raises_read (by simp) b

@[simp] lemma ordinary_store (b : Buf) (contents : Bytes) :
    Op.Raises Ordinary (store b contents) :=
  raises_write (by simp) b contents

@[simp] lemma ordinary_copyIn (b : Buf) (src : Bytes) (off : ℕ) :
    Op.Raises Ordinary (copyIn b src off) := by
  refine raises_bind (ordinary_borrow b) fun dst => ?_
  split
  · simp
  · simp

@[simp] lemma ordinary_truncate (b : Buf) (n : ℕ) : Op.Raises Ordinary (truncate b n) := by
  refine raises_bind (raises_read (by simp) b) fun data => ?_
  split
  · simp
  · simp

@[simp] lemma ordinary_newEd25519Signer (b : Buf) :
    Op.Raises Ordinary (newEd25519Signer E b) := by
  refine raises_bind (raises_read (by simp) b) fun seed => ?_
  refine raises_bind (by simp) fun _ => ?_
  refine raises_bind (raises_mapError ?_) fun pub => raises_pure
  simp [deriveEd25519PublicKey]

@[simp] lemma ordinary_newECDSASigner (curve : Curve) (b : Buf) :
    Op.Raises Ordinary (newECDSASigner E o curve b) := by
  refine raises_bind (by simp) fun _ => ?_
  refine raises_bind (raises_read (by simp) b) fun scalar => ?_
  refine raises_bind (by simp) fun _ => ?_
  split
  · simp
  · simp

@[simp] lemma ordinary_checkPub (s : Signer) (pub : Option Bytes) :
    Op.Raises Ordinary (checkPub s pub) := by
  unfold checkPub
  split
  · simp
  · exact raises_bind raises_release fun _ => by simp

lemma ordinary_ecdsaFromScalar (hE : E.Grants) (d : Bytes) (curve : Curve)
    (pub : Option Bytes) : Op.Raises Ordinary (ecdsaFromScalar E o d curve pub) := by
  refine raises_bind (by simp) fun _ => ?_
  refine raises_bind (raises_mapError (ordinary_newEmptyBuffer hE _)) fun out => ?_
  refine raises_bind (raises_orRelease (by simp) out) fun _ => ?_
  exact raises_bind (raises_orRelease (by simp) out) fun s => by simp

lemma ordinary_ed25519FromSeed (hE : E.Grants) (seed : Bytes) (pub : Option Bytes) :
    Op.Raises Ordinary (ed25519FromSeed E seed pub) := by
  refine raises_bind (by simp) fun _ => ?_
  refine raises_bind (raises_mapError (ordinary_newEmptyBuffer hE _)) fun out => ?_
  refine raises_bind (raises_orRelease (by simp) out) fun _ => ?_
  exact raises_bind (raises_orRelease (by simp) out) fun s => by simp

lemma ordinary_pkcs1DER (hE : E.Grants) (n e d p q iqmp : Bytes) :
    Op.Raises Ordinary (pkcs1DER E n e d p q iqmp) := by
  refine raises_bind (by simp) fun fields => ?_
  refine raises_bind (raises_mapError (ordinary_newEmptyBuffer hE _)) fun out => ?_
  refine raises_bind (raises_orRelease ?_ out) fun _ => raises_pure
  refine raises_bind (ordinary_borrow out) fun dst => ?_
  refine raises_bind (by simp) fun w => ?_
  exact raises_bind (ordinary_store out w.b) fun _ => by simp

lemma ordinary_parseOpenSSHPrivateBlock (hE : E.Grants) (privBlock pubBlob : Bytes)
    (blockSize : ℕ) :
    Op.Raises Ordinary (parseOpenSSHPrivateBlock E o privBlock pubBlob blockSize) := by
  refine raises_bind (by simp) fun x => ?_
  obtain ⟨t, p, pub⟩ := x
  cases t with
  | ed25519 =>
    refine raises_bind (by simp) fun _ => ?_
    exact raises_bind (ordinary_ed25519FromSeed hE _ _) fun s => raises_pure
  | ecdsa curve name =>
    refine raises_bind (by simp) fun _ => ?_
    exact raises_bind (ordinary_ecdsaFromScalar hE _ _ _) fun s => raises_pure
  | rsa =>
    refine raises_bind (by simp) fun f => ?_
    exact raises_bind (ordinary_pkcs1DER hE _ _ _ _ _ _) fun der => raises_pure

lemma ordinary_withScratch {α : Type} (hE : E.Grants) (size : ℕ) {fn : Call α}
    (h : Op.Raises Ordinary fn) : Op.Raises Ordinary (withScratch E size fn) := by
  refine raises_bind (raises_mapError (ordinary_newEmptyBuffer hE _)) fun scratch => ?_
  exact raises_andRelease (raises_bind (ordinary_borrow scratch) fun _ => h) scratch

@[simp] lemma ordinary_checkAESKey (key : Bytes) : Fails Ordinary (checkAESKey key) := by
  simp [checkAESKey]

@[simp] lemma ordinary_wipeAESBlock (out : Bytes) : Fails Ordinary (wipeAESBlock E out) := by
  unfold wipeAESBlock
  split
  · simp
  · simp

lemma ordinary_pbes2Decrypt (hE : E.Grants) (f : Pbes2File) (passphrase : Bytes) :
    Op.Raises Ordinary (pbes2Decrypt E f passphrase) := by
  refine ordinary_withScratch hE _ (raises_bind raises_emit fun _ => ?_)
  exact raises_bind (by simp) fun _ => by simp

@[simp] lemma ordinary_unpad (p : Bytes) : Fails Ordinary (unpad p) := by
  unfold unpad
  split
  · simp
  · split
    · simp
    · simp [errPBES2Decrypt]

lemma ordinary_pbes2Verdict (e : Err) : Ordinary (pbes2Verdict e) := by
  unfold pbes2Verdict
  split
  · simp
  split
  · simp
  · simp

lemma ordinary_opensshCrypt (hE : E.Grants) (src tag passphrase salt : Bytes) (rounds : ℕ)
    (mode : OpensshCipher) (decrypt : Bool) :
    Op.Raises Ordinary (opensshCrypt E src tag passphrase salt rounds mode decrypt) := by
  refine ordinary_withScratch hE _ (raises_bind (by simp [BcryptPbkdf.check]) fun _ => ?_)
  refine raises_bind raises_emit fun _ => ?_
  dsimp only
  split
  · split
    · simp
    · split
      · simp
      · simp
  · refine raises_bind (by simp) fun _ => ?_
    split
    · split
      · split
        · simp
        · simp
      · simp
    · simp

lemma ordinary_openSealed (hE : E.Grants) (c : Sealed) (passphrase : Bytes) :
    Op.Raises Ordinary (openSealed E o c passphrase) := by
  refine raises_bind (raises_mapError (ordinary_newEmptyBuffer hE _)) fun plain => ?_
  refine raises_andRelease (raises_bind (raises_mapError ?_) fun p => ?_) plain
  · refine (ordinary_opensshCrypt hE _ _ _ _ _ _ _).mono fun e he => ?_
    unfold cryptVerdict
    split
    · simp
    · exact he
  · refine raises_bind (ordinary_store plain p) fun _ => ?_
    exact raises_mapError (raises_of_forall (fun _ => by simp) _)

@[simp] lemma ordinary_decodedBody (body : Bytes) : Fails Ordinary (decodedBody body) := by
  simp only [decodedBody, fails_bind, fails_demand]
  refine ⟨by simp, fun _ _ => ?_⟩
  split
  · simp [malformedBody]
  · simp

variable [Cryptobyte]

@[simp] lemma ordinary_rsaFromDER (b : Buf) : Op.Raises Ordinary (rsaFromDER E o b) := by
  refine raises_orRelease (raises_bind (by simp) fun _ => ?_) b
  refine raises_bind (raises_read (by simp) b) fun der => ?_
  exact raises_bind (raises_mapError (raises_lift.mpr (ordinary_rsaPublic der))) fun pub =>
    raises_pure

@[simp] lemma ordinary_finish (x : Opened) : Op.Raises Ordinary (x.finish E o) := by
  cases x with
  | signer s => exact raises_pure
  | der b => exact ordinary_rsaFromDER b

lemma ordinary_ecdsaFromSEC1 (hE : E.Grants) (der : Bytes) (curve : Option Curve)
    (outerPub : Option Bytes) : Op.Raises Ordinary (ecdsaFromSEC1 E o der curve outerPub) := by
  refine raises_bind (by simp) fun k => ?_
  exact raises_bind (ordinary_ecdsaFromScalar hE _ _ _) fun s => by simp

lemma ordinary_parseSEC1 (hE : E.Grants) (b : Buf) : Op.Raises Ordinary (parseSEC1 E o b) :=
  raises_andRelease
    (raises_bind (ordinary_borrow b) fun der => ordinary_ecdsaFromSEC1 hE der none none) b

lemma ordinary_openPKCS8 (hE : E.Grants) (k : PrivateKeyInfo) :
    Op.Raises Ordinary (openPKCS8 E o k) := by
  unfold openPKCS8
  split
  · simp
  split
  · refine raises_bind (by simp) fun curve => ?_
    exact raises_bind (ordinary_ecdsaFromSEC1 hE _ _ _) fun s => raises_pure
  split
  · refine raises_bind (by simp) fun seed => ?_
    exact raises_bind (ordinary_ed25519FromSeed hE _ _) fun s => raises_pure
  split
  · simp
  · simp

lemma ordinary_parsePKCS8 (hE : E.Grants) (b : Buf) : Op.Raises Ordinary (parsePKCS8 E o b) := by
  refine raises_bind (raises_orRelease ?_ b) fun s => ?_
  · refine raises_bind (ordinary_borrow b) fun der => ?_
    exact raises_bind (by simp) fun k => ordinary_openPKCS8 hE k
  · cases s with
    | none => exact ordinary_rsaFromDER b
    | some s => exact raises_bind raises_release fun _ => raises_pure

end Secmem.Crypto
