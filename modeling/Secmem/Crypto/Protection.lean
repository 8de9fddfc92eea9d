import Secmem.Framework.DerEncoding
import Secmem.Crypto.Ordinary

/-!
# Protected or not

The two entry points classify a file with code of their own.  `verdict` is the classification
both of them come to: a file is unprotected, encrypted, or neither.  `ParsePrivateKey` succeeds
only on an unprotected file and reports `ErrEncryptedKey` exactly for an encrypted one;
`ParsePrivateKeyWithPassphrase` succeeds only on an encrypted file and reports `ErrNotEncrypted`
exactly for an unprotected one.

Once a container has been classified, the parsers have only ordinary errors left to report.
-/

namespace Secmem.Crypto

open Ownership Der ByteStrings
open Op hiding bind

variable {E : Env} {o : Options}

/-! ## The classification -/

/-- What a file says about its own protection. -/
inductive Verdict
  | unprotected
  | encrypted
  | neither
  deriving DecidableEq, Repr

def opensshVerdict (b : Bytes) : Verdict :=
  match readOpenSSHHeader b with
  | .error _ => .neither
  | .ok h => if h.cipher = opensshCipherNone then .unprotected else .encrypted

def pemVerdict (data : Bytes) : Verdict :=
  match pemBlock data with
  | .error e => if e.Is .errEncryptedKey then .encrypted else .neither
  | .ok (typ, body) =>
    if typ = opensshPEMType then
      match decodedBody body with
      | .error _ => .neither
      | .ok b => opensshVerdict b
    else if typ = ascii "PRIVATE KEY" ∨ typ = ascii "EC PRIVATE KEY" ∨
        typ = ascii "RSA PRIVATE KEY" then .unprotected
    else if typ = ascii "ENCRYPTED PRIVATE KEY" then
      match decodedBody body with
      | .error _ => .neither
      | .ok _ => .encrypted
    else .neither

/-- A result tells a verdict by a sentinel: success is for `success` only, and the sentinel is
reported for `failure` and nothing else. -/
def Tells (s : Sentinel) (success failure v : Verdict) {α : Type} (r : Except Err α) : Prop :=
  match r with
  | .ok _ => v = success
  | .error e => e.Is s ↔ v = failure

/-- How `ParsePrivateKey` tells a verdict. -/
abbrev TellsPlain (v : Verdict) {α : Type} : Except Err α → Prop :=
  Tells .errEncryptedKey .unprotected .encrypted v

/-- How `ParsePrivateKeyWithPassphrase` tells a verdict. -/
abbrev TellsEncrypted (v : Verdict) {α : Type} : Except Err α → Prop :=
  Tells .errNotEncrypted .encrypted .unprotected v

variable {p : Holdings Bytes Event} {α : Type} {blob : Buf} {der : Bytes} {data : Bytes}

lemma tellsPlain_of_ordinary {x : Call α} (h : Op.Raises Ordinary x) :
    x.wp p fun r _ => TellsPlain .unprotected r :=
  h.wp (fun _ _ => rfl) fun _ _ he => iff_of_false he.1.1 fun h => by cases h

lemma tellsEncrypted_of_silent {x : Call α} (h : Op.Raises Silent x) :
    x.wp p fun r _ => TellsEncrypted .encrypted r :=
  h.wp (fun _ _ => rfl) fun _ _ he => iff_of_false he.2 fun h => by cases h

/-- The result is an error that wraps the sentinel. -/
def Reports {α : Type} (r : Except Err α) (s : Sentinel) : Prop := ∃ e, r = .error e ∧ e.Is s

/-- Two results that tell the same verdict, each in its own way, do not contradict. -/
lemma agree_of_tells {v : Verdict} {plain guarded : Except Err Signer}
    (hplain : TellsPlain v plain) (hguarded : TellsEncrypted v guarded) :
    (∀ s, plain = .ok s → Reports guarded .errNotEncrypted) ∧
      (∀ s, guarded = .ok s → Reports plain .errEncryptedKey) ∧
      ¬ (Reports plain .errEncryptedKey ∧ Reports guarded .errNotEncrypted) := by
  refine ⟨?_, ?_, ?_⟩
  · rintro s rfl
    cases guarded with
    | ok s' => cases hplain.symm.trans hguarded
    | error e => exact ⟨e, rfl, hguarded.mpr hplain⟩
  · rintro s rfl
    cases plain with
    | ok s' => cases hplain.symm.trans hguarded
    | error e => exact ⟨e, rfl, hplain.mpr hguarded⟩
  · rintro ⟨⟨e, rfl, he⟩, ⟨e', rfl, he'⟩⟩
    cases (hplain.mp he).symm.trans (hguarded.mp he')

/-! ## OpenSSH containers -/

lemma tells_admitPlain (b : Bytes) : TellsPlain (opensshVerdict b) (admitPlain b) := by
  unfold opensshVerdict
  cases h : readOpenSSHHeader b with
  | error e =>
    rw [admitPlain, h]
    exact iff_of_false (ordinary_readOpenSSHHeader b e h).1.1 fun h => by cases h
  | ok hd =>
    dsimp only
    by_cases hc : hd.cipher = opensshCipherNone
    · rw [if_pos hc]
      have hord : Fails Ordinary (admitPlain b) := by simp [admitPlain, h, hc]
      cases ha : admitPlain b with
      | ok _ => rfl
      | error e => exact iff_of_false (hord e ha).1.1 fun h => by cases h
    · rw [if_neg hc, admitPlain, h]
      simp [Tells, bind, Except.bind, demand, hc]

lemma tells_admitEncrypted (b : Bytes) :
    TellsEncrypted (opensshVerdict b) (admitEncrypted E o b) := by
  unfold opensshVerdict
  cases h : readOpenSSHHeader b with
  | error e =>
    rw [admitEncrypted, h]
    exact iff_of_false (ordinary_readOpenSSHHeader b e h).1.2 fun h => by cases h
  | ok hd =>
    dsimp only
    by_cases hc : hd.cipher = opensshCipherNone
    · rw [if_pos hc, admitEncrypted, h]
      simp [Tells, bind, Except.bind, demand, hc]
    · rw [if_neg hc]
      have hord : Fails Ordinary (admitEncrypted E o b) := by
        simp [admitEncrypted, h, hc, readKDFOpts]
      cases ha : admitEncrypted E o b with
      | ok _ => rfl
      | error e => exact iff_of_false (hord e ha).1.2 fun h => by cases h

lemma ne_nil_of_magic (h : opensshMagic.isPrefixOf data = true) : data ≠ [] := by
  rintro rfl
  revert h
  decide

/-! ## PEM blocks -/

lemma ordinary_pemHeaders (fuel : ℕ) (encrypted : Bool) (headers : ℕ) (rest : Bytes) :
    Fails Ordinary (pemHeaders fuel encrypted headers rest) := by
  induction fuel generalizing encrypted headers rest with
  | zero => simp [pemHeaders]
  | succ fuel ih =>
    rw [pemHeaders]
    split
    · simp
    split
    · exact ih _ _ _
    · simp

lemma not_is_pemBlock (data : Bytes) :
    Fails (fun e => ¬ e.Is .errNotEncrypted) (pemBlock data) := by
  simp only [pemBlock, fails_bind, Prod.forall]
  refine ⟨by simp, fun _ rest _ => ⟨by simp, fun typ rest _ => ⟨by simp, fun _ rest _ => ⟨?_,
    fun encrypted headers rest _ => by simp⟩⟩⟩⟩
  exact fun e he => (ordinary_pemHeaders _ _ _ _ e he).1.2

/-- A body that does not decode is an error that says nothing about protection. -/
lemma pemVerdict_of_decodedBody {data typ body : Bytes} (hblock : pemBlock data = .ok (typ, body))
    {e : Err} (hbody : decodedBody body = .error e) : pemVerdict data ≠ .encrypted := by
  simp only [pemVerdict, hblock, hbody]
  split
  · exact fun h => by cases h
  split
  · exact fun h => by cases h
  split
  · exact fun h => by cases h
  · exact fun h => by cases h

/-- What the protected side makes of a PEM block tells its verdict, up to what its body holds. -/
lemma tells_pemEncrypted {e : Err} (h : pemEncrypted data = .error e) :
    e.Is .errNotEncrypted ↔ pemVerdict data = .unprotected := by
  unfold pemEncrypted at h
  unfold pemVerdict
  cases hblock : pemBlock data with
  | error e' =>
    rw [hblock] at h
    dsimp only at h ⊢
    split at h
    next henc =>
      cases h
      rw [if_pos henc]
      exact iff_of_false (by simp) fun h => by cases h
    next henc =>
      cases h
      rw [if_neg henc]
      exact iff_of_false (not_is_pemBlock data e hblock) fun h => by cases h
  | ok x =>
    obtain ⟨typ, body⟩ := x
    rw [hblock] at h
    simp only [bind_eq_error, reduceCtorEq, and_false, exists_false, or_false] at h
    unfold pemContainer at h
    dsimp only
    split at h
    · cases h
    next h₁ =>
      split at h
      · cases h
      next h₂ =>
        split at h
        next h₃ =>
          cases h
          rw [if_neg h₁, if_pos h₃]
          exact iff_of_true (by simp) rfl
        next h₃ =>
          cases h
          rw [if_neg h₁, if_neg h₃, if_neg h₂]
          exact iff_of_false (by simp [errPEMType]) fun h => by cases h

/-- The verdict on a PEM block of a type that can be protected is that on its body. -/
lemma pemVerdict_of_pemEncrypted {data body : Bytes} {c : Container}
    (h : pemEncrypted data = .ok (c, body)) :
    pemVerdict data = match decodedBody body with
      | .error _ => .neither
      | .ok b => match c with
        | .openSSH => opensshVerdict b
        | .pkcs8 => .encrypted := by
  have hne : ¬ (ascii "ENCRYPTED PRIVATE KEY" = ascii "PRIVATE KEY" ∨
      ascii "ENCRYPTED PRIVATE KEY" = ascii "EC PRIVATE KEY" ∨
      ascii "ENCRYPTED PRIVATE KEY" = ascii "RSA PRIVATE KEY") := by decide
  unfold pemEncrypted at h
  unfold pemVerdict
  cases hblock : pemBlock data with
  | error e =>
    rw [hblock] at h
    dsimp only at h
    split at h
    · cases h
    · cases h
  | ok x =>
    obtain ⟨typ, body'⟩ := x
    rw [hblock] at h
    simp only [bind_eq_ok, Except.ok.injEq, Prod.mk.injEq] at h
    obtain ⟨c', hc, rfl, rfl⟩ := h
    unfold pemContainer at hc
    dsimp only
    split at hc
    next h₁ =>
      cases hc
      rw [if_pos h₁]
    next h₁ =>
      split at hc
      next h₂ =>
        cases hc
        subst h₂
        rw [if_neg h₁, if_neg hne, if_pos rfl]
      next h₂ =>
        split at hc
        · cases hc
        · cases hc

/-! ## Bare DER -/

/-- After `readPBES2`, every error is an ordinary one. -/
lemma ordinary_openDecrypted (hE : E.Grants) (f : Pbes2File) (passphrase : Bytes) :
    Op.Raises Ordinary (do
      let plain ← (newEmptyBuffer E f.ct.length).mapError (Err.after "allocate key buffer: ")
      let n ← (do
        let p ← pbes2Decrypt E f passphrase
        store plain p
        Op.lift (unpad p)).orRelease plain
      return (plain, n) : Call (Buf × ℕ)) := by
  refine raises_bind (raises_mapError (ordinary_newEmptyBuffer hE _)) fun plain => ?_
  refine raises_bind (raises_orRelease ?_ plain) fun n => raises_pure
  refine raises_bind (ordinary_pbes2Decrypt hE f passphrase) fun q => ?_
  exact raises_bind (ordinary_store plain q) fun _ => by simp

section Files

variable [Cryptobyte]

/-- A `PrivateKeyInfo`, an `ECPrivateKey` and an `RSAPrivateKey` begin with an INTEGER. -/
def derVerdict (der : Bytes) : Verdict :=
  if isEncryptedPrivateKeyInfo der = true then .encrypted
  else match readASN1 SEQUENCE der with
    | none => .neither
    | some (seq, _) => match readElement seq with
      | none => .neither
      | some (e, _) => if e.tag = INTEGER then .unprotected else .neither

/-- The first element of an `EncryptedPrivateKeyInfo` is a SEQUENCE. -/
lemma readASN1_of_isEncrypted (h : isEncryptedPrivateKeyInfo der = true) :
    ∃ seq rest, readASN1 SEQUENCE der = some (seq, rest) ∧ peekASN1Tag SEQUENCE seq = true := by
  simp only [isEncryptedPrivateKeyInfo, Option.isSome_iff_exists, Option.bind_eq_bind,
    Option.bind_eq_some_iff, Prod.exists] at h
  obtain ⟨_, seq, rest, hseq, alg, seq', halg, _⟩ := h
  exact ⟨seq, rest, hseq, peek_of_readASN1 halg⟩

lemma is_encryptedPKCS8Error (der : Bytes) : (encryptedPKCS8Error der).Is .errEncryptedKey := by
  unfold encryptedPKCS8Error
  split
  · simp
  split
  · simp
  split
  · simp
  split
  · simp
  split
  · simp
  · simp

lemma isEncrypted_of_readPBES2 {f : Pbes2File} (h : readPBES2 der = .ok f) :
    isEncryptedPrivateKeyInfo der = true := by
  simp only [readPBES2, readEncryptedPrivateKeyInfo, bind_eq_ok, require_eq_ok, demand_eq_ok,
    Prod.exists] at h
  obtain ⟨oid, alg, ct, ⟨seq, rest, hseq, _, hrest, alg', seq', halg, oid', alg'', hoid, ct', seq'',
    hct, _, hend, hok⟩, _⟩ := h
  obtain ⟨c, hc⟩ := readASN1_of_objectIdentifier hoid
  simp [isEncryptedPrivateKeyInfo, hseq, halg, hc, hct, hend]

/-- Unprotected structures are those whose first element is an INTEGER. -/
lemma derVerdict_eq_unprotected :
    derVerdict der = .unprotected ↔ ∃ seq rest e s, readASN1 SEQUENCE der = some (seq, rest) ∧
      readElement seq = some (e, s) ∧ e.tag = INTEGER := by
  constructor
  · intro h
    unfold derVerdict at h
    split at h
    · cases h
    split at h
    · cases h
    next seq rest hseq =>
      split at h
      · cases h
      next e s he =>
        split at h
        next htag => exact ⟨seq, rest, e, s, hseq, he, htag⟩
        · cases h
  · rintro ⟨seq, rest, e, s, hseq, he, htag⟩
    have henc : ¬ isEncryptedPrivateKeyInfo der = true := by
      intro henc
      obtain ⟨seq', rest', hseq', hpeek⟩ := readASN1_of_isEncrypted henc
      obtain ⟨rfl, -⟩ := Prod.mk.inj (Option.some.inj (hseq.symm.trans hseq'))
      rw [peekASN1Tag, readElement_tag he, htag] at hpeek
      cases hpeek
    rw [derVerdict, if_neg henc, hseq]
    dsimp only
    rw [he]
    exact if_pos htag

lemma derVerdict_of_derShape {tag : Tag} (h : derShape der = .ok tag) :
    derVerdict der = .unprotected := by
  simp only [derShape, bind_eq_ok, require_eq_ok, Prod.exists] at h
  obtain ⟨seq, rest, hseq, h⟩ := h
  split at h
  · split at h
    · cases h
    · cases h
  · simp only [bind_eq_ok, require_eq_ok, Prod.exists] at h
    obtain ⟨v, s, hv, _⟩ := h
    obtain ⟨c, hc⟩ := readASN1_of_integer hv
    obtain ⟨e, he, htag, -⟩ := readASN1_eq_some.mp hc
    exact derVerdict_eq_unprotected.mpr ⟨seq, rest, e, s, hseq, he, htag⟩

lemma derVerdict_eq_encrypted :
    derVerdict der = .encrypted ↔ isEncryptedPrivateKeyInfo der = true := by
  unfold derVerdict
  split
  next h => exact iff_of_true rfl h
  next h =>
    refine iff_of_false ?_ h
    split
    · exact fun h => by cases h
    · split
      · exact fun h => by cases h
      · split
        · exact fun h => by cases h
        · exact fun h => by cases h

lemma tells_derShape (der : Bytes) : TellsPlain (derVerdict der) (derShape der) := by
  cases hshape : derShape der with
  | ok tag => exact derVerdict_of_derShape hshape
  | error e =>
    change e.Is .errEncryptedKey ↔ derVerdict der = .encrypted
    rw [derVerdict_eq_encrypted]
    by_cases henc : isEncryptedPrivateKeyInfo der = true
    · obtain ⟨seq, rest, hseq, hpeek⟩ := readASN1_of_isEncrypted henc
      simp only [derShape, hseq, require, hpeek, henc, bind, Except.bind, if_true,
        Except.error.injEq] at hshape
      exact iff_of_true (hshape ▸ is_encryptedPKCS8Error der) henc
    · have hord : Fails Ordinary (derShape der) := by
        simp only [derShape, if_neg henc, fails_bind, fails_require, Prod.forall]
        refine ⟨by simp, fun seq _ _ => ?_⟩
        split
        · simp
        · simp
      exact iff_of_false (hord e hshape).1.1 henc

/-- `derIsEncrypted` reports `ErrNotEncrypted` for the unprotected structures only. -/
lemma tells_derIsEncrypted (der : Bytes) :
    match derIsEncrypted der with
    | .error e => e.Is .errNotEncrypted ↔ derVerdict der = .unprotected
    | .ok _ => derVerdict der ≠ .unprotected := by
  rw [ne_eq, derVerdict_eq_unprotected]
  cases hseq : readASN1 SEQUENCE der with
  | none => simp [derIsEncrypted, hseq, require, bind, Except.bind]
  | some x =>
    obtain ⟨seq, rest⟩ := x
    cases he : readElement seq with
    | none => simp [derIsEncrypted, hseq, he, require, bind, Except.bind]
    | some y =>
      obtain ⟨e, s⟩ := y
      by_cases hint : e.tag = INTEGER
      · simp [derIsEncrypted, hseq, he, require, bind, Except.bind, hint]
      · by_cases hsequence : e.tag = SEQUENCE
        · have hne : SEQUENCE ≠ INTEGER := by decide
          simp [derIsEncrypted, hseq, he, require, bind, Except.bind, hsequence, hne]
        · simp [derIsEncrypted, hseq, he, require, bind, Except.bind, hint, hsequence]

lemma tells_parseDER (hE : E.Grants) (hb : p.held blob = some der) :
    (parseDER E o blob).wp p fun r _ => TellsPlain (derVerdict der) r := by
  rw [parseDER, wp_bind, wp_orRelease, wp_bind, borrow, wp_read hb]
  dsimp only
  rw [wp_lift]
  have ht := tells_derShape der
  cases hs : derShape der with
  | error e =>
    rw [hs] at ht
    exact ht
  | ok next =>
    rw [hs] at ht
    rw [(ht : derVerdict der = .unprotected)]
    refine tellsPlain_of_ordinary ?_
    split
    · exact ordinary_parsePKCS8 hE blob
    split
    · exact ordinary_parseSEC1 hE blob
    split
    · exact ordinary_rsaFromDER blob
    · exact raises_bind raises_release fun _ => by simp

lemma ordinary_parseDecrypted (x : Buf × ℕ) : Op.Raises Ordinary (do
    (truncate x.1 x.2).orRelease x.1
    (parsePKCS8 E o x.1).mapError pbes2Verdict : Call Signer) := by
  refine raises_bind (raises_orRelease (by simp) x.1) fun _ => ?_
  exact raises_mapError (raises_of_forall ordinary_pbes2Verdict _)

lemma silent_parsePKCS8Encrypted (hE : E.Grants) (blob : Buf) (passphrase : Bytes) :
    Op.Raises Silent (parsePKCS8Encrypted E o blob passphrase) := by
  refine raises_bind (raises_andRelease ?_ blob) fun x =>
    (ordinary_parseDecrypted x).mono fun _ he => he.1
  refine raises_bind ((ordinary_borrow blob).mono fun _ he => he.1) fun b => ?_
  exact raises_bind (by simp) fun f =>
    (ordinary_openDecrypted hE f passphrase).mono fun _ he => he.1

/-- The encrypted parser succeeds on an `EncryptedPrivateKeyInfo` only. -/
lemma isEncrypted_of_parsePKCS8Encrypted (hb : p.held blob = some der)
    (passphrase : Bytes) :
    (parsePKCS8Encrypted E o blob passphrase).wp p fun r _ =>
      ∀ s, r = .ok s → isEncryptedPrivateKeyInfo der = true := by
  cases hf : readPBES2 der with
  | ok f => exact fun _ _ => isEncrypted_of_readPBES2 hf
  | error e =>
    rw [parsePKCS8Encrypted, wp_bind, decryptPKCS8, wp_andRelease, wp_bind, borrow,
      wp_read hb]
    dsimp only
    rw [wp_bind, wp_lift, hf]
    exact fun s h => by cases h

lemma tells_parsePKCS8Encrypted (hE : E.Grants)
    (hb : p.held blob = some der) (hder : derVerdict der ≠ .unprotected) (passphrase : Bytes) :
    (parsePKCS8Encrypted E o blob passphrase).wp p
      fun r _ => TellsEncrypted (derVerdict der) r := by
  have hok := isEncrypted_of_parsePKCS8Encrypted (E := E) (o := o) hb passphrase
  have hord := silent_parsePKCS8Encrypted (o := o) hE blob passphrase p
  unfold Op.wp at hok ⊢
  cases hr : ((parsePKCS8Encrypted E o blob passphrase).run p).1 with
  | ok s => exact derVerdict_eq_encrypted.mpr (hok s hr)
  | error e => exact iff_of_false (hord e hr).2 hder

/-! ## The parsers of the containers -/

lemma tells_parseOpenSSH (hE : E.Grants) {b : Bytes} (hb : p.held blob = some b) :
    (parseOpenSSH E o blob).wp p fun r _ => TellsPlain (opensshVerdict b) r := by
  rw [parseOpenSSH, wp_bind, wp_andRelease, wp_bind, borrow, wp_read hb]
  dsimp only
  rw [wp_bind, wp_lift]
  have ht := tells_admitPlain b
  cases ha : admitPlain b with
  | error e =>
    rw [ha] at ht
    exact ht
  | ok h =>
    rw [ha] at ht
    rw [(ht : opensshVerdict b = .unprotected)]
    refine (ordinary_parseOpenSSHPrivateBlock hE _ _ _).wp (fun x p' => ?_) fun e p' he => ?_
    · exact tellsPlain_of_ordinary (ordinary_finish x)
    · exact iff_of_false he.1.1 fun h => by cases h

lemma tells_parseOpenSSHEncrypted (hE : E.Grants) {b : Bytes}
    (hb : p.held blob = some b) (passphrase : Bytes) :
    (parseOpenSSHEncrypted E o blob passphrase).wp p
      fun r _ => TellsEncrypted (opensshVerdict b) r := by
  rw [parseOpenSSHEncrypted, wp_bind, wp_andRelease, wp_bind, borrow, wp_read hb]
  dsimp only
  rw [wp_bind, wp_lift]
  have ht := tells_admitEncrypted (E := E) (o := o) b
  cases ha : admitEncrypted E o b with
  | error e =>
    rw [ha] at ht
    exact ht
  | ok c =>
    rw [ha] at ht
    rw [(ht : opensshVerdict b = .encrypted)]
    refine (ordinary_openSealed hE _ _).wp (fun x p' => ?_) fun e p' he => ?_
    · cases x with
      | signer s => rfl
      | der blob =>
        exact tellsEncrypted_of_silent (raises_mapError (raises_of_forall (fun _ => by simp) _))
    · exact iff_of_false he.1.2 fun h => by cases h

lemma tells_parsePEM (hE : E.Grants) {typ body : Bytes}
    (hblock : pemBlock data = .ok (typ, body)) {b : Bytes}
    (hbody : decodedBody body = .ok b) (hb : p.held blob = some b) :
    (parsePEM E o typ blob).wp p fun r _ => TellsPlain (pemVerdict data) r := by
  simp only [pemVerdict, hblock, hbody]
  unfold parsePEM
  by_cases h₁ : typ = opensshPEMType
  · simp only [if_pos h₁]
    exact tells_parseOpenSSH hE hb
  by_cases h₂ : typ = ascii "PRIVATE KEY"
  · simp only [if_neg h₁, if_pos h₂, if_pos (Or.inl h₂)]
    exact tellsPlain_of_ordinary (ordinary_parsePKCS8 hE blob)
  by_cases h₃ : typ = ascii "EC PRIVATE KEY"
  · simp only [if_neg h₁, if_neg h₂, if_pos h₃, if_pos (Or.inr (Or.inl h₃))]
    exact tellsPlain_of_ordinary (ordinary_parseSEC1 hE blob)
  by_cases h₄ : typ = ascii "RSA PRIVATE KEY"
  · simp only [if_neg h₁, if_neg h₂, if_neg h₃, if_pos h₄, if_pos (Or.inr (Or.inr h₄))]
    exact tellsPlain_of_ordinary (ordinary_rsaFromDER blob)
  have hplain : ¬ (typ = ascii "PRIVATE KEY" ∨ typ = ascii "EC PRIVATE KEY" ∨
      typ = ascii "RSA PRIVATE KEY") := by tauto
  by_cases h₅ : typ = ascii "ENCRYPTED PRIVATE KEY"
  · simp only [if_neg h₁, if_neg h₂, if_neg h₃, if_neg h₄, if_pos h₅, if_neg hplain]
    rw [wp_andRelease, wp_bind, borrow, wp_read hb]
    exact iff_of_true (is_encryptedPKCS8Error b) rfl
  · simp only [if_neg h₁, if_neg h₂, if_neg h₃, if_neg h₄, if_neg h₅, if_neg hplain]
    rw [wp_bind, wp_release]
    exact iff_of_false (by simp [errPEMType]) fun h => by cases h

/-! ## The entry points -/

def verdict (data : Bytes) : Verdict :=
  if opensshMagic.isPrefixOf data = true then opensshVerdict data
  else if looksLikeDER data = true then derVerdict data
  else if contains data pemBegin = true then pemVerdict data
  else .neither

lemma looksLikeDER_ne_nil (h : looksLikeDER data = true) : data ≠ [] := by
  rintro rfl
  cases h

lemma tells_parsePrivateKey (hE : E.Grants) (data : Bytes) :
    (parsePrivateKey E o data).wp p fun r _ => TellsPlain (verdict data) r := by
  unfold parsePrivateKey verdict
  by_cases h₁ : opensshMagic.isPrefixOf data = true
  · simp only [if_pos h₁]
    rw [wp_bind, wp_copyToBuffer hE (ne_nil_of_magic h₁)]
    exact tells_parseOpenSSH hE (Holdings.held_grant p data)
  by_cases h₂ : looksLikeDER data = true
  · simp only [if_neg h₁, if_pos h₂]
    rw [wp_bind, wp_copyToBuffer hE (looksLikeDER_ne_nil h₂)]
    exact tells_parseDER hE (Holdings.held_grant p data)
  by_cases h₃ : contains data pemBegin = true
  · simp only [if_neg h₁, if_neg h₂, if_pos h₃]
    rw [wp_bind, wp_lift]
    cases hblock : pemBlock data with
    | error e => simp [Tells, pemVerdict, hblock]
    | ok x =>
      obtain ⟨typ, body⟩ := x
      dsimp only
      rw [wp_bind]
      refine wp_decodePEMBody hE (fun b hbody => ?_) fun e p' hbody _ => ?_
      · exact tells_parsePEM hE hblock hbody (Holdings.held_grant p b)
      · exact iff_of_false (ordinary_decodedBody body e hbody).1.1
          (pemVerdict_of_decodedBody hblock hbody)
  · simp only [if_neg h₁, if_neg h₂, if_neg h₃]
    exact iff_of_false (by simp [errNotAnyContainer]) fun h => by cases h

lemma tells_parseEncryptedPrivateKey (hE : E.Grants) (data passphrase : Bytes) :
    (parseEncryptedPrivateKey E o data passphrase).wp p
      fun r _ => TellsEncrypted (verdict data) r := by
  unfold parseEncryptedPrivateKey locateEncrypted verdict
  by_cases h₁ : opensshMagic.isPrefixOf data = true
  · simp only [if_pos h₁]
    rw [wp_bind, wp_bind, wp_copyToBuffer hE (ne_nil_of_magic h₁)]
    exact tells_parseOpenSSHEncrypted hE (Holdings.held_grant p data) passphrase
  by_cases h₂ : looksLikeDER data = true
  · simp only [if_neg h₁, if_pos h₂]
    rw [wp_bind, wp_bind, wp_lift]
    have ht := tells_derIsEncrypted data
    cases hder : derIsEncrypted data with
    | error e =>
      rw [hder] at ht
      exact ht
    | ok u =>
      rw [hder] at ht
      rw [wp_bind, wp_copyToBuffer hE (looksLikeDER_ne_nil h₂)]
      exact tells_parsePKCS8Encrypted hE (Holdings.held_grant p data) ht passphrase
  by_cases h₃ : contains data pemBegin = true
  · simp only [if_neg h₁, if_neg h₂, if_pos h₃]
    rw [wp_bind, wp_bind, wp_lift]
    cases hpem : pemEncrypted data with
    | error e => exact tells_pemEncrypted hpem
    | ok x =>
      obtain ⟨c, body⟩ := x
      dsimp only
      rw [wp_bind, pemVerdict_of_pemEncrypted hpem]
      refine wp_decodePEMBody hE (fun b hbody => ?_) fun e p' hbody _ => ?_
      · rw [hbody]
        cases c with
        | openSSH => exact tells_parseOpenSSHEncrypted hE (Holdings.held_grant p b) passphrase
        | pkcs8 =>
          exact tellsEncrypted_of_silent (silent_parsePKCS8Encrypted hE p.requests passphrase)
      · rw [hbody]
        exact iff_of_false (ordinary_decodedBody body e hbody).1.2 fun h => by cases h
  · simp only [if_neg h₁, if_neg h₂, if_neg h₃]
    exact iff_of_false (by simp [errNotAnyContainer]) fun h => by cases h

section EntryPoints

variable (E) (data passphrase : Bytes) (opts opts' : List Opt) (p p' : Holdings Bytes Event)

lemma verdict_nil : verdict [] = .neither := rfl

lemma tells_parsePrivateKeyCall (hE : E.Grants) :
    TellsPlain (verdict data) ((parsePrivateKeyCall E data opts).run p).1 := by
  change (parsePrivateKeyCall E data opts).wp p fun r _ => TellsPlain (verdict data) r
  unfold parsePrivateKeyCall
  split
  next h =>
    subst h
    exact iff_of_false (by simp) (by simp [verdict_nil])
  · rw [wp_mapError]
    refine wp_mono (tells_parsePrivateKey hE data) fun r p' hr => ?_
    cases r with
    | ok s => exact hr
    | error e => exact hr

lemma tells_parsePrivateKeyWithPassphrase (hE : E.Grants) (hpass : passphrase ≠ []) :
    TellsEncrypted (verdict data)
      ((parsePrivateKeyWithPassphrase E data passphrase opts).run p).1 := by
  change (parsePrivateKeyWithPassphrase E data passphrase opts).wp p
    fun r _ => TellsEncrypted (verdict data) r
  unfold parsePrivateKeyWithPassphrase
  rw [if_neg hpass]
  split
  next h =>
    subst h
    exact iff_of_false (by simp) (by simp [verdict_nil])
  · rw [wp_mapError]
    refine wp_mono (tells_parseEncryptedPrivateKey hE data passphrase) fun r p' hr => ?_
    cases r with
    | ok s => exact hr
    | error e => exact hr

/-- The entry points never send a caller to each other in a circle: where one succeeds the other
names it, and they never both name the other. -/
theorem entry_points_agree (hE : E.Grants) (hpass : passphrase ≠ []) :
    let plain := ((parsePrivateKeyCall E data opts).run p).1
    let withPassphrase := ((parsePrivateKeyWithPassphrase E data passphrase opts').run p').1
    (∀ s, plain = .ok s → Reports withPassphrase .errNotEncrypted) ∧
      (∀ s, withPassphrase = .ok s → Reports plain .errEncryptedKey) ∧
      ¬ (Reports plain .errEncryptedKey ∧ Reports withPassphrase .errNotEncrypted) :=
  agree_of_tells (tells_parsePrivateKeyCall E data opts p hE)
    (tells_parsePrivateKeyWithPassphrase E data passphrase opts' p' hE hpass)

end EntryPoints

end Files

/-- The smallest structure that counts as an `EncryptedPrivateKeyInfo`. -/
def smallestEncrypted : Bytes := [0x30, 0x06, 0x30, 0x02, 0x06, 0x00, 0x04, 0x00]

open Der.Cursor in
theorem entry_points_agree_smallestEncrypted :
    grantingEnv.Grants ∧
      Reports ((parsePrivateKeyCall grantingEnv smallestEncrypted []).run .empty).1
        .errEncryptedKey ∧
      ¬ Reports
        ((parsePrivateKeyWithPassphrase grantingEnv smallestEncrypted [1] []).run .empty).1
        .errNotEncrypted := by
  have hreports : Reports ((parsePrivateKeyCall grantingEnv smallestEncrypted []).run .empty).1
      .errEncryptedKey := ⟨_, rfl, by decide⟩
  have hagree := entry_points_agree grantingEnv smallestEncrypted [1] [] [] .empty .empty
    grants_grantingEnv (by decide)
  exact ⟨grants_grantingEnv, hreports, fun h => hagree.2.2 ⟨hreports, h⟩⟩

end Secmem.Crypto
