import Secmem.Framework.DerEncoding
import Secmem.Crypto.Accounting
import Secmem.Crypto.Ordinary

/-!
# What a wrong passphrase is told

`precheck` is everything `ParsePrivateKeyWithPassphrase` decides of a file without its
passphrase.  A file that fails it is refused with that error, before any key derivation and
whatever the passphrase; for one that passes, a derivation runs, and the failures that can follow
are a fixed few: one for an OpenSSH container, three for PKCS#8.  So of the plaintext that a
passphrase decrypts to, an error says which of these it is and nothing else.

The allocations are granted, and the wiping of a key schedule succeeds: the errors of both are the
host's.
-/

namespace Secmem.Crypto

open Ownership Der ByteStrings
open Op hiding bind

/-! ## After a derivation -/

/-- The errors there are after a derivation. -/
def Container.verdicts : Container → List Err
  | openSSH => [errOpenSSHDecrypt]
  | pkcs8 => [errPBES2Decrypt, errPBES2Unsupported, errPBES2HeapTransients]

variable {E : Env} {o : Options} {p : Holdings Bytes Event} {α : Type} {l : List Event}
  {passphrase : Bytes} {V : List Err}

/-- After a derivation: it has been logged since `l`, and an error is one of `V`. -/
structure Judged (V : List Err) (l : List Event) (r : Except Err α) (p : Holdings Bytes Event) :
    Prop where
  derived : l ++ [.derive] <+: p.log
  error : ∀ e, r = .error e → e ∈ V

lemma judged_of_raises {x : Call α} (h : l ++ [.derive] <+: p.log)
    (hx : Op.Raises (· ∈ V) x) : x.wp p (Judged V l) :=
  ⟨h.trans (x.grows p).2, hx p⟩

lemma judged_bind {β : Type} {x : Call α} {f : α → Call β} (hx : x.wp p (Judged V l))
    (hf : ∀ a, Op.Raises (· ∈ V) (f a)) : (x >>= f).wp p (Judged V l) := by
  rw [wp_bind]
  refine wp_mono hx fun r p' hr => ?_
  cases r with
  | error e => exact ⟨hr.derived, fun e' he' => hr.error e' (by cases he'; rfl)⟩
  | ok a => exact judged_of_raises hr.derived (hf a)

/-! ## OpenSSH containers -/

/-- What has been checked of a container that is going to be decrypted. -/
lemma admitEncrypted_ok {b : Bytes} {c : Sealed} (h : admitEncrypted E o b = .ok c) :
    c.privBlock ≠ [] ∧ c.salt ≠ [] ∧ c.salt.length ≤ BcryptPbkdf.maxSaltLen ∧ 1 ≤ c.rounds := by
  simp only [admitEncrypted, readKDFOpts, bind_eq_ok, require_eq_ok, demand_eq_ok, Prod.exists,
    Except.ok.injEq, Prod.mk.injEq] at h
  obtain ⟨hd, -, _, -, _, -, mode, -, _, -, _, -, salt, rounds, hopts, _, hblock, _, -, rfl⟩ := h
  obtain ⟨salt', rest, -, rounds', rest', -, _, ⟨-, hsalt, hrounds⟩, _, hlen, _, -, rfl, rfl⟩ :=
    hopts
  exact ⟨hblock.1, hsalt, hlen, Nat.one_le_iff_ne_zero.mpr hrounds⟩

lemma bcryptCheck_ok {c : Sealed} (hpass : passphrase ≠ [])
    (h : c.salt ≠ [] ∧ c.salt.length ≤ BcryptPbkdf.maxSaltLen ∧ 1 ≤ c.rounds) :
    BcryptPbkdf.check (c.mode.keyLen + c.mode.ivLen) passphrase c.salt c.rounds = .ok () := by
  have hlen : c.mode.keyLen + c.mode.ivLen ≠ 0 ∧
      c.mode.keyLen + c.mode.ivLen ≤ BcryptPbkdf.maxKeyLen := by
    cases c.mode <;> decide
  exact BcryptPbkdf.check_eq_ok (Nat.one_le_iff_ne_zero.mpr hlen.1) hlen.2 hpass
    (List.length_pos_iff.mpr h.1) h.2.1 (by exact_mod_cast h.2.2)

lemma cryptResult_error {src tag kiv : Bytes} {mode : OpensshCipher} {e : Err}
    (h : cryptResult E src tag kiv mode true = .error e) : cryptVerdict e = errOpenSSHDecrypt := by
  unfold cryptResult at h
  split at h
  · simp only [Bool.true_eq_false, if_false] at h
    split at h
    · cases h
      exact if_pos (by simp)
    · cases h
  · split at h
    · cases h
    · cases h

lemma judged_openSealed (hE : E.Grants) (hwipe : E.wipeAES = none) {c : Sealed}
    (hblock : c.privBlock ≠ [])
    (hkdf : c.salt ≠ [] ∧ c.salt.length ≤ BcryptPbkdf.maxSaltLen ∧ 1 ≤ c.rounds)
    (hpass : passphrase ≠ []) :
    (openSealed E o c passphrase).wp p (Judged Container.openSSH.verdicts p.log) := by
  rw [openSealed, wp_bind, wp_newEmptyBuffer hE (by simpa using hblock)]
  dsimp only
  rw [wp_andRelease, wp_bind, wp_mapError,
    wp_opensshCrypt hE hwipe (bcryptCheck_ok hpass hkdf)]
  set p' := (p.grant (List.replicate c.privBlock.length 0)).refuse.emit Event.derive with hp'
  have hderived : p.log ++ [.derive] <+: p'.log := List.prefix_rfl
  cases hr : cryptResult E c.privBlock c.tag _ c.mode true with
  | error e =>
    refine ⟨hderived, fun e' he' => ?_⟩
    cases he'
    rw [cryptResult_error hr]
    exact List.mem_singleton_self _
  | ok out =>
    dsimp only
    rw [wp_bind, store, wp_write (show p'.held p.requests = some _ from
      Holdings.held_grant p _)]
    refine wp_mono (Q := Judged Container.openSSH.verdicts p.log) ?_
      fun r p'' hr => ⟨hr.derived, hr.error⟩
    refine judged_of_raises hderived (raises_mapError (raises_of_forall (fun _ => ?_) _))
    exact List.mem_singleton_self _

/-! ## PKCS#8 -/

lemma schemeKeyLen_ok {oid : ObjectIdentifier} {n : ℕ} (h : schemeKeyLen oid = .ok n) :
    n = 16 ∨ n = 24 ∨ n = 32 := by
  unfold schemeKeyLen at h
  split at h
  · cases h
    exact .inl rfl
  split at h
  · cases h
    exact .inr (.inl rfl)
  split at h
  · cases h
    exact .inr (.inr rfl)
  split at h
  · cases h
  split at h
  · cases h
  · cases h

lemma unpad_cases {p : Bytes} (hlen : 16 ≤ p.length) :
    unpad p = .error errPBES2Decrypt ∨ ∃ n ≤ p.length, unpad p = .ok n := by
  unfold unpad
  rcases InPlace.pkcs7Unpad_cases hlen with h | ⟨n, hn, h⟩
  · exact .inl (by rw [h]; rfl)
  · exact .inr ⟨n, hn, by rw [h]; rfl⟩

lemma pbes2Verdict_mem (e : Err) : pbes2Verdict e ∈ Container.pkcs8.verdicts := by
  unfold pbes2Verdict
  split
  · simp [Container.verdicts]
  split
  · simp [Container.verdicts]
  · simp [Container.verdicts]

/-! ## What is decided without the passphrase -/

section Files

variable [Cryptobyte]

/-- The part of either parser that comes before the derivation. -/
def admitContainer (E : Env) (o : Options) (c : Container) (b : Bytes) : Except Err Unit :=
  match c with
  | .openSSH => do
    let _ ← admitEncrypted E o b
    .ok ()
  | .pkcs8 => do
    let _ ← readPBES2 b
    .ok ()

/-- The container of a file, and its bytes. -/
def locate (data : Bytes) : Except Err (Container × Bytes) :=
  if opensshMagic.isPrefixOf data = true then .ok (.openSSH, data)
  else if looksLikeDER data = true then do
    derIsEncrypted data
    .ok (.pkcs8, data)
  else if contains data pemBegin = true then do
    let (c, body) ← pemEncrypted data
    let b ← decodedBody body
    .ok (c, b)
  else .error errNotAnyContainer

def precheck (E : Env) (o : Options) (data : Bytes) : Except Err Container := do
  let (c, b) ← locate data
  admitContainer E o c b
  .ok c

/-- What a parser does with a container: refuse it without a derivation, as `admitContainer` does,
or judge it. -/
def Decides (r : Except Err Unit) (V : List Err) (l : List Event) (r' : Except Err α)
    (p : Holdings Bytes Event) : Prop :=
  match r with
  | .error e => r' = .error e ∧ p.log = l
  | .ok _ => Judged V l r' p

lemma decides_parseOpenSSHEncrypted (hE : E.Grants) (hwipe : E.wipeAES = none) {blob : Buf}
    {b : Bytes} (hb : p.held blob = some b) (hpass : passphrase ≠ []) :
    (parseOpenSSHEncrypted E o blob passphrase).wp p
      (Decides (admitContainer E o .openSSH b) Container.openSSH.verdicts p.log) := by
  cases ha : admitEncrypted E o b with
  | error e =>
    rw [admitContainer, ha, parseOpenSSHEncrypted, wp_bind, wp_andRelease, wp_bind, borrow,
      wp_read hb]
    dsimp only
    rw [wp_bind, wp_lift, ha]
    exact ⟨rfl, rfl⟩
  | ok c =>
    obtain ⟨hblock, hkdf⟩ := admitEncrypted_ok ha
    rw [admitContainer, ha]
    refine judged_bind ?_ fun x => ?_
    · rw [wp_andRelease, wp_bind, borrow, wp_read hb]
      dsimp only
      rw [wp_bind, wp_lift, ha]
      refine wp_mono (judged_openSealed hE hwipe hblock hkdf hpass) fun r p' hr => ?_
      exact ⟨hr.derived, hr.error⟩
    · cases x with
      | signer s => exact raises_pure
      | der blob =>
        refine raises_mapError (raises_of_forall (fun _ => ?_) _)
        exact List.mem_singleton_self _

lemma readPBES2_ok {der : Bytes} {f : Pbes2File} (h : readPBES2 der = .ok f) :
    f.iv.length = 16 ∧ (f.ct ≠ [] ∧ f.ct.length % 16 = 0) ∧
      (f.keyLen = 16 ∨ f.keyLen = 24 ∨ f.keyLen = 32) := by
  simp only [readPBES2, bind_eq_ok, require_eq_ok, demand_eq_ok, Prod.exists,
    Except.ok.injEq] at h
  obtain ⟨_, _, ct, -, _, -, _, _, -, _, -, _, _, -, _, _, -, _, -, _, _, -, keyLen, hkeyLen, iv, _,
    -, _, ⟨-, hiv⟩, kdf, salt, -, _, hct, rfl⟩ := h
  exact ⟨hiv, hct, schemeKeyLen_ok hkeyLen⟩

lemma decides_parsePKCS8Encrypted (hE : E.Grants) (hwipe : E.wipeAES = none) {blob : Buf}
    {b : Bytes} (hb : p.held blob = some b) (passphrase : Bytes) :
    (parsePKCS8Encrypted E o blob passphrase).wp p
      (Decides (admitContainer E o .pkcs8 b) Container.pkcs8.verdicts p.log) := by
  rw [parsePKCS8Encrypted, wp_bind, decryptPKCS8, wp_andRelease, wp_bind, borrow,
    wp_read hb]
  dsimp only
  rw [wp_bind, wp_lift]
  cases hf : readPBES2 b with
  | error e =>
    rw [admitContainer, hf]
    exact ⟨rfl, rfl⟩
  | ok f =>
    obtain ⟨hiv, ⟨hct, hmul⟩, hkey⟩ := readPBES2_ok hf
    have hpos := List.length_pos_iff.mpr hct
    have hout : 16 ≤ (cbcPlain (E.aesDecrypt (f.key E passphrase)) (f.ct.length / 16) f.iv
        f.ct).length := by
      rw [InPlace.length_cbcPlain hiv (by omega)]
      omega
    rw [admitContainer, hf]
    dsimp only
    rw [wp_bind, wp_newEmptyBuffer hE hpos.ne']
    dsimp only
    rw [wp_bind, wp_orRelease, wp_bind, wp_pbes2Decrypt hE hwipe hkey]
    generalize cbcPlain _ _ f.iv f.ct = out at hout ⊢
    set p' := (p.grant (List.replicate f.ct.length 0)).refuse.emit Event.derive
    have hderived : p.log ++ [.derive] <+: p'.log := List.prefix_rfl
    have hplain : p'.held p.requests = some _ := Holdings.held_grant p _
    dsimp only
    rw [wp_bind, store, wp_write hplain]
    rw [wp_lift]
    rcases unpad_cases hout with hn | ⟨n, hle, hn⟩
    · rw [hn]
      refine ⟨hderived, fun e he => ?_⟩
      cases he
      exact List.mem_cons_self
    · rw [hn]
      -- the container is another buffer than the plaintext's
      have hne : p.requests ≠ blob := (Holdings.lt_requests hb).ne'
      have hheld : ((p'.write p.requests out).release blob).held p.requests = some out := by
        change Function.update (Function.update p'.held p.requests _) blob none p.requests = _
        rw [Function.update_of_ne hne, Function.update_self, hplain, Option.map_some]
      change Op.wp (do (truncate p.requests n).orRelease p.requests; _)
        ((p'.write p.requests out).release blob) (Judged Container.pkcs8.verdicts p.log)
      rw [wp_bind, wp_orRelease, wp_truncate hheld hle]
      exact judged_of_raises hderived
        (raises_mapError (raises_of_forall pbes2Verdict_mem _))

/-! ## The entry point -/

lemma decides_parseContainer (hE : E.Grants) (hwipe : E.wipeAES = none) {blob : Buf} {b : Bytes}
    (hb : p.held blob = some b) (hpass : passphrase ≠ []) (c : Container) :
    (parseContainer E o c blob passphrase).wp p
      (Decides (admitContainer E o c b) c.verdicts p.log) := by
  cases c with
  | openSSH => exact decides_parseOpenSSHEncrypted hE hwipe hb hpass
  | pkcs8 => exact decides_parsePKCS8Encrypted hE hwipe hb passphrase

/-- Locating a container puts its bytes into a buffer, or fails as `locate` does; no derivation
runs. -/
lemma wp_locateEncrypted (hE : E.Grants) {data : Bytes}
    {Q : Except Err (Container × Buf) → Holdings Bytes Event → Prop}
    (hok : ∀ c b, locate data = .ok (c, b) → Q (.ok (c, p.requests)) (p.grant b))
    (herror : ∀ e p', locate data = .error e → p'.log = p.log → Q (.error e) p') :
    (locateEncrypted E data).wp p Q := by
  unfold locate at hok herror
  unfold locateEncrypted
  split
  next h =>
    rw [if_pos h] at hok
    rw [wp_bind, wp_copyToBuffer hE (by rintro rfl; revert h; decide)]
    exact hok _ _ rfl
  next h =>
  rw [if_neg h] at hok herror
  split
  next h =>
    rw [if_pos h] at hok herror
    rw [wp_bind, wp_lift]
    cases hd : derIsEncrypted data with
    | error e =>
      rw [hd] at herror
      exact herror e p rfl rfl
    | ok u =>
      rw [hd] at hok
      rw [wp_bind, wp_copyToBuffer hE (by rintro rfl; cases h)]
      exact hok _ _ rfl
  next h =>
  rw [if_neg h] at hok herror
  split
  next h =>
    rw [if_pos h] at hok herror
    rw [wp_bind, wp_lift]
    cases hpem : pemEncrypted data with
    | error e =>
      rw [hpem] at herror
      exact herror e p rfl rfl
    | ok x =>
      obtain ⟨c, body⟩ := x
      rw [hpem] at hok herror
      dsimp only
      rw [wp_bind]
      refine wp_decodePEMBody hE (fun b hbody => ?_) fun e p' hbody hlog => ?_
      · refine hok c b ?_
        simp only [bind, Except.bind, hbody]
      · refine herror e p' ?_ hlog
        simp only [bind, Except.bind, hbody]
  next h =>
    rw [if_neg h] at herror
    exact herror _ p rfl rfl

lemma decides_parseEncryptedPrivateKey (hE : E.Grants) (hwipe : E.wipeAES = none) (data : Bytes)
    (hpass : passphrase ≠ []) :
    (parseEncryptedPrivateKey E o data passphrase).wp p fun r p' =>
      match precheck E o data with
      | .error e => r = .error e ∧ p'.log = p.log
      | .ok c => Judged c.verdicts p.log r p' := by
  rw [parseEncryptedPrivateKey, wp_bind]
  refine wp_locateEncrypted hE (fun c b hl => ?_) fun e p' hl hlog => ?_
  · refine wp_mono (decides_parseContainer hE hwipe (Holdings.held_grant p b) hpass c) ?_
    intro r p' hr
    have hpre : precheck E o data = (admitContainer E o c b >>= fun _ => .ok c) := by
      rw [precheck, hl]
      rfl
    rw [hpre]
    cases ha : admitContainer E o c b with
    | error e =>
      rw [ha] at hr
      exact hr
    | ok u =>
      rw [ha] at hr
      exact hr
  · rw [precheck, hl]
    exact ⟨rfl, hlog⟩

lemma locate_of_precheck {data : Bytes} {c : Container} (h : precheck E o data = .ok c) :
    ∃ b, locate data = .ok (c, b) := by
  simp only [precheck, bind_eq_ok, Prod.exists, Except.ok.injEq] at h
  obtain ⟨c', b, hl, -, -, rfl⟩ := h
  exact ⟨b, hl⟩

/-- The call fails, and no derivation has run. -/
def RefusedEarly (x : Call Signer) (p : Holdings Bytes Event) (e : Err) : Prop :=
  (x.run p).1 = .error e ∧ (x.run p).2.log = p.log

/-- What the exported function says before its error. -/
def entryVerdicts (c : Container) : List Err :=
  c.verdicts.map (Err.after "secmemcrypto: parse private key: ")

/-- Every call of the entry point is refused early with the same error, or none is and the errors
are the container's few. -/
lemma refusedEarly_or_judged (hE : E.Grants) (hwipe : E.wipeAES = none) (data : Bytes)
    (opts : List Opt) :
    (∃ e, ∀ passphrase ≠ [], ∀ p,
      RefusedEarly (parsePrivateKeyWithPassphrase E data passphrase opts) p e) ∨
    ∃ c b, locate data = .ok (c, b) ∧ ∀ passphrase ≠ [], ∀ p,
      (parsePrivateKeyWithPassphrase E data passphrase opts).wp p
        (Judged (entryVerdicts c) p.log) := by
  by_cases hdata : data = []
  · refine .inl ⟨.new "secmemcrypto: parse private key: empty input", fun passphrase _ p => ?_⟩
    rw [parsePrivateKeyWithPassphrase, if_pos hdata]
    exact ⟨rfl, rfl⟩
  have hspec : ∀ passphrase ≠ [], ∀ p,
      (parsePrivateKeyWithPassphrase E data passphrase opts).wp p fun r p' =>
        match precheck E (resolveOptions opts) data with
        | .error e => r = .error (Err.after "secmemcrypto: parse private key: " e) ∧ p'.log = p.log
        | .ok c => Judged (entryVerdicts c) p.log r p' := by
    intro passphrase hpass p
    rw [parsePrivateKeyWithPassphrase, if_neg hdata, if_neg hpass, wp_mapError]
    refine wp_mono (decides_parseEncryptedPrivateKey hE hwipe data hpass) fun r p' hr => ?_
    cases hpre : precheck E (resolveOptions opts) data with
    | error e =>
      rw [hpre] at hr
      obtain ⟨rfl, hlog⟩ := hr
      exact ⟨rfl, hlog⟩
    | ok c =>
      rw [hpre] at hr
      cases r with
      | ok s => exact ⟨hr.derived, nofun⟩
      | error e =>
        refine ⟨hr.derived, fun e' he' => ?_⟩
        cases he'
        exact List.mem_map_of_mem (hr.error e rfl)
  cases hpre : precheck E (resolveOptions opts) data with
  | error e =>
    refine .inl ⟨e.after "secmemcrypto: parse private key: ", fun passphrase hpass p => ?_⟩
    have h := hspec passphrase hpass p
    rw [hpre] at h
    exact h
  | ok c =>
    obtain ⟨b, hl⟩ := locate_of_precheck hpre
    refine .inr ⟨c, b, hl, fun passphrase hpass p => ?_⟩
    have h := hspec passphrase hpass p
    rw [hpre] at h
    exact h

/-- A refusal before the derivation does not depend on the passphrase, and a failure after it is
one of a few fixed errors. -/
theorem errors_independent_of_plaintext (hE : E.Grants) (hwipe : E.wipeAES = none) (data : Bytes)
    (opts : List Opt) (passphrase₁ passphrase₂ : Bytes) (h₁ : passphrase₁ ≠ [])
    (h₂ : passphrase₂ ≠ []) (p₁ p₂ : Holdings Bytes Event) :
    let call passphrase := parsePrivateKeyWithPassphrase E data passphrase opts
    (∀ e, RefusedEarly (call passphrase₁) p₁ e → RefusedEarly (call passphrase₂) p₂ e) ∧
      ((¬ ∃ e, RefusedEarly (call passphrase₁) p₁ e) → ∃ c b, locate data = .ok (c, b) ∧
        ∀ e, ((call passphrase₂).run p₂).1 = .error e → e ∈ entryVerdicts c) := by
  intro call
  rcases refusedEarly_or_judged hE hwipe data opts with ⟨e, hrefused⟩ | ⟨c, b, hl, hjudged⟩
  · refine ⟨fun e' he' => ?_, fun hnot => absurd ⟨e, hrefused _ h₁ p₁⟩ hnot⟩
    have heq : Except.error e = Except.error e' := (hrefused _ h₁ p₁).1.symm.trans he'.1
    cases heq
    exact hrefused _ h₂ p₂
  · refine ⟨fun e he => ?_, fun _ => ⟨c, b, hl, (hjudged _ h₂ p₂).error⟩⟩
    have hderived := (hjudged _ h₁ p₁).derived
    rw [he.2] at hderived
    exact absurd hderived.length_le (by simp)

end Files

/-- A structure under PBES2 whose contents are zeros. -/
def zeroContents : Bytes :=
  [0x30, 0x55, 0x30, 0x41, 0x06, 0x09, 0x2a, 0x86, 0x48, 0x86, 0xf7, 0x0d, 0x01, 0x05, 0x0d,
    0x30, 0x34, 0x30, 0x13, 0x06, 0x09, 0x2a, 0x86, 0x48, 0x86, 0xf7, 0x0d, 0x01, 0x05, 0x0c,
    0x30, 0x06, 0x04, 0x01, 0x00, 0x02, 0x01, 0x01, 0x30, 0x1d, 0x06, 0x09, 0x60, 0x86, 0x48, 0x01,
    0x65, 0x03, 0x04, 0x01, 0x02, 0x04, 0x10] ++ List.replicate 16 0 ++
  [0x04, 0x10] ++ List.replicate 16 0

open Der.Cursor in
/-- Its key is derived, and what it decrypts to is refused. -/
theorem errors_independent_of_plaintext_garbage :
    (¬ ∃ e, RefusedEarly (parsePrivateKeyWithPassphrase grantingEnv zeroContents [1] []) .empty e) ∧
      ∃ e, ((parsePrivateKeyWithPassphrase grantingEnv zeroContents [2] []).run .empty).1 =
        .error e ∧ e ∈ entryVerdicts .pkcs8 := by
  have hlate : ¬ ∃ e, RefusedEarly
      (parsePrivateKeyWithPassphrase grantingEnv zeroContents [1] []) .empty e := by
    rintro ⟨e, -, hlog⟩
    revert hlog
    decide
  have hlocate : locate zeroContents = .ok (.pkcs8, zeroContents) := by decide
  obtain ⟨c, b, hl, herror⟩ := (errors_independent_of_plaintext grants_grantingEnv rfl zeroContents
    [] [1] [2] (by decide) (by decide) .empty .empty).2 hlate
  obtain ⟨rfl, -⟩ := Prod.mk.inj (Except.ok.inj (hlocate.symm.trans hl))
  exact ⟨hlate, _, rfl, herror _ rfl⟩

end Secmem.Crypto
