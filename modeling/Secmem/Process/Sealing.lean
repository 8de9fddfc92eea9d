import Secmem.Process.Methods
import Secmem.Process.Prekey

/-!
# Seal and Unseal, alone

What `Seal` and `Unseal` can come to when one goroutine runs alone, on a platform that may fail
at every call.  Only the part of a buffer that is collected in `Sealing` changes; `SealStep` and
`UnsealStep` say how.
-/

namespace Secmem.Process

open World

variable {T : Type}

/-! ## What sealing changes -/

/-- The part of a buffer that `Seal` and `Unseal` change. -/
structure Sealing where
  sealed : Bool
  tagged : Bool
  gen : ℕ
  nonce : List UInt8
  tag : List UInt8
  cipher : Bool
  inner : List UInt8
  rest : List UInt8
  prot : Prot

def Obj.sealing (o : Obj T) : Sealing :=
  ⟨o.state.sealed, o.state.sealTagged, o.state.sealGen, o.state.sealNonce, o.state.sealTag,
    o.sealCipher, o.region.inner, o.ghost.rest, o.region.prot⟩

def Obj.withSealing (o : Obj T) (s : Sealing) : Obj T :=
  { o with
    sealCipher := s.cipher
    state := { o.state with
      sealed := s.sealed
      sealTagged := s.tagged
      sealGen := s.gen
      sealNonce := s.nonce
      sealTag := s.tag }
    region := { o.region with inner := s.inner, prot := s.prot }
    ghost := { o.ghost with rest := s.rest } }

/-- The bytes are those of `plain`, encrypted. -/
def Encrypts (P : Platform) (plain inner : List UInt8) : Prop :=
  ∃ cipher seed, P.sealCipher = some cipher ∧ sealCipherLen plain.length = none ∧
    inner = cipher.encrypt seed plain

/-- The bytes after decryption, if they have to be decrypted. -/
inductive Decoded (P : Platform) (s : Sealing) : List UInt8 → List UInt8 → Prop
  | asIs (h : s.cipher = false) : Decoded P s s.inner s.rest
  | decrypted {cipher : SealCipher} (h : s.cipher = true) (hc : P.sealCipher = some cipher) :
      Decoded P s (cipher.decrypt s.inner) (cipher.decrypt s.inner)

/-- The tag of a buffer with the identity `id` is that of its bytes, under the prekey that is
current in `w`. -/
def TagMatches (P : Platform) (w : World T) (id : ℕ) (s : Sealing) : Prop :=
  ∃ q, Current w q ∧ w.keyring.gen = s.gen ∧
    s.tag = sealComputeTag P (w.obj q).region.inner id s.nonce s.inner

/-! ## The world around -/

/-- How the rest of the world can change: a prekey that is current stays as it is, and another
one gets a later generation. -/
structure Evolves (key : ℕ) (w w' : World T) : Prop where
  live : w'.regions key = w.regions key
  wiped : w'.wiped key = w.wiped key
  same : ∀ q, Current w q → w'.keyring = w.keyring ∧ w'.obj q = w.obj q
  gen_le : w.keyring.gen ≤ w'.keyring.gen
  fresh : w'.keyring.gen = w.keyring.gen → ∀ q, Current w' q → Current w q

namespace Evolves

variable {key : ℕ} {w w₁ w₂ : World T}

lemma refl (key : ℕ) (w : World T) : Evolves key w w :=
  ⟨rfl, rfl, fun _ _ => ⟨rfl, rfl⟩, Nat.le_refl _, fun _ _ h => h⟩

lemma current {q : ℕ} (h : Evolves key w w₁) (hq : Current w q) : Current w₁ q := by
  obtain ⟨hk, ho⟩ := h.same q hq
  exact ⟨by rw [hk, hq.current], by rw [ho, hq.wiped]⟩

lemma trans (h : Evolves key w w₁) (h' : Evolves key w₁ w₂) : Evolves key w w₂ where
  live := h'.live.trans h.live
  wiped := h'.wiped.trans h.wiped
  same q hq := by
    obtain ⟨hk, ho⟩ := h.same q hq
    obtain ⟨hk', ho'⟩ := h'.same q (h.current hq)
    exact ⟨hk'.trans hk, ho'.trans ho⟩
  gen_le := h.gen_le.trans h'.gen_le
  fresh hgen q hq := by
    have h₁ := h.gen_le
    have h₂ := h'.gen_le
    exact h.fresh (by omega) q (h'.fresh (by omega) q hq)

lemma tagMatches {P : Platform} {id : ℕ} {s : Sealing} (h : Evolves key w w₁)
    (ht : TagMatches P w id s) : TagMatches P w₁ id s := by
  obtain ⟨q, hq, hgen, htag⟩ := ht
  obtain ⟨hk, ho⟩ := h.same q hq
  exact ⟨q, h.current hq, by rw [hk, hgen], by rw [ho, htag]⟩

end Evolves

section Around

variable {b key : ℕ} {layout : CanaryLayout} {w : World T}

lemma Calm.ne (h : Calm b key layout w) {q : ℕ} (hq : w.keyring.current = some q) : q ≠ b :=
  (h.prekey q w.keyring.key (by rw [Keyring.pre, hq]; rfl)).2.1

/-- The buffer itself is not part of the world around it. -/
lemma Calm.setObj (h : Calm b key layout w) (o : Obj T) : Calm b key layout (w.setObj b o) where
  toAround := h.toAround.setObj fun q k hpre hb =>
    absurd hb.symm (h.prekey q k hpre).2.1
  keyringMu := h.keyringMu
  readable q hq := by
    rw [obj_setObj_of_ne _ _ (h.ne hq)]
    exact h.readable q hq

lemma Calm.current_setObj (h : Calm b key layout w) {o : Obj T} {q : ℕ} :
    Current (w.setObj b o) q ↔ Current w q := by
  constructor
  · rintro ⟨hc, hw⟩
    rw [obj_setObj_of_ne _ _ (h.ne hc)] at hw
    exact ⟨hc, hw⟩
  · rintro ⟨hc, hw⟩
    refine ⟨hc, ?_⟩
    rw [obj_setObj_of_ne _ _ (h.ne hc)]
    exact hw

lemma Calm.evolves_setObj (h : Calm b key layout w) (o : Obj T) :
    Evolves key w (w.setObj b o) where
  live := rfl
  wiped := rfl
  same _ hq := ⟨rfl, obj_setObj_of_ne _ _ (h.ne hq.current)⟩
  gen_le := Nat.le_refl _
  fresh _ _ hq := h.current_setObj.mp hq

lemma Serves.evolves {q : ℕ} {w' : World T} (h : Serves b key w q w') : Evolves key w w' := by
  cases h with
  | current => exact .refl _ _
  | renewed hno h hb hgen =>
    exact ⟨hb.live, hb.wiped, fun q hq => absurd hq (hno q), by omega, fun hg => by omega⟩

end Around

variable [DecidableEq T]

section Tags

variable {P : Platform} {t : T} {faulty : Bool} {crash : Prop} {w : World T}
  {Q : Option GoErr → World T → Prop}
  {b key : ℕ} {layout : CanaryLayout} {o : Obj T} {s : Sealing}

/-! ## Tags -/

/-- The tag of a buffer's bytes, with the prekey and the buffer readable. -/
lemma ens_computeTag {q : ℕ}
    (hq : (w.obj q).region.mapped = true ∧ (w.obj q).region.prot.readable = true)
    (hb : (w.obj b).region.mapped = true ∧ (w.obj b).region.prot.readable = true)
    (Q : List UInt8 → World T → Prop) :
    Ens P t faulty crash (computeTag P b q) Q w ↔
      Q (sealComputeTag P (w.obj q).region.inner (w.obj b).state.janitorKey
        (w.obj b).state.sealNonce (w.obj b).region.inner) w := by
  simp only [computeTag, ens_bind]
  rw [ens_readInner hq, ens_load, ens_readInner hb, ens_pure]

lemma ens_sealAuthenticate (h : Calm b key layout w) (hreg : w.lookup key ≠ none)
    (hm : o.region.mapped = true) (hr : s.prot.readable = true)
    (hok : ∀ w' gen nonce tag, Calm b key layout w' → Evolves key w w' →
      TagMatches P w' o.state.janitorKey
        { s with tagged := true, gen := gen, nonce := nonce, tag := tag, rest := s.inner } →
      Q none (w'.setObj b (o.withSealing
        { s with tagged := true, gen := gen, nonce := nonce, tag := tag, rest := s.inner })))
    (hbad : ∀ e w' nonce, Calm b key layout w' → Evolves key w w' →
      Q (some e) (w'.setObj b (o.withSealing { s with nonce := nonce }))) :
    Ens P t faulty crash (sealAuthenticate P b) Q (w.setObj b (o.withSealing s)) := by
  simp only [sealAuthenticate, ens_bind]
  rw [ens_act]
  intro c _
  simp only [exec, Outcome.post_done, ens_store, obj_setObj, setObj_setObj]
  set nonce := (List.range sealNonceLen).map c.draw
  cases hos : c.os with
  | some n => exact hbad _ w nonce h (.refl _ _)
  | none =>
    simp only [Option.map_none, ens_bind]
    set o₁ := o.withSealing { s with nonce := nonce } with ho₁
    refine ens_withPrekey (w := w.setObj b o₁) (h.setObj o₁) hreg (R := fun q w' r o' =>
      r = .ok () ∧ o' = o.withSealing { s with
        gen := w'.keyring.gen, nonce := nonce
        tag := sealComputeTag P (w'.obj q).region.inner o.state.janitorKey nonce s.inner
        rest := s.inner }) ?_ ?_ ?_
    · intro q w' hs w₁ hqb hob hin hqm hqr
      rw [obj_setObj] at hob
      simp only [ens_bind, ens_store]
      rw [ens_computeTag]
      · simp only [ens_storeTag, ens_pure, obj_setObj, setObj_setObj]
        refine ⟨_, rfl, trivial, ?_⟩
        rw [obj_setObj_of_ne _ _ hqb, hin, hob]
        rfl
      · rw [obj_setObj_of_ne _ _ hqb]
        exact ⟨hqm, hqr⟩
      · rw [obj_setObj, hob]
        exact ⟨hm, hr⟩
    · intro hno e w' hcalm hbeside hcur hgen
      have hob : w'.obj b = o₁ := by rw [hbeside.obj, obj_setObj]
      have hw' : w' = w'.setObj b o₁ := by rw [← hob, setObj_obj]
      rw [hw']
      refine hbad e w' nonce hcalm
        ⟨hbeside.live, hbeside.wiped, fun q hq => absurd (h.current_setObj.mpr hq) (hno q),
          by rw [hgen]; exact Nat.le_refl _, fun _ q hq => ?_⟩
      rw [hq.current] at hcur
      cases hcur
    · rintro q w' r o' hs hcalm ⟨rfl, rfl⟩
      simp only [ens_bind, ens_store, ens_pure, obj_setObj, setObj_setObj]
      refine hok w' w'.keyring.gen nonce _ hcalm ((h.evolves_setObj o₁).trans hs.evolves)
        ⟨q, hs.isCurrent, rfl, rfl⟩

lemma ens_sealVerify (h : Calm b key layout w) (hreg : w.lookup key ≠ none)
    (hm : o.region.mapped = true) (hr : s.prot.readable = true)
    (hok : ∀ w', Calm b key layout w' → Evolves key w w' →
      TagMatches P w' o.state.janitorKey s → Q none (w'.setObj b (o.withSealing s)))
    (hdiffers : ∀ w' q, Calm b key layout w' → Evolves key w w' → Current w' q →
      w'.keyring.gen = s.gen →
      s.tag ≠ sealComputeTag P (w'.obj q).region.inner o.state.janitorKey s.nonce s.inner →
      Q (some Sentinel.errIntegrity) (w'.setObj b (o.withSealing s)))
    (hbad : faulty = true ∨ (∀ q, ¬ Current w q) ∨ w.keyring.gen ≠ s.gen → ∀ e w',
      Calm b key layout w' → Evolves key w w' → Q (some e) (w'.setObj b (o.withSealing s))) :
    Ens P t faulty crash (sealVerify P b) Q (w.setObj b (o.withSealing s)) := by
  simp only [sealVerify, ens_bind]
  refine ens_withPrekey (w := w.setObj b (o.withSealing s)) (h.setObj _) hreg
    (R := fun q w' r o' => o' = o.withSealing s ∧
      if w'.keyring.gen = s.gen then
        r = .ok (sealComputeTag P (w'.obj q).region.inner o.state.janitorKey s.nonce s.inner)
      else r = .error Sentinel.errWiped) ?_ ?_ ?_
  · intro q w' hs w₁ hqb hob hin hqm hqr
    rw [obj_setObj] at hob
    have hself : w₁ = w₁.setObj b (o.withSealing s) := by rw [← hob, setObj_obj]
    have hstate : (o.withSealing s).state.sealGen = s.gen := rfl
    simp only [ens_bind, ens_load, hob, hstate]
    by_cases hgen : w'.keyring.gen = s.gen
    · rw [if_neg (not_not.mpr hgen)]
      simp only [ens_bind]
      rw [ens_computeTag ⟨hqm, hqr⟩ (by rw [hob]; exact ⟨hm, hr⟩), ens_pure, if_pos hgen]
      refine ⟨_, hself, rfl, ?_⟩
      rw [hin, hob]
      rfl
    · rw [if_pos hgen]
      simp only [ens_bind, ens_staleGeneration, ens_pure, if_neg hgen]
      exact ⟨_, hself, rfl, trivial⟩
  · intro hno e w' hcalm hbeside hcur hgen
    have hob : w'.obj b = o.withSealing s := by rw [hbeside.obj, obj_setObj]
    have hw' : w' = w'.setObj b (o.withSealing s) := by rw [← hob, setObj_obj]
    rw [hw']
    refine hbad (Or.inr (Or.inl fun q hq => hno q (h.current_setObj.mpr hq))) e w' hcalm
      ⟨hbeside.live, hbeside.wiped, fun q hq => absurd (h.current_setObj.mpr hq) (hno q),
        by rw [hgen]; exact Nat.le_refl _, fun _ q hq => ?_⟩
    rw [hq.current] at hcur
    cases hcur
  · rintro q w' r o' hs hcalm ⟨rfl, hR⟩
    have hev : Evolves key w w' := (h.evolves_setObj _).trans hs.evolves
    by_cases hgen : w'.keyring.gen = s.gen
    · rw [if_pos hgen] at hR
      subst hR
      simp only [ens_bind, ens_load, obj_setObj]
      split
      next htag => exact hok w' hcalm hev ⟨q, hs.isCurrent, hgen, htag.symm⟩
      next htag => exact hdiffers w' q hcalm hev hs.isCurrent hgen (Ne.symm htag)
    · rw [if_neg hgen] at hR
      subst hR
      refine hbad ?_ _ w' hcalm hev
      by_cases hcur : ∃ q, Current w q
      · obtain ⟨q', hq'⟩ := hcur
        rw [(hev.same q' hq').1] at hgen
        exact Or.inr (Or.inr hgen)
      · exact Or.inr (Or.inl fun q' hq' => hcur ⟨q', hq'⟩)

/-! ## Seal -/

/-- What `Seal` can come to, for a buffer that is not sealed. -/
structure SealStep (P : Platform) (o : Obj T) (s : Sealing) (err : Option GoErr) (w' : World T)
    (s' : Sealing) : Prop where
  coding : s'.cipher = false ∧ s'.inner = s.inner ∧ (s'.rest = s.rest ∨ s'.rest = s.inner) ∨
    s'.cipher = true ∧ s'.sealed = true ∧ Encrypts P s.inner s'.inner ∧ s'.rest = s'.inner
  tagged : s'.tagged = true → s'.sealed = true ∧ s'.rest = s'.inner ∧
    TagMatches P w' o.state.janitorKey s'
  prot : s'.sealed = false →
    s'.prot = s.prot ∨ s'.prot = .readWrite ∨ s'.prot = restProtection o.state
  success : err = none → s'.sealed = true

/-- The buffer under its exclusive lock, after the checks. -/
structure Held (t : T) (o : Obj T) : Prop where
  mu : o.mu = lockedBy t
  wiped : o.wiped = false
  mapped : o.region.mapped = true

omit [DecidableEq T] in
lemma restProtection_withSealing (o : Obj T) (s : Sealing) :
    restProtection (o.withSealing s).state = restProtection o.state := rfl

lemma ens_reapplyReadOnly (ho : Held t o) {Q : Unit → World T → Prop}
    (hQ : ∀ p, p = s.prot ∨ p = restProtection o.state →
      Q () (w.setObj b (o.withSealing { s with prot := p }))) :
    Ens P t faulty crash (reapplyReadOnly b) Q (w.setObj b (o.withSealing s)) := by
  simp only [reapplyReadOnly, ens_bind, ens_load, ens_when, obj_setObj,
    restProtection_withSealing]
  split
  · rw [ens_mprotect (Or.inl (by rw [obj_setObj]; exact ho.wiped))]
    simp only [obj_setObj, setObj_setObj]
    exact ⟨hQ _ (Or.inr rfl), fun _ _ => hQ s.prot (Or.inl rfl)⟩
  · exact hQ s.prot (Or.inl rfl)

lemma ens_rolledBack (ho : Held t o) {cause : GoErr}
    (hQ : ∀ e p, p = s.prot ∨ p = restProtection o.state →
      Q (some e) (w.setObj b (o.withSealing { s with tagged := false, prot := p }))) :
    Ens P t faulty crash (rolledBack b cause) Q (w.setObj b (o.withSealing s)) := by
  simp only [rolledBack, ens_bind, ens_store, obj_setObj, setObj_setObj]
  exact ens_reapplyReadOnly (s := { s with tagged := false }) ho fun p hp => hQ _ p hp

/-- The rollback, of plaintext or of what the cipher made of `plain`. -/
lemma ens_rollbackSeal (plain : List UInt8) (ho : Held t o) {cause : GoErr}
    (hrw : s.prot = .readWrite)
    (hcode : s.cipher = false ∧ s.inner = plain ∨
      s.cipher = true ∧ Encrypts P plain s.inner ∧ s.rest = s.inner)
    (hback : ∀ e p rest, p = .readWrite ∨ p = restProtection o.state →
      s.cipher = false ∧ rest = s.rest ∨ rest = plain →
      Q (some e) (w.setObj b (o.withSealing
        { s with tagged := false, cipher := false, inner := plain, rest := rest, prot := p })))
    (hstuck : s.cipher = true → ∀ e p,
      Q (some e) (w.setObj b (o.withSealing { s with sealed := true, prot := p }))) :
    Ens P t faulty crash (rollbackSeal b s.cipher cause) Q (w.setObj b (o.withSealing s)) := by
  rcases hcode with ⟨hc, hin⟩ | ⟨hc, ⟨cipher, seed, hcipher, -, hin⟩, hrest⟩
  · rcases s with ⟨sealed, tagged, gen, nonce, tag, cipher, inner, rest, prot⟩
    simp only at hc hin hrw
    subst hc hin hrw
    rw [rollbackSeal, if_neg Bool.false_ne_true]
    exact ens_rolledBack ho fun e p hp => hback e p rest hp (Or.inl ⟨rfl, rfl⟩)
  · rw [rollbackSeal, if_pos hc]
    simp only [ens_bind]
    refine ens_sealDecrypt (fun hnone => ?_) (fun _ _ e => ?_) ?_ fun cipher' hcipher' _ => ?_
    · rw [hcipher] at hnone
      cases hnone
    · simp only [ens_bind, ens_store, obj_setObj, setObj_setObj]
      exact ens_reapplyReadOnly (s := { s with sealed := true }) ho fun p _ => hstuck hc _ p
    · rw [obj_setObj]
      refine ⟨ho.mapped, ?_⟩
      have : (o.withSealing s).region.prot = s.prot := rfl
      rw [this, hrw]
      rfl
    · simp only [ens_bind, ens_storeSealCipher, obj_setObj, setObj_setObj]
      have hplain : cipher'.decrypt s.inner = plain := by
        rw [hcipher] at hcipher'
        obtain rfl := Option.some.inj hcipher'
        rw [hin, cipher.decrypt_encrypt]
      refine ens_rolledBack (s := { s with
        cipher := false, inner := cipher'.decrypt s.inner, rest := cipher'.decrypt s.inner }) ho
        fun e p hp => ?_
      have := hback e p plain (hrw ▸ hp) (Or.inr rfl)
      rwa [← hplain] at this

/-- Between the cipher and the end of `Seal`, or of its rollback: the bytes are those of before,
or what the cipher made of them. -/
structure Sealable (P : Platform) (id : ℕ) (s₀ : Sealing) (w : World T) (s : Sealing) : Prop where
  prot : s.prot = .readWrite
  sealed : s.sealed = false
  coding : s.cipher = false ∧ s.inner = s₀.inner ∧ (s.rest = s₀.rest ∨ s.rest = s₀.inner) ∨
    s.cipher = true ∧ Encrypts P s₀.inner s.inner ∧ s.rest = s.inner
  tagged : s.tagged = true → s.rest = s.inner ∧ TagMatches P w id s

/-- The rollback is a way for `Seal` to end. -/
lemma ens_rollbackStep {s₀ : Sealing} {cause : GoErr} (ho : Held t o)
    (hs : Sealable P o.state.janitorKey s₀ w s)
    (hQ : ∀ err s', SealStep P o s₀ err w s' → Q err (w.setObj b (o.withSealing s'))) :
    Ens P t faulty crash (rollbackSeal b s.cipher cause) Q (w.setObj b (o.withSealing s)) := by
  refine ens_rollbackSeal s₀.inner ho hs.prot ?_ (fun e p rest hp hrest => ?_) fun hc e p => ?_
  · exact hs.coding.imp_left fun hc => ⟨hc.1, hc.2.1⟩
  · refine hQ _ _
      { coding := Or.inl ⟨rfl, rfl, ?_⟩
        tagged := fun htag => absurd htag Bool.false_ne_true
        prot := fun _ => Or.inr hp
        success := fun herr => by cases herr }
    rcases hrest with ⟨hc, rfl⟩ | rfl
    · rcases hs.coding with ⟨-, -, hrest⟩ | ⟨hc', -⟩
      · exact hrest
      · rw [hc] at hc'
        cases hc'
    · exact Or.inr rfl
  · obtain ⟨hc', -⟩ | ⟨-, henc, hrest⟩ := hs.coding
    · rw [hc] at hc'
      cases hc'
    · exact hQ _ _
        { coding := Or.inr ⟨hc, rfl, henc, hrest⟩
          tagged := fun htag => ⟨rfl, hs.tagged htag⟩
          prot := fun hsealed => by cases hsealed
          success := fun _ => rfl }

/-- The last step of `Seal`: no access. -/
lemma ens_sealProtect {s₀ : Sealing} (ho : Held t o)
    (hs : Sealable P o.state.janitorKey s₀ w s)
    (hQ : ∀ err s', SealStep P o s₀ err w s' → Q err (w.setObj b (o.withSealing s'))) :
    Ens P t faulty crash (do
      let err : Option GoErr ← upon b (.mprotect .none)
      match err with
      | some e => rollbackSeal b s.cipher e
      | none => do
        upon b (.store fun s => { s with sealed := true })
        pure none) Q (w.setObj b (o.withSealing s)) := by
  simp only [ens_bind]
  rw [ens_mprotect (Or.inl (by rw [obj_setObj]; exact ho.wiped))]
  refine ⟨?_, fun _ n => ens_rollbackStep ho hs hQ⟩
  simp only [ens_bind, ens_store, ens_pure, obj_setObj, setObj_setObj]
  refine hQ none { s with sealed := true, prot := .none }
    { coding := ?_
      tagged := fun htag => ⟨rfl, hs.tagged htag⟩
      prot := fun hsealed => by cases hsealed
      success := fun _ => rfl }
  exact hs.coding.imp_right fun hc => ⟨hc.1, rfl, hc.2⟩

/-- The end of `Seal`: the bytes are as they will rest, in a writable region. -/
lemma ens_sealRest (s₀ : Sealing) {applied : Bool} (h : Calm b key layout w)
    (hreg : w.lookup key ≠ none) (ho : Held t o) (hs : Sealable P o.state.janitorKey s₀ w s)
    (htagged : s.tagged = false) (happ : applied = s.cipher)
    (hQ : ∀ err w' s', Calm b key layout w' → Evolves key w w' →
      SealStep P o s₀ err w' s' → Q err (w'.setObj b (o.withSealing s'))) :
    Ens P t faulty crash (sealRest P b o.state applied) Q (w.setObj b (o.withSealing s)) := by
  subst happ
  simp only [sealRest, sealTagging, ens_bind]
  cases o.state.sealAuth with
  | false =>
    exact ens_sealProtect ho hs fun err s' hstep => hQ err w s' h (.refl _ _) hstep
  | true =>
    refine ens_sealAuthenticate h hreg ho.mapped (by rw [hs.prot]; rfl) ?_ ?_
    · intro w' gen nonce tag hcalm hev htag
      refine ens_sealProtect (s := { s with
        tagged := true, gen := gen, nonce := nonce, tag := tag, rest := s.inner }) ho
        ⟨hs.prot, hs.sealed, ?_, fun _ => ⟨rfl, htag⟩⟩
        fun err s' hstep => hQ err w' s' hcalm hev hstep
      exact hs.coding.imp (fun hc => ⟨hc.1, hc.2.1, Or.inr hc.2.1⟩) fun hc => ⟨hc.1, hc.2.1, rfl⟩
    · intro e w' nonce hcalm hev
      refine ens_rollbackStep (s := { s with nonce := nonce }) ho
        ⟨hs.prot, hs.sealed, hs.coding, fun htag => ?_⟩
        fun err s' hstep => hQ err w' s' hcalm hev hstep
      simp only [htagged] at htag
      cases htag

/-- What is known of a buffer when `Seal` begins its work. -/
structure Unsealed (o : Obj T) (s : Sealing) : Prop where
  sealed : s.sealed = false
  cipher : s.cipher = false
  tagged : s.tagged = false
  writable : o.state.closedAtRest = false → o.state.readOnly = false → s.prot = .readWrite

/-- `Seal` of a buffer that is writable. -/
lemma ens_sealWritable {s₀ : Sealing} (h : Calm b key layout w) (hreg : w.lookup key ≠ none)
    (ho : Held t o) (hs : s = { s₀ with prot := .readWrite }) (hu : Unsealed o s₀)
    {Q : Option GoErr → World T → Prop}
    (hQ : ∀ err w' s', Calm b key layout w' → Evolves key w w' →
      SealStep P o s₀ err w' s' → Q err (w'.setObj b (o.withSealing s'))) :
    Ens P t faulty crash (sealWritable P b o.state) Q (w.setObj b (o.withSealing s)) := by
  subst hs
  simp only [sealWritable, ens_bind, ens_store, obj_setObj, setObj_setObj]
  have hin : ∀ s : Sealing, (o.withSealing s).region.inner = s.inner := fun _ => rfl
  refine ens_sealEncrypt (fun hnone => ?_) (fun e => ?_) ?_ fun cipher seed hc hlen => ?_
  · simp only [ens_bind, ens_when, Bool.false_eq_true, if_false]
    exact ens_sealRest s₀ (s := { s₀ with tagged := false, prot := .readWrite }) h hreg ho
      ⟨rfl, hu.sealed, Or.inl ⟨hu.cipher, rfl, Or.inl rfl⟩, fun ht => by cases ht⟩ rfl
      hu.cipher.symm hQ
  · simp only [ens_bind, ens_pure]
    refine ens_reapplyReadOnly (s := { s₀ with tagged := false, prot := .readWrite }) ho
      fun p hp => hQ _ w _ h (.refl _ _)
        { coding := Or.inl ⟨hu.cipher, rfl, Or.inl rfl⟩
          tagged := fun htag => by cases htag
          prot := fun _ => Or.inr hp
          success := fun herr => by cases herr }
  · rw [obj_setObj]
    exact ⟨ho.mapped, rfl⟩
  · rw [obj_setObj, hin] at hlen
    simp only [ens_bind, ens_when, if_true, ens_storeSealCipher, obj_setObj,
      setObj_setObj]
    exact ens_sealRest s₀ (s := { s₀ with
        tagged := false, prot := .readWrite, cipher := true
        inner := cipher.encrypt seed s₀.inner, rest := cipher.encrypt seed s₀.inner }) h hreg ho
      ⟨rfl, hu.sealed, Or.inr ⟨rfl, ⟨cipher, seed, hc, hlen, rfl⟩, rfl⟩, fun ht => by cases ht⟩
      rfl rfl hQ

/-- `Seal` after its checks. -/
lemma ens_sealUnsealed (h : Calm b key layout w) (hreg : w.lookup key ≠ none)
    (ho : Held t o) (hu : Unsealed o s)
    (hQ : ∀ err w' s', Calm b key layout w' → Evolves key w w' →
      SealStep P o s err w' s' → Q err (w'.setObj b (o.withSealing s'))) :
    Ens P t faulty crash (sealUnsealed P b o.state) Q (w.setObj b (o.withSealing s)) := by
  have hc : (o.withSealing s).sealCipher = s.cipher := rfl
  simp only [sealUnsealed, ens_bind, ens_loadSealCipher, obj_setObj, hc, hu.cipher,
    Bool.false_eq_true, if_false, lift]
  split
  · rw [ens_mprotect (Or.inl (by rw [obj_setObj]; exact ho.wiped))]
    simp only [obj_setObj, setObj_setObj, ens_pure]
    refine ⟨ens_sealWritable h hreg ho rfl hu hQ, fun _ n => hQ _ w s h (.refl _ _)
      { coding := Or.inl ⟨hu.cipher, rfl, Or.inl rfl⟩
        tagged := fun htag => by rw [hu.tagged] at htag; cases htag
        prot := fun _ => Or.inl rfl
        success := fun herr => by cases herr }⟩
  next hopen =>
    rw [not_or, Bool.not_eq_true, Bool.not_eq_true] at hopen
    have hs : s = { s with prot := .readWrite } := by
      rw [← hu.writable hopen.2 hopen.1]
    exact ens_sealWritable h hreg ho hs hu hQ

/-! ## Unseal -/

/-- A buffer that was sealed again: plaintext, or what the cipher made of it, with a tag if one
could be taken. -/
structure Resealed (P : Platform) (id : ℕ) (plain rest : List UInt8) (w : World T)
    (s : Sealing) : Prop where
  sealed : s.sealed = true
  coding : s.cipher = false ∧ s.inner = plain ∧ (s.rest = rest ∨ s.rest = plain) ∨
    s.cipher = true ∧ Encrypts P plain s.inner ∧ s.rest = s.inner
  tagged : s.tagged = true → s.rest = s.inner ∧ TagMatches P w id s

/-- What can keep `Unseal` from opening a buffer whose tag, if it has one, is in order. -/
def Locked (P : Platform) (faulty : Bool) (w : World T) (s : Sealing) : Prop :=
  faulty = true ∨ s.tagged = true ∧ ((∀ q, ¬ Current w q) ∨ w.keyring.gen ≠ s.gen) ∨
    s.cipher = true ∧ P.sealCipher ≠ none ∧ (sealCipherLen s.inner.length).isSome = true

/-- What `Unseal` can come to, for a sealed buffer. -/
inductive UnsealStep (P : Platform) (faulty : Bool) (o : Obj T) (w : World T) (s : Sealing) :
    Option GoErr → World T → Sealing → Prop
  | failed (e : GoErr) (p : Prot) (w' : World T) (hreason : Locked P faulty w s) :
      UnsealStep P faulty o w s (some e) w' { s with prot := p }
  | refused (p : Prot) (w' : World T) (q : ℕ) (hq : Current w' q)
      (hgen : w'.keyring.gen = s.gen)
      (htag : s.tag ≠ sealComputeTag P (w'.obj q).region.inner o.state.janitorKey s.nonce s.inner)
      (htagged : s.tagged = true) :
      UnsealStep P faulty o w s
        (some (.wrap "secmem.SecureBuffer.Unseal: " Sentinel.errIntegrity)) w' { s with prot := p }
  | done (w' : World T) (plain rest : List UInt8)
      (hver : s.tagged = true → TagMatches P w' o.state.janitorKey s)
      (hdec : Decoded P s plain rest) :
      UnsealStep P faulty o w s none w' { s with
        sealed := false, tagged := false, cipher := false, inner := plain, rest := rest
        prot := restProtection o.state }
  | again (e : GoErr) (w' w'' : World T) (plain rest : List UInt8) (s' : Sealing)
      (hf : faulty = true) (hver : s.tagged = true → TagMatches P w' o.state.janitorKey s)
      (hdec : Decoded P s plain rest) (hs' : Resealed P o.state.janitorKey plain rest w'' s') :
      UnsealStep P faulty o w s (some e) w'' s'

/-- Where `Unseal` restores the protection and tells the reason. -/
lemma ens_staySealed (ho : Held t o) {before : String} {e : GoErr}
    (hQ : ∀ p, Q (some (.wrap ("secmem.SecureBuffer.Unseal: " ++ before) e))
      (w.setObj b (o.withSealing { s with prot := p }))) :
    Ens P t faulty crash (staySealed b before e) Q (w.setObj b (o.withSealing s)) := by
  simp only [staySealed, ens_bind, ens_pure]
  rw [ens_mprotect (Or.inl (by rw [obj_setObj]; exact ho.wiped))]
  simp only [obj_setObj, setObj_setObj]
  exact ⟨hQ .none, fun _ _ => hQ s.prot⟩

/-- The tag of a buffer that is sealed again. -/
lemma ens_sealTagAgain {plain rest : List UInt8} (h : Calm b key layout w)
    (hreg : w.lookup key ≠ none) (ho : Held t o) (hrw : s.prot = .readWrite)
    (htagged : s.tagged = false) (hs : Resealed P o.state.janitorKey plain rest w s) {e : GoErr}
    (hQ : ∀ w' s', Calm b key layout w' → Evolves key w w' →
      Resealed P o.state.janitorKey plain rest w' s' →
      Q (some (.wrap "secmem.SecureBuffer.Unseal: restoring read-only: " e))
        (w'.setObj b (o.withSealing s'))) :
    Ens P t faulty crash (do
      let _ ← sealTagging P b o.state
      let _ ← upon b (.mprotect .none)
      pure (some (GoErr.wrap "secmem.SecureBuffer.Unseal: restoring read-only: " e))) Q
      (w.setObj b (o.withSealing s)) := by
  -- whatever became of the tag, the protection is the last thing to change
  have hprot : ∀ w' s', Calm b key layout w' → Evolves key w w' →
      Resealed P o.state.janitorKey plain rest w' s' →
      Ens P t faulty crash (do
        let _ ← upon b (.mprotect .none)
        pure (some (GoErr.wrap "secmem.SecureBuffer.Unseal: restoring read-only: " e))) Q
        (w'.setObj b (o.withSealing s')) := by
    intro w' s' hcalm hev hs'
    simp only [ens_bind, ens_pure]
    rw [ens_mprotect (Or.inl (by rw [obj_setObj]; exact ho.wiped))]
    simp only [obj_setObj, setObj_setObj]
    exact ⟨hQ w' { s' with prot := .none } hcalm hev ⟨hs'.sealed, hs'.coding, hs'.tagged⟩,
      fun _ _ => hQ w' s' hcalm hev hs'⟩
  rw [ens_bind, sealTagging]
  split
  · refine ens_sealAuthenticate h hreg ho.mapped (by rw [hrw]; rfl) ?_ ?_
    · intro w' gen nonce tag hcalm hev htag
      refine hprot w' _ hcalm hev ⟨hs.sealed, ?_, fun _ => ⟨rfl, htag⟩⟩
      exact hs.coding.imp (fun hc => ⟨hc.1, hc.2.1, Or.inr hc.2.1⟩) fun hc => ⟨hc.1, hc.2.1, rfl⟩
    · intro e w' nonce hcalm hev
      refine hprot w' _ hcalm hev ⟨hs.sealed, hs.coding, fun htag => ?_⟩
      simp only [htagged] at htag
      cases htag
  · exact hprot w s h (.refl _ _) hs

/-- `Unseal` when the protection at rest could not be restored. -/
lemma ens_sealAgain {rest : List UInt8} (h : Calm b key layout w)
    (hreg : w.lookup key ≠ none) (ho : Held t o) (hrw : s.prot = .readWrite)
    (hsealed : s.sealed = true) (hcipher : s.cipher = false) (hrest : s.rest = rest) {e : GoErr}
    (hQ : ∀ w' s', Calm b key layout w' → Evolves key w w' →
      Resealed P o.state.janitorKey s.inner rest w' s' →
      Q (some (.wrap "secmem.SecureBuffer.Unseal: restoring read-only: " e))
        (w'.setObj b (o.withSealing s'))) :
    Ens P t faulty crash (sealAgain P b o.state e) Q (w.setObj b (o.withSealing s)) := by
  have hplain : Resealed P o.state.janitorKey s.inner rest w { s with tagged := false } :=
    ⟨hsealed, Or.inl ⟨hcipher, rfl, Or.inl hrest⟩, fun htag => by cases htag⟩
  have hin : (o.withSealing s).region.inner = s.inner := rfl
  rw [sealAgain, ens_bind]
  refine ens_sealEncrypt (fun _ => ?_) (fun e' => ?_) ?_ fun cipher seed hc hlen => ?_
  · rw [ens_bind, ens_when, if_neg (by simp [Except.toOption]), ens_bind, ens_store,
      obj_setObj, setObj_setObj]
    exact ens_sealTagAgain (s := { s with tagged := false }) h hreg ho hrw rfl hplain hQ
  · rw [ens_bind, ens_when, if_neg (by simp [Except.toOption]), ens_bind, ens_store,
      obj_setObj, setObj_setObj]
    exact ens_sealTagAgain (s := { s with tagged := false }) h hreg ho hrw rfl hplain hQ
  · rw [obj_setObj]
    refine ⟨ho.mapped, ?_⟩
    have : (o.withSealing s).region.prot = s.prot := rfl
    rw [this, hrw]
    rfl
  · rw [obj_setObj, hin] at hlen
    rw [ens_bind, ens_when, if_pos (by simp [Except.toOption]), ens_storeSealCipher, ens_bind,
      ens_store]
    simp only [obj_setObj, setObj_setObj]
    exact ens_sealTagAgain (s := { s with
        tagged := false, cipher := true, inner := cipher.encrypt seed s.inner
        rest := cipher.encrypt seed s.inner }) h hreg ho hrw rfl
      ⟨hsealed, Or.inr ⟨rfl, ⟨cipher, seed, hc, hlen, rfl⟩, rfl⟩, fun htag => by cases htag⟩ hQ

/-- The end of `Unseal`: the bytes are plaintext, in a writable region. -/
lemma ens_unsealRestore {plain rest : List UInt8} (h : Calm b key layout w)
    (hreg : w.lookup key ≠ none) (ho : Held t o) (hsealed : s.sealed = true)
    (hdone : Q none (w.setObj b (o.withSealing { s with
      sealed := false, tagged := false, cipher := false, inner := plain, rest := rest
      prot := restProtection o.state })))
    (hagain : faulty = true → ∀ e w' s', Calm b key layout w' → Evolves key w w' →
      Resealed P o.state.janitorKey plain rest w' s' →
      Q (some e) (w'.setObj b (o.withSealing s'))) :
    Ens P t faulty crash (unsealRestore P b o.state) Q (w.setObj b (o.withSealing
      { s with cipher := false, inner := plain, rest := rest, prot := .readWrite })) := by
  rw [unsealRestore, ens_bind]
  by_cases hp : restProtection o.state ≠ .readWrite
  · rw [if_pos hp, ens_mprotect (Or.inl (by rw [obj_setObj]; exact ho.wiped))]
    refine ⟨?_, fun hf n => ?_⟩
    · simp only [ens_bind, ens_store, ens_pure, obj_setObj, setObj_setObj]
      exact hdone
    · exact ens_sealAgain (s := { s with
          cipher := false, inner := plain, rest := rest, prot := .readWrite }) h hreg ho rfl
        hsealed rfl rfl fun w' s' hcalm hev hs' => hagain hf _ w' s' hcalm hev hs'
  · rw [if_neg hp, ens_pure]
    simp only [ens_bind, ens_store, ens_pure, obj_setObj, setObj_setObj]
    rw [not_not.mp hp] at hdone
    exact hdone

/-- `Unseal` once the tag is in order. -/
lemma ens_unsealDecrypt (h : Calm b key layout w) (hreg : w.lookup key ≠ none) (ho : Held t o)
    (hsealed : s.sealed = true) (hcipher : s.cipher = true → P.sealCipher ≠ none)
    (hdone : ∀ plain rest, Decoded P s plain rest → Q none (w.setObj b (o.withSealing { s with
      sealed := false, tagged := false, cipher := false, inner := plain, rest := rest
      prot := restProtection o.state })))
    (hagain : faulty = true → ∀ e w' plain rest s', Decoded P s plain rest →
      Calm b key layout w' → Evolves key w w' →
      Resealed P o.state.janitorKey plain rest w' s' →
      Q (some e) (w'.setObj b (o.withSealing s')))
    (hbad : faulty = true ∨ s.cipher = true ∧ P.sealCipher ≠ none ∧
        (sealCipherLen s.inner.length).isSome = true → ∀ e p,
      Q (some e) (w.setObj b (o.withSealing { s with prot := p }))) :
    Ens P t faulty crash (unsealDecrypt P b o.state) Q
      (w.setObj b (o.withSealing { s with prot := .readWrite })) := by
  have hc : ∀ s : Sealing, (o.withSealing s).sealCipher = s.cipher := fun _ => rfl
  have hin : ∀ s : Sealing, (o.withSealing s).region.inner = s.inner := fun _ => rfl
  rw [unsealDecrypt, ens_bind, ens_loadSealCipher, obj_setObj, hc]
  by_cases hflag : s.cipher = true
  · rw [if_pos hflag, ens_bind]
    refine ens_sealDecrypt (fun hnone => absurd hnone (hcipher hflag)) (fun hne hlen e => ?_) ?_
      fun cipher hcipher' hlen => ?_
    · rw [obj_setObj, hin] at hlen
      exact ens_staySealed (s := { s with prot := .readWrite }) ho fun p =>
        hbad (hlen.imp_right fun hl => ⟨hflag, hne, hl⟩) _ p
    · rw [obj_setObj]
      exact ⟨ho.mapped, rfl⟩
    · have hdec : Decoded P s (cipher.decrypt s.inner) (cipher.decrypt s.inner) :=
        .decrypted hflag hcipher'
      simp only [ens_bind, ens_storeSealCipher, obj_setObj, setObj_setObj]
      exact ens_unsealRestore h hreg ho hsealed (hdone _ _ hdec)
        fun hf e w' s' hcalm hev hs' => hagain hf e w' _ _ s' hdec hcalm hev hs'
  · have hdec : Decoded P s s.inner s.rest := .asIs (by simpa using hflag)
    have hs : ({ s with prot := .readWrite } : Sealing) =
        { s with cipher := false, inner := s.inner, rest := s.rest, prot := .readWrite } := by
      simpa using hflag
    rw [if_neg hflag, hs]
    exact ens_unsealRestore h hreg ho hsealed (hdone _ _ hdec)
      fun hf e w' s' hcalm hev hs' => hagain hf e w' _ _ s' hdec hcalm hev hs'

/-- `Unseal` of a sealed buffer, after its checks. -/
lemma ens_unsealSealed (h : Calm b key layout w) (hreg : w.lookup key ≠ none) (ho : Held t o)
    (hsealed : s.sealed = true) (hcipher : s.cipher = true → P.sealCipher ≠ none)
    (hstate : o.state.sealTagged = s.tagged)
    (hQ : ∀ err w' s', Calm b key layout w' → Evolves key w w' →
      UnsealStep P faulty o w s err w' s' → Q err (w'.setObj b (o.withSealing s'))) :
    Ens P t faulty crash (unsealSealed P b o.state) Q (w.setObj b (o.withSealing s)) := by
  -- after the tag, if there is one, is found in order
  have hdecrypt : ∀ w', Calm b key layout w' → Evolves key w w' →
      (s.tagged = true → TagMatches P w' o.state.janitorKey s) →
      Ens P t faulty crash (unsealDecrypt P b o.state) Q
        (w'.setObj b (o.withSealing { s with prot := .readWrite })) := by
    intro w' hcalm hev hver
    have hreg' : w'.lookup key ≠ none := by
      rw [World.lookup, hev.live, hev.wiped]
      exact hreg
    refine ens_unsealDecrypt hcalm hreg' ho hsealed hcipher
      (fun plain rest hdec => hQ _ w' _ hcalm hev (.done w' plain rest hver hdec))
      (fun hf e w'' plain rest s' hdec hcalm' hev' hs' => hQ _ w'' s' hcalm' (hev.trans hev')
        (.again e w' w'' plain rest s' hf hver hdec hs'))
      fun hbad e p => hQ _ w' _ hcalm hev (.failed e p w' (hbad.imp_right Or.inr))
  rw [unsealSealed, ens_bind, ens_mprotect (Or.inl (by rw [obj_setObj]; exact ho.wiped))]
  refine ⟨?_, fun hf n => hQ _ w s h (.refl _ _) (.failed _ s.prot w (Or.inl hf))⟩
  rw [obj_setObj, setObj_setObj]
  simp only [ens_bind, ens_relock]
  refine ⟨?_, fun hf n => ens_staySealed (s := { s with prot := .readWrite }) ho fun p =>
    hQ _ w _ h (.refl _ _) (.failed _ p w (Or.inl hf))⟩
  rw [unsealVerified, ens_bind, hstate]
  cases htagged : s.tagged with
  | false =>
    rw [if_neg Bool.false_ne_true, ens_pure]
    exact hdecrypt w h (.refl _ _) fun htag => by rw [htagged] at htag; cases htag
  | true =>
    rw [if_pos rfl]
    refine ens_sealVerify (s := { s with prot := .readWrite }) h hreg ho.mapped rfl
      (fun w' hcalm hev htag => hdecrypt w' hcalm hev fun _ => htag)
      (fun w' q hcalm hev hq hgen htag => ens_staySealed (s := { s with prot := .readWrite }) ho
        fun p => hQ _ w' _ hcalm hev (.refused p w' q hq hgen htag htagged))
      fun hbad e w' hcalm hev => ens_staySealed (s := { s with prot := .readWrite }) ho fun p =>
        hQ _ w' _ hcalm hev (.failed _ p w' (hbad.imp_right fun hb => Or.inl ⟨htagged, hb⟩))

/-! ## The methods -/

omit [DecidableEq T] in
lemma sealRefusal_eq_none {a : Abs} :
    a.sealRefusal = none ↔ a.destroyed = false ∧ a.wiped = false := by
  unfold Abs.sealRefusal
  cases a.destroyed <;> cases a.wiped <;> simp

/-- The checks of `Seal` and `Unseal`, and the lock around them. -/
lemma ens_gateSeal (hi : Idle o) {name : String}
    {body : BufferState → ProcProg (Option GoErr)}
    (hrefused : ∀ e, o.view.sealRefusal = some e → Q (some (.wrap name e)) (w.setObj b o))
    (hbody : o.view.sealRefusal = none → Held t { o with mu := lockedBy t } →
      Ens P t faulty crash (body o.state)
        (fun r w' => ∃ (w₁ : World T) (o' : Obj T), w' = w₁.setObj b o' ∧ o'.mu = lockedBy t ∧
          Q r (w₁.setObj b { o' with mu := .free }))
        (w.setObj b { o with mu := lockedBy t })) :
    Ens P t faulty crash (gateSeal name b body) Q (w.setObj b o) := by
  have hback : ∀ r, Q r (w.setObj b o) → Q r ((w.setObj b { o with mu := lockedBy t }).setObj b
      { (w.setObj b { o with mu := lockedBy t }).obj b with
        mu := ((w.setObj b { o with mu := lockedBy t }).obj b).mu.unlock }) := by
    intro r hr
    rw [obj_setObj, setObj_setObj, unlock_lockedBy, ← hi.mu]
    exact hr
  rw [gateSeal, ens_locked (by rw [obj_setObj]; exact hi.mu), obj_setObj,
    setObj_setObj, ens_bind, ens_load, obj_setObj]
  cases hd : o.state.data.isNone with
  | true =>
    have hg : o.state.inner = false := by rw [hi.gone, hd]; rfl
    have hdv : o.view.destroyed = true := hd
    rw [if_pos hg, ens_pure]
    exact hback _ (hrefused .errDestroyed (by rw [Abs.sealRefusal, hdv]; rfl))
  | false =>
    have hg : o.state.inner = true := by rw [hi.gone, hd]; rfl
    have hdv : o.view.destroyed = false := hd
    rw [if_neg (by simp [hg]), ens_bind, ens_loadWiped,
      obj_setObj]
    cases hw : o.wiped with
    | true =>
      have hwv : o.view.wiped = true := hw
      rw [if_pos rfl, ens_pure]
      exact hback _ (hrefused .errWiped (by rw [Abs.sealRefusal, hdv, hwv]; rfl))
    | false =>
      have hnone : o.view.sealRefusal = none := sealRefusal_eq_none.mpr ⟨hdv, hw⟩
      rw [if_neg Bool.false_ne_true]
      refine (hbody hnone ⟨rfl, hw, hi.mapped hg⟩).mono fun r w' h' => ?_
      obtain ⟨w₁, o', rfl, hmu, hQ⟩ := h'
      rw [obj_setObj, setObj_setObj, hmu, unlock_lockedBy]
      exact hQ

omit [DecidableEq T] in
/-- What changed under the lock, once the lock is free again. -/
lemma withSealing_unlocked (hmu : o.mu = .free) (s : Sealing) :
    { ({ o with mu := lockedBy t } : Obj T).withSealing s with mu := .free } =
      o.withSealing s := by
  rw [← hmu]
  rfl

lemma ens_sealBuffer (h : Calm b key layout w) (hi : Idle o)
    (hreg : o.view.sealRefusal = none → w.lookup key ≠ none)
    (hu : o.view.refusal = none → o.sealCipher = false ∧ o.state.sealTagged = false)
    (hrefused : ∀ e, o.view.sealRefusal = some e →
      Q (some (.wrap "secmem.SecureBuffer.Seal: " e)) (w.setObj b o))
    (hsealed : o.view.sealRefusal = none → o.state.sealed = true → Q none (w.setObj b o))
    (hstep : o.view.refusal = none → ∀ err w' s', Calm b key layout w' → Evolves key w w' →
      SealStep P o o.sealing err w' s' → Q err (w'.setObj b (o.withSealing s'))) :
    Ens P t faulty crash (sealBuffer P b) Q (w.setObj b o) := by
  refine ens_gateSeal hi hrefused fun hnone hheld => ?_
  obtain ⟨hd, hw⟩ := sealRefusal_eq_none.mp hnone
  cases hs : o.state.sealed with
  | true =>
    rw [if_pos rfl, ens_pure]
    exact ⟨w, _, rfl, rfl, hi.mu ▸ hsealed hnone hs⟩
  | false =>
    have hr : o.view.refusal = none := refusal_eq_none.mpr ⟨hd, hw, hs⟩
    rw [if_neg Bool.false_ne_true]
    refine ens_sealUnsealed (o := { o with mu := lockedBy t }) (s := o.sealing) h (hreg hnone) hheld
      ⟨hs, (hu hr).1, (hu hr).2, fun hc hro => ?_⟩ fun err w' s' hcalm hev hst =>
      ⟨w', _, rfl, rfl, ?_⟩
    · exact Prot.eq_readWrite (hi.writable hr hc hro)
    · rw [withSealing_unlocked hi.mu]
      exact hstep hr err w' s' hcalm hev ⟨hst.coding, hst.tagged, hst.prot, hst.success⟩

lemma ens_unsealBuffer (h : Calm b key layout w) (hi : Idle o)
    (hreg : o.view.sealRefusal = none → w.lookup key ≠ none)
    (hcipher : o.view.sealRefusal = none → o.sealCipher = true → P.sealCipher ≠ none)
    (hrefused : ∀ e, o.view.sealRefusal = some e →
      Q (some (.wrap "secmem.SecureBuffer.Unseal: " e)) (w.setObj b o))
    (hopen : o.view.refusal = none → Q none (w.setObj b o))
    (hstep : o.view.sealRefusal = none → o.state.sealed = true → ∀ err w' s',
      Calm b key layout w' → Evolves key w w' →
      UnsealStep P faulty o w o.sealing err w' s' → Q err (w'.setObj b (o.withSealing s'))) :
    Ens P t faulty crash (unsealBuffer P b) Q (w.setObj b o) := by
  refine ens_gateSeal hi hrefused fun hnone hheld => ?_
  obtain ⟨hd, hw⟩ := sealRefusal_eq_none.mp hnone
  cases hs : o.state.sealed with
  | false =>
    rw [if_pos rfl, ens_pure]
    exact ⟨w, _, rfl, rfl, hi.mu ▸ hopen (refusal_eq_none.mpr ⟨hd, hw, hs⟩)⟩
  | true =>
    rw [if_neg (by decide)]
    refine ens_unsealSealed (o := { o with mu := lockedBy t }) (s := o.sealing) h (hreg hnone)
      hheld hs (hcipher hnone) rfl fun err w' s' hcalm hev hst => ⟨w', _, rfl, rfl, ?_⟩
    rw [withSealing_unlocked hi.mu]
    refine hstep hnone hs err w' s' hcalm hev ?_
    cases hst with
    | failed e p _ hreason => exact .failed e p w' hreason
    | refused p _ q hq hgen htag htagged => exact .refused p w' q hq hgen htag htagged
    | done _ plain rest hver hdec => exact .done w' plain rest hver hdec
    | again e w₁ _ plain rest _ hf hver hdec hs' =>
      exact .again e w₁ w' plain rest s' hf hver hdec hs'

end Tags

end Secmem.Process
