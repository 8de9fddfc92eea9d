import Secmem.Process.Releasing

/-!
# The keyring, alone

What `withPrekey` does when one goroutine runs alone in a world with one buffer: it finds the
current prekey, or makes a new one after it has released a wiped predecessor, or fails on the
way.  The buffer itself and its registration are left alone throughout.
-/

namespace Secmem.Process

open World Function

variable {T : Type} {q k : ℕ}

/-! ## A world with one buffer -/

/-- The registration of a buffer. -/
def ownEntry (b : ℕ) (layout : CanaryLayout) : Entry := ⟨b, b, layout, some b, some b⟩

lemma names_ownEntry (b : ℕ) (layout : CanaryLayout) : (ownEntry b layout).Names b :=
  ⟨rfl, rfl, rfl, Or.inr rfl⟩

lemma names_prekeyEntry (q : ℕ) : (prekeyEntry q).Names q := ⟨rfl, rfl, rfl, Or.inl rfl⟩

/-- The world around the buffer `b`, which is registered under `key` if at all.  Nothing else is
registered but the prekey `pre`, under its own key, and nobody is using that. -/
structure Around (b key : ℕ) (layout : CanaryLayout) (pre : Option (ℕ × ℕ)) (w : World T) :
    Prop where
  allocated : b < w.allocated
  once : ∀ k, (w.regions k).isSome = true → w.wiped k = none
  live : ∀ e, w.regions key = some e → e = ownEntry b layout
  wiped : ∀ e, w.wiped key = some e → e = (ownEntry b layout).retained
  other : ∀ k e, k ≠ key → w.lookup k = some e →
    pre = some (e.region, k) ∧ e = prekeyEntry e.region
  prekey : ∀ q k, pre = some (q, k) → k ≠ key ∧ q ≠ b ∧ q < w.allocated ∧
    (w.obj q).mu = .free ∧ (w.obj q).region.mapped = true

/-- The prekey in use and its key. -/
def Keyring.pre (k : Keyring) : Option (ℕ × ℕ) := k.current.map fun q => (q, k.key)

/-- The world around a buffer between two calls. -/
structure Calm (b key : ℕ) (layout : CanaryLayout) (w : World T) : Prop extends
    Around b key layout w.keyring.pre w where
  keyringMu : w.keyringMu = none
  readable : ∀ q, w.keyring.current = some q → (w.obj q).region.prot.readable = true

/-- `q` is the prekey that the next tag will use. -/
structure Current (w : World T) (q : ℕ) : Prop where
  current : w.keyring.current = some q
  wiped : (w.obj q).wiped = false

/-- What the keyring does leaves the buffer and its registration alone. -/
structure Beside (b key : ℕ) (w w' : World T) : Prop where
  obj : w'.obj b = w.obj b
  live : w'.regions key = w.regions key
  wiped : w'.wiped key = w.wiped key

lemma Beside.refl (b key : ℕ) (w : World T) : Beside b key w w := ⟨rfl, rfl, rfl⟩

lemma Beside.trans {b key : ℕ} {w w₁ w₂ : World T} (h : Beside b key w w₁)
    (h' : Beside b key w₁ w₂) : Beside b key w w₂ :=
  ⟨h'.obj.trans h.obj, h'.live.trans h.live, h'.wiped.trans h.wiped⟩

section Around

variable {b key : ℕ} {layout : CanaryLayout} {pre : Option (ℕ × ℕ)} {w w' : World T}

/-- The registration of the prekey is gone. -/
lemma Around.released (h : Around b key layout (some (q, k)) w)
    (hf : Frame q w w') (hr : Refiled k none none w w') :
    Around b key layout none w' ∧ Beside b key w w' := by
  obtain ⟨hkey, hqb, -, -, -⟩ := h.prekey q k rfl
  have hlive : w'.regions key = w.regions key := (hr.other key hkey.symm).1
  have hwiped : w'.wiped key = w.wiped key := (hr.other key hkey.symm).2
  refine ⟨⟨?_, ?_, ?_, ?_, ?_, ?_⟩, ⟨hf.obj b hqb.symm, hlive, hwiped⟩⟩
  · rw [hf.allocated]
    exact h.allocated
  · intro k' hk'
    by_cases hkk : k' = k
    · rw [hkk]
      exact hr.wiped
    · rw [(hr.other k' hkk).1] at hk'
      rw [(hr.other k' hkk).2]
      exact h.once k' hk'
  · rw [hlive]
    exact h.live
  · rw [hwiped]
    exact h.wiped
  · intro k' e hk' hlook
    by_cases hkk : k' = k
    · rw [hkk, World.lookup, hr.live, hr.wiped] at hlook
      cases hlook
    · rw [World.lookup, (hr.other k' hkk).1, (hr.other k' hkk).2] at hlook
      have hpre := (h.other k' e hk' hlook).1
      exact absurd (congrArg Prod.snd (Option.some.inj hpre)).symm hkk
  · intro q' k' hpre
    cases hpre

/-- The registration of the buffer has changed, to one that is in order. -/
lemma Around.refiled {live wiped : Option Entry} (h : Around b key layout pre w)
    (hf : Frame b w w') (hr : Refiled key live wiped w w')
    (honce : live.isSome = true → wiped = none) (hl : ∀ e, live = some e → e = ownEntry b layout)
    (hw : ∀ e, wiped = some e → e = (ownEntry b layout).retained) :
    Around b key layout pre w' := by
  refine ⟨?_, ?_, ?_, ?_, ?_, ?_⟩
  · rw [hf.allocated]
    exact h.allocated
  · intro k hk
    by_cases hkk : k = key
    · rw [hkk, hr.live] at hk
      rw [hkk, hr.wiped]
      exact honce hk
    · rw [(hr.other k hkk).1] at hk
      rw [(hr.other k hkk).2]
      exact h.once k hk
  · rw [hr.live]
    exact hl
  · rw [hr.wiped]
    exact hw
  · intro k e hk hlook
    rw [World.lookup, (hr.other k hk).1, (hr.other k hk).2] at hlook
    exact h.other k e hk hlook
  · intro q k hpre
    obtain ⟨hk, hqb, hq, hmu, hm⟩ := h.prekey q k hpre
    rw [hf.allocated, hf.obj q hqb]
    exact ⟨hk, hqb, hq, hmu, hm⟩

/-- Another object may change as long as it is not `b`, nor the prekey. -/
lemma Around.setObj {x : ℕ} {o : Obj T} (h : Around b key layout pre w)
    (hx : ∀ q k, pre = some (q, k) → x = q → o.mu = .free ∧ o.region.mapped = true) :
    Around b key layout pre (w.setObj x o) := by
  refine { h with prekey := fun q k hpre => ?_ }
  obtain ⟨hk, hqb, hq, hmu, hm⟩ := h.prekey q k hpre
  refine ⟨hk, hqb, hq, ?_⟩
  by_cases hxq : x = q
  · rw [← hxq, obj_setObj]
    exact hx q k hpre hxq
  · rw [obj_setObj_of_ne _ _ (Ne.symm hxq)]
    exact ⟨hmu, hm⟩

/-- A prekey is registered under a key that was free. -/
lemma Around.registered (h : Around b key layout none w) (hqb : q ≠ b)
    (hq : q < w.allocated) (hmu : (w.obj q).mu = .free)
    (hm : (w.obj q).region.mapped = true) (hreg : w.lookup key ≠ none)
    (hfree : ¬ w.occupied k) :
    Around b key layout (some (q, k))
      { w with regions := update w.regions k (some (prekeyEntry q)) } := by
  obtain ⟨-, hlive, hwiped⟩ := not_or.mp hfree |>.imp_right not_or.mp
  have hlive : w.regions k = none := by simpa using hlive
  have hwiped : w.wiped k = none := by simpa using hwiped
  have hkey : k ≠ key := by
    rintro rfl
    exact hreg (by rw [World.lookup, hlive, hwiped]; rfl)
  refine { h with once := ?_, live := ?_, other := ?_, prekey := ?_ }
  · intro k' hk'
    by_cases hkk : k' = k
    · rw [hkk]
      exact hwiped
    · simp only [update_of_ne hkk] at hk'
      exact h.once k' hk'
  · simp only [update_of_ne hkey.symm]
    exact h.live
  · intro k' e hk' hlook
    by_cases hkk : k' = k
    · subst hkk
      simp only [World.lookup, update_self, Option.some_or] at hlook
      obtain rfl := Option.some.inj hlook
      exact ⟨rfl, rfl⟩
    · simp only [World.lookup, update_of_ne hkk] at hlook
      have hpre := (h.other k' e hk' hlook).1
      cases hpre
  · intro q' k' hpre
    cases hpre
    exact ⟨hkey, hqb, hq, hmu, hm⟩

end Around

lemma Calm.refiled {b key : ℕ} {layout : CanaryLayout} {live wiped : Option Entry}
    {w w' : World T} (h : Calm b key layout w) (hf : Frame b w w')
    (hr : Refiled key live wiped w w') (honce : live.isSome = true → wiped = none)
    (hl : ∀ e, live = some e → e = ownEntry b layout)
    (hw : ∀ e, wiped = some e → e = (ownEntry b layout).retained) : Calm b key layout w' where
  toAround := by
    rw [hf.keyring]
    exact h.toAround.refiled hf hr honce hl hw
  keyringMu := hf.keyringMu.trans h.keyringMu
  readable q hq := by
    rw [hf.keyring] at hq
    have hqb := (h.prekey q w.keyring.key (by rw [Keyring.pre, hq]; rfl)).2.1
    rw [hf.obj q hqb]
    exact h.readable q hq

variable [DecidableEq T]

section Rules

variable {P : Platform} {t : T} {faulty : Bool} {crash : Prop} {w : World T}
  {b key : ℕ} {layout : CanaryLayout} {α : Type} {Q : Except GoErr α → World T → Prop}

/-! ## A new prekey -/

/-- The prekey's registration is released, by way of a failure or of a renewal. -/
lemma ens_releasePrekey (h : Around b key layout (some (q, k)) w)
    {Q : Option GoErr → World T → Prop}
    (hQ : ∀ err w', Around b key layout none w' → Beside b key w w' →
      w'.keyringMu = w.keyringMu → w'.keyring = w.keyring → Q err w') :
    Ens P t faulty crash (release k false) Q w := by
  obtain ⟨hkey, hqb, hq, hmu, hm⟩ := h.prekey q k rfl
  have hentry : ∀ e, w.lookup k = some e → e = prekeyEntry q := by
    intro e hlook
    obtain ⟨hpre, he⟩ := h.other k e hkey hlook
    have hq' : q = e.region := congrArg Prod.fst (Option.some.inj hpre)
    rw [he, ← hq']
  refine ens_releaseFree (h.once k) (fun e hlook => ?_) (fun hnone => ?_)
    fun e err w' hlook hf hr hmu' => ?_
  · rw [hentry e hlook]
    exact ⟨names_prekeyEntry q, hm, hmu⟩
  · obtain ⟨hlive, hwiped⟩ := lookup_eq_none hnone
    have hr : Refiled k none none w w := ⟨fun _ _ => ⟨rfl, rfl⟩, hlive, hwiped⟩
    obtain ⟨haround, hbeside⟩ := h.released ⟨fun _ _ => rfl, rfl, rfl, rfl, rfl⟩ hr
    exact hQ none w haround hbeside rfl rfl
  · have he : e.region = q := by rw [hentry e hlook]; rfl
    rw [he] at hf
    obtain ⟨haround, hbeside⟩ := h.released hf hr
    exact hQ err w' haround hbeside hf.keyringMu hf.keyring

/-- A region that was not registered is given back. -/
lemma ens_discard {q : ℕ} {e : GoErr}
    (hm : (w.obj q).region.mapped = true ∧ (w.obj q).region.prot.writable = true)
    (hQ : ∀ o, Q (.error e) (w.setObj q o)) :
    Ens P t faulty crash (discard q e) Q w := by
  simp only [discard, ens_bind]
  rw [ens_wipe hm]
  simp only [ens_free, setObj_setObj, ens_pure]
  exact ⟨hQ _, fun _ _ => hQ _⟩

lemma ens_fillRandom {q : ℕ}
    (hm : (w.obj q).region.mapped = true ∧ (w.obj q).region.prot.writable = true)
    {Q : Option GoErr → World T → Prop}
    (hQ : ∀ err inner, Q err (w.setObj q ((w.obj q).setFilled inner))) :
    Ens (α := Option GoErr) P t faulty crash (upon q .fillRandom) Q w := by
  rw [ens_act]
  intro c _
  simp only [exec, execObj, Obj.guarded, if_pos hm, Outcome.within_done, Outcome.post_done]
  exact hQ _ _

/-- What stays as it was while a prekey is being made. -/
structure Making (b key : ℕ) (w w' : World T) : Prop extends Beside b key w w' where
  keyringMu : w'.keyringMu = w.keyringMu

/-- A prekey that was registered and then given up. -/
lemma ens_abandon {e : GoErr} (h : Around b key layout (some (q, k)) w)
    (hQ : ∀ e w', Around b key layout none w' → Making b key w w' → w'.keyring = w.keyring →
      Q (.error e) w') :
    Ens P t faulty crash (abandon k e) Q w := by
  simp only [abandon, ens_bind, ens_pure]
  exact ens_releasePrekey h fun err w' ha hb hmu hk => hQ _ w' ha ⟨hb, hmu⟩ hk

lemma ens_fillPrekey (h : Around b key layout (some (q, k)) w)
    (hq : (w.obj q).wiped = false) (hprot : (w.obj q).region.prot.writable = true)
    {Q : Except GoErr ℕ → World T → Prop}
    (hbad : ∀ e w', Around b key layout none w' → Making b key w w' →
      w'.keyring = w.keyring → Q (.error e) w')
    (hok : ∀ w', Around b key layout (some (q, k)) w' → Making b key w w' →
      (w'.obj q).wiped = false → (w'.obj q).region.prot.readable = true →
      w'.keyring = ⟨some q, k, w.keyring.gen + 1⟩ → Q (.ok q) w') :
    Ens P t faulty crash (fillPrekey q k) Q w := by
  obtain ⟨hkey, hqb, hqa, hmu, hm⟩ := h.prekey q k rfl
  have hmake : ∀ o, Making b key w (w.setObj q o) := fun o =>
    ⟨⟨obj_setObj_of_ne _ _ hqb.symm, rfl, rfl⟩, rfl⟩
  have haround : ∀ o : Obj T, o.mu = .free → o.region.mapped = true →
      Around b key layout (some (q, k)) (w.setObj q o) := fun o ho hom =>
    h.setObj fun _ _ _ _ => ⟨ho, hom⟩
  simp only [fillPrekey, ens_bind]
  rw [ens_locked hmu]
  refine ens_fillRandom (by rw [obj_setObj]; exact ⟨hm, hprot⟩) fun err inner => ?_
  cases err with
  | none =>
    simp only [obj_setObj, setObj_setObj, ens_bind]
    rw [ens_mprotect (Or.inl (by rw [obj_setObj]; exact hq))]
    simp only [obj_setObj, setObj_setObj, ens_bind, ens_pure]
    refine ⟨?_, fun _ n => ?_⟩
    · rw [ens_sure fun c => rfl]
      refine hok _ ?_ ?_ ?_ ?_ rfl
      · refine { h with prekey := fun q' k' hpre => ?_ }
        cases hpre
        simp only [World.setObj, update_self]
        exact ⟨hkey, hqb, hqa, rfl, hm⟩
      · exact ⟨⟨by simp [World.setObj, update_of_ne hqb.symm], rfl, rfl⟩, rfl⟩
      · simp only [World.setObj, update_self]
        exact hq
      · simp only [World.setObj, update_self]
        rfl
    · exact ens_abandon (haround _ (by rfl) (by exact hm)) fun e w' ha hmk hk =>
        hbad e w' ha ⟨(hmake _).toBeside.trans hmk.toBeside, hmk.keyringMu⟩ hk
  | some e =>
    simp only [obj_setObj, setObj_setObj]
    exact ens_abandon (haround _ (by rfl) (by exact hm)) fun e w' ha hmk hk =>
      hbad e w' ha ⟨(hmake _).toBeside.trans hmk.toBeside, hmk.keyringMu⟩ hk

lemma ens_newPrekey (h : Around b key layout none w) (hreg : w.lookup key ≠ none)
    {Q : Except GoErr ℕ → World T → Prop}
    (hbad : ∀ e w', Around b key layout none w' → Making b key w w' →
      w'.keyring = w.keyring → Q (.error e) w')
    (hok : ∀ q k w', Around b key layout (some (q, k)) w' → Making b key w w' →
      (w'.obj q).wiped = false → (w'.obj q).region.prot.readable = true →
      w'.keyring = ⟨some q, k, w.keyring.gen + 1⟩ → Q (.ok q) w') :
    Ens P t faulty crash newPrekey Q w := by
  have hb : b ≠ w.allocated := Nat.ne_of_lt h.allocated
  -- the world with the new object, whatever becomes of it
  have hnone : ∀ (o : Obj T) (next : ℕ), Around b key layout none
      { w.grown o with nextJanitorKey := next } := fun o next =>
    { h with
      allocated := Nat.lt_succ_of_lt h.allocated
      prekey := fun q k hpre => by cases hpre }
  have hmake : ∀ (o : Obj T) (next : ℕ), Making b key w
      { w.grown o with nextJanitorKey := next } :=
    fun o next => ⟨⟨w.obj_grown_of_ne o hb, rfl, rfl⟩, rfl⟩
  simp only [newPrekey, ens_bind]
  rw [ens_alloc]
  refine ⟨?_, fun _ n => hbad _ w h ⟨.refl _ _ _, rfl⟩ rfl⟩
  by_cases hexact : sealPrekeyLen ≠ P.rounded sealPrekeyLen
  · simp only [if_pos hexact]
    refine ens_discard (by rw [obj_grown]; exact ⟨rfl, rfl⟩) fun o => ?_
    rw [setObj_grown]
    exact hbad _ _ (hnone o w.nextJanitorKey) (hmake o w.nextJanitorKey) rfl
  · simp only [if_neg hexact, ens_bind]
    refine ens_register (fun _ => ?_) fun hfree => ?_
    · refine ens_discard ?_ fun o => ?_
      · simp only [obj_grown]
        exact ⟨rfl, rfl⟩
      · have := hbad (.wrap "secmem: seal prekey: " Sentinel.errJanitorKeyCollision) _
          (hnone o (w.nextJanitorKey + 1)) (hmake o (w.nextJanitorKey + 1)) rfl
        rwa [← setObj_grown w (.fresh P t .prekey sealPrekeyLen)] at this
    · set fresh : Obj T := (Obj.fresh P t .prekey sealPrekeyLen).refile (.live w.mint)
      have haround := (hnone fresh (w.nextJanitorKey + 1)).registered (q := w.allocated)
        (k := w.mint) hb.symm (Nat.lt_succ_self _) (by simp only [obj_grown]; rfl)
        (by simp only [obj_grown]; rfl) hreg hfree
      have hkey : w.mint ≠ key := (haround.prekey _ _ rfl).1
      have hworld : ({ (w.grown (.fresh P t .prekey sealPrekeyLen)).setObj w.allocated
          (((w.grown (.fresh P t .prekey sealPrekeyLen)).obj w.allocated).refile
            (.live w.mint)) with
          nextJanitorKey := w.nextJanitorKey + 1
          regions := update w.regions w.mint (some (prekeyEntry w.allocated)) } :
            World T) =
          { w.grown fresh with
            nextJanitorKey := w.nextJanitorKey + 1
            regions := update w.regions w.mint (some (prekeyEntry w.allocated)) } := by
        rw [setObj_grown, obj_grown]
      have hmade : Making b key w { w.grown fresh with
          nextJanitorKey := w.nextJanitorKey + 1
          regions := update w.regions w.mint (some (prekeyEntry w.allocated)) } :=
        ⟨⟨w.obj_grown_of_ne _ hb, update_of_ne hkey.symm _ _, rfl⟩, rfl⟩
      refine hworld ▸ ens_fillPrekey haround ?_ ?_ ?_ ?_
      · simp only [obj_grown]
        rfl
      · simp only [obj_grown]
        rfl
      · intro e w' ha hm hk
        exact hbad e w' ha ⟨hmade.toBeside.trans hm.toBeside, hm.keyringMu⟩ hk
      · intro w' ha hm hwiped hr hk
        exact hok _ _ w' ha ⟨hmade.toBeside.trans hm.toBeside, hm.keyringMu⟩ hwiped hr hk

/-- `initLocked`, with the keyring's mutex held. -/
lemma ens_initLocked (h : Around b key layout w.keyring.pre w) (hreg : w.lookup key ≠ none)
    {Q : Except GoErr ℕ → World T → Prop}
    (hbad : ∀ e w', Around b key layout none w' → Making b key w w' →
      w'.keyring.current = none → w'.keyring.gen = w.keyring.gen → Q (.error e) w')
    (hok : ∀ q k w', Around b key layout (some (q, k)) w' → Making b key w w' →
      (w'.obj q).wiped = false → (w'.obj q).region.prot.readable = true →
      w'.keyring = ⟨some q, k, w.keyring.gen + 1⟩ → Q (.ok q) w') :
    Ens P t faulty crash (initLocked w.keyring) Q w := by
  simp only [initLocked, ens_bind, ens_when]
  cases hcur : w.keyring.current with
  | none =>
    rw [Keyring.pre, hcur] at h
    exact ens_newPrekey h hreg (fun e w' ha hm hk =>
      hbad e w' ha hm (by rw [hk, hcur]) (by rw [hk])) hok
  | some q =>
    rw [Keyring.pre, hcur] at h
    refine ens_releasePrekey h fun err w₁ ha hb hmu hk => ?_
    rw [ens_sure fun c => rfl]
    have ha' : Around b key layout none
        { w₁ with keyring := { w₁.keyring with current := none, key := 0 } } := { ha with }
    have hmake : ∀ w', Making b key
        { w₁ with keyring := { w₁.keyring with current := none, key := 0 } } w' →
        Making b key w w' := fun w' hm =>
      ⟨hb.trans ⟨hm.obj, hm.live, hm.wiped⟩, hm.keyringMu.trans hmu⟩
    have hgen : w₁.keyring.gen = w.keyring.gen := by rw [hk]
    refine ens_newPrekey ha' ?_ (fun e w' ha hm hk' => ?_) fun q k w' ha hm hw hr hk' => ?_
    · rw [World.lookup, hb.live, hb.wiped]
      exact hreg
    · exact hbad e w' ha (hmake w' hm) (by rw [hk']) (by rw [hk', hgen])
    · exact hok q k w' ha (hmake w' hm) hw hr (by rw [hk', hgen])

/-! ## The prekey in use -/

/-- `withPrekey` runs its function with the prekey `q` in the world `w'`: that is the current
prekey, or one made for the purpose. -/
inductive Serves (b key : ℕ) (w : World T) (q : ℕ) : World T → Prop
  | current (h : Current w q) : Serves b key w q w
  | renewed {w' : World T} (hno : ∀ q, ¬ Current w q) (h : Current w' q)
      (hb : Beside b key w w') (hgen : w'.keyring.gen = w.keyring.gen + 1) : Serves b key w q w'

omit [DecidableEq T] in
lemma Serves.isCurrent {q : ℕ} {w' : World T} (h : Serves b key w q w') : Current w' q := by
  cases h with
  | current h => exact h
  | renewed _ h => exact h

omit [DecidableEq T] in
lemma Serves.beside {q : ℕ} {w' : World T} (h : Serves b key w q w') : Beside b key w w' := by
  cases h with
  | current => exact .refl _ _ _
  | renewed _ _ hb => exact hb

/-- What the function run by `withPrekey` has to do: with the prekey readable, it changes the
buffer alone. -/
def ServesFn (P : Platform) (t : T) (faulty : Bool) (crash : Prop) {α : Type} (b q gen : ℕ)
    (prekey : List UInt8) (o : Obj T) (fn : ℕ → ℕ → ProcProg (Except GoErr α))
    (R : Except GoErr α → Obj T → Prop) : Prop :=
  ∀ w : World T, q ≠ b → w.obj b = o → (w.obj q).region.inner = prekey →
    (w.obj q).region.mapped = true → (w.obj q).region.prot.readable = true →
    Ens P t faulty crash (fn q gen) (fun r w' => ∃ o', w' = w.setObj b o' ∧ R r o') w

lemma ens_lendPrekey {q : ℕ} {fn : ℕ → ℕ → ProcProg (Except GoErr α)}
    {R : Except GoErr α → Obj T → Prop} (h : Calm b key layout w) (hq : Current w q)
    (hfn : ServesFn P t faulty crash b q w.keyring.gen (w.obj q).region.inner (w.obj b) fn R)
    (hok : ∀ r o', R r o' → Q r (w.setObj b o')) :
    Ens P t faulty crash (lendPrekey fn q w.keyring.gen) Q w := by
  obtain ⟨-, hqb, -, hmu, hm⟩ := h.prekey q w.keyring.key (by rw [Keyring.pre, hq.current]; rfl)
  have hr := h.readable q hq.current
  rw [lendPrekey, ens_rLocked hmu]
  simp only [ens_bind, ens_loadWiped, obj_setObj]
  rw [if_neg (by rw [hq.wiped]; exact Bool.false_ne_true)]
  simp only [ens_bind, ens_lent]
  refine (hfn _ hqb ?_ ?_ ?_ ?_).mono fun r w' hw' => ?_
  · exact obj_setObj_of_ne _ _ hqb.symm
  · rw [obj_setObj]
  · rw [obj_setObj]
    exact hm
  · rw [obj_setObj]
    exact hr
  · obtain ⟨o', rfl, hR⟩ := hw'
    refine (congrArg (Q r) ?_).mpr (hok r o' hR)
    rw [obj_setObj_of_ne _ _ hqb, obj_setObj, rUnlock_sharedBy, ← hmu]
    simp only [World.setObj]
    rw [update_comm hqb.symm, update_idem, update_eq_self]

/-- What `withPrekey` goes on with, once it has a prekey or none. -/
def useCurrent {α : Type} (fn : ℕ → ℕ → ProcProg (Except GoErr α)) :
    Except GoErr ℕ → ProcProg (Except GoErr α)
  | .error e => do
    perform .keyringUnlock
    pure (.error e)
  | .ok q => do
    let k : Keyring ← perform .readKeyring
    perform .keyringUnlock
    lendPrekey fn q k.gen

lemma ens_withPrekey {fn : ℕ → ℕ → ProcProg (Except GoErr α)}
    {R : ℕ → World T → Except GoErr α → Obj T → Prop} (h : Calm b key layout w)
    (hreg : w.lookup key ≠ none)
    (hfn : ∀ q w', Serves b key w q w' → ServesFn P t faulty crash b q w'.keyring.gen
      (w'.obj q).region.inner (w.obj b) fn (R q w'))
    (hbad : (∀ q, ¬ Current w q) → ∀ e w', Calm b key layout w' → Beside b key w w' →
      w'.keyring.current = none → w'.keyring.gen = w.keyring.gen → Q (.error e) w')
    (hok : ∀ q w' r o', Serves b key w q w' → Calm b key layout w' → R q w' r o' →
      Q r (w'.setObj b o')) :
    Ens P t faulty crash (withPrekey fn) Q w := by
  have hback : ({ w with keyringMu := none } : World T) = w := by
    rw [← h.keyringMu]
  -- after `currentPrekey` the mutex is released and the prekey used
  have huse : ∀ q w', Serves b key w q { w' with keyringMu := none } →
      Calm b key layout { w' with keyringMu := none } →
      Ens P t faulty crash (useCurrent fn (.ok q)) Q w' := by
    intro q w' hs hc
    simp only [useCurrent, ens_bind]
    rw [ens_sure (r := w'.keyring) (v := w') fun c => rfl,
      ens_sure (r := ()) (v := { w' with keyringMu := none }) fun c => rfl]
    refine ens_lendPrekey hc hs.isCurrent ?_ fun r o' hR => hok q _ r o' hs hc hR
    have := hfn q _ hs
    rwa [← hs.beside.obj] at this
  have hinit : (∀ q, ¬ Current w q) → Ens P t faulty crash (initLocked w.keyring)
      (fun current w' => Ens P t faulty crash (useCurrent fn current) Q w')
      { w with keyringMu := some t } := by
    intro hno
    have ha : Around b key layout w.keyring.pre { w with keyringMu := some t } :=
      { h.toAround with }
    refine ens_initLocked (w := { w with keyringMu := some t }) ha hreg
      (fun e w' ha' hm hcur hgen => ?_) fun q k w' ha' hm hw hr hk => ?_
    · simp only [useCurrent, ens_bind, ens_pure]
      rw [ens_sure (r := ()) (v := { w' with keyringMu := none }) fun c => rfl]
      refine hbad hno e _ { toAround := ?_, keyringMu := rfl, readable := ?_ }
        ⟨hm.obj, hm.live, hm.wiped⟩ hcur hgen
      · simp only [Keyring.pre, hcur]
        exact { ha' with }
      · intro q hq
        simp only [hcur] at hq
        cases hq
    · refine huse q w' (.renewed hno ⟨by rw [hk], hw⟩ ⟨hm.obj, hm.live, hm.wiped⟩ (by rw [hk]))
        { toAround := ?_, keyringMu := rfl, readable := ?_ }
      · simp only [Keyring.pre, hk]
        exact { ha' with }
      · intro q' hq'
        simp only [hk] at hq'
        cases hq'
        exact hr
  simp only [withPrekey, currentPrekey, ens_bind]
  rw [ens_sure (r := ()) (v := { w with keyringMu := some t })
      fun c => by simp only [exec, h.keyringMu, if_true],
    ens_sure (r := w.keyring) (v := { w with keyringMu := some t }) fun c => rfl]
  cases hcur : w.keyring.current with
  | none => exact hinit fun q hq => by simp [hq.current] at hcur
  | some q =>
    simp only [ens_bind, ens_loadWiped]
    cases hw : (w.obj q).wiped with
    | true =>
      refine hinit fun q' hq' => ?_
      have : q' = q := by simpa [hq'.current] using hcur
      rw [← this, hq'.wiped] at hw
      cases hw
    | false =>
      have hs : Serves b key w q { ({ w with keyringMu := some t } : World T) with
          keyringMu := none } := by
        simp only [hback]
        exact .current ⟨hcur, hw⟩
      exact huse q _ hs (by simp only [hback]; exact h)

end Rules

end Secmem.Process
