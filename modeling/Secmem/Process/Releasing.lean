import Secmem.Process.Alone

/-!
# The registry, alone

What `wipeAndFree`, `release` and the wipe passes do when one goroutine runs alone: to the
object that the registration names, and to the registration itself.
-/

namespace Secmem.Process

open World Function

variable {T : Type} {e : Entry}

/-- What the canary check reports about an object: ciphertext passes unchecked. -/
def canaryVerdict (P : Platform) (e : Entry) (o : Obj T) : Option GoErr :=
  if (e.sealCipher.isSome && o.sealCipher) = true ∨
      e.canary.intact P.pattern o.region.inner = true then none
  else some Sentinel.errCanaryViolation

/-- An object after its region was wiped in place. -/
def Obj.swept (o : Obj T) (e : Entry) : Obj T :=
  { o with
    sealCipher := if e.sealCipher.isSome = true then false else o.sealCipher
    region := ⟨wipeBytes o.region.inner, .readWrite, o.region.mapped⟩
    ghost := { o.ghost with
      wiping := none
      found := { o.ghost.found with restore := none }
      swept := true
      rest := wipeBytes o.region.inner
      plain := wipeBytes o.ghost.plain } }

/-- The owner's part of an object is as it was. -/
structure SameOwner (o o' : Obj T) : Prop where
  mu : o'.mu = o.mu
  wiped : o'.wiped = o.wiped
  state : o'.state = o.state
  openMu : o'.openMu = o.openMu
  openers : o'.openers = o.openers

/-- Two objects that differ in what the registry notes about them only. -/
structure SameButNotes (o o' : Obj T) : Prop extends SameOwner o o' where
  sealCipher : o'.sealCipher = o.sealCipher
  region : o'.region = o.region
  plain : o'.ghost.plain = o.ghost.plain
  rest : o'.ghost.rest = o.ghost.rest

/-- An object that a pass has wiped, and whose owner it has told. -/
structure SweptTo (e : Entry) (o o' : Obj T) : Prop where
  mu : o'.mu = o.mu
  state : o'.state = o.state
  openMu : o'.openMu = o.openMu
  openers : o'.openers = o.openers
  wiped : o'.wiped = true
  sealCipher : o'.sealCipher = if e.sealCipher.isSome = true then false else o.sealCipher
  region : o'.region = ⟨wipeBytes o.region.inner, .readWrite, o.region.mapped⟩
  plain : o'.ghost.plain = wipeBytes o.ghost.plain
  rest : o'.ghost.rest = wipeBytes o.region.inner

/-- Nothing but the object `x`, registrations and the notes of sweeps has changed. -/
structure Frame (x : ℕ) (w w' : World T) : Prop where
  obj : ∀ y, y ≠ x → w'.obj y = w.obj y
  allocated : w'.allocated = w.allocated
  nextJanitorKey : w'.nextJanitorKey = w.nextJanitorKey
  keyringMu : w'.keyringMu = w.keyringMu
  keyring : w'.keyring = w.keyring

/-- Registrations under other keys are as they were; this one is now as given. -/
structure Refiled (key : ℕ) (live wiped : Option Entry) (w w' : World T) : Prop where
  other : ∀ k, k ≠ key → w'.regions k = w.regions k ∧ w'.wiped k = w.wiped k
  live : w'.regions key = live
  wiped : w'.wiped key = wiped

lemma SameOwner.trans {o o₁ o₂ : Obj T} (h : SameOwner o o₁) (h' : SameOwner o₁ o₂) :
    SameOwner o o₂ :=
  ⟨h'.mu.trans h.mu, h'.wiped.trans h.wiped, h'.state.trans h.state, h'.openMu.trans h.openMu,
    h'.openers.trans h.openers⟩

lemma SameButNotes.trans {o o₁ o₂ : Obj T} (h : SameButNotes o o₁) (h' : SameButNotes o₁ o₂) :
    SameButNotes o o₂ :=
  ⟨h.toSameOwner.trans h'.toSameOwner, h'.sealCipher.trans h.sealCipher,
    h'.region.trans h.region, h'.plain.trans h.plain, h'.rest.trans h.rest⟩

/-- The notes that the registry makes before and after a wipe do not matter. -/
lemma SweptTo.noted {o o₁ o₂ o₃ : Obj T} (h : SameButNotes o o₁)
    (hs : SweptTo e o₁ o₂) (h' : SameButNotes o₂ o₃) : SweptTo e o o₃ where
  mu := h'.mu.trans (hs.mu.trans h.mu)
  state := h'.state.trans (hs.state.trans h.state)
  openMu := h'.openMu.trans (hs.openMu.trans h.openMu)
  openers := h'.openers.trans (hs.openers.trans h.openers)
  wiped := h'.wiped.trans hs.wiped
  sealCipher := by rw [h'.sealCipher, hs.sealCipher, h.sealCipher]
  region := by rw [h'.region, hs.region, h.region]
  plain := by rw [h'.plain, hs.plain, h.plain]
  rest := by rw [h'.rest, hs.rest, h.region]

lemma Frame.setObj (x : ℕ) (w : World T) (o : Obj T) : Frame x w (w.setObj x o) :=
  ⟨fun _ hy => obj_setObj_of_ne _ _ hy, rfl, rfl, rfl, rfl⟩

lemma Frame.trans {x : ℕ} {w w₁ w₂ : World T} (h : Frame x w w₁) (h' : Frame x w₁ w₂) :
    Frame x w w₂ :=
  ⟨fun y hy => (h'.obj y hy).trans (h.obj y hy), h'.allocated.trans h.allocated,
    h'.nextJanitorKey.trans h.nextJanitorKey, h'.keyringMu.trans h.keyringMu,
    h'.keyring.trans h.keyring⟩

lemma Refiled.congr {key : ℕ} {live wiped : Option Entry} {w w₁ w₂ : World T}
    (h : Refiled key live wiped w w₁) (hr : w₂.regions = w₁.regions)
    (hw : w₂.wiped = w₁.wiped) : Refiled key live wiped w w₂ :=
  ⟨fun k hk => by rw [hr, hw]; exact h.other k hk, by rw [hr]; exact h.live,
    by rw [hw]; exact h.wiped⟩

lemma lookup_eq_some {w : World T} {key : ℕ} (h : w.lookup key = some e) :
    w.regions key = some e ∨ w.regions key = none ∧ w.wiped key = some e := by
  unfold World.lookup at h
  cases hr : w.regions key with
  | some e' =>
    rw [hr] at h
    exact Or.inl h
  | none =>
    rw [hr] at h
    exact Or.inr ⟨rfl, h⟩

lemma lookup_eq_none {w : World T} {key : ℕ} (h : w.lookup key = none) :
    w.regions key = none ∧ w.wiped key = none := by
  exact Option.or_eq_none_iff.mp h

variable [DecidableEq T]

section Rules

variable {P : Platform} {t : T} {faulty : Bool} {crash : Prop} {w : World T} {x : ℕ} {e : Entry}
  {Q : Option GoErr → World T → Prop}

/-! ## Wiping and freeing -/

lemma ens_verifyCanary (hn : e.Names x)
    (hr : (w.obj x).region.mapped = true ∧ (w.obj x).region.prot.readable = true)
    (Q : Option GoErr → World T → Prop) :
    Ens P t faulty crash (verifyCanary e) Q w ↔ Q (canaryVerdict P e (w.obj x)) w := by
  obtain ⟨rfl, -, -, hcipher⟩ := hn
  have hcheck : Ens P t faulty crash (do
      let intact : Bool ← upon e.region (.intact e.canary)
      if intact = true then pure none else pure (some (Sentinel.errCanaryViolation : GoErr))) Q w ↔
      Q (if e.canary.intact P.pattern (w.obj e.region).region.inner = true then none
        else some Sentinel.errCanaryViolation) w := by
    simp only [ens_bind]
    rw [ens_intact hr]
    split <;> exact Iff.rfl
  rcases hcipher with hc | hc
  · simp only [verifyCanary, canaryVerdict, hc, ens_bind, ens_pure, Bool.false_eq_true, if_false,
      Option.isSome_none, Bool.false_and, false_or]
    exact hcheck
  · simp only [verifyCanary, canaryVerdict, hc, ens_bind, ens_loadSealCipher, Option.isSome_some,
      Bool.true_and]
    cases (w.obj e.region).sealCipher with
    | true => simp
    | false => simpa using hcheck

/-- The end of a successful wipe, up to the unmapping. -/
lemma ens_wipeRegion (hn : e.Names x)
    (hw : (w.obj x).region.mapped = true ∧ (w.obj x).region.prot.writable = true)
    (Q : Unit → World T → Prop) :
    Ens P t faulty crash (wipeRegion e) Q w ↔
      Q () (w.setObj x { (w.obj x).zeroed with
        sealCipher := if e.sealCipher.isSome = true then false else (w.obj x).sealCipher }) := by
  obtain ⟨rfl, -, -, hcipher⟩ := hn
  simp only [wipeRegion, ens_bind]
  rw [ens_wipe hw]
  rcases hcipher with hc | hc
  · simp only [hc, ens_pure, Option.isSome_none, Bool.false_eq_true, if_false]
    exact Iff.rfl
  · simp only [hc, ens_storeSealCipher, obj_setObj, setObj_setObj,
      Option.isSome_some, if_true]

/-- `wipeAndFree` of a region that stays mapped. -/
lemma ens_wipeAndKeep (hn : e.Names x) (hm : (w.obj x).region.mapped = true)
    (hok : Q (canaryVerdict P e (w.obj x)) (w.setObj x ((w.obj x).swept e)))
    (hbad : faulty = true → ∀ n,
      Q (some (.wrapTwo "" Sentinel.errWipeSkipped ": " (.os n) "")) (w.setObj x { w.obj x with
        ghost := { (w.obj x).ghost with
          found := { (w.obj x).ghost.found with restore := some (.os n) } } })) :
    Ens P t faulty crash (wipeAndFree e false) Q w := by
  have hx := hn.region
  subst hx
  simp only [wipeAndFree, ens_bind]
  rw [ens_restoreWriteAccess]
  refine ⟨?_, fun hf n => hbad hf n⟩
  simp only [ens_bind]
  rw [ens_verifyCanary hn ⟨by simpa [Obj.setProt] using hm, by simp [Obj.setProt, Prot.readable]⟩]
  rw [ens_wipeRegion hn ⟨by simpa [Obj.setProt] using hm, by simp [Obj.setProt, Prot.writable]⟩]
  simp only [obj_setObj, setObj_setObj, if_true, ens_pure]
  exact hok

/-- `wipeAndFree` of a region that is given back. -/
lemma ens_wipeAndUnmap (hn : e.Names x) (hm : (w.obj x).region.mapped = true)
    (hQ : ∀ err o', SameOwner (w.obj x) o' → Q err (w.setObj x o')) :
    Ens P t faulty crash (wipeAndFree e true) Q w := by
  have hx := hn.region
  subst hx
  simp only [wipeAndFree, ens_bind]
  rw [ens_restoreWriteAccess]
  constructor
  · simp only [ens_bind]
    rw [ens_verifyCanary hn ⟨by simpa [Obj.setProt] using hm, by simp [Obj.setProt, Prot.readable]⟩]
    rw [ens_wipeRegion hn ⟨by simpa [Obj.setProt] using hm, by simp [Obj.setProt, Prot.writable]⟩]
    simp only [obj_setObj, setObj_setObj, Bool.true_eq_false, if_false, ens_bind,
      ens_madvise, ens_free, ens_pure, GoErr.joinOpt_none]
    refine ⟨⟨?_, fun _ n => ?_⟩, fun _ n => ⟨?_, fun _ n => ?_⟩⟩ <;>
      exact hQ _ _ ⟨rfl, rfl, rfl, rfl, rfl⟩
  · intro hf n
    simp only [obj_setObj, setObj_setObj, Bool.true_eq_false, if_false, ens_bind,
      ens_madvise, ens_free, ens_pure]
    refine ⟨⟨?_, fun _ n => ?_⟩, fun _ n => ⟨?_, fun _ n => ?_⟩⟩ <;>
      exact hQ _ _ ⟨rfl, rfl, rfl, rfl, rfl⟩

/-! ## Taking a registration -/

variable {key : ℕ} {c : Option ℕ}

/-- A registration taken out of the registry, by whichever of the two ways. -/
structure Taken (key : ℕ) (e : Entry) (w w' : World T) : Prop extends
    Frame e.region w w', Refiled key none none w w' where
  same : SameButNotes (w.obj e.region) (w'.obj e.region)

omit [DecidableEq T] in
lemma taken_of_refiled {live wiped : ℕ → Option Entry}
    (hother : ∀ k, k ≠ key → live k = w.regions k ∧ wiped k = w.wiped k)
    (hlive : live key = none) (hwiped : wiped key = none) :
    Taken key e w { w.takenBy t e with regions := live, wiped := wiped } := by
  refine ⟨⟨fun y hy => obj_setObj_of_ne _ _ hy, rfl, rfl, rfl, rfl⟩, ⟨hother, hlive, hwiped⟩, ?_⟩
  have hobj : (w.takenBy t e).obj e.region = (w.obj e.region).refile (.taken t) :=
    obj_setObj _ _ _
  simp only [hobj]
  exact ⟨⟨rfl, rfl, rfl, rfl, rfl⟩, rfl, rfl, rfl, rfl⟩

omit [DecidableEq T] in
lemma taken_live (hlive : w.regions key = some e)
    (honce : (w.regions key).isSome = true → w.wiped key = none) :
    Taken key e w { w.takenBy t e with regions := update w.regions key none } :=
  taken_of_refiled (fun _ hk => ⟨update_of_ne hk _ _, rfl⟩) (update_self _ _ _)
    (honce (by rw [hlive]; rfl))

omit [DecidableEq T] in
lemma taken_wiped (hlive : w.regions key = none) :
    Taken key e w { w.takenBy t e with wiped := update w.wiped key none } :=
  taken_of_refiled (fun _ hk => ⟨rfl, update_of_ne hk _ _⟩) hlive (update_self _ _ _)

lemma ens_takeAny (honce : (w.regions key).isSome = true → w.wiped key = none)
    {Q : Option Entry → World T → Prop} (hnone : w.lookup key = none → Q none w)
    (hsome : ∀ e w', w.lookup key = some e → Taken key e w w' → Q (some e) w') :
    Ens P t faulty crash (takeAny key) Q w := by
  simp only [takeAny, ens_bind]
  cases hr : w.regions key with
  | some e =>
    rw [ens_sure (r := some e)
      (v := { w.takenBy t e with regions := update w.regions key none })
      fun c => by simp only [exec, hr]]
    exact hsome e _ (by simp [World.lookup, hr]) (taken_live hr honce)
  | none =>
    rw [ens_sure (r := none) (v := w) fun c => by simp only [exec, hr]]
    cases hw : w.wiped key with
    | some e =>
      refine (ens_sure (r := some e)
        (v := { w.takenBy t e with wiped := update w.wiped key none })
        fun c => by simp only [exec, hw]).mpr ?_
      exact hsome e _ (by simp [World.lookup, hr, hw]) (taken_wiped hr)
    | none =>
      refine (ens_sure (r := none) (v := w) fun c => by simp only [exec, hw]).mpr ?_
      exact hnone (by simp [World.lookup, hr, hw])

lemma ens_takeAnyIf (honce : (w.regions key).isSome = true → w.wiped key = none)
    (hlook : w.lookup key = some e) (hmu : e.mu = x) {Q : Option Entry → World T → Prop}
    (hsome : ∀ w', Taken key e w w' → Q (some e) w') :
    Ens (α := Option Entry) P t faulty crash (perform (.takeAnyIf key x)) Q w := by
  subst hmu
  rcases lookup_eq_some hlook with hr | ⟨hr, hw⟩
  · refine (ens_sure (r := some e)
      (v := { w.takenBy t e with regions := update w.regions key none })
      fun c => by simp only [exec, hr, ne_eq, not_true_eq_false, if_false]).mpr ?_
    exact hsome _ (taken_live hr honce)
  · refine (ens_sure (r := some e)
      (v := { w.takenBy t e with wiped := update w.wiped key none })
      fun c => by simp only [exec, hr, hw, ne_eq, not_true_eq_false, if_false]).mpr ?_
    exact hsome _ (taken_wiped hr)

/-- `release` from `Destroy`: the registration is gone, and so is the region. -/
lemma ens_releaseHeld (honce : (w.regions key).isSome = true → w.wiped key = none)
    (hentry : ∀ e, w.lookup key = some e →
      e.Names e.region ∧ (w.obj e.region).region.mapped = true)
    (hnone : w.lookup key = none → Q none w)
    (hsome : ∀ e err w', w.lookup key = some e → Frame e.region w w' →
      Refiled key none none w w' → SameOwner (w.obj e.region) (w'.obj e.region) → Q err w') :
    Ens P t faulty crash (releaseHeld key) Q w := by
  simp only [releaseHeld, ens_bind]
  refine ens_takeAny honce hnone fun e w' hlook htaken => ?_
  obtain ⟨hn, hm⟩ := hentry e hlook
  refine ens_wipeAndUnmap hn ?_ fun err o' ho => hsome e err _ hlook
    (htaken.toFrame.trans (.setObj _ _ _)) (htaken.toRefiled.congr rfl rfl) ?_
  · rw [htaken.same.region]
    exact hm
  · rw [obj_setObj]
    exact htaken.same.toSameOwner.trans ho

/-- `release` from elsewhere, which takes the lock first. -/
lemma ens_releaseFree (honce : (w.regions key).isSome = true → w.wiped key = none)
    (hentry : ∀ e, w.lookup key = some e → e.Names e.region ∧
      (w.obj e.region).region.mapped = true ∧ (w.obj e.region).mu = .free)
    (hnone : w.lookup key = none → Q none w)
    (hsome : ∀ e err w', w.lookup key = some e → Frame e.region w w' →
      Refiled key none none w w' → (w'.obj e.region).mu = .free → Q err w') :
    Ens P t faulty crash (releaseFree key) Q w := by
  simp only [releaseFree, ens_bind]
  rw [ens_sure (r := w.lookup key) (v := w) fun c => rfl]
  cases hlook : w.lookup key with
  | none => exact hnone hlook
  | some e =>
    obtain ⟨hn, hm, hmu⟩ := hentry e hlook
    have hmu' : (w.obj e.mu).mu = .free := by rw [hn.mu]; exact hmu
    refine (ens_locked hmu' _ _).mpr ?_
    refine ens_takeAnyIf (w := w.setObj e.mu _) honce hlook rfl fun w' htaken => ?_
    rw [hn.mu] at htaken ⊢
    refine ens_wipeAndUnmap hn ?_ fun err o' ho => ?_
    · rw [htaken.same.region, obj_setObj]
      exact hm
    · have hmu'' : o'.mu = lockedBy t := by
        rw [ho.mu, htaken.same.mu, obj_setObj]
      rw [obj_setObj, setObj_setObj]
      refine hsome e err _ hlook ?_ ⟨htaken.other, htaken.live, htaken.wiped⟩ ?_
      · exact ((Frame.setObj _ _ _).trans htaken.toFrame).trans (.setObj _ _ _)
      · rw [obj_setObj]
        simp only [hmu'', unlock_lockedBy]

/-! ## Registering -/

/-- A key that `register` cannot use. -/
def World.occupied (w : World T) (key : ℕ) : Prop :=
  key = 0 ∨ (w.regions key).isSome = true ∨ (w.wiped key).isSome = true

lemma ens_register {Q : Except GoErr ℕ → World T → Prop}
    (hbad : w.occupied w.mint → Q (.error Sentinel.errJanitorKeyCollision)
      { w with nextJanitorKey := w.nextJanitorKey + 1 })
    (hok : ¬ w.occupied w.mint → Q (.ok w.mint)
      { w.setObj e.region ((w.obj e.region).refile (.live w.mint)) with
        nextJanitorKey := w.nextJanitorKey + 1
        regions := update w.regions w.mint (some e) }) :
    Ens P t faulty crash (register e) Q w := by
  simp only [register, ens_bind]
  rw [ens_sure (r := w.mint) (v := { w with nextJanitorKey := w.nextJanitorKey + 1 })
    fun c => rfl]
  by_cases hocc : w.occupied w.mint
  · rw [ens_sure (r := some (Sentinel.errJanitorKeyCollision : GoErr))
      (v := { w with nextJanitorKey := w.nextJanitorKey + 1 })
      fun c => by simp only [exec]; exact if_pos hocc]
    exact hbad hocc
  · rw [ens_sure (r := none)
      (v := { w.setObj e.region ((w.obj e.region).refile (.live w.mint)) with
        nextJanitorKey := w.nextJanitorKey + 1
        regions := update w.regions w.mint (some e) })
      fun c => by simp only [exec]; exact if_neg hocc]
    exact hok hocc

/-! ## Passes -/

/-- What a pass comes to, for the object that the registration `e` names: it is wiped and filed
as such, or on a faulty platform it is left as it was. -/
inductive Passed (P : Platform) (faulty : Bool) (key : ℕ) (e : Entry) (w : World T) :
    Option GoErr → World T → Prop
  | swept {w' : World T} (hframe : Frame e.region w w')
      (hfiled : Refiled key none (some e.retained) w w')
      (hswept : SweptTo e (w.obj e.region) (w'.obj e.region)) :
      Passed P faulty key e w (canaryVerdict P e (w.obj e.region)) w'
  | skipped {w' : World T} (err : GoErr) (hf : faulty = true) (hframe : Frame e.region w w')
      (hfiled : Refiled key (w.regions key) (w.wiped key) w w')
      (hsame : SameButNotes (w.obj e.region) (w'.obj e.region)) :
      Passed P faulty key e w (some err) w'

omit [DecidableEq T] in
lemma isSkipped_verdict (o : Obj T) : isSkipped (canaryVerdict P e o) = false := by
  unfold canaryVerdict
  split <;> rfl

/-- The note that a pass leaves changes nothing but notes. -/
lemma ens_handled {Q : Unit → World T → Prop}
    (hQ : ∀ w', Frame x w w' → w'.regions = w.regions → w'.wiped = w.wiped →
      SameButNotes (w.obj x) (w'.obj x) → Q () w') :
    Ens (α := Unit) P t faulty crash (perform (.handled c key (some x))) Q w := by
  refine (ens_sure (r := ()) (v := w.note c key (some x)) fun c => rfl).mpr ?_
  have hobj : ∀ c, (w.note c key (some x)).obj = update w.obj x { w.obj x with
      ghost := { (w.obj x).ghost with
        skipped := (w.obj x).ghost.skipped || (w.obj x).ghost.found.restore.isSome } } := by
    rintro (_ | c) <;> rfl
  refine hQ _ ⟨fun y hy => ?_, ?_, ?_, ?_, ?_⟩ ?_ ?_ ?_
  · rw [hobj, update_of_ne hy]
  · cases c <;> rfl
  · cases c <;> rfl
  · cases c <;> rfl
  · cases c <;> rfl
  · cases c <;> rfl
  · cases c <;> rfl
  · rw [hobj, update_self]
    exact ⟨⟨rfl, rfl, rfl, rfl, rfl⟩, rfl, rfl, rfl, rfl⟩

/-- The registration found by a pass: filed as wiped, with the object untouched. -/
lemma ens_moveToWipedIf (hlook : w.lookup key = some e)
    (hret : w.wiped key = some e → e.retained = e) (hmu : e.mu = x) {Q : Option
        (Entry × Bool) → World T → Prop}
    (hQ : ∀ w', Frame e.region w w' → Refiled key none (some e.retained) w w' →
      SameButNotes (w.obj e.region) (w'.obj e.region) →
      Q (some (e, (w.regions key).isSome)) w') :
    Ens (α := Option (Entry × Bool)) P t faulty crash (perform (.moveToWipedIf key x)) Q w := by
  subst hmu
  have hobj : ∀ live, (w.movedBy key e live).obj e.region = { w.obj e.region with
      ghost := { (w.obj e.region).ghost with
        filing := .wiped key
        found := ⟨e, live, (w.obj e.region).region.inner, (w.obj e.region).sealCipher,
          (w.obj e.region).wiped, none⟩ } } := fun _ => obj_setObj _ _ _
  have hsame : ∀ live, SameButNotes (w.obj e.region) ((w.movedBy key e live).obj e.region) := by
    intro live
    rw [hobj]
    exact ⟨⟨rfl, rfl, rfl, rfl, rfl⟩, rfl, rfl, rfl, rfl⟩
  have hother : ∀ live y, y ≠ e.region → (w.movedBy key e live).obj y = w.obj y :=
    fun _ y hy => obj_setObj_of_ne _ _ hy
  rcases lookup_eq_some hlook with hr | ⟨hr, hw⟩
  · refine (ens_sure (r := some (e, true)) (v := { w.movedBy key e true with
      regions := update w.regions key none
      wiped := update w.wiped key (some e.retained) })
      fun c => by simp only [exec, hr, ne_eq, not_true_eq_false, if_false]).mpr ?_
    rw [hr] at hQ
    refine hQ _ ⟨hother true, rfl, rfl, rfl, rfl⟩ ⟨fun k hk => ⟨?_, ?_⟩, ?_, ?_⟩ (hsame true)
    · exact update_of_ne hk _ _
    · exact update_of_ne hk _ _
    · exact update_self _ _ _
    · exact update_self _ _ _
  · refine (ens_sure (r := some (e, false)) (v := w.movedBy key e false)
      fun c => by simp only [exec, hr, hw, ne_eq, not_true_eq_false, if_false]).mpr ?_
    rw [hr] at hQ
    refine hQ _ ⟨hother false, rfl, rfl, rfl, rfl⟩ ⟨fun _ _ => ⟨rfl, rfl⟩, hr, ?_⟩ (hsame false)
    rw [hret hw]
    exact hw

/-- A skipped registration goes back to where a pass found it. -/
lemma ens_returnToLive (hw : w.wiped key = some e.retained) {Q : Unit → World T → Prop}
    (hQ : ∀ w', Frame e.region w w' → Refiled key (some e) none w w' →
      SameButNotes (w.obj e.region) (w'.obj e.region) → Q () w') :
    Ens (α := Unit) P t faulty crash (perform (.returnToLive key e)) Q w := by
  refine (ens_sure (r := ())
    (v := { w.setObj e.region ((w.obj e.region).refile (.live key)) with
      wiped := update w.wiped key none
      regions := update w.regions key (some e) })
    fun c => by simp only [exec, hw]; exact if_pos rfl).mpr ?_
  refine hQ _ ⟨fun y hy => obj_setObj_of_ne _ _ hy, rfl, rfl, rfl, rfl⟩
    ⟨fun k hk => ⟨?_, ?_⟩, ?_, ?_⟩ ?_
  · exact update_of_ne hk _ _
  · exact update_of_ne hk _ _
  · exact update_self _ _ _
  · exact update_self _ _ _
  · have hobj : (w.setObj e.region ((w.obj e.region).refile (.live key))).obj e.region =
        (w.obj e.region).refile (.live key) := obj_setObj _ _ _
    simp only [hobj]
    exact ⟨⟨rfl, rfl, rfl, rfl, rfl⟩, rfl, rfl, rfl, rfl⟩

lemma ens_wipeLocked
    (honce : (w.regions key).isSome = true → w.wiped key = none)
    (hlook : w.lookup key = some e) (hret : w.wiped key = some e → e.retained = e)
    (hn : e.Names x) (hm : (w.obj x).region.mapped = true)
    (hQ : ∀ err w', Passed P faulty key e w err w' → Q err w') :
    Ens P t faulty crash (wipeLocked c key x) Q w := by
  have hx := hn.region
  subst hx
  simp only [wipeLocked, ens_bind]
  refine ens_moveToWipedIf hlook hret hn.mu fun w₁ hf₁ hr₁ hs₁ => ?_
  simp only [ens_bind]
  refine ens_wipeAndKeep hn (by rw [hs₁.region]; exact hm) ?_ ?_
  · -- the region is wiped and its owner told
    rw [settle, isSkipped_verdict, if_pos rfl, markWiped, hn.wiped]
    simp only [ens_storeWiped, obj_setObj, setObj_setObj]
    refine ens_handled fun w' hf hr hw hs => ?_
    rw [obj_setObj] at hs
    have hverdict : canaryVerdict P e (w₁.obj e.region) = canaryVerdict P e (w.obj e.region) := by
      rw [canaryVerdict, canaryVerdict, hs₁.sealCipher, hs₁.region]
    rw [ens_pure, hverdict]
    refine hQ _ _ (.swept ((hf₁.trans (.setObj _ _ _)).trans hf) (hr₁.congr hr hw)
      (.noted hs₁ ?_ hs))
    exact ⟨rfl, rfl, rfl, rfl, rfl, rfl, rfl, rfl, rfl⟩
  · -- write access could not be restored: a live registration goes back where it was
    intro hfaulty n
    have hskip : isSkipped (some (.wrapTwo "" Sentinel.errWipeSkipped ": " (.os n) "")) = true :=
      rfl
    have hnoted : SameButNotes (w₁.obj e.region) { w₁.obj e.region with
        ghost := { (w₁.obj e.region).ghost with
          found := { (w₁.obj e.region).ghost.found with restore := some (.os n) } } } :=
      ⟨⟨rfl, rfl, rfl, rfl, rfl⟩, rfl, rfl, rfl, rfl⟩
    have hf₂ := fun o => hf₁.trans (.setObj e.region w₁ o)
    rw [settle, hskip, if_neg (by decide), ens_when]
    split
    next hlive =>
      obtain ⟨e', he'⟩ := Option.isSome_iff_exists.mp hlive
      have hee : e' = e := by simpa [he'] using lookup_eq_some hlook
      subst hee
      refine ens_returnToLive (w := w₁.setObj e'.region _) hr₁.wiped fun w₂ hf hr hs => ?_
      refine ens_handled fun w' hf' hr' hw' hs' => ?_
      rw [obj_setObj] at hs
      refine hQ _ _ (.skipped _ hfaulty (((hf₂ _).trans hf).trans hf') ?_
        (((hs₁.trans hnoted).trans hs).trans hs'))
      rw [he', honce hlive]
      refine ⟨fun k hk => ?_, ?_, ?_⟩
      · rw [hr', hw']
        exact ⟨(hr.other k hk).1.trans (hr₁.other k hk).1,
          (hr.other k hk).2.trans (hr₁.other k hk).2⟩
      · rw [hr']
        exact hr.live
      · rw [hw']
        exact hr.wiped
    next hlive =>
      have hnone : w.regions key = none := by simpa using hlive
      have hw : w.wiped key = some e := by simpa [hnone] using lookup_eq_some hlook
      refine ens_handled fun w' hf' hr' hw' hs' => ?_
      rw [obj_setObj] at hs'
      refine hQ _ _ (.skipped _ hfaulty ((hf₂ _).trans hf') ?_ ((hs₁.trans hnoted).trans hs'))
      have hfiled := hr₁.congr hr' hw'
      rwa [hret hw, ← hw, ← hnone] at hfiled

omit [DecidableEq T] in
/-- A pass, seen from before the lock to after it. -/
lemma Passed.unlocked {w' : World T} {err : Option GoErr}
    (hmu : (w.obj e.region).mu = .free)
    (h : Passed P faulty key e
      (w.setObj e.region { w.obj e.region with mu := lockedBy t }) err w') :
    Passed P faulty key e w err (w'.setObj e.region
      { w'.obj e.region with mu := (w'.obj e.region).mu.unlock }) := by
  cases h with
  | swept hf hr hs =>
    rw [obj_setObj] at hs ⊢
    refine .swept (((Frame.setObj _ _ _).trans hf).trans (.setObj _ _ _))
      ⟨hr.other, hr.live, hr.wiped⟩ ?_
    rw [obj_setObj]
    refine ⟨?_, hs.state, hs.openMu, hs.openers, hs.wiped, hs.sealCipher, hs.region, hs.plain,
      hs.rest⟩
    simp only [hs.mu, unlock_lockedBy, hmu]
  | skipped err hfaulty hf hr hs =>
    rw [obj_setObj] at hs
    refine .skipped err hfaulty (((Frame.setObj _ _ _).trans hf).trans (.setObj _ _ _))
      ⟨hr.other, hr.live, hr.wiped⟩ ?_
    rw [obj_setObj]
    refine ⟨⟨?_, hs.wiped, hs.state, hs.openMu, hs.openers⟩, hs.sealCipher, hs.region, hs.plain,
      hs.rest⟩
    simp only [hs.mu, unlock_lockedBy, hmu]

/-- What a pass needs to know about the registration under its key. -/
structure Sweepable (w : World T) (key : ℕ) : Prop where
  once : (w.regions key).isSome = true → w.wiped key = none
  names : ∀ e, w.lookup key = some e → e.Names e.region
  retained : ∀ e, w.wiped key = some e → e.retained = e
  mapped : ∀ e, w.lookup key = some e → (w.obj e.region).region.mapped = true
  mu : ∀ e, w.lookup key = some e → (w.obj e.region).mu = .free

omit [DecidableEq T] in
lemma note_none (w : World T) (c : Option ℕ) (key : ℕ) :
    ∃ s, w.note c key none = { w with sweep := s } := by
  cases c <;> exact ⟨_, rfl⟩

/-- A pass finds nothing under its key. -/
lemma ens_handledNone {Q : Unit → World T → Prop} (hQ : ∀ s, Q () { w with sweep := s }) :
    Ens (α := Unit) P t faulty crash (perform (.handled c key none)) Q w := by
  obtain ⟨s, hs⟩ := note_none w c key
  rw [ens_sure (r := ()) (v := { w with sweep := s }) fun _ => by rw [← hs]; rfl]
  exact hQ s

/-- A pass over one key that waits for the lock. -/
lemma ens_wipeInPlace (h : Sweepable w key)
    (hnone : w.lookup key = none → ∀ s, Q none { w with sweep := s })
    (hsome : ∀ e err w', w.lookup key = some e → Passed P faulty key e w err w' → Q err w') :
    Ens P t faulty crash (wipeInPlace c key) Q w := by
  simp only [wipeInPlace, ens_bind]
  rw [ens_sure (r := w.lookup key) (v := w) fun c => rfl]
  cases hlook : w.lookup key with
  | none =>
    exact ens_handledNone (hnone hlook)
  | some e =>
    have hn := h.names e hlook
    have hmu := h.mu e hlook
    simp only [hn.mu]
    refine (ens_locked hmu _ _).mpr ?_
    refine ens_wipeLocked (w := w.setObj e.region _) h.once hlook (h.retained e) hn ?_ ?_
    · rw [obj_setObj]
      exact h.mapped e hlook
    · intro err w' hpass
      exact hsome e err _ hlook (hpass.unlocked hmu)

/-- A pass over one key that does not wait: alone, it gets the lock unless the platform fails. -/
lemma ens_tryWipeInPlace (h : Sweepable w key)
    {Q : Bool × Option GoErr → World T → Prop} (hbusy : Q (false, none) w)
    (hnone : w.lookup key = none → ∀ s, Q (true, none) { w with sweep := s })
    (hsome : ∀ e err w', w.lookup key = some e → Passed P faulty key e w err w' →
      Q (true, err) w') :
    Ens P t faulty crash (tryWipeInPlace c key) Q w := by
  simp only [tryWipeInPlace, ens_bind]
  rw [ens_sure (r := w.lookup key) (v := w) fun c => rfl]
  cases hlook : w.lookup key with
  | none =>
    exact ens_handledNone (hnone hlook)
  | some e =>
    have hn := h.names e hlook
    have hmu := h.mu e hlook
    simp only [hn.mu, ens_bind]
    refine (ens_platform (r := true) (o := { w.obj e.region with mu := lockedBy t })
      (x := fun _ => false) (y := fun _ => w.obj e.region)
      (fun c hc => ?_) fun c n hc => ?_).mpr ⟨?_, fun hf' => ?_⟩
    · simp only [execObj, hc, hmu, lock_free]
    · simp only [execObj, hc]
    · simp only [Bool.true_eq_false, if_false, ens_bind, ens_unlock, ens_pure]
      refine ens_wipeLocked (w := w.setObj e.region _) h.once hlook (h.retained e) hn ?_ ?_
      · rw [obj_setObj]
        exact h.mapped e hlook
      · intro err w' hpass
        exact hsome e err _ hlook (hpass.unlocked hmu)
    · simp only [if_true, ens_pure, setObj_obj]
      exact fun _ => hbusy

end Rules

end Secmem.Process
