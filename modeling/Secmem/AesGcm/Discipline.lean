import Secmem.AesGcm.Model
import Secmem.Framework.RelyGuarantee

/-!
# How goroutines share a lent AEAD

The goroutine that expanded the key takes its objects through a fixed row of stages, and only it
moves them on: it lends the AEAD, sets `done` under the write lock, opens the lock again, wipes the
one object and then the other.  The calls of all goroutines go on beside that.  A call gets inside
the AEAD only under the read lock and with `done` unset, which keeps the owner from the stages that
follow until the call has left.
-/

namespace Secmem.AesGcm

variable {T : Type}

/-! ## The stages of the owner -/

/-- How far the objects of a call have got. -/
structure Progress where
  lent : Bool
  done : Bool
  closed : Bool
  gcmWipes : ℕ
  blockWipes : ℕ
  deriving DecidableEq

def World.progress (w : World T) : Progress :=
  ⟨w.lent, w.done, w.closed, w.gcmWipes, w.blockWipes⟩

/-- `dropped` is the end of a call whose AEAD could not be built, `wiped` of every other. -/
inductive Stage
  | expanded
  | dropped
  | lending
  | marked
  | closed
  | gcmWiped
  | wiped
  deriving DecidableEq

def Stage.progress : Stage → Progress
  | expanded => ⟨false, false, false, 0, 0⟩
  | dropped => ⟨false, false, false, 0, 1⟩
  | lending => ⟨true, false, false, 0, 0⟩
  | marked => ⟨true, true, false, 0, 0⟩
  | closed => ⟨true, true, true, 0, 0⟩
  | gcmWiped => ⟨true, true, true, 1, 0⟩
  | wiped => ⟨true, true, true, 1, 1⟩

lemma Stage.progress_injective : Function.Injective Stage.progress := by
  intro s s'
  cases s <;> cases s' <;> decide

/-- `t` expanded the key, and its objects are at the stage. -/
structure Owns (t : T) (s : Stage) (w : World T) : Prop where
  owner : w.owner = some t
  progress : w.progress = s.progress

/-- What `t` expanded, if it did, has been wiped. -/
def Finished (t : T) (w : World T) : Prop :=
  w.owner = some t → w.progress = Stage.dropped.progress ∨ w.progress = Stage.wiped.progress

/-! ## The terms -/

structure Inv (w : World T) : Prop where
  readers : w.mu.readers.Nodup
  inside : ∀ t, w.inside t = true →
    t ∈ w.mu.readers ∧ w.progress = Stage.lending.progress ∧ w.late t = false
  stage : ∃ s : Stage, w.progress = s.progress ∧ (w.owner = none → s = .expanded)
  writer : w.mu.writer ≠ none →
    w.progress = Stage.lending.progress ∨ w.progress = Stage.marked.progress
  late : ∀ t, w.late t = true → w.closed = true

/-- What goroutine `t` may count on when the others move the world from `w` to `w'`. -/
structure Rely (t : T) (w w' : World T) : Prop where
  writer : w'.mu.writer = some t ↔ w.mu.writer = some t
  reader : t ∈ w'.mu.readers ↔ t ∈ w.mu.readers
  inside : w'.inside t = w.inside t
  late : w'.late t = w.late t
  done : t ∈ w.mu.readers → w'.done = w.done
  lent : w.lent = true → w'.lent = true
  closed : w.closed = true → w'.closed = true
  owner : w'.owner = some t ↔ w.owner = some t
  progress : w.owner = some t → w'.progress = w.progress

/-- `t` is not in a call of the AEAD. -/
structure Resting (t : T) (w : World T) : Prop where
  reader : t ∉ w.mu.readers
  inside : w.inside t = false

/-- `t` has the read lock and is not inside the AEAD within. -/
structure Reading (t : T) (w : World T) : Prop where
  reader : t ∈ w.mu.readers
  inside : w.inside t = false

/-- What goroutine `t` must know before it acts. -/
def Safe (t : T) : Act → World T → Prop
  | .lend, w => Owns t .expanded w
  | .wipeGCM, w => Owns t .closed w
  | .wipeAESBlock, w => Owns t .expanded w ∨ Owns t .gcmWiped w
  | .rLock, w => t ∉ w.mu.readers
  | .rUnlock, w => Reading t w
  | .lock, w => Owns t .lending w
  | .unlock, w => w.mu.writer = some t ∧ Owns t .marked w
  | .setDone, w => w.mu.writer = some t ∧ Owns t .lending w
  | .innerStarts _, w => t ∈ w.mu.readers ∧ w.lent = true ∧ w.done = false
  | .innerEnds _, w => w.inside t = true
  | .callStarts, w => w.inside t = false
  | .callEnds r, w => w.late t = true → r = .outOfScope
  | .exits, w => Owns t .wiped w
  | _, _ => True

/-! ## Safe actions keep the terms -/

section Keeps

variable {w w' : World T} {t : T}

lemma Rely.refl (t : T) (w : World T) : Rely t w w where
  writer := Iff.rfl
  reader := Iff.rfl
  inside := rfl
  late := rfl
  done _ := rfl
  lent h := h
  closed h := h
  owner := Iff.rfl
  progress _ := rfl

lemma Rely.trans {w₁ w₂ w₃ : World T} (h : Rely t w₁ w₂) (h' : Rely t w₂ w₃) : Rely t w₁ w₃ where
  writer := h'.writer.trans h.writer
  reader := h'.reader.trans h.reader
  inside := h'.inside.trans h.inside
  late := h'.late.trans h.late
  done hr := (h'.done (h.reader.mpr hr)).trans (h.done hr)
  lent hl := h'.lent (h.lent hl)
  closed hc := h'.closed (h.closed hc)
  owner := h'.owner.trans h.owner
  progress ho := (h'.progress (h.owner.mpr ho)).trans (h.progress ho)

/-- The invariant is kept and the others are left alone. -/
def Kept (t : T) (w w' : World T) : Prop := Inv w' ∧ ∀ u, u ≠ t → Rely u w w'

lemma Kept.same (hi : Inv w) : Kept t w w := ⟨hi, fun u _ => Rely.refl u w⟩

/-- Nobody is inside unless the AEAD is lent and its scope open. -/
lemma Inv.nobody (hi : Inv w) (h : w.progress ≠ Stage.lending.progress) (u : T) :
    w.inside u = false := by
  by_contra hu
  rw [Bool.not_eq_false] at hu
  exact h (hi.inside u hu).2.1

/-- A lent AEAD whose `done` is unset is at the one stage that lets calls in. -/
lemma Inv.lending (hi : Inv w) (hl : w.lent = true) (hd : w.done = false) :
    w.progress = Stage.lending.progress := by
  obtain ⟨s, hs, -⟩ := hi.stage
  have hlent : s.progress.lent = true := hs ▸ hl
  have hdone : s.progress.done = false := hs ▸ hd
  cases s with
  | lending => exact hs
  | expanded | dropped => cases hlent
  | marked | closed | gcmWiped | wiped => cases hdone

/-- Nobody is inside unless somebody has the read lock. -/
lemma Inv.nobody_of_readers (hi : Inv w) (h : w.mu.readers = []) (u : T) :
    w.inside u = false := by
  by_contra hu
  rw [Bool.not_eq_false] at hu
  have hr := (hi.inside u hu).1
  rw [h] at hr
  cases hr

/-- The owner moves on to the next stage, with nobody inside. -/
lemma kept_stage {s n : Stage} (hi : Inv w) (ho : Owns t s w) (hnobody : ∀ u, w.inside u = false)
    (howner : w'.owner = w.owner) (hinside : w'.inside = w.inside) (hlate : w'.late = w.late)
    (hp : w'.progress = n.progress) (hreaders : w'.mu.readers = w.mu.readers)
    (hw : ∀ u, u ≠ t → (w'.mu.writer = some u ↔ w.mu.writer = some u))
    (hwriter : w'.mu.writer ≠ none → n = .lending ∨ n = .marked)
    (hdone : w.mu.readers ≠ [] → n.progress.done = s.progress.done)
    (hlent : s.progress.lent = true → n.progress.lent = true)
    (hclosed : s.progress.closed = true → n.progress.closed = true) : Kept t w w' := by
  have hc : w.closed = true → w'.closed = true := by
    intro h
    have hnew : w'.closed = n.progress.closed := congrArg Progress.closed hp
    have hold : w.closed = s.progress.closed := congrArg Progress.closed ho.progress
    rw [hnew]
    exact hclosed (hold ▸ h)
  have hl : w.lent = true → w'.lent = true := by
    intro h
    have hnew : w'.lent = n.progress.lent := congrArg Progress.lent hp
    have hold : w.lent = s.progress.lent := congrArg Progress.lent ho.progress
    rw [hnew]
    exact hlent (hold ▸ h)
  have hd : w.mu.readers ≠ [] → w'.done = w.done := by
    intro h
    have hnew : w'.done = n.progress.done := congrArg Progress.done hp
    have hold : w.done = s.progress.done := congrArg Progress.done ho.progress
    rw [hnew, hold]
    exact hdone h
  refine ⟨⟨?_, fun u hin => ?_, ⟨n, hp, fun h => ?_⟩, fun h => ?_, fun u h => ?_⟩, fun u hu => ?_⟩
  · rw [hreaders]
    exact hi.readers
  · rw [hinside, hnobody u] at hin
    cases hin
  · rw [howner, ho.owner] at h
    cases h
  · rw [hp]
    exact (hwriter h).imp (congrArg Stage.progress) (congrArg Stage.progress)
  · rw [hlate] at h
    exact hc (hi.late u h)
  · have hne : w.owner ≠ some u := fun h => hu (Option.some.inj (h.symm.trans ho.owner))
    exact
      { writer := hw u hu
        reader := by rw [hreaders]
        inside := by rw [hinside]
        late := by rw [hlate]
        done := fun hr => hd (List.ne_nil_of_mem hr)
        lent := hl
        closed := hc
        owner := by rw [howner]
        progress := fun h => absurd h hne }

/-- A wipe, by the owner of what nobody else is using. -/
lemma kept_wipe {s s' : Stage} (hi : Inv w) (ho : Owns t s w)
    (hnot : s ≠ .lending ∧ s ≠ .marked) (hmu : w'.mu = w.mu) (howner : w'.owner = w.owner)
    (hinside : w'.inside = w.inside) (hlate : w'.late = w.late)
    (hp : w'.progress = s'.progress) (hdone : s'.progress.done = s.progress.done)
    (hlent : s'.progress.lent = s.progress.lent)
    (hclosed : s'.progress.closed = s.progress.closed) : Kept t w w' := by
  have hinj := @Stage.progress_injective
  have hno : w.mu.writer = none := by
    by_contra hw
    have hs := hi.writer hw
    rw [ho.progress] at hs
    exact hs.elim (fun h => hnot.1 (hinj h)) fun h => hnot.2 (hinj h)
  refine kept_stage hi ho (hi.nobody fun h => ?_) howner hinside hlate hp (by rw [hmu])
    (fun _ _ => by rw [hmu]) (fun hw => absurd hno (hmu ▸ hw)) (fun _ => hdone)
    (fun h => hlent.trans h) fun h => hclosed.trans h
  exact hnot.1 (hinj (ho.progress.symm.trans h))

lemma kept_lend (hi : Inv w) (ho : Owns t .expanded w) : Kept t w { w with lent := true } := by
  refine kept_stage (n := .lending) hi ho (hi.nobody ?_) rfl rfl rfl
    (congrArg (fun p : Progress => { p with lent := true }) ho.progress) rfl
    (fun _ _ => Iff.rfl) (fun _ => .inl rfl) (fun _ => rfl) (fun _ => rfl) fun h => h
  rw [ho.progress]
  decide

lemma kept_lock {m : RWLock T} (hi : Inv w) (ho : Owns t .lending w)
    (hm : w.mu.lock t = some m) : Kept t w { w with mu := m } := by
  obtain ⟨hwn, hrn, hmw, hmr⟩ := RWLock.lock_eq hm
  refine kept_stage (n := .lending) hi ho (hi.nobody_of_readers hrn) rfl rfl rfl ho.progress
    (hmr.trans hrn.symm) (fun u hu => ?_) (fun _ => .inl rfl) (fun _ => rfl) (fun h => h)
    fun h => h
  rw [hmw, hwn]
  exact ⟨fun h => absurd (Option.some.inj h).symm hu, fun h => by cases h⟩

lemma kept_setDone (hi : Inv w) (hw : w.mu.writer = some t) (ho : Owns t .lending w) :
    Kept t w { w with done := true } := by
  have hrn : w.mu.readers = [] := w.mu.excl (by rw [hw]; exact Option.some_ne_none t)
  exact kept_stage (n := .marked) hi ho (hi.nobody_of_readers hrn) rfl rfl rfl
    (congrArg (fun p : Progress => { p with done := true }) ho.progress) rfl
    (fun _ _ => Iff.rfl) (fun _ => .inr rfl) (fun h => absurd hrn h) (fun h => h) fun h => h

lemma kept_unlock (hi : Inv w) (hw : w.mu.writer = some t) (ho : Owns t .marked w) :
    Kept t w { w with mu := w.mu.unlock, closed := true } := by
  have hrn : w.mu.readers = [] := w.mu.excl (by rw [hw]; exact Option.some_ne_none t)
  refine kept_stage (n := .closed) hi ho (hi.nobody_of_readers hrn) rfl rfl rfl
    (congrArg (fun p : Progress => { p with closed := true }) ho.progress) rfl
    (fun u hu => ?_) (fun h => absurd rfl h) (fun _ => rfl) (fun h => h) fun _ => rfl
  rw [hw]
  exact ⟨fun h => (by cases h), fun h => absurd (Option.some.inj h).symm hu⟩

/-- The key is expanded once. -/
lemma kept_newCipher (hi : Inv w) (hn : w.owner = none) :
    Kept t w { w with owner := some t } := by
  obtain ⟨s, hs, hnone⟩ := hi.stage
  refine ⟨{ hi with stage := ⟨s, hs, fun h => absurd h (Option.some_ne_none t)⟩ }, fun u hu => ?_⟩
  refine { Rely.refl u w with owner := ?_, progress := fun _ => rfl }
  rw [hn]
  exact ⟨fun h => absurd (Option.some.inj h).symm hu, fun h => by cases h⟩

lemma kept_rLock {m : RWLock T} (hi : Inv w) (hs : t ∉ w.mu.readers)
    (hm : w.mu.rLock t = some m) : Kept t w { w with mu := m } := by
  obtain ⟨hwn, hmn, hr⟩ := RWLock.rLock_eq hm
  refine ⟨{ hi with
    readers := ?_, inside := fun u hu => ?_, writer := fun h => absurd hmn h }, fun u hu => ?_⟩
  · rw [hr]
    exact List.nodup_cons.mpr ⟨hs, hi.readers⟩
  · obtain ⟨hur, hrest⟩ := hi.inside u hu
    refine ⟨?_, hrest⟩
    rw [hr]
    exact List.mem_cons_of_mem t hur
  · refine { Rely.refl u w with writer := by rw [hmn, hwn], reader := ?_, done := fun _ => rfl }
    rw [hr]
    exact ⟨fun h => (List.mem_cons.mp h).resolve_left hu, List.mem_cons_of_mem t⟩

variable [DecidableEq T]

lemma kept_rUnlock (hi : Inv w) (hs : Reading t w) :
    Kept t w { w with mu := w.mu.rUnlock t } := by
  refine ⟨{ hi with
    readers := hi.readers.erase t, inside := fun u hu => ?_, writer := hi.writer },
    fun u hu => ?_⟩
  · obtain ⟨hur, hrest⟩ := hi.inside u hu
    have hne : u ≠ t := by
      rintro rfl
      exact absurd hu (by rw [hs.inside]; exact Bool.false_ne_true)
    exact ⟨(List.mem_erase_of_ne hne).mpr hur, hrest⟩
  · exact
      { Rely.refl u w with
        writer := Iff.rfl, reader := List.mem_erase_of_ne hu, done := fun _ => rfl }

lemma kept_inside (hi : Inv w) {b : Bool} (h : b = true →
    t ∈ w.mu.readers ∧ w.progress = Stage.lending.progress ∧ w.late t = false) :
    Kept t w { w with inside := Function.update w.inside t b } := by
  refine ⟨{ hi with inside := fun u hu => ?_ }, fun u hu =>
    { Rely.refl u w with inside := Function.update_of_ne hu _ _ }⟩
  by_cases hut : u = t
  · subst hut
    exact h (by simpa only [Function.update_self] using hu)
  · simp only [Function.update_of_ne hut] at hu
    exact hi.inside u hu

lemma kept_innerStarts (hi : Inv w) (hr : t ∈ w.mu.readers) (hl : w.lent = true)
    (hd : w.done = false) :
    Kept t w { w with inside := Function.update w.inside t true } := by
  have hlending := hi.lending hl hd
  refine kept_inside hi fun _ => ⟨hr, hlending, ?_⟩
  by_contra hlate
  rw [Bool.not_eq_false] at hlate
  have hc : w.closed = Stage.lending.progress.closed := congrArg Progress.closed hlending
  rw [hi.late t hlate] at hc
  cases hc

lemma kept_callStarts (hi : Inv w) (hs : w.inside t = false) :
    Kept t w { w with late := Function.update w.late t w.closed } := by
  refine ⟨{ hi with inside := fun u hu => ?_, late := fun u hu => ?_ }, fun u hu =>
    { Rely.refl u w with late := Function.update_of_ne hu _ _ }⟩
  · have hut : u ≠ t := by
      rintro rfl
      exact absurd hu (by rw [hs]; exact Bool.false_ne_true)
    obtain ⟨hur, hp, hlate⟩ := hi.inside u hu
    exact ⟨hur, hp, (Function.update_of_ne hut _ _).trans hlate⟩
  · by_cases hut : u = t
    · subst hut
      simpa only [Function.update_self] using hu
    · simp only [Function.update_of_ne hut] at hu
      exact hi.late u hu

/-- A safe action of one goroutine preserves the invariant and stays within what the others rely
on. -/
lemma keeps {i : Act} {c : Choice} {r : Res i} (hi : Inv w) (hs : Safe t i w)
    (h : exec t i c w = .done r w') : Kept t w w' := by
  cases i <;> simp only [exec] at h
  case isDestroyed | len | layoutReady | borrow | newGCM | readDone | callEnds | exits =>
    cases h
    exact Kept.same hi
  case newCipher =>
    split at h
    · cases h
    next hn =>
      rw [not_not] at hn
      split at h <;> cases h
      · exact Kept.same hi
      · exact kept_newCipher hi hn
  case lend =>
    cases h
    exact kept_lend hi hs
  case wipeGCM =>
    cases h
    exact kept_wipe hi hs (by decide) rfl rfl rfl rfl
      (congrArg (fun p : Progress => { p with gcmWipes := p.gcmWipes + 1 }) hs.progress :
        _ = Stage.gcmWiped.progress) rfl rfl rfl
  case wipeAESBlock =>
    cases h
    rcases hs with hs | hs
    · exact kept_wipe hi hs (by decide) rfl rfl rfl rfl
        (congrArg (fun p : Progress => { p with blockWipes := p.blockWipes + 1 }) hs.progress :
          _ = Stage.dropped.progress) rfl rfl rfl
    · exact kept_wipe hi hs (by decide) rfl rfl rfl rfl
        (congrArg (fun p : Progress => { p with blockWipes := p.blockWipes + 1 }) hs.progress :
          _ = Stage.wiped.progress) rfl rfl rfl
  case rLock =>
    split at h <;> cases h
    next m hm => exact kept_rLock hi hs hm
  case rUnlock =>
    cases h
    exact kept_rUnlock hi hs
  case lock =>
    split at h <;> cases h
    next m hm => exact kept_lock hi hs hm
  case unlock =>
    cases h
    exact kept_unlock hi hs.1 hs.2
  case setDone =>
    cases h
    exact kept_setDone hi hs.1 hs.2
  case innerStarts =>
    cases h
    exact kept_innerStarts hi hs.1 hs.2.1 hs.2.2
  case innerEnds =>
    cases h
    exact kept_inside hi fun h => Bool.noConfusion h
  case callStarts =>
    split at h <;> cases h
    exact kept_callStarts hi hs

/-- The discipline of a lent AEAD. -/
def discipline (T : Type) [DecidableEq T] : Discipline (system T) where
  Inv := Inv
  Rely := Rely
  Safe := Safe
  rely_refl := Rely.refl
  rely_trans := Rely.trans
  keeps := keeps

end Keeps

end Secmem.AesGcm
