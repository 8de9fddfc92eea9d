import Secmem.Argon2Pool.Model
import Secmem.Framework.RelyGuarantee

/-!
# How goroutines share an Argon2 pool

A workspace is a token.  It is in the channel, or one goroutine has it: a `Derive` until it sends it
back, and the `Destroy` that set the flag for good.  `Inv` says that and what the flag, the closed
channel and the return of that `Destroy` stand for; `Rely` is what a goroutine may count on, most of
all that the workspaces it has stay its own.
-/

namespace Secmem.Argon2Pool

open Function

variable {T : Type}

structure Inv (w : World T) : Prop where
  all_nodup : w.all.Nodup
  free_nodup : w.free.Nodup
  free : ∀ i ∈ w.free, i ∈ w.all ∧ w.holder i = none
  held : ∀ i t, w.holder i = some t → i ∈ w.all
  drained_nodup : w.drained.Nodup
  drained : ∀ i ∈ w.drained, ∃ t, w.holder i = some t ∧ w.setter = some t
  users : ∀ i, w.users i = [] ∨ ∃ t, w.users i = [t] ∧ w.holder i = some t ∧ i ∉ w.drained
  destroyed : ∀ i, w.destroyed i = true → i ∈ w.drained
  closed : w.closed = true → w.setter ≠ none ∧ ∀ i ∈ w.all, i ∈ w.drained
  done : w.done = true ↔ w.setter ≠ none
  torn : w.torn = true →
    w.done = true ∧ ∀ i ∈ w.all, i ∈ w.drained ∧ w.destroyed i = true
  late : ∀ t, w.late t = true → w.torn = true

/-- What goroutine `t` may count on when the others move the pool from `w` to `w'`. -/
structure Rely (t : T) (w w' : World T) : Prop where
  mu : w'.mu = some t ↔ w.mu = some t
  done : w.mu = some t → w'.done = w.done
  all : w'.all = w.all
  holder : ∀ i, w'.holder i = some t ↔ w.holder i = some t
  users : ∀ i, w.holder i = some t → w'.users i = w.users i
  drained : ∀ i, w.holder i = some t → (i ∈ w'.drained ↔ i ∈ w.drained)
  wsMu : ∀ i, w'.wsMu i = some t ↔ w.wsMu i = some t
  setter : w.setter = some t →
    w'.setter = some t ∧ w'.closed = w.closed ∧ w'.drained = w.drained
  destroyed : ∀ i, w.destroyed i = true → w'.destroyed i = true
  torn : w.torn = true → w'.torn = true
  late : w'.late t = w.late t

/-- `t`'s derivation has taken the workspace. -/
structure Taken (t : T) (i : ℕ) (w : World T) : Prop where
  holder : w.holder i = some t
  drained : i ∉ w.drained

/-- What goroutine `t` must know before it performs an action. -/
def Safe (strict : Bool) (t : T) : Act → World T → Prop
  | .unlock, w | .readDone, w | .findDone, w => w.mu = some t
  | .setDone, w => w.mu = some t ∧ w.done = false
  | .recv, w => w.late t = false
  | .drain, w => w.setter = some t ∧ w.closed = false
  | .send i, w => Taken t i w ∧ w.users i = [] ∧ w.closed = false
  | .close, w => w.setter = some t ∧ w.closed = false ∧ ∀ i ∈ w.all, i ∈ w.drained
  | .wsUnlock i, w => w.wsMu i = some t
  | .borrow i, w => w.wsMu i = some t ∧ Taken t i w ∧ w.users i = []
  | .endBorrow i, w => w.wsMu i = some t ∧ Taken t i w ∧ w.users i = [t]
  | .destroyMem i, w => w.wsMu i = some t ∧ w.setter = some t ∧ i ∈ w.drained ∧ w.users i = []
  | .newWorkspace, _ | .appendAll _, _ => False
  | .deriveReturns err, w => w.late t = true → ∃ e, err = some e ∧ e.is .errDestroyed = true
  | .destroyReturns won _, w =>
    if won = true then w.setter = some t ∧ w.done = true ∧
      ∀ i ∈ w.all, i ∈ w.drained ∧ w.destroyed i = true
    else strict = true → w.torn = true
  | _, _ => True

/-! ## Safe actions keep the terms -/

section Keeps

variable {w w' : World T} {t : T} {i : ℕ}

lemma Rely.refl (t : T) (w : World T) : Rely t w w where
  mu := Iff.rfl
  done _ := rfl
  all := rfl
  holder _ := Iff.rfl
  users _ _ := rfl
  drained _ _ := Iff.rfl
  wsMu _ := Iff.rfl
  setter h := ⟨h, rfl, rfl⟩
  destroyed _ h := h
  torn h := h
  late := rfl

lemma Rely.trans {w₁ w₂ w₃ : World T} (h : Rely t w₁ w₂) (h' : Rely t w₂ w₃) : Rely t w₁ w₃ where
  mu := h'.mu.trans h.mu
  done hmu := (h'.done (h.mu.mpr hmu)).trans (h.done hmu)
  all := h'.all.trans h.all
  holder i := (h'.holder i).trans (h.holder i)
  users i hi := (h'.users i ((h.holder i).mpr hi)).trans (h.users i hi)
  drained i hi := (h'.drained i ((h.holder i).mpr hi)).trans (h.drained i hi)
  wsMu i := (h'.wsMu i).trans (h.wsMu i)
  setter hs := by
    obtain ⟨hs₂, hc, hd⟩ := h.setter hs
    obtain ⟨hs₃, hc', hd'⟩ := h'.setter hs₂
    exact ⟨hs₃, hc'.trans hc, hd'.trans hd⟩
  destroyed i hi := h'.destroyed i (h.destroyed i hi)
  torn ht := h'.torn (h.torn ht)
  late := h'.late.trans h.late

/-- The invariant is kept and the others are left alone. -/
def Kept (t : T) (w w' : World T) : Prop := Inv w' ∧ ∀ u, u ≠ t → Rely u w w'

lemma Kept.same (hi : Inv w) : Kept t w w := ⟨hi, fun u _ => Rely.refl u w⟩

lemma kept_mu (hi : Inv w) {m : Option T} (hold : ∀ u, u ≠ t → w.mu ≠ some u)
    (hnew : ∀ u, u ≠ t → m ≠ some u) : Kept t w { w with mu := m } := by
  refine ⟨{ hi with }, fun u hu => { Rely.refl u w with mu := ?_, done := fun _ => rfl }⟩
  exact ⟨fun h => absurd h (hnew u hu), fun h => absurd h (hold u hu)⟩

lemma kept_wsMu (hi : Inv w) {m : Option T} (hold : ∀ u, u ≠ t → w.wsMu i ≠ some u)
    (hnew : ∀ u, u ≠ t → m ≠ some u) :
    Kept t w { w with wsMu := update w.wsMu i m } :=
  ⟨{ hi with }, fun u hu =>
    { Rely.refl u w with wsMu := update_eq_some_iff (hold u hu) (hnew u hu) }⟩

/-- Before the flag is set nothing has been taken back. -/
lemma Inv.drained_eq_nil (hi : Inv w) (hnone : w.setter = none) : w.drained = [] := by
  rw [List.eq_nil_iff_forall_not_mem]
  intro i hin
  obtain ⟨u, -, hu⟩ := hi.drained i hin
  rw [hnone] at hu
  cases hu

lemma kept_setDone (hi : Inv w) (hmu : w.mu = some t) (hd : w.done = false) :
    Kept t w { w with done := true, setter := some t } := by
  have hnone : w.setter = none := by
    by_contra hne
    have := hi.done.mpr hne
    rw [hd] at this
    cases this
  have hdr := hi.drained_eq_nil hnone
  refine ⟨{ hi with drained := ?_, closed := fun hc => ?_, done := by simp, torn := fun ht => ?_ },
    fun u hu => ?_⟩
  · intro i hin
    rw [hdr] at hin
    cases hin
  · exact absurd hnone (hi.closed hc).1
  · have := (hi.torn ht).1
    rw [hd] at this
    cases this
  · refine { Rely.refl u w with done := fun h => ?_, setter := fun h => ?_ }
    · exact absurd h (ne_some_of_ne hmu hu)
    · rw [hnone] at h
      cases h

/-- A workspace in the channel has nobody in it and has not been taken back. -/
lemma Inv.free_idle (hi : Inv w) (hf : i ∈ w.free) :
    w.holder i = none ∧ w.users i = [] ∧ i ∉ w.drained := by
  have hnone := (hi.free i hf).2
  refine ⟨hnone, ?_, fun hd => ?_⟩
  · rcases hi.users i with h | ⟨u, -, hu, -⟩
    · exact h
    · rw [hnone] at hu
      cases hu
  · obtain ⟨u, hu, -⟩ := hi.drained i hd
    rw [hnone] at hu
    cases hu

/-- Taking a workspace out of the channel: either of the two receives. -/
lemma kept_receive (hi : Inv w) {free drained : List ℕ} (hfree : w.free = i :: free)
    (hdr : drained = w.drained ∨ drained = w.drained ++ [i] ∧ w.setter = some t) :
    Kept t w { w with
      free := free, holder := update w.holder i (some t), drained := drained } := by
  have hmem : i ∈ w.free := by
    rw [hfree]
    exact List.mem_cons_self
  obtain ⟨hnone, husers, hnotin⟩ := hi.free_idle hmem
  have hnd := hi.free_nodup
  rw [hfree] at hnd
  have hmono : ∀ j, j ∈ w.drained → j ∈ drained := by
    rcases hdr with rfl | ⟨rfl, -⟩
    · exact fun _ h => h
    · exact fun _ h => List.mem_append_left _ h
  have hback : ∀ j, j ∈ drained → j ∈ w.drained ∨ j = i ∧ w.setter = some t := by
    rcases hdr with rfl | ⟨rfl, hs⟩
    · exact fun _ h => .inl h
    · intro j hj
      rcases List.mem_append.mp hj with h | h
      · exact .inl h
      · exact .inr ⟨List.mem_singleton.mp h, hs⟩
  have hother : ∀ j, j ≠ i → (j ∈ drained ↔ j ∈ w.drained) := fun j hj =>
    ⟨fun h => (hback j h).resolve_right fun h' => hj h'.1, hmono j⟩
  refine ⟨{ hi with
    free_nodup := (List.nodup_cons.mp hnd).2, free := ?_, held := ?_, drained_nodup := ?_,
    drained := ?_, users := ?_, destroyed := ?_, closed := ?_, torn := ?_ }, fun u hu => ?_⟩
  · intro j hj
    have hne : j ≠ i := by
      rintro rfl
      exact (List.nodup_cons.mp hnd).1 hj
    have hj' : j ∈ w.free := by
      rw [hfree]
      exact List.mem_cons_of_mem _ hj
    simp only [update_of_ne hne]
    exact hi.free j hj'
  · intro j u hu
    by_cases hne : j = i
    · exact hne ▸ (hi.free i hmem).1
    · simp only [update_of_ne hne] at hu
      exact hi.held j u hu
  · rcases hdr with rfl | ⟨rfl, -⟩
    · exact hi.drained_nodup
    · exact List.concat_eq_append ▸ hi.drained_nodup.concat hnotin
  · intro j hj
    rcases hback j hj with h | ⟨rfl, hs⟩
    · have hne : j ≠ i := by
        rintro rfl
        exact hnotin h
      simp only [update_of_ne hne]
      exact hi.drained j h
    · simp only [update_self]
      exact ⟨t, rfl, hs⟩
  · intro j
    by_cases hne : j = i
    · subst hne
      exact .inl husers
    · simp only [update_of_ne hne]
      refine (hi.users j).imp_right fun ⟨u, hu, hh, hd⟩ => ⟨u, hu, hh, fun h => hd ?_⟩
      exact (hother j hne).mp h
  · exact fun j hj => hmono j (hi.destroyed j hj)
  · exact fun hc => ⟨(hi.closed hc).1, fun j hj => hmono j ((hi.closed hc).2 j hj)⟩
  · exact fun ht => ⟨(hi.torn ht).1, fun j hj =>
      ⟨hmono j ((hi.torn ht).2 j hj).1, ((hi.torn ht).2 j hj).2⟩⟩
  · refine { Rely.refl u w with holder := ?_, drained := ?_, setter := ?_ }
    · refine update_eq_some_iff ?_ fun h => hu (Option.some.inj h).symm
      rw [hnone]
      exact fun h => by cases h
    · intro j hj
      refine hother j ?_
      rintro rfl
      rw [hnone] at hj
      cases hj
    · intro hs
      refine ⟨hs, rfl, ?_⟩
      rcases hdr with rfl | ⟨-, hs'⟩
      · rfl
      · exact absurd (Option.some.inj (hs.symm.trans hs')) hu

lemma kept_send (hi : Inv w) (htk : Taken t i w) (hus : w.users i = []) :
    Kept t w { w with
      free := w.free ++ [i], holder := update w.holder i none } := by
  have hnotin : i ∉ w.free := by
    intro h
    have := (hi.free i h).2
    rw [htk.holder] at this
    cases this
  refine ⟨{ hi with
    free_nodup := ?_, free := ?_, held := ?_, drained := ?_, users := ?_ }, fun u hu => ?_⟩
  · exact List.concat_eq_append ▸ hi.free_nodup.concat hnotin
  · intro j hj
    by_cases hne : j = i
    · subst hne
      simp only [update_self]
      exact ⟨hi.held j t htk.holder, trivial⟩
    · simp only [update_of_ne hne]
      rcases List.mem_append.mp hj with h | h
      · exact hi.free j h
      · exact absurd (List.mem_singleton.mp h) hne
  · intro j u hu
    by_cases hne : j = i
    · subst hne
      simp only [update_self] at hu
      cases hu
    · simp only [update_of_ne hne] at hu
      exact hi.held j u hu
  · intro j hj
    have hne : j ≠ i := by
      rintro rfl
      exact htk.drained hj
    simp only [update_of_ne hne]
    exact hi.drained j hj
  · intro j
    by_cases hne : j = i
    · subst hne
      exact .inl hus
    · simp only [update_of_ne hne]
      exact hi.users j
  · refine { Rely.refl u w with holder := update_eq_some_iff (ne_some_of_ne htk.holder hu) ?_ }
    exact fun h => by cases h

lemma kept_close (hi : Inv w) (hs : w.setter = some t) (hall : ∀ i ∈ w.all, i ∈ w.drained) :
    Kept t w { w with closed := true } :=
  ⟨{ hi with closed := fun _ => ⟨by rw [hs]; simp, hall⟩ }, fun u hu =>
    { Rely.refl u w with setter := fun h => absurd h (ne_some_of_ne hs hu) }⟩

/-- Entering and leaving a borrow of a workspace that is `t`'s. -/
lemma kept_users (hi : Inv w) (htk : Taken t i w) {l : List T} (hl : l = [] ∨ l = [t]) :
    Kept t w { w with users := update w.users i l } := by
  refine ⟨{ hi with users := fun j => ?_ }, fun u hu => ?_⟩
  · by_cases hne : j = i
    · subst hne
      simp only [update_self]
      exact hl.imp_right fun h => ⟨t, h, htk.holder, htk.drained⟩
    · simp only [update_of_ne hne]
      exact hi.users j
  · refine { Rely.refl u w with users := fun j hj => ?_ }
    have hne : j ≠ i := by
      rintro rfl
      exact ne_some_of_ne htk.holder hu hj
    simp only [update_of_ne hne]

lemma kept_destroyMem (hi : Inv w) (hd : i ∈ w.drained) :
    Kept t w { w with destroyed := update w.destroyed i true } := by
  have hmono : ∀ j, w.destroyed j = true → update w.destroyed i true j = true := by
    intro j hj
    by_cases hne : j = i
    · rw [hne, update_self]
    · rw [update_of_ne hne]
      exact hj
  refine ⟨{ hi with destroyed := fun j hj => ?_, torn := fun ht => ?_ }, fun u _ => ?_⟩
  · by_cases hne : j = i
    · exact hne ▸ hd
    · simp only [update_of_ne hne] at hj
      exact hi.destroyed j hj
  · exact ⟨(hi.torn ht).1, fun j hj =>
      ⟨((hi.torn ht).2 j hj).1, hmono j ((hi.torn ht).2 j hj).2⟩⟩
  · exact { Rely.refl u w with destroyed := hmono }

/-- A safe action of one goroutine preserves the invariant and stays within what the others rely
on. -/
lemma keeps [DecidableEq T] {strict : Bool} {i : Act} {c : Choice} {r : Res i} (hi : Inv w)
    (hs : Safe strict t i w) (h : exec strict t i c w = .done r w') : Kept t w w' := by
  have hnone (u : T) (_ : u ≠ t) : (none : Option T) ≠ some u := fun h => by cases h
  have hself (u : T) (hu : u ≠ t) : some t ≠ some u := fun h => hu (Option.some.inj h).symm
  cases i <;> simp only [exec] at h
  case lock =>
    split at h <;> cases h
    next hmu => exact kept_mu hi (by rw [hmu]; exact hnone) hself
  case unlock =>
    cases h
    exact kept_mu hi (fun u hu => ne_some_of_ne hs hu) hnone
  case readDone | check | readAll | deriveReturns =>
    cases h
    exact Kept.same hi
  case findDone =>
    split at h <;> cases h
    exact Kept.same hi
  case setDone =>
    cases h
    exact kept_setDone hi hs.1 hs.2
  case recv =>
    split at h
    next hfree =>
      cases h
      exact kept_receive hi hfree (.inl rfl)
    next =>
      split at h <;> cases h
      exact Kept.same hi
  case drain =>
    split at h
    next hfree =>
      cases h
      exact kept_receive hi hfree (.inr ⟨rfl, hs.1⟩)
    next =>
      split at h <;> cases h
      exact Kept.same hi
  case send =>
    split at h
    · cases h
    · split at h <;> cases h
      exact kept_send hi hs.1 hs.2.1
  case close =>
    split at h <;> cases h
    exact kept_close hi hs.1 hs.2.2
  case wsLock =>
    split at h <;> cases h
    next hmu => exact kept_wsMu hi (by rw [hmu]; exact hnone) hself
  case wsUnlock =>
    cases h
    exact kept_wsMu hi (fun u hu => ne_some_of_ne hs hu) hnone
  case borrow =>
    split at h
    · cases h
      exact Kept.same hi
    · split at h <;> cases h
      · exact Kept.same hi
      · rw [hs.2.2]
        exact kept_users hi hs.2.1 (.inr rfl)
  case endBorrow =>
    cases h
    rw [hs.2.2, List.erase_cons_head]
    exact kept_users hi hs.2.1 (.inl rfl)
  case destroyMem =>
    cases h
    exact kept_destroyMem hi hs.2.2.1
  case newWorkspace | appendAll => exact hs.elim
  case deriveStarts =>
    cases h
    refine ⟨{ hi with late := fun u hu => ?_ }, fun u hu =>
      { Rely.refl u w with late := update_of_ne hu _ _ }⟩
    by_cases hut : u = t
    · subst hut
      simpa only [update_self] using hu
    · simp only [update_of_ne hut] at hu
      exact hi.late u hu
  case destroyReturns won err =>
    cases h
    refine ⟨{ hi with torn := fun ht => ?_, late := fun u hu => ?_ }, fun u _ =>
      { Rely.refl u w with torn := fun ht => ?_ }⟩
    · cases won with
      | false => exact hi.torn (by simpa using ht)
      | true => exact ⟨hs.2.1, hs.2.2⟩
    · simp [hi.late u hu]
    · simp [ht]

/-- The pool's discipline. -/
def discipline (T : Type) [DecidableEq T] (strict : Bool) : Discipline (system T strict) where
  Inv := Inv
  Rely := Rely
  Safe := Safe strict
  rely_refl := Rely.refl
  rely_trans := Rely.trans
  keeps := keeps

end Keeps

end Secmem.Argon2Pool
