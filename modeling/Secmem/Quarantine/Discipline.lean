import Secmem.Quarantine.Model
import Secmem.Framework.RelyGuarantee
import Mathlib.Algebra.BigOperators.Intervals
import Mathlib.Order.Interval.Finset.Nat

/-!
# How goroutines share the quarantine

The terms of the quarantine's concurrency.  `Inv` relates the queue to the logs, and `Rely` is
what a goroutine may count on: with the lock, that the queue stays put, and at all times that the
ranges it has in hand stay its own.  A range is in one goroutine's hands from its retirement to
the append, and again from its eviction to the unmap.
-/

namespace Secmem.Quarantine

variable {T : Type}

/-- The address space a list of ranges takes. -/
def total (l : List Outer) : ℕ := (l.map Outer.len).sum

@[simp] lemma total_nil : total [] = 0 := rfl

@[simp] lemma total_cons (o : Outer) (l : List Outer) : total (o :: l) = o.len + total l := by
  simp [total]

@[simp] lemma total_append (l l' : List Outer) : total (l ++ l') = total l + total l' := by
  simp [total]

/-- The queue is in order: its byte count is right, and it is within its limits. -/
structure Accounts (limits : QuarantineLimits) (held : List Outer) (bytes : ℕ) : Prop where
  bytes_eq : bytes = total held
  regions : (held.length : ℤ) ≤ limits.regions
  within : bytes ≤ limits.bytes

/-- A range that has been retired and, as far as the quarantine knows, is still reserved. -/
def World.InUse (w : World T) (o : Outer) : Prop :=
  o ∈ w.retired ∧ o ∉ w.unmaps ∧ o ∉ w.keptAsIs

structure Inv (w : World T) : Prop where
  accounts : w.mu = none → Accounts w.limits w.held w.bytes
  regions : 0 ≤ w.limits.regions
  numbers : ∀ o ∈ w.retired, o.id < w.retired.length
  fifo : w.entered = w.departed ++ w.held
  nodup : w.entered.Nodup
  entered : ∀ o ∈ w.entered, o ∈ w.retired ∧ o ∉ w.keptAsIs
  held : ∀ o ∈ w.held, o ∉ w.unmaps
  unmaps : w.unmaps.Nodup
  unmapped : ∀ o ∈ w.unmaps, o ∈ w.retired ∧ o ∉ w.keptAsIs
  left : ∀ o ∈ w.keptAsIs, o ∈ w.retired
  owned : ∀ o t, w.owner o = some t → w.InUse o ∧ o ∉ w.held
  inSpace : ∀ o ∈ w.retired, o.InSpace
  apart : ∀ o o', w.InUse o → w.InUse o' → o ≠ o' → o.Apart o'

/-- What goroutine `t` may count on when the others move the quarantine from `w` to `w'`. -/
structure Rely (t : T) (w w' : World T) : Prop where
  mu : w'.mu = some t ↔ w.mu = some t
  queue : w.mu = some t → w'.limits = w.limits ∧ w'.held = w.held ∧ w'.bytes = w.bytes
  owner : ∀ o, w'.owner o = some t ↔ w.owner o = some t
  entered : ∀ o, w.owner o = some t → (o ∈ w'.entered ↔ o ∈ w.entered)

/-- What goroutine `t` must know before it performs an action. -/
def Safe (t : T) : Act → World T → Prop
  | .lock, _ | .retires _ _, _ => True
  | .unlock, w => w.mu = some t ∧ Accounts w.limits w.held w.bytes
  | .writeLimits l, w => w.mu = some t ∧ 0 ≤ l.regions
  | .readLimits, w | .readHeld, w | .readBytes, w | .writeBytes _, w | .cut _, w => w.mu = some t
  | .append o, w => w.mu = some t ∧ w.owner o = some t ∧ o ∉ w.entered
  | .replace o, w => w.owner o = some t ∧ o ∉ w.entered
  | .unmap o, w => w.owner o = some t

/-! ## Address space -/

/-- Ranges without a common address do not add up to the whole address space. -/
lemma total_lt {l : List Outer} (hnodup : l.Nodup) (hspace : ∀ o ∈ l, o.InSpace)
    (hapart : ∀ o ∈ l, ∀ o' ∈ l, o ≠ o' → o.Apart o') : total l < 2 ^ 64 := by
  let addresses (o : Outer) : Finset ℕ := Finset.Ico o.base (o.base + o.len)
  have hdisj : ∀ o ∈ l.toFinset, ∀ o' ∈ l.toFinset, o ≠ o' →
      Disjoint (addresses o) (addresses o') := by
    intro o ho o' ho' hne
    rw [List.mem_toFinset] at ho ho'
    rw [Finset.disjoint_left]
    intro x hx hx'
    rw [Finset.mem_Ico] at hx hx'
    have := hapart o ho o' ho' hne
    rw [Outer.Apart] at this
    omega
  have hsub : l.toFinset.biUnion addresses ⊆ Finset.Ico 1 (2 ^ 64) := by
    intro x hx
    obtain ⟨o, ho, hxo⟩ := Finset.mem_biUnion.mp hx
    rw [List.mem_toFinset] at ho
    rw [Finset.mem_Ico] at hxo ⊢
    have := hspace o ho
    rw [Outer.InSpace] at this
    omega
  have hcard : (l.toFinset.biUnion addresses).card = total l := by
    rw [Finset.card_biUnion hdisj, total, ← List.sum_toFinset _ hnodup]
    exact Finset.sum_congr rfl fun o _ => by simp [addresses]
  have hle := Finset.card_le_card hsub
  rw [hcard, Nat.card_Ico] at hle
  omega

lemma add64_eq {x y : ℕ} (h : x + y < 2 ^ 64) : add64 x y = x + y := Nat.mod_eq_of_lt h

lemma sub64_eq {x y : ℕ} (hy : y ≤ x) (hx : x < 2 ^ 64) : sub64 x y = x - y := by
  rw [sub64]
  omega

/-! ## Safe actions keep the terms -/

section Keeps

variable {w w' : World T} {t : T} {o : Outer}

lemma Inv.inUse_of_held (hi : Inv w) (ho : o ∈ w.held) : w.InUse o := by
  have hent : o ∈ w.entered := by
    rw [hi.fifo]
    exact List.mem_append_right _ ho
  exact ⟨(hi.entered o hent).1, hi.held o ho, (hi.entered o hent).2⟩

lemma Inv.held_nodup (hi : Inv w) : w.held.Nodup := by
  have h := hi.nodup
  rw [hi.fifo] at h
  exact (List.nodup_append.mp h).2.1

/-- The held ranges do not fill the address space, and neither do they together with one more. -/
lemma Inv.total_held_lt (hi : Inv w) : total w.held < 2 ^ 64 :=
  total_lt hi.held_nodup (fun o ho => hi.inSpace o (hi.inUse_of_held ho).1)
    fun o ho o' ho' => hi.apart o o' (hi.inUse_of_held ho) (hi.inUse_of_held ho')

lemma Rely.refl (t : T) (w : World T) : Rely t w w :=
  ⟨Iff.rfl, fun _ => ⟨rfl, rfl, rfl⟩, fun _ => Iff.rfl, fun _ _ => Iff.rfl⟩

lemma Rely.trans {w₁ w₂ w₃ : World T} (h : Rely t w₁ w₂) (h' : Rely t w₂ w₃) : Rely t w₁ w₃ where
  mu := h'.mu.trans h.mu
  queue hmu := by
    obtain ⟨hl, hh, hb⟩ := h.queue hmu
    obtain ⟨hl', hh', hb'⟩ := h'.queue (h.mu.mpr hmu)
    exact ⟨hl'.trans hl, hh'.trans hh, hb'.trans hb⟩
  owner o := (h'.owner o).trans (h.owner o)
  entered o ho := (h'.entered o ((h.owner o).mpr ho)).trans (h.entered o ho)

/-- The invariant is kept and the others are left alone. -/
def Kept (t : T) (w w' : World T) : Prop := Inv w' ∧ ∀ u, u ≠ t → Rely u w w'

lemma Kept.same (hi : Inv w) : Kept t w w := ⟨hi, fun u _ => Rely.refl u w⟩

/-- A range that has an owner although `o` has lost its own is another one. -/
lemma owner_of_update_none {owner : Outer → Option T} {o o' : Outer} {u : T}
    (h : Function.update owner o none o' = some u) : o' ≠ o ∧ owner o' = some u := by
  by_cases heq : o' = o
  · subst heq
    rw [Function.update_self] at h
    cases h
  · rw [Function.update_of_ne heq] at h
    exact ⟨heq, h⟩

lemma kept_guarded (hi : Inv w) (hmu : w.mu = some t) {l : QuarantineLimits}
    (hl : 0 ≤ l.regions) {b : ℕ} : Kept t w { w with limits := l, bytes := b } := by
  refine ⟨{ hi with accounts := fun h => ?_, regions := hl }, fun u hu => ?_⟩
  · rw [hmu] at h
    cases h
  · exact { Rely.refl u w with queue := fun h => absurd h (ne_some_of_ne hmu hu) }

lemma kept_lock (hi : Inv w) (hmu : w.mu = none) : Kept t w { w with mu := some t } := by
  refine ⟨{ hi with accounts := fun h => by cases h }, fun u hu => ?_⟩
  refine { Rely.refl u w with mu := ?_ }
  rw [hmu]
  refine ⟨fun h => absurd (Option.some.inj h).symm hu, fun h => ?_⟩
  cases h

lemma kept_unlock (hi : Inv w) (hmu : w.mu = some t) (ha : Accounts w.limits w.held w.bytes) :
    Kept t w { w with mu := none } := by
  refine ⟨{ hi with accounts := fun _ => ha }, fun u hu => ?_⟩
  refine { Rely.refl u w with mu := ?_ }
  rw [hmu]
  refine ⟨fun h => ?_, fun h => absurd (Option.some.inj h).symm hu⟩
  cases h

lemma kept_append (hi : Inv w) (hmu : w.mu = some t) (ho : w.owner o = some t)
    (hnew : o ∉ w.entered) : Kept t w { w with
      held := w.held ++ [o], entered := w.entered ++ [o],
      owner := Function.update w.owner o none } := by
  obtain ⟨huse, -⟩ := hi.owned o t ho
  refine ⟨{ hi with
    accounts := fun h => ?_, fifo := ?_, nodup := ?_, entered := ?_, held := ?_, owned := ?_ },
    fun u hu => ?_⟩
  · simp only [hmu] at h
    cases h
  · simp only [hi.fifo, List.append_assoc]
  · simpa using hi.nodup.concat hnew
  · intro o' ho'
    rcases List.mem_append.mp ho' with h | h
    · exact hi.entered o' h
    · rw [List.mem_singleton] at h
      subst h
      exact ⟨huse.1, huse.2.2⟩
  · intro o' ho'
    rcases List.mem_append.mp ho' with h | h
    · exact hi.held o' h
    · rw [List.mem_singleton] at h
      subst h
      exact huse.2.1
  · intro o' u hou
    obtain ⟨hne, hou⟩ := owner_of_update_none hou
    obtain ⟨huse', hheld⟩ := hi.owned o' u hou
    refine ⟨huse', fun h => ?_⟩
    rcases List.mem_append.mp h with h | h
    · exact hheld h
    · exact hne (List.mem_singleton.mp h)
  · refine ⟨Iff.rfl, fun h => absurd h (ne_some_of_ne hmu hu), ?_, fun o' ho' => ?_⟩
    · exact update_eq_some_iff (ne_some_of_ne ho hu) (by simp)
    · have hne : o' ≠ o := by
        rintro rfl
        exact ne_some_of_ne ho hu ho'
      simp [hne]

lemma kept_cut (hi : Inv w) (hmu : w.mu = some t) (n : ℕ) : Kept t w { w with
    held := copyDown w.held n, departed := w.departed ++ w.held.take n,
    owner := fun o => if o ∈ w.held.take n then some t else w.owner o } := by
  have hnd := hi.held_nodup
  rw [← List.take_append_drop n w.held] at hnd
  refine ⟨{ hi with accounts := fun h => ?_, fifo := ?_, held := ?_, owned := ?_ }, fun u hu => ?_⟩
  · simp only [hmu] at h
    cases h
  · simp only [copyDown_eq, List.append_assoc, List.take_append_drop, hi.fifo]
  · intro o ho
    simp only [copyDown_eq] at ho
    exact hi.held o (List.mem_of_mem_drop ho)
  · intro o u hou
    simp only [copyDown_eq] at hou ⊢
    split at hou
    next hin =>
      refine ⟨hi.inUse_of_held (List.mem_of_mem_take hin), fun hdrop => ?_⟩
      exact (List.nodup_append.mp hnd).2.2 o hin o hdrop rfl
    next =>
      obtain ⟨huse, hheld⟩ := hi.owned o u hou
      exact ⟨huse, fun h => hheld (List.mem_of_mem_drop h)⟩
  · refine ⟨Iff.rfl, fun h => absurd h (ne_some_of_ne hmu hu), fun o => ?_, fun _ _ => Iff.rfl⟩
    simp only
    split
    next hin =>
      refine ⟨fun h => absurd (Option.some.inj h).symm hu, fun h => ?_⟩
      exact absurd (List.mem_of_mem_take hin) (hi.owned o u h).2
    next => rfl

lemma kept_keptAsIs (hi : Inv w) (ho : w.owner o = some t) (hnew : o ∉ w.entered) :
    Kept t w { w with
      keptAsIs := w.keptAsIs ++ [o], owner := Function.update w.owner o none } := by
  obtain ⟨huse, -⟩ := hi.owned o t ho
  have hmem : ∀ o', o' ∉ w.keptAsIs ++ [o] ↔ o' ∉ w.keptAsIs ∧ o' ≠ o := by simp
  refine ⟨{ hi with
    entered := ?_, unmapped := ?_, left := ?_, owned := ?_, apart := ?_ }, fun u hu => ?_⟩
  · intro o' ho'
    obtain ⟨hret, hleft⟩ := hi.entered o' ho'
    refine ⟨hret, (hmem o').mpr ⟨hleft, ?_⟩⟩
    rintro rfl
    exact hnew ho'
  · intro o' ho'
    obtain ⟨hret, hleft⟩ := hi.unmapped o' ho'
    refine ⟨hret, (hmem o').mpr ⟨hleft, ?_⟩⟩
    rintro rfl
    exact huse.2.1 ho'
  · intro o' ho'
    rcases List.mem_append.mp ho' with h | h
    · exact hi.left o' h
    · rw [List.mem_singleton] at h
      exact h ▸ huse.1
  · intro o' u hou
    obtain ⟨hne, hou⟩ := owner_of_update_none hou
    obtain ⟨huse', hheld⟩ := hi.owned o' u hou
    exact ⟨⟨huse'.1, huse'.2.1, (hmem o').mpr ⟨huse'.2.2, hne⟩⟩, hheld⟩
  · intro o₁ o₂ h₁ h₂
    exact hi.apart o₁ o₂ ⟨h₁.1, h₁.2.1, ((hmem o₁).mp h₁.2.2).1⟩
      ⟨h₂.1, h₂.2.1, ((hmem o₂).mp h₂.2.2).1⟩
  · exact { Rely.refl u w with owner := update_eq_some_iff (ne_some_of_ne ho hu) (by simp) }

lemma kept_unmap (hi : Inv w) (ho : w.owner o = some t) : Kept t w { w with
    unmaps := w.unmaps ++ [o], owner := Function.update w.owner o none } := by
  obtain ⟨huse, hheld⟩ := hi.owned o t ho
  have hmem : ∀ o', o' ∉ w.unmaps ++ [o] ↔ o' ∉ w.unmaps ∧ o' ≠ o := by simp
  refine ⟨{ hi with
    held := ?_, unmaps := ?_, unmapped := ?_, owned := ?_, apart := ?_ }, fun u hu => ?_⟩
  · intro o' ho'
    refine (hmem o').mpr ⟨hi.held o' ho', ?_⟩
    rintro rfl
    exact hheld ho'
  · exact List.concat_eq_append ▸ hi.unmaps.concat huse.2.1
  · intro o' ho'
    rcases List.mem_append.mp ho' with h | h
    · exact hi.unmapped o' h
    · rw [List.mem_singleton] at h
      subst h
      exact ⟨huse.1, huse.2.2⟩
  · intro o' u hou
    obtain ⟨hne, hou⟩ := owner_of_update_none hou
    obtain ⟨huse', hheld'⟩ := hi.owned o' u hou
    exact ⟨⟨huse'.1, (hmem o').mpr ⟨huse'.2.1, hne⟩, huse'.2.2⟩, hheld'⟩
  · intro o₁ o₂ h₁ h₂
    exact hi.apart o₁ o₂ ⟨h₁.1, ((hmem o₁).mp h₁.2.1).1, h₁.2.2⟩
      ⟨h₂.1, ((hmem o₂).mp h₂.2.1).1, h₂.2.2⟩
  · exact { Rely.refl u w with owner := update_eq_some_iff (ne_some_of_ne ho hu) (by simp) }

lemma admits_iff : w.admits o = true ↔
    o.InSpace ∧ ∀ o', w.InUse o' → o.Apart o' := by
  simp only [World.admits, World.InUse, Bool.and_eq_true, decide_eq_true_eq, List.all_eq_true,
    Bool.or_eq_true]
  refine and_congr_right fun _ => ⟨fun h o' ⟨hret, hun, hleft⟩ => ?_, fun h o' hret => ?_⟩
  · rcases h o' hret with (h | h) | h
    · exact absurd h hun
    · exact absurd h hleft
    · exact h
  · by_cases hun : o' ∈ w.unmaps
    · exact .inl (.inl hun)
    · by_cases hleft : o' ∈ w.keptAsIs
      · exact .inl (.inr hleft)
      · exact .inr (h o' ⟨hret, hun, hleft⟩)

lemma Outer.Apart.symm {o o' : Outer} (h : o.Apart o') : o'.Apart o := by
  rw [Outer.Apart] at h ⊢
  omega

/-- A new number has not been given before. -/
lemma Inv.next_not_mem (hi : Inv w) {base len : ℕ} : w.next base len ∉ w.retired := by
  intro h
  exact absurd (hi.numbers _ h) (lt_irrefl _)

lemma kept_retires (hi : Inv w) {base len : ℕ} (hadm : w.admits (w.next base len) = true) :
    Kept t w { w with
      retired := w.retired ++ [w.next base len],
      owner := Function.update w.owner (w.next base len) (some t) } := by
  obtain ⟨hspace, hapart⟩ := admits_iff.mp hadm
  have hfresh : w.next base len ∉ w.retired := hi.next_not_mem
  have hmem : ∀ o, o ∈ w.retired ++ [w.next base len] ↔ o ∈ w.retired ∨ o = w.next base len := by
    simp
  have huse : ∀ o, (o ∈ w.retired ∨ o = w.next base len) ∧ o ∉ w.unmaps ∧ o ∉ w.keptAsIs →
      w.InUse o ∨ o = w.next base len := by
    rintro o ⟨hret | heq, hun, hleft⟩
    · exact .inl ⟨hret, hun, hleft⟩
    · exact .inr heq
  refine ⟨{ hi with
    numbers := ?_, entered := ?_, unmapped := ?_, left := ?_, owned := ?_, inSpace := ?_,
    apart := ?_ }, fun u hu => ?_⟩
  · intro o ho
    rw [List.length_append, List.length_singleton]
    rcases (hmem o).mp ho with h | rfl
    · exact (hi.numbers o h).trans (Nat.lt_succ_self _)
    · exact Nat.lt_succ_self _
  · intro o ho
    exact ⟨(hmem o).mpr (.inl (hi.entered o ho).1), (hi.entered o ho).2⟩
  · intro o ho
    exact ⟨(hmem o).mpr (.inl (hi.unmapped o ho).1), (hi.unmapped o ho).2⟩
  · exact fun o ho => (hmem o).mpr (.inl (hi.left o ho))
  · intro o u hou
    by_cases heq : o = w.next base len
    · subst heq
      refine ⟨⟨(hmem _).mpr (.inr rfl), fun h => hfresh (hi.unmapped _ h).1, fun h => ?_⟩,
        fun h => hfresh (hi.inUse_of_held h).1⟩
      exact hfresh (hi.left _ h)
    · have hou' : w.owner o = some u := by
        simpa only [Function.update_of_ne heq] using hou
      obtain ⟨huse', hheld⟩ := hi.owned o u hou'
      exact ⟨⟨(hmem o).mpr (.inl huse'.1), huse'.2⟩, hheld⟩
  · intro o ho
    rcases (hmem o).mp ho with h | rfl
    · exact hi.inSpace o h
    · exact hspace
  · rintro o o' ⟨ho, hrest⟩ ⟨ho', hrest'⟩ hne
    rcases huse o ⟨(hmem o).mp ho, hrest⟩ with h | rfl
    · rcases huse o' ⟨(hmem o').mp ho', hrest'⟩ with h' | rfl
      · exact hi.apart o o' h h' hne
      · exact (hapart o h).symm
    · rcases huse o' ⟨(hmem o').mp ho', hrest'⟩ with h' | rfl
      · exact hapart o' h'
      · exact absurd rfl hne
  · refine { Rely.refl u w with owner := update_eq_some_iff (fun h => ?_) ?_ }
    · exact hfresh (hi.owned _ u h).1.1
    · exact fun h => hu (Option.some.inj h).symm

/-- A safe action of one goroutine preserves the invariant and stays within what the others rely
on. -/
lemma keeps [DecidableEq T] {P : Platform} {i : Act} {c : Choice} {r : Res i} (hi : Inv w)
    (hs : Safe t i w) (h : exec P t i c w = .done r w') : Kept t w w' := by
  cases i <;> simp only [exec] at h
  case readLimits | readHeld | readBytes =>
    cases h
    exact Kept.same hi
  case lock =>
    split at h <;> cases h
    next hmu => exact kept_lock hi hmu
  case unlock =>
    cases h
    exact kept_unlock hi hs.1 hs.2
  case writeLimits =>
    cases h
    exact kept_guarded hi hs.1 hs.2
  case writeBytes =>
    cases h
    exact kept_guarded hi hs hi.regions
  case append =>
    cases h
    exact kept_append hi hs.1 hs.2.1 hs.2.2
  case cut =>
    cases h
    exact kept_cut hi hs _
  case replace =>
    split at h
    · cases h
      exact Kept.same hi
    · split at h <;> cases h
      · exact Kept.same hi
      · exact kept_keptAsIs hi hs.1 hs.2
  case unmap =>
    cases h
    exact kept_unmap hi hs
  case retires =>
    split at h <;> cases h
    next hadm => exact kept_retires hi hadm

/-- The quarantine's discipline. -/
def discipline (T : Type) [DecidableEq T] (P : Platform) : Discipline (system T P) where
  Inv := Inv
  Rely := Rely
  Safe := Safe
  rely_refl := Rely.refl
  rely_trans := Rely.trans
  keeps := keeps

end Keeps

end Secmem.Quarantine
