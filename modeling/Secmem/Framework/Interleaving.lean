import Mathlib.Logic.Relation
import Mathlib.Algebra.BigOperators.Fin
import Mathlib.Algebra.Order.BigOperators.Group.Finset
import Mathlib.Tactic.Lemma

/-!
# Interleavings of threads: reachability and the census of control points

This file is the part of the development that knows nothing of secure memory.  A system is a
predicate of initial states and a step relation; `Reachable` closes the first under the
second, and `Reachable.invariant` is the one induction every safety result goes through.

The second half counts threads.  A system of finitely many threads keeps a control point for
each of them, `pc : T → PC`, and its invariants relate shared words to the number of threads
standing at certain control points.  `census p pc` is that number for the class `p`, and
`census_update` says how one thread's move changes it — as an equation between naturals with
no subtraction, so that the invariants reduce to linear arithmetic.
-/

namespace Secmem

/-! ## Reachability -/

section Reachability

variable {σ : Type*} {init : σ → Prop} {step : σ → σ → Prop}

/-- The states reached from an initial one by finitely many steps. -/
def Reachable (init : σ → Prop) (step : σ → σ → Prop) (s : σ) : Prop :=
  ∃ s₀, init s₀ ∧ Relation.ReflTransGen step s₀ s

lemma Reachable.start {s : σ} (h : init s) : Reachable init step s :=
  ⟨s, h, .refl⟩

lemma Reachable.tail {s s' : σ} (h : Reachable init step s) (hs : step s s') :
    Reachable init step s' := by
  obtain ⟨s₀, h₀, hrun⟩ := h
  exact ⟨s₀, h₀, hrun.tail hs⟩

/-- The invariant rule: what holds initially and is preserved by every step holds in every
reachable state. -/
lemma Reachable.invariant {I : σ → Prop} (hinit : ∀ s, init s → I s)
    (hstep : ∀ s s', I s → step s s' → I s') {s : σ} (h : Reachable init step s) : I s := by
  obtain ⟨s₀, h₀, hrun⟩ := h
  induction hrun with
  | refl => exact hinit _ h₀
  | tail _ hs ih => exact hstep _ _ ih hs

end Reachability

/-! ## Counting threads at a class of control points -/

section Census

variable {T PC : Type*} [Fintype T] {p : PC → Bool}

/-- The number of threads whose control point lies in the class `p`. -/
def census (p : PC → Bool) (pc : T → PC) : ℕ :=
  ∑ t, (p (pc t)).toNat

/-- One thread's move, from its old control point to `x`, changes the census of `p` by the
difference of the two memberships. -/
lemma census_update [DecidableEq T] (p : PC → Bool) (pc : T → PC) (t : T) (x : PC) :
    census p (Function.update pc t x) + (p (pc t)).toNat = census p pc + (p x).toNat := by
  have hnew : census p (Function.update pc t x) =
      (p x).toNat + ∑ u ∈ Finset.univ.erase t, (p (pc u)).toNat := by
    rw [census, ← Finset.add_sum_erase _ _ (Finset.mem_univ t), Function.update_self]
    congr 1
    refine Finset.sum_congr rfl fun u hu => ?_
    rw [Function.update_of_ne (Finset.ne_of_mem_erase hu)]
  have hold : census p pc =
      (p (pc t)).toNat + ∑ u ∈ Finset.univ.erase t, (p (pc u)).toNat := by
    rw [census, ← Finset.add_sum_erase _ _ (Finset.mem_univ t)]
  omega

/-- A move that renames control points without leaving or entering the class `p` does not
change its census. -/
lemma census_comp {f : PC → PC} (h : ∀ x, p (f x) = p x) (pc : T → PC) :
    census p (fun t => f (pc t)) = census p pc := by
  simp only [census, h]

lemma census_pos {pc : T → PC} {t : T} (h : p (pc t) = true) :
    0 < census p pc := by
  have hle : (p (pc t)).toNat ≤ census p pc :=
    Finset.single_le_sum (f := fun u => (p (pc u)).toNat) (fun _ _ => Nat.zero_le _)
      (Finset.mem_univ t)
  rw [h] at hle
  exact hle

lemma census_eq_zero {pc : T → PC} (h : census p pc = 0) (t : T) :
    p (pc t) = false := by
  cases hp : p (pc t)
  · rfl
  · have := census_pos hp
    omega

/-- Two different threads in the class make its census at least two. -/
lemma census_unique [DecidableEq T] {pc : T → PC} (h : census p pc ≤ 1)
    {t u : T} (ht : p (pc t) = true) (hu : p (pc u) = true) : t = u := by
  by_contra hne
  have hpair : ∑ v ∈ ({t, u} : Finset T), (p (pc v)).toNat ≤ census p pc :=
    Finset.sum_le_sum_of_subset (Finset.subset_univ _)
  rw [Finset.sum_pair hne, ht, hu] at hpair
  simp at hpair
  omega

end Census

end Secmem
