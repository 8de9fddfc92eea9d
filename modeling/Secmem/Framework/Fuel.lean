import Mathlib.Data.List.Forall2
import Mathlib.Order.Lattice
import Mathlib.Order.Basic

/-!
# Computations that need not return

A recursive function that need not return is modelled with a bound on the depth of its calls, and
gives `none` where the bound cuts it off.  `Ends f P` says that the computation returns, with a
result of which `P` holds: with every bound from some bound on the result is the same.  `Below`
compares what two bounds give; where a result stays when the bound is raised, one bound with a
result is enough.  The rules follow the ways in which such computations are put together.
-/

namespace Secmem

variable {α β : Type} {f : ℕ → Option α} {g : ℕ → α → Option β} {P Q : α → Prop} {R : β → Prop}

/-- The computation returns, and `P` holds of its result. -/
def Ends (f : ℕ → Option α) (P : α → Prop) : Prop :=
  ∃ a, P a ∧ ∃ n, ∀ m, n ≤ m → f m = some a

/-- The computation returns this result. -/
def Returns (f : ℕ → Option α) (a : α) : Prop := Ends f (· = a)

lemma ends_pure {a : α} (h : P a) : Ends (fun _ => some a) P := ⟨a, h, 0, fun _ _ => rfl⟩

lemma Ends.mono (h : Ends f P) (hPQ : ∀ a, P a → Q a) : Ends f Q := by
  obtain ⟨a, ha, hret⟩ := h
  exact ⟨a, hPQ a ha, hret⟩

/-- One level of calls has been unfolded. -/
lemma Ends.succ (h : Ends (fun n => f (n + 1)) P) : Ends f P := by
  obtain ⟨a, ha, n, hn⟩ := h
  refine ⟨a, ha, n + 1, fun m hm => ?_⟩
  obtain ⟨k, rfl⟩ : ∃ k, m = k + 1 := ⟨m - 1, by omega⟩
  exact hn k (Nat.le_of_succ_le_succ hm)

lemma Ends.bind (hf : Ends f P) (hg : ∀ a, P a → Ends (fun n => g n a) R) :
    Ends (fun n => (f n).bind (g n)) R := by
  obtain ⟨a, ha, n, hn⟩ := hf
  obtain ⟨b, hb, k, hk⟩ := hg a ha
  refine ⟨b, hb, max n k, fun m hm => ?_⟩
  show (f m).bind (g m) = some b
  rw [hn m (le_trans (le_max_left n k) hm), Option.bind_some]
  exact hk m (le_trans (le_max_right n k) hm)

lemma Ends.map {h : α → β} (hf : Ends f P) (hh : ∀ a, P a → R (h a)) :
    Ends (fun n => (f n).map h) R := by
  obtain ⟨a, ha, n, hn⟩ := hf
  exact ⟨h a, hh a ha, n, fun m hm => congrArg (Option.map h) (hn m hm)⟩

/-- The computation on every element of a list. -/
lemma Ends.mapM {γ : Type} {f : ℕ → γ → Option α} {R : γ → α → Prop} {l : List γ}
    (h : ∀ x ∈ l, Ends (fun n => f n x) (R x)) :
    Ends (fun n => l.mapM (f n)) (List.Forall₂ R l) := by
  induction l with
  | nil => exact ends_pure .nil
  | cons x l ih =>
    obtain ⟨a, ha, n, hn⟩ := h x List.mem_cons_self
    obtain ⟨as, has, k, hk⟩ := ih fun y hy => h y (List.mem_cons_of_mem _ hy)
    refine ⟨a :: as, .cons ha has, max n k, fun m hm => ?_⟩
    have hx : f m x = some a := hn m (le_trans (le_max_left n k) hm)
    have hl : l.mapM (f m) = some as := hk m (le_trans (le_max_right n k) hm)
    show (x :: l).mapM (f m) = some (a :: as)
    rw [List.mapM_cons, hx, hl]
    rfl

/-- The computation returns. -/
def Halts (f : ℕ → Option α) : Prop := ∃ n, ∀ m, n ≤ m → (f m).isSome = true

lemma Ends.halts (h : Ends f P) : Halts f := by
  obtain ⟨a, -, n, hn⟩ := h
  exact ⟨n, fun m hm => by rw [hn m hm, Option.isSome_some]⟩

lemma halts_map {h : α → β} : (Halts fun n => (f n).map h) ↔ Halts f := by
  simp only [Halts, Option.isSome_map]

lemma halts_succ : (Halts fun n => f (n + 1)) ↔ Halts f := by
  constructor
  · rintro ⟨n, hn⟩
    refine ⟨n + 1, fun m hm => ?_⟩
    obtain ⟨k, rfl⟩ : ∃ k, m = k + 1 := ⟨m - 1, by omega⟩
    exact hn k (Nat.le_of_succ_le_succ hm)
  · exact fun ⟨n, hn⟩ => ⟨n, fun m hm => hn _ (Nat.le_succ_of_le hm)⟩

lemma halts_mapM {γ : Type} {f : ℕ → γ → Option α} {l : List γ} :
    (Halts fun n => l.mapM (f n)) ↔ ∀ x ∈ l, Halts fun n => f n x := by
  have hsome (o : ℕ → Option α) (os : ℕ → Option (List α)) :
      (Halts fun n => (o n).bind fun a => (os n).bind fun as => some (a :: as)) ↔
        Halts o ∧ Halts os := by
    constructor
    · rintro ⟨n, hn⟩
      simp only [Option.isSome_iff_exists, Option.bind_eq_some_iff] at hn
      refine ⟨⟨n, fun m hm => ?_⟩, n, fun m hm => ?_⟩ <;> obtain ⟨_, a, ha, as, has, -⟩ := hn m hm
      · rw [ha, Option.isSome_some]
      · rw [has, Option.isSome_some]
    · rintro ⟨⟨n, hn⟩, k, hk⟩
      refine ⟨max n k, fun m hm => ?_⟩
      obtain ⟨a, ha⟩ := Option.isSome_iff_exists.mp (hn m (le_trans (le_max_left n k) hm))
      obtain ⟨as, has⟩ := Option.isSome_iff_exists.mp (hk m (le_trans (le_max_right n k) hm))
      simp [ha, has]
  induction l with
  | nil => exact iff_of_true ⟨0, fun _ _ => rfl⟩ (by simp)
  | cons x l ih =>
    simp only [List.mapM_cons, List.forall_mem_cons, ← ih]
    exact hsome _ _

lemma exists_mem_of_mapM {α β : Type} {f : α → Option β} {l : List α} {l' : List β}
    (h : l.mapM f = some l') :
    (∀ x ∈ l, ∃ y ∈ l', f x = some y) ∧ ∀ y ∈ l', ∃ x ∈ l, f x = some y := by
  induction l generalizing l' with
  | nil =>
    cases h
    exact ⟨by simp, by simp⟩
  | cons x l ih =>
    rw [List.mapM_cons] at h
    obtain ⟨y, hy, h⟩ := Option.bind_eq_some_iff.mp h
    obtain ⟨ys, hys, h⟩ := Option.bind_eq_some_iff.mp h
    cases h
    obtain ⟨hl, hr⟩ := ih hys
    simp only [List.forall_mem_cons, List.exists_mem_cons_iff]
    exact ⟨⟨.inl hy, fun x' hx' => .inr (hl x' hx')⟩, .inl hy, fun y' hy' => .inr (hr y' hy')⟩

/-- What the first gives, the second gives as well. -/
def Below (o o' : Option α) : Prop := ∀ a, o = some a → o' = some a

lemma returns_of_below (hf : ∀ n, Below (f n) (f (n + 1))) {n : ℕ} {a : α} (h : f n = some a) :
    Returns f a :=
  ⟨a, rfl, n, fun _ hm => Nat.le_induction h (fun k _ => hf k a) _ hm⟩

namespace Below

variable {o o' : Option α} {k k' : α → Option β}

lemma refl (o : Option α) : Below o o := fun _ h => h

lemma bind (h : Below o o') (hk : ∀ a, Below (k a) (k' a)) : Below (o.bind k) (o'.bind k') := by
  intro b hb
  obtain ⟨a, ha, hb⟩ := Option.bind_eq_some_iff.mp hb
  exact Option.bind_eq_some_iff.mpr ⟨a, h a ha, hk a b hb⟩

lemma map (h : Below o o') (j : α → β) : Below (o.map j) (o'.map j) := by
  intro b hb
  obtain ⟨a, ha, rfl⟩ := Option.map_eq_some_iff.mp hb
  exact Option.map_eq_some_iff.mpr ⟨a, h a ha, rfl⟩

lemma mapM {γ : Type} {f f' : γ → Option α} (l : List γ) (h : ∀ x, Below (f x) (f' x)) :
    Below (l.mapM f) (l.mapM f') := by
  induction l with
  | nil => exact refl _
  | cons x l ih =>
    rw [List.mapM_cons, List.mapM_cons]
    exact (h x).bind fun a => ih.bind fun as => refl _

end Below

end Secmem
