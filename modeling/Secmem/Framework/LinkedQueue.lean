import Mathlib.Data.List.Nodup
import Mathlib.Data.Nat.Notation
import Mathlib.Data.Int.Notation
import Mathlib.Logic.Function.Basic
import Mathlib.Tactic.Lemma

/-!
# A first-in first-out queue threaded through an array

An intrusive queue of array indices: `next i` is the successor of `i`, and `-1` ends the list.
`LinkedQueue next head tail l` says that the list followed from `head` is exactly `l`, that it
repeats no index, and that `tail` is its last element — both ends being `-1` when it is empty.
`pop` and `push` are the two ways the links change; each is proved against the list operation
it implements.

The second part is the history of a queue.  `replay` runs a log of pushes and pops on a list,
and `replay_fifo` is the order property: an element that was pushed behind a list is popped
only after everything on that list was.
-/

namespace Secmem

/-! ## The links -/

/-- The list followed from `h` through `next`. -/
def Linked (next : ℕ → ℤ) : ℤ → List ℕ → Prop
  | h, [] => h = -1
  | h, i :: l => h = i ∧ Linked next (next i) l

/-- The last element of a list of indices, `-1` if there is none. -/
def lastIndex : List ℕ → ℤ
  | [] => -1
  | [i] => i
  | _ :: i :: l => lastIndex (i :: l)

structure LinkedQueue (next : ℕ → ℤ) (head tail : ℤ) (l : List ℕ) : Prop where
  linked : Linked next head l
  last : tail = lastIndex l
  nodup : l.Nodup

lemma Linked.congr {next next' : ℕ → ℤ} {h : ℤ} {l : List ℕ} (hl : Linked next h l)
    (hn : ∀ i ∈ l, next' i = next i) : Linked next' h l := by
  induction l generalizing h with
  | nil => exact hl
  | cons i l ih =>
    obtain ⟨rfl, hl⟩ := hl
    refine ⟨rfl, ?_⟩
    rw [hn i List.mem_cons_self]
    exact ih hl fun j hj => hn j (List.mem_cons_of_mem _ hj)

@[simp] lemma lastIndex_append (l : List ℕ) (i : ℕ) : lastIndex (l ++ [i]) = i := by
  induction l with
  | nil => rfl
  | cons j l ih =>
    cases l with
    | nil => rfl
    | cons k l => exact ih

lemma lastIndex_eq_neg {l : List ℕ} (h : lastIndex l < 0) : l = [] := by
  induction l with
  | nil => rfl
  | cons i l ih =>
    cases l with
    | nil =>
      have hi : lastIndex [i] = (i : ℤ) := rfl
      omega
    | cons j l => cases ih h

lemma lastIndex_cons {i : ℕ} {l : List ℕ} (hl : l ≠ []) : lastIndex (i :: l) = lastIndex l := by
  cases l with
  | nil => exact (hl rfl).elim
  | cons j l => rfl

namespace LinkedQueue

variable {next : ℕ → ℤ} {head tail : ℤ} {l : List ℕ}

lemma head_neg_iff (h : LinkedQueue next head tail l) : head < 0 ↔ l = [] := by
  have hl := h.linked
  cases l with
  | nil =>
    have hh : head = -1 := hl
    simp [hh]
  | cons i l =>
    have hh : head = i := hl.1
    simp [hh]

lemma empty : LinkedQueue next (-1) (-1) [] := ⟨rfl, rfl, List.nodup_nil⟩

/-- Popping the head: its link becomes the head, its own link is cleared, and the tail is
cleared when the queue ran empty. -/
lemma pop {i : ℕ} (h : LinkedQueue next head tail (i :: l)) :
    head = i ∧ LinkedQueue (Function.update next i (-1)) (next i)
      (if next i < 0 then -1 else tail) l := by
  obtain ⟨⟨hhead, hrest⟩, hlast, hnodup⟩ := h
  have hi : i ∉ l := (List.nodup_cons.mp hnodup).1
  refine ⟨hhead, ?_, ?_, (List.nodup_cons.mp hnodup).2⟩
  · refine hrest.congr fun j hj => Function.update_of_ne ?_ _ _
    rintro rfl
    exact hi hj
  · cases l with
    | nil =>
      have hn : next i = -1 := hrest
      simp [hn, lastIndex]
    | cons j l =>
      have hn : next i = j := hrest.1
      rw [if_neg (by omega), hlast, lastIndex_cons (by simp)]

/-- Pushing a new index at the tail: its link ends the list, and the old tail — or the head, if
the queue was empty — points to it. -/
lemma push {i : ℕ} (h : LinkedQueue next head tail l) (hi : i ∉ l) :
    LinkedQueue
      (if 0 ≤ tail then Function.update (Function.update next i (-1)) tail.toNat i
        else Function.update next i (-1))
      (if 0 ≤ tail then head else i) i (l ++ [i]) := by
  refine ⟨?_, (lastIndex_append l i).symm, ?_⟩
  swap
  · exact List.concat_eq_append ▸ h.nodup.concat hi
  by_cases ht : 0 ≤ tail
  · rw [if_pos ht, if_pos ht]
    have hne : l ≠ [] := by
      rintro rfl
      have : tail = -1 := h.last
      omega
    obtain ⟨l', k, rfl⟩ : ∃ l' k, l = l' ++ [k] :=
      ⟨l.dropLast, l.getLast hne, (List.dropLast_append_getLast hne).symm⟩
    have hk : tail = k := by rw [h.last, lastIndex_append]
    have hkn : tail.toNat = k := by omega
    rw [hkn]
    have hik : i ≠ k := fun hik => hi (by simp [hik])
    have hl := h.linked
    have hnd := h.nodup
    clear h hne ht hk hkn
    -- the induction walks to the old tail, whose link is the only one on the list that changed
    induction l' generalizing head with
    | nil =>
      refine ⟨hl.1, ?_⟩
      rw [Function.update_self]
      exact ⟨rfl, by rw [Function.update_of_ne hik, Function.update_self]; rfl⟩
    | cons j l' ih =>
      obtain ⟨hhead, hrest⟩ := hl
      have hj : j ∉ l' ++ [k] := (List.nodup_cons.mp hnd).1
      have hjk : j ≠ k := fun e => hj (by simp [e])
      have hji : j ≠ i := fun e => hi (by simp [e])
      refine ⟨hhead, ?_⟩
      rw [Function.update_of_ne hjk, Function.update_of_ne hji]
      exact ih (fun h => hi (List.mem_cons_of_mem _ h)) hrest (List.nodup_cons.mp hnd).2
  · rw [if_neg ht, if_neg ht]
    have hnil : l = [] := lastIndex_eq_neg (by rw [← h.last]; omega)
    subst hnil
    exact ⟨rfl, by rw [Function.update_self]; rfl⟩

end LinkedQueue

/-! ## Histories -/

/-- What happens to a queue. -/
inductive QueueEvent (α : Type)
  | pushed (a : α)
  | popped (a : α)
  deriving DecidableEq

section History

variable {α : Type} [DecidableEq α]

/-- One event, on the list of what is queued: what is pushed must be new, and what is popped
must be the head. -/
def QueueEvent.apply (q : List α) : QueueEvent α → Option (List α)
  | .pushed a => if a ∈ q then none else some (q ++ [a])
  | .popped a =>
    match q with
    | [] => none
    | b :: q => if a = b then some q else none

/-- A log of events. -/
def replay (q : List α) (es : List (QueueEvent α)) : Option (List α) :=
  es.foldlM QueueEvent.apply q

@[simp] lemma replay_nil (q : List α) : replay q [] = some q := rfl

@[simp] lemma replay_cons (q : List α) (e : QueueEvent α) (es : List (QueueEvent α)) :
    replay q (e :: es) = (e.apply q).bind fun q' => replay q' es := rfl

@[simp] lemma replay_append (q : List α) (es es' : List (QueueEvent α)) :
    replay q (es ++ es') = (replay q es).bind fun q' => replay q' es' :=
  List.foldlM_append

/-- Until `a` is popped it keeps its place: what has left the queue from before it has been
popped, and the rest is still before it. -/
lemma replay_place {l r q : List α} {a : α} {es : List (QueueEvent α)}
    (h : replay (l ++ a :: r) es = some q) (ha : .popped a ∉ es) :
    ∃ l₁ l₂ r', l = l₁ ++ l₂ ∧ q = l₂ ++ a :: r' ∧ ∀ b ∈ l₁, .popped b ∈ es := by
  induction es generalizing l r with
  | nil => exact ⟨[], l, r, rfl, (Option.some.inj h).symm, by simp⟩
  | cons e es ih =>
    rw [List.mem_cons, not_or] at ha
    rw [replay_cons, Option.bind_eq_some_iff] at h
    obtain ⟨q', hq', hrest⟩ := h
    cases e with
    | pushed b =>
      simp only [QueueEvent.apply] at hq'
      split at hq' <;> cases hq'
      rw [List.append_assoc, List.cons_append] at hrest
      obtain ⟨l₁, l₂, r', hl, hq, hpop⟩ := ih hrest ha.2
      exact ⟨l₁, l₂, r', hl, hq, fun c hc => List.mem_cons_of_mem _ (hpop c hc)⟩
    | popped b =>
      cases l with
      | nil =>
        simp only [List.nil_append, QueueEvent.apply] at hq'
        split at hq'
        next hba => exact (ha.1 (by rw [hba])).elim
        next => cases hq'
      | cons c l =>
        simp only [List.cons_append, QueueEvent.apply] at hq'
        split at hq'
        next hbc =>
          obtain rfl := Option.some.inj hq'
          subst hbc
          obtain ⟨l₁, l₂, r', hl, hq, hpop⟩ := ih hrest ha.2
          refine ⟨b :: l₁, l₂, r', by rw [hl, List.cons_append], hq, fun c hc => ?_⟩
          rcases List.mem_cons.mp hc with rfl | hc
          · exact List.mem_cons_self
          · exact List.mem_cons_of_mem _ (hpop c hc)
        next => cases hq'

/-- First in, first out: between the push of `a` behind `l` and its pop, everything on `l` is
popped. -/
lemma replay_fifo {q l q' : List α} {a : α} {es mid rest : List (QueueEvent α)}
    (hl : replay q es = some l)
    (h : replay q (es ++ .pushed a :: mid ++ .popped a :: rest) = some q')
    (hmid : .popped a ∉ mid) : ∀ b ∈ l, .popped b ∈ mid := by
  rw [List.append_assoc, replay_append, hl, Option.bind_some, List.cons_append, replay_cons,
    Option.bind_eq_some_iff] at h
  obtain ⟨q₁, hq₁, h⟩ := h
  simp only [QueueEvent.apply] at hq₁
  split at hq₁ <;> cases hq₁
  next hnew =>
    rw [replay_append, Option.bind_eq_some_iff] at h
    obtain ⟨q₂, hq₂, h⟩ := h
    obtain ⟨l₁, l₂, r', hsplit, rfl, hall⟩ := replay_place hq₂ hmid
    rw [replay_cons, Option.bind_eq_some_iff] at h
    obtain ⟨q₃, hq₃, -⟩ := h
    have hl₂ : l₂ = [] := by
      cases l₂ with
      | nil => rfl
      | cons b l₂ =>
        simp only [QueueEvent.apply, List.cons_append] at hq₃
        split at hq₃
        next hab => exact (hnew (by rw [hsplit, hab]; simp)).elim
        next => cases hq₃
    intro b hb
    rw [hsplit, hl₂, List.append_nil] at hb
    exact hall b hb

end History

end Secmem
