import Secmem.Framework.Der

/-!
# Slices of an array

A Go slice is a place in an array, a length and a capacity.  Slicing moves the place and keeps the
end of the capacity where it was, so that the place of a slice within the one it was taken from can
be recovered from the two capacities.  `Within` says that one slice was obtained from another in
this way.

The cursor of `Der` reads slices without copying them: `readASN1Slice` is `readASN1` with the
places of what was read, and `readASN1Slice_cases` says that the two agree.
-/

namespace Secmem

/-- A slice of the array `mem`. -/
structure Slice {α : Type} (mem : List α) where
  off : ℕ
  len : ℕ
  cap : ℕ
  len_le : len ≤ cap
  cap_le : off + cap ≤ mem.length

namespace Slice

variable {α : Type} {mem : List α}

/-- What the slice shows of the array. -/
def elems (s : Slice mem) : List α := (mem.drop s.off).take s.len

/-- The whole array. -/
def whole (mem : List α) : Slice mem := ⟨0, mem.length, mem.length, le_rfl, by rw [Nat.zero_add]⟩

@[simp] lemma elems_whole (mem : List α) : (whole mem).elems = mem := by
  rw [elems, whole, List.drop_zero, List.take_length]

/-- `s[i:j]`. -/
def sub (s : Slice mem) (i j : ℕ) (hij : i ≤ j) (hj : j ≤ s.len) : Slice mem where
  off := s.off + i
  len := j - i
  cap := s.cap - i
  len_le := by
    have := s.len_le
    omega
  cap_le := by
    have := s.len_le
    have := s.cap_le
    omega

@[simp] lemma length_elems (s : Slice mem) : s.elems.length = s.len := by
  have := s.len_le
  have := s.cap_le
  rw [elems, List.length_take, List.length_drop]
  omega

lemma len_ne_zero {s : Slice mem} (h : s.elems ≠ []) : s.len ≠ 0 := by
  rw [← s.length_elems, ne_eq, List.length_eq_zero_iff]
  exact h

lemma elems_sub (s : Slice mem) {i j : ℕ} (hij : i ≤ j) (hj : j ≤ s.len) :
    (s.sub i j hij hj).elems = (s.elems.drop i).take (j - i) := by
  rw [elems, elems, List.drop_take, List.drop_drop, List.take_take, sub,
    min_eq_left (Nat.sub_le_sub_right hj i)]

/-- `inner` was obtained by slicing `outer`. -/
def Within (inner outer : Slice mem) : Prop :=
  ∃ i, inner.off = outer.off + i ∧ inner.cap + i = outer.cap ∧ i + inner.len ≤ outer.len

lemma Within.refl (s : Slice mem) : s.Within s := ⟨0, rfl, rfl, by omega⟩

lemma Within.trans {a b c : Slice mem} (h : a.Within b) (h' : b.Within c) : a.Within c := by
  obtain ⟨i, hoff, hcap, hlen⟩ := h
  obtain ⟨j, hoff', hcap', hlen'⟩ := h'
  exact ⟨i + j, by omega, by omega, by omega⟩

lemma within_sub (s : Slice mem) {i j : ℕ} (hij : i ≤ j) (hj : j ≤ s.len) :
    (s.sub i j hij hj).Within s := by
  have hlen := s.len_le
  refine ⟨i, rfl, ?_, ?_⟩
  · change s.cap - i + i = s.cap
    omega
  · change i + (j - i) ≤ s.len
    omega

/-- Where `inner` starts in `outer`, from their capacities; the addresses are compared besides. -/
def offsetIn (outer inner : Slice mem) : Option ℕ :=
  if inner.len = 0 ∨ outer.cap < inner.cap ∨ outer.len < outer.cap - inner.cap + inner.len ∨
      outer.off + (outer.cap - inner.cap) ≠ inner.off then none
  else some (outer.cap - inner.cap)

/-- A slice that is not empty is found where it was taken. -/
lemma offsetIn_of_within {inner outer : Slice mem} (h : inner.Within outer) (hne : inner.len ≠ 0) :
    ∃ i, offsetIn outer inner = some i ∧ i + inner.len ≤ outer.len ∧
      (outer.elems.drop i).take inner.len = inner.elems := by
  obtain ⟨i, hoff, hcap, hlen⟩ := h
  have hi : outer.cap - inner.cap = i := by omega
  refine ⟨i, ?_, hlen, ?_⟩
  · rw [offsetIn, hi, if_neg]
    omega
  · rw [elems, elems, List.drop_take, List.drop_drop, List.take_take, hoff,
      min_eq_left (by omega)]

end Slice

namespace Der

variable [Cryptobyte] {mem : Bytes}

/-- `ReadASN1` on a slice: the contents and what is left are slices of it. -/
def readASN1Slice (tag : Tag) (s : Slice mem) : Option (Slice mem × Slice mem) :=
  match readASN1 tag s.elems with
  | none => none
  | some (c, rest) =>
    let total := s.len - rest.length
    some (s.sub (total - c.length) total (Nat.sub_le _ _) (Nat.sub_le _ _),
      s.sub total s.len (Nat.sub_le _ _) le_rfl)

lemma readASN1_split {tag : Tag} {s c rest : Bytes} (h : readASN1 tag s = some (c, rest)) :
    ∃ header, s = header ++ c ++ rest := by
  obtain ⟨e, he, rfl, rfl⟩ := readASN1_eq_some.mp h
  exact ⟨e.tag :: encodeLength e.contents.length, (readElement_iff.mp he).2.2.2⟩

/-- The cursor on a slice reads what the cursor on its contents reads. -/
lemma readASN1Slice_cases (tag : Tag) (s : Slice mem) :
    (readASN1Slice tag s = none ∧ readASN1 tag s.elems = none) ∨
      ∃ c r, readASN1Slice tag s = some (c, r) ∧
        readASN1 tag s.elems = some (c.elems, r.elems) ∧ c.Within s ∧ r.Within s := by
  unfold readASN1Slice
  cases hread : readASN1 tag s.elems with
  | none => exact .inl ⟨rfl, rfl⟩
  | some x =>
    obtain ⟨c, rest⟩ := x
    obtain ⟨header, hs⟩ := readASN1_split hread
    have hlen : header.length + c.length + rest.length = s.len := by
      rw [← s.length_elems, hs, List.length_append, List.length_append]
    refine .inr ⟨_, _, rfl, ?_, s.within_sub _ _, s.within_sub _ _⟩
    have hc : (s.elems.drop (s.len - rest.length - c.length)).take
        (s.len - rest.length - (s.len - rest.length - c.length)) = c := by
      rw [show s.len - rest.length - c.length = header.length by omega,
        show s.len - rest.length - header.length = c.length by omega, hs, List.append_assoc,
        List.drop_left, List.take_left]
    have hrest : (s.elems.drop (s.len - rest.length)).take (s.len - (s.len - rest.length)) =
        rest := by
      rw [show s.len - rest.length = (header ++ c).length by
        rw [List.length_append]; omega, hs, List.drop_left, List.take_of_length_le]
      rw [List.length_append]
      omega
    rw [Slice.elems_sub, Slice.elems_sub, hc, hrest]

end Der
end Secmem
