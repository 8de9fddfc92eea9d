import Secmem.Framework.Utf8
import Mathlib.Tactic

/-!
# Byte strings

Searching, trimming and comparing byte strings as Go's `bytes` package does, and the
big-endian words that length-prefixed formats are made of.

`cut` finds the first occurrence of a separator, so what it is used with in a proof is
`cut_append`: in a text whose first part does not contain the separator's first byte, that
occurrence is the one after the first part.
-/

namespace Secmem.ByteStrings

/-- The bytes of a string literal. -/
def ascii (s : String) : Bytes := s.toByteArray.data.toList

/-! ## Searching -/

/-- What stands before and after the first occurrence of `sep`. -/
def cut (sep : Bytes) : Bytes → Option (Bytes × Bytes)
  | [] => if sep = [] then some ([], []) else none
  | b :: s =>
    if sep.isPrefixOf (b :: s) = true then some ([], (b :: s).drop sep.length)
    else (cut sep s).map fun x => (b :: x.1, x.2)

/-- Whether `sep` occurs at all: `bytes.Contains`. -/
def contains (s sep : Bytes) : Bool := (cut sep s).isSome

lemma isPrefixOf_append (p s : Bytes) : p.isPrefixOf (p ++ s) = true := by
  rw [List.isPrefixOf_iff_prefix]
  exact List.prefix_append p s

lemma cut_append {c : UInt8} {sep s : Bytes} (r : Bytes) (hs : c ∉ s) :
    cut (c :: sep) (s ++ (c :: sep) ++ r) = some (s, r) := by
  induction s with
  | nil =>
    rw [List.nil_append, List.cons_append, cut, if_pos]
    · simp
    · exact isPrefixOf_append (c :: sep) r
  | cons b s ih =>
    have hb : ¬ c = b := fun h => hs (h ▸ List.mem_cons_self)
    have hrest := ih fun h => hs (List.mem_cons_of_mem b h)
    rw [List.cons_append, List.cons_append, cut, if_neg, hrest]
    · rfl
    · simp [List.isPrefixOf, hb]

lemma cut_of_head {c : UInt8} {sep s : Bytes} (hc : sep.head? = some c) (hs : c ∉ s) (r : Bytes) :
    cut sep (s ++ (sep ++ r)) = some (s, r) := by
  cases sep with
  | nil => cases hc
  | cons d sep =>
    obtain rfl : d = c := Option.some.inj hc
    rw [← List.append_assoc]
    exact cut_append r hs

lemma cut_eq_none {c : UInt8} {s : Bytes} (hs : c ∉ s) : cut [c] s = none := by
  induction s with
  | nil => rfl
  | cons b s ih =>
    have hb : ¬ c = b := fun h => hs (h ▸ List.mem_cons_self)
    rw [cut, ih fun h => hs (List.mem_cons_of_mem b h), if_neg (by simp [List.isPrefixOf, hb])]
    rfl

/-! ## Trimming -/

/-- The encodings of the runes `unicode.IsSpace` holds of. -/
def whiteSpace : List Bytes :=
  ([9, 10, 11, 12, 13, 0x20, 0x85, 0xA0, 0x1680] ++ (List.range 11).map (0x2000 + ·) ++
    [0x2028, 0x2029, 0x202F, 0x205F, 0x3000]).map Utf8.encodeRune

/-- Removes from the front what `spaces` lists, at most `fuel` times. -/
def strip (spaces : List Bytes) : ℕ → Bytes → Bytes
  | 0, s => s
  | fuel + 1, s =>
    match spaces.find? (·.isPrefixOf s) with
    | none => s
    | some p => strip spaces fuel (s.drop p.length)

/-- `bytes.TrimSpace`. A rune of white space is at the end of a text exactly where its
encoding is a suffix of it, so the end is trimmed as the front of the reverse. -/
def trimSpace (s : Bytes) : Bytes :=
  let front := strip whiteSpace s.length s
  (strip (whiteSpace.map List.reverse) front.length front.reverse).reverse

/-- `bytes.TrimRight(s, "\r")`. -/
def trimCR (s : Bytes) : Bytes := (s.reverse.dropWhile (· == 13)).reverse

/-- `bytes.EqualFold` with an ASCII text: letters match in either case, and `k` and `s` have
one more rune each that folds to them. -/
def equalFold : Bytes → Bytes → Bool
  | [], [] => true
  | b :: s, c :: t =>
    if lower b = lower c then equalFold s t
    else match b, s with
      | 0xE2, 0x84 :: 0xAA :: s => lower c = 107 && equalFold s t
      | 0xC5, 0xBF :: s => lower c = 115 && equalFold s t
      | _, _ => false
  | _, _ => false
where
  lower (b : UInt8) : UInt8 := if 65 ≤ b ∧ b ≤ 90 then b + 32 else b

/-- A byte that no white space begins or ends with. -/
def solid (b : UInt8) : Bool :=
  whiteSpace.all fun p => p.head? != some b && p.reverse.head? != some b

lemma strip_solid {spaces : List Bytes} {b : UInt8} {s : Bytes} (fuel : ℕ)
    (h : ∀ p ∈ spaces, p ≠ [] ∧ p.head? ≠ some b) : strip spaces fuel (b :: s) = b :: s := by
  cases fuel with
  | zero => rfl
  | succ fuel =>
    have hnone : spaces.find? (·.isPrefixOf (b :: s)) = none := by
      rw [List.find?_eq_none]
      intro p hp hpre
      obtain ⟨hne, hhead⟩ := h p hp
      cases p with
      | nil => exact hne rfl
      | cons c p =>
        have hcb : c = b := by
          simp only [List.isPrefixOf, Bool.and_eq_true, beq_iff_eq] at hpre
          exact hpre.1
        exact hhead (by rw [hcb]; rfl)
    simp only [strip, hnone]

lemma whiteSpace_ne_nil : ∀ p ∈ whiteSpace, p ≠ [] := by decide

lemma solid_head {b : UInt8} (h : solid b = true) :
    ∀ p ∈ whiteSpace, p ≠ [] ∧ p.head? ≠ some b := by
  intro p hp
  have hb := List.all_eq_true.mp h p hp
  simp only [Bool.and_eq_true, bne_iff_ne] at hb
  exact ⟨whiteSpace_ne_nil p hp, hb.1⟩

lemma solid_last {b : UInt8} (h : solid b = true) :
    ∀ p ∈ whiteSpace.map List.reverse, p ≠ [] ∧ p.head? ≠ some b := by
  intro p hp
  obtain ⟨q, hq, rfl⟩ := List.mem_map.mp hp
  have hb := List.all_eq_true.mp h q hq
  simp only [Bool.and_eq_true, bne_iff_ne] at hb
  refine ⟨?_, hb.2⟩
  rw [Ne, List.reverse_eq_nil_iff]
  exact whiteSpace_ne_nil q hq

/-- A text between solid bytes loses the newline after it, and no more. -/
lemma trimSpace_newline {b c : UInt8} {s s' : Bytes} (hs : b :: s = s' ++ [c])
    (hb : solid b = true) (hc : solid c = true) : trimSpace (b :: s ++ [10]) = b :: s := by
  have hfront : strip whiteSpace (b :: s ++ [10]).length (b :: s ++ [10]) = b :: s ++ [10] :=
    strip_solid _ (solid_head hb)
  have hback : ∀ fuel, strip (whiteSpace.map List.reverse) fuel (b :: s).reverse =
      (b :: s).reverse := by
    intro fuel
    rw [hs, List.reverse_append]
    exact strip_solid fuel (solid_last hc)
  have hnewline : (whiteSpace.map List.reverse).find? (·.isPrefixOf (10 :: (b :: s).reverse)) =
      some [10] := by
    simp [whiteSpace, Utf8.encodeRune, List.isPrefixOf]
  have hend : strip (whiteSpace.map List.reverse) ((b :: s).length + 1)
      (10 :: (b :: s).reverse) = (b :: s).reverse := by
    rw [strip, hnewline]
    exact hback _
  simp only [trimSpace]
  rw [hfront, List.length_append, List.reverse_append, List.length_singleton,
    List.reverse_singleton, List.singleton_append, hend, List.reverse_reverse]

lemma mem_of_mem_trimCR {c : UInt8} {s : Bytes} (h : c ∈ trimCR s) : c ∈ s := by
  rw [trimCR, List.mem_reverse] at h
  exact List.mem_reverse.mp ((List.dropWhile_sublist _).subset h)

/-! ## Big-endian words -/

/-- The four bytes of a word, most significant first. -/
def putUint32 (n : ℕ) : Bytes :=
  [UInt8.ofNat (n / 2 ^ 24), UInt8.ofNat (n / 2 ^ 16), UInt8.ofNat (n / 2 ^ 8), UInt8.ofNat n]

/-- Reads a word off the front. -/
def uint32 : Bytes → Option (ℕ × Bytes)
  | a :: b :: c :: d :: s =>
    some (a.toNat * 2 ^ 24 + b.toNat * 2 ^ 16 + c.toNat * 2 ^ 8 + d.toNat, s)
  | _ => none

@[simp] lemma length_putUint32 (n : ℕ) : (putUint32 n).length = 4 := rfl

lemma uint32_putUint32 {n : ℕ} (hn : n < 2 ^ 32) (s : Bytes) :
    uint32 (putUint32 n ++ s) = some (n, s) := by
  simp only [putUint32, List.cons_append, List.nil_append, uint32, UInt8.toNat_ofNat']
  congr 2
  omega

/-- The exclusive or of two byte strings, as long as the shorter. -/
def xor (s t : Bytes) : Bytes := List.zipWith (· ^^^ ·) s t

lemma xor_xor_cancel {s t : Bytes} (h : s.length ≤ t.length) : xor (xor s t) t = s := by
  induction s generalizing t with
  | nil => simp [xor]
  | cons a s ih =>
    cases t with
    | nil => simp at h
    | cons b t =>
      have hrest : xor (xor s t) t = s := ih (by simpa using h)
      simp only [xor, List.zipWith_cons_cons, UInt8.xor_assoc, UInt8.xor_self, UInt8.xor_zero,
        List.cons.injEq, true_and] at hrest ⊢
      exact hrest

@[simp] lemma length_xor (s t : Bytes) : (xor s t).length = min s.length t.length := by
  simp [xor]

end Secmem.ByteStrings
