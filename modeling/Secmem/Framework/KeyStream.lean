import Secmem.Framework.ByteStrings
import Mathlib.Data.List.GetD

/-!
# Key streams

A stream cipher combines its input with the bytes of successive blocks.  `keystream` gives those
bytes by position, and `keystream_block` says how code that works block by block goes through them.
-/

namespace Secmem

open ByteStrings

/-- The `n` bytes of the stream that begins with block `k`, for blocks of `size` bytes. -/
def keystream (size : ℕ) (block : ℕ → Bytes) (k n : ℕ) : Bytes :=
  (List.range n).map fun i => (block (k + i / size)).getD (i % size) 0

variable {size k n : ℕ} {block : ℕ → Bytes}

@[simp] lemma length_keystream : (keystream size block k n).length = n := by
  simp [keystream]

@[simp] lemma keystream_zero : keystream size block k 0 = [] := rfl

lemma getD_keystream {i : ℕ} (hi : i < n) :
    (keystream size block k n).getD i 0 = (block (k + i / size)).getD (i % size) 0 := by
  simp [keystream, hi]

/-- The stream up to the end of a block, or up to its own end within the block, and the rest. -/
lemma keystream_block (block : ℕ → Bytes) (k : ℕ) (hlen : (block k).length = size)
    (hpos : 0 < size) :
    keystream size block k n =
      (block k).take (min n size) ++ keystream size block (k + 1) (n - min n size) := by
  refine List.ext_getElem ?_ fun i hi hi' => ?_
  · simp [hlen]
  · rw [length_keystream] at hi
    rw [← List.getD_eq_getElem _ 0, ← List.getD_eq_getElem _ 0, getD_keystream hi]
    rcases Nat.lt_or_ge i (min n size) with h | h
    · rw [List.getD_append _ _ _ _ (by simp [hlen]; omega), Nat.div_eq_of_lt (by omega),
        Nat.mod_eq_of_lt (by omega)]
      simp [List.getD_eq_getElem?_getD, h]
    · have hsize : min n size = size := by omega
      rw [hsize] at h
      obtain ⟨j, rfl⟩ := Nat.exists_eq_add_of_le h
      have hmin : min n size = size := hsize
      rw [List.getD_append_right _ _ _ _ (by simp [hlen, hmin]), List.length_take, hlen, hmin,
        min_self, Nat.add_sub_cancel_left, getD_keystream (by omega), Nat.add_mod_left,
        Nat.add_div_left _ hpos]
      congr 2
      omega

/-- The stream is the blocks one after the other, up to its length. -/
lemma take_flatMap_block {count : ℕ} (hlen : ∀ i < count, (block (k + i)).length = size)
    (hpos : 0 < size) (hn : n ≤ count * size) :
    ((List.range' k count).flatMap block).take n = keystream size block k n := by
  induction count generalizing k n with
  | zero =>
    obtain rfl : n = 0 := by omega
    simp
  | succ count ih =>
    have hfirst : (block k).length = size := hlen 0 (by omega)
    have hrest : ∀ i < count, (block (k + 1 + i)).length = size := fun i hi => by
      rw [Nat.add_assoc, Nat.add_comm 1 i]
      exact hlen (i + 1) (by omega)
    rw [List.range'_succ, List.flatMap_cons, List.take_append, keystream_block block k hfirst hpos,
      hfirst, ih hrest (by rw [Nat.succ_mul] at hn; omega)]
    rcases Nat.le_total n size with h | h
    · rw [Nat.min_eq_left h, Nat.sub_self, Nat.sub_eq_zero_of_le h]
    · rw [Nat.min_eq_right h, List.take_of_length_le (hfirst.trans_le h),
        List.take_of_length_le hfirst.le]

/-- Combining an input with the stream, a block at a time. -/
lemma xor_keystream_block (block : ℕ → Bytes) (k : ℕ) {s : Bytes} (hs : s.length = n)
    (hlen : (block k).length = size) (hpos : 0 < size) : xor s (keystream size block k n) =
      xor (s.take (min n size)) ((block k).take (min n size)) ++
        xor (s.drop (min n size)) (keystream size block (k + 1) (n - min n size)) := by
  conv_lhs => rw [← List.take_append_drop (min n size) s, keystream_block block k hlen hpos]
  exact List.zipWith_append (by simp [hs, hlen])

/-- Combining with the stream twice gives the input back. -/
lemma xor_keystream_xor_keystream (s : Bytes) (h : s.length = n) :
    xor (xor s (keystream size block k n)) (keystream size block k n) = s :=
  xor_xor_cancel (by rw [length_keystream, h])

end Secmem
