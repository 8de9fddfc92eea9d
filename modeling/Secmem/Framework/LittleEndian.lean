import Secmem.Framework.ByteStrings
import Mathlib.Data.Nat.Digits.Defs

/-!
# Little-endian words

Numbers as byte strings with the lowest byte first, and the 32- and 64-bit words that
`encoding/binary` reads and writes in that order.
-/

namespace Secmem.LittleEndian

/-- The lowest `width` bytes of `n`. -/
def toLE : (width n : ℕ) → Bytes
  | 0, _ => []
  | width + 1, n => UInt8.ofNat n :: toLE width (n / 256)

/-- The number a byte string stands for. -/
def ofLE : Bytes → ℕ
  | [] => 0
  | b :: s => b.toNat + 256 * ofLE s

@[simp] lemma length_toLE (width n : ℕ) : (toLE width n).length = width := by
  induction width generalizing n with
  | zero => rfl
  | succ width ih => simp [toLE, ih]

lemma ofLE_toLE (width n : ℕ) : ofLE (toLE width n) = n % 256 ^ width := by
  induction width generalizing n with
  | zero => simp [toLE, ofLE, Nat.mod_one]
  | succ width ih =>
    rw [toLE, ofLE, ih, UInt8.toNat_ofNat', pow_succ' 256 width, Nat.mod_mul]

/-- A number in two parts. -/
lemma toLE_add (width k n : ℕ) : toLE (width + k) n = toLE width n ++ toLE k (n / 256 ^ width) := by
  induction width generalizing n with
  | zero => simp [toLE]
  | succ width ih =>
    rw [Nat.succ_add, toLE, toLE, ih, List.cons_append, Nat.div_div_eq_div_mul, pow_succ']

/-- Only the lowest bytes count. -/
lemma toLE_mod (width n : ℕ) : toLE width (n % 256 ^ width) = toLE width n := by
  induction width generalizing n with
  | zero => rfl
  | succ width ih =>
    have hbyte : UInt8.ofNat (n % 256 ^ (width + 1)) = UInt8.ofNat n := by
      apply UInt8.toNat_inj.mp
      rw [UInt8.toNat_ofNat', UInt8.toNat_ofNat', pow_succ' 256 width]
      exact Nat.mod_mul_right_mod n 256 (256 ^ width)
    rw [toLE, toLE, hbyte, pow_succ' 256 width, Nat.mod_mul_right_div_self, ih]

/-! ## Words -/

/-- `binary.LittleEndian.Uint32`, of the first four bytes. -/
def word32 (s : Bytes) : UInt32 := UInt32.ofNat (ofLE (s.take 4))

/-- What `binary.LittleEndian.PutUint32` writes. -/
def putWord32 (w : UInt32) : Bytes := toLE 4 w.toNat

/-- `binary.LittleEndian.Uint64`, of the first eight bytes. -/
def word64 (s : Bytes) : UInt64 := UInt64.ofNat (ofLE (s.take 8))

/-- What `binary.LittleEndian.PutUint64` writes. -/
def putWord64 (w : UInt64) : Bytes := toLE 8 w.toNat

@[simp] lemma length_putWord32 (w : UInt32) : (putWord32 w).length = 4 := length_toLE 4 _

@[simp] lemma length_putWord64 (w : UInt64) : (putWord64 w).length = 8 := length_toLE 8 _

lemma putWord32_ofNat (n : ℕ) : putWord32 (UInt32.ofNat n) = toLE 4 n := by
  rw [putWord32, UInt32.toNat_ofNat']
  exact toLE_mod 4 n

lemma word32_toLE (n : ℕ) (s : Bytes) : word32 (toLE 4 n ++ s) = UInt32.ofNat n := by
  apply UInt32.toNat_inj.mp
  rw [word32, List.take_left' (length_toLE 4 n), ofLE_toLE, UInt32.toNat_ofNat',
    UInt32.toNat_ofNat']
  omega

/-- A word of the first part. -/
lemma word32_drop_append {s : Bytes} {k : ℕ} (h : k + 4 ≤ s.length) (t : Bytes) :
    word32 ((s ++ t).drop k) = word32 (s.drop k) := by
  rw [word32, word32, List.drop_append_of_le_length (by omega),
    List.take_append_of_le_length (by rw [List.length_drop]; omega)]

end Secmem.LittleEndian
