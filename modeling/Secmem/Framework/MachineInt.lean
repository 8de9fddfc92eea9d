import Mathlib.Data.BitVec
import Mathlib.Tactic.Lemma
import Mathlib.Tactic.Positivity

/-!
# Signed machine words

A signed integer type of `w` bits is `BitVec w` read by `BitVec.toInt`; its operations wrap.
`Fits w x` says that the integer `x` has a word of that width, and an operation whose exact
result fits computes it.
-/

namespace Secmem.MachineInt

variable {w : ℕ}

/-- The integers a signed word of `w` bits can hold. -/
def Fits (w : ℕ) (x : ℤ) : Prop := -2 ^ (w - 1) ≤ x ∧ x < 2 ^ (w - 1)

instance (w : ℕ) (x : ℤ) : Decidable (Fits w x) := inferInstanceAs (Decidable (_ ∧ _))

/-- Every word holds an integer that fits. -/
lemma fits_toInt (x : BitVec w) : Fits w x.toInt := ⟨x.le_toInt, BitVec.toInt_lt⟩

/-- What lies between two integers that fit, fits. -/
lemma Fits.between {a b x : ℤ} (ha : Fits w a) (hb : Fits w b) (h₁ : a ≤ x) (h₂ : x ≤ b) :
    Fits w x :=
  ⟨ha.1.trans h₁, h₂.trans_lt hb.2⟩

lemma fits_of_nonneg {x : ℤ} (h₁ : 0 ≤ x) (h₂ : x < 2 ^ (w - 1)) : Fits w x :=
  ⟨(neg_nonpos.mpr (by positivity)).trans h₁, h₂⟩

lemma fits_zero : Fits w 0 :=
  fits_of_nonneg le_rfl (by positivity)

/-- An integer between zero and one that fits. -/
lemma Fits.of_nonneg {b x : ℤ} (hb : Fits w b) (h₁ : 0 ≤ x) (h₂ : x ≤ b) : Fits w x :=
  fits_zero.between hb h₁ h₂

lemma bmod_of_fits (hw : 0 < w) {x : ℤ} (h : Fits w x) : x.bmod (2 ^ w) = x := by
  obtain ⟨v, rfl⟩ : ∃ v, w = v + 1 := ⟨w - 1, by omega⟩
  obtain ⟨hlo, hhi⟩ := h
  simp only [Nat.add_sub_cancel] at hlo hhi
  refine Int.bmod_eq_of_le_mul_two ?_ ?_ <;>
    · push_cast
      rw [pow_succ]
      omega

section Operations

variable (hw : 0 < w) {x y : BitVec w} {a b : ℤ}
include hw

lemma toInt_add_of_fits (hx : x.toInt = a) (hy : y.toInt = b) (h : Fits w (a + b)) :
    (x + y).toInt = a + b := by
  rw [BitVec.toInt_add, hx, hy, bmod_of_fits hw h]

lemma toInt_sub_of_fits (hx : x.toInt = a) (hy : y.toInt = b) (h : Fits w (a - b)) :
    (x - y).toInt = a - b := by
  rw [BitVec.toInt_sub, hx, hy, bmod_of_fits hw h]

lemma toInt_mul_of_fits (hx : x.toInt = a) (hy : y.toInt = b) (h : Fits w (a * b)) :
    (x * y).toInt = a * b := by
  rw [BitVec.toInt_mul, hx, hy, bmod_of_fits hw h]

/-- A quotient of non-negative words is the one of their integers. -/
lemma toInt_sdiv_of_nonneg (hx : x.toInt = a) (hy : y.toInt = b) (ha : 0 ≤ a) (hb : 0 ≤ b) :
    (x.sdiv y).toInt = a / b := by
  have hle : a / b ≤ a := Int.ediv_le_self _ ha
  have hnn : 0 ≤ a / b := Int.ediv_nonneg ha hb
  have hfits : Fits w a := hx ▸ fits_toInt x
  rw [BitVec.toInt_sdiv, hx, hy, Int.tdiv_eq_ediv_of_nonneg ha,
    bmod_of_fits hw (hfits.of_nonneg hnn hle)]

lemma toInt_ofNat_of_fits {n : ℕ} (h : Fits w n) : (BitVec.ofNat w n).toInt = n := by
  rw [BitVec.toInt_ofNat', bmod_of_fits hw h]

end Operations

/-- A word that is not negative is the same read unsigned. -/
lemma toNat_of_nonneg {x : BitVec w} (hx : 0 ≤ x.toInt) : (x.toNat : ℤ) = x.toInt := by
  rw [BitVec.toInt_eq_toNat_cond] at hx ⊢
  split at hx
  · rw [if_pos ‹_›]
  · have := x.isLt
    omega

/-- A narrowing conversion keeps a value that the narrow type can hold. -/
lemma toInt_setWidth_of_fits {v : ℕ} (hv : 0 < v) {x : BitVec w} {a : ℤ} (hx : x.toInt = a)
    (ha : 0 ≤ a) (h : Fits v a) : (x.setWidth v).toInt = a := by
  subst hx
  rw [BitVec.toInt_setWidth, toNat_of_nonneg ha, bmod_of_fits hv h]

/-! ## Words of at least 32 bits -/

section Wide

variable (hw : 32 ≤ w)
include hw

lemma pow_thirtyOne_le : (2 ^ 31 : ℤ) ≤ 2 ^ (w - 1) :=
  pow_le_pow_right₀ (by decide) (by omega)

lemma fits_of_lt {x : ℤ} (h₁ : 0 ≤ x) (h₂ : x < 2 ^ 31) : Fits w x :=
  fits_of_nonneg h₁ (h₂.trans_le (pow_thirtyOne_le hw))

lemma toInt_word (n : ℕ) (h : (n : ℤ) < 2 ^ 31) : (BitVec.ofNat w n).toInt = n :=
  toInt_ofNat_of_fits (by omega) (fits_of_lt hw (Int.natCast_nonneg n) h)

end Wide

/-- The larger of two words. -/
def wordMax (x y : BitVec w) : BitVec w := if x.slt y then y else x

/-- The word holds a natural number. -/
def Holds (x : BitVec w) (n : ℕ) : Prop := x.toInt = n

namespace Holds

variable {x y : BitVec w} {a b : ℕ}

lemma word (hw : 32 ≤ w) (h : a < 2 ^ 31) : Holds (BitVec.ofNat w a) a :=
  toInt_word hw a (by exact_mod_cast h)

lemma add (hw : 32 ≤ w) (hx : Holds x a) (hy : Holds y b) (h : a + b < 2 ^ 31) :
    Holds (x + y) (a + b) := by
  rw [Holds, Nat.cast_add]
  exact toInt_add_of_fits (by omega) hx hy (fits_of_lt hw (by positivity) (by exact_mod_cast h))

lemma mul (hw : 32 ≤ w) (hx : Holds x a) (hy : Holds y b) (h : a * b < 2 ^ 31) :
    Holds (x * y) (a * b) := by
  rw [Holds, Nat.cast_mul]
  exact toInt_mul_of_fits (by omega) hx hy (fits_of_lt hw (by positivity) (by exact_mod_cast h))

lemma max (hx : Holds x a) (hy : Holds y b) : Holds (wordMax x y) (max a b) := by
  have hx' : x.toInt = a := hx
  have hy' : y.toInt = b := hy
  rw [wordMax, BitVec.slt_eq_decide, hx', hy']
  by_cases hlt : a < b
  · rw [if_pos (by simpa using hlt), max_eq_right hlt.le]
    exact hy
  · rw [if_neg (by simpa using hlt), max_eq_left (Nat.not_lt.mp hlt)]
    exact hx

end Holds

end Secmem.MachineInt
