import Secmem.Framework.DerEncoding

/-!
# Numbers in 64-bit limbs

Little-endian vectors of machine words and the carry chains over them.  Each operation is written
as a loop over the limbs, with the shifts and masks a constant-time routine uses, and has one lemma
that says what it does to the `value` of its operands: `value_shiftIn` balances the number, the bit
taken in and the bit lost at the top, `value_subBorrow` the difference and the borrow.

Bytes go in and out at the places `i / 8` and `i % 8` of the `i`-th byte from the right.
-/

namespace Secmem.Limbs

open Der

/-- The number that limbs stand for, the least significant first. -/
def value : List UInt64 → ℕ
  | [] => 0
  | x :: xs => x.toNat + 2 ^ 64 * value xs

variable {xs ys : List UInt64} {borrow : UInt64}

lemma value_lt (xs : List UInt64) : value xs < (2 ^ 64) ^ xs.length := by
  induction xs with
  | nil => simp [value]
  | cons x xs ih =>
    have hx := x.toNat_lt
    rw [value, List.length_cons, pow_succ' (2 ^ 64)]
    omega

@[simp] lemma value_replicate_zero (n : ℕ) : value (List.replicate n 0) = 0 := by
  induction n with
  | zero => rfl
  | succ n ih => simp [List.replicate_succ, value, ih]

lemma value_take (k : ℕ) (xs : List UInt64) : value (xs.take k) = value xs % (2 ^ 64) ^ k := by
  induction k generalizing xs with
  | zero => simp [value, Nat.mod_one]
  | succ k ih =>
    cases xs with
    | nil => simp [value]
    | cons x xs =>
      have hx := x.toNat_lt
      have hlow : (x.toNat + 2 ^ 64 * value xs) % 2 ^ 64 = x.toNat := by omega
      have hhigh : (x.toNat + 2 ^ 64 * value xs) / 2 ^ 64 = value xs := by omega
      rw [List.take_succ_cons, value, value, ih, pow_succ' (2 ^ 64), Nat.mod_mul, hlow, hhigh]

/-- All the limbs or-ed together: zero only for the number zero. -/
lemma foldl_or_eq_zero (acc : UInt64) :
    xs.foldl (fun acc x => acc ||| x) acc = 0 ↔ acc = 0 ∧ value xs = 0 := by
  induction xs generalizing acc with
  | nil => simp [value]
  | cons x xs ih =>
    have hx : x = 0 ↔ x.toNat = 0 := by rw [← UInt64.toNat_inj, UInt64.toNat_zero]
    rw [List.foldl_cons, ih, UInt64.or_eq_zero_iff, value, hx, Nat.add_eq_zero_iff,
      Nat.mul_eq_zero, and_assoc]
    simp

/-! ## Doubling -/

/-- Twice the number and a bit: `x<<1 | carry` in each limb, and `x>>63` carried to the next. -/
def shiftIn (carry : UInt64) : List UInt64 → List UInt64
  | [] => []
  | x :: xs => (x <<< 1 ||| carry) :: shiftIn (x >>> 63) xs

@[simp] lemma length_shiftIn (carry : UInt64) (xs : List UInt64) :
    (shiftIn carry xs).length = xs.length := by
  induction xs generalizing carry with
  | nil => rfl
  | cons x xs ih => simp [shiftIn, ih]

lemma toNat_shiftRight_63 (x : UInt64) : (x >>> 63).toNat = x.toNat / 2 ^ 63 := by
  rw [UInt64.toNat_shiftRight, Nat.shiftRight_eq_div_pow]
  rfl

lemma toNat_shiftLeft_or {x carry : UInt64} (h : carry.toNat ≤ 1) :
    (x <<< 1 ||| carry).toNat = 2 * x.toNat % 2 ^ 64 + carry.toNat := by
  have hx := x.toNat_lt
  have hshift : (x <<< 1).toNat = (x.toNat % 2 ^ 63) <<< 1 := by
    rw [UInt64.toNat_shiftLeft, Nat.shiftLeft_eq, Nat.shiftLeft_eq]
    simp only [UInt64.reduceToNat, Nat.reduceMod]
    omega
  rw [UInt64.toNat_or, hshift, ← Nat.shiftLeft_add_eq_or_of_lt (by omega), Nat.shiftLeft_eq]
  omega

/-- What is lost at the top is the carry out. -/
lemma value_shiftIn {carry : UInt64} (h : carry.toNat ≤ 1) (xs : List UInt64) :
    value (shiftIn carry xs) = (2 * value xs + carry.toNat) % (2 ^ 64) ^ xs.length := by
  induction xs generalizing carry with
  | nil => simp [shiftIn, value, Nat.mod_one]
  | cons x xs ih =>
    have hx := x.toNat_lt
    have hout : (x >>> 63).toNat ≤ 1 := by
      rw [toNat_shiftRight_63]
      omega
    have hlow : (2 * (x.toNat + 2 ^ 64 * value xs) + carry.toNat) % 2 ^ 64 =
        2 * x.toNat % 2 ^ 64 + carry.toNat := by omega
    have hhigh : (2 * (x.toNat + 2 ^ 64 * value xs) + carry.toNat) / 2 ^ 64 =
        2 * value xs + x.toNat / 2 ^ 63 := by omega
    rw [shiftIn, value, value, ih hout, toNat_shiftLeft_or h, toNat_shiftRight_63,
      List.length_cons, pow_succ' (2 ^ 64), Nat.mod_mul (a := 2 ^ 64),
      hlow, hhigh]

/-! ## Subtracting -/

/-- `bits.Sub64`, as its documentation has it. -/
def sub64 (x y borrow : UInt64) : UInt64 × UInt64 :=
  (x - y - borrow, if x.toNat < y.toNat + borrow.toNat then 1 else 0)

/-- The difference limb by limb, and the last borrow. -/
def subBorrow (borrow : UInt64) : List UInt64 → List UInt64 → List UInt64 × UInt64
  | x :: xs, y :: ys =>
    let d := sub64 x y borrow
    let r := subBorrow d.2 xs ys
    (d.1 :: r.1, r.2)
  | _, _ => ([], borrow)

lemma toNat_sub64_snd_le (x y borrow : UInt64) : (sub64 x y borrow).2.toNat ≤ 1 := by
  simp only [sub64]
  split <;> simp

lemma sub64_balance {x y borrow : UInt64} (h : borrow.toNat ≤ 1) :
    (sub64 x y borrow).1.toNat + y.toNat + borrow.toNat =
      x.toNat + 2 ^ 64 * (sub64 x y borrow).2.toNat := by
  have hx := x.toNat_lt
  have hy := y.toNat_lt
  have hdiff : (x - y - borrow).toNat =
      (x.toNat + 2 ^ 64 * 2 - y.toNat - borrow.toNat) % 2 ^ 64 := by
    rw [UInt64.toNat_sub, UInt64.toNat_sub]
    omega
  simp only [sub64, hdiff]
  split
  · rw [UInt64.toNat_one]
    omega
  · rw [UInt64.toNat_zero]
    omega

lemma length_subBorrow (h : xs.length = ys.length) :
    (subBorrow borrow xs ys).1.length = xs.length := by
  induction xs generalizing ys borrow with
  | nil => rfl
  | cons x xs ih =>
    cases ys with
    | nil => cases h
    | cons y ys =>
      simp only [List.length_cons, Nat.add_right_cancel_iff] at h
      simp [subBorrow, ih h]

lemma toNat_subBorrow_snd_le (h : borrow.toNat ≤ 1) (xs ys : List UInt64) :
    (subBorrow borrow xs ys).2.toNat ≤ 1 := by
  induction xs generalizing ys borrow with
  | nil => exact h
  | cons x xs ih =>
    cases ys with
    | nil => exact h
    | cons y ys => exact ih (toNat_sub64_snd_le x y borrow) ys

lemma value_subBorrow (h : borrow.toNat ≤ 1) (hlen : xs.length = ys.length) :
    value (subBorrow borrow xs ys).1 + value ys + borrow.toNat =
      value xs + (2 ^ 64) ^ xs.length * (subBorrow borrow xs ys).2.toNat := by
  induction xs generalizing ys borrow with
  | nil =>
    cases ys with
    | nil => simp [subBorrow, value]
    | cons y ys => cases hlen
  | cons x xs ih =>
    cases ys with
    | nil => cases hlen
    | cons y ys =>
      simp only [List.length_cons, Nat.add_right_cancel_iff] at hlen
      have hlimb := sub64_balance (x := x) (y := y) h
      have hrest := ih (toNat_sub64_snd_le x y borrow) hlen
      rw [List.length_cons, pow_succ' (2 ^ 64), Nat.mul_assoc]
      simp only [subBorrow, value]
      generalize (2 ^ 64) ^ xs.length * _ = lost at hrest ⊢
      omega

/-! ## Choosing -/

/-- `t&mask | r&^mask` in each limb. -/
def select (mask : UInt64) (ts rs : List UInt64) : List UInt64 :=
  List.zipWith (fun t r => t &&& mask ||| r &&& ~~~mask) ts rs

/-- No borrow makes the mask all ones, and a borrow makes it zero. -/
lemma select_borrow (h : borrow.toNat ≤ 1) (hlen : xs.length = ys.length) :
    select (borrow - 1) xs ys = if borrow = 0 then xs else ys := by
  have hmask {m : UInt64} {zs : List UInt64}
      (hm : ∀ x y : UInt64, (x &&& m ||| y &&& ~~~m) = if borrow = 0 then x else y)
      (hzs : zs = if borrow = 0 then xs else ys) : select m xs ys = zs := by
    rw [hzs, select]
    refine List.ext_getElem (by split <;> simp [hlen]) fun i h₁ h₂ => ?_
    rw [List.getElem_zipWith, hm]
    split <;> rfl
  rcases Nat.le_one_iff_eq_zero_or_eq_one.mp h with h0 | h1
  · obtain rfl : borrow = 0 := UInt64.toNat_inj.mp h0
    refine hmask (fun x y => ?_) rfl
    rw [show (0 : UInt64) - 1 = -1 from rfl, UInt64.and_neg_one, UInt64.not_neg_one,
      UInt64.and_zero, UInt64.or_zero, if_pos rfl]
  · obtain rfl : borrow = 1 := UInt64.toNat_inj.mp h1
    refine hmask (fun x y => ?_) rfl
    simp

/-! ## Bytes -/

/-- Ors a byte into its place, the `i`-th from the right. -/
def orByte (w : List UInt64) (i : ℕ) (v : UInt8) : List UInt64 :=
  w.modify (i / 8) fun x => x ||| v.toUInt64 <<< UInt64.ofNat (8 * (i % 8))

/-- A big-endian magnitude in `width` limbs. -/
def loadBE (width : ℕ) (b : Bytes) : List UInt64 :=
  b.reverse.zipIdx.foldl (fun w x => orByte w x.2 x.1) (List.replicate width 0)

/-- The low `n` bytes of the limbs, most significant first. -/
def storeBE (n : ℕ) (w : List UInt64) : Bytes :=
  ((List.range n).map fun i =>
    (w.getD (i / 8) 0 >>> UInt64.ofNat (8 * (i % 8))).toUInt8).reverse

@[simp] lemma length_orByte (w : List UInt64) (i : ℕ) (v : UInt8) :
    (orByte w i v).length = w.length := List.length_modify ..

lemma toNat_or_byte {x : UInt64} {v : UInt8} {i : ℕ} (hi : i < 8) (hx : x.toNat < 256 ^ i) :
    (x ||| v.toUInt64 <<< UInt64.ofNat (8 * i)).toNat = x.toNat + v.toNat * 256 ^ i := by
  have hv := v.toNat_lt
  have hpow : (256 : ℕ) ^ i = 2 ^ (8 * i) := by
    rw [pow_mul]
    rfl
  have hfits : v.toNat * 2 ^ (8 * i) < 2 ^ 64 := by
    calc v.toNat * 2 ^ (8 * i) < 2 ^ 8 * 2 ^ (8 * i) := by
          exact Nat.mul_lt_mul_of_pos_right hv (by positivity)
      _ = 2 ^ (8 + 8 * i) := by rw [pow_add]
      _ ≤ 2 ^ 64 := Nat.pow_le_pow_right (by decide) (by omega)
  have hshift : (v.toUInt64 <<< UInt64.ofNat (8 * i)).toNat = v.toNat <<< (8 * i) := by
    rw [UInt64.toNat_shiftLeft, UInt64.toNat_ofNat', UInt8.toNat_toUInt64,
      show 8 * i % 2 ^ 64 % 64 = 8 * i by omega, Nat.shiftLeft_eq, Nat.mod_eq_of_lt hfits]
  rw [UInt64.toNat_or, hshift, Nat.or_comm, ← Nat.shiftLeft_add_eq_or_of_lt (hpow ▸ hx),
    Nat.shiftLeft_eq, hpow, Nat.add_comm]

/-- A byte above all the others is added at its place. -/
lemma value_orByte {w : List UInt64} {i : ℕ} (v : UInt8) (hi : i < 8 * w.length)
    (hw : value w < 256 ^ i) : value (orByte w i v) = value w + v.toNat * 256 ^ i := by
  induction w generalizing i with
  | nil => simp at hi
  | cons x w ih =>
    rw [List.length_cons] at hi
    rw [value] at hw
    by_cases hlow : i < 8
    · have hpow : (256 : ℕ) ^ i ≤ 2 ^ 64 := by
        calc (256 : ℕ) ^ i ≤ 256 ^ 8 := Nat.pow_le_pow_right (by decide) hlow.le
          _ = 2 ^ 64 := by norm_num
      have hzero : value w = 0 := by omega
      rw [orByte, Nat.div_eq_of_lt hlow, Nat.mod_eq_of_lt hlow, List.modify_zero_cons, value,
        value, toNat_or_byte hlow (by omega), hzero]
      omega
    · obtain ⟨j, rfl⟩ : ∃ j, i = j + 8 := ⟨i - 8, by omega⟩
      have hpow : (256 : ℕ) ^ (j + 8) = 2 ^ 64 * 256 ^ j := by
        rw [pow_add, Nat.mul_comm]
        norm_num
      have hrest : value w < 256 ^ j := by
        rw [hpow] at hw
        have hx : 2 ^ 64 * value w < 2 ^ 64 * 256 ^ j := by omega
        exact Nat.lt_of_mul_lt_mul_left hx
      have hstep : orByte (x :: w) (j + 8) v = x :: orByte w j v := by
        rw [orByte, orByte, show (j + 8) / 8 = j / 8 + 1 by omega,
          show (j + 8) % 8 = j % 8 by omega, List.modify_succ_cons]
      rw [hstep, value, value, ih (by omega) hrest, hpow]
      ring

lemma value_foldl_orByte (b : Bytes) {w : List UInt64} {i : ℕ} (hw : value w < 256 ^ i)
    (hfit : i + b.length ≤ 8 * w.length) :
    value ((b.zipIdx i).foldl (fun w x => orByte w x.2 x.1) w) =
      value w + unsigned b.reverse * 256 ^ i := by
  induction b generalizing w i with
  | nil => simp
  | cons v b ih =>
    have hv := v.toNat_lt
    rw [List.length_cons] at hfit
    have hone := value_orByte v (by omega) hw
    have hlt : value (orByte w i v) < 256 ^ (i + 1) := by
      rw [hone, pow_succ]
      nlinarith
    rw [List.zipIdx_cons, List.foldl_cons, ih hlt (by rw [length_orByte]; omega), hone,
      List.reverse_cons, unsigned_concat, pow_succ]
    ring

lemma length_loadBE (width : ℕ) (b : Bytes) : (loadBE width b).length = width := by
  have hkeep (l : List (UInt8 × ℕ)) (w : List UInt64) :
      (l.foldl (fun w x => orByte w x.2 x.1) w).length = w.length := by
    induction l generalizing w with
    | nil => rfl
    | cons x l ih => rw [List.foldl_cons, ih, length_orByte]
  rw [loadBE, hkeep, List.length_replicate]

/-- The limbs of a magnitude stand for its number. -/
lemma value_loadBE {width : ℕ} {b : Bytes} (h : b.length ≤ 8 * width) :
    value (loadBE width b) = unsigned b := by
  have hfold := value_foldl_orByte b.reverse (w := List.replicate width 0) (i := 0) (by simp)
    (by simpa using h)
  rw [loadBE, hfold]
  simp

lemma value_div_limb (w : List UInt64) (k : ℕ) :
    (w.getD k 0).toNat = value w / (2 ^ 64) ^ k % 2 ^ 64 := by
  induction w generalizing k with
  | nil => simp [value]
  | cons x w ih =>
    have hx := x.toNat_lt
    cases k with
    | zero =>
      rw [List.getD_cons_zero, value, pow_zero, Nat.div_one]
      omega
    | succ k =>
      have hhigh : (x.toNat + 2 ^ 64 * value w) / 2 ^ 64 = value w := by omega
      rw [List.getD_cons_succ, ih, value, pow_succ' (2 ^ 64), ← Nat.div_div_eq_div_mul, hhigh]

lemma byte_eq (w : List UInt64) (i : ℕ) :
    (w.getD (i / 8) 0 >>> UInt64.ofNat (8 * (i % 8))).toUInt8 =
      UInt8.ofNat (value w / 256 ^ i) := by
  apply UInt8.toNat_inj.mp
  have hi : (256 : ℕ) ^ i = (2 ^ 64) ^ (i / 8) * 2 ^ (8 * (i % 8)) := by
    rw [← pow_mul, ← pow_add, show (256 : ℕ) = 2 ^ 8 by norm_num, ← pow_mul]
    congr 1
    omega
  have hcut (n : ℕ) : n % 2 ^ 64 / 2 ^ (8 * (i % 8)) % 2 ^ 8 = n / 2 ^ (8 * (i % 8)) % 2 ^ 8 := by
    have hsplit : (2 : ℕ) ^ 64 = 2 ^ (8 * (i % 8)) * 2 ^ (64 - 8 * (i % 8)) := by
      rw [← pow_add]
      congr 1
      omega
    rw [hsplit, Nat.mod_mul_right_div_self, Nat.mod_mod_of_dvd]
    exact pow_dvd_pow 2 (by omega)
  rw [UInt64.toNat_toUInt8, UInt64.toNat_shiftRight, UInt64.toNat_ofNat', UInt8.toNat_ofNat',
    Nat.shiftRight_eq_div_pow, show 8 * (i % 8) % 2 ^ 64 % 64 = 8 * (i % 8) by omega,
    value_div_limb, hcut, Nat.div_div_eq_div_mul, hi]

lemma storeBE_eq (n : ℕ) (w : List UInt64) : storeBE n w = toBE n (value w) := by
  rw [storeBE, toBE_eq_map]
  congr 1
  exact List.map_congr_left fun i _ => byte_eq w i

end Secmem.Limbs
