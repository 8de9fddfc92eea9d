import Secmem.Framework.Limbs
import Secmem.Crypto.Signers

/-!
# Reduction modulo a prime less one

`modreduce.go`: the two CRT exponents that an OpenSSH file leaves out are computed by shifting the
private exponent in bit by bit and subtracting the modulus under a mask, over fixed arrays of limbs
with one limb more than the modulus needs.

`reduceMod_eq` says that this is the remainder, in as many bytes as the modulus has, for every pair
of operands within the widths the arrays are made for, and that every other pair is refused.
-/

namespace Secmem.Crypto

open Der Limbs

/-- `modReduceLimbs`. -/
def modReduceLimbs : ℕ := rsaMaxPrimeBits / 64 + 1

/-- `setLimbsBE`. -/
def setLimbsBE (b : Bytes) : Option (List UInt64) :=
  if modReduceLimbs < (b.length + 7) / 8 then none else some (loadBE modReduceLimbs b)

/-- One bit of the dividend: `r = 2r + bit`, then `t = r - m`, kept where it does not borrow. -/
def reduceStep (mws rs : List UInt64) (bit : UInt64) : List UInt64 :=
  let rs := shiftIn bit rs
  let t := subBorrow 0 rs mws
  select (t.2 - 1) t.1 rs

/-- The bits of a byte, most significant first. -/
def bitsOf (b : UInt8) : List UInt64 :=
  ([7, 6, 5, 4, 3, 2, 1, 0] : List UInt8).map fun bit => (b >>> bit).toUInt64 &&& 1

/-- The bytes of the dividend, from the front. -/
def reduceLoop (mws rs : List UInt64) (x : Bytes) : List UInt64 :=
  x.foldl (fun rs b => (bitsOf b).foldl (reduceStep mws) rs) rs

/-- `reduceMod`, with a destination as wide as the modulus.  The lengths are below `2 ^ 28` where an
`int` has 32 bits, so that the bits can be counted in one. -/
def reduceMod (x m : Bytes) : Option Bytes :=
  if m = [] ∨ rsaMaxPrimeBits < m.length * 8 ∨ rsaMaxModulusBits < x.length * 8 then none
  else match setLimbsBE m with
    | none => none
    | some mw =>
      let nl := (m.length + 7) / 8 + 1
      let mws := mw.take nl
      if mws.foldl (fun nonzero w => nonzero ||| w) 0 = 0 then none
      else some (storeBE m.length (reduceLoop mws (List.replicate nl 0) x))

/-- The loop of `decrementBE`: subtracts from the last byte on, in 16 bits, with the borrow in the
top one. -/
def decrementLoop (p : Bytes) : Bytes × UInt16 :=
  p.foldr (fun b x => let v := b.toUInt16 - x.2; (v.toUInt8 :: x.1, v >>> 15)) ([], 1)

/-- `decrementBE`, with a destination of the same length. -/
def decrementBE (p : Bytes) : Option Bytes :=
  let r := decrementLoop p
  if r.2 = 0 then some r.1 else none

/-! ## Subtracting one -/

lemma decrement_balance (p : Bytes) :
    let r := decrementLoop p
    r.1.length = p.length ∧ r.2.toNat ≤ 1 ∧
      unsigned r.1 + 1 = unsigned p + 256 ^ p.length * r.2.toNat := by
  induction p with
  | nil => exact ⟨rfl, by decide, by decide⟩
  | cons b p ih =>
    simp only [decrementLoop, List.foldr_cons] at ih ⊢
    generalize p.foldr _ _ = r at ih ⊢
    obtain ⟨hlen, hborrow, hval⟩ := ih
    have hb := b.toNat_lt
    have hv : (b.toUInt16 - r.2).toNat = (b.toNat + 2 ^ 16 - r.2.toNat) % 2 ^ 16 := by
      rw [UInt16.toNat_sub, UInt8.toNat_toUInt16]
      omega
    have hout : ((b.toUInt16 - r.2) >>> 15).toNat = (b.toUInt16 - r.2).toNat / 2 ^ 15 := by
      rw [UInt16.toNat_shiftRight, Nat.shiftRight_eq_div_pow]
      rfl
    have hbyte : (b.toUInt16 - r.2).toUInt8.toNat + r.2.toNat =
        b.toNat + 256 * ((b.toUInt16 - r.2) >>> 15).toNat := by
      rw [UInt16.toNat_toUInt8, hout, hv]
      omega
    refine ⟨by simp [hlen], by rw [hout, hv]; omega, ?_⟩
    rw [unsigned_cons, unsigned_cons, hlen, List.length_cons, pow_succ]
    generalize (b.toUInt16 - r.2).toUInt8.toNat = byte at hbyte ⊢
    generalize ((b.toUInt16 - r.2) >>> 15).toNat = out at hbyte ⊢
    calc byte * 256 ^ p.length + unsigned r.1 + 1
        = (byte + r.2.toNat) * 256 ^ p.length + unsigned p := by
          rw [Nat.add_assoc, hval]
          ring
      _ = b.toNat * 256 ^ p.length + unsigned p + 256 ^ p.length * 256 * out := by
          rw [hbyte]
          ring

/-- `decrementBE` subtracts one and keeps the length; only zero has nothing below it. -/
lemma decrementBE_eq (p : Bytes) :
    decrementBE p = if unsigned p = 0 then none else some (toBE p.length (unsigned p - 1)) := by
  obtain ⟨hlen, hborrow, hval⟩ := decrement_balance p
  unfold decrementBE
  generalize decrementLoop p = r at hlen hborrow hval ⊢
  have hr := unsigned_lt r.1
  have hp := unsigned_lt p
  rw [hlen] at hr
  rcases Nat.le_one_iff_eq_zero_or_eq_one.mp hborrow with h0 | h1
  · rw [h0] at hval
    have hr2 : r.2 = 0 := UInt16.toNat_inj.mp h0
    have hp0 : unsigned p ≠ 0 := by omega
    simp only [if_pos hr2, if_neg hp0]
    rw [show unsigned p - 1 = unsigned r.1 by omega, ← hlen, toBE_unsigned]
  · rw [h1] at hval
    have hr2 : r.2 ≠ 0 := fun h => by
      rw [h] at h1
      exact absurd h1 (by decide)
    have hp0 : unsigned p = 0 := by omega
    simp only [if_neg hr2, if_pos hp0]

/-! ## The remainder -/

section Reduce

variable {mws rs : List UInt64}

/-- The widths at which doubling the remainder loses nothing. -/
structure Reducing (mws rs : List UInt64) : Prop where
  length_eq : rs.length = mws.length
  room : 2 * value mws ≤ (2 ^ 64) ^ mws.length
  below : value rs < value mws

/-- One bit keeps the remainder. -/
lemma Reducing.step (h : Reducing mws rs) {bit : UInt64} (hbit : bit.toNat ≤ 1) :
    Reducing mws (reduceStep mws rs bit) ∧
      value (reduceStep mws rs bit) = (2 * value rs + bit.toNat) % value mws := by
  have hbelow := h.below
  have hroom := h.room
  have hlen : (shiftIn bit rs).length = mws.length := by rw [length_shiftIn, h.length_eq]
  have hshift : value (shiftIn bit rs) = 2 * value rs + bit.toNat := by
    rw [value_shiftIn hbit, h.length_eq, Nat.mod_eq_of_lt (by omega)]
  have hzero : (0 : UInt64).toNat ≤ 1 := by decide
  have hsub := value_subBorrow hzero hlen
  have hborrow := toNat_subBorrow_snd_le hzero (shiftIn bit rs) mws
  have hdiff : (subBorrow 0 (shiftIn bit rs) mws).1.length = (shiftIn bit rs).length :=
    length_subBorrow hlen
  have hlt := value_lt (subBorrow 0 (shiftIn bit rs) mws).1
  rw [hdiff, hlen] at hlt
  rw [hlen, hshift, UInt64.toNat_zero, Nat.add_zero] at hsub
  have hstep : reduceStep mws rs bit =
      if (subBorrow 0 (shiftIn bit rs) mws).2 = 0 then (subBorrow 0 (shiftIn bit rs) mws).1
      else shiftIn bit rs := select_borrow hborrow hdiff
  -- without a borrow the difference is kept, with one the modulus was larger
  have hval : value (reduceStep mws rs bit) = (2 * value rs + bit.toNat) % value mws := by
    rw [hstep]
    split
    next h0 =>
      rw [h0, UInt64.toNat_zero, Nat.mul_zero, Nat.add_zero] at hsub
      have hge : value mws ≤ 2 * value rs + bit.toNat := by omega
      rw [Nat.mod_eq_sub_mod hge, Nat.mod_eq_of_lt (by omega)]
      omega
    next h0 =>
      have h1 : (subBorrow 0 (shiftIn bit rs) mws).2.toNat = 1 := by
        rcases Nat.le_one_iff_eq_zero_or_eq_one.mp hborrow with h | h
        · exact absurd (UInt64.toNat_inj.mp h) h0
        · exact h
      rw [h1, Nat.mul_one] at hsub
      rw [hshift, Nat.mod_eq_of_lt (by omega)]
  refine ⟨⟨?_, hroom, ?_⟩, hval⟩
  · rw [hstep]
    split
    · rw [hdiff, hlen]
    · exact hlen
  · rw [hval]
    exact Nat.mod_lt _ (by omega)

/-- The number that bits stand for, most significant first, after a number that is there. -/
lemma Reducing.bits (h : Reducing mws rs) (bits : List UInt64) (hbits : ∀ b ∈ bits, b.toNat ≤ 1) :
    Reducing mws (bits.foldl (reduceStep mws) rs) ∧
      value (bits.foldl (reduceStep mws) rs) =
        bits.foldl (fun n b => 2 * n + b.toNat) (value rs) % value mws := by
  have hmod (bits : List UInt64) (n m : ℕ) (hnm : n % value mws = m % value mws) :
      bits.foldl (fun n b => 2 * n + b.toNat) n % value mws =
        bits.foldl (fun n b => 2 * n + b.toNat) m % value mws := by
    induction bits generalizing n m with
    | nil => exact hnm
    | cons b bits ih =>
      refine ih _ _ ?_
      exact (Nat.ModEq.mul_left 2 hnm).add_right b.toNat
  induction bits generalizing rs with
  | nil => exact ⟨h, (Nat.mod_eq_of_lt h.below).symm⟩
  | cons b bits ih =>
    obtain ⟨hstep, hval⟩ := h.step (hbits b (by simp))
    obtain ⟨hrest, hrestval⟩ := ih hstep fun c hc => hbits c (by simp [hc])
    refine ⟨hrest, ?_⟩
    rw [List.foldl_cons, hrestval, List.foldl_cons]
    refine hmod bits _ _ ?_
    rw [hval, Nat.mod_mod]

lemma toNat_bit (b bit : UInt8) (hbit : bit.toNat < 8) :
    ((b >>> bit).toUInt64 &&& 1).toNat = b.toNat / 2 ^ bit.toNat % 2 := by
  rw [UInt64.toNat_and, UInt8.toNat_toUInt64, UInt8.toNat_shiftRight, Nat.shiftRight_eq_div_pow,
    UInt64.toNat_one, Nat.and_one_is_mod, Nat.mod_eq_of_lt hbit]

lemma bitsOf_eq (b : UInt8) (n : ℕ) :
    (bitsOf b).foldl (fun n b => 2 * n + b.toNat) n = n * 256 + b.toNat := by
  have hb := b.toNat_lt
  simp only [bitsOf, List.map_cons, List.map_nil, List.foldl_cons, List.foldl_nil]
  rw [toNat_bit b 7 (by decide), toNat_bit b 6 (by decide), toNat_bit b 5 (by decide),
    toNat_bit b 4 (by decide), toNat_bit b 3 (by decide), toNat_bit b 2 (by decide),
    toNat_bit b 1 (by decide), toNat_bit b 0 (by decide)]
  simp only [UInt8.reduceToNat]
  omega

lemma toNat_bitsOf_le {b : UInt8} {c : UInt64} (h : c ∈ bitsOf b) : c.toNat ≤ 1 := by
  obtain ⟨bit, hbit, rfl⟩ := List.mem_map.mp h
  have hlt : ∀ bit ∈ ([7, 6, 5, 4, 3, 2, 1, 0] : List UInt8), bit.toNat < 8 := by simp
  rw [toNat_bit b bit (hlt bit hbit)]
  omega

lemma reduceLoop_concat (mws rs : List UInt64) (x : Bytes) (b : UInt8) :
    reduceLoop mws rs (x ++ [b]) =
      (bitsOf b).foldl (reduceStep mws) (reduceLoop mws rs x) := by
  simp only [reduceLoop, List.foldl_append, List.foldl_cons, List.foldl_nil]

/-- The loop over the bytes of the dividend. -/
lemma Reducing.loop (h : Reducing mws rs) (x : Bytes) :
    Reducing mws (reduceLoop mws rs x) ∧
      value (reduceLoop mws rs x) =
        (value rs * 256 ^ x.length + unsigned x) % value mws := by
  induction x using List.reverseRecOn with
  | nil =>
    refine ⟨h, ?_⟩
    rw [List.length_nil, pow_zero, Nat.mul_one, unsigned_nil, Nat.add_zero,
      Nat.mod_eq_of_lt h.below]
    rfl
  | append_singleton x b ih =>
    obtain ⟨hloop, hval⟩ := ih
    obtain ⟨hbyte, hbyteval⟩ := hloop.bits (bitsOf b) fun c hc => toNat_bitsOf_le hc
    rw [reduceLoop_concat]
    refine ⟨hbyte, ?_⟩
    have hmod : (value rs * 256 ^ x.length + unsigned x) % value mws * 256 + b.toNat ≡
        (value rs * 256 ^ x.length + unsigned x) * 256 + b.toNat [MOD value mws] :=
      ((Nat.mod_modEq _ _).mul_right 256).add_right b.toNat
    rw [hbyteval, bitsOf_eq, hval, unsigned_concat, List.length_append, List.length_singleton,
      pow_succ]
    refine hmod.trans (congrArg (· % value mws) ?_)
    ring

end Reduce

/-- `reduceMod` is the remainder, in as many bytes as the modulus. -/
theorem reduceMod_eq {x m : Bytes} (hm : m.length * 8 ≤ rsaMaxPrimeBits)
    (hx : x.length * 8 ≤ rsaMaxModulusBits) :
    reduceMod x m =
      if unsigned m = 0 then none else some (toBE m.length (unsigned x % unsigned m)) := by
  have hlimbs : modReduceLimbs = 129 := rfl
  have hprime : rsaMaxPrimeBits = 8192 := rfl
  have hwidth : (m.length + 7) / 8 ≤ 128 := by omega
  unfold reduceMod
  by_cases hnil : m = []
  · subst hnil
    simp
  rw [if_neg (by push Not; exact ⟨hnil, hm, hx⟩), setLimbsBE, if_neg (by omega)]
  dsimp only
  have hload : value (loadBE modReduceLimbs m) = unsigned m := value_loadBE (by omega)
  have hlt : unsigned m < (2 ^ 64) ^ ((m.length + 7) / 8) := by
    refine (unsigned_lt m).trans_le ?_
    rw [show (256 : ℕ) = 2 ^ 8 by norm_num, ← pow_mul, ← pow_mul]
    exact Nat.pow_le_pow_right (by decide) (by omega)
  have hpow : (2 ^ 64 : ℕ) ^ ((m.length + 7) / 8 + 1) =
      2 ^ 64 * (2 ^ 64) ^ ((m.length + 7) / 8) := pow_succ' _ _
  set mws := (loadBE modReduceLimbs m).take ((m.length + 7) / 8 + 1) with hmws
  have hval : value mws = unsigned m := by
    rw [hmws, value_take, hload, Nat.mod_eq_of_lt (by omega)]
  have hlen : mws.length = (m.length + 7) / 8 + 1 := by
    rw [hmws, List.length_take, length_loadBE]
    omega
  by_cases hzero : unsigned m = 0
  · rw [if_pos ((foldl_or_eq_zero 0).mpr ⟨rfl, hval.trans hzero⟩), if_pos hzero]
  · have hnonzero : ¬ mws.foldl (fun nonzero w => nonzero ||| w) 0 = 0 := fun h =>
      hzero (hval.symm.trans ((foldl_or_eq_zero 0).mp h).2)
    have hstart : Reducing mws (List.replicate ((m.length + 7) / 8 + 1) 0) := by
      refine ⟨by rw [List.length_replicate, hlen], ?_, ?_⟩
      · rw [hlen, hval]
        omega
      · rw [value_replicate_zero, hval]
        omega
    rw [if_neg hnonzero, if_neg hzero, storeBE_eq, (hstart.loop x).2, value_replicate_zero,
      Nat.zero_mul, Nat.zero_add, hval]

/-! ## Destinations -/

/-- `reduceMod` with its destination: what it returns, and what the destination holds then. -/
def reduceModInto (dst x m : Bytes) : Bool × Bytes :=
  if dst.length ≠ m.length then (false, dst)
  else match reduceMod x m with
    | none => (false, dst)
    | some out => (true, out)

/-- `decrementBE` with its destination, which is written byte by byte from the last one on. -/
def decrementBEInto (dst p : Bytes) : Bool × Bytes :=
  if dst.length ≠ p.length then (false, dst)
  else
    let r := decrementLoop p
    (r.2 == 0, r.1)

lemma reduceMod_of_long {x m : Bytes} (h : ¬(m.length * 8 ≤ rsaMaxPrimeBits ∧
    x.length * 8 ≤ rsaMaxModulusBits)) : reduceMod x m = none := by
  rw [reduceMod, if_pos]
  omega

lemma decrementBEInto_eq {dst p : Bytes} (h : dst.length = p.length) :
    ((decrementBEInto dst p).1 = true ↔ unsigned p ≠ 0) ∧
      (unsigned p ≠ 0 → (decrementBEInto dst p).2 = toBE p.length (unsigned p - 1)) := by
  have heq := decrementBE_eq p
  rw [decrementBEInto, if_neg (not_not.mpr h)]
  unfold decrementBE at heq
  generalize decrementLoop p = r at heq ⊢
  dsimp only at heq ⊢
  split at heq
  · next hr =>
    split at heq
    · cases heq
    · next hp =>
      refine ⟨by simp [hr, hp], fun _ => ?_⟩
      exact Option.some.inj heq
  · next hr =>
    split at heq
    · next hp => exact ⟨by simp [hr, hp], fun h => absurd hp h⟩
    · cases heq

/-- `reduceMod` writes the remainder for every pair of operands within the widths, and otherwise
returns false and leaves the destination; `decrementBE` writes `p - 1` and says whether there was
one. -/
theorem modReduce_exact (dst x m : Bytes) {dst' p : Bytes} (hlen : dst'.length = p.length) :
    reduceModInto dst x m =
      (if (1 ≤ m.length ∧ m.length ≤ 1024) ∧ x.length ≤ 2048 ∧ dst.length = m.length ∧
          unsigned m ≠ 0 then (true, toBE m.length (unsigned x % unsigned m))
        else (false, dst)) ∧
    ((decrementBEInto dst' p).1 = true ↔ unsigned p ≠ 0) ∧
    (unsigned p ≠ 0 → (decrementBEInto dst' p).2 = toBE p.length (unsigned p - 1)) := by
  have hprime : rsaMaxPrimeBits = 8192 := rfl
  have hmodulus : rsaMaxModulusBits = 16384 := rfl
  refine ⟨?_, decrementBEInto_eq hlen⟩
  have hempty : unsigned m ≠ 0 → 1 ≤ m.length := by
    intro h
    cases m with
    | nil => exact absurd rfl h
    | cons b m => simp
  rw [reduceModInto]
  by_cases hdst : dst.length = m.length
  · rw [if_neg (not_not.mpr hdst)]
    by_cases hwidth : m.length * 8 ≤ rsaMaxPrimeBits ∧ x.length * 8 ≤ rsaMaxModulusBits
    · rw [reduceMod_eq hwidth.1 hwidth.2]
      by_cases hzero : unsigned m = 0
      · rw [if_pos hzero, if_neg fun h => h.2.2.2 hzero]
      · rw [if_neg hzero, if_pos ⟨⟨hempty hzero, by omega⟩, by omega, hdst, hzero⟩]
    · rw [reduceMod_of_long hwidth, if_neg fun h => hwidth (by omega)]
  · rw [if_pos hdst, if_neg fun h => hdst h.2.2.1]

/-- A modulus with a leading zero, and the largest number that two bytes hold. -/
theorem modReduce_exact_small :
    reduceModInto [9, 9] [1, 0, 0] [0, 7] =
      (if (1 ≤ ([0, 7] : Bytes).length ∧ ([0, 7] : Bytes).length ≤ 1024) ∧
          ([1, 0, 0] : Bytes).length ≤ 2048 ∧
          ([9, 9] : Bytes).length = ([0, 7] : Bytes).length ∧ unsigned [0, 7] ≠ 0 then
        (true, toBE 2 (unsigned [1, 0, 0] % unsigned [0, 7])) else (false, [9, 9])) ∧
    ((decrementBEInto [0, 0] [255, 255]).1 = true ↔ unsigned [255, 255] ≠ 0) ∧
    (unsigned [255, 255] ≠ 0 →
      (decrementBEInto [0, 0] [255, 255]).2 = toBE 2 (unsigned [255, 255] - 1)) :=
  modReduce_exact [9, 9] [1, 0, 0] [0, 7] rfl

end Secmem.Crypto
