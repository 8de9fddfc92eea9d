import Secmem.Crypto.Pbes2
import Secmem.Framework.DerEncoding
import Secmem.Framework.MachineInt

/-!
# The parameters of scrypt

`readScryptParams` decides about N, r and p with 64-bit products, after integers too wide to read
have been turned into flags.  `checkScryptParams_iff` says that what it admits is what the limits
say over the unbounded numbers (`ScryptLimits`).

What is admitted sizes a working region, with Go's `int` of either width, which `scryptCompute`
and the memory-hard step then slice.  `scryptRegionWord` is that computation on machine words, and
`scryptLayout` takes the slices in the order of the code, and fails where one would be out of
range or a precondition of the memory-hard step does not hold.
-/

namespace Secmem.Crypto

open Der MachineInt

/-! ## Counts -/

/-- A number as `readASN1Count` reports it. -/
def asCount (n : ℕ) : Option ℕ := if n < 2 ^ 31 then some n else none

lemma asCount_eq_some {n m : ℕ} : asCount n = some m ↔ n < 2 ^ 31 ∧ n = m := by
  unfold asCount
  split <;> simp_all

/-- More than four digits, or four that are too large. -/
lemma wide_iff {d : Bytes} (hd : d.head? ≠ some 0) :
    4 < d.length ∨ 2 ^ 31 ≤ unsigned d ↔ 2 ^ 31 ≤ unsigned d := by
  refine ⟨fun h => h.elim (fun hlen => ?_) id, Or.inr⟩
  have hoct : octets (unsigned d) = d.length := by
    rw [← length_natBytes, natBytes_unsigned hd]
  by_contra hlt
  have : octets (unsigned d) ≤ 4 := octets_le_iff.mpr (by omega)
  omega

section Count

variable [Cryptobyte] {s rest : Bytes}

/-- `readASN1Count` takes a minimal INTEGER without a sign. -/
lemma readASN1Count_iff {x : Option ℕ} : readASN1Count s = some (x, rest) ↔
    ∃ c, readASN1 INTEGER s = some (c, rest) ∧ Shortest c ∧ x = asCount (unsigned c) := by
  unfold readASN1Count
  cases readASN1 INTEGER s with
  | none => simp
  | some y =>
    obtain ⟨raw, r⟩ := y
    simp only [Option.some.injEq, Prod.mk.injEq]
    cases raw with
    | nil => simp [Shortest]
    | cons a tail =>
      dsimp only
      by_cases ha : 0x80 ≤ a.toNat
      · simp [Shortest, ha, Nat.not_lt.mpr ha]
      by_cases hzero : a = 0 ∧ tail ≠ [] ∧ (tail.headD 0).toNat < 0x80
      · rw [if_neg ha, if_pos hzero]
        obtain ⟨rfl, hne, hlt⟩ := hzero
        obtain ⟨b, tail, rfl⟩ := List.exists_cons_of_ne_nil hne
        have hnot : ¬ Shortest (0 :: b :: tail) := fun h => by
          have := h.2 rfl b rfl
          simp only [List.headD_cons] at hlt
          omega
        simp [hnot]
      rw [if_neg ha, if_neg hzero]
      have hshort : Shortest (a :: tail) := by
        refine ⟨Nat.not_le.mp ha, fun h0 b hb => Nat.not_lt.mp fun hlt => hzero ⟨h0, ?_, ?_⟩⟩
        · rintro rfl
          simp at hb
        · rwa [List.headD_eq_head?_getD, hb]
      have hdigits : unsigned (if a = 0 then tail else a :: tail) = unsigned (a :: tail) ∧
          (if a = 0 then tail else a :: tail).head? ≠ some 0 := by
        split
        next h0 =>
          subst h0
          refine ⟨by simp [unsigned_cons], fun hhead => ?_⟩
          have := hshort.2 rfl 0 hhead
          exact absurd this (by decide)
        next h0 => exact ⟨rfl, by simpa using h0⟩
      have hresult : (if 4 < (if a = 0 then tail else a :: tail).length ∨
          2 ^ 31 ≤ unsigned (if a = 0 then tail else a :: tail) then some (none, r)
          else some (some (unsigned (if a = 0 then tail else a :: tail)), r)) =
          some (asCount (unsigned (a :: tail)), r) := by
        by_cases hv : 2 ^ 31 ≤ unsigned (a :: tail)
        · rw [if_pos (.inr (hdigits.1 ▸ hv)), asCount, if_neg (Nat.not_lt.mpr hv)]
        · rw [if_neg fun h => hv (hdigits.1 ▸ (wide_iff hdigits.2).mp h), hdigits.1, asCount,
            if_pos (Nat.not_le.mp hv)]
      rw [hresult, Option.some.injEq, Prod.mk.injEq]
      constructor
      · rintro ⟨rfl, rfl⟩
        exact ⟨_, ⟨rfl, rfl⟩, hshort, rfl⟩
      · rintro ⟨_, ⟨rfl, rfl⟩, -, rfl⟩
        exact ⟨rfl, rfl⟩

end Count

/-! ## The limits -/

/-- What scrypt is defined for, and the two caps. -/
structure ScryptLimits (N r p : ℕ) : Prop where
  r_pos : 1 ≤ r
  p_pos : 1 ≤ p
  power : ∃ k, 1 ≤ k ∧ N = 2 ^ k
  below : N < 2 ^ (16 * r)
  memory : 128 * r * (N + 2 * p + 2) ≤ maxScryptMemory
  work : N * r * p ≤ maxScryptWork

section Limits

variable {N r p : ℕ}

/-- Under the memory cap the block count and the block size are small. -/
lemma small_of_memory (hr : 1 ≤ r) (h : 128 * r * (N + 2 * p + 2) ≤ maxScryptMemory) :
    N + 2 * p + 2 ≤ 2 ^ 19 ∧ r ≤ 2 ^ 18 := by
  have hcap : r * (N + 2 * p + 2) ≤ 2 ^ 19 := by
    simp only [maxScryptMemory, Nat.mul_assoc] at h
    omega
  have hN : N + 2 * p + 2 ≤ r * (N + 2 * p + 2) := Nat.le_mul_of_pos_left _ hr
  have hr2 : r * 2 ≤ r * (N + 2 * p + 2) := Nat.mul_le_mul_left _ (by omega)
  omega

lemma power_iff (hN : N ≠ 0) : N ≠ 1 ∧ N &&& (N - 1) = 0 ↔ ∃ k, 1 ≤ k ∧ N = 2 ^ k := by
  rw [Nat.and_sub_one_eq_zero_iff_isPowerOfTwo hN, Nat.isPowerOfTwo]
  constructor
  · rintro ⟨h1, k, rfl⟩
    refine ⟨k, Nat.one_le_iff_ne_zero.mpr fun h0 => h1 ?_, rfl⟩
    rw [h0, pow_zero]
  · rintro ⟨k, hk, rfl⟩
    exact ⟨(Nat.one_lt_two_pow (by omega)).ne', k, rfl⟩

/-- The products do not wrap where they are compared, and an integer too wide to read is over the
memory cap: the checks are the limits. -/
lemma checkScryptParams_iff {kdf : KDF} :
    checkScryptParams (asCount N) (asCount r) (asCount p) = .ok kdf ↔
      ScryptLimits N r p ∧ kdf = .scrypt N r p := by
  simp only [checkScryptParams, bind_eq_ok, require_eq_ok, demand_eq_ok, ne_eq, asCount_eq_some,
    Except.ok.injEq]
  constructor
  · rintro ⟨-, hzero, -, hpower, -, hbelow, _, ⟨hN, rfl⟩, _, ⟨hr, rfl⟩, _, ⟨hp, rfl⟩, -,
      ⟨hrcap, hmemory⟩, -, hwork, rfl⟩
    have hr1 : 1 ≤ r := Nat.one_le_iff_ne_zero.mpr fun h0 => hzero.2.1 ⟨hr, h0⟩
    have hp1 : 1 ≤ p := Nat.one_le_iff_ne_zero.mpr fun h0 => hzero.2.2 ⟨hp, h0⟩
    have hN0 : N ≠ 0 := fun h0 => hzero.1 ⟨hN, h0⟩
    have hmemory' : 128 * r * (N + 2 * p + 2) ≤ maxScryptMemory := by
      have hlt : 128 * r * (N + 2 * p + 2) < 2 ^ 64 := by
        have : 128 * r * (N + 2 * p + 2) ≤ maxScryptMemory * 2 ^ 34 :=
          Nat.mul_le_mul (by simp only [maxScryptMemory] at hrcap ⊢; omega) (by omega)
        simp only [maxScryptMemory] at this
        omega
      rwa [Nat.mod_eq_of_lt hlt] at hmemory
    obtain ⟨hNp, hr18⟩ := small_of_memory hr1 hmemory'
    refine ⟨⟨hr1, hp1, (power_iff hN0).mp (hpower N ⟨hN, rfl⟩), ?_, hmemory', ?_⟩, rfl⟩
    · rcases hr1.eq_or_lt with rfl | hr2
      · exact hbelow N ⟨hN, rfl⟩ ⟨by decide, rfl⟩
      · calc N < 2 ^ 32 := by omega
          _ ≤ 2 ^ (16 * r) := Nat.pow_le_pow_right (by decide) (by omega)
    · have hlt : N * r * p < 2 ^ 64 := by
        have : N * r * p ≤ 2 ^ 19 * 2 ^ 18 * 2 ^ 18 :=
          Nat.mul_le_mul (Nat.mul_le_mul (by omega) hr18) (by omega)
        omega
      rwa [Nat.mod_eq_of_lt hlt] at hwork
  · rintro ⟨h, rfl⟩
    obtain ⟨hNp, hr18⟩ := small_of_memory h.r_pos h.memory
    obtain ⟨k, hk, hpow⟩ := h.power
    have hN0 : N ≠ 0 := by
      rw [hpow]
      positivity
    have hr := h.r_pos
    have hp := h.p_pos
    refine ⟨(), ⟨by omega, by omega, by omega⟩, (), ?_, (), ?_, N, ⟨by omega, rfl⟩, r,
      ⟨by omega, rfl⟩, p, ⟨by omega, rfl⟩, (), ⟨?_, ?_⟩, (), ?_, rfl⟩
    · rintro _ ⟨-, rfl⟩
      exact (power_iff hN0).mpr h.power
    · rintro _ ⟨-, rfl⟩ ⟨-, rfl⟩
      exact h.below
    · simp only [maxScryptMemory]
      omega
    · exact (Nat.mod_le _ _).trans h.memory
    · exact (Nat.mod_le _ _).trans h.work

end Limits

/-! ## Reading them -/

section Reading

variable [Cryptobyte] {s rest salt : Bytes} {what : String} {keyLen : ℕ}

lemma readSalt_iff : readSalt what s = .ok (salt, rest) ↔
    readASN1 OCTET_STRING s = some (salt, rest) ∧ salt ≠ [] ∧ salt.length ≤ maxPBES2Salt := by
  simp only [readSalt, bind_eq_ok, require_eq_ok, demand_eq_ok, Prod.exists, Except.ok.injEq,
    Prod.mk.injEq]
  constructor
  · rintro ⟨_, _, hread, -, hne, -, hle, rfl, rfl⟩
    exact ⟨hread, hne, hle⟩
  · rintro ⟨hread, hne, hle⟩
    exact ⟨salt, rest, hread, (), hne, (), hle, rfl, rfl⟩

/-- The optional keyLength is absent, or is the cipher's. -/
lemma readKeyLength_iff (hkey : keyLen < 256 ^ 7) : readKeyLength what keyLen s = .ok rest ↔
    ((integer keyLen).length < 2 ^ 32 ∧ s = integer keyLen ++ rest) ∨
      (peekASN1Tag INTEGER s = false ∧ s = rest) := by
  unfold readKeyLength
  split
  next hpeek =>
    simp only [bind_eq_ok, require_eq_ok, demand_eq_ok, Prod.exists, Except.ok.injEq, hpeek,
      reduceCtorEq, false_and, or_false]
    rw [← readASN1Integer_iff hkey]
    constructor
    · rintro ⟨_, _, hread, -, rfl, rfl⟩
      exact hread
    · intro hread
      exact ⟨_, _, hread, (), rfl, rfl⟩
  next hpeek =>
    simp only [Bool.not_eq_true] at hpeek
    constructor
    · intro h
      exact .inr ⟨hpeek, Except.ok.inj h⟩
    · rintro (⟨-, rfl⟩ | ⟨-, rfl⟩)
      · simp [integer] at hpeek
      · rfl

/-- `readScryptParams` takes a salt, three numbers within the limits and perhaps the key length,
and nothing after them. -/
lemma readScryptParams_iff {kdf : KDF} : readScryptParams keyLen s = .ok (kdf, salt) ↔
    ∃ s₁ cN s₂ cr s₃ cp s₄, readSalt "scrypt" s = .ok (salt, s₁) ∧
      (readASN1 INTEGER s₁ = some (cN, s₂) ∧ Shortest cN) ∧
      (readASN1 INTEGER s₂ = some (cr, s₃) ∧ Shortest cr) ∧
      (readASN1 INTEGER s₃ = some (cp, s₄) ∧ Shortest cp) ∧
      ScryptLimits (unsigned cN) (unsigned cr) (unsigned cp) ∧
      kdf = .scrypt (unsigned cN) (unsigned cr) (unsigned cp) ∧
      readKeyLength "scrypt" keyLen s₄ = .ok [] := by
  simp only [readScryptParams, bind_eq_ok, require_eq_ok, demand_eq_ok, Prod.exists,
    Except.ok.injEq, Prod.mk.injEq, readASN1Count_iff]
  constructor
  · rintro ⟨_, s₁, hsalt, _, s₂, ⟨cN, hN, hcN, rfl⟩, _, s₃, ⟨cr, hr, hcr, rfl⟩, _, s₄,
      ⟨cp, hp, hcp, rfl⟩, _, hcheck, _, hkey, -, rfl, rfl, rfl⟩
    obtain ⟨hlimits, rfl⟩ := checkScryptParams_iff.mp hcheck
    exact ⟨s₁, cN, s₂, cr, s₃, cp, s₄, hsalt, ⟨hN, hcN⟩, ⟨hr, hcr⟩, ⟨hp, hcp⟩, hlimits, rfl, hkey⟩
  · rintro ⟨s₁, cN, s₂, cr, s₃, cp, s₄, hsalt, ⟨hN, hcN⟩, ⟨hr, hcr⟩, ⟨hp, hcp⟩, hlimits, rfl, hkey⟩
    exact ⟨salt, s₁, hsalt, _, s₂, ⟨cN, hN, hcN, rfl⟩, _, s₃, ⟨cr, hr, hcr, rfl⟩, _, s₄,
      ⟨cp, hp, hcp, rfl⟩, _, checkScryptParams_iff.mpr ⟨hlimits, rfl⟩, [], hkey, (), rfl, rfl, rfl⟩

end Reading

/-! ## The working region -/

section Region

variable {w : ℕ}

/-- `pbkdf2RegionSize`, on machine words. -/
def pbkdf2RegionWord (h : InPlace.InPlaceHash) (saltLen : BitVec w) : BitVec w :=
  let block := BitVec.ofNat w h.block
  let hash := BitVec.ofNat w maxHashSize
  3#w * hash + 2#w * (block + hash) + block + wordMax (saltLen + 4#w) (BitVec.ofNat w h.size)

/-- `scrypt.BlockSize` and `scrypt.WorkSize`, on machine words. -/
def blockSizeWord (r : BitVec w) : BitVec w := 128#w * r

def workSizeWord (n r : BitVec w) : BitVec w := 128#w * r * n + 256#w * r + 64#w

/-- `scryptRegionSize`, on machine words. -/
def scryptRegionWord (saltLen n r p : BitVec w) : BitVec w :=
  let b := p * blockSizeWord r
  workSizeWord n r + b + pbkdf2RegionWord .hashSHA256 (wordMax saltLen b)

def blockSize (r : ℕ) : ℕ := 128 * r

def workSize (n r : ℕ) : ℕ := 128 * r * n + 256 * r + 64

/-- A window of an array: where it begins, and how long it is. -/
structure Window where
  off : ℕ
  len : ℕ
  deriving DecidableEq, Repr

/-- `w[lo:hi]`, which panics unless `lo <= hi <= len(w)`. -/
def Window.slice (w : Window) (lo hi : ℕ) : Option Window :=
  if lo ≤ hi ∧ hi ≤ w.len then some ⟨w.off + lo, hi - lo⟩ else none

/-- The slices that `Mix` takes of its working memory, in words, after its preconditions. -/
def mixLayout (bLen n r : ℕ) (work : Window) : Option (List Window) := do
  guard (1 < n ∧ n &&& (n - 1) = 0)
  guard (0 < r)
  guard (bLen ≠ 0 ∧ bLen % blockSize r = 0)
  let need := workSize n r
  guard (need ≤ work.len)
  let words : Window := ⟨0, need / 4⟩
  let v ← words.slice 0 (32 * n * r)
  let xy ← words.slice (32 * n * r) (32 * n * r + 64 * r)
  let rest ← words.slice (32 * n * r + 64 * r) words.len
  let tmp ← rest.slice 0 16
  some [v, xy, tmp]

/-- The slices that `scryptCompute` takes of its region, with those of `Mix`. -/
def scryptLayout (regionLen saltLen n r p : ℕ) : Option (List Window) := do
  let region : Window := ⟨0, regionLen⟩
  let workLen := workSize n r
  let bLen := p * blockSize r
  let work ← region.slice 0 workLen
  let b ← region.slice workLen (workLen + bLen)
  let kdf ← region.slice (workLen + bLen) regionLen
  let first ← kdf.slice 0 (pbkdf2RegionSize .hashSHA256 saltLen)
  let mixed ← mixLayout b.len n r work
  let second ← kdf.slice 0 (pbkdf2RegionSize .hashSHA256 bLen)
  let wiped ← region.slice 0 (workLen + bLen)
  some ([work, b, kdf, first, second, wiped] ++ mixed)

variable {saltLen N r p : ℕ}

/-- The region is the memory that the limits count, and a fixed part of under 2 KiB. -/
lemma scryptRegionSize_bounds (h : ScryptLimits N r p) (hsalt : saltLen ≤ maxPBES2Salt) :
    128 * r * (N + 2 * p + 2) < scryptRegionSize saltLen N r p ∧
      scryptRegionSize saltLen N r p < 128 * r * (N + 2 * p + 2) + 2048 := by
  have hb : 128 ≤ p * (128 * r) := by
    have := Nat.mul_le_mul h.p_pos (Nat.mul_le_mul_left 128 h.r_pos)
    omega
  have hsplit : 128 * r * (N + 2 * p + 2) = 128 * r * N + 2 * (p * (128 * r)) + 256 * r := by ring
  simp only [scryptRegionSize, pbkdf2RegionSize, InPlace.InPlaceHash.block,
    InPlace.InPlaceHash.size, maxHashSize, maxPBES2Salt, hsplit] at hsalt ⊢
  omega

/-- The region's size is computed without overflow, in words of 32 bits or more. -/
lemma scryptRegionWord_holds (hw : 32 ≤ w) (h : ScryptLimits N r p)
    (hsalt : saltLen ≤ maxPBES2Salt) :
    Holds (scryptRegionWord (BitVec.ofNat w saltLen) (BitVec.ofNat w N) (BitVec.ofNat w r)
      (BitVec.ofNat w p)) (scryptRegionSize saltLen N r p) := by
  have hmem := h.memory
  obtain ⟨hNp, hr⟩ := small_of_memory h.r_pos hmem
  have hsplit : 128 * r * (N + 2 * p + 2) = 128 * r * N + 2 * (p * (128 * r)) + 256 * r := by ring
  rw [hsplit] at hmem
  simp only [maxScryptMemory, maxPBES2Salt] at hmem hsalt
  have hcomm : p * (128 * r) < 2 ^ 31 := by omega
  have word {a : ℕ} (ha : a < 2 ^ 31) : Holds (BitVec.ofNat w a) a := Holds.word hw ha
  have hblock : Holds (blockSizeWord (BitVec.ofNat w r)) (128 * r) :=
    (word (by decide)).mul hw (word (by omega)) (by omega)
  have hb : Holds (BitVec.ofNat w p * blockSizeWord (BitVec.ofNat w r)) (p * (128 * r)) :=
    (word (by omega)).mul hw hblock hcomm
  have hwork : Holds (workSizeWord (BitVec.ofNat w N) (BitVec.ofNat w r))
      (128 * r * N + 256 * r + 64) := by
    have h₁ := ((word (a := 128) (by decide)).mul hw (word (a := r) (by omega)) (by omega)).mul hw
      (word (a := N) (by omega)) (by omega)
    have h₂ := (word (a := 256) (by decide)).mul hw (word (a := r) (by omega)) (by omega)
    exact (h₁.add hw h₂ (by omega)).add hw (word (by decide)) (by omega)
  have hmax := (word (a := saltLen) (by omega)).max hb
  have hkdf : Holds (pbkdf2RegionWord .hashSHA256 (wordMax (BitVec.ofNat w saltLen)
      (BitVec.ofNat w p * blockSizeWord (BitVec.ofNat w r))))
      (pbkdf2RegionSize .hashSHA256 (max saltLen (p * (128 * r)))) := by
    have h₁ := (word (a := 3) (by decide)).mul hw (word (a := maxHashSize) (by decide)) (by decide)
    have h₂ := (word (a := 64) (by decide)).add hw (word (a := maxHashSize) (by decide)) (by decide)
    have h₃ := (word (a := 2) (by decide)).mul hw h₂ (by decide)
    have h₄ := (h₁.add hw h₃ (by decide)).add hw (word (a := 64) (by decide)) (by decide)
    have h₅ := (hmax.add hw (word (a := 4) (by decide)) (by omega)).max
      (word (a := InPlace.InPlaceHash.size .hashSHA256) (by decide))
    refine h₄.add hw h₅ ?_
    simp only [InPlace.InPlaceHash.size, InPlace.InPlaceHash.block, maxHashSize]
    omega
  refine (hwork.add hw hb (by omega)).add hw hkdf ?_
  simp only [pbkdf2RegionSize, InPlace.InPlaceHash.block, InPlace.InPlaceHash.size, maxHashSize]
  omega

lemma Window.slice_eq_some {v : Window} {lo hi : ℕ} (h₁ : lo ≤ hi) (h₂ : hi ≤ v.len) :
    v.slice lo hi = some ⟨v.off + lo, hi - lo⟩ := if_pos ⟨h₁, h₂⟩

/-- `Mix` slices the working memory it asked for, to the last word. -/
lemma mixLayout_isSome (h : ScryptLimits N r p) {work : Window} (hwork : workSize N r ≤ work.len) :
    (mixLayout (p * blockSize r) N r work).isSome = true := by
  obtain ⟨k, hk, hpow⟩ := h.power
  have hN0 : N ≠ 0 := by
    rw [hpow]
    positivity
  have hN := (power_iff hN0).mpr h.power
  have hr : 0 < r := h.r_pos
  have hb : p * blockSize r ≠ 0 := by
    have hp := h.p_pos
    simp only [blockSize]
    positivity
  have hneed : workSize N r / 4 = 32 * N * r + 64 * r + 16 := by
    have : workSize N r = 4 * (32 * N * r + 64 * r + 16) := by
      simp only [workSize]
      ring
    omega
  simp only [mixLayout, hneed]
  rw [Window.slice_eq_some (by omega) (by simp only; omega),
    Window.slice_eq_some (by omega) (by simp only; omega),
    Window.slice_eq_some (by omega) (by simp only; omega)]
  simp [guard, hN.2, show 1 < N by omega, hr, hb, hwork, Window.slice]

/-- Every slice lies within a region of the size asked for. -/
lemma scryptLayout_isSome (h : ScryptLimits N r p) {regionLen : ℕ}
    (hregion : scryptRegionSize saltLen N r p ≤ regionLen) :
    (scryptLayout regionLen saltLen N r p).isSome = true := by
  have hsize : workSize N r + p * blockSize r +
      pbkdf2RegionSize .hashSHA256 (max saltLen (p * blockSize r)) ≤ regionLen := hregion
  have hmono {a b : ℕ} (hab : a ≤ b) :
      pbkdf2RegionSize .hashSHA256 a ≤ pbkdf2RegionSize .hashSHA256 b := by
    simp only [pbkdf2RegionSize]
    omega
  have hfirst := hmono (le_max_left saltLen (p * blockSize r))
  have hsecond := hmono (le_max_right saltLen (p * blockSize r))
  have hwork : (mixLayout (p * blockSize r) N r ⟨0, workSize N r⟩).isSome = true :=
    mixLayout_isSome h le_rfl
  obtain ⟨mixed, hmixed⟩ := Option.isSome_iff_exists.mp hwork
  simp only [scryptLayout]
  rw [Window.slice_eq_some (by omega) (by simp only; omega),
    Window.slice_eq_some (by omega) (by simp only; omega),
    Window.slice_eq_some (by omega) (by simp only; omega)]
  simp only [Option.bind_eq_bind, Option.bind_some, Nat.sub_zero, Nat.zero_add,
    Nat.add_sub_cancel_left, hmixed]
  rw [Window.slice_eq_some (by omega) (by simp only; omega),
    Window.slice_eq_some (by omega) (by simp only; omega),
    Window.slice_eq_some (by omega) (by simp only; omega)]
  rfl

end Region

/-! ## The result -/

/-- scrypt's parameters with the given salt, contents of the three INTEGERs, and what follows. -/
def scryptParams (salt cN cr cp tail : Bytes) : Bytes :=
  element OCTET_STRING salt ++
    (element INTEGER cN ++ (element INTEGER cr ++ (element INTEGER cp ++ tail)))

/-- The limits, over the unbounded integers. -/
structure Admissible (N r p : ℤ) : Prop where
  r_pos : 1 ≤ r
  p_pos : 1 ≤ p
  power : ∃ k : ℕ, 1 ≤ k ∧ N = 2 ^ k
  below : N < 2 ^ (16 * r).toNat
  memory : 128 * r * (N + 2 * p + 2) ≤ maxScryptMemory
  work : N * r * p ≤ maxScryptWork

section Result

variable {keyLen : ℕ} {salt cN cr cp tail : Bytes}

lemma admissible_cast {N r p : ℕ} : Admissible N r p ↔ ScryptLimits N r p := by
  have hexp : (16 * (r : ℤ)).toNat = 16 * r := by omega
  constructor
  · intro h
    obtain ⟨k, hk, hN⟩ := h.power
    have hbelow := h.below
    rw [hexp] at hbelow
    exact { r_pos := by exact_mod_cast h.r_pos
            p_pos := by exact_mod_cast h.p_pos
            power := ⟨k, hk, by exact_mod_cast hN⟩
            below := by exact_mod_cast hbelow
            memory := by exact_mod_cast h.memory
            work := by exact_mod_cast h.work }
  · intro h
    obtain ⟨k, hk, hN⟩ := h.power
    exact { r_pos := by exact_mod_cast h.r_pos
            p_pos := by exact_mod_cast h.p_pos
            power := ⟨k, hk, by exact_mod_cast hN⟩
            below := by
              rw [hexp]
              exact_mod_cast h.below
            memory := by exact_mod_cast h.memory
            work := by exact_mod_cast h.work }

/-- An admissible integer in the fewest octets is one that `readASN1Count` takes. -/
lemma shortest_iff {c : Bytes} : Shortest c ↔ checkASN1Integer c = true ∧ 0 ≤ signed c := by
  constructor
  · intro h
    obtain ⟨hcheck, hval⟩ := checkASN1Integer_iff.mpr ⟨h, rfl⟩
    exact ⟨hcheck, by omega⟩
  · rintro ⟨hcheck, hnn⟩
    exact (checkASN1Integer_iff.mp ⟨hcheck, (Int.toNat_of_nonneg hnn).symm⟩).1

lemma signed_eq_unsigned {c : Bytes} (h : Shortest c) : signed c = unsigned c :=
  (checkASN1Integer_iff.mpr ⟨h, rfl⟩).2

variable [Cryptobyte] (hkey : keyLen < 256 ^ 7) (hsalt : salt ≠ [] ∧ salt.length ≤ maxPBES2Salt)
  (htail : tail = [] ∨ tail = integer keyLen)
  (hshort : (scryptParams salt cN cr cp tail).length < 2 ^ 32)
include hkey hsalt htail hshort

lemma readScryptParams_scryptParams {f : KDF × Bytes} :
    readScryptParams keyLen (scryptParams salt cN cr cp tail) = .ok f ↔
      (Shortest cN ∧ Shortest cr ∧ Shortest cp) ∧
        ScryptLimits (unsigned cN) (unsigned cr) (unsigned cp) ∧
        f = (.scrypt (unsigned cN) (unsigned cr) (unsigned cp), salt) := by
  simp only [scryptParams, List.length_append] at hshort
  have hsaltRead : readASN1 OCTET_STRING (scryptParams salt cN cr cp tail) = some (salt, _) :=
    readASN1_element (by decide) (by omega)
  have hN : readASN1 INTEGER _ = some (cN, element INTEGER cr ++ (element INTEGER cp ++ tail)) :=
    readASN1_element (by decide) (by omega)
  have hr : readASN1 INTEGER _ = some (cr, element INTEGER cp ++ tail) :=
    readASN1_element (by decide) (by omega)
  have hp : readASN1 INTEGER _ = some (cp, tail) := readASN1_element (by decide) (by omega)
  have hkeyLen : readKeyLength "scrypt" keyLen tail = .ok [] := by
    rw [readKeyLength_iff hkey]
    rcases htail with rfl | rfl
    · exact .inr ⟨rfl, rfl⟩
    · exact .inl ⟨by omega, by simp⟩
  obtain ⟨kdf, salt'⟩ := f
  rw [readScryptParams_iff]
  constructor
  · rintro ⟨s₁, cN', s₂, cr', s₃, cp', s₄, hs, ⟨hN', hcN⟩, ⟨hr', hcr⟩, ⟨hp', hcp⟩, hlimits, rfl, -⟩
    obtain ⟨rfl, rfl⟩ := Prod.mk.inj (Option.some.inj (hsaltRead.symm.trans (readSalt_iff.mp hs).1))
    obtain ⟨rfl, rfl⟩ := Prod.mk.inj (Option.some.inj (hN.symm.trans hN'))
    obtain ⟨rfl, rfl⟩ := Prod.mk.inj (Option.some.inj (hr.symm.trans hr'))
    obtain ⟨rfl, rfl⟩ := Prod.mk.inj (Option.some.inj (hp.symm.trans hp'))
    exact ⟨⟨hcN, hcr, hcp⟩, hlimits, rfl⟩
  · rintro ⟨⟨hcN, hcr, hcp⟩, hlimits, hf⟩
    obtain ⟨rfl, rfl⟩ := Prod.mk.inj hf
    exact ⟨_, cN, _, cr, _, cp, tail, readSalt_iff.mpr ⟨hsaltRead, hsalt⟩, ⟨hN, hcN⟩, ⟨hr, hcr⟩,
      ⟨hp, hcp⟩, hlimits, rfl, hkeyLen⟩

end Result

/-- scrypt's parameters as a file gives them: a salt and a keyLength that are in order, and three
INTEGERs with any contents.  They are accepted exactly if each is in the fewest octets and they
are admissible; and then the working region is computed without overflow (it is a sum and every
part of it is smaller), is the memory counted and less than 2 KiB, and has room for every slice
that is taken of it.  `hkey` is what the reader of an INTEGER needs; the ciphers' keys have at most
32 bytes. -/
theorem readScryptParams_exact [Cryptobyte] {keyLen : ℕ} {salt cN cr cp tail : Bytes}
    (hkey : keyLen < 256 ^ 7) (hsalt : salt ≠ [] ∧ salt.length ≤ maxPBES2Salt)
    (htail : tail = [] ∨ tail = integer keyLen)
    (hshort : (scryptParams salt cN cr cp tail).length < 2 ^ 32) :
    ((∃ f, readScryptParams keyLen (scryptParams salt cN cr cp tail) = .ok f) ↔
      (checkASN1Integer cN = true ∧ checkASN1Integer cr = true ∧ checkASN1Integer cp = true) ∧
        Admissible (signed cN) (signed cr) (signed cp)) ∧
    ∀ f, readScryptParams keyLen (scryptParams salt cN cr cp tail) = .ok f →
      ∃ n r p : ℕ, f = (.scrypt n r p, salt) ∧ signed cN = n ∧ signed cr = r ∧ signed cp = p ∧
        (∀ w, 32 ≤ w → (scryptRegionWord (BitVec.ofNat w salt.length) (BitVec.ofNat w n)
          (BitVec.ofNat w r) (BitVec.ofNat w p)).toInt = scryptRegionSize salt.length n r p) ∧
        scryptRegionSize salt.length n r p < 2 ^ 31 ∧
        128 * r * (n + 2 * p + 2) < scryptRegionSize salt.length n r p ∧
        scryptRegionSize salt.length n r p < 128 * r * (n + 2 * p + 2) + 2048 ∧
        ∀ regionLen, scryptRegionSize salt.length n r p ≤ regionLen →
          (scryptLayout regionLen salt.length n r p).isSome = true := by
  have hiff {f} := readScryptParams_scryptParams (f := f) hkey hsalt htail hshort
  constructor
  · simp only [hiff]
    constructor
    · rintro ⟨_, ⟨hN, hr, hp⟩, hlimits, -⟩
      rw [signed_eq_unsigned hN, signed_eq_unsigned hr, signed_eq_unsigned hp, admissible_cast]
      exact ⟨⟨(shortest_iff.mp hN).1, (shortest_iff.mp hr).1, (shortest_iff.mp hp).1⟩, hlimits⟩
    · rintro ⟨⟨hN, hr, hp⟩, hadm⟩
      have hN' : Shortest cN := by
        obtain ⟨k, -, hk⟩ := hadm.power
        exact shortest_iff.mpr ⟨hN, by rw [hk]; positivity⟩
      have hr' : Shortest cr := shortest_iff.mpr ⟨hr, by have := hadm.r_pos; omega⟩
      have hp' : Shortest cp := shortest_iff.mpr ⟨hp, by have := hadm.p_pos; omega⟩
      rw [signed_eq_unsigned hN', signed_eq_unsigned hr', signed_eq_unsigned hp',
        admissible_cast] at hadm
      exact ⟨_, ⟨hN', hr', hp'⟩, hadm, rfl⟩
  · intro f hf
    obtain ⟨⟨hN, hr, hp⟩, hlimits, rfl⟩ := hiff.mp hf
    obtain ⟨hlt, hgt⟩ := scryptRegionSize_bounds hlimits hsalt.2
    refine ⟨_, _, _, rfl, signed_eq_unsigned hN, signed_eq_unsigned hr, signed_eq_unsigned hp,
      fun w hw => scryptRegionWord_holds hw hlimits hsalt.2, ?_, hlt, hgt,
      fun regionLen hregion => scryptLayout_isSome hlimits hregion⟩
    have hmemory := hlimits.memory
    simp only [maxScryptMemory] at hmemory
    omega

open Der.Cursor in
/-- openssl's default, N = 16384, r = 8 and p = 1, is accepted. -/
theorem readScryptParams_openssl :
    ∃ f, readScryptParams 32 (scryptParams [1, 2, 3, 4, 5, 6, 7, 8] [0x40, 0] [8] [1] []) =
      .ok f := by
  refine (readScryptParams_exact (by decide) (by decide) (.inl rfl) (by decide)).1.mpr
    ⟨by decide, ?_⟩
  have hN : signed [0x40, 0] = 16384 := by decide
  have hr : signed [8] = 8 := by decide
  have hp : signed [1] = 1 := by decide
  rw [hN, hr, hp]
  exact ⟨by decide, by decide, ⟨14, by decide, by decide⟩, by decide, by decide, by decide⟩

end Secmem.Crypto
