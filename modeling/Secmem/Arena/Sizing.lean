import Secmem.Arena.Model
import Secmem.Framework.MachineInt

/-!
# The sizes of an arena

`NewArena` and the allocation behind it, with every size a machine word: Go's `int` is
`BitVec w`, and all the arithmetic of the source is the arithmetic of words.  What the platform
does with a request it is given is open (`Kernel`).

`newArena_exact` says that an arena that is returned has the sizes the unbounded integers give,
with its slots apart, and that sizes outside the range of a word never get that far.
-/

namespace Secmem.Arena.Sizing

open MachineInt

variable {w : ℕ}

/-! ## The code -/

/-- The options that `NewArena` reads. -/
structure Config where
  closedAtRest : Bool
  insecureFallback : Bool
  noMemfdSecret : Bool

/-- What is left to the platform: the outcome of each tier of allocation, of drawing the canary
pattern and of the registration. -/
structure Kernel where
  memfdSecret : Option GoErr
  mapAnon : Option GoErr
  canaryInit : Option GoErr
  register : Option GoErr

/-- A mapping: its length, and the window of it between the guards. -/
structure SecRegion (w : ℕ) where
  outer : BitVec w
  inner : BitVec w × BitVec w

/-- `len(region.inner)`. -/
def SecRegion.innerLen (r : SecRegion w) : BitVec w := r.inner.2 - r.inner.1

/-- The layout that `arenaCanary` computes. -/
structure WordLayout (w : ℕ) where
  stride : BitVec w
  slotSize : BitVec w
  count : BitVec w
  tail : BitVec w × BitVec w

/-- An arena as `NewArena` returns it; `canary` is the layout it arms and registers. -/
structure SecureArena (w : ℕ) where
  region : SecRegion w
  canary : WordLayout w
  next : List (BitVec 32)
  freeHead : BitVec 32
  freeTail : BitVec 32
  slotSize : BitVec w
  stride : BitVec w
  count : BitVec w

def platformHasSecureMemory : Bool := true

def gateInsecure (platformSecure : Bool) (cfg : Config) : Option GoErr :=
  if platformSecure then none
  else if cfg.insecureFallback = false then some Sentinel.errNoSecureMemory
  else none

def guardedSizes (pageSize size : BitVec w) : Except GoErr (BitVec w × BitVec w × BitVec w) :=
  if size.sle 0#w then .error (.new ("invalid size " ++ toString size.toInt))
  else if (BitVec.intMax w - 3#w * pageSize).slt size then
    .error (.new ("size " ++ toString size.toInt ++
      " too large (page rounding + guards overflow)"))
  else
    let rounded := (size + pageSize - 1#w).sdiv pageSize * pageSize
    .ok (pageSize, rounded, rounded + 2#w * pageSize)

/-- The mapping of `total` bytes that both tiers lay out alike. -/
def betweenGuards (pageSize rounded total : BitVec w) : SecRegion w :=
  ⟨total, pageSize, pageSize + rounded⟩

def allocMapAnonGuarded (k : Kernel) (pageSize rounded total : BitVec w) :
    Except GoErr (SecRegion w) :=
  match k.mapAnon with
  | some e => .error e
  | none => .ok (betweenGuards pageSize rounded total)

def allocMapAnon (k : Kernel) (pageSize size : BitVec w) : Except GoErr (SecRegion w) :=
  match guardedSizes pageSize size with
  | .error e => .error (.wrap "allocMapAnon: " e)
  | .ok (pageSize, rounded, total) => allocMapAnonGuarded k pageSize rounded total

def allocSecretMem (k : Kernel) (pageSize size : BitVec w) : Except GoErr (SecRegion w) :=
  match guardedSizes pageSize size with
  | .error e => .error (.wrap "allocSecretMem: " e)
  | .ok (pageSize, rounded, total) =>
    match k.memfdSecret with
    | none => .ok (betweenGuards pageSize rounded total)
    | some _ => allocMapAnonGuarded k pageSize rounded total

def Config.alloc (cfg : Config) (k : Kernel) (pageSize size : BitVec w) :
    Except GoErr (SecRegion w) :=
  if cfg.noMemfdSecret then allocMapAnon k pageSize size else allocSecretMem k pageSize size

/-- `arenaCanary`. -/
def wordCanary (stride slotSize count innerLen : BitVec w) : WordLayout w :=
  let used := count * stride
  ⟨stride, slotSize, count, if used.slt innerLen then (used, innerLen) else (0, 0)⟩

/-- The strip that `forEachZone` computes for slot `i`. -/
def WordLayout.strip (c : WordLayout w) (i : BitVec w) : BitVec w × BitVec w :=
  (i * c.stride + c.slotSize, (i + 1#w) * c.stride)

/-- The links of the free list: `slots[i].next = int32(i + 1)`, and the last one `-1`. -/
def seedLinks (count : BitVec w) : List (BitVec 32) :=
  ((List.range count.toNat).map fun i => (BitVec.ofNat w i + 1#w).setWidth 32).set
    (count - 1#w).toNat (-1)

def newArena (k : Kernel) (cfg : Config) (pageSize slotSize count : BitVec w) :
    Except GoErr (SecureArena w) :=
  if cfg.closedAtRest then
    .error (.new "secmem.NewArena: WithClosedAtRest applies to SecureBuffer only")
  else if slotSize.sle 0#w then
    .error (.new ("secmem.NewArena: slotSize must be > 0, got " ++ toString slotSize.toInt))
  else if count.sle 0#w then
    .error (.new ("secmem.NewArena: count must be > 0, got " ++ toString count.toInt))
  else if (BitVec.ofNat w (2 ^ 31 - 1)).slt count then
    .error (.new ("secmem.NewArena: count must be <= " ++ toString (2 ^ 31 - 1 : ℕ) ++ ", got " ++
      toString count.toInt))
  else
  let stride := slotSize + BitVec.ofNat w canaryLen
  if ((BitVec.intMax w).sdiv count - BitVec.ofNat w canaryLen).slt slotSize then
    .error (.new ("secmem.NewArena: (slotSize+canary)*count overflows int (slotSize=" ++
      toString slotSize.toInt ++ ", count=" ++ toString count.toInt ++ ")"))
  else
  match gateInsecure platformHasSecureMemory cfg with
  | some e => .error (.wrap "secmem.NewArena: " e)
  | none =>
  let totalBytes := stride * count
  match cfg.alloc k pageSize totalBytes with
  | .error e => .error (.wrap "secmem.NewArena: " e)
  | .ok region =>
  match k.canaryInit with
  | some e => .error (.wrap "secmem.NewArena: " e)
  | none =>
  match k.register with
  | some e => .error (.wrap "secmem.NewArena: " e)
  | none =>
    .ok { region
          canary := wordCanary stride slotSize count region.innerLen
          next := seedLinks count
          freeHead := 0
          freeTail := (count - 1#w).setWidth 32
          slotSize
          stride
          count }

/-- The window of the slot `idx` that `WithBytesErr` hands out. -/
def SecureArena.window (a : SecureArena w) (idx : BitVec 32) : BitVec w × BitVec w :=
  let start := idx.signExtend w * a.stride
  (start, start + a.slotSize)

/-! ## The unbounded integers -/

/-- `n` bytes rounded up to whole pages. -/
def roundUp (page n : ℤ) : ℤ := (n + page - 1) / page * page

/-- Every size of an arena of `count` slots of `slotSize` bytes has a word: the stride, the slab,
the slab rounded to pages, and the mapping with its guards; and a count of slots is an
`int32`. -/
structure Representable (w : ℕ) (page slotSize count : ℤ) : Prop where
  stride : Fits w (slotSize + canaryLen)
  slab : Fits w ((slotSize + canaryLen) * count)
  rounding : Fits w ((slotSize + canaryLen) * count + page - 1)
  rounded : Fits w (roundUp page ((slotSize + canaryLen) * count))
  total : Fits w (roundUp page ((slotSize + canaryLen) * count) + 2 * page)
  links : Fits 32 count

/-- The words of an arena are the exact sizes. -/
structure Exact (page slotSize count : ℤ) (a : SecureArena w) : Prop where
  slotSize_eq : a.slotSize.toInt = slotSize
  count_eq : a.count.toInt = count
  stride_eq : a.stride.toInt = slotSize + canaryLen
  slab_eq : (a.stride * a.count).toInt = (slotSize + canaryLen) * count
  inner_eq : a.region.innerLen.toInt = roundUp page ((slotSize + canaryLen) * count)
  outer_eq : a.region.outer.toInt = roundUp page ((slotSize + canaryLen) * count) + 2 * page

/-- The free list runs through the slots in order, each link an `int32`. -/
structure Seeded (count : ℤ) (a : SecureArena w) : Prop where
  length : (a.next.length : ℤ) = count
  link : ∀ i : ℕ, i + 1 < count → a.next[i]?.map BitVec.toInt = some (i + 1 : ℤ)
  last : ∀ i : ℕ, i + 1 = count → a.next[i]?.map BitVec.toInt = some (-1)
  freeHead : a.freeHead.toInt = 0
  freeTail : a.freeTail.toInt = count - 1

/-- Each window has the bytes of its slot, inside the region, and is followed by a whole strip
before the next one begins. -/
structure Spaced (slotSize count : ℤ) (a : SecureArena w) : Prop where
  start : ∀ idx : BitVec 32, 0 ≤ idx.toInt → idx.toInt < count →
    (a.window idx).1.toInt = idx.toInt * (slotSize + canaryLen)
  stop : ∀ idx : BitVec 32, 0 ≤ idx.toInt → idx.toInt < count →
    (a.window idx).2.toInt = idx.toInt * (slotSize + canaryLen) + slotSize
  within : ∀ idx : BitVec 32, 0 ≤ idx.toInt → idx.toInt < count →
    0 ≤ (a.window idx).1.toInt ∧ (a.window idx).2.toInt ≤ a.region.innerLen.toInt
  strip : ∀ idx : BitVec 32, 0 ≤ idx.toInt → idx.toInt < count →
    (a.canary.strip (idx.signExtend w)).1.toInt = (a.window idx).2.toInt ∧
      (a.canary.strip (idx.signExtend w)).2.toInt = (a.window idx).2.toInt + canaryLen
  apart : ∀ idx jdx : BitVec 32, 0 ≤ idx.toInt → idx.toInt < jdx.toInt → jdx.toInt < count →
    (a.canary.strip (idx.signExtend w)).2.toInt ≤ (a.window jdx).1.toInt

/-! ## What an accepted request went through -/

section Exactness

variable {k : Kernel} {cfg : Config} {page slotSize count size : BitVec w} {a : SecureArena w}

lemma Config.alloc_eq_ok {region : SecRegion w} (h : cfg.alloc k page size = .ok region) :
    ∃ p r t, guardedSizes page size = .ok (p, r, t) ∧ region = betweenGuards p r t := by
  simp only [Config.alloc, allocMapAnon, allocSecretMem, allocMapAnonGuarded] at h
  cases hg : guardedSizes page size with
  | error e =>
    rw [hg] at h
    split at h <;> cases h
  | ok sizes =>
    obtain ⟨p, r, t⟩ := sizes
    rw [hg] at h
    refine ⟨p, r, t, rfl, ?_⟩
    cases hanon : k.mapAnon <;> cases hmemfd : k.memfdSecret <;>
      · simp only [hanon, hmemfd] at h
        split at h <;> cases h
        all_goals rfl

/-- The checks of `NewArena` that an arena's sizes passed, and what it then consists of. -/
structure Admitted (k : Kernel) (cfg : Config) (page slotSize count : BitVec w)
    (a : SecureArena w) : Prop where
  slotSize_pos : 0 < slotSize.toInt
  count_pos : 0 < count.toInt
  count_le : count.toInt ≤ (BitVec.ofNat w (2 ^ 31 - 1)).toInt
  product : slotSize.toInt ≤ ((BitVec.intMax w).sdiv count - BitVec.ofNat w canaryLen).toInt
  region : cfg.alloc k page ((slotSize + BitVec.ofNat w canaryLen) * count) = .ok a.region
  eq : a = {
    region := a.region
    canary := wordCanary (slotSize + BitVec.ofNat w canaryLen) slotSize count a.region.innerLen
    next := seedLinks count
    freeHead := 0
    freeTail := (count - 1#w).setWidth 32
    slotSize
    stride := slotSize + BitVec.ofNat w canaryLen
    count }

lemma newArena_eq_ok (h : newArena k cfg page slotSize count = .ok a) :
    Admitted k cfg page slotSize count a := by
  simp only [newArena, BitVec.sle_eq_decide, BitVec.slt_eq_decide, BitVec.toInt_zero,
    decide_eq_true_eq] at h
  split_ifs at h with hclosed hslot hcount hmax hproduct
  split at h
  · cases h
  split at h
  · cases h
  next region hregion =>
  split at h
  · cases h
  split at h
  · cases h
  obtain rfl := Except.ok.inj h
  exact { slotSize_pos := not_le.mp hslot
          count_pos := not_le.mp hcount
          count_le := not_lt.mp hmax
          product := not_lt.mp hproduct
          region := hregion
          eq := rfl }

/-! ## Rounding to pages -/

lemma le_roundUp {p n : ℤ} (hp : 0 < p) : n ≤ roundUp p n := by
  have := Int.lt_ediv_add_one_mul_self (n + p - 1) hp
  rw [Int.add_mul] at this
  simp only [roundUp]
  omega

lemma roundUp_le {p n : ℤ} (hp : 0 < p) : roundUp p n ≤ n + p - 1 :=
  Int.ediv_mul_le _ hp.ne'

variable (hw : 32 ≤ w)
include hw

/-- Accepted sizes are rounded and guarded without a wrap. -/
lemma guardedSizes_exact (hpage : 0 < page.toInt) (hpage' : page.toInt ≤ 2 ^ 16)
    {p r t : BitVec w} (h : guardedSizes page size = .ok (p, r, t)) :
    0 < size.toInt ∧ p = page ∧ Fits w (size.toInt + page.toInt - 1) ∧
      Fits w (roundUp page.toInt size.toInt + 2 * page.toInt) ∧
      r.toInt = roundUp page.toInt size.toInt ∧
      t.toInt = roundUp page.toInt size.toInt + 2 * page.toInt := by
  have hw0 : 0 < w := by omega
  have hM := pow_thirtyOne_le hw
  have h3p : (3#w * page).toInt = 3 * page.toInt :=
    toInt_mul_of_fits hw0 (toInt_word hw 3 (by decide)) rfl (fits_of_lt hw (by omega) (by omega))
  have h2p : (2#w * page).toInt = 2 * page.toInt :=
    toInt_mul_of_fits hw0 (toInt_word hw 2 (by decide)) rfl (fits_of_lt hw (by omega) (by omega))
  have hmax : (BitVec.intMax w - 3#w * page).toInt = 2 ^ (w - 1) - 1 - 3 * page.toInt :=
    toInt_sub_of_fits hw0 BitVec.toInt_intMax h3p ⟨by omega, by omega⟩
  simp only [guardedSizes, BitVec.sle_eq_decide, BitVec.slt_eq_decide, BitVec.toInt_zero,
    decide_eq_true_eq, hmax] at h
  split_ifs at h with hpos hlarge
  obtain ⟨rfl, rfl, rfl⟩ : page = p ∧ _ = r ∧ _ = t := by
    simpa only [Except.ok.injEq, Prod.mk.injEq] using h
  have hsum : (size + page).toInt = size.toInt + page.toInt :=
    toInt_add_of_fits hw0 rfl rfl ⟨by omega, by omega⟩
  have hpred : (size + page - 1#w).toInt = size.toInt + page.toInt - 1 :=
    toInt_sub_of_fits hw0 hsum (toInt_word hw 1 (by decide)) ⟨by omega, by omega⟩
  have hquot := toInt_sdiv_of_nonneg hw0 hpred rfl (by omega) hpage.le
  have hle := le_roundUp (n := size.toInt) hpage
  have hge := roundUp_le (n := size.toInt) hpage
  have hrounded : ((size + page - 1#w).sdiv page * page).toInt =
      roundUp page.toInt size.toInt :=
    toInt_mul_of_fits hw0 hquot rfl (by rw [← roundUp]; exact ⟨by omega, by omega⟩)
  have htotal : Fits w (roundUp page.toInt size.toInt + 2 * page.toInt) := ⟨by omega, by omega⟩
  exact ⟨by omega, rfl, ⟨by omega, by omega⟩, htotal, hrounded,
    toInt_add_of_fits hw0 hrounded h2p htotal⟩

/-! ## The whole request -/

section Request

variable (hpage : 0 < page.toInt) (hpage' : page.toInt ≤ 2 ^ 16)
  (h : Admitted k cfg page slotSize count a)
include h

/-- The comparison that guards the product is the one over the unbounded integers. -/
lemma Admitted.slab_lt :
    (slotSize.toInt + canaryLen) * count.toInt < 2 ^ (w - 1) ∧
      slotSize.toInt + canaryLen < 2 ^ (w - 1) := by
  have hw0 : 0 < w := by omega
  have hM := pow_thirtyOne_le hw
  have hcount := h.count_pos
  have hquot := toInt_sdiv_of_nonneg hw0 BitVec.toInt_intMax (y := count) rfl
    (by omega) hcount.le
  have hnn : (0 : ℤ) ≤ (2 ^ (w - 1) - 1) / count.toInt := Int.ediv_nonneg (by omega) hcount.le
  have hle : (2 ^ (w - 1) - 1) / count.toInt ≤ 2 ^ (w - 1) - 1 := Int.ediv_le_self _ (by omega)
  have hsub := toInt_sub_of_fits hw0 hquot (toInt_word hw canaryLen (by decide))
    ⟨by simp only [canaryLen]; omega, by simp only [canaryLen]; omega⟩
  have hproduct := h.product
  rw [hsub] at hproduct
  have hstride : slotSize.toInt + canaryLen ≤ (2 ^ (w - 1) - 1) / count.toInt := by omega
  exact ⟨Int.lt_of_le_sub_one ((Int.le_ediv_iff_mul_le hcount).mp hstride), by omega⟩

lemma Admitted.count_lt : count.toInt < 2 ^ 31 := by
  have hle := h.count_le
  rw [toInt_word hw (2 ^ 31 - 1) (by decide)] at hle
  exact Int.lt_of_le_sub_one hle

lemma Admitted.stride_eq :
    (slotSize + BitVec.ofNat w canaryLen).toInt = slotSize.toInt + canaryLen := by
  have := h.slotSize_pos
  exact toInt_add_of_fits (by omega) rfl (toInt_word hw canaryLen (by decide))
    (fits_of_nonneg (by omega) (h.slab_lt hw).2)

lemma Admitted.slab_eq :
    ((slotSize + BitVec.ofNat w canaryLen) * count).toInt =
      (slotSize.toInt + canaryLen) * count.toInt := by
  have hnn : 0 ≤ (slotSize.toInt + canaryLen) * count.toInt :=
    Int.mul_nonneg (by have := h.slotSize_pos; omega) h.count_pos.le
  exact toInt_mul_of_fits (by omega) (h.stride_eq hw) rfl (fits_of_nonneg hnn (h.slab_lt hw).1)

include hpage hpage'

/-- An arena that is returned has representable sizes, and has exactly them. -/
lemma Admitted.exact : Representable w page.toInt slotSize.toInt count.toInt ∧
    Exact page.toInt slotSize.toInt count.toInt a := by
  have hw0 : 0 < w := by omega
  obtain ⟨p, r, t, hsizes, hregion⟩ := Config.alloc_eq_ok h.region
  obtain ⟨hpos, rfl, hrounding, htotal, hr, ht⟩ := guardedSizes_exact hw hpage hpage' hsizes
  have hslab := h.slab_eq hw
  rw [hslab] at hpos hrounding htotal hr ht
  have hrounded := le_roundUp (n := (slotSize.toInt + canaryLen) * count.toInt) hpage
  have hfits : Fits w (roundUp p.toInt ((slotSize.toInt + canaryLen) * count.toInt)) :=
    htotal.of_nonneg (by omega) (by omega)
  constructor
  · exact {
      stride := h.stride_eq hw ▸ fits_toInt _
      slab := hslab ▸ fits_toInt _
      rounding := hrounding
      rounded := hfits
      total := htotal
      links := ⟨by have := h.count_pos; omega, h.count_lt hw⟩ }
  · rw [h.eq, hregion]
    exact {
      slotSize_eq := rfl
      count_eq := rfl
      stride_eq := h.stride_eq hw
      slab_eq := hslab
      inner_eq := by
        rw [← hr]
        exact congrArg BitVec.toInt (add_sub_cancel_left p r)
      outer_eq := ht }

omit hpage hpage' in
lemma Admitted.seeded : Seeded count.toInt a := by
  have hw0 : 0 < w := by omega
  have hpos := h.count_pos
  have hlt := h.count_lt hw
  have hcount : (count.toNat : ℤ) = count.toInt := toNat_of_nonneg hpos.le
  have hpred : (count - 1#w).toInt = count.toInt - 1 :=
    toInt_sub_of_fits hw0 rfl (toInt_word hw 1 (by decide)) (fits_of_lt hw (by omega) (by omega))
  have hlast : (((count - 1#w).toNat : ℕ) : ℤ) = count.toInt - 1 := by
    rw [toNat_of_nonneg (by omega), hpred]
  have hlink (i : ℕ) (hi : (i : ℤ) + 1 < 2 ^ 31) :
      ((BitVec.ofNat w i + 1#w).setWidth 32).toInt = i + 1 :=
    toInt_setWidth_of_fits (by decide)
      (toInt_add_of_fits hw0 (toInt_word hw i (by omega)) (toInt_word hw 1 (by decide))
        (fits_of_lt hw (by omega) hi)) (by omega) ⟨by omega, hi⟩
  rw [h.eq]
  refine { length := ?_, link := fun i hi => ?_, last := fun i hi => ?_, freeHead := rfl,
           freeTail := ?_ }
  · simpa [seedLinks] using hcount
  · have hne : (count - 1#w).toNat ≠ i := by omega
    simp only [seedLinks, List.getElem?_set_ne hne, List.getElem?_map,
      List.getElem?_range (show i < count.toNat by omega), Option.map_some,
      hlink i (by omega)]
  · have heq : (count - 1#w).toNat = i := by omega
    have hi : i < count.toNat := by omega
    simp [seedLinks, heq, hi]
  · exact toInt_setWidth_of_fits (by decide) hpred (by omega) ⟨by omega, by omega⟩

/-- Slot `i` and its strip end before slot `i + 1` begins, and inside the slab. -/
lemma Admitted.spaced : Spaced slotSize.toInt count.toInt a := by
  have hw0 : 0 < w := by omega
  obtain ⟨hrep, hexact⟩ := h.exact hw hpage hpage'
  have hslot := h.slotSize_pos
  have hslab := (h.slab_lt hw).1
  have hinner := le_roundUp (n := (slotSize.toInt + canaryLen) * count.toInt) hpage
  rw [← hexact.inner_eq] at hinner
  set stride := slotSize.toInt + canaryLen with hstride
  have hcanary : a.canary.stride = a.stride ∧ a.canary.slotSize = a.slotSize := by
    rw [h.eq]
    exact ⟨rfl, rfl⟩
  -- the end of slot `i`, in the order of multiples of the stride
  have hmul {i j : ℤ} (hi : i + 1 ≤ j) : i * stride + stride ≤ j * stride := by
    have := Int.mul_le_mul_of_nonneg_right hi (show 0 ≤ stride by omega)
    rwa [Int.add_mul, Int.one_mul] at this
  have hidx {idx : BitVec 32} : (idx.signExtend w).toInt = idx.toInt :=
    BitVec.toInt_signExtend_of_le hw
  have hbound {idx : BitVec 32} (h₀ : 0 ≤ idx.toInt) (h₁ : idx.toInt < count.toInt) :
      0 ≤ idx.toInt * stride ∧ idx.toInt * stride + stride ≤ stride * count.toInt := by
    rw [Int.mul_comm stride]
    exact ⟨Int.mul_nonneg h₀ (by omega), hmul h₁⟩
  have hstart {idx : BitVec 32} (h₀ : 0 ≤ idx.toInt) (h₁ : idx.toInt < count.toInt) :
      (a.window idx).1.toInt = idx.toInt * stride := by
    have := hbound h₀ h₁
    exact toInt_mul_of_fits hw0 hidx hexact.stride_eq (fits_of_nonneg this.1 (by omega))
  have hstop {idx : BitVec 32} (h₀ : 0 ≤ idx.toInt) (h₁ : idx.toInt < count.toInt) :
      (a.window idx).2.toInt = idx.toInt * stride + slotSize.toInt := by
    have := hbound h₀ h₁
    exact toInt_add_of_fits hw0 (hstart h₀ h₁) hexact.slotSize_eq
      (fits_of_nonneg (by omega) (by omega))
  have hstrip {idx : BitVec 32} (h₀ : 0 ≤ idx.toInt) (h₁ : idx.toInt < count.toInt) :
      (a.canary.strip (idx.signExtend w)).2.toInt = idx.toInt * stride + stride := by
    have := hbound h₀ h₁
    have hlt := h.count_lt hw
    have hsucc : (idx.signExtend w + 1#w).toInt = idx.toInt + 1 :=
      toInt_add_of_fits hw0 hidx (toInt_word hw 1 (by decide))
        (fits_of_lt hw (by omega) (by omega))
    have hsplit : (idx.toInt + 1) * stride = idx.toInt * stride + stride := by
      rw [Int.add_mul, Int.one_mul]
    rw [WordLayout.strip, hcanary.1, ← hsplit]
    exact toInt_mul_of_fits hw0 hsucc hexact.stride_eq (fits_of_nonneg (by omega) (by omega))
  refine { start := fun idx => hstart, stop := fun idx => hstop, within := fun idx h₀ h₁ => ?_,
           strip := fun idx h₀ h₁ => ⟨?_, ?_⟩, apart := fun idx jdx h₀ h₁ h₂ => ?_ }
  · have := hbound h₀ h₁
    rw [hstart h₀ h₁, hstop h₀ h₁]
    omega
  · rw [WordLayout.strip, hcanary.1, hcanary.2]
    rfl
  · rw [hstrip h₀ h₁, hstop h₀ h₁]
    omega
  · rw [hstrip h₀ (h₁.trans h₂), hstart (h₀.trans h₁.le) h₂]
    exact hmul h₁

end Request

end Exactness

/-! ## The result -/

/-- The page sizes: powers of two of at most 64 KiB. -/
lemma toInt_page (hw : 32 ≤ w) {e : ℕ} (he : e ≤ 16) :
    (BitVec.ofNat w (2 ^ e)).toInt = 2 ^ e ∧ (0 : ℤ) < 2 ^ e ∧ (2 : ℤ) ^ e ≤ 2 ^ 16 := by
  have hle : (2 : ℤ) ^ e ≤ 2 ^ 16 := pow_le_pow_right₀ (by decide) he
  refine ⟨?_, by positivity, hle⟩
  rw [toInt_word hw _ (by push_cast; omega)]
  push_cast
  rfl

section Result

variable (hw : 32 ≤ w) (e : ℕ) (he : e ≤ 16) {k : Kernel} {cfg : Config}
  {slotSize count : BitVec w} {a : SecureArena w}
include hw he

lemma newArena_sizes (h : newArena k cfg (BitVec.ofNat w (2 ^ e)) slotSize count = .ok a) :
    Representable w (2 ^ e) slotSize.toInt count.toInt ∧
      Exact (2 ^ e) slotSize.toInt count.toInt a ∧ Seeded count.toInt a ∧
      Spaced slotSize.toInt count.toInt a := by
  have ha := newArena_eq_ok h
  obtain ⟨hpage, hpos, hle⟩ := toInt_page hw he
  rw [← hpage] at hpos hle ⊢
  obtain ⟨hrep, hexact⟩ := ha.exact hw hpos hle
  exact ⟨hrep, hexact, ha.seeded hw, ha.spaced hw hpos hle⟩

end Result

/-- The request for an arena, for any width of `int` of at least 32 bits and any page size of at
most 64 KiB.  An arena that is returned has sizes that words can hold, and has exactly them; its
free list and its slots' windows are the intended ones, with a whole canary strip between two
slots.  Sizes that words cannot hold are refused. -/
theorem newArena_exact (hw : 32 ≤ w) (e : ℕ) (he : e ≤ 16) (k : Kernel) (cfg : Config)
    (slotSize count : BitVec w) :
    (∀ a, newArena k cfg (BitVec.ofNat w (2 ^ e)) slotSize count = .ok a →
      Representable w (2 ^ e) slotSize.toInt count.toInt ∧
        Exact (2 ^ e) slotSize.toInt count.toInt a ∧ Seeded count.toInt a ∧
        Spaced slotSize.toInt count.toInt a) ∧
    (¬Representable w (2 ^ e) slotSize.toInt count.toInt →
      ∃ err, newArena k cfg (BitVec.ofNat w (2 ^ e)) slotSize count = .error err) := by
  refine ⟨fun a h => newArena_sizes hw e he h, fun hrep => ?_⟩
  cases h : newArena k cfg (BitVec.ofNat w (2 ^ e)) slotSize count with
  | error err => exact ⟨err, rfl⟩
  | ok a => exact absurd (newArena_sizes hw e he h).1 hrep

/-- The largest slab of 32-bit words on pages of 64 KiB is laid out, and a slot whose stride does
not fit is refused. -/
theorem newArena_largest :
    let k : Kernel := ⟨none, none, none, none⟩
    let cfg : Config := ⟨false, false, false⟩
    let s : BitVec 32 := BitVec.ofNat 32 (2 ^ 31 - 1 - 3 * 2 ^ 16 - 16)
    (∃ a, newArena k cfg (BitVec.ofNat 32 (2 ^ 16)) s 1#32 = .ok a ∧
      Exact (2 ^ 16) s.toInt 1 a) ∧
    ∃ err, newArena k cfg (BitVec.ofNat 32 (2 ^ 16)) (BitVec.ofNat 32 (2 ^ 31 - 16)) 1#32 =
      .error err := by
  intro k cfg s
  constructor
  · have hok := (newArena_exact (w := 32) le_rfl 16 le_rfl k cfg s 1#32).1
    have hsome : (newArena k cfg (BitVec.ofNat 32 (2 ^ 16)) s 1#32).isOk = true := by
      decide +kernel
    generalize newArena k cfg (BitVec.ofNat 32 (2 ^ 16)) s 1#32 = r at hok hsome ⊢
    cases r with
    | error err => cases hsome
    | ok a => exact ⟨a, rfl, (hok a rfl).2.1⟩
  · refine (newArena_exact (w := 32) le_rfl 16 le_rfl k cfg _ 1#32).2 fun h => ?_
    exact absurd h.stride (by decide)

end Secmem.Arena.Sizing
