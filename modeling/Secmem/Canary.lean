import Mathlib.Data.List.Basic
import Mathlib.Data.Nat.Notation
import Mathlib.Data.UInt
import Mathlib.Tactic.Lemma

/-!
# Overflow canaries

`canary.go`: the slack of a mapping and the strips between an arena's slots hold a repeating
pattern, and the wipe checks it before it destroys it.  A `CanaryLayout` describes the armed
zones without listing them; `arm` and `intact` walk the same list of zones.

The pattern is process-global and drawn once, so it is a parameter `pattern` here, indexed
modulo `canaryLen`.
-/

namespace Secmem

def canaryLen : ℕ := 16

/-- `fillCanary` on the bytes `[lo, hi)` of a region. -/
def fillCanary (pattern : ℕ → UInt8) (inner : List UInt8) (lo hi : ℕ) : List UInt8 :=
  inner.mapIdx fun a x => if lo ≤ a ∧ a < hi then pattern ((a - lo) % canaryLen) else x

/-- `canaryIntact`: every byte is compared, and the differences are accumulated. -/
def canaryIntact (pattern : ℕ → UInt8) (b : List UInt8) : Bool :=
  (b.zipIdx.foldl (fun acc x => acc ||| (x.1 ^^^ pattern (x.2 % canaryLen))) 0) == 0

structure CanaryLayout where
  stride : ℕ
  slotSize : ℕ
  count : ℕ
  tail : ℕ × ℕ
  deriving DecidableEq, Repr

namespace CanaryLayout

/-- The zero layout: nothing is armed. -/
def empty : CanaryLayout := ⟨0, 0, 0, (0, 0)⟩

/-- `forEachZone`: the armed ranges, in ascending order. -/
def zones (c : CanaryLayout) : List (ℕ × ℕ) :=
  ((List.range c.count).map fun i => (i * c.stride + c.slotSize, (i + 1) * c.stride)).filter
      (fun z => z.1 < z.2) ++
    if c.tail.1 < c.tail.2 then [c.tail] else []

/-- `inBounds`. -/
def inBounds (z : ℕ × ℕ) (length : ℕ) : Bool := z.1 < z.2 && z.2 ≤ length

def arm (pattern : ℕ → UInt8) (c : CanaryLayout) (inner : List UInt8) : List UInt8 :=
  c.zones.foldl
    (fun b z => if inBounds z b.length then fillCanary pattern b z.1 z.2 else b) inner

def intact (pattern : ℕ → UInt8) (c : CanaryLayout) (inner : List UInt8) : Bool :=
  c.zones.all fun z =>
    !inBounds z inner.length || canaryIntact pattern ((inner.drop z.1).take (z.2 - z.1))

end CanaryLayout

def bufferCanary (usable innerLen : ℕ) : CanaryLayout :=
  if innerLen ≤ usable then .empty else ⟨0, 0, 0, (usable, innerLen)⟩

def arenaCanary (stride slotSize count innerLen : ℕ) : CanaryLayout :=
  ⟨stride, slotSize, count,
    if count * stride < innerLen then (count * stride, innerLen) else (0, 0)⟩

/-! ## What the check decides -/

private lemma or_xor_eq_zero (acc x y : UInt8) : acc ||| (x ^^^ y) = 0 ↔ acc = 0 ∧ x = y := by
  constructor
  · intro h
    have hacc : acc = 0 := by
      apply UInt8.eq_of_toBitVec_eq
      have := congrArg UInt8.toBitVec h
      exact (BitVec.or_eq_zero_iff.mp this).1
    subst hacc
    refine ⟨rfl, ?_⟩
    simpa using h
  · rintro ⟨rfl, rfl⟩
    simp

private lemma foldl_acc (pattern : ℕ → UInt8) (b : List (UInt8 × ℕ)) (acc : UInt8) :
    b.foldl (fun acc x => acc ||| (x.1 ^^^ pattern (x.2 % canaryLen))) acc = 0 ↔
      acc = 0 ∧ ∀ x ∈ b, x.1 = pattern (x.2 % canaryLen) := by
  induction b generalizing acc with
  | nil => simp
  | cons x b ih =>
    rw [List.foldl_cons, ih, or_xor_eq_zero]
    simp [and_assoc]

/-- The accumulated comparison accepts exactly the pattern. -/
lemma canaryIntact_iff {pattern : ℕ → UInt8} {b : List UInt8} :
    canaryIntact pattern b = true ↔ ∀ i (h : i < b.length), b[i] = pattern (i % canaryLen) := by
  rw [canaryIntact, beq_iff_eq, foldl_acc]
  simp only [true_and]
  constructor
  · intro h i hi
    exact h (b[i], i) (List.mem_zipIdx_iff_getElem?.mpr (by simp [hi]))
  · rintro h ⟨x, i⟩ hx
    rw [List.mem_zipIdx_iff_getElem?] at hx
    obtain ⟨hi, hxi⟩ := List.getElem?_eq_some_iff.mp hx
    rw [← hxi]
    exact h i hi

@[simp] lemma length_fillCanary (pattern : ℕ → UInt8) (inner : List UInt8) (lo hi : ℕ) :
    (fillCanary pattern inner lo hi).length = inner.length :=
  List.length_mapIdx

lemma getElem?_fillCanary {pattern : ℕ → UInt8} {inner : List UInt8} {lo hi a : ℕ}
    (h : ¬(lo ≤ a ∧ a < hi)) : (fillCanary pattern inner lo hi)[a]? = inner[a]? := by
  rw [fillCanary, List.getElem?_mapIdx]
  simp [h]

/-! ## What arming touches -/

namespace CanaryLayout

variable {pattern : ℕ → UInt8} {c : CanaryLayout}

private lemma foldl_fill (zs : List (ℕ × ℕ)) (inner : List UInt8) :
    (zs.foldl (fun b z => if inBounds z b.length then fillCanary pattern b z.1 z.2 else b)
        inner).length = inner.length ∧
      ∀ a, (∀ z ∈ zs, ¬(z.1 ≤ a ∧ a < z.2)) →
        (zs.foldl (fun b z => if inBounds z b.length then fillCanary pattern b z.1 z.2 else b)
          inner)[a]? = inner[a]? := by
  induction zs generalizing inner with
  | nil => exact ⟨rfl, fun _ _ => rfl⟩
  | cons z zs ih =>
    obtain ⟨hlen, hget⟩ := ih (if inBounds z inner.length then fillCanary pattern inner z.1 z.2
      else inner)
    rw [List.foldl_cons]
    constructor
    · rw [hlen]
      split <;> simp
    · intro a ha
      rw [hget a fun y hy => ha y (List.mem_cons_of_mem _ hy)]
      split
      · exact getElem?_fillCanary (ha z List.mem_cons_self)
      · rfl

@[simp] lemma length_arm (inner : List UInt8) : (c.arm pattern inner).length = inner.length :=
  (foldl_fill c.zones inner).1

/-- Arming leaves every byte outside the zones alone. -/
lemma getElem?_arm {inner : List UInt8} {a : ℕ} (h : ∀ z ∈ c.zones, ¬(z.1 ≤ a ∧ a < z.2)) :
    (c.arm pattern inner)[a]? = inner[a]? :=
  (foldl_fill c.zones inner).2 a h

lemma mem_zones {z : ℕ × ℕ} (h : z ∈ c.zones) :
    (∃ i < c.count, z = (i * c.stride + c.slotSize, (i + 1) * c.stride)) ∨
      z = c.tail ∧ c.tail.1 < c.tail.2 := by
  rcases List.mem_append.mp h with h | h
  · obtain ⟨i, hi, rfl⟩ := List.mem_map.mp (List.mem_filter.mp h).1
    exact Or.inl ⟨i, List.mem_range.mp hi, rfl⟩
  · split at h
    next ht => exact Or.inr ⟨List.mem_singleton.mp h, ht⟩
    next => cases h

end CanaryLayout

/-! ## The zones of an arena

A window is a half-open range of addresses.  The windows of the slots and the zones cut the region
into pieces. -/

/-- The addresses of a window. -/
def Covers (w : ℕ × ℕ) (x : ℕ) : Prop := w.1 ≤ x ∧ x < w.2

/-- Two windows without a common address. -/
def Apart (v w : ℕ × ℕ) : Prop := ∀ x, ¬(Covers v x ∧ Covers w x)

/-- The windows of the slots that the layout describes. -/
def CanaryLayout.slots (c : CanaryLayout) : List (ℕ × ℕ) :=
  (List.range c.count).map fun i => (i * c.stride, i * c.stride + c.slotSize)

section Arena

variable {slotSize count innerLen : ℕ}

/-- The layout that `NewArena` arms and registers. -/
abbrev slabCanary (slotSize count innerLen : ℕ) : CanaryLayout :=
  arenaCanary (slotSize + canaryLen) slotSize count innerLen

/-- The strip behind slot `i`. -/
abbrev slabStrip (slotSize i : ℕ) : ℕ × ℕ :=
  (i * (slotSize + canaryLen) + slotSize, i * (slotSize + canaryLen) + (slotSize + canaryLen))

lemma slabCanary_zones (slotSize count innerLen : ℕ) :
    (slabCanary slotSize count innerLen).zones =
      (List.range count).map (slabStrip slotSize) ++
        if count * (slotSize + canaryLen) < innerLen then
          [(count * (slotSize + canaryLen), innerLen)] else [] := by
  rw [CanaryLayout.zones]
  congr 1
  · rw [List.filter_eq_self.mpr]
    · exact List.map_congr_left fun i _ => by simp [slabStrip, arenaCanary, Nat.add_mul]
    · intro z hz
      obtain ⟨i, -, rfl⟩ := List.mem_map.mp hz
      simp only [arenaCanary, canaryLen, Nat.add_mul, decide_eq_true_eq]
      omega
  · simp only [arenaCanary]
    split
    · rfl
    · rw [if_neg (Nat.lt_irrefl 0)]

/-- Zone `i` of the layout is the strip behind slot `i`. -/
lemma slabCanary_getElem? {i : ℕ} (hi : i < count) :
    (slabCanary slotSize count innerLen).zones[i]? = some (slabStrip slotSize i) := by
  rw [slabCanary_zones, List.getElem?_append_left (by simpa using hi), List.getElem?_map,
    List.getElem?_range hi, Option.map_some]

lemma end_le_of_lt {s i j : ℕ} (h : i < j) : i * s + s ≤ j * s := by
  rw [← Nat.succ_mul]
  exact Nat.mul_le_mul_right _ h

lemma slabCanary_within (h : count * (slotSize + canaryLen) ≤ innerLen) {z : ℕ × ℕ}
    (hz : z ∈ (slabCanary slotSize count innerLen).zones) : z.1 < z.2 ∧ z.2 ≤ innerLen := by
  rw [slabCanary_zones] at hz
  rcases List.mem_append.mp hz with hz | hz
  · obtain ⟨i, hi, rfl⟩ := List.mem_map.mp hz
    have hle := end_le_of_lt (s := slotSize + canaryLen) (List.mem_range.mp hi)
    refine ⟨?_, hle.trans h⟩
    simp only [canaryLen]
    omega
  · split at hz
    · next hlt =>
      rw [List.mem_singleton] at hz
      subst hz
      exact ⟨hlt, le_rfl⟩
    · cases hz

/-- The windows of the slots and the zones have no address in common. -/
lemma slabCanary_apart (slotSize count innerLen : ℕ) :
    ((slabCanary slotSize count innerLen).slots ++
      (slabCanary slotSize count innerLen).zones).Pairwise Apart := by
  have hrange := List.pairwise_lt_range (n := count)
  rw [slabCanary_zones, CanaryLayout.slots, List.pairwise_append, List.pairwise_append]
  refine ⟨?_, ⟨?_, ?_, ?_⟩, ?_⟩
  · refine List.pairwise_map.mpr (hrange.imp fun {i j} hij x => ?_)
    have := end_le_of_lt (s := slotSize + canaryLen) hij
    simp only [Covers, arenaCanary]
    omega
  · refine List.pairwise_map.mpr (hrange.imp fun {i j} hij x => ?_)
    have := end_le_of_lt (s := slotSize + canaryLen) hij
    simp only [Covers]
    omega
  · split <;> simp
  · intro v hv w hw x
    obtain ⟨i, hi, rfl⟩ := List.mem_map.mp hv
    have := end_le_of_lt (s := slotSize + canaryLen) (List.mem_range.mp hi)
    split at hw
    · rw [List.mem_singleton] at hw
      subst hw
      simp only [Covers]
      omega
    · cases hw
  · intro v hv w hw x
    obtain ⟨i, hi, rfl⟩ := List.mem_map.mp hv
    rw [List.mem_range] at hi
    have hend : _ ≤ count * (slotSize + canaryLen) := end_le_of_lt hi
    rcases List.mem_append.mp hw with hw | hw
    · obtain ⟨j, -, rfl⟩ := List.mem_map.mp hw
      simp only [Covers, arenaCanary]
      rcases Nat.lt_trichotomy i j with hij | rfl | hij
      · have := end_le_of_lt (s := slotSize + canaryLen) hij
        omega
      · omega
      · have := end_le_of_lt (s := slotSize + canaryLen) hij
        omega
    · split at hw
      · rw [List.mem_singleton] at hw
        subst hw
        simp only [Covers, arenaCanary]
        omega
      · cases hw

/-- The windows of the slots and the zones cover exactly the region. -/
lemma slabCanary_covers (h : count * (slotSize + canaryLen) ≤ innerLen) (x : ℕ) :
    (∃ w ∈ (slabCanary slotSize count innerLen).slots ++
      (slabCanary slotSize count innerLen).zones, Covers w x) ↔ x < innerLen := by
  constructor
  · rintro ⟨w, hw, hx⟩
    rcases List.mem_append.mp hw with hw | hw
    · obtain ⟨i, hi, rfl⟩ := List.mem_map.mp hw
      rw [List.mem_range] at hi
      have hend : _ ≤ count * (slotSize + canaryLen) := end_le_of_lt hi
      simp only [Covers, arenaCanary] at hx
      omega
    · exact hx.2.trans_le (slabCanary_within h hw).2
  · intro hx
    rw [slabCanary_zones]
    by_cases htail : count * (slotSize + canaryLen) ≤ x
    · refine ⟨(count * (slotSize + canaryLen), innerLen), ?_, htail, hx⟩
      rw [if_pos (htail.trans_lt hx)]
      simp
    · -- the address lies in the stride of slot `x / stride`
      have hpos : 0 < slotSize + canaryLen := by simp [canaryLen]
      have hi : x / (slotSize + canaryLen) < count :=
        Nat.div_lt_of_lt_mul (by rw [Nat.mul_comm]; omega)
      have hdiv := Nat.div_add_mod' x (slotSize + canaryLen)
      have hmod := Nat.mod_lt x hpos
      by_cases hslot : x % (slotSize + canaryLen) < slotSize
      · refine ⟨_, List.mem_append_left _ (List.mem_map.mpr ⟨_, List.mem_range.mpr hi, rfl⟩), ?_⟩
        simp only [Covers, arenaCanary]
        omega
      · refine ⟨_, List.mem_append_right _ (List.mem_append_left _
          (List.mem_map.mpr ⟨_, List.mem_range.mpr hi, rfl⟩)), ?_⟩
        simp only [Covers]
        omega

end Arena

/-! ## Arming and checking agree -/

namespace CanaryLayout

variable {pattern : ℕ → UInt8} {c : CanaryLayout} {inner : List UInt8}

/-- The zone holds the pattern, restarted at its first byte. -/
def Holds (pattern : ℕ → UInt8) (inner : List UInt8) (z : ℕ × ℕ) : Prop :=
  ∀ x, Covers z x → inner[x]? = some (pattern ((x - z.1) % canaryLen))

lemma canaryIntact_window {z : ℕ × ℕ} (hz : z.2 ≤ inner.length) :
    canaryIntact pattern ((inner.drop z.1).take (z.2 - z.1)) = true ↔ Holds pattern inner z := by
  rw [canaryIntact_iff]
  constructor
  · rintro h x ⟨hlo, hhi⟩
    have hx := h (x - z.1) (by simp; omega)
    rw [List.getElem_take, List.getElem_drop] at hx
    rw [List.getElem?_eq_getElem (by omega), ← hx]
    congr 2
    omega
  · intro h i hi
    simp only [List.length_take, List.length_drop] at hi
    have hx := h (z.1 + i) ⟨by omega, by omega⟩
    rw [List.getElem?_eq_getElem (by omega), Option.some.injEq] at hx
    rw [List.getElem_take, List.getElem_drop, hx]
    congr 2
    omega

/-- The check passes exactly when every zone holds the pattern. -/
lemma intact_iff (hz : ∀ z ∈ c.zones, z.1 < z.2 ∧ z.2 ≤ inner.length) :
    c.intact pattern inner = true ↔ ∀ z ∈ c.zones, Holds pattern inner z := by
  rw [intact, List.all_eq_true]
  refine forall₂_congr fun z hmem => ?_
  obtain ⟨hlt, hle⟩ := hz z hmem
  have hin : inBounds z inner.length = true := by simp [inBounds, hlt, hle]
  rw [hin, Bool.not_true, Bool.false_or]
  exact canaryIntact_window hle

lemma holds_fillCanary {z : ℕ × ℕ} (hz : z.2 ≤ inner.length) :
    Holds pattern (fillCanary pattern inner z.1 z.2) z := by
  rintro x ⟨hlo, hhi⟩
  rw [fillCanary, List.getElem?_mapIdx, List.getElem?_eq_getElem (hhi.trans_le hz)]
  simp [hlo, hhi]

lemma Holds.fillCanary_of_apart {y z : ℕ × ℕ} (h : Holds pattern inner y)
    (hyz : Apart y z) : Holds pattern (fillCanary pattern inner z.1 z.2) y := by
  intro x hx
  rw [getElem?_fillCanary fun hxz => hyz x ⟨hx, hxz⟩]
  exact h x hx

private lemma foldl_holds {zs : List (ℕ × ℕ)} (hzs : zs.Pairwise Apart)
    (hin : ∀ z ∈ zs, z.1 < z.2 ∧ z.2 ≤ inner.length) :
    ∀ z ∈ zs, Holds pattern
      (zs.foldl (fun b z => if inBounds z b.length then fillCanary pattern b z.1 z.2 else b)
        inner) z := by
  induction zs generalizing inner with
  | nil => simp
  | cons y zs ih =>
    obtain ⟨hlt, hle⟩ := hin y List.mem_cons_self
    obtain ⟨hy, hrest⟩ := List.pairwise_cons.mp hzs
    rw [List.foldl_cons, if_pos (by simp [inBounds, hlt, hle])]
    intro z hz
    rcases List.mem_cons.mp hz with rfl | hz
    · -- the later zones do not touch the first one
      intro x hx
      rw [(foldl_fill zs _).2 x fun w hw hxw => hy w hw x ⟨hx, hxw⟩]
      exact holds_fillCanary hle x hx
    · refine ih hrest ?_ z hz
      intro w hw
      rw [length_fillCanary]
      exact hin w (List.mem_cons_of_mem _ hw)

/-- What has been armed is intact. -/
lemma intact_arm (hzs : c.zones.Pairwise Apart)
    (hin : ∀ z ∈ c.zones, z.1 < z.2 ∧ z.2 ≤ inner.length) :
    c.intact pattern (c.arm pattern inner) = true := by
  rw [intact_iff (by rw [length_arm]; exact hin)]
  exact foldl_holds hzs hin

end CanaryLayout

end Secmem
