import Secmem.Arena.Programs
import Secmem.Framework.RelyGuarantee

/-!
# How the goroutines of an arena share it

The terms of the arena's concurrency as a rely–guarantee discipline.  `Chain` is what the
`alloc` mutex protects: the free list threaded through `next` is the list of the slots that are
free — even generation and not claimed by a `Release` in progress — in the order its history
gives.  `Inv` adds what holds at all times, `Rely` is what a goroutine may count on while it
holds a lock, a claim or a borrow, and `Safe` is what it has to know before each action.
-/

namespace Secmem.Arena

variable {T : Type}

/-- A slot nobody owns: its generation is even and no `Release` is still working on it. -/
def World.isFree (w : World T) (i : ℕ) : Prop :=
  w.generation i % 2 = 0 ∧ w.claims i = none

/-- Every byte of slot `i` is zero. -/
def World.slotZero (a : Shape) (w : World T) (i : ℕ) : Prop :=
  ∀ k < a.slotSize, w.mem[a.start i + k]? = some 0

/-- The free list is `l`: exactly the free slots. -/
structure Chain (a : Shape) (q : Queue) (free : ℕ → Prop) (l : List ℕ) : Prop where
  linked : LinkedQueue q.next q.freeHead q.freeTail l
  history : replay (List.range a.count) q.history = some l
  live : q.live = a.count - l.length
  mem_iff : ∀ i, i ∈ l ↔ i < a.count ∧ free i

/-- The protection the flags stand for. -/
def Slab.expected (s : Slab) : Prot :=
  if s.readOnly = true ∧ s.wiped = false then .read else .readWrite

/-- What the region lock protects: the arena has its region exactly as long as it is filed in
one of the registry's sets, and that region is mapped and protected as the flags say. -/
structure Slab.Sound (s : Slab) : Prop where
  filed : s.filed ≠ .gone ↔ s.inner = true
  mapped : s.inner = true → s.mapped = true
  prot : s.inner = true → s.prot = s.expected

/-- The slab can be read and written. -/
def Slab.Open (s : Slab) : Prop := s.mapped = true ∧ s.prot = .readWrite

structure Inv (a : Shape) (w : World T) : Prop where
  chain : w.alloc = none → ∃ l, Chain a w.queue w.isFree l
  history : ∃ l, replay (List.range a.count) w.queue.history = some l
  issued : ∀ h ∈ w.issued,
    h.idx < a.count ∧ h.generation % 2 = 1 ∧ h.generation ≤ w.generation h.idx
  nodup : w.issued.Nodup
  claimed : ∀ i t, w.claims i = some t → i < a.count ∧ w.generation i % 2 = 0
  zero : w.slab.inner = true → ∀ i < a.count, w.isFree i → w.slotZero a i
  length : w.mem.length = a.innerLen
  region : w.mu.writer = none → w.slab.Sound
  destroyed : w.slab.inner = false → w.destroyed = true
  borrows : ∀ x ∈ w.borrowing, x.2 ∈ w.issued
  apart : ∀ x ∈ w.borrowing, ∀ y ∈ w.releasing, x.2 ≠ y.2

/-- What goroutine `t` may count on when the others move the arena from `w` to `w'`. -/
structure Rely (a : Shape) (t : T) (w w' : World T) : Prop where
  alloc : w.alloc = some t →
    w'.alloc = some t ∧ w'.queue = w.queue ∧ ∀ i, w'.isFree i ↔ w.isFree i
  reader : t ∈ w'.mu.readers ↔ t ∈ w.mu.readers
  writer : w'.mu.writer = some t ↔ w.mu.writer = some t
  slab : t ∈ w.mu.readers ∨ w.mu.writer = some t → w'.slab = w.slab
  claims : ∀ i, w'.claims i = some t ↔ w.claims i = some t
  claimed : ∀ i, w.claims i = some t → w'.generation i = w.generation i ∧
    ∀ k < a.slotSize, w.mem[a.start i + k]? = some 0 → w'.mem[a.start i + k]? = some 0
  free : w.alloc = some t → ∀ i < a.count, w.isFree i → w.slotZero a i → w'.slotZero a i
  borrowing : ∀ h, (t, h) ∈ w'.borrowing ↔ (t, h) ∈ w.borrowing
  releasing : ∀ h, (t, h) ∈ w'.releasing ↔ (t, h) ∈ w.releasing
  current : ∀ h, (t, h) ∈ w.borrowing → w.generation h.idx = h.generation →
    w'.generation h.idx = h.generation
  inner : w.slab.inner = false → w'.slab.inner = false
  wiped : w.slab.wiped = true → w'.slab.wiped = true
  destroyed : w.destroyed = true → w'.destroyed = true
  issued : ∀ h ∈ w.issued, h ∈ w'.issued

/-- The handle is its slot's current owner, and `t`'s borrow through it has the slab. -/
structure Borrowed (t : T) (h : ArenaSlot) (w : World T) : Prop where
  borrowing : (t, h) ∈ w.borrowing
  issued : h ∈ w.issued
  reader : t ∈ w.mu.readers
  current : w.generation h.idx = h.generation

/-- `t`'s `Release` has retired the handle and not yet given the slot back. -/
structure Claimed (t : T) (h : ArenaSlot) (w : World T) : Prop where
  issued : h ∈ w.issued
  claims : w.claims h.idx = some t
  retired : w.generation h.idx = h.generation + 1

/-- What goroutine `t` must know before it performs an action. -/
def Safe (a : Shape) (t : T) : Act → World T → Prop
  | .allocUnlock, w => w.alloc = some t ∧ ∃ l, Chain a w.queue w.isFree l
  | .readFreeHead, w | .readFreeTail, w | .readNext _, w | .writeFreeHead _, w
  | .writeFreeTail _, w | .writeNext _ _, w | .addLive _, w => w.alloc = some t
  | .addGeneration i, w => w.alloc = some t ∧ i < a.count ∧ w.isFree i ∧ w.slotZero a i ∧
      ∃ l, replay (List.range a.count) w.queue.history = some (i :: l)
  | .casGeneration h, w => (t, h) ∈ w.releasing ∧ h ∈ w.issued
  | .unlock, w => w.mu.writer = some t ∧ w.slab.Sound
  | .clearRegion, w => w.mu.writer = some t ∧ w.destroyed = true
  | .writeReadOnly _, w | .protect _, w | .storeWiped, w | .unmap, w | .take, w | .takeWiped, w
  | .moveToWiped, w | .returnToLive, w => w.mu.writer = some t
  | .fillStrip h, w | .stripIntact h, w => Claimed t h w ∧ t ∈ w.mu.readers ∧ w.slab.Open
  | .wipeByte h k, w => Claimed t h w ∧ t ∈ w.mu.readers ∧ w.slab.Open ∧ k < a.slotSize
  | .refuses _, w => t ∈ w.mu.readers ∧ w.slab.mapped = true ∧ w.slab.prot = .read
  | .callbackRuns h, w => Borrowed t h w
  | .callbackWrite h k _, w => Borrowed t h w ∧ k < a.slotSize
  | .slabIntact, w | .wipeSlab, w => w.mu.writer = some t ∧ w.slab.Open
  | .acquireReturns r, w => w.alloc = some t ∧
      match r with
      | .error e => e = Sentinel.errDestroyed ∧ w.destroyed = true ∨
          e = Sentinel.errWiped ∧ w.slab.wiped = true ∨
          e = Sentinel.errArenaFull ∧ Chain a w.queue w.isFree []
      | .ok h => ∃ es l, w.queue.history = es ++ [.popped h.idx] ∧
          replay (List.range a.count) es = some (h.idx :: l)
  | .appended h, w => w.alloc = some t ∧ Claimed t h w ∧
      (w.slab.inner = true → w.slotZero a h.idx) ∧
      ∃ l, replay (List.range a.count) w.queue.history = some l ∧ h.idx ∉ l
  | _, _ => True

/-! ## Addresses -/

section Addresses

variable {a : Shape}

lemma Shape.slotSize_lt_stride (a : Shape) : a.slotSize < a.stride := by
  rw [Shape.stride, canaryLen]
  omega

/-- Offsets within a stride determine the slot. -/
lemma Shape.start_add_inj {i j k l : ℕ} (hk : k < a.stride) (hl : l < a.stride)
    (h : a.start i + k = a.start j + l) : i = j ∧ k = l := by
  have hpos : 0 < a.stride := by omega
  have hi : (a.start i + k) / a.stride = i := by
    rw [Shape.start, Nat.mul_comm, Nat.mul_add_div hpos, Nat.div_eq_of_lt hk, Nat.add_zero]
  have hj : (a.start j + l) / a.stride = j := by
    rw [Shape.start, Nat.mul_comm, Nat.mul_add_div hpos, Nat.div_eq_of_lt hl, Nat.add_zero]
  have hij : i = j := by rw [← hi, ← hj, h]
  subst hij
  exact ⟨rfl, by omega⟩

/-- No byte of a slot lies in a canary strip. -/
lemma Shape.not_in_strip {i j k : ℕ} (hk : k < a.slotSize) :
    ¬(a.start i + a.slotSize ≤ a.start j + k ∧ a.start j + k < a.start i + a.stride) := by
  rintro ⟨hlo, hhi⟩
  have hlt := a.slotSize_lt_stride
  have h : a.start i + (a.start j + k - a.start i) = a.start j + k := by omega
  have := (Shape.start_add_inj (a := a) (by omega) (by omega) h).2
  omega

lemma Shape.start_add_lt {i k : ℕ} (hi : i < a.count) (hk : k < a.slotSize) :
    a.start i + k < a.count * a.stride := by
  have hlt := a.slotSize_lt_stride
  calc a.start i + k < i * a.stride + a.stride := by rw [Shape.start]; omega
    _ = (i + 1) * a.stride := by rw [Nat.add_mul, Nat.one_mul]
    _ ≤ a.count * a.stride := Nat.mul_le_mul_right _ hi

lemma Shape.start_add_lt_innerLen {i k : ℕ} (hi : i < a.count) (hk : k < a.slotSize) :
    a.start i + k < a.innerLen :=
  lt_of_lt_of_le (Shape.start_add_lt hi hk) a.fits

end Addresses

end Secmem.Arena
