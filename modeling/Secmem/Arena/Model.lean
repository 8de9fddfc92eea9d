import Secmem.Canary
import Secmem.Errors
import Secmem.Framework.LinkedQueue
import Secmem.Framework.Program
import Secmem.Framework.RWLock
import Secmem.Memory

/-!
# `SecureArena`

One arena and its registration, as in `securearena.go` and `registry.go`, with any number of
goroutines acting on it.  The state is grouped by what guards it: `Queue` is only touched with
the `alloc` mutex held, `Slab` only with the region lock held exclusively, and the generations
are atomics.

Each access to a shared word is an action of its own, and so is each byte a release or a
callback writes; a goroutine can be interrupted between any two.  The region lock is the
abstract one.

A few fields are ghosts, which no action reads for its result: the handles issued so far, the
slots claimed by a `Release` that has not appended them yet, and the history of the free list.
The calls in progress through each handle are ghosts too, but they do restrict the runs: they
state the single-owner rule on the users of a handle, by which a `Release` of the handle never
overlaps a borrow through it.
-/

namespace Secmem.Arena

/-- The shape of an arena that `NewArena` admits. -/
structure Shape where
  slotSize : ℕ
  count : ℕ
  innerLen : ℕ
  slotSize_pos : 0 < slotSize
  count_pos : 0 < count
  count_le : count ≤ 2 ^ 31 - 1
  fits : count * (slotSize + canaryLen) ≤ innerLen

namespace Shape

variable (a : Shape)

def stride : ℕ := a.slotSize + canaryLen

/-- The first byte of slot `i`. -/
def start (i : ℕ) : ℕ := i * a.stride

def canary : CanaryLayout := arenaCanary a.stride a.slotSize a.count a.innerLen

end Shape

/-- A handle: the slot and the generation it was acquired with. -/
structure ArenaSlot where
  idx : ℕ
  generation : ℕ
  deriving DecidableEq, Repr

/-- The free list and the live counter, guarded by `alloc`; `history` is a ghost. -/
structure Queue where
  next : ℕ → ℤ
  freeHead : ℤ
  freeTail : ℤ
  live : ℤ
  history : List (QueueEvent ℕ)

/-- In which of the registry's sets the slab is filed; the wiped set's entries have their
canary layout cleared. -/
inductive Filed
  | live
  | wiped
  | gone
  deriving DecidableEq, Repr

/-- What goes with the slab and is guarded by the region lock.  `inner` is whether the arena
still has its region, `a.region.inner != nil`; `mapped` and `prot` are the mapping's own. -/
structure Slab where
  inner : Bool
  readOnly : Bool
  wiped : Bool
  filed : Filed
  mapped : Bool
  prot : Prot
  deriving DecidableEq, Repr

/-- An arena, its registration and its ghosts, shared by the goroutines `T`. -/
structure World (T : Type) where
  alloc : Option T
  queue : Queue
  generation : ℕ → ℕ
  destroyed : Bool
  released : Bool
  mu : RWLock T
  slab : Slab
  mem : List UInt8
  issued : List ArenaSlot
  claims : ℕ → Option T
  borrowing : List (T × ArenaSlot)
  releasing : List (T × ArenaSlot)

/-- The outcome of a call to the platform: it succeeds, or fails with an error.  For `tryLock`
it is whether a free lock is taken. -/
abbrev Choice := Option ℕ

/-! ## Actions -/

inductive Act
  -- the `alloc` mutex and what it guards
  | allocLock
  | allocUnlock
  | readFreeHead
  | writeFreeHead (i : ℤ)
  | readFreeTail
  | writeFreeTail (i : ℤ)
  | readNext (i : ℕ)
  | writeNext (i : ℕ) (n : ℤ)
  | addLive (d : ℤ)
  -- atomics
  | loadDestroyed
  | storeDestroyed
  | storeReleased
  | loadWiped
  | loadGeneration (i : ℕ)
  | addGeneration (i : ℕ)
  | casGeneration (h : ArenaSlot)
  -- the region lock
  | rLock
  | rUnlock
  | lock
  | tryLock
  | unlock
  -- the slab
  | readInner
  | clearRegion
  | readReadOnly
  | writeReadOnly (b : Bool)
  | protect (p : Prot)
  | stripIntact (h : ArenaSlot)
  | fillStrip (h : ArenaSlot)
  | wipeByte (h : ArenaSlot) (k : ℕ)
  | callbackWrite (h : ArenaSlot) (k : ℕ) (v : UInt8)
  | slabIntact
  | wipeSlab
  | storeWiped
  | madviseBeforeFree
  | unmap
  -- the registry
  | peekAny
  | take
  | takeWiped
  | moveToWiped
  | returnToLive
  -- ghosts
  | acquireReturns (r : Except GoErr ArenaSlot)
  | refuses (h : ArenaSlot)
  | appended (h : ArenaSlot)
  | callbackRuns (h : ArenaSlot)
  | enterBorrow (h : ArenaSlot)
  | leaveBorrow (h : ArenaSlot)
  | enterRelease (h : ArenaSlot)
  | leaveRelease (h : ArenaSlot)

/-- The result of an action. -/
@[reducible] def Res : Act → Type
  | .readFreeHead | .readFreeTail | .readNext _ => ℤ
  | .loadDestroyed | .loadWiped | .casGeneration _ | .tryLock | .readInner | .readReadOnly
  | .stripIntact _ | .slabIntact | .peekAny | .take | .takeWiped => Bool
  | .loadGeneration _ | .addGeneration _ => ℕ
  | .protect _ | .madviseBeforeFree | .unmap => Option GoErr
  | .moveToWiped => Option Bool
  | _ => Unit

/-- A borrow's callback: the bytes it writes into its slice, in order, and the error it
returns. -/
structure Callback where
  writes : List (ℕ × UInt8)
  err : Option GoErr
  deriving DecidableEq, Repr

/-- The calls a goroutine can begin.  A nil or zero-value handle is `none`, and so is a nil
callback. -/
inductive Call
  | acquire
  | withBytesErr (s : Option ArenaSlot) (fn : Option Callback)
  | release (s : Option ArenaSlot)
  | readOnly
  | readWrite
  | wipeInPlace
  | tryWipeInPlace
  | destroy

abbrev ArenaProg := Prog Act Res Call

section Exec

variable {T : Type} [DecidableEq T]

/-- An access to the slab: it faults unless the pages are mapped with the access allowed. -/
def guarded {α : Type} (w : World T) (allowed : Prot → Bool) (o : Outcome (World T) α) :
    Outcome (World T) α :=
  if w.slab.mapped = true ∧ allowed w.slab.prot = true then o else .fault

/-- Slot `i`'s canary strip. -/
def strip (a : Shape) (w : World T) (i : ℕ) : List UInt8 :=
  (w.mem.drop (a.start i + a.slotSize)).take canaryLen

def exec (a : Shape) (pattern : ℕ → UInt8) (t : T) (i : Act) (c : Choice) (w : World T) :
    Outcome (World T) (Res i) :=
  match i with
  | .allocLock => if w.alloc = none then .done () { w with alloc := some t } else .blocked
  | .allocUnlock => .done () { w with alloc := none }
  | .readFreeHead => .done w.queue.freeHead w
  | .writeFreeHead i => .done () { w with queue := { w.queue with freeHead := i } }
  | .readFreeTail => .done w.queue.freeTail w
  | .writeFreeTail i => .done () { w with queue := { w.queue with freeTail := i } }
  | .readNext i => .done (w.queue.next i) w
  | .writeNext i n =>
    .done () { w with queue := { w.queue with next := Function.update w.queue.next i n } }
  | .addLive d => .done () { w with queue := { w.queue with live := w.queue.live + d } }
  | .loadDestroyed => .done w.destroyed w
  | .storeDestroyed => .done () { w with destroyed := true }
  | .storeReleased => .done () { w with released := true }
  | .loadWiped => .done w.slab.wiped w
  | .loadGeneration i => .done (w.generation i) w
  | .addGeneration i => .done (w.generation i + 1) { w with
      generation := Function.update w.generation i (w.generation i + 1)
      issued := w.issued ++ [⟨i, w.generation i + 1⟩]
      queue := { w.queue with history := w.queue.history ++ [.popped i] } }
  | .casGeneration h =>
    if w.generation h.idx = h.generation then .done true { w with
      generation := Function.update w.generation h.idx (h.generation + 1)
      claims := Function.update w.claims h.idx (some t) }
    else .done false w
  | .rLock =>
    match w.mu.rLock t with
    | some mu => .done () { w with mu := mu }
    | none => .blocked
  | .rUnlock => .done () { w with mu := w.mu.rUnlock t }
  | .lock =>
    match w.mu.lock t with
    | some mu => .done () { w with mu := mu }
    | none => .blocked
  | .tryLock =>
    match c, w.mu.lock t with
    | none, some mu => .done true { w with mu := mu }
    | _, _ => .done false w
  | .unlock => .done () { w with mu := w.mu.unlock }
  | .readInner => .done w.slab.inner w
  | .clearRegion => .done () { w with slab := { w.slab with inner := false } }
  | .readReadOnly => .done w.slab.readOnly w
  | .writeReadOnly b => .done () { w with slab := { w.slab with readOnly := b } }
  | .protect p =>
    match c with
    | none => .done none { w with slab := { w.slab with prot := p } }
    | some n => .done (some (.os n)) w
  | .stripIntact h => guarded w Prot.readable (.done (canaryIntact pattern (strip a w h.idx)) w)
  | .fillStrip h => guarded w Prot.writable (.done () { w with
      mem := fillCanary pattern w.mem (a.start h.idx + a.slotSize) (a.start h.idx + a.stride) })
  | .wipeByte h k => guarded w Prot.writable (.done () { w with
      mem := w.mem.set (a.start h.idx + k) 0 })
  | .callbackWrite h k v => guarded w Prot.writable (.done () { w with
      mem := w.mem.set (a.start h.idx + k) v })
  | .slabIntact => guarded w Prot.readable (.done (a.canary.intact pattern w.mem) w)
  | .wipeSlab => guarded w Prot.writable (.done () { w with mem := wipeBytes w.mem })
  | .storeWiped => .done () { w with slab := { w.slab with wiped := true } }
  | .madviseBeforeFree => .done (c.map .os) w
  -- `freeSecretMem` and `retireSecretMem`: both end the slab's life as memory
  | .unmap =>
    match c with
    | none => .done none { w with slab := { w.slab with mapped := false } }
    | some n => .done (some (.os n)) w
  | .peekAny => .done (w.slab.filed != .gone) w
  | .take =>
    if w.slab.filed = .live then .done true { w with slab := { w.slab with filed := .gone } }
    else .done false w
  | .takeWiped =>
    if w.slab.filed = .wiped then .done true { w with slab := { w.slab with filed := .gone } }
    else .done false w
  | .moveToWiped =>
    match w.slab.filed with
    | .live => .done (some true) { w with slab := { w.slab with filed := .wiped } }
    | .wiped => .done (some false) w
    | .gone => .done none w
  | .returnToLive =>
    if w.slab.filed = .wiped then .done () { w with slab := { w.slab with filed := .live } }
    else .done () w
  | .acquireReturns _ => .done () w
  -- `Release` returns `ErrReadOnly`
  | .refuses _ => .done () w
  | .appended h => .done () { w with
      claims := Function.update w.claims h.idx none
      queue := { w.queue with history := w.queue.history ++ [.pushed h.idx] } }
  | .callbackRuns _ => .done () w
  | .enterBorrow h =>
    if h ∈ w.issued ∧ ∀ x ∈ w.releasing, x.2 ≠ h then
      .done () { w with borrowing := (t, h) :: w.borrowing }
    else .blocked
  | .leaveBorrow h => .done () { w with borrowing := w.borrowing.erase (t, h) }
  | .enterRelease h =>
    if h ∈ w.issued ∧ ∀ x ∈ w.borrowing, x.2 ≠ h then
      .done () { w with releasing := (t, h) :: w.releasing }
    else .blocked
  | .leaveRelease h => .done () { w with releasing := w.releasing.erase (t, h) }

end Exec

end Secmem.Arena
