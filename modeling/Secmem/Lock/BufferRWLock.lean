import Secmem.Framework.Interleaving
import Mathlib.Tactic.DeriveFintype

/-!
# `bufferRWLock`, one atomic operation at a time

The reader-writer lock of `buflock.go` mixes a mutex-free read path — one atomic `Add` on the
word `readers` — with slow paths under the internal mutex `mu` that block in `cond.Wait`.  The
model keeps every atomic operation on the word, every acquisition and release of `mu`, every
test of a wait condition, and the two halves of `cond.Wait` (park, re-acquire) as steps of
their own, so that any other goroutine can run in between.

A goroutine is a control point `PC`; the comment at each constructor is the operation it is
*about to* perform.  `next` performs it.  A goroutine is assumed to use the lock as its callers
do: it calls `rUnlock` only as an enrolled reader and `unlock` only as the active writer.  What
it does between two calls is up to it, so an idle goroutine may begin any of `rLock`, `lock`
and `tryLock` at any time.

`cond.Broadcast` wakes every parked goroutine at once; `cond.Wait` releases the mutex and parks
in one step, which is the atomicity `sync.Cond` promises.

`bias` is a ghost: it records whether `-bufMaxReaders` is currently part of the word.  No step
reads it, and `LockInv.bias_iff_neg` recovers it from the word's sign.
-/

namespace Secmem

/-- The writer bias of `buflock.go`. -/
def bufMaxReaders : ℤ := 2 ^ 30

namespace BufferRWLock

/-- Control points: what a goroutine is about to do. -/
inductive PC
  /-- Outside the lock. -/
  | idle
  /-- `rLock`: the optimistic increment was refused; about to lock `mu`. -/
  | rSlow
  /-- Holds `mu`; about to undo the increment. -/
  | rUndo
  /-- Holds `mu`; the undo drained the word; about to broadcast. -/
  | rUndoWake
  /-- Holds `mu`; about to count itself in `readersWaiting`. -/
  | rCount
  /-- Holds `mu`; about to test the reader's wait condition. -/
  | rTest
  /-- Holds `mu`; the test said wait; about to park. -/
  | rPark
  /-- Parked in `cond.Wait`. -/
  | rParked
  /-- Woken; about to lock `mu` again. -/
  | rWoken
  /-- Holds `mu`; about to leave `readersWaiting` and enroll. -/
  | rEnroll
  /-- Holds `mu`; enrolled; about to unlock `mu`. -/
  | rLeave
  /-- Enrolled reader, `rLock` has returned. -/
  | reading
  /-- `rUnlock`: its decrement drained the word; about to lock `mu`. -/
  | ruSlow
  /-- Holds `mu`; about to broadcast. -/
  | ruWake
  /-- Holds `mu`; about to unlock it. -/
  | ruLeave
  /-- `lock`: about to lock `mu`. -/
  | wEnter
  /-- Holds `mu`; about to count itself in `writersWaiting`. -/
  | wCount
  /-- Holds `mu`; first writer in; about to install the bias. -/
  | wBias
  /-- Holds `mu`; about to test the writer's wait condition. -/
  | wTest
  /-- Holds `mu`; the test said wait; about to park. -/
  | wPark
  /-- Parked in `cond.Wait`. -/
  | wParked
  /-- Woken; about to lock `mu` again. -/
  | wWoken
  /-- Holds `mu`; about to become the active writer. -/
  | wTake
  /-- Holds `mu`; the active writer; about to unlock `mu`. -/
  | wLeave
  /-- The active writer, `lock` or `tryLock` has returned. -/
  | writing
  /-- `tryLock`: about to lock `mu`. -/
  | tEnter
  /-- Holds `mu`; about to look for another writer. -/
  | tTest
  /-- Holds `mu`; no writer in play; about to compare-and-swap the word. -/
  | tSwap
  /-- Holds `mu`; the swap succeeded; about to become the active writer. -/
  | tTake
  /-- Holds `mu`; refused; about to unlock `mu` and report false. -/
  | tRefuse
  /-- `unlock`: about to lock `mu`. -/
  | uEnter
  /-- Holds `mu`; about to clear `writerActive`. -/
  | uClear
  /-- Holds `mu`; about to lift the bias if no writer waits. -/
  | uLift
  /-- Holds `mu`; about to broadcast. -/
  | uWake
  /-- Holds `mu`; about to unlock it. -/
  | uLeave
  deriving DecidableEq, Repr

/-- The call an idle goroutine begins. -/
inductive Call
  | rLock
  | lock
  | tryLock
  deriving DecidableEq, Repr

/-- The lock's fields, the mutex's holder, and every goroutine's control point. -/
structure State (T : Type) where
  readers : ℤ
  writersWaiting : ℕ
  writerActive : Bool
  readersWaiting : ℕ
  mu : Option T
  bias : Bool
  pc : T → PC

/-- `newBufferRWLock`, with every goroutine outside it. -/
def State.new (T : Type) : State T where
  readers := 0
  writersWaiting := 0
  writerActive := false
  readersWaiting := 0
  mu := none
  bias := false
  pc := fun _ => .idle

/-- `cond.Broadcast`, on one goroutine. -/
def PC.wake : PC → PC
  | .rParked => .rWoken
  | .wParked => .wWoken
  | x => x

section Step

variable {T : Type} [DecidableEq T] (s : State T) (t : T)

def State.goto (x : PC) : State T :=
  { s with pc := Function.update s.pc t x }

/-- `l.mu.Lock()`: blocked while another goroutine holds the mutex. -/
def State.lockMu (x : PC) : Option (State T) :=
  if s.mu = none then some ({ s with mu := some t }.goto t x) else none

def State.unlockMu (x : PC) : State T :=
  { s with mu := none }.goto t x

/-- `l.cond.Broadcast()`. -/
def State.broadcast : State T :=
  { s with pc := fun t => (s.pc t).wake }

/-- One step of goroutine `t`, which begins the call `c` if it is idle; `none` when blocked. -/
def next (c : Call) : Option (State T) :=
  match s.pc t with
  | .idle =>
    match c with
    | .rLock => some ({ s with readers := s.readers + 1 }.goto t
        (if 0 < s.readers + 1 then .reading else .rSlow))
    | .lock => some (s.goto t .wEnter)
    | .tryLock => some (s.goto t .tEnter)
  -- rLockSlow
  | .rSlow => s.lockMu t .rUndo
  | .rUndo => some ({ s with readers := s.readers - 1 }.goto t
      (if s.readers - 1 = -bufMaxReaders then .rUndoWake else .rCount))
  | .rUndoWake => some (s.broadcast.goto t .rCount)
  | .rCount => some ({ s with readersWaiting := s.readersWaiting + 1 }.goto t .rTest)
  | .rTest => some (s.goto t
      (if s.writerActive = true ∨ 0 < s.writersWaiting then .rPark else .rEnroll))
  | .rPark => some (s.unlockMu t .rParked)
  | .rParked => none
  | .rWoken => s.lockMu t .rTest
  | .rEnroll => some ({ s with
      readersWaiting := s.readersWaiting - 1, readers := s.readers + 1 }.goto t .rLeave)
  | .rLeave => some (s.unlockMu t .reading)
  -- rUnlock
  | .reading => some ({ s with readers := s.readers - 1 }.goto t
      (if s.readers - 1 < 0 ∧ s.readers - 1 = -bufMaxReaders then .ruSlow else .idle))
  | .ruSlow => s.lockMu t .ruWake
  | .ruWake => some (s.broadcast.goto t .ruLeave)
  | .ruLeave => some (s.unlockMu t .idle)
  -- lock
  | .wEnter => s.lockMu t .wCount
  | .wCount => some ({ s with writersWaiting := s.writersWaiting + 1 }.goto t
      (if s.writersWaiting + 1 = 1 ∧ s.writerActive = false then .wBias else .wTest))
  | .wBias => some ({ s with readers := s.readers - bufMaxReaders, bias := true }.goto t .wTest)
  | .wTest => some (s.goto t
      (if s.writerActive = true ∨ s.readers ≠ -bufMaxReaders then .wPark else .wTake))
  | .wPark => some (s.unlockMu t .wParked)
  | .wParked => none
  | .wWoken => s.lockMu t .wTest
  | .wTake => some ({ s with
      writersWaiting := s.writersWaiting - 1, writerActive := true }.goto t .wLeave)
  | .wLeave => some (s.unlockMu t .writing)
  -- tryLock
  | .tEnter => s.lockMu t .tTest
  | .tTest => some (s.goto t
      (if s.writerActive = true ∨ 0 < s.writersWaiting then .tRefuse else .tSwap))
  | .tSwap =>
    if s.readers = 0 then
      some ({ s with readers := -bufMaxReaders, bias := true }.goto t .tTake)
    else some (s.goto t .tRefuse)
  | .tTake => some ({ s with writerActive := true }.goto t .wLeave)
  | .tRefuse => some (s.unlockMu t .idle)
  -- unlock
  | .writing => some (s.goto t .uEnter)
  | .uEnter => s.lockMu t .uClear
  | .uClear => some ({ s with writerActive := false }.goto t .uLift)
  | .uLift =>
    if s.writersWaiting = 0 then
      some ({ s with readers := s.readers + bufMaxReaders, bias := false }.goto t .uWake)
    else some (s.goto t .uWake)
  | .uWake => some (s.broadcast.goto t .uLeave)
  | .uLeave => some (s.unlockMu t .idle)

end Step

/-! ## Classes of control points -/

/-- Counted in the word as a reader that holds the lock. -/
def PC.enrolled : PC → Bool
  | .rLeave | .reading => true
  | _ => false

/-- Counted in the word by an optimistic increment that is going to be undone. -/
def PC.pending : PC → Bool
  | .rSlow | .rUndo => true
  | _ => false

/-- Holds the internal mutex. -/
def PC.inMu : PC → Bool
  | .rUndo | .rUndoWake | .rCount | .rTest | .rPark | .rEnroll | .rLeave | .ruWake | .ruLeave
  | .wCount | .wBias | .wTest | .wPark | .wTake | .wLeave | .tTest | .tSwap | .tTake | .tRefuse
  | .uClear | .uLift | .uWake | .uLeave => true
  | _ => false

/-- Counted in `writersWaiting`. -/
def PC.waitingWriter : PC → Bool
  | .wBias | .wTest | .wPark | .wParked | .wWoken | .wTake => true
  | _ => false

/-- Inside the writer's critical section: from becoming the active writer to clearing the flag. -/
def PC.inWrite : PC → Bool
  | .wLeave | .writing | .uEnter | .uClear => true
  | _ => false

/-- Committed to a broadcast it has not performed yet. -/
def PC.willBroadcast : PC → Bool
  | .rUndoWake | .ruSlow | .ruWake | .uLift | .uWake => true
  | _ => false

section Run

variable {T : Type} [Fintype T]

/-- The number of enrolled readers. -/
def State.enrolled (s : State T) : ℕ := census PC.enrolled s.pc

/-- The number of optimistic increments waiting to be undone. -/
def State.pending (s : State T) : ℕ := census PC.pending s.pc

/-- Fewer than `2 ^ 30` readers and pending increments at once. -/
def State.Bounded (s : State T) : Prop := s.enrolled + s.pending < 2 ^ 30

variable [DecidableEq T]

/-- A step of some goroutine into a state that respects the bound on readers. -/
def Step (s s' : State T) : Prop := (∃ t c, next s t c = some s') ∧ s'.Bounded

/-- The states of the lock under any interleaving of any number of goroutines. -/
def Run (s : State T) : Prop := Reachable (fun s => s = State.new T) Step s

end Run

end BufferRWLock

end Secmem
