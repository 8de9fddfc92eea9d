import Secmem.Arena.Model

/-!
# The arena's methods

`Acquire`, `WithBytesErr`, `Release`, `ReadOnly`, `ReadWrite` and `Destroy` of
`securearena.go`, the wipe passes of `registry.go` on the arena's registration, and `NewArena`.
The programs follow the source statement by statement; a deferred unlock stands where the
function returns.
-/

namespace Secmem.Arena

/-- The program that performs one of the arena's actions. -/
abbrev perform (i : Act) : ArenaProg (Res i) := Prog.perform i

/-! ## Acquire and Release -/

/-- The body of `Acquire`, with `alloc` held. -/
def acquireLocked : ArenaProg (Except GoErr ArenaSlot) := do
  let destroyed : Bool ← perform .loadDestroyed
  if destroyed = true then pure (.error (Sentinel.errDestroyed : GoErr)) else do
  let wiped : Bool ← perform .loadWiped
  if wiped = true then pure (.error (Sentinel.errWiped : GoErr)) else do
  let i : ℤ ← perform .readFreeHead
  if i < 0 then pure (.error (Sentinel.errArenaFull : GoErr)) else do
  let next : ℤ ← perform (.readNext i.toNat)
  perform (.writeFreeHead next)
  Prog.when (next < 0) (perform (.writeFreeTail (-1)))
  perform (.writeNext i.toNat (-1))
  let gen : ℕ ← perform (.addGeneration i.toNat)
  perform (.addLive 1)
  pure (.ok ⟨i.toNat, gen⟩)

def acquire : ArenaProg (Except GoErr ArenaSlot) := do
  perform .allocLock
  let r ← acquireLocked
  perform (.acquireReturns r)
  perform .allocUnlock
  pure r

/-- `secureWipeSlice` on the slot, byte by byte. -/
def wipeSlotBytes (h : ArenaSlot) : List ℕ → ArenaProg Unit
  | [] => pure ()
  | k :: ks => do
    perform (.wipeByte h k)
    wipeSlotBytes h ks

/-- Verifies the strip, unless an emergency wipe zeroed it, and re-arms it if it was
overwritten; reports whether it was. -/
def checkStrip (h : ArenaSlot) : ArenaProg Bool := do
  let wiped : Bool ← perform .loadWiped
  if wiped = true then pure false else do
  let intact : Bool ← perform (.stripIntact h)
  if intact = true then pure false else do
  perform (.fillStrip h)
  pure true

def wipeSlot (a : Shape) (h : ArenaSlot) : ArenaProg Bool := do
  let violated ← checkStrip h
  wipeSlotBytes h (List.range a.slotSize)
  pure violated

/-- The end of `Release`: the slot goes to the tail of the free list. -/
def appendSlot (h : ArenaSlot) : ArenaProg Unit := do
  perform .allocLock
  perform (.addLive (-1))
  perform (.writeNext h.idx (-1))
  let tail : ℤ ← perform .readFreeTail
  (if 0 ≤ tail then perform (.writeNext tail.toNat h.idx)
    else perform (.writeFreeHead h.idx))
  perform (.writeFreeTail h.idx)
  perform (.appended h)
  perform .allocUnlock

/-- Whether the slab is read-only in force, so that the slot's wipe would fault. -/
def readOnlyInForce : ArenaProg Bool := do
  let readOnly : Bool ← perform .readReadOnly
  if readOnly = true then do
    let wiped : Bool ← perform .loadWiped
    pure (!wiped)
  else pure false

def releaseSlot (a : Shape) (h : ArenaSlot) : ArenaProg (Option GoErr) := do
  let gen : ℕ ← perform (.loadGeneration h.idx)
  if gen ≠ h.generation then pure none else do
  perform .rLock
  let live : Bool ← perform .readInner
  let refused ← (if live = true then readOnlyInForce else pure false)
  if refused = true then do
    perform (.refuses h)
    perform .rUnlock
    pure (some (.wrap "secmem.ArenaSlot.Release: " Sentinel.errReadOnly))
  else do
  let won : Bool ← perform (.casGeneration h)
  if won = false then do
    perform .rUnlock
    pure none
  else do
  let violated ← (if live = true then wipeSlot a h else pure false)
  perform .rUnlock
  appendSlot h
  if violated = true then
    pure (some (.wrap "secmem.ArenaSlot.Release: " Sentinel.errCanaryViolation))
  else pure none

def release (a : Shape) : Option ArenaSlot → ArenaProg (Option GoErr)
  | none => pure none
  | some h => do
    perform (.enterRelease h)
    let err ← releaseSlot a h
    perform (.leaveRelease h)
    pure err

/-! ## Borrows -/

/-- What a call that runs a callback comes to. -/
inductive Returned
  | err (e : Option GoErr)
  | panicked
  deriving DecidableEq, Repr

/-- The callback's writes; an index outside its slice panics. -/
def runWrites (a : Shape) (h : ArenaSlot) : List (ℕ × UInt8) → ArenaProg Bool
  | [] => pure true
  | (k, v) :: ws =>
    if k < a.slotSize then do
      perform (.callbackWrite h k v)
      runWrites a h ws
    else pure false

def borrowSlot (a : Shape) (h : ArenaSlot) (fn : Callback) : ArenaProg Returned := do
  let destroyed : Bool ← perform .loadDestroyed
  if destroyed = true then pure (.err (some Sentinel.errDestroyed)) else do
  perform .rLock
  let inner : Bool ← perform .readInner
  if inner = false then do
    perform .rUnlock
    pure (.err (some Sentinel.errDestroyed))
  else do
  let wiped : Bool ← perform .loadWiped
  if wiped = true then do
    perform .rUnlock
    pure (.err (some Sentinel.errWiped))
  else do
  let gen : ℕ ← perform (.loadGeneration h.idx)
  if gen ≠ h.generation then do
    perform .rUnlock
    pure (.err (some Sentinel.errSlotReleased))
  else do
  perform (.callbackRuns h)
  let finished ← runWrites a h fn.writes
  perform .rUnlock
  if finished = true then pure (.err fn.err) else pure .panicked

def withBytesErr (a : Shape) : Option ArenaSlot → Option Callback → ArenaProg Returned
  | _, none => pure (.err (some (.new "secmem.ArenaSlot.WithBytesErr: nil fn")))
  | none, some _ => pure (.err (some Sentinel.errSlotReleased))
  | some h, some fn => do
    perform (.enterBorrow h)
    let r ← borrowSlot a h fn
    perform (.leaveBorrow h)
    pure r

/-! ## Protection -/

/-- `ReadOnly` and `ReadWrite`: the same steps, with the protection and the flag they set. -/
def setProtection (name : String) (p : Prot) (readOnly : Bool) : ArenaProg (Option GoErr) := do
  perform .lock
  let inner : Bool ← perform .readInner
  if inner = false then do
    perform .unlock
    pure (some (.wrap name Sentinel.errDestroyed))
  else do
  let wiped : Bool ← perform .loadWiped
  if wiped = true then do
    perform .unlock
    pure (some (.wrap name Sentinel.errWiped))
  else do
  let err : Option GoErr ← perform (.protect p)
  match err with
  | some e => do
    perform .unlock
    pure (some (.wrap name e))
  | none => do
    perform (.writeReadOnly readOnly)
    perform .unlock
    pure none

def readOnly : ArenaProg (Option GoErr) :=
  setProtection "secmem.SecureArena.ReadOnly: " .read true

def readWrite : ArenaProg (Option GoErr) :=
  setProtection "secmem.SecureArena.ReadWrite: " .readWrite false

/-! ## The wipe passes and Destroy -/

/-- The canary check of a registration that still has its layout. -/
def verify (layout : Bool) : ArenaProg (Option GoErr) :=
  if layout = true then do
    let intact : Bool ← perform .slabIntact
    pure (if intact = true then none else some Sentinel.errCanaryViolation)
  else pure none

/-- `wipeAndFree` with the region's lock held.  `layout` is whether the registration still has
its canary layout. -/
def wipeAndFree (layout unmap : Bool) : ArenaProg (Option GoErr) := do
  let err : Option GoErr ← perform (.protect .readWrite)
  match err with
  | some e =>
    if unmap = false then pure (some (.wrapTwo "" Sentinel.errWipeSkipped ": " e "")) else do
    let advice : Option GoErr ← perform .madviseBeforeFree
    let freed : Option GoErr ← perform .unmap
    pure <| GoErr.joinOpt
      (GoErr.joinOpt
        (some (.wrap ("secmem: janitor: restoring write access failed, " ++
          "region released unwiped: ") e))
        (advice.map (.wrap "secmem: janitor: releasing frames of unwiped region failed: ")))
      freed
  | none => do
    let canaryErr ← verify layout
    perform .wipeSlab
    if unmap = false then pure canaryErr else do
    let _ ← perform .madviseBeforeFree
    let freed : Option GoErr ← perform .unmap
    pure (GoErr.joinOpt canaryErr freed)

/-- `emergencyJanitor.release` from `Destroy`, which holds the region's lock. -/
def releaseRegion : ArenaProg (Option GoErr) := do
  let live : Bool ← perform .take
  if live = true then wipeAndFree true true else do
  let wiped : Bool ← perform .takeWiped
  if wiped = true then wipeAndFree false true else pure none

def destroy : ArenaProg (Option GoErr) := do
  perform .storeDestroyed
  perform .lock
  let inner : Bool ← perform .readInner
  if inner = false then do
    perform .unlock
    pure none
  else do
  let err ← releaseRegion
  perform .clearRegion
  perform .storeReleased
  perform .unlock
  pure (err.map (.wrap "secmem.SecureArena.Destroy: "))

/-- What a pass does with `wipeAndFree`'s verdict: the owner is marked wiped, unless the wipe
did not run and the registration goes back to the live set. -/
def settle (wasLive : Bool) (err : Option GoErr) : ArenaProg Unit :=
  if (err.elim false fun e => e.is .errWipeSkipped) = false then perform .storeWiped
  else Prog.when (wasLive = true) (perform .returnToLive)

/-- What a pass does once it holds the region's lock. -/
def wipeLocked : ArenaProg (Option GoErr) := do
  let moved : Option Bool ← perform .moveToWiped
  match moved with
  | none => do
    perform .unlock
    pure none
  | some wasLive => do
    let err ← wipeAndFree wasLive false
    settle wasLive err
    perform .unlock
    pure err

def wipeInPlace : ArenaProg (Option GoErr) := do
  let peeked : Bool ← perform .peekAny
  if peeked = false then pure none else do
  perform .lock
  wipeLocked

def tryWipeInPlace : ArenaProg (Bool × Option GoErr) := do
  let peeked : Bool ← perform .peekAny
  if peeked = false then pure (true, none) else do
  let locked : Bool ← perform .tryLock
  if locked = false then pure (false, none) else do
  let err ← wipeLocked
  pure (true, err)

/-! ## The system -/

/-- The program of each call. -/
def code (a : Shape) : Call → ArenaProg Unit
  | .acquire => do let _ ← acquire
  | .withBytesErr s fn => do let _ ← withBytesErr a s fn
  | .release s => do let _ ← release a s
  | .readOnly => do let _ ← readOnly
  | .readWrite => do let _ ← readWrite
  | .wipeInPlace => do let _ ← wipeInPlace
  | .tryWipeInPlace => do let _ ← tryWipeInPlace
  | .destroy => do let _ ← destroy

def system (T : Type) [DecidableEq T] (a : Shape) (pattern : ℕ → UInt8) :
    System Act Res Call T Choice (World T) where
  exec := exec a pattern
  code := code a

/-! ## NewArena -/

/-- What `NewArena` finds around it: the options, the width of `int`, and the outcome of the
allocation, of `canaryInit` and of the registration.  An allocation is rounded up to pages. -/
structure Env where
  closedAtRest : Bool
  insecureFallback : Bool
  platformHasSecureMemory : Bool
  maxInt : ℤ
  alloc : ℕ → Except GoErr ℕ
  alloc_le : ∀ n m, alloc n = .ok m → n ≤ m
  pattern : Except GoErr (ℕ → UInt8)
  register : Option GoErr

/-- The conversion `int32(x)`. -/
def int32 (x : ℤ) : ℤ := x.bmod (2 ^ 32)

/-- The seeded links: each slot to the one after it, and the last to none. -/
def seedNext (count i : ℕ) : ℤ := if i + 1 = count then -1 else int32 (i + 1)

/-- The seeded free list, on a slab just armed. -/
def initial (T : Type) (a : Shape) (pattern : ℕ → UInt8) : World T where
  alloc := none
  queue :=
    { next := seedNext a.count
      freeHead := 0
      freeTail := int32 (a.count - 1)
      live := 0
      history := [] }
  generation := fun _ => 0
  destroyed := false
  released := false
  mu := .free
  slab := ⟨true, false, false, .live, true, .readWrite⟩
  mem := a.canary.arm pattern (List.replicate a.innerLen 0)
  issued := []
  claims := fun _ => none
  borrowing := []
  releasing := []

def gateInsecure (env : Env) : Option GoErr :=
  if env.platformHasSecureMemory = true then none
  else if env.insecureFallback = false then some Sentinel.errNoSecureMemory
  else none

def newArena (T : Type) (env : Env) (slotSize count : ℤ) :
    Except GoErr (Shape × (ℕ → UInt8) × World T) :=
  if env.closedAtRest = true then
    .error (.new "secmem.NewArena: WithClosedAtRest applies to SecureBuffer only")
  else if hs : slotSize ≤ 0 then
    .error (.new s!"secmem.NewArena: slotSize must be > 0, got {slotSize}")
  else if hc : count ≤ 0 then
    .error (.new s!"secmem.NewArena: count must be > 0, got {count}")
  else if hm : 2 ^ 31 - 1 < count then
    .error (.new s!"secmem.NewArena: count must be <= 2147483647, got {count}")
  else if env.maxInt / count - canaryLen < slotSize then
    .error (.new (s!"secmem.NewArena: (slotSize+canary)*count overflows int " ++
      s!"(slotSize={slotSize}, count={count})"))
  else
    match gateInsecure env with
    | some e => .error (.wrap "secmem.NewArena: " e)
    | none =>
      match ha : env.alloc (count.toNat * (slotSize.toNat + canaryLen)) with
      | .error e => .error (.wrap "secmem.NewArena: " e)
      | .ok innerLen =>
        match env.pattern with
        | .error e => .error (.wrap "secmem.NewArena: " e)
        | .ok pattern =>
          match env.register with
          | some e => .error (.wrap "secmem.NewArena: " e)
          | none =>
            let a : Shape :=
              { slotSize := slotSize.toNat
                count := count.toNat
                innerLen := innerLen
                slotSize_pos := by omega
                count_pos := by omega
                count_le := by omega
                fits := env.alloc_le _ _ ha }
            .ok ⟨a, pattern, initial T a pattern⟩

end Secmem.Arena
