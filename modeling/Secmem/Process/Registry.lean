import Secmem.Process.Model

/-!
# `registry.go`

The janitor's operations as programs: `register`, `wipeAndFree`, `release`, the two wipe
passes, and `wipeAllInPlace` with its deferred goroutines.

A pass that runs on behalf of a sweep carries the sweep's number `c`, for the sweep's ghosts
only.
-/

namespace Secmem.Process

/-! ## What the callers of the package pass in -/

/-- How a callback ends. -/
inductive CallbackEnd
  | returns (err : Option GoErr)
  | panics
  deriving DecidableEq, Repr

/-- What a callback does with its slice: the bytes it writes into it, in order, and the bytes
an overflow writes elsewhere in the region. -/
structure Effect where
  writes : List (ℕ × UInt8)
  strays : List (ℕ × UInt8)
  ends : CallbackEnd
  deriving DecidableEq, Repr

/-- A borrow's callback, as a function of the bytes it is shown. -/
abbrev Callback := List UInt8 → Effect

/-- An `io.Writer`: what `Write` returns for the bytes it is given. -/
abbrev Writer := List UInt8 → ℤ × Option GoErr

/-- An `io.Reader`: what its successive calls to `Read` return, and `io.EOF` from then on. -/
abbrev Reader := List (List UInt8 × Option GoErr)

/-- The methods of a `SecureBuffer`.  A nil callback is `none`. -/
inductive Method
  | withBytes (fn : Option Callback)
  | withBytesErr (fn : Option Callback)
  | exposeString
  | copyOut (n : ℕ) (srcOffset : ℤ)
  | copyIn (src : List UInt8) (dstOffset : ℤ)
  | byteAt (i : ℤ)
  | setByteAt (i : ℤ) (v : UInt8)
  | constantTimeEqual (other : List UInt8)
  | writeTo (w : Writer)
  | readFrom (r : Reader)
  | readOnly
  | readWrite
  | seal
  | unseal
  | truncate (n : ℤ)
  | destroy
  | len
  | mappedLen
  | isSealed
  | isDestroyed

/-- What happens to an arena's slab as a region.  Which slot a handle names is the business of
the arena's own model; here a borrow or a release is of any slot. -/
inductive SlabMethod
  | withSlot (slot : ℕ) (fn : Callback)
  | releaseSlot (slot : ℕ)
  | readOnly
  | readWrite
  | destroy
  deriving Inhabited

/-- The size and number of an arena's slots. -/
structure Slots where
  slotSize : ℕ
  count : ℕ
  deriving DecidableEq, Repr

/-- The programs a goroutine can run.  `sweepOne` is a deferred goroutine of `wipeAllInPlace`. -/
inductive Call
  | newBuffer (raw : List UInt8) (cfg : Config)
  | newEmptyBuffer (size : ℤ) (cfg : Config)
  | newBufferFromReader (r : Reader) (size : ℤ) (cfg : Config)
  | newArena (s : Slots)
  | method (b : ℕ) (m : Method)
  | slab (b : ℕ) (s : Slots) (m : SlabMethod)
  | cleanup (b : ℕ)
  | wipeInPlace (key : ℕ)
  | tryWipeInPlace (key : ℕ)
  | wipeAllSecrets
  | sweepOne (c key : ℕ)

abbrev ProcProg := Prog Act Res Call

/-- The program that performs one action. -/
abbrev perform (i : Act) : ProcProg (Res i) := Prog.perform i

/-- The program that performs one action on an object. -/
abbrev upon (b : ℕ) (a : ObjAct) : ProcProg (ObjRes a) := Prog.perform (Act.on b a)

/-- `mu.lock()` with `mu.unlock()` deferred. -/
def locked {α : Type} (b : ℕ) (body : ProcProg α) : ProcProg α := do
  upon b .lock
  let r ← body
  upon b .unlock
  pure r

/-- `mu.rLock()` with `mu.rUnlock()` deferred. -/
def rLocked {α : Type} (b : ℕ) (body : ProcProg α) : ProcProg α := do
  upon b .rLock
  let r ← body
  upon b .rUnlock
  pure r

/-! ## Registering -/

def register (e : Entry) : ProcProg (Except GoErr ℕ) := do
  let key : ℕ ← perform .mintKey
  let err : Option GoErr ← perform (.file key e)
  match err with
  | some e => pure (.error e)
  | none => pure (.ok key)

/-- `takeAny`: the live set first, then the wiped set. -/
def takeAny (key : ℕ) : ProcProg (Option Entry) := do
  let region : Option Entry ← perform (.take key)
  match region with
  | some e => pure (some e)
  | none => perform (.takeWiped key)

/-! ## Wiping and freeing -/

/-- The canary check of `wipeAndFree`; ciphertext is not checked. -/
def verifyCanary (e : Entry) : ProcProg (Option GoErr) := do
  let cipher ← (match e.sealCipher with
    | some b => upon b .loadSealCipher
    | none => pure false)
  if cipher = true then pure none else do
  let intact : Bool ← upon e.region (.intact e.canary)
  if intact = true then pure none else pure (some Sentinel.errCanaryViolation)

/-- The wipe of `wipeAndFree`: afterwards the region holds zeros, not ciphertext. -/
def wipeRegion (e : Entry) : ProcProg Unit := do
  upon e.region .wipe
  match e.sealCipher with
  | some b => upon b (.storeSealCipher false)
  | none => pure ()

/-- `wipeAndFree` with the region's lock held. -/
def wipeAndFree (e : Entry) (unmap : Bool) : ProcProg (Option GoErr) := do
  let err : Option GoErr ← upon e.region .restoreWriteAccess
  match err with
  | some err =>
    if unmap = false then pure (some (.wrapTwo "" Sentinel.errWipeSkipped ": " err "")) else do
    let advice : Option GoErr ← upon e.region .madviseBeforeFree
    let freed : Option GoErr ← upon e.region .free
    pure <| GoErr.joinOpt
      (GoErr.joinOpt
        (some (.wrap ("secmem: janitor: restoring write access failed, " ++
          "region released unwiped: ") err))
        (advice.map (.wrap "secmem: janitor: releasing frames of unwiped region failed: ")))
      freed
  | none => do
    let canaryErr ← verifyCanary e
    wipeRegion e
    if unmap = false then pure canaryErr else do
    let _ ← upon e.region .madviseBeforeFree
    let freed : Option GoErr ← upon e.region .free
    pure (GoErr.joinOpt canaryErr freed)

/-- `release` from `Destroy`, which holds the region's lock. -/
def releaseHeld (key : ℕ) : ProcProg (Option GoErr) := do
  let region ← takeAny key
  match region with
  | some e => wipeAndFree e true
  | none => pure none

/-- `release` from the garbage-collection fallback, which does not. -/
def releaseFree (key : ℕ) : ProcProg (Option GoErr) := do
  let peeked : Option Entry ← perform (.peekAny key)
  match peeked with
  | none => pure none
  | some p => locked p.mu do
    let region : Option Entry ← perform (.takeAnyIf key p.mu)
    match region with
    | some e => wipeAndFree e true
    | none => pure none

def release (key : ℕ) (lockHeld : Bool) : ProcProg (Option GoErr) :=
  if lockHeld = true then releaseHeld key else releaseFree key

/-! ## The wipe passes -/

def markWiped (e : Entry) : ProcProg Unit :=
  match e.wiped with
  | some b => upon b .storeWiped
  | none => pure ()

/-- `errors.Is(err, errWipeSkipped)`. -/
def isSkipped (err : Option GoErr) : Bool := err.elim false fun e => e.is .errWipeSkipped

/-- What a pass does with `wipeAndFree`'s verdict. -/
def settle (key : ℕ) (e : Entry) (wasLive : Bool) (err : Option GoErr) : ProcProg Unit :=
  if isSkipped err = false then markWiped e
  else Prog.when (wasLive = true) (perform (.returnToLive key e))

/-- What a pass does once it holds the lock `mu`. -/
def wipeLocked (c : Option ℕ) (key mu : ℕ) : ProcProg (Option GoErr) := do
  let moved : Option (Entry × Bool) ← perform (.moveToWipedIf key mu)
  match moved with
  | none => do
    perform (.handled c key none)
    pure none
  | some (e, wasLive) => do
    let err ← wipeAndFree e false
    settle key e wasLive err
    perform (.handled c key (some e.region))
    pure err

def wipeInPlace (c : Option ℕ) (key : ℕ) : ProcProg (Option GoErr) := do
  let peeked : Option Entry ← perform (.peekAny key)
  match peeked with
  | none => do
    perform (.handled c key none)
    pure none
  | some p => locked p.mu (wipeLocked c key p.mu)

def tryWipeInPlace (c : Option ℕ) (key : ℕ) : ProcProg (Bool × Option GoErr) := do
  let peeked : Option Entry ← perform (.peekAny key)
  match peeked with
  | none => do
    perform (.handled c key none)
    pure (true, none)
  | some p => do
    let held : Bool ← upon p.mu .tryLock
    if held = false then pure (false, none) else do
    let err ← wipeLocked c key p.mu
    upon p.mu .unlock
    pure (true, err)

/-! ## `wipeAllInPlace` -/

/-- `errs = errors.Join(errs, err)`, if there is an error. -/
def joinErr (c : ℕ) : Option GoErr → ProcProg Unit
  | some e => perform (.joinErr c e)
  | none => pure ()

/-- The first pass: what is left for the second. -/
def firstPass (c : ℕ) : List ℕ → ProcProg (List ℕ)
  | [] => pure []
  | key :: keys => do
    let r ← tryWipeInPlace (some c) key
    joinErr c r.2
    let deferred ← firstPass c keys
    pure (if r.1 = true then deferred else key :: deferred)

/-- Starts one goroutine for each key. -/
def startAll (c : ℕ) : List ℕ → ProcProg Unit
  | [] => pure ()
  | key :: keys => do
    Prog.go (.sweepOne c key)
    startAll c keys

/-- A deferred goroutine. -/
def sweepOne (c key : ℕ) : ProcProg Unit := do
  let err ← wipeInPlace (some c) key
  joinErr c err
  perform (.wgDone c)

/-- The second pass, if the first left anything. -/
def secondPass (c : ℕ) (deferred : List ℕ) : ProcProg Unit :=
  if deferred = [] then pure () else do
    perform (.wgAdd c deferred.length)
    startAll c deferred
    perform (.wgWait c)

def wipeAllInPlace : ProcProg (Option GoErr) := do
  let snap : ℕ × List ℕ ← perform .snapshot
  let deferred ← firstPass snap.1 snap.2
  secondPass snap.1 deferred
  let errs : Option GoErr ← perform (.readErrs snap.1)
  perform (.sweepReturns snap.1)
  pure errs

end Secmem.Process
