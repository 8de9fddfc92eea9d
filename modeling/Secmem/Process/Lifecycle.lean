import Secmem.Process.Buffer

/-!
# Life cycles

Protection, sealing, truncation and destruction of a `SecureBuffer`, its constructors, what an
arena does to its slab, and the system that all the programs make up.
-/

namespace Secmem.Process

/-! ## Protection and truncation -/

-- The buffer `b` is the one that a method is called on.
variable (P : Platform) (b : ℕ)

/-- `ReadOnly` and `ReadWrite`: the same steps, with the protection and the flag they set. -/
def setProtection (name : String) (p : Prot) (readOnly : Bool) : ProcProg (Option GoErr) :=
  locked b <| checked (gate noRegion b) (fun e => some (.wrap name e)) fun s => do
    let err ← (if s.closedAtRest = false then upon b (.mprotect p) else pure none)
    match err with
    | some e => pure (some (.wrap name e))
    | none => do
      upon b (.store fun s => { s with readOnly := readOnly })
      pure none

def readOnly : ProcProg (Option GoErr) :=
  setProtection b "secmem.SecureBuffer.ReadOnly: " .read true

def readWrite : ProcProg (Option GoErr) :=
  setProtection b "secmem.SecureBuffer.ReadWrite: " .readWrite false

/-- Wipes the tail that `Truncate` cuts off, if there is any. -/
def wipeTail (b lo n : ℕ) : ProcProg (Option GoErr) :=
  if n = 0 then pure none else do
  let r ← whileOpen b () (upon b (.write lo (List.replicate n 0)))
  pure r.2

/-- The error of a length that is above `Len`. -/
def lengthOutOfRange (n : ℤ) (len : ℕ) : GoErr :=
  .new s!"secmem.SecureBuffer.Truncate: n={n} out of range [0, {len}]"

def truncate (n : ℤ) : ProcProg (Option GoErr) :=
  locked b <| checked (gateMutation noRegion b)
      (fun e => some (.wrap "secmem.SecureBuffer.Truncate: " e)) fun s =>
    if n < 0 ∨ s.len < n then pure (some (lengthOutOfRange n s.len)) else do
    let err ← wipeTail b n.toNat (s.len - n.toNat)
    match err with
    | some e => pure (some (.wrap "secmem.SecureBuffer.Truncate: " e))
    | none => do
      upon b (.store fun s => { s with data := some n.toNat })
      pure none

/-! ## Seal -/

/-- Restores the protection at rest, as far as the platform lets it. -/
def reapplyReadOnly : ProcProg Unit := do
  let s : BufferState ← upon b .load
  Prog.when (restProtection s ≠ .readWrite) (do
    let _ ← upon b (.mprotect (restProtection s)))

/-- `rollbackSeal` once the contents are plaintext again. -/
def rolledBack (cause : GoErr) : ProcProg (Option GoErr) := do
  upon b (.store fun s => { s with sealTagged := false })
  reapplyReadOnly b
  pure (some (.wrap "secmem.SecureBuffer.Seal: " cause))

def rollbackSeal (applied : Bool) (cause : GoErr) : ProcProg (Option GoErr) :=
  if applied = true then do
    let derr : Option GoErr ← upon b .sealDecrypt
    match derr with
    | some derr => do
      upon b (.store fun s => { s with sealed := true })
      reapplyReadOnly b
      pure (some (.wrapTwo "secmem.SecureBuffer.Seal: " cause
        "; rolling the cipher back failed too: " derr
        " (buffer left sealed, Unseal decrypts it)"))
    | none => do
      upon b (.storeSealCipher false)
      rolledBack b cause
  else rolledBack b cause

/-- The tag, for a buffer that takes one. -/
def sealTagging (s : BufferState) : ProcProg (Option GoErr) :=
  if s.sealAuth = true then sealAuthenticate P b else pure none

/-- `Seal` once the contents are as they will rest: the tag, then the protection. -/
def sealRest (s : BufferState) (applied : Bool) : ProcProg (Option GoErr) := do
  let err ← sealTagging P b s
  match err with
  | some e => rollbackSeal b applied e
  | none => do
    let err : Option GoErr ← upon b (.mprotect .none)
    match err with
    | some e => rollbackSeal b applied e
    | none => do
      upon b (.store fun s => { s with sealed := true })
      pure none

/-- `Seal` of a buffer that is writable: the cipher, then the rest. -/
def sealWritable (s : BufferState) : ProcProg (Option GoErr) := do
  upon b (.store fun s => { s with sealTagged := false })
  let applied : Except GoErr Bool ← upon b .sealEncrypt
  match applied with
  | .error e => do
    reapplyReadOnly b
    pure (some (.wrap "secmem.SecureBuffer.Seal: " e))
  | .ok applied => do
    Prog.when (applied = true) (upon b (.storeSealCipher true))
    sealRest P b s applied

/-- Write access for the in-place cipher, if the buffer at rest has none. -/
def lift (s : BufferState) : ProcProg (Option GoErr) :=
  if s.readOnly = true ∨ s.closedAtRest = true then upon b (.mprotect .readWrite) else pure none

/-- `Seal` after the checks of the buffer's state. -/
def sealUnsealed (s : BufferState) : ProcProg (Option GoErr) := do
  let cipher : Bool ← upon b .loadSealCipher
  if cipher = true then do
    upon b (.store fun s => { s with sealed := true })
    pure (some (.new ("secmem.SecureBuffer.Seal: contents are already seal-cipher ciphertext; " ++
      "buffer left sealed, Unseal decrypts it")))
  else do
  let err ← lift b s
  match err with
  | some e => pure (some (.wrap "secmem.SecureBuffer.Seal: " e))
  | none => sealWritable P b s

/-- The checks of `Seal` and `Unseal`, which do not refuse a sealed buffer. -/
def gateSeal (name : String) (b : ℕ) (body : BufferState → ProcProg (Option GoErr)) :
    ProcProg (Option GoErr) :=
  locked b do
    let s : BufferState ← upon b .load
    if s.inner = false then pure (some (.wrap name Sentinel.errDestroyed)) else do
    let wiped : Bool ← upon b .loadWiped
    if wiped = true then pure (some (.wrap name Sentinel.errWiped)) else body s

def sealBuffer : ProcProg (Option GoErr) :=
  gateSeal "secmem.SecureBuffer.Seal: " b fun s =>
    if s.sealed = true then pure none else sealUnsealed P b s

/-! ## Unseal -/

/-- Re-protects and stays sealed. -/
def staySealed (before : String) (e : GoErr) : ProcProg (Option GoErr) := do
  let _ ← upon b (.mprotect .none)
  pure (some (.wrap ("secmem.SecureBuffer.Unseal: " ++ before) e))

/-- `Unseal` when the protection at rest could not be restored: seals again. -/
def sealAgain (s : BufferState) (e : GoErr) : ProcProg (Option GoErr) := do
  let applied : Except GoErr Bool ← upon b .sealEncrypt
  Prog.when (applied.toOption = some true) (upon b (.storeSealCipher true))
  upon b (.store fun s => { s with sealTagged := false })
  let _ ← sealTagging P b s
  let _ ← upon b (.mprotect .none)
  pure (some (.wrap "secmem.SecureBuffer.Unseal: restoring read-only: " e))

/-- The end of `Unseal`: the contents are plaintext in a writable region. -/
def unsealRestore (s : BufferState) : ProcProg (Option GoErr) := do
  let err ← (if restProtection s ≠ .readWrite then upon b (.mprotect (restProtection s))
    else pure none)
  match err with
  | some e => sealAgain P b s e
  | none => do
    upon b (.store fun s => { s with sealed := false })
    upon b (.store fun s => { s with sealTagged := false })
    pure none

/-- `Unseal` once the bytes are verified. -/
def unsealDecrypt (s : BufferState) : ProcProg (Option GoErr) := do
  let cipher : Bool ← upon b .loadSealCipher
  if cipher = true then do
    let err : Option GoErr ← upon b .sealDecrypt
    match err with
    | some e => staySealed b "" e
    | none => do
      upon b (.storeSealCipher false)
      unsealRestore P b s
  else unsealRestore P b s

/-- `Unseal` once the region is writable and locked. -/
def unsealVerified (s : BufferState) : ProcProg (Option GoErr) := do
  let err ← (if s.sealTagged = true then sealVerify P b else pure none)
  match err with
  | some e => staySealed b "" e
  | none => unsealDecrypt P b s

/-- `Unseal` of a sealed buffer. -/
def unsealSealed (s : BufferState) : ProcProg (Option GoErr) := do
  let err : Option GoErr ← upon b (.mprotect .readWrite)
  match err with
  | some e => pure (some (.wrap "secmem.SecureBuffer.Unseal: " e))
  | none => do
    let err : Option GoErr ← upon b .relock
    match err with
    | some e => staySealed b "restoring the page lock: " e
    | none => unsealVerified P b s

def unsealBuffer : ProcProg (Option GoErr) :=
  gateSeal "secmem.SecureBuffer.Unseal: " b fun s =>
    if s.sealed = false then pure none else unsealSealed P b s

/-! ## Destroy -/

/-- Whether `Destroy` has a tag to verify. -/
def hasTag (s : BufferState) : ProcProg Bool :=
  if s.sealed = true ∧ s.sealTagged = true then do
    let wiped : Bool ← upon b .loadWiped
    pure (!wiped)
  else pure false

/-- The tag is verified for a report only. -/
def reportIntegrity (verify : Bool) : ProcProg (Option GoErr) :=
  if verify = true then do
    let verr ← sealVerify P b
    pure (verr.filter fun e => e.is .errIntegrity)
  else pure none

/-- Decrypts if it can, so that the canary check sees the real slack. -/
def decryptForRelease : ProcProg Unit := do
  let cipher : Bool ← upon b .loadSealCipher
  Prog.when (cipher = true) (do
    let derr : Option GoErr ← upon b .sealDecrypt
    Prog.when (derr = none) (upon b (.storeSealCipher false)))

/-- What `Destroy` does with a sealed buffer before it is released. -/
def destroySealed (s : BufferState) : ProcProg (Option GoErr) := do
  let verify ← hasTag b s
  let needed ← (if verify = true then pure true else upon b .loadSealCipher)
  if needed = false then pure none else do
  let err : Option GoErr ← upon b (.mprotect .readWrite)
  match err with
  | some _ => pure none
  | none => do
    let _ ← upon b .relock
    let integrityErr ← reportIntegrity P b verify
    decryptForRelease b
    pure integrityErr

def destroy : ProcProg (Option GoErr) :=
  locked b do
    let s : BufferState ← upon b .load
    if s.inner = false then pure none else do
    upon b (.store fun s => { s with cleanup := false })
    let integrityErr ← destroySealed P b s
    let err ← release s.janitorKey true
    upon b (.store fun s => { s with data := none })
    upon b (.store fun s => { s with inner := false })
    pure ((GoErr.joinOpt integrityErr err).map (.wrap "secmem.SecureBuffer.Destroy: "))

/-! ## Constructors -/

/-- The registration of a buffer. -/
def bufferEntry (b size innerLen : ℕ) : Entry :=
  ⟨b, b, bufferCanary size innerLen, some b, some b⟩

/-- The state that `newSecureBuffer` begins with. -/
def BufferState.new (size : ℕ) (cfg : Config) : BufferState :=
  { BufferState.zero with
    data := some size
    inner := true
    sealAuth := !cfg.unauthenticatedSeal }

/-- A closed-at-rest buffer is born closed.  Its lock is not held. -/
def bornClosed : ProcProg (Except GoErr ℕ) := do
  let err : Option GoErr ← upon b (.mprotect .none)
  match err with
  | some e => do
    let _ ← destroy P b
    pure (.error (.wrap "secmem: closing a closed-at-rest buffer: " e))
  | none => do
    upon b (.store fun s => { s with closedAtRest := true })
    pure (.ok b)

def newSecureBuffer (b size innerLen : ℕ) (cfg : Config) : ProcProg (Except GoErr ℕ) := do
  upon b (.store fun _ => .new size cfg)
  let registered ← register (bufferEntry b size innerLen)
  match registered with
  | .error e => discard b e
  | .ok key => do
    upon b (.store fun s => { s with janitorKey := key })
    upon b (.store fun s => { s with cleanup := true })
    if cfg.closedAtRest = true then bornClosed P b else pure (.ok b)

/-- The allocation and the canary, common to the constructors; `name` is the constructor's. -/
def allocArmed (kind : Kind) (name : String) (size : ℕ) (layout : ℕ → CanaryLayout) :
    ProcProg (Except GoErr (ℕ × ℕ)) := do
  let area : Except GoErr (ℕ × ℕ) ← perform (.alloc kind size)
  match area with
  | .error e => pure (.error (.wrap name e))
  | .ok (b, innerLen) => do
    let err : Option GoErr ← upon b (.arm (layout innerLen))
    match err with
    | some e => do
      let _ ← upon b .free
      pure (.error (.wrap name e))
    | none => pure (.ok (b, innerLen))

/-- The part of `fillInitial` under the lock: the error, if the copy did not go through. -/
def copyInitial (raw : List UInt8) : ProcProg (Option GoErr) :=
  locked b do
    let wiped : Bool ← upon b .loadWiped
    if wiped = true then pure (some (Sentinel.errWiped : GoErr)) else do
    let r ← whileOpen b () (upon b (.write 0 raw))
    pure r.2

def fillInitial (raw : List UInt8) : ProcProg (Option GoErr) := do
  let err ← copyInitial b raw
  match err with
  | some e => do
    let _ ← destroy P b
    pure (some e)
  | none => pure none

def newEmptyBuffer (size : ℤ) (cfg : Config) : ProcProg (Except GoErr ℕ) :=
  if size ≤ 0 then pure (.error (.new s!"secmem.NewEmptyBuffer: invalid size {size}")) else do
  let area ← allocArmed .buffer "secmem.NewEmptyBuffer: " size.toNat (bufferCanary size.toNat)
  match area with
  | .error e => pure (.error e)
  | .ok (b, innerLen) => newSecureBuffer P b size.toNat innerLen cfg

def newBuffer (raw : List UInt8) (cfg : Config) : ProcProg (Except GoErr ℕ) :=
  if raw = [] then pure (.error (.new "secmem.NewBuffer: empty input")) else do
  let area ← allocArmed .buffer "secmem.NewBuffer: " raw.length (bufferCanary raw.length)
  match area with
  | .error e => pure (.error e)
  | .ok (b, innerLen) => do
    let made ← newSecureBuffer P b raw.length innerLen cfg
    match made with
    | .error e => pure (.error e)
    | .ok b => do
      let err ← fillInitial P b raw
      match err with
      | some e => pure (.error (.wrap "secmem.NewBuffer: " e))
      | none => pure (.ok b)

/-- `NewBuffer` with its deferred wipe of the source, which an empty source does not reach. -/
def newBufferWiping (raw : List UInt8) (cfg : Config) : ProcProg (Except GoErr ℕ) := do
  let r ← newBuffer P raw cfg
  Prog.when (raw ≠ []) (perform .wipeSource)
  pure r

/-- What `NewBufferFromReader` does after a `ReadFrom` that stored `n` bytes without an error. -/
def cutToRead (b n : ℕ) (size : ℤ) : ProcProg (Option GoErr) :=
  if n = 0 then pure (some Sentinel.eof)
  else if (n : ℤ) < size then truncate b n
  else pure none

/-- The steps of `NewBufferFromReader` between the allocation and the verdict. -/
def fillFromReader (r : Reader) (size : ℤ) : ProcProg (Option GoErr) := do
  let reply ← readFrom b r
  match reply with
  | .count n none => cutToRead b n size
  | .count _ (some e) => pure (some e)
  | _ => pure none

def newBufferFromReader (r : Reader) (size : ℤ) (cfg : Config) : ProcProg (Except GoErr ℕ) := do
  let made ← newEmptyBuffer P size cfg
  match made with
  | .error e => pure (.error e)
  | .ok b => do
    let err ← fillFromReader b r size
    match err with
    | some e => do
      let _ ← destroy P b
      pure (.error e)
    | none => pure (.ok b)

/-! ## Arenas, as regions -/

def Slots.stride (s : Slots) : ℕ := s.slotSize + canaryLen

def Slots.canary (s : Slots) (innerLen : ℕ) : CanaryLayout :=
  arenaCanary s.stride s.slotSize s.count innerLen

/-- The registration of an arena, which has no seal. -/
def arenaEntry (s : Slots) (innerLen : ℕ) : Entry :=
  ⟨b, b, s.canary innerLen, none, some b⟩

def newArena (s : Slots) : ProcProg (Except GoErr ℕ) := do
  let area ← allocArmed .arena "secmem.NewArena: " (s.stride * s.count) s.canary
  match area with
  | .error e => pure (.error e)
  | .ok (b, innerLen) => do
    upon b (.store fun _ => { BufferState.zero with data := some innerLen, inner := true })
    let registered ← register (arenaEntry b s innerLen)
    match registered with
    | .error e => discard b (.wrap "secmem.NewArena: " e)
    | .ok key => do
      upon b (.store fun s => { s with janitorKey := key })
      upon b (.store fun s => { s with cleanup := true })
      pure (.ok b)

/-- The part of a slot's `WithBytesErr` under the region's lock. -/
def withSlot (s : Slots) (slot : ℕ) (fn : Callback) : ProcProg Reply :=
  rLocked b do
    let st : BufferState ← upon b .load
    if st.inner = false then
      pure (.borrowed none (.returns (some Sentinel.errDestroyed)))
    else do
    let wiped : Bool ← upon b .loadWiped
    if wiped = true then pure (.borrowed none (.returns (some Sentinel.errWiped))) else do
    let r ← runCallback b (slot * s.stride) s.slotSize fn
    pure (.borrowed (some r.1) r.2)

/-- Verifies the strip behind a slot and re-arms it; reports whether it was overwritten. -/
def checkStrip (b lo : ℕ) : ProcProg Bool := do
  let wiped : Bool ← upon b .loadWiped
  if wiped = true then pure false else do
  let strip : List UInt8 ← upon b (.read lo canaryLen)
  if canaryIntact P.pattern strip = true then pure false else do
  upon b (.write lo ((List.range canaryLen).map P.pattern))
  pure true

/-- The part of a slot's `Release` under the region's lock. -/
def releaseSlot (s : Slots) (slot : ℕ) : ProcProg (Option GoErr) :=
  rLocked b do
    let st : BufferState ← upon b .load
    if st.inner = false then pure none else do
    let wiped ← (if st.readOnly = true then upon b .loadWiped else pure true)
    if wiped = false then
      pure (some (.wrap "secmem.ArenaSlot.Release: " Sentinel.errReadOnly))
    else do
    let violated ← checkStrip P b (slot * s.stride + s.slotSize)
    upon b (.write (slot * s.stride) (List.replicate s.slotSize 0))
    if violated = true then
      pure (some (.wrap "secmem.ArenaSlot.Release: " Sentinel.errCanaryViolation))
    else pure none

/-- An arena's `ReadOnly` and `ReadWrite`. -/
def setSlabProtection (name : String) (p : Prot) (readOnly : Bool) : ProcProg (Option GoErr) :=
  locked b do
    let st : BufferState ← upon b .load
    if st.inner = false then pure (some (.wrap name Sentinel.errDestroyed)) else do
    let wiped : Bool ← upon b .loadWiped
    if wiped = true then pure (some (.wrap name Sentinel.errWiped)) else do
    let err : Option GoErr ← upon b (.mprotect p)
    match err with
    | some e => pure (some (.wrap name e))
    | none => do
      upon b (.store fun s => { s with readOnly := readOnly })
      pure none

def destroyArena : ProcProg (Option GoErr) :=
  locked b do
    let st : BufferState ← upon b .load
    if st.inner = false then pure none else do
    upon b (.store fun s => { s with cleanup := false })
    let err ← release st.janitorKey true
    upon b (.store fun s => { s with data := none, inner := false })
    pure (err.map (.wrap "secmem.SecureArena.Destroy: "))

/-! ## The system -/

def runMethod : Method → ProcProg Reply
  | .withBytes fn => withBytes b fn
  | .withBytesErr fn => withBytesErr b fn
  | .exposeString => exposeString b
  | .copyOut n off => copyOut b n off
  | .copyIn src off => copyIn b src off
  | .byteAt i => byteAt b i
  | .setByteAt i v => setByteAt b i v
  | .constantTimeEqual other => constantTimeEqual b other
  | .writeTo w => writeTo b w
  | .readFrom r => readFrom b r
  | .readOnly => .err <$> readOnly b
  | .readWrite => .err <$> readWrite b
  | .seal => .err <$> sealBuffer P b
  | .unseal => .err <$> unsealBuffer P b
  | .truncate n => .err <$> truncate b n
  | .destroy => .err <$> destroy P b
  | .len => len b
  | .mappedLen => mappedLen b
  | .isSealed => isSealed b
  | .isDestroyed => isDestroyed b

def runSlabMethod (s : Slots) : SlabMethod → ProcProg Reply
  | .withSlot slot fn => withSlot b s slot fn
  | .releaseSlot slot => .err <$> releaseSlot P b s slot
  | .readOnly => .err <$> setSlabProtection b "secmem.SecureArena.ReadOnly: " .read true
  | .readWrite => .err <$> setSlabProtection b "secmem.SecureArena.ReadWrite: " .readWrite false
  | .destroy => .err <$> destroyArena b

/-- A call through a handle: the object cannot be collected meanwhile. -/
def throughHandle {α : Type} (k : Kind) (body : ProcProg α) : ProcProg α := do
  upon b (.use k)
  let r ← body
  upon b .unuse
  pure r

/-- A call of a constructor.  Its result is the caller's handle. -/
def publish (m : Construction) (made : ProcProg (Except GoErr ℕ)) : ProcProg (Except GoErr ℕ) := do
  perform (.begins m)
  let r ← made
  perform (.constructed r)
  match r with
  | .error e => pure (.error e)
  | .ok b => do
    upon b .publish
    pure (.ok b)

/-- The garbage-collection fallback of an unreachable object. -/
def cleanup : ProcProg Unit := do
  upon b .collect
  let s : BufferState ← upon b .load
  let _ ← release s.janitorKey false

def code : Call → ProcProg Unit
  | .newBuffer raw cfg => do let _ ← publish (.bytes raw) (newBufferWiping P raw cfg)
  | .newEmptyBuffer size cfg => do let _ ← publish (.zeros size) (newEmptyBuffer P size cfg)
  | .newBufferFromReader r size cfg => do
    let _ ← publish (.read r size) (newBufferFromReader P r size cfg)
  | .newArena s => do let _ ← publish .slots (newArena s)
  | .method b m => do let _ ← throughHandle b .buffer (runMethod P b m)
  | .slab b s m => do let _ ← throughHandle b .arena (runSlabMethod P b s m)
  | .cleanup b => cleanup b
  | .wipeInPlace key => do let _ ← wipeInPlace none key
  | .tryWipeInPlace key => do let _ ← tryWipeInPlace none key
  | .wipeAllSecrets => do let _ ← wipeAllInPlace
  | .sweepOne c key => sweepOne c key

def system (T : Type) [DecidableEq T] (P : Platform) :
    System Act Res Call T Choice (World T) where
  exec := exec P
  code := code P

end Secmem.Process
