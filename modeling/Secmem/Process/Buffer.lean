import Secmem.Process.Keyring

/-!
# `SecureBuffer`

The methods of `securebuf.go`, `securebuf_access.go` and `closedatrest.go`, statement by
statement; `locked` and `rLocked` stand for a lock taken at the start with its release deferred.

A method that returns bytes, or shows them to a callback or a writer, says so in its reply.
-/

namespace Secmem.Process

/-- What a method returns.  `borrowed` and `wrote` also say which bytes the callback or the
writer was given. -/
inductive Reply
  | err (e : Option GoErr)
  | borrowed (seen : Option (List UInt8)) (ends : CallbackEnd)
  | bytes (bs : List UInt8) (e : Option GoErr)
  | count (n : ℕ) (e : Option GoErr)
  | byte (v : UInt8) (e : Option GoErr)
  | equal (v : Bool) (e : Option GoErr)
  | wrote (sent : Option (List UInt8)) (n : ℤ) (e : Option GoErr)
  | size (n : ℕ)
  | flag (v : Bool)
  deriving DecidableEq, Repr

/-! ## Checks -/

/-- The checks that every method but `Seal` and `Unseal` begins with, and the fields if they
pass.  The access methods look at the slice to see whether the buffer is destroyed, the others
at the region. -/
def gate (gone : BufferState → Bool) (b : ℕ) : ProcProg (Except Sentinel BufferState) := do
  let s : BufferState ← upon b .load
  if gone s = true then pure (.error .errDestroyed) else do
  let wiped : Bool ← upon b .loadWiped
  if wiped = true then pure (.error .errWiped) else
  if s.sealed = true then pure (.error .errSealed) else pure (.ok s)

def noData (s : BufferState) : Bool := s.data.isNone

def noRegion (s : BufferState) : Bool := !s.inner

/-- The checks of a method that changes the contents. -/
def gateMutation (gone : BufferState → Bool) (b : ℕ) :
    ProcProg (Except Sentinel BufferState) := do
  let g ← gate gone b
  match g with
  | .error e => pure (.error e)
  | .ok s => if s.readOnly = true then pure (.error .errReadOnly) else pure (.ok s)

/-- A method's body after its checks; `refuse` is what it returns when one fails. -/
def checked {α : Type} (check : ProcProg (Except Sentinel BufferState)) (refuse : Sentinel → α)
    (body : BufferState → ProcProg α) : ProcProg α := do
  let g ← check
  match g with
  | .error e => pure (refuse e)
  | .ok s => body s

/-- `len(s.data)`. -/
def BufferState.len (s : BufferState) : ℕ := s.data.getD 0

/-! ## Closed at rest -/

def restProtection (s : BufferState) : Prot :=
  if s.closedAtRest = true then .none else if s.readOnly = true then .read else .readWrite

/-- The protection a closed-at-rest buffer is opened with. -/
def openProtection (s : BufferState) : Prot := if s.readOnly = true then .read else .readWrite

variable (b : ℕ)

/-- The first opener changes the protection. -/
def openFirst (s : BufferState) : ProcProg (Option GoErr) := do
  let openers : ℤ ← upon b .readOpeners
  if openers ≠ 0 then pure none else do
  let err : Option GoErr ← upon b (.mprotect (openProtection s))
  match err with
  | some e => pure (some (.wrap "secmem: opening a closed-at-rest buffer: " e))
  | none => do
    let err : Option GoErr ← upon b .relock
    match err with
    | some e => do
      let _ ← upon b (.mprotect .none)
      pure (some (.wrap
        "secmem: opening a closed-at-rest buffer: restoring the page lock: " e))
    | none => pure none

/-- The method `open`. -/
def openBuffer : ProcProg (Option GoErr) := do
  let s : BufferState ← upon b .load
  if s.closedAtRest = false then pure none else do
  upon b .openMuLock
  let err ← openFirst b s
  match err with
  | some e => do
    upon b (.opens (some e))
    upon b .openMuUnlock
    pure (some e)
  | none => do
    let openers : ℤ ← upon b .readOpeners
    upon b (.writeOpeners (openers + 1))
    upon b (.opens none)
    upon b .openMuUnlock
    pure none

/-- The last one to close changes the protection back. -/
def closeLast : ProcProg (Option GoErr) := do
  let openers : ℤ ← upon b .readOpeners
  upon b (.writeOpeners (openers - 1))
  if 0 < openers - 1 then pure none else do
  let err : Option GoErr ← upon b (.mprotect .none)
  upon b (.closes err)
  pure (err.map (.wrap "secmem: closing a closed-at-rest buffer: "))

/-- The method `close`. -/
def closeBuffer : ProcProg (Option GoErr) := do
  let s : BufferState ← upon b .load
  if s.closedAtRest = false then pure none else do
  upon b .openMuLock
  let err ← closeLast b
  upon b .openMuUnlock
  pure err

/-- `copyClosed` and `equalClosed`: opens the buffer around one use, which yields `zero` if it
cannot be opened. -/
def whileOpen {α : Type} (zero : α) (body : ProcProg α) : ProcProg (α × Option GoErr) := do
  let err ← openBuffer b
  match err with
  | some e => pure (zero, some e)
  | none => do
    let r ← body
    let cerr ← closeBuffer b
    pure (r, cerr)

/-- The branch the access methods take on `closedAtRest`. -/
def onceOpen {α : Type} (s : BufferState) (zero : α) (body : ProcProg α) :
    ProcProg (α × Option GoErr) :=
  if s.closedAtRest = true then whileOpen b zero body else do
    let r ← body
    pure (r, none)

/-- `store`: the number of bytes copied into the `room` bytes at `lo`. -/
def storeBytes (s : BufferState) (lo room : ℕ) (src : List UInt8) : ProcProg (ℕ × Option GoErr) :=
  onceOpen b s 0 do
    upon b (.write lo (src.take room))
    pure (src.take room).length

/-! ## Borrows -/

/-- The writes of an overflow. -/
def strayWrites (b : ℕ) : List (ℕ × UInt8) → ProcProg Unit
  | [] => pure ()
  | (k, v) :: ws => do
    upon b (.write k [v])
    strayWrites b ws

/-- The callback's writes into its slice of `n` bytes at `lo`; an index outside panics. -/
def sliceWrites (b lo n : ℕ) : List (ℕ × UInt8) → ProcProg Bool
  | [] => pure true
  | (k, v) :: ws =>
    if k < n then do
      upon b (.write (lo + k) [v])
      sliceWrites b lo n ws
    else pure false

/-- Runs a callback on the slice of `n` bytes at `lo`. -/
def runCallback (b lo n : ℕ) (fn : Callback) : ProcProg (List UInt8 × CallbackEnd) := do
  let seen : List UInt8 ← upon b (.read lo n)
  strayWrites b (fn seen).strays
  let inside ← sliceWrites b lo n (fn seen).writes
  pure (seen, if inside = true then (fn seen).ends else .panics)

/-- The close error is reported only if the callback had none. -/
def CallbackEnd.orClose : CallbackEnd → Option GoErr → CallbackEnd
  | .returns none, cerr => .returns cerr
  | e, _ => e

/-- A callback without an error to return. -/
def CallbackEnd.withoutErr : CallbackEnd → CallbackEnd
  | .returns _ => .returns none
  | .panics => .panics

/-- What a borrow returns, from the callback's run, if there was one, and the error of opening
or closing the region. -/
def borrowReply (conv : CallbackEnd → CallbackEnd)
    (r : Option (List UInt8 × CallbackEnd) × Option GoErr) : Reply :=
  match r.1 with
  | none => .borrowed none (.returns r.2)
  | some (seen, ends) => .borrowed (some seen) ((conv ends).orClose r.2)

/-- `WithBytes` and `WithBytesErr` after the check of `fn`, with `borrowClosed` as the branch on
`closedAtRest`; its deferred close runs when the callback panics too. -/
def borrow (fn : Callback) (conv : CallbackEnd → CallbackEnd) : ProcProg Reply :=
  rLocked b <| checked (gate noData b) (fun e => .borrowed none (.returns (some e))) fun s => do
    let r ← onceOpen b s none (do
      let x ← runCallback b 0 s.len fn
      pure (some x))
    pure (borrowReply conv r)

def withBytes : Option Callback → ProcProg Reply
  | none => pure (.borrowed none (.returns (some (.new "secmem.SecureBuffer.WithBytes: nil fn"))))
  | some fn => borrow b fn CallbackEnd.withoutErr

def withBytesErr : Option Callback → ProcProg Reply
  | none =>
    pure (.borrowed none (.returns (some (.new "secmem.SecureBuffer.WithBytesErr: nil fn"))))
  | some fn => borrow b fn id

/-- `ExposeString`: the callback keeps a copy of what it was shown. -/
def exposeString : ProcProg Reply := do
  let r ← borrow b (fun _ => ⟨[], [], .returns none⟩) id
  match r with
  | .borrowed (some seen) (.returns none) => pure (.bytes seen none)
  | .borrowed _ (.returns e) => pure (.bytes [] e)
  | _ => pure (.bytes [] none)

/-! ## Access -/

/-- The error of an index or offset that is not below the length. -/
def outOfRange (what : String) (i : ℤ) (len : ℕ) : GoErr :=
  .new s!"{what} {i} out of range [0, {len})"

def copyOut (b n : ℕ) (srcOffset : ℤ) : ProcProg Reply :=
  rLocked b <| checked (gate noData b) (fun e => .bytes [] (some e)) fun s =>
    if srcOffset < 0 ∨ s.len ≤ srcOffset then
      pure (.bytes [] (some (outOfRange "secmem.SecureBuffer.CopyOut: srcOffset" srcOffset s.len)))
    else do
    let lo := srcOffset.toNat
    let r ← onceOpen b s [] (upon b (.read lo (min n (s.len - lo))))
    pure (.bytes r.1 r.2)

def copyIn (src : List UInt8) (dstOffset : ℤ) : ProcProg Reply :=
  locked b <| checked (gateMutation noData b) (fun e => .count 0 (some e)) fun s =>
    if dstOffset < 0 ∨ s.len ≤ dstOffset then
      pure (.count 0 (some (outOfRange "secmem.SecureBuffer.CopyIn: dstOffset" dstOffset s.len)))
    else do
    let r ← storeBytes b s dstOffset.toNat (s.len - dstOffset.toNat) src
    pure (.count r.1 r.2)

def byteAt (i : ℤ) : ProcProg Reply :=
  rLocked b <| checked (gate noData b) (fun e => .byte 0 (some e)) fun s =>
    if i < 0 ∨ s.len ≤ i then
      pure (.byte 0 (some (outOfRange "secmem.SecureBuffer.ByteAt: index" i s.len)))
    else do
    let r ← onceOpen b s [] (upon b (.read i.toNat 1))
    pure (.byte (r.1.headD 0) r.2)

def setByteAt (i : ℤ) (v : UInt8) : ProcProg Reply :=
  locked b <| checked (gateMutation noData b) (fun e => .err (some e)) fun s =>
    if i < 0 ∨ s.len ≤ i then
      pure (.err (some (outOfRange "secmem.SecureBuffer.SetByteAt: index" i s.len)))
    else do
    let r ← storeBytes b s i.toNat 1 [v]
    pure (.err r.2)

def constantTimeEqual (other : List UInt8) : ProcProg Reply :=
  rLocked b <| checked (gate noData b) (fun e => .equal false (some e)) fun s =>
    if s.len ≠ other.length then pure (.equal false none) else do
    let r ← onceOpen b s false do
      let data : List UInt8 ← upon b (.read 0 s.len)
      pure (decide (data = other))
    pure (.equal r.1 r.2)

/-- The part of `WriteTo` under the read lock: a copy of the contents. -/
def copyContents : ProcProg (Except GoErr (List UInt8)) :=
  rLocked b <| checked (gate noData b) (fun e => .error e) fun s => do
    let r ← whileOpen b [] (upon b (.read 0 s.len))
    match r.2 with
    | some e => pure (.error e)
    | none => pure (.ok r.1)

def writeTo (w : Writer) : ProcProg Reply := do
  let r ← copyContents b
  match r with
  | .error e => pure (.wrote none 0 (some e))
  | .ok tmp => pure (.wrote (some tmp) (w tmp).1 (w tmp).2)

/-- The loop of `io.ReadFull` into `size` bytes, `got` of which have been read. -/
def readLoop (size : ℕ) : Reader → List UInt8 → List UInt8 × Option GoErr
  | [], got => if size ≤ got.length then (got, none) else (got, some Sentinel.eof)
  | (bs, err) :: r, got =>
    if size ≤ got.length then (got, none) else
    match err with
    | none => readLoop size r (got ++ bs.take (size - got.length))
    | some e => (got ++ bs.take (size - got.length), some e)

def readFull (r : Reader) (size : ℕ) : List UInt8 × Option GoErr :=
  let (got, err) := readLoop size r []
  if size ≤ got.length then (got, none)
  else if got ≠ [] ∧ err = some (Sentinel.eof : GoErr) then (got, some Sentinel.unexpectedEOF)
  else (got, err)

/-- A source that is shorter than the buffer is not an error of `ReadFrom`. -/
def acceptShort (err : Option GoErr) : Option GoErr :=
  err.bind fun e => if e.is .unexpectedEOF || e.is .eof then none else some e

/-- The end of `ReadFrom`: what was read goes into the buffer. -/
def storeRead (got : List UInt8) : ProcProg Reply :=
  locked b <| checked (gateMutation noData b) (fun e => .count 0 (some e)) fun s => do
    let r ← whileOpen b 0 do
      upon b (.write 0 (got.take s.len))
      pure (got.take s.len).length
    pure (.count r.1 r.2)

def readFrom (r : Reader) : ProcProg Reply := do
  let g ← rLocked b (gateMutation noData b)
  match g with
  | .error e => pure (.count 0 (some e))
  | .ok s =>
    match acceptShort (readFull r s.len).2 with
    | some e => pure (.count (readFull r s.len).1.length (some e))
    | none => storeRead b (readFull r s.len).1

/-! ## Queries -/

def len : ProcProg Reply :=
  rLocked b do
    let s : BufferState ← upon b .load
    pure (.size s.len)

def mappedLen : ProcProg Reply :=
  rLocked b do
    let s : BufferState ← upon b .load
    if s.inner = false then pure (.size 0) else do
    let n : ℕ ← upon b .innerLen
    pure (.size n)

def isSealed : ProcProg Reply :=
  rLocked b do
    let s : BufferState ← upon b .load
    pure (.flag s.sealed)

def isDestroyed : ProcProg Reply :=
  rLocked b do
    let s : BufferState ← upon b .load
    pure (.flag (noRegion s))

end Secmem.Process
