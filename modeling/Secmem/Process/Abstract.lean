import Secmem.Process.Lifecycle

/-!
# What a `SecureBuffer` is for

The abstract buffer: a list of bytes and four flags.  Errors take precedence in the order
destroyed, wiped, sealed, read-only, range; nothing is said here about pages, ciphers, tags or
the registry.

A method is described by what it answers without using the bytes (`answer`), what it stores
(`stores`) and what it replies once it has used them (`reply`).
-/

namespace Secmem.Process

/-- An abstract buffer. -/
structure Abs where
  bytes : List UInt8
  sealed : Bool
  readOnly : Bool
  wiped : Bool
  destroyed : Bool
  deriving DecidableEq, Repr

/-- The writes a callback makes into a slice of `n` bytes, up to an index that is outside. -/
def Effect.inside (e : Effect) (n : ℕ) : List (ℕ × List UInt8) :=
  (e.writes.takeWhile fun x => x.1 < n).map fun x => (x.1, [x.2])

/-- An index outside its slice makes a callback panic. -/
def Effect.end (e : Effect) (n : ℕ) : CallbackEnd :=
  if e.writes.all fun x => x.1 < n then e.ends else .panics

namespace Abs

variable (a : Abs)

/-- `Len`. -/
def len : ℕ := if a.destroyed = true then 0 else a.bytes.length

/-- Why the buffer cannot be read. -/
def refusal : Option Sentinel :=
  if a.destroyed = true then some .errDestroyed
  else if a.wiped = true then some .errWiped
  else if a.sealed = true then some .errSealed
  else none

/-- Why the buffer cannot be changed. -/
def mutationRefusal : Option Sentinel :=
  match a.refusal with
  | some e => some e
  | none => if a.readOnly = true then some .errReadOnly else none

/-- Why it can be neither sealed nor unsealed. -/
def sealRefusal : Option Sentinel :=
  if a.destroyed = true then some .errDestroyed
  else if a.wiped = true then some .errWiped
  else none

/-- The error of an index or offset that is not below `Len`. -/
def rangeError (what : String) (i : ℤ) : Option GoErr :=
  if i < 0 ∨ (a.len : ℤ) ≤ i then some (outOfRange what i a.len) else none

/-- What a method answers without using the bytes; `mapped` is the size of the area. -/
def answer (mapped : ℕ) : Method → Option Reply
  | .withBytes none =>
    some (.borrowed none (.returns (some (.new "secmem.SecureBuffer.WithBytes: nil fn"))))
  | .withBytesErr none =>
    some (.borrowed none (.returns (some (.new "secmem.SecureBuffer.WithBytesErr: nil fn"))))
  | .withBytes (some _) | .withBytesErr (some _) =>
    a.refusal.map fun e : Sentinel => .borrowed none (.returns (some e))
  | .exposeString => a.refusal.map fun e : Sentinel => .bytes [] (some e)
  | .copyOut _ off =>
    match a.refusal with
    | some e => some (.bytes [] (some e))
    | none => (a.rangeError "secmem.SecureBuffer.CopyOut: srcOffset" off).map
        fun e => .bytes [] (some e)
  | .copyIn _ off =>
    match a.mutationRefusal with
    | some e => some (.count 0 (some e))
    | none => (a.rangeError "secmem.SecureBuffer.CopyIn: dstOffset" off).map
        fun e => .count 0 (some e)
  | .byteAt i =>
    match a.refusal with
    | some e => some (.byte 0 (some e))
    | none => (a.rangeError "secmem.SecureBuffer.ByteAt: index" i).map fun e => .byte 0 (some e)
  | .setByteAt i _ =>
    match a.mutationRefusal with
    | some e => some (.err (some e))
    | none => (a.rangeError "secmem.SecureBuffer.SetByteAt: index" i).map fun e => .err (some e)
  | .constantTimeEqual other =>
    match a.refusal with
    | some e => some (.equal false (some e))
    | none => if a.len ≠ other.length then some (.equal false none) else none
  | .writeTo _ => a.refusal.map fun e : Sentinel => .wrote none 0 (some e)
  | .readFrom r =>
    match a.mutationRefusal with
    | some e => some (.count 0 (some e))
    | none => (acceptShort (readFull r a.len).2).map
        fun e => .count (readFull r a.len).1.length (some e)
  | .len => some (.size a.len)
  | .mappedLen => some (.size (if a.destroyed = true then 0 else mapped))
  | .isSealed => some (.flag a.sealed)
  | .isDestroyed => some (.flag a.destroyed)
  | _ => none

/-- What a method stores when it uses the bytes. -/
def stores : Method → List (ℕ × List UInt8)
  | .withBytes (some fn) | .withBytesErr (some fn) =>
    (fn a.bytes).strays.map (fun x => (x.1, [x.2])) ++ (fn a.bytes).inside a.bytes.length
  | .copyIn src off => [(off.toNat, src.take (a.bytes.length - off.toNat))]
  | .setByteAt i v => [(i.toNat, [v])]
  | .readFrom r => [(0, (readFull r a.bytes.length).1.take a.bytes.length)]
  | _ => []

/-- The reply of a method that used the bytes.  If the region could not be opened the bytes
were not used after all; the error is that of opening or closing it. -/
def reply (used : Bool) (err : Option GoErr) : Method → Reply
  | .withBytes (some fn) =>
    if used = true then .borrowed (some a.bytes)
      (((fn a.bytes).end a.bytes.length).withoutErr.orClose err)
    else .borrowed none (.returns err)
  | .withBytesErr (some fn) =>
    if used = true then .borrowed (some a.bytes)
      (((fn a.bytes).end a.bytes.length).orClose err)
    else .borrowed none (.returns err)
  | .exposeString => if err = none then .bytes a.bytes none else .bytes [] err
  | .copyOut n off =>
    .bytes (if used = true then (a.bytes.drop off.toNat).take n else []) err
  | .copyIn src off =>
    .count (if used = true then (src.take (a.bytes.length - off.toNat)).length else 0) err
  | .byteAt i => .byte (if used = true then (a.bytes.drop i.toNat).headD 0 else 0) err
  | .setByteAt _ _ => .err err
  | .constantTimeEqual other => .equal (used && decide (a.bytes = other)) err
  | .writeTo w =>
    match err with
    | none => .wrote (some a.bytes) (w a.bytes).1 (w a.bytes).2
    | some e => .wrote none 0 (some e)
  | .readFrom r =>
    .count (if used = true then
      ((readFull r a.bytes.length).1.take a.bytes.length).length else 0) err
  | _ => .err err

/-- What a callback must keep to: it writes nowhere but into its slice, and not while the
buffer is read-only. -/
def keepsContract : Method → Bool
  | .withBytes (some fn) | .withBytesErr (some fn) =>
    (fn a.bytes).strays.isEmpty && (!a.readOnly || (fn a.bytes).writes.isEmpty)
  | _ => true

end Abs

end Secmem.Process
