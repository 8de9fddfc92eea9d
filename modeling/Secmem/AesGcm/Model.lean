import Secmem.Errors
import Secmem.Framework.Program
import Secmem.Framework.RWLock

/-!
# `WithAESGCM`

`aesgcm.go`: the key is expanded, an AEAD is built from the expanded key and lent to a callback,
and when the callback has ended, by returning or by panicking, both objects are wiped.  What is
lent is a `scopedAEAD`.  Its `Seal` and `Open` hold a reader-writer lock for reading around the
call of the AEAD within, and panic once the scope has been closed.

The callback may hand the AEAD to other goroutines, so its methods may be called at any time by
any number of them from the moment it is lent.  What the cipher computes, and whether the calls
within return or panic, is left open; so are the errors of building the objects and of wiping
them.  `World` is about the objects of one call of `WithAESGCM`.

`owner`, `lent`, `inside`, `closed`, `late` and the counts of wipes are ghosts: who expanded the
key, whether the AEAD has been lent, who is inside the AEAD within, whether the scope has been
closed, whether a goroutine's present call began after that, and how often each object has been
wiped.
-/

namespace Secmem.AesGcm

/-- A method of the AEAD that uses the key. -/
inductive Op
  | sealCall
  | openCall
  deriving DecidableEq, Repr

/-- The value of a panic: a text, as the standard library's are, or an error. -/
inductive PanicValue
  | text (s : String)
  | err (e : GoErr)
  deriving DecidableEq, Repr

/-- How a call of `Seal` or `Open` ends. -/
inductive CallEnd
  | returned
  | panicked (value : PanicValue)
  deriving DecidableEq, Repr

inductive CallbackEnd
  | returns (err : Option GoErr)
  | panics (value : PanicValue)
  deriving DecidableEq, Repr

def errAEADOutOfScope : GoErr :=
  .new ("secmemcrypto: AEAD used after its WithAESGCM callback returned; " ++
    "its key schedule has been wiped")

/-- What the callback does with its AEAD on its own goroutine. -/
inductive Callback
  | ends (e : CallbackEnd)
  | call (op : Op) (next : CallEnd → Callback)

/-- The `scopedAEAD` and the ghosts, shared by the goroutines `T`. -/
structure World (T : Type) where
  mu : RWLock T
  done : Bool
  owner : Option T
  lent : Bool
  inside : T → Bool
  closed : Bool
  late : T → Bool
  gcmWipes : ℕ
  blockWipes : ℕ

/-- How what is left open comes out. -/
structure Choice where
  err : Option GoErr
  flag : Bool
  len : ℕ
  panic : Option String

inductive Act
  -- what `WithAESGCM` does with the key
  | isDestroyed
  | len
  | layoutReady
  | borrow
  -- the two objects and the scope
  | newCipher
  | newGCM
  | lend
  | wipeGCM
  | wipeAESBlock
  -- the fields of `scopedAEAD`
  | rLock
  | rUnlock
  | lock
  | unlock
  | readDone
  | setDone
  -- the AEAD within
  | innerStarts (op : Op)
  | innerEnds (op : Op)
  -- ghosts
  | callStarts
  | callEnds (r : CallEnd)
  | exits

@[reducible] def Res : Act → Type
  | .isDestroyed | .readDone => Bool
  | .innerEnds _ => Option String
  | .len => ℕ
  | .layoutReady | .borrow | .newCipher | .newGCM | .wipeGCM | .wipeAESBlock => Option GoErr
  | _ => Unit

/-- What a goroutine may begin: `WithAESGCM` with a key that may be nil and a callback that may
be, or a method of the AEAD. -/
inductive Call
  | withAESGCM (key : Bool) (fn : Option Callback)
  | aead (op : Op)

abbrev Code := Prog Act Res Call

section Exec

variable {T : Type} [DecidableEq T]

/-- What the actions do.  Only one call of `WithAESGCM` gets to expand the key, the one that the
world is about; nobody calls the AEAD before it is lent. -/
def exec (t : T) (i : Act) (c : Choice) (w : World T) : Outcome (World T) (Res i) :=
  match i with
  | .isDestroyed => .done c.flag w
  | .len => .done c.len w
  | .layoutReady | .borrow | .newGCM => .done c.err w
  | .newCipher =>
    if w.owner ≠ none then .blocked
    else
      match c.err with
      | some e => .done (some e) w
      | none => .done none { w with owner := some t }
  | .lend => .done () { w with lent := true }
  | .wipeGCM => .done c.err { w with gcmWipes := w.gcmWipes + 1 }
  | .wipeAESBlock => .done c.err { w with blockWipes := w.blockWipes + 1 }
  | .rLock =>
    match w.mu.rLock t with
    | some l => .done () { w with mu := l }
    | none => .blocked
  | .rUnlock => .done () { w with mu := w.mu.rUnlock t }
  | .lock =>
    match w.mu.lock t with
    | some l => .done () { w with mu := l }
    | none => .blocked
  | .unlock => .done () { w with mu := w.mu.unlock, closed := true }
  | .readDone => .done w.done w
  | .setDone => .done () { w with done := true }
  | .innerStarts _ => .done () { w with inside := Function.update w.inside t true }
  | .innerEnds _ => .done c.panic { w with inside := Function.update w.inside t false }
  | .callStarts =>
    if w.lent = true then .done () { w with late := Function.update w.late t w.closed }
    else .blocked
  | .callEnds _ | .exits => .done () w

end Exec

abbrev perform (i : Act) : Code (Res i) := Prog.perform i

/-! ## The scope -/

def CallEnd.outOfScope : CallEnd := .panicked (.err errAEADOutOfScope)

/-- A call that goes through ends as the call within. -/
def CallEnd.ofInner : Option String → CallEnd
  | none => .returned
  | some s => .panicked (.text s)

/-- `scopedAEAD.Seal` and `scopedAEAD.Open`; the unlock is deferred. -/
def scopedCall (op : Op) : Code CallEnd := do
  perform .callStarts
  perform .rLock
  let done : Bool ← perform .readDone
  if done = true then do
    perform .rUnlock
    perform (.callEnds .outOfScope)
    pure .outOfScope
  else do
    perform (.innerStarts op)
    let panic : Option String ← perform (.innerEnds op)
    perform .rUnlock
    perform (.callEnds (.ofInner panic))
    pure (.ofInner panic)

/-- `scopedAEAD.close`. -/
def close : Code Unit := do
  perform .lock
  perform .setDone
  perform .unlock

/-! ## `WithAESGCM` -/

def runCallback : Callback → Code CallbackEnd
  | .ends e => pure e
  | .call op next => do
    let r ← scopedCall op
    runCallback (next r)

/-- The errors of the deferred wipes join the callback's; a panic goes on as it was. -/
def CallbackEnd.joined : CallbackEnd → Option GoErr → CallbackEnd
  | .returns err, werr => .returns (GoErr.joinOpt err werr)
  | .panics v, _ => .panics v

/-- What is done with the borrowed key. -/
def withKey (fn : Callback) : Code CallbackEnd := do
  let err : Option GoErr ← perform .newCipher
  match err with
  | some e => pure (.returns (some e))
  | none => do
  let err : Option GoErr ← perform .newGCM
  match err with
  | some e => do
    let werr : Option GoErr ← perform .wipeAESBlock
    pure ((CallbackEnd.returns (some e)).joined werr)
  | none => do
    perform .lend
    let r ← runCallback fn
    -- the deferred actions, last one first
    close
    let gerr : Option GoErr ← perform .wipeGCM
    let berr : Option GoErr ← perform .wipeAESBlock
    perform .exits
    pure ((r.joined gerr).joined berr)

def CallbackEnd.wrapped (text : String) : CallbackEnd → CallbackEnd
  | .returns err => .returns (err.map (.wrap text))
  | .panics v => .panics v

def badKeyLen (n : ℕ) : GoErr :=
  .new s!"secmemcrypto: with aes-gcm: key is {n} bytes, want 16, 24 or 32"

def withAESGCM (key : Bool) (fn : Option Callback) : Code CallbackEnd :=
  if key = false then
    pure (.returns (some (.new "secmemcrypto: with aes-gcm: nil key buffer"))) else
  match fn with
  | none => pure (.returns (some (.new "secmemcrypto: with aes-gcm: nil callback")))
  | some fn => do
  let destroyed : Bool ← perform .isDestroyed
  if destroyed = true then
    pure (.returns (some (.wrap "secmemcrypto: with aes-gcm: " (Sentinel.errDestroyed : GoErr))))
  else do
  let n : ℕ ← perform .len
  if n ≠ 16 ∧ n ≠ 24 ∧ n ≠ 32 then do
    let n : ℕ ← perform .len
    pure (.returns (some (badKeyLen n)))
  else do
  let err : Option GoErr ← perform .layoutReady
  match err with
  | some e => pure (.returns (some e))
  | none => do
  let err : Option GoErr ← perform .borrow
  match err with
  | some e => pure (.returns (some (.wrap "secmemcrypto: with aes-gcm: " e)))
  | none => do
    let r ← withKey fn
    pure (r.wrapped "secmemcrypto: with aes-gcm: ")

def code : Call → Code Unit
  | .withAESGCM key fn => do let _ ← withAESGCM key fn
  | .aead op => do let _ ← scopedCall op

def system (T : Type) [DecidableEq T] : System Act Res Call T Choice (World T) where
  exec := exec
  code := code

/-- Before the key is expanded. -/
def World.initial (T : Type) : World T where
  mu := .free
  done := false
  owner := none
  lent := false
  inside _ := false
  closed := false
  late _ := false
  gcmWipes := 0
  blockWipes := 0

/-- The pools reached when any goroutines run any of the calls. -/
def Run {T : Type} [DecidableEq T] (p : Pool Act Res Call T (World T)) : Prop :=
  Pool.Run (system T) (fun _ => true) (fun w => w = .initial T) p

end Secmem.AesGcm
