import Secmem.Errors
import Secmem.Framework.Program

/-!
# `Argon2Pool`

The pool of `argon2_workspace.go` as a protocol over its channel, its flag and its workspaces: the
buffered channel `free` holds the workspaces nobody uses, a `Derive` takes one out and puts it back,
and the `Destroy` that sets the flag takes all of them out, closes the channel and destroys them.

What happens inside a derivation is a borrow of the workspace's buffer, from `borrow` to
`endBorrow`; that the borrow may be refused, and why, is left open except that a destroyed buffer
refuses with `ErrDestroyed`.  A derivation that panics passes through the same deferred steps.

`holder`, `users`, `drained`, `setter`, `torn` and `late` are ghosts: who took a workspace out of
the channel, who is inside a borrow of it, what `Destroy` has taken back, which goroutine set the
flag, whether that call has returned, and whether a goroutine's `Derive` began after it had.
-/

namespace Secmem.Argon2Pool

/-- A pool, its workspaces and its ghosts, shared by the goroutines `T`. -/
structure World (T : Type) where
  mu : Option T
  done : Bool
  all : List ℕ
  capacity : ℕ
  free : List ℕ
  closed : Bool
  wsMu : ℕ → Option T
  destroyed : ℕ → Bool
  made : ℕ
  holder : ℕ → Option T
  users : ℕ → List T
  drained : List ℕ
  setter : Option T
  torn : Bool
  late : T → Bool

/-- The outcome of what the model leaves open: it succeeds, or fails with an error. -/
abbrev Choice := Option ℕ

inductive Act
  -- the flag and its mutex
  | lock
  | unlock
  | readDone
  -- `Destroy`'s read of the flag
  | findDone
  | setDone
  -- the channel
  | recv
  | drain
  | send (i : ℕ)
  | close
  -- a workspace
  | check
  | wsLock (i : ℕ)
  | wsUnlock (i : ℕ)
  | borrow (i : ℕ)
  | endBorrow (i : ℕ)
  | destroyMem (i : ℕ)
  -- construction
  | newWorkspace
  | appendAll (i : ℕ)
  | readAll
  -- ghosts
  | deriveStarts
  | deriveReturns (err : Option GoErr)
  | destroyReturns (won : Bool) (err : Option GoErr)

/-- The result of an action. -/
@[reducible] def Res : Act → Type
  | .readDone | .findDone => Bool
  | .recv => Option ℕ
  | .check | .borrow _ | .destroyMem _ => Option GoErr
  | .newWorkspace => Except GoErr ℕ
  | .readAll => List ℕ
  | _ => Unit

inductive Call
  | derive
  | destroy

abbrev PoolProg := Prog Act Res Call

section Exec

variable {T : Type} [DecidableEq T]

/-- What the actions do.  With `strict`, a `Destroy` that finds the flag set does not get past it
before the call that set it has returned. -/
def exec (strict : Bool) (t : T) (i : Act) (c : Choice) (w : World T) :
    Outcome (World T) (Res i) :=
  match i with
  | .lock => if w.mu = none then .done () { w with mu := some t } else .blocked
  | .unlock => .done () { w with mu := none }
  | .readDone => .done w.done w
  | .findDone =>
    if strict = true ∧ w.done = true ∧ w.torn = false then .blocked else .done w.done w
  | .setDone => .done () { w with done := true, setter := some t }
  | .recv =>
    match w.free with
    | i :: free => .done (some i) { w with
        free := free, holder := Function.update w.holder i (some t) }
    | [] => if w.closed = true then .done none w else .blocked
  | .drain =>
    match w.free with
    | i :: free => .done () { w with
        free := free
        holder := Function.update w.holder i (some t)
        drained := w.drained ++ [i] }
    | [] => if w.closed = true then .done () w else .blocked
  -- a send on a closed channel panics, one on a full channel waits
  | .send i =>
    if w.closed = true then .fault
    else if w.free.length < w.capacity then .done () { w with
      free := w.free ++ [i], holder := Function.update w.holder i none }
    else .blocked
  | .close => if w.closed = true then .fault else .done () { w with closed := true }
  -- the checks of the parameters that `Argon2Workspace.Derive` makes first
  | .check => .done (c.map .os) w
  | .wsLock i =>
    if w.wsMu i = none then .done () { w with wsMu := Function.update w.wsMu i (some t) }
    else .blocked
  | .wsUnlock i => .done () { w with wsMu := Function.update w.wsMu i none }
  -- `WithBytesErr` on the workspace's buffer and on the output
  | .borrow i =>
    if w.destroyed i = true then .done (some (Sentinel.errDestroyed : GoErr)) w
    else
      match c with
      | some n => .done (some (.os n)) w
      | none => .done none { w with users := Function.update w.users i (t :: w.users i) }
  | .endBorrow i => .done () { w with
      users := Function.update w.users i ((w.users i).erase t) }
  -- `SecureBuffer.Destroy`: the buffer is destroyed whatever it returns
  | .destroyMem i => .done (c.map .os) { w with destroyed := Function.update w.destroyed i true }
  | .newWorkspace =>
    match c with
    | some n => .done (.error (.os n)) w
    | none => .done (.ok w.made) { w with made := w.made + 1 }
  | .appendAll i => .done () { w with all := w.all ++ [i] }
  | .readAll => .done w.all w
  | .deriveStarts => .done () { w with late := Function.update w.late t w.torn }
  | .deriveReturns _ => .done () w
  | .destroyReturns won _ => .done () { w with torn := w.torn || won }

end Exec

/-! ## The methods -/

/-- The program that performs one of the pool's actions. -/
abbrev perform (i : Act) : PoolProg (Res i) := Prog.perform i

/-- `Argon2Workspace.Derive`. -/
def wsDerive (i : ℕ) : PoolProg (Option GoErr) := do
  let invalid : Option GoErr ← perform .check
  match invalid with
  | some e => pure (some e)
  | none => do
  perform (.wsLock i)
  let err : Option GoErr ← perform (.borrow i)
  match err with
  | some e => do
    perform (.wsUnlock i)
    pure (some (.wrap "secmemcrypto: argon2 derive: " e))
  | none => do
    perform (.endBorrow i)
    perform (.wsUnlock i)
    pure none

/-- `Argon2Workspace.Destroy`. -/
def wsDestroy (i : ℕ) : PoolProg (Option GoErr) := do
  perform (.wsLock i)
  let err : Option GoErr ← perform (.destroyMem i)
  perform (.wsUnlock i)
  pure err

/-- The error of a call on a destroyed pool. -/
def errPoolDestroyed : GoErr :=
  .wrap "secmemcrypto: argon2 pool: " (Sentinel.errDestroyed : GoErr)

/-- The body of `Derive`. -/
def deriveBody : PoolProg (Option GoErr) := do
  perform .lock
  let done : Bool ← perform .readDone
  perform .unlock
  if done = true then pure (some errPoolDestroyed) else do
  let ws : Option ℕ ← perform .recv
  match ws with
  | none => pure (some errPoolDestroyed)
  | some i => do
    let err ← wsDerive i
    perform (.send i)
    pure err

def derive : PoolProg (Option GoErr) := do
  perform .deriveStarts
  let err ← deriveBody
  perform (.deriveReturns err)
  pure err

/-- `for range p.all { <-p.free }`. -/
def drainAll : List ℕ → PoolProg Unit
  | [] => pure ()
  | _ :: rest => do
    perform .drain
    drainAll rest

/-- The last loop of `Destroy`, with the first failure so far. -/
def destroyAll : List ℕ → Option GoErr → PoolProg (Option GoErr)
  | [], first => pure first
  | i :: rest, first => do
    let err ← wsDestroy i
    destroyAll rest (first.or err)

/-- What the `Destroy` that set the flag does. -/
def tearDown : PoolProg (Option GoErr) := do
  let all : List ℕ ← perform .readAll
  drainAll all
  perform .close
  destroyAll all none

def destroy : PoolProg (Option GoErr) := do
  perform .lock
  let done : Bool ← perform .findDone
  if done = true then do
    perform .unlock
    perform (.destroyReturns false none)
    pure none
  else do
  perform .setDone
  perform .unlock
  let err ← tearDown
  perform (.destroyReturns true err)
  pure err

/-! ## Construction -/

/-- The loop of `NewArgon2Pool`, from workspace `i` on. -/
def newWorkspaces (size : ℕ) : ℕ → ℕ → PoolProg (Option GoErr)
  | 0, _ => pure none
  | n + 1, i => do
    let ws : Except GoErr ℕ ← perform .newWorkspace
    match ws with
    | .error e => do
      let _ ← destroy
      pure (some (.wrap ("secmemcrypto: argon2 pool: workspace " ++ toString (i + 1) ++ " of " ++
        toString size ++ ": ") e))
    | .ok ws => do
      perform (.appendAll ws)
      perform (.send ws)
      newWorkspaces size n (i + 1)

/-- A pool without workspaces. -/
def blank (T : Type) (size : ℕ) : World T where
  mu := none
  done := false
  all := []
  capacity := size
  free := []
  closed := false
  wsMu := fun _ => none
  destroyed := fun _ => false
  made := 0
  holder := fun _ => none
  users := fun _ => []
  drained := []
  setter := none
  torn := false
  late := fun _ => false

/-- `NewArgon2Pool`, on the pool that `make` gives it. -/
def newArgon2Pool (size : ℤ) : PoolProg (Option GoErr) :=
  if size < 1 then
    pure (some (.new ("secmemcrypto: argon2 pool: size must be >= 1, got " ++ toString size)))
  else newWorkspaces size.toNat size.toNat 0

/-- The pool that `NewArgon2Pool` hands out. -/
def initial (T : Type) (size : ℕ) : World T :=
  { blank T size with
    all := List.range size
    free := List.range size
    made := size }

def code : Call → PoolProg Unit
  | .derive => do let _ ← derive
  | .destroy => do let _ ← destroy

def system (T : Type) [DecidableEq T] (strict : Bool) :
    System Act Res Call T Choice (World T) where
  exec := exec strict
  code := code

/-- The runs of a pool: any goroutines, making any number of calls. -/
def Run {T : Type} [DecidableEq T] (strict : Bool) (w₀ : World T)
    (p : Pool Act Res Call T (World T)) : Prop :=
  Pool.Run (system T strict) (fun _ => true) (fun w => w = w₀) p

end Secmem.Argon2Pool
