import Secmem.Errors
import Secmem.Framework.Program

/-!
# The quarantine

`quarantine.go`: the address range of a destroyed region is replaced by a no-access reservation
and queued, and it is unmapped when it is evicted.  The queue, its byte count and its limits are
guarded by one mutex; the admission check, the replacement and the append are separate steps, and
so are the eviction of a range and its unmapping.

A retired range has a number of its own, so that the same addresses can be retired again once
they have been given back.  The logs of what entered and left the queue, of the calls to unmap and
of the ranges left alone are ghosts, and so is `owner`, the goroutine that still has a range in
hand.
-/

namespace Secmem.Quarantine

/-- The outer range of a retired region: its number, its first address and its length. -/
structure Outer where
  id : ℕ
  base : ℕ
  len : ℕ
  deriving DecidableEq, Repr

namespace Outer

/-- Two ranges without a common address. -/
def Apart (o o' : Outer) : Prop :=
  o.len = 0 ∨ o'.len = 0 ∨ o.base + o.len ≤ o'.base ∨ o'.base + o'.len ≤ o.base

/-- The range lies in the address space; nothing is at address zero. -/
def InSpace (o : Outer) : Prop :=
  o.len = 0 ∨ 0 < o.base ∧ o.base + o.len ≤ 2 ^ 64

instance (o o' : Outer) : Decidable (o.Apart o') := inferInstanceAs (Decidable (_ ∨ _))

instance (o : Outer) : Decidable o.InSpace := inferInstanceAs (Decidable (_ ∨ _))

end Outer

/-- `QuarantineLimits`. -/
structure QuarantineLimits where
  regions : ℤ
  bytes : ℕ
  deriving DecidableEq, Repr

/-- `DefaultQuarantineLimits`; `wide` is whether `int` has 64 bits. -/
def defaultQuarantineLimits (wide : Bool) : QuarantineLimits :=
  if wide = false then ⟨64, 16 * 2 ^ 20⟩ else ⟨4096, 4 * 2 ^ 30⟩

/-- The platform's constants. -/
structure Platform where
  quarantineSupported : Bool
  quarantineFailureKeepsRange : Bool
  deriving DecidableEq, Repr

/-- The quarantine and its ghosts, shared by the goroutines `T`. -/
structure World (T : Type) where
  mu : Option T
  limits : QuarantineLimits
  held : List Outer
  bytes : ℕ
  retired : List Outer
  owner : Outer → Option T
  entered : List Outer
  departed : List Outer
  unmaps : List Outer
  keptAsIs : List Outer

/-- The outcome of a call to the platform: it succeeds, or fails with an error. -/
abbrev Choice := Option ℕ

inductive Act
  | lock
  | unlock
  | readLimits
  | writeLimits (l : QuarantineLimits)
  | readHeld
  | readBytes
  | writeBytes (b : ℕ)
  -- `q.held = append(q.held, region.outer)`
  | append (o : Outer)
  -- the copy down of `trimLocked`
  | cut (n : ℕ)
  -- `quarantineSecretMem`
  | replace (o : Outer)
  -- `Munmap`, `VirtualFree`
  | unmap (o : Outer)
  -- ghost: a region comes to be retired
  | retires (base len : ℕ)

/-- The result of an action. -/
@[reducible] def Res : Act → Type
  | .readLimits => QuarantineLimits
  | .readHeld => List Outer
  | .readBytes => ℕ
  | .replace _ | .unmap _ => Option GoErr
  | .retires _ _ => Outer
  | _ => Unit

inductive Call
  | retireSecretMem (base len : ℕ)
  | setQuarantineLimits (l : QuarantineLimits)
  | quarantineInForce

abbrev QProg := Prog Act Res Call

/-! ## What the actions do -/

/-- Go's `copy(dst, src)`, as the new contents of `dst`. -/
def copySlice {α : Type} (dst src : List α) : List α :=
  src.take dst.length ++ dst.drop src.length

/-- `rest := copy(q.held, q.held[n:])` and `q.held = q.held[:rest]`. -/
def copyDown (held : List Outer) (n : ℕ) : List Outer :=
  (copySlice held (held.drop n)).take (held.length - n)

lemma copyDown_eq (held : List Outer) (n : ℕ) : copyDown held n = held.drop n := by
  have hle : (held.drop n).length ≤ held.length := by simp
  rw [copyDown, copySlice, List.take_of_length_le hle, ← List.length_drop, List.take_left]

/-- The range the next retirement is about. -/
def World.next {T : Type} (w : World T) (base len : ℕ) : Outer := ⟨w.retired.length, base, len⟩

/-- A region can only be where no other one is. -/
def World.admits {T : Type} (w : World T) (o : Outer) : Bool :=
  decide o.InSpace && w.retired.all fun o' =>
    decide (o' ∈ w.unmaps) || decide (o' ∈ w.keptAsIs) || decide (o.Apart o')

section Exec

variable {T : Type} [DecidableEq T]

def exec (P : Platform) (t : T) (i : Act) (c : Choice) (w : World T) :
    Outcome (World T) (Res i) :=
  match i with
  | .lock => if w.mu = none then .done () { w with mu := some t } else .blocked
  | .unlock => .done () { w with mu := none }
  | .readLimits => .done w.limits w
  | .writeLimits l => .done () { w with limits := l }
  | .readHeld => .done w.held w
  | .readBytes => .done w.bytes w
  | .writeBytes b => .done () { w with bytes := b }
  | .append o => .done () { w with
      held := w.held ++ [o]
      entered := w.entered ++ [o]
      owner := Function.update w.owner o none }
  | .cut n => .done () { w with
      held := copyDown w.held n
      departed := w.departed ++ w.held.take n
      owner := fun o => if o ∈ w.held.take n then some t else w.owner o }
  | .replace o =>
    match c with
    | none => .done none w
    | some n =>
      if P.quarantineFailureKeepsRange = true then .done (some (.os n)) w
      else .done (some (.os n)) { w with
        keptAsIs := w.keptAsIs ++ [o]
        owner := Function.update w.owner o none }
  | .unmap o => .done (c.map .os) { w with
      unmaps := w.unmaps ++ [o]
      owner := Function.update w.owner o none }
  | .retires base len =>
    if w.admits (w.next base len) = true then .done (w.next base len) { w with
      retired := w.retired ++ [w.next base len]
      owner := Function.update w.owner (w.next base len) (some t) }
    else .blocked

end Exec

/-! ## The functions -/

/-- The program that performs one of the quarantine's actions. -/
abbrev perform (i : Act) : QProg (Res i) := Prog.perform i

/-- `x + y` and `x - y` on `uint64`. -/
def add64 (x y : ℕ) : ℕ := (x + y) % 2 ^ 64

def sub64 (x y : ℕ) : ℕ := (x + (2 ^ 64 - y % 2 ^ 64)) % 2 ^ 64

/-- The loop of `trimLocked`, at entry `n` of the queue, with the entries from there on. -/
def trimFrom : List Outer → ℕ → QProg ℕ
  | [], n => pure n
  | o :: rest, n => do
    let limits : QuarantineLimits ← perform .readLimits
    let bytes : ℕ ← perform .readBytes
    if ((rest.length + 1 : ℕ) : ℤ) > limits.regions ∨ bytes > limits.bytes then do
      perform (.writeBytes (sub64 bytes o.len))
      trimFrom rest (n + 1)
    else pure n

def trimLocked : QProg (List Outer) := do
  let held : List Outer ← perform .readHeld
  let n ← trimFrom held 0
  if n = 0 then pure [] else do
  perform (.cut n)
  pure (held.take n)

/-- `releaseAll`, with the first failure so far. -/
def releaseAll : List Outer → Option GoErr → QProg (Option GoErr)
  | [], first => pure first
  | outer :: evicted, first => do
    let err : Option GoErr ← perform (.unmap outer)
    releaseAll evicted (first.or err)

/-- `freeSecretMem`; an empty range is a region that was never allocated. -/
def freeSecretMem (outer : Outer) : QProg (Option GoErr) :=
  if outer.len = 0 then pure none else perform (.unmap outer)

/-- The last part of `retireSecretMem`: the range has been replaced. -/
def enqueue (outer : Outer) : QProg (Option GoErr) := do
  perform .lock
  perform (.append outer)
  let bytes : ℕ ← perform .readBytes
  perform (.writeBytes (add64 bytes outer.len))
  let evicted ← trimLocked
  perform .unlock
  releaseAll evicted none

def retireSecretMem (P : Platform) (base len : ℕ) : QProg (Option GoErr) := do
  let outer : Outer ← perform (.retires base len)
  if P.quarantineSupported = false ∨ outer.len = 0 then freeSecretMem outer else do
  perform .lock
  let limits : QuarantineLimits ← perform .readLimits
  perform .unlock
  if ¬(limits.regions > 0 ∧ outer.len ≤ limits.bytes) then freeSecretMem outer else do
  let err : Option GoErr ← perform (.replace outer)
  match err with
  | some e =>
    if P.quarantineFailureKeepsRange = false then
      pure (some (.wrap ("secmem: destroy quarantine: replacing the region failed, " ++
        "its address range is left as it is: ") e))
    else freeSecretMem outer
  | none => enqueue outer

def setQuarantineLimits (l : QuarantineLimits) : QProg QuarantineLimits := do
  let l : QuarantineLimits := if l.regions < 0 then { l with regions := 0 } else l
  perform .lock
  let previous : QuarantineLimits ← perform .readLimits
  perform (.writeLimits l)
  let evicted ← trimLocked
  perform .unlock
  let _ ← releaseAll evicted none
  pure previous

def quarantineInForce (P : Platform) : QProg Bool :=
  if P.quarantineSupported = false then pure false else do
  perform .lock
  let limits : QuarantineLimits ← perform .readLimits
  perform .unlock
  pure (decide (limits.regions > 0) && decide (limits.bytes > 0))

def code (P : Platform) : Call → QProg Unit
  | .retireSecretMem base len => do let _ ← retireSecretMem P base len
  | .setQuarantineLimits l => do let _ ← setQuarantineLimits l
  | .quarantineInForce => do let _ ← quarantineInForce P

def system (T : Type) [DecidableEq T] (P : Platform) : System Act Res Call T Choice (World T) where
  exec := exec P
  code := code P

/-- The quarantine at start-up. -/
def initial (T : Type) (wide : Bool) : World T where
  mu := none
  limits := defaultQuarantineLimits wide
  held := []
  bytes := 0
  retired := []
  owner := fun _ => none
  entered := []
  departed := []
  unmaps := []
  keptAsIs := []

/-- The runs of the quarantine: any goroutines, making any of the calls. -/
def Run {T : Type} [DecidableEq T] (P : Platform) (wide : Bool)
    (p : Pool Act Res Call T (World T)) : Prop :=
  Pool.Run (system T P) (fun _ => true) (fun w => w = initial T wide) p

end Secmem.Quarantine
