import Secmem.Errors
import Secmem.Framework.Loop

/-!
# The termination handler

`terminationwipe.go` and its platform files.  Installing the handler registers a channel of one
slot and starts a goroutine that goes round and round: it waits for a signal or for `uninstall`,
wipes, deregisters the channel, and re-raises the signal or exits; if it could do neither it
registers the channel again.

The goroutine is a `Loop`.  Signals arrive at any time, as events of its environment.  A signal
that arrives while the channel is registered for it is put into the channel, unless the channel
is full, in which case it is dropped: `signal.Notify` does not block.  `signal.Stop` takes the
registration away and leaves the channel as it is.

The wipe runs in a goroutine of its own and returns when it likes, which is another event.
-/

namespace Secmem.Termination

/-! ## Installing -/

inductive Signal
  | interrupt
  | terminate
  | other (n : ℕ)
  deriving DecidableEq, Repr

/-- What is settled when the handler is installed.  `rearmed` says whether there is a hook to
be called after each new registration. -/
structure Config where
  signals : List Signal
  forceExit : Bool
  inheritedIgnore : Signal → Bool
  forcedExitStatus : ℤ
  rearmed : Bool

/-- `STATUS_CONTROL_C_EXIT` as a signed number, or the shell's status for an interrupt. -/
def forcedExitStatus (windows : Bool) : ℤ := if windows = true then -1073741510 else 130

/-- `recordInheritedIgnores`: the map is read with its default, false. -/
def recordInheritedIgnores (ignored : Signal → Bool) (signals : List Signal) : Signal → Bool :=
  fun sig => decide (sig ∈ signals) && ignored sig

/-- The start of `installTerminationWipeHooks`; `ignored` is what `signal.Ignored` reports. -/
def installTerminationWipeHooks (windows forceExit rearmed : Bool) (ignored : Signal → Bool)
    (signals : List Signal) : Config :=
  let signals := if signals = [] then [.interrupt, .terminate] else signals
  { signals := signals
    forceExit := forceExit
    inheritedIgnore := recordInheritedIgnores ignored signals
    forcedExitStatus := Termination.forcedExitStatus windows
    rearmed := rearmed }

def installTerminationWipe (windows : Bool) (ignored : Signal → Bool) (signals : List Signal) :
    Config :=
  installTerminationWipeHooks windows true false ignored signals

def installTerminationWipeNoExit (windows : Bool) (ignored : Signal → Bool)
    (signals : List Signal) : Config :=
  installTerminationWipeHooks windows false false ignored signals

/-! ## The goroutine -/

/-- Which case of the handler's `select` was taken. -/
inductive Selected
  | signal (sig : Signal)
  | done
  deriving DecidableEq, Repr

/-- What the handler does, one atomic action at a time. -/
inductive Act
  | select
  | wipe
  | await
  | stop
  | reraise (sig : Signal)
  | exit (status : ℤ)
  | notify
  | rearmed
  deriving DecidableEq, Repr

/-- `await` reports whether the wipe finished, `reraise` the error. -/
@[reducible] def Res : Act → Type
  | .select => Selected
  | .await => Bool
  | .reraise _ => Option GoErr
  | _ => Unit

abbrev Code := Prog Act Res Empty

abbrev perform (i : Act) : Code (Res i) := Prog.perform i

/-- The wipe is started in a goroutine and awaited for a limited time. -/
def wipeAllSecretsBounded : Code Bool := do
  perform .wipe
  perform .await

def errInheritedIgnored : GoErr :=
  .new ("secmem: the signal was ignored when the handler was installed (an inherited " ++
    "disposition), so re-raising it would be discarded")

/-- The error of the re-raise, which is not attempted for a signal inherited as ignored. -/
def tryReraise (sig : Signal) (inheritedIgnore : Bool) : Code (Option GoErr) :=
  if inheritedIgnore = true then pure (some errInheritedIgnored) else perform (.reraise sig)

/-- Whether the handler should register again. -/
def completeTermination (sig : Signal) (forceExit inheritedIgnore : Bool) (status : ℤ) :
    Code Bool := do
  let err ← tryReraise sig inheritedIgnore
  match err with
  | none => pure false
  | some _ =>
    if forceExit = false then pure true else do
      perform (.exit status)
      pure false

variable (cfg : Config)

/-- The end of a round that left the process running: the new registration and the hook. -/
def registerAgain : Code Bool := do
  perform .notify
  if cfg.rearmed = true then do
    perform .rearmed
    pure true
  else pure true

/-- The case of a signal; true if the loop goes on. -/
def onSignal (sig : Signal) : Code Bool := do
  let _ ← wipeAllSecretsBounded
  perform .stop
  let rearm ← completeTermination sig cfg.forceExit (cfg.inheritedIgnore sig)
    cfg.forcedExitStatus
  if rearm = true then registerAgain cfg else pure false

/-- The case of `uninstall`. -/
def onDone : Code Bool := do
  perform .stop
  pure false

/-- One round of the handler's loop. -/
def handler : Code Bool := do
  let got : Selected ← perform .select
  match got with
  | .signal sig => onSignal cfg sig
  | .done => onDone

/-! ## Its surroundings -/

/-- `ch` is the content of the channel, `closed` whether `uninstall` has closed `done`, and
`finished` whether the last wipe has returned. -/
structure World where
  registered : Bool
  ch : Option Signal
  closed : Bool
  finished : Bool
  deriving DecidableEq, Repr

/-- When the goroutine starts, the channel is registered. -/
def World.initial : World := ⟨true, none, false, false⟩

inductive Event
  | arrive (sig : Signal)
  | wipeReturns
  | uninstall
  deriving DecidableEq, Repr

/-- Which of two ready cases a `select` takes, and what a re-raise returns. -/
structure Choice where
  first : Bool
  err : Option GoErr

/-- An action of the handler. -/
def exec (i : Act) (c : Choice) (w : World) : Outcome World (Res i) :=
  match i with
  | .select =>
    match w.ch, w.closed with
    | some sig, true =>
      if c.first = true then .done (.signal sig) { w with ch := none } else .done .done w
    | some sig, false => .done (.signal sig) { w with ch := none }
    | none, true => .done .done w
    | none, false => .blocked
  | .wipe => .done () { w with finished := false }
  | .await =>
    if c.first = true then (if w.finished = true then .done true w else .blocked)
    else .done false w
  | .stop => .done () { w with registered := false }
  | .reraise _ => .done c.err w
  | .exit _ => .done () w
  | .notify => .done () { w with registered := true }
  | .rearmed => .done () w

/-- An event.  `uninstall` closes `done` once. -/
def env (e : Event) (w : World) : Option World :=
  match e with
  | .arrive sig =>
    if w.registered = true ∧ sig ∈ cfg.signals then some { w with ch := w.ch.or (some sig) }
    else some w
  | .wipeReturns => some { w with finished := true }
  | .uninstall => some { w with closed := true }

def loop : Loop Act Res Event Choice World where
  exec := exec
  env := env cfg
  round := handler cfg

abbrev State := Loop.State Act Res Event World

end Secmem.Termination
