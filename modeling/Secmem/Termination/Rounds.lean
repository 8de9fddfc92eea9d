import Secmem.Termination.Model

/-!
# What the handler does, and when

Everything the handler does is settled by what it has done before: each action has a duty, a
property of the actions that precede it, and one round of the loop does the duties of all its
actions (`conforms_handler`).  So every re-raise and every exit comes after the signal was
received, a wipe was started and the channel was deregistered, in this order; nothing follows
a successful re-raise or an exit; and a round ends with a new registration if and only if there
was neither.

A signal that arrives while the channel is registered leaves something in the channel until the
next receive.  If it arrives during a wipe and the handler registers again, a further wipe
starts in every run that is fair to the handler.
-/

namespace Secmem.Termination

open Loop

abbrev Did := Σ i, Res i

abbrev Trace := List (Loop.Entry Act Res Event)

namespace Did

/-- A signal was received. -/
def receives : Did → Bool
  | ⟨.select, .signal _⟩ => true
  | _ => false

/-- The signal was re-raised, or the exit forced. -/
def ends : Did → Bool
  | ⟨.reraise _, none⟩ => true
  | ⟨.exit _, _⟩ => true
  | _ => false

/-- The channel was registered. -/
def registers : Did → Bool
  | ⟨.notify, _⟩ => true
  | _ => false

end Did

section Histories

variable {h : List Did} {sig : Signal}

/-- The actions since a signal was last received. -/
def current (h : List Did) : List Did := h.takeWhile fun x => !x.receives

/-- Whether the channel is registered after these actions. -/
def registeredBy : List Did → Bool
  | [] => true
  | ⟨.stop, _⟩ :: _ => false
  | ⟨.notify, _⟩ :: _ => true
  | _ :: h => registeredBy h

/-- Nothing has been re-raised and no exit forced. -/
def Unended (h : List Did) : Prop := ∀ x ∈ h, x.ends = false

/-- The last signal, if there was one, has been dealt with: the channel was registered again if
and only if it was not re-raised and no exit was forced. -/
def Settled (h : List Did) : Prop :=
  (∃ x ∈ h, x.receives = true) →
    ((∃ x ∈ current h, x.registers = true) ↔ ∀ x ∈ current h, x.ends = false)

/-- What happens to a signal first: it is received, and the secrets are wiped and the channel is
deregistered. -/
def opening (sig : Signal) (completed : Bool) (h : List Did) : List Did :=
  ⟨.stop, ()⟩ :: ⟨.await, completed⟩ :: ⟨.wipe, ()⟩ :: ⟨.select, .signal sig⟩ :: h

/-- The signal was received, then a wipe was started, then the channel was deregistered, and it
has not been registered since. -/
def Prepared (sig : Signal) (h : List Did) : Prop :=
  ∃ between completed before, h = between ++ opening sig completed before ∧
    ∀ x ∈ between, x.registers = false ∧ x.receives = false

/-- Nothing came of re-raising the signal. -/
inductive Attempt (cfg : Config) (sig : Signal) : List Did → Prop
  | ignored (h : cfg.inheritedIgnore sig = true) : Attempt cfg sig []
  | failed (h : cfg.inheritedIgnore sig = false) (e : GoErr) :
      Attempt cfg sig [⟨.reraise sig, some e⟩]

/-- The signal could not be re-raised. -/
def Refused (cfg : Config) (sig : Signal) (h : List Did) : Prop :=
  ∃ att completed before, Attempt cfg sig att ∧ h = att ++ opening sig completed before

/-- A failed attempt is no receive, no registration and no end. -/
lemma Attempt.plain {cfg : Config} {att : List Did} (hatt : Attempt cfg sig att) {x : Did}
    (hx : x ∈ att) : x.registers = false ∧ x.receives = false ∧ x.ends = false := by
  cases hatt with
  | ignored => cases hx
  | failed _ e =>
    rw [List.mem_singleton.mp hx]
    exact ⟨rfl, rfl, rfl⟩

lemma Refused.prepared {cfg : Config} (h' : Refused cfg sig h) : Prepared sig h := by
  obtain ⟨att, completed, before, hatt, rfl⟩ := h'
  exact ⟨att, completed, before, rfl, fun x hx => ⟨(hatt.plain hx).1, (hatt.plain hx).2.1⟩⟩

lemma Refused.registeredBy_eq {cfg : Config} (h' : Refused cfg sig h) :
    registeredBy h = false := by
  obtain ⟨att, completed, before, hatt, rfl⟩ := h'
  cases hatt <;> rfl

/-- What must have been done before each action. -/
def duty (cfg : Config) (i : Act) (h : List Did) : Prop :=
  match i with
  | .select => Settled h ∧ registeredBy h = true ∧
      (h = [] ∨ ∃ h', h = ⟨.notify, ()⟩ :: h' ∨ h = ⟨.rearmed, ()⟩ :: h')
  | .wipe => registeredBy h = true ∧ ∃ sig h', h = ⟨.select, .signal sig⟩ :: h'
  | .await => ∃ h', h = ⟨.wipe, ()⟩ :: h'
  | .stop => ∃ h', (∃ completed, h = ⟨.await, completed⟩ :: h') ∨ h = ⟨.select, .done⟩ :: h'
  | .reraise sig => Unended h ∧ ∃ completed before, h = opening sig completed before
  | .exit _ => Unended h ∧ ∃ sig, Refused cfg sig h
  | .notify => Unended h ∧ ∃ sig, Refused cfg sig h
  | .rearmed => ∃ h', h = ⟨.notify, ()⟩ :: h'

/-- What holds after a round, and before the first. -/
def AfterRound (goesOn : Bool) (h : List Did) : Prop :=
  Settled h ∧ match goesOn with
    | true => Unended h ∧ registeredBy h = true ∧
        (h = [] ∨ ∃ h', h = ⟨.notify, ()⟩ :: h' ∨ h = ⟨.rearmed, ()⟩ :: h')
    | false => registeredBy h = false ∧ ∃ x h', h = x :: h' ∧ (x.ends = true ∨ x = ⟨.stop, ()⟩)

lemma Unended.cons {x : Did} (h' : Unended h) (hx : x.ends = false) : Unended (x :: h) :=
  List.forall_mem_cons.mpr ⟨hx, h'⟩

lemma Unended.opening {completed : Bool} (h' : Unended h) :
    Unended (opening sig completed h) :=
  (((h'.cons rfl).cons rfl).cons rfl).cons rfl

/-- Whether a round is over can be seen from what came after its opening. -/
lemma settled_append_opening (between : List Did) {before : List Did} {completed : Bool}
    (hb : ∀ x ∈ between, x.receives = false) :
    Settled (between ++ opening sig completed before) ↔
      ((∃ x ∈ between, x.registers = true) ↔ ∀ x ∈ between, x.ends = false) := by
  have hcurrent : current (between ++ opening sig completed before) =
      between ++ [⟨.stop, ()⟩, ⟨.await, completed⟩, ⟨.wipe, ()⟩] := by
    unfold current
    rw [List.takeWhile_append_of_pos fun x hx => by rw [hb x hx]; rfl]
    rfl
  have hreceived : ∃ x ∈ between ++ opening sig completed before, x.receives = true :=
    ⟨⟨.select, .signal sig⟩, by simp [opening], rfl⟩
  unfold Settled
  rw [hcurrent, forall_prop_of_true hreceived]
  simp [or_and_right, exists_or, or_imp, forall_and, Did.registers, Did.ends]

/-- What is done about a signal that could not be re-raised settles it. -/
lemma Refused.settled {cfg : Config} (new : List Did) (h' : Refused cfg sig h)
    (hnew : ∀ x ∈ new, x.receives = false)
    (hdone : (∃ x ∈ new, x.registers = true) ↔ ∀ x ∈ new, x.ends = false) :
    Settled (new ++ h) := by
  obtain ⟨att, completed, before, hatt, rfl⟩ := h'
  rw [← List.append_assoc, settled_append_opening _ fun x hx =>
    (List.mem_append.mp hx).elim (hnew x) fun hx => (hatt.plain hx).2.1]
  constructor
  · rintro ⟨x, hx, hreg⟩ y hy
    rcases List.mem_append.mp hx with hx | hx
    · rcases List.mem_append.mp hy with hy | hy
      · exact hdone.mp ⟨x, hx, hreg⟩ y hy
      · exact (hatt.plain hy).2.2
    · exact absurd hreg (by rw [(hatt.plain hx).1]; exact Bool.false_ne_true)
  · intro hends
    obtain ⟨x, hx, hreg⟩ := hdone.mpr fun x hx => hends x (List.mem_append_left _ hx)
    exact ⟨x, List.mem_append_left _ hx, hreg⟩

lemma Settled.done (h' : Settled h) : Settled (⟨.stop, ()⟩ :: ⟨.select, .done⟩ :: h) := by
  have hcurrent : current (⟨.stop, ()⟩ :: ⟨.select, .done⟩ :: h) =
      ⟨.stop, ()⟩ :: ⟨.select, .done⟩ :: current h := rfl
  unfold Settled
  rw [hcurrent]
  simpa [Did.registers, Did.ends, Did.receives, Settled] using h'

end Histories

variable {cfg : Config} {w v : World} {i : Act} {r : Res i} {c : Choice} {e : Event} {x : Did}
  {h : List Did}

/-- A signal that cannot be re-raised ends the round with an exit or a new registration. -/
lemma conforms_refused {sig : Signal} (hr : Refused cfg sig h) (hu : Unended h) :
    Loop.Conforms (duty cfg)
      (if cfg.forceExit = false then pure true else do
        perform (.exit cfg.forcedExitStatus)
        pure false)
      (fun rearm => Loop.Conforms (duty cfg)
        (if rearm = true then registerAgain cfg else pure false) AfterRound) h := by
  cases hf : cfg.forceExit with
  | true =>
    simp only [Bool.true_eq_false, if_false, conforms_bind, conforms_perform,
      conforms_pure]
    refine ⟨⟨hu, sig, hr⟩, fun _ => ⟨?_, hr.registeredBy_eq, _, _, rfl, Or.inl rfl⟩⟩
    exact hr.settled [⟨.exit cfg.forcedExitStatus, ()⟩]
      (by simp [Did.receives]) (by simp [Did.registers, Did.ends])
  | false =>
    simp only [if_true, conforms_pure, registerAgain, conforms_bind,
      conforms_perform]
    refine ⟨⟨hu, sig, hr⟩, fun _ => ?_⟩
    have hu' : Unended (⟨.notify, ()⟩ :: h) := hu.cons rfl
    cases cfg.rearmed with
    | true =>
      refine ⟨⟨h, rfl⟩, fun _ => ⟨?_, hu'.cons rfl, rfl, Or.inr ⟨_, Or.inr rfl⟩⟩⟩
      exact hr.settled [⟨.rearmed, ()⟩, ⟨.notify, ()⟩]
        (by simp [Did.receives]) (by simp [Did.registers, Did.ends])
    | false =>
      refine ⟨?_, hu', rfl, Or.inr ⟨_, Or.inl rfl⟩⟩
      exact hr.settled [⟨.notify, ()⟩]
        (by simp [Did.receives]) (by simp [Did.registers, Did.ends])

/-- One round does the duties of its actions. -/
lemma conforms_handler (hh : AfterRound true h) :
    Loop.Conforms (duty cfg) (handler cfg) AfterRound h := by
  obtain ⟨hs, hu, hreg, hnew⟩ := hh
  simp only [handler, conforms_bind, conforms_perform]
  refine ⟨⟨hs, hreg, hnew⟩, fun got => ?_⟩
  cases got with
  | done =>
    exact ⟨⟨h, Or.inr rfl⟩, fun _ => ⟨hs.done, rfl, _, _, rfl, Or.inr rfl⟩⟩
  | signal sig =>
    simp only [onSignal, wipeAllSecretsBounded, completeTermination, tryReraise,
      conforms_bind, conforms_perform]
    refine ⟨⟨hreg, sig, h, rfl⟩, fun _ => ⟨⟨_, rfl⟩, fun completed =>
      ⟨⟨_, Or.inl ⟨completed, rfl⟩⟩, fun _ => ?_⟩⟩⟩
    have hu' : Unended (opening sig completed h) := hu.opening
    cases hi : cfg.inheritedIgnore sig with
    | true =>
      exact conforms_refused ⟨[], completed, h, .ignored hi, rfl⟩ hu'
    | false =>
      simp only [Bool.false_eq_true, if_false, conforms_perform]
      refine ⟨⟨hu', completed, h, rfl⟩, fun err => ?_⟩
      cases err with
      | some e => exact conforms_refused ⟨_, completed, h, .failed hi e, rfl⟩ (hu'.cons rfl)
      | none =>
        refine ⟨?_, rfl, _, _, rfl, Or.inl rfl⟩
        exact (settled_append_opening [⟨.reraise sig, none⟩]
          (by simp [Did.receives])).mpr (by simp [Did.registers, Did.ends])

/-- What a select does: it takes the signal out of the channel, or finds `done` closed. -/
lemma exec_select {r : Selected}
    (h : exec .select c w = .done r v) :
    (∃ sig, w.ch = some sig ∧ r = .signal sig ∧ v = { w with ch := none }) ∨
      w.closed = true ∧ r = .done ∧ v = w := by
  simp only [exec] at h
  split at h
  next sig hch hclosed =>
    split at h
    next =>
      cases h
      exact Or.inl ⟨sig, hch, rfl, rfl⟩
    next =>
      cases h
      exact Or.inr ⟨hclosed, rfl, rfl⟩
  next sig hch _ =>
    cases h
    exact Or.inl ⟨sig, hch, rfl, rfl⟩
  next hclosed =>
    cases h
    exact Or.inr ⟨hclosed, rfl, rfl⟩
  next => cases h

lemma exec_await {r : Bool} (h : exec .await c w = .done r v) :
    v = w := by
  simp only [exec] at h
  split at h
  · split at h <;> cases h
    rfl
  · cases h
    rfl

/-- The other actions leave the channel and `done` alone. -/
lemma exec_ch (hi : i ≠ .select)
    (h : exec i c w = .done r v) : v.ch = w.ch ∧ v.closed = w.closed := by
  cases i with
  | select => exact absurd rfl hi
  | await =>
    obtain rfl := exec_await h
    exact ⟨rfl, rfl⟩
  | _ =>
    cases h
    exact ⟨rfl, rfl⟩

lemma exec_closed
    (h : exec i c w = .done r v) : v.closed = w.closed := by
  by_cases hi : i = .select
  · subst hi
    rcases exec_select h with ⟨sig, -, -, rfl⟩ | ⟨-, -, rfl⟩ <;> rfl
  · exact (exec_ch hi h).2

/-- The registration after an action. -/
lemma exec_registered
    (hexec : exec i c w = .done r v) (hw : w.registered = registeredBy h) :
    v.registered = registeredBy (⟨i, r⟩ :: h) := by
  cases i with
  | select =>
    rcases exec_select hexec with ⟨sig, -, rfl, rfl⟩ | ⟨-, rfl, rfl⟩
    · exact hw
    · exact hw
  | await =>
    obtain rfl := exec_await hexec
    exact hw
  | stop =>
    cases hexec
    rfl
  | notify =>
    cases hexec
    rfl
  | _ =>
    cases hexec
    exact hw

/-- What an event does. -/
lemma env_cases (h : env cfg e w = some v) :
    (∃ sig, e = .arrive sig ∧ ((w.registered = true ∧ sig ∈ cfg.signals ∧
        v = { w with ch := w.ch.or (some sig) }) ∨
      ¬(w.registered = true ∧ sig ∈ cfg.signals) ∧ v = w)) ∨
    (e = .wipeReturns ∧ v = { w with finished := true }) ∨
    e = .uninstall ∧ v = { w with closed := true } := by
  cases e with
  | arrive sig =>
    refine Or.inl ⟨sig, rfl, ?_⟩
    simp only [env] at h
    split at h
    next hr =>
      cases h
      exact Or.inl ⟨hr.1, hr.2, rfl⟩
    next hr =>
      cases h
      exact Or.inr ⟨hr, rfl⟩
  | wipeReturns =>
    cases h
    exact Or.inr (Or.inl ⟨rfl, rfl⟩)
  | uninstall =>
    cases h
    exact Or.inr (Or.inr ⟨rfl, rfl⟩)

lemma env_registered (h : env cfg e w = some v) :
    v.registered = w.registered := by
  rcases env_cases h with ⟨sig, -, ⟨-, -, rfl⟩ | ⟨-, rfl⟩⟩ | ⟨-, rfl⟩ | ⟨-, rfl⟩ <;> rfl

/-- An event never empties the channel. -/
lemma env_ch (h : env cfg e w = some v) (hw : w.ch ≠ none) :
    v.ch ≠ none := by
  rcases env_cases h with ⟨sig, -, ⟨-, -, rfl⟩ | ⟨-, rfl⟩⟩ | ⟨-, rfl⟩ | ⟨-, rfl⟩
  · simp
  · exact hw
  · exact hw
  · exact hw

lemma afterRound_nil : AfterRound true [] :=
  ⟨fun ⟨_, hx, _⟩ => absurd hx List.not_mem_nil, fun _ hx => absurd hx List.not_mem_nil, rfl,
    Or.inl rfl⟩

/-! ## In every state -/

section Runs

variable {ok : State → Event → Bool} {s s' : State}

/-- The handler is about to perform an action with its duty done, or has ended. -/
lemma standing (h : (loop cfg).Run ok .initial s) :
    (∃ i k, s.rest = some (.act i k) ∧ duty cfg i (own s.trace)) ∨
      s.rest = none ∧ AfterRound false (own s.trace) := by
  have hreach := h.reaches
  have hconf := hreach.conforms (Q := AfterRound) (fun _ => conforms_handler) afterRound_nil
  cases hrest : s.rest with
  | none =>
    rw [hrest] at hconf
    exact Or.inr ⟨rfl, hconf⟩
  | some p =>
    rw [hrest] at hconf hreach
    obtain ⟨i, k, rfl⟩ := hreach.exists_act ⟨.select, _, rfl⟩
    exact Or.inl ⟨i, k, rfl, hconf.1⟩

/-- Whatever was done, its duty was done before. -/
lemma duty_of_trace (h : (loop cfg).Run ok .initial s) {later earlier : Trace}
    (heq : s.trace = later ++ .own i r :: earlier) : duty cfg i (own earlier) :=
  h.reaches.duty_done (fun _ => conforms_handler) afterRound_nil
    (by rw [heq, own_append, own_cons_own])

/-- The registration follows from what the handler has done. -/
lemma registered_eq (h : (loop cfg).Run ok .initial s) :
    s.shared.registered = registeredBy (own s.trace) := by
  refine Loop.Run.invariant
    (I := fun s : State => s.shared.registered = registeredBy (own s.trace)) h rfl
    fun s s' m hI hm => ?_
  rcases move_cases hm with ⟨i, k, c, r, v, -, -, hexec, rfl⟩ | ⟨e, v, -, -, henv, rfl⟩
  · exact exec_registered hexec hI
  · exact (env_registered henv).trans hI

/-- Before a re-raise that succeeds, an exit or a registration nothing has ended. -/
lemma unended_of_duty (hx : x.ends = true ∨ x.registers = true)
    (hd : duty cfg x.1 h) : Unended h := by
  obtain ⟨i, r⟩ := x
  cases i with
  | reraise sig => exact hd.1
  | exit status => exact hd.1
  | notify => exact hd.1
  | select => cases r <;> simp [Did.ends, Did.registers] at hx
  | _ => simp [Did.ends, Did.registers] at hx

/-- The handler keeps order: it re-raises or exits for a signal only when it is prepared to,
it does so once and then neither does it again nor registers, and once it is done with a signal
it has registered again if and only if it did not. -/
structure Orderly (cfg : Config) (s : State) : Prop where
  reraise : ∀ later earlier sig err, s.trace = later ++ .own (.reraise sig) err :: earlier →
    Prepared sig (own earlier)
  exit : ∀ later earlier status, s.trace = later ++ .own (.exit status) () :: earlier →
    ∃ sig, Prepared sig (own earlier)
  once : ∀ (later earlier : Trace) (x : Did), s.trace = later ++ .own x.1 x.2 :: earlier →
    x.ends = true → ∀ y : Did, y ∈ own later → y.ends = false ∧ y.registers = false
  again : s.rest = none ∨ s.rest = some (handler cfg) → Settled (own s.trace)

lemma orderly (h : (loop cfg).Run ok .initial s) : Orderly cfg s where
  reraise later earlier sig err heq := by
    obtain ⟨-, completed, before, hp⟩ := duty_of_trace h heq
    exact ⟨[], completed, before, hp, fun x hx => absurd hx List.not_mem_nil⟩
  exit later earlier status heq := by
    obtain ⟨-, sig, hr⟩ := duty_of_trace h heq
    exact ⟨sig, hr.prepared⟩
  once later earlier x heq hends y hy := by
    obtain ⟨l, l', hl⟩ := List.append_of_mem hy
    have hown : own s.trace = l ++ y :: (l' ++ x :: own earlier) := by
      rw [heq, own_append, hl, own_cons_own, List.append_assoc, List.cons_append]
    have hduty : duty cfg y.1 (l' ++ x :: own earlier) :=
      h.reaches.duty_done (fun _ => conforms_handler) afterRound_nil hown
    have hnot : ¬Unended (l' ++ x :: own earlier) := by
      intro hu
      rw [hu x (by simp)] at hends
      exact Bool.false_ne_true hends
    constructor
    · exact Bool.eq_false_iff.mpr fun hy => hnot (unended_of_duty (Or.inl hy) hduty)
    · exact Bool.eq_false_iff.mpr fun hy => hnot (unended_of_duty (Or.inr hy) hduty)
  again hrest := by
    rcases standing h with ⟨i, k, hi, hduty⟩ | ⟨-, hafter⟩
    · rcases hrest with hrest | hrest
      · rw [hrest] at hi
        cases hi
      · rw [hrest] at hi
        have hact : Prog.act .select _ = Prog.act i k := Option.some.inj hi
        cases hact
        exact hduty.1
    · exact hafter.1

/-! ## A signal that arrives during a wipe -/

/-- A signal that has arrived while the channel was registered has left something in the
channel until the next receive. -/
def Pending (cfg : Config) (s : State) : Prop :=
  ∀ (later earlier : Trace) (sig : Signal), s.trace = later ++ .env (.arrive sig) :: earlier →
    sig ∈ cfg.signals → registeredBy (own earlier) = true →
    (∀ x : Did, x ∈ own later → x.receives = false) → s.shared.ch ≠ none

lemma Pending.act {v : World}
    {rest : Option (Code Bool)} (h : Pending cfg s) (hexec : exec i c s.shared = .done r v) :
    Pending cfg ⟨v, rest, .own i r :: s.trace⟩ := by
  intro later earlier sig heq hsig hreg hlater
  cases later with
  | nil => cases heq
  | cons x later =>
    obtain ⟨rfl, htrace⟩ := List.cons.inj heq
    have hch : s.shared.ch ≠ none := h later earlier sig htrace hsig hreg fun x hx =>
      hlater x (List.mem_cons_of_mem _ hx)
    have hnot : Did.receives ⟨i, r⟩ = false := hlater ⟨i, r⟩ List.mem_cons_self
    by_cases hi : i = .select
    · subst hi
      rcases exec_select hexec with ⟨sig', -, rfl, -⟩ | ⟨-, -, rfl⟩
      · cases hnot
      · exact hch
    · exact (exec_ch hi hexec).1 ▸ hch

lemma Pending.event {v : World} (h : Pending cfg s)
    (hreg : s.shared.registered = registeredBy (own s.trace))
    (henv : env cfg e s.shared = some v) : Pending cfg ⟨v, s.rest, .env e :: s.trace⟩ := by
  intro later earlier sig heq hsig hearlier hlater
  cases later with
  | nil =>
    obtain ⟨he, rfl⟩ := List.cons.inj heq
    cases he
    rcases env_cases henv with ⟨sig', he, ⟨-, -, rfl⟩ | ⟨hno, -⟩⟩ | ⟨he, -⟩ | ⟨he, -⟩
    · simp
    · cases he
      exact absurd ⟨hreg.trans hearlier, hsig⟩ hno
    · cases he
    · cases he
  | cons x later =>
    obtain ⟨rfl, htrace⟩ := List.cons.inj heq
    exact env_ch henv (h later earlier sig htrace hsig hearlier hlater)

lemma pending (h : (loop cfg).Run ok .initial s) : Pending cfg s := by
  have hboth : s.shared.registered = registeredBy (own s.trace) ∧ Pending cfg s := by
    refine Loop.Run.invariant (I := fun s : State =>
      s.shared.registered = registeredBy (own s.trace) ∧ Pending cfg s) h ?_ ?_
    · exact ⟨rfl, fun later earlier sig heq => absurd heq.symm (by simp [Loop.start])⟩
    · rintro s s' m ⟨hreg, hpend⟩ hm
      rcases move_cases hm with ⟨i, k, c, r, v, -, -, hexec, rfl⟩ | ⟨e, v, -, -, henv, rfl⟩
      · exact ⟨exec_registered hexec hreg, hpend.act hexec⟩
      · exact ⟨(env_registered henv).trans hreg, hpend.event hreg henv⟩
  exact hboth.2

/-- No `uninstall`. -/
def stays (_ : State) (e : Event) : Bool := decide (e ≠ .uninstall)

lemma not_closed (h : (loop cfg).Run stays .initial s) : s.shared.closed = false := by
  refine Loop.Run.invariant (I := fun s : State => s.shared.closed = false) h rfl
    fun s s' m hI hm => ?_
  rcases move_cases hm with ⟨i, k, c, r, v, -, -, hexec, rfl⟩ | ⟨e, v, -, hok, henv, rfl⟩
  · exact (exec_closed hexec).trans hI
  · rcases env_cases henv with ⟨sig, -, ⟨-, -, rfl⟩ | ⟨-, rfl⟩⟩ | ⟨-, rfl⟩ | ⟨rfl, -⟩
    · exact hI
    · exact hI
    · exact hI
    · cases hok

lemma Refused.head {sig : Signal} (hr : Refused cfg sig (x :: h)) :
    x = ⟨.stop, ()⟩ ∨ ∃ e, x = ⟨.reraise sig, some e⟩ := by
  obtain ⟨att, completed, before, hatt, heq⟩ := hr
  cases hatt with
  | ignored => exact Or.inl (List.cons.inj heq).1
  | failed _ e => exact Or.inr ⟨e, (List.cons.inj heq).1⟩

/-- Which action can come next. -/
def Did.allows : Did → Act → Bool
  | ⟨.select, .signal _⟩, .wipe => true
  | ⟨.select, .done⟩, .stop => true
  | ⟨.wipe, _⟩, .await => true
  | ⟨.await, _⟩, .stop => true
  | ⟨.stop, _⟩, .reraise _ => true
  | ⟨.stop, _⟩, .exit _ => true
  | ⟨.stop, _⟩, .notify => true
  | ⟨.reraise _, some _⟩, .exit _ => true
  | ⟨.reraise _, some _⟩, .notify => true
  | ⟨.notify, _⟩, .rearmed => true
  | ⟨.notify, _⟩, .select => true
  | ⟨.rearmed, _⟩, .select => true
  | _, _ => false

lemma allows_notify :
    Did.allows ⟨.notify, ()⟩ i = true ↔ i = .select ∨ i = .rearmed := by
  cases i <;> simp [Did.allows]

lemma allows_rearmed : Did.allows ⟨.rearmed, ()⟩ i = true ↔ i = .select := by
  cases i <;> simp [Did.allows]

lemma allows_signal {sig : Signal} :
    Did.allows ⟨.select, .signal sig⟩ i = true ↔ i = .wipe := by
  cases i <;> simp [Did.allows]

lemma allows_of_duty (hd : duty cfg i (x :: h)) :
    x.allows i = true := by
  cases i with
  | select =>
    obtain ⟨-, -, hnil | ⟨h', hx | hx⟩⟩ := hd
    · cases hnil
    · cases hx
      rfl
    · cases hx
      rfl
  | wipe =>
    obtain ⟨-, sig, h', hx⟩ := hd
    cases hx
    rfl
  | await =>
    obtain ⟨h', hx⟩ := hd
    cases hx
    rfl
  | stop =>
    obtain ⟨h', ⟨completed, hx⟩ | hx⟩ := hd
    · cases hx
      rfl
    · cases hx
      rfl
  | reraise sig =>
    obtain ⟨-, completed, before, hx⟩ := hd
    cases hx
    rfl
  | rearmed =>
    obtain ⟨h', hx⟩ := hd
    cases hx
    rfl
  | exit _ =>
    obtain ⟨-, sig, hr⟩ := hd
    rcases hr.head with rfl | ⟨e, rfl⟩ <;> rfl
  | notify =>
    obtain ⟨-, sig, hr⟩ := hd
    rcases hr.head with rfl | ⟨e, rfl⟩ <;> rfl

/-- The handler goes on after any action but a parting one. -/
lemma goes_on (h : (loop cfg).Run ok .initial s) {l : List Did}
    (heq : own s.trace = x :: l) (hx : x.ends = false) (hstop : x ≠ ⟨.stop, ()⟩) :
    ∃ i k, s.rest = some (.act i k) ∧ x.allows i = true := by
  rcases standing h with ⟨i, k, hrest, hd⟩ | ⟨-, -, -, y, l', hy, hlast⟩
  · rw [heq] at hd
    exact ⟨i, k, hrest, allows_of_duty hd⟩
  · rw [heq] at hy
    obtain ⟨rfl, -⟩ := List.cons.inj hy
    rcases hlast with hends | hstop'
    · exact absurd (hx.symm.trans hends) Bool.false_ne_true
    · exact absurd hstop' hstop

/-- How far the handler is from its next wipe: it has registered again with something in the
channel, perhaps called the hook, or received a signal. -/
inductive Nearing (s : State) : ℕ → Prop
  | registered {h : List Did} (heq : own s.trace = ⟨.notify, ()⟩ :: h)
      (hch : s.shared.ch ≠ none) : Nearing s 3
  | hooked {h : List Did} (heq : own s.trace = ⟨.rearmed, ()⟩ :: h)
      (hch : s.shared.ch ≠ none) : Nearing s 2
  | received {sig : Signal} {h : List Did} (heq : own s.trace = ⟨.select, .signal sig⟩ :: h) :
      Nearing s 1

/-- With something in the channel and `done` open, a select receives. -/
lemma select_receives {w : World} (hch : w.ch ≠ none) (hclosed : w.closed = false) :
    ∃ sig, ∀ c, exec .select c w = .done (.signal sig) { w with ch := none } := by
  obtain ⟨sig, hsig⟩ := Option.ne_none_iff_exists'.mp hch
  refine ⟨sig, fun c => ?_⟩
  simp only [exec, hsig, hclosed]

lemma Nearing.ready {k : ℕ} (h : (loop cfg).Run stays .initial s) (hn : Nearing s k) :
    (loop cfg).Ready stays s := by
  cases hn with
  | registered heq hch =>
    obtain ⟨i, k, hrest, hi⟩ := goes_on h heq rfl nofun
    rcases allows_notify.mp hi with rfl | rfl
    · obtain ⟨sig, hsel⟩ := select_receives hch (not_closed h)
      exact ready_of_exec hrest (hsel ⟨true, none⟩)
    · exact ready_of_exec (c := ⟨true, none⟩) hrest rfl
  | hooked heq hch =>
    obtain ⟨i, k, hrest, hi⟩ := goes_on h heq rfl nofun
    obtain rfl := allows_rearmed.mp hi
    obtain ⟨sig, hsel⟩ := select_receives hch (not_closed h)
    exact ready_of_exec hrest (hsel ⟨true, none⟩)
  | received heq =>
    obtain ⟨i, k, hrest, hi⟩ := goes_on h heq rfl nofun
    obtain rfl := allows_signal.mp hi
    exact ready_of_exec (c := ⟨true, none⟩) hrest rfl

/-- The handler's next action brings the wipe nearer, or is the wipe. -/
lemma Nearing.act {k : ℕ} (h : (loop cfg).Run stays .initial s)
    (hn : Nearing s k) (hm : (loop cfg).move stays s (.own c) = some s') :
    s'.trace = .own .wipe () :: s.trace ∨ ∃ j < k, Nearing s' j := by
  rcases move_cases hm with ⟨i, k, c, r, v, -, hrest, hexec, rfl⟩ | ⟨e, v, he, -⟩
  · cases hn with
    | registered heq hch =>
      obtain ⟨i', k', hrest', hi⟩ := goes_on h heq rfl nofun
      cases hrest.symm.trans hrest'
      rcases allows_notify.mp hi with rfl | rfl
      · obtain ⟨sig, hsel⟩ := select_receives hch (not_closed h)
        cases (hsel c).symm.trans hexec
        exact Or.inr ⟨1, by decide, .received rfl⟩
      · cases hexec
        exact Or.inr ⟨2, by decide, .hooked rfl hch⟩
    | hooked heq hch =>
      obtain ⟨i', k', hrest', hi⟩ := goes_on h heq rfl nofun
      cases hrest.symm.trans hrest'
      obtain rfl := allows_rearmed.mp hi
      obtain ⟨sig, hsel⟩ := select_receives hch (not_closed h)
      cases (hsel c).symm.trans hexec
      exact Or.inr ⟨1, by decide, .received rfl⟩
    | received heq =>
      obtain ⟨i', k', hrest', hi⟩ := goes_on h heq rfl nofun
      cases hrest.symm.trans hrest'
      obtain rfl := allows_signal.mp hi
      cases hexec
      exact Or.inl rfl
  · cases he

/-- Events do not take the wipe further away. -/
lemma Nearing.event {k : ℕ} (hn : Nearing s k)
    (hm : (loop cfg).move stays s (.env e) = some s') : Nearing s' k := by
  rcases move_cases hm with ⟨i, k, c, r, v, he, -⟩ | ⟨e, v, -, -, henv, rfl⟩
  · cases he
  · cases hn with
    | registered heq hch => exact .registered heq (env_ch henv hch)
    | hooked heq hch => exact .hooked heq (env_ch henv hch)
    | received heq => exact .received heq

/-- Once the handler has registered again with something in the channel, it wipes. -/
lemma wipes_again (run : (loop cfg).FairRun stays .initial) {n k : ℕ}
    (hn : Nearing (run.state n) k) :
    ∃ m, n ≤ m ∧ ∃ later, (run.state m).trace = .own .wipe () :: later ++ (run.state n).trace := by
  refine run.eventually
    (P := fun k s => (loop cfg).Run stays .initial s ∧
      (∃ later, s.trace = later ++ (run.state n).trace) ∧ Nearing s k)
    (G := fun s => ∃ later, s.trace = .own .wipe () :: later ++ (run.state n).trace)
    ?_ ?_ ?_ ⟨run.run n, ⟨[], rfl⟩, hn⟩
  · rintro k s ⟨hrun, -, hn⟩
    exact Or.inr (hn.ready hrun)
  · rintro k s c s' ⟨hrun, ⟨later, hlater⟩, hn⟩ hm
    rcases hn.act hrun hm with hw | ⟨j, hj, hn'⟩
    · exact Or.inl ⟨later, by rw [hw, hlater, List.cons_append]⟩
    · refine Or.inr ⟨j, hj, hrun.tail ⟨_, hm⟩, ?_, hn'⟩
      rcases move_cases hm with ⟨i, k, c, r, v, -, -, -, rfl⟩ | ⟨e, v, he, -⟩
      · exact ⟨_ :: later, by rw [hlater, List.cons_append]⟩
      · cases he
  · rintro k s e s' ⟨hrun, ⟨later, hlater⟩, hn⟩ hm
    refine Or.inr ⟨k, Nat.le_refl k, hrun.tail ⟨_, hm⟩, ?_, hn.event hm⟩
    rcases move_cases hm with ⟨i, k, c, r, v, he, -⟩ | ⟨e, v, -, -, -, rfl⟩
    · cases he
    · exact ⟨_ :: later, by rw [hlater, List.cons_append]⟩

end Runs

/-- The handler keeps order in every state of every run, whatever arrives and whatever the
wipes and re-raises come to; and if a signal arrives while it wipes and it registers again after
that wipe, a further wipe starts later, unless it is uninstalled. -/
theorem handler_keeps_order (cfg : Config) :
    (∀ (ok : State → Event → Bool) (s : State), (loop cfg).Run ok .initial s →
      Orderly cfg s) ∧
    ∀ (run : (loop cfg).FairRun stays .initial) (n : ℕ) (sig : Signal) (mid earlier : Trace),
      (run.state n).trace = .own .notify () :: mid ++ .env (.arrive sig) :: earlier →
      sig ∈ cfg.signals → (own earlier).head? = some ⟨.wipe, ()⟩ →
      (∀ x : Did, x ∈ own mid → x.receives = false) →
      ∃ m, n ≤ m ∧
        ∃ later, (run.state m).trace = .own .wipe () :: later ++ (run.state n).trace := by
  refine ⟨fun ok s h => orderly h, fun run n sig mid earlier heq hsig hwipe hmid => ?_⟩
  have hrun := run.run n
  obtain ⟨h, hearlier⟩ : ∃ h, own earlier = ⟨.wipe, ()⟩ :: h := by
    cases hown : own earlier with
    | nil => rw [hown] at hwipe; cases hwipe
    | cons x h => rw [hown] at hwipe; exact ⟨h, by rw [Option.some.inj hwipe]⟩
  -- the wipe was started with the channel registered, and so it was when the signal arrived
  have hreg : registeredBy (own earlier) = true := by
    have hduty : duty cfg .wipe h :=
      hrun.reaches.duty_done (fun _ => conforms_handler) afterRound_nil
        (by rw [heq, Loop.own_append, Loop.own_cons_env, hearlier] :
          own (run.state n).trace = own (.own .notify () :: mid) ++ ⟨.wipe, ()⟩ :: h)
    rw [hearlier]
    exact hduty.1
  have hch : (run.state n).shared.ch ≠ none := by
    refine pending hrun (.own .notify () :: mid) earlier sig heq hsig hreg fun x hx => ?_
    rcases List.mem_cons.mp hx with rfl | hx
    · rfl
    · exact hmid x hx
  refine wipes_again run (.registered (h := own (mid ++ .env (.arrive sig) :: earlier)) ?_ hch)
  rw [heq]
  rfl

/-- Two interrupts on Windows, the second during the wipe for the first, with a handler that
does not exit. -/
def twoInterrupts : (loop (installTerminationWipeNoExit true (fun _ => false) [])).FairRun
    stays .initial :=
  Loop.FairRun.ofMoves
    (.env (.arrive .interrupt) :: .own ⟨true, none⟩ :: .own ⟨true, none⟩ ::
      .env (.arrive .interrupt) :: .own ⟨false, none⟩ :: .own ⟨true, none⟩ ::
      .own ⟨true, some (.new "not supported by windows")⟩ :: .own ⟨true, none⟩ ::
      .own ⟨true, none⟩ :: .own ⟨true, none⟩ :: .own ⟨false, none⟩ :: .own ⟨true, none⟩ ::
      .own ⟨true, some (.new "not supported by windows")⟩ :: [.own ⟨true, none⟩])
    ⟨_, rfl, Loop.not_ready_of_blocked rfl fun _ => rfl⟩

theorem handler_keeps_order_twoInterrupts :
    Orderly (installTerminationWipeNoExit true (fun _ => false) []) (twoInterrupts.state 8) ∧
    ∃ m, 8 ≤ m ∧ ∃ later,
      (twoInterrupts.state m).trace = .own .wipe () :: later ++ (twoInterrupts.state 8).trace := by
  have h := handler_keeps_order (installTerminationWipeNoExit true (fun _ => false) [])
  refine ⟨h.1 stays _ (twoInterrupts.run 8), ?_⟩
  refine h.2 twoInterrupts 8 .interrupt
    [.own (.reraise .interrupt) (some (.new "not supported by windows")), .own .stop (),
      .own .await false]
    [.own .wipe (), .own .select (.signal .interrupt), .env (.arrive .interrupt)]
    rfl (by decide) rfl ?_
  simp [Did.receives]

end Secmem.Termination
