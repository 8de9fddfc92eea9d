import Secmem.Termination.Rounds

/-!
# Uninstalling the handler

The function that the installers return closes `done` and returns.  The handler's goroutine
notices in its own time: it may be in the middle of a round, and when it comes to its `select`
it may find a signal beside the closed `done` and take the signal.  Until it has deregistered
its channel, a signal that arrives goes into the channel.  There it is either received, with the
wipe and the re-raise or the exit that follow, or it is never received and so is lost, when the
goroutine takes the other case.

If signals arrive only once the goroutine has ended, they pass the handler by; and it does end.
-/

namespace Secmem.Termination

open Loop (own)

/-- After `uninstall`, a signal arrives only when the goroutine has ended. -/
def quiet (s : State) (e : Event) : Bool :=
  match e with
  | .arrive _ => !s.shared.closed || s.rest.isNone
  | _ => true

variable {cfg : Config} {ok : State → Event → Bool} {s s' : State}

/-! ## After the end -/

/-- A handler that has ended has deregistered its channel. -/
lemma registered_of_ended (h : (loop cfg).Run ok .initial s) (hrest : s.rest = none) :
    s.shared.registered = false := by
  rcases standing h with ⟨i, k, hi, -⟩ | ⟨-, -, hreg, -⟩
  · rw [hrest] at hi
    cases hi
  · rw [registered_eq h, hreg]

/-- Nothing more is done by a handler that has ended, and its channel stays as it is. -/
lemma later_of_ended (hrest : s.rest = none) (hreg : s.shared.registered = false)
    (h : (loop cfg).Later ok s s') :
    own s'.trace = own s.trace ∧ s'.shared.ch = s.shared.ch := by
  have hall : own s'.trace = own s.trace ∧ s'.shared.ch = s.shared.ch ∧
      s'.rest = none ∧ s'.shared.registered = false := by
    induction h with
    | refl => exact ⟨rfl, rfl, hrest, hreg⟩
    | tail _ hm ih =>
      obtain ⟨m, hm⟩ := hm
      obtain ⟨hown, hch, hrest', hreg'⟩ := ih
      rcases Loop.move_cases hm with ⟨i, k, c, r, v, -, hi, -⟩ | ⟨e, v, -, -, henv, rfl⟩
      · rw [hrest'] at hi
        cases hi
      · refine ⟨hown, ?_, hrest', (env_registered henv).trans hreg'⟩
        rcases env_cases henv with ⟨sig, -, ⟨hr, -⟩ | ⟨-, rfl⟩⟩ | ⟨-, rfl⟩ | ⟨-, rfl⟩
        · exact absurd (hreg'.symm.trans hr) Bool.false_ne_true
        · exact hch
        · exact hch
        · exact hch
  exact ⟨hall.1, hall.2.1⟩

/-! ## The way to the end -/

/-- A bound on what is left of a round before the action, and of the round after it when `done`
is closed and the channel empty. -/
def distance (h : List Did) (i : Act) : ℕ :=
  match i, h with
  | .stop, ⟨.select, .done⟩ :: _ => 1
  | .exit _, _ => 1
  | .select, _ => 3
  | .rearmed, _ => 4
  | .notify, _ => 5
  | .reraise _, _ => 6
  | .stop, _ => 7
  | .await, _ => 8
  | .wipe, _ => 9

/-- The whole way: a signal in the channel may take another round. -/
def wayLeft (s : State) (i : Act) : ℕ :=
  distance (own s.trace) i + if s.shared.ch = none then 0 else 12

/-- Every action but a select brings the end of the round nearer. -/
lemma distance_lt {i j : Act} {r : Res i} {h : List Did} (hi : i ≠ .select)
    (hd : duty cfg j (⟨i, r⟩ :: h)) : distance (⟨i, r⟩ :: h) j < distance h i := by
  have hrefused : ∀ sig, Refused cfg sig (⟨i, r⟩ :: h) → 5 < distance h i := by
    rintro sig ⟨att, completed, before, hatt, heq⟩
    cases hatt with
    | ignored =>
      cases heq
      exact (by decide : 5 < 7)
    | failed _ e =>
      cases heq
      exact (by decide : 5 < 6)
  cases j with
  | select =>
    rcases hd.2.2 with hx | ⟨h', hx | hx⟩ <;> cases hx
    · exact (by decide : 3 < 5)
    · exact (by decide : 3 < 4)
  | wipe =>
    obtain ⟨-, sig, h', hx⟩ := hd
    cases hx
    exact absurd rfl hi
  | await =>
    obtain ⟨h', hx⟩ := hd
    cases hx
    exact (by decide : 8 < 9)
  | stop =>
    rcases hd with ⟨h', ⟨completed, hx⟩ | hx⟩ <;> cases hx
    · exact (by decide : 7 < 8)
    · exact absurd rfl hi
  | reraise sig =>
    obtain ⟨-, completed, before, hx⟩ := hd
    cases hx
    exact (by decide : 6 < 7)
  | exit status =>
    obtain ⟨-, sig, hr⟩ := hd
    exact Nat.lt_trans (by decide : 1 < 5) (hrefused sig hr)
  | notify =>
    obtain ⟨-, sig, hr⟩ := hd
    exact hrefused sig hr
  | rearmed =>
    obtain ⟨h', hx⟩ := hd
    cases hx
    exact (by decide : 4 < 5)

lemma distance_le (h : List Did) (i : Act) : distance h i ≤ 9 := by
  unfold distance
  split <;> decide

/-- After the case `done` the goroutine deregisters and ends. -/
lemma distance_of_done {j : Act} {h : List Did} (hd : duty cfg j (⟨.select, .done⟩ :: h)) :
    distance (⟨.select, .done⟩ :: h) j = 1 := by
  have hj := allows_of_duty hd
  cases j with
  | stop => rfl
  | _ => cases hj

/-- An action of the handler brings its end nearer. -/
lemma wayLeft_lt {i j : Act} {c : Choice} {r : Res i} {v : World} {rest : Option (Code Bool)}
    (hexec : exec i c s.shared = .done r v) (hd : duty cfg j (⟨i, r⟩ :: own s.trace)) :
    wayLeft ⟨v, rest, .own i r :: s.trace⟩ j < wayLeft s i := by
  by_cases hi : i = .select
  · subst hi
    rcases exec_select hexec with ⟨sig, hch, rfl, rfl⟩ | ⟨-, rfl, rfl⟩
    · have hle := distance_le (⟨.select, .signal sig⟩ :: own s.trace) j
      simp only [wayLeft, Loop.own_cons_own, if_true, hch, reduceCtorEq, if_false]
      omega
    · have hone := distance_of_done hd
      have hsel : distance (own s.trace) .select = 3 := rfl
      simp only [wayLeft, Loop.own_cons_own, hone, hsel]
      omega
  · have hlt := distance_lt hi hd
    simp only [wayLeft, Loop.own_cons_own, (exec_ch hi hexec).1]
    omega

/-- With `done` closed the handler is never blocked. -/
lemma ready_of_closed {i : Act} {k : Res i → Code Bool} (hrest : s.rest = some (.act i k))
    (hclosed : s.shared.closed = true) : (loop cfg).Ready ok s := by
  cases i with
  | select =>
    cases hch : s.shared.ch with
    | none =>
      refine Loop.ready_of_exec (c := ⟨true, none⟩) (r := Selected.done) (v := s.shared)
        hrest ?_
      simp only [loop, exec, hch, hclosed]
    | some sig =>
      refine Loop.ready_of_exec (c := ⟨false, none⟩) (r := Selected.done) (v := s.shared)
        hrest ?_
      simp [loop, exec, hch, hclosed]
  | await => exact Loop.ready_of_exec (c := ⟨false, none⟩) hrest rfl
  | _ => exact Loop.ready_of_exec (c := ⟨true, none⟩) hrest rfl

/-- While the goroutine is on its way to its end, events change nothing that matters to it. -/
lemma event_of_closed {e : Event} (hclosed : s.shared.closed = true) (hrest : s.rest ≠ none)
    (hm : (loop cfg).move quiet s (.env e) = some s') :
    s'.shared.closed = true ∧ s'.rest = s.rest ∧ ∀ i, wayLeft s' i = wayLeft s i := by
  rcases Loop.move_cases hm with ⟨i, k, c, r, v, he, -⟩ | ⟨e', v, he, hok, henv, rfl⟩
  · cases he
  · cases he
    rcases env_cases henv with ⟨sig, rfl, -⟩ | ⟨-, rfl⟩ | ⟨-, rfl⟩
    · have hnone : s.rest.isNone = true := by simpa [quiet, hclosed] using hok
      exact absurd (Option.isNone_iff_eq_none.mp hnone) hrest
    · exact ⟨hclosed, rfl, fun _ => rfl⟩
    · exact ⟨rfl, rfl, fun _ => rfl⟩

/-- After `uninstall` the handler ends, if it is left in quiet. -/
lemma ends_after_uninstall (run : (loop cfg).FairRun quiet .initial) {n : ℕ}
    (hclosed : (run.state n).shared.closed = true) :
    ∃ m, n ≤ m ∧ (run.state m).rest = none := by
  rcases standing (run.run n) with ⟨i, k, hrest, -⟩ | ⟨hend, -⟩
  · refine run.eventually
      (P := fun j s => (loop cfg).Run quiet .initial s ∧ s.shared.closed = true ∧
        ∃ i k, s.rest = some (.act i k) ∧ j = wayLeft s i)
      (G := fun s => s.rest = none) ?_ ?_ ?_ ⟨run.run n, hclosed, i, k, hrest, rfl⟩
    · rintro j s ⟨-, hclosed, i, k, hrest, -⟩
      exact Or.inr (ready_of_closed hrest hclosed)
    · rintro j s c s' ⟨hrun, hclosed, i, k, hrest, rfl⟩ hm
      have hrun' := hrun.tail ⟨_, hm⟩
      rcases standing hrun' with ⟨i', k', hrest', hd⟩ | ⟨hend, -⟩
      · rcases Loop.move_cases hm with ⟨i₁, k₁, c, r, v, -, hi, hexec, rfl⟩ | ⟨e, v, he, -⟩
        · cases hrest.symm.trans hi
          exact Or.inr ⟨_, wayLeft_lt hexec hd, hrun', (exec_closed hexec).trans hclosed, i', k',
            hrest', rfl⟩
        · cases he
      · exact Or.inl hend
    · rintro j s e s' ⟨hrun, hclosed, i, k, hrest, rfl⟩ hm
      obtain ⟨hclosed', hrest', hway⟩ :=
        event_of_closed hclosed (by rw [hrest]; exact Option.some_ne_none _) hm
      exact Or.inr ⟨_, Nat.le_refl _, hrun.tail ⟨_, hm⟩, hclosed', i, k, hrest'.trans hrest,
        (hway i).symm⟩
  · exact ⟨n, Nat.le_refl n, hend⟩

/-! ## Signals after `uninstall` -/

/-- If signals arrive after `uninstall` only once the goroutine has ended, they have no effect
through the handler: its state is the same after such an arrival, and it does nothing from then
on.  And in a fair run the goroutine does end after `uninstall`, with its channel
deregistered. -/
theorem uninstalled_passes (cfg : Config) :
    (∀ (s s' : State) (sig : Signal), (loop cfg).Run quiet .initial s →
      s.shared.closed = true → (loop cfg).move quiet s (.env (.arrive sig)) = some s' →
      s'.shared = s.shared ∧ ∀ s'', (loop cfg).Later quiet s' s'' →
        own s''.trace = own s.trace ∧ s''.shared.ch = s.shared.ch) ∧
    ∀ (run : (loop cfg).FairRun quiet .initial) (n : ℕ), (run.state n).shared.closed = true →
      ∃ m, n ≤ m ∧ (run.state m).rest = none ∧ (run.state m).shared.registered = false := by
  refine ⟨fun s s' sig h hclosed hm => ?_, fun run n hclosed => ?_⟩
  · rcases Loop.move_cases hm with ⟨i, k, c, r, v, he, -⟩ | ⟨e, v, he, hok, henv, rfl⟩
    · cases he
    · cases he
      have hrest : s.rest = none := by simpa [quiet, hclosed] using hok
      have hreg := registered_of_ended h hrest
      have hsame : v = s.shared := by
        have henv' : env cfg (.arrive sig) s.shared = some v := henv
        rcases env_cases henv' with ⟨sig', -, ⟨hr, -⟩ | ⟨-, hv⟩⟩ | ⟨he, -⟩ | ⟨he, -⟩
        · exact absurd (hreg.symm.trans hr) Bool.false_ne_true
        · exact hv
        · cases he
        · cases he
      subst hsame
      exact ⟨rfl, fun s'' hlater =>
        later_of_ended (s := ⟨s.shared, s.rest, .env (.arrive sig) :: s.trace⟩) hrest hreg hlater⟩
  · obtain ⟨m, hm, hend⟩ := ends_after_uninstall run hclosed
    exact ⟨m, hm, hend, registered_of_ended (run.run m) hend⟩

/-- `uninstall`, then an interrupt. -/
theorem uninstalled_passes_interrupt :
    ∃ s s' : State,
      (loop (installTerminationWipe false (fun _ => false) [])).moves quiet
        ((loop (installTerminationWipe false (fun _ => false) [])).start .initial)
        [.env .uninstall, .own ⟨true, none⟩, .own ⟨true, none⟩] = some s ∧
      (loop (installTerminationWipe false (fun _ => false) [])).move quiet s
        (.env (.arrive .interrupt)) = some s' ∧
      s'.shared = s.shared := by
  refine ⟨_, _, rfl, rfl, ?_⟩
  have hmoves : (loop (installTerminationWipe false (fun _ => false) [])).moves quiet
      ((loop (installTerminationWipe false (fun _ => false) [])).start .initial)
      [.env .uninstall, .own ⟨true, none⟩, .own ⟨true, none⟩] = some _ := rfl
  exact ((uninstalled_passes (installTerminationWipe false (fun _ => false) [])).1 _ _ .interrupt
    (Loop.Later.moves .refl hmoves) rfl rfl).1

/-- An interrupt that arrives when `uninstall` has returned is followed by a wipe and a re-raise;
or it goes into the channel and is never received. -/
theorem uninstalled_interrupt_handled :
    (∃ s : State, (loop (installTerminationWipe false (fun _ => false) [])).moves
        (fun _ _ => true)
        ((loop (installTerminationWipe false (fun _ => false) [])).start .initial)
        (.env .uninstall :: .env (.arrive .interrupt) :: .own ⟨true, none⟩ ::
          .own ⟨true, none⟩ :: .own ⟨false, none⟩ :: .own ⟨true, none⟩ ::
          [.own ⟨true, none⟩]) = some s ∧
      s.trace = [.own (.reraise .interrupt) none, .own .stop (), .own .await false, .own .wipe (),
        .own .select (.signal .interrupt), .env (.arrive .interrupt), .env .uninstall]) ∧
    ∃ s : State, (loop (installTerminationWipe false (fun _ => false) [])).moves
        (fun _ _ => true)
        ((loop (installTerminationWipe false (fun _ => false) [])).start .initial)
        [.env .uninstall, .env (.arrive .interrupt), .own ⟨false, none⟩, .own ⟨true, none⟩] =
          some s ∧
      s.shared.ch = some .interrupt ∧ s.rest = none ∧
      s.trace = [.own .stop (), .own .select .done, .env (.arrive .interrupt),
        .env .uninstall] := by
  exact ⟨⟨_, rfl, rfl⟩, _, rfl, rfl, rfl, rfl⟩

end Secmem.Termination
