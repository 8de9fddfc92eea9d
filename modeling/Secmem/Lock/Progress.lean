import Secmem.Lock.Exclusion
import Mathlib.Data.Prod.Lex

/-!
# Every call on `bufferRWLock` returns, and readers do not overtake a waiting writer

A goroutine inside the lock goes down the code of its call; only `cond.Wait` sends it back, and
only a broadcast ends the wait.  A call broadcasts at most twice, so when no further call begins
there are finitely many broadcasts and finitely many steps between them: `left_next`.  That the
steps do not run out while somebody waits is `LockInv.can_move`.
-/

namespace Secmem
namespace BufferRWLock

/-- How often a goroutine may still broadcast before its call and the release after it are over. -/
def PC.broadcastsLeft : PC → ℕ
  | .rSlow | .rUndo | .rUndoWake => 2
  | .idle | .ruLeave | .tRefuse | .uLeave => 0
  | _ => 1

/-- How far a goroutine is from the end of its call, or from parking. -/
def PC.stepsLeft : PC → ℕ
  | .idle | .rParked | .wParked => 0
  | .rPark | .wPark | .ruLeave | .tRefuse | .uLeave => 1
  | .ruWake | .uWake => 2
  | .ruSlow | .uLift => 3
  | .reading | .uClear => 4
  | .rLeave | .uEnter => 5
  | .rEnroll | .writing => 6
  | .rTest | .wLeave => 7
  | .rCount | .rWoken | .wTake | .tTake => 8
  | .rUndoWake | .wTest | .tSwap => 9
  | .rUndo | .wBias | .wWoken | .tTest => 10
  | .rSlow | .wCount | .tEnter => 11
  | .wEnter => 12

section Progress

variable {T : Type} [Fintype T]

def State.broadcastsLeft (s : State T) : ℕ := ∑ t, (s.pc t).broadcastsLeft

def State.stepsLeft (s : State T) : ℕ := ∑ t, (s.pc t).stepsLeft

variable [DecidableEq T] {s s' : State T} {t : T} {c : Call}

/-- A step that begins no call uses up a broadcast or, between broadcasts, a step. -/
lemma left_next (ht : s.pc t ≠ .idle) (h : next s t c = some s') :
    toLex (s'.broadcastsLeft, s'.stepsLeft) < toLex (s.broadcastsLeft, s.stepsLeft) := by
  have hmove {x : PC} (hs : s'.pc = Function.update s.pc t x)
      (hb : x.broadcastsLeft ≤ (s.pc t).broadcastsLeft) (hx : x.stepsLeft < (s.pc t).stepsLeft) :
      toLex (s'.broadcastsLeft, s'.stepsLeft) < toLex (s.broadcastsLeft, s.stepsLeft) := by
    refine Prod.Lex.toLex_lt_toLex.mpr ((lt_or_eq_of_le ?_).imp_right fun heq => ⟨heq, ?_⟩)
    · refine Finset.sum_le_sum fun u _ => ?_
      by_cases hu : u = t <;> simp [hs, hu, hb]
    · refine Finset.sum_lt_sum (fun u _ => ?_) ⟨t, Finset.mem_univ t, by simpa [hs] using hx⟩
      by_cases hu : u = t <;> simp [hs, hu, hx.le]
  have hwake {x : PC} (hs : s'.pc = Function.update (fun u => (s.pc u).wake) t x)
      (hx : x.broadcastsLeft < (s.pc t).broadcastsLeft) :
      toLex (s'.broadcastsLeft, s'.stepsLeft) < toLex (s.broadcastsLeft, s.stepsLeft) := by
    refine Prod.Lex.toLex_lt_toLex.mpr (.inl (Finset.sum_lt_sum (fun u _ => ?_)
      ⟨t, Finset.mem_univ t, by simpa [hs] using hx⟩))
    by_cases hu : u = t
    · simp [hs, hu, hx.le]
    · simp only [hs, Function.update_of_ne hu]
      cases s.pc u <;> decide
  cases hpc : s.pc t <;> simp only [next, hpc] at h <;> rw [hpc] at hmove hwake
  case idle => exact absurd hpc ht
  case rParked | wParked => cases h
  case rSlow | rWoken | ruSlow | wEnter | wWoken | tEnter | uEnter =>
    simp only [State.lockMu] at h
    split at h <;> cases h
    exact hmove rfl (by decide) (by decide)
  case rUndoWake | ruWake | uWake =>
    cases h
    exact hwake rfl (by decide)
  case tSwap | uLift => split at h <;> cases h <;> exact hmove rfl (by decide) (by decide)
  case rUndo | rTest | reading | wCount | wTest | tTest =>
    cases h
    refine hmove rfl ?_ ?_ <;> split <;> decide
  all_goals
    cases h
    exact hmove rfl (by decide) (by decide)

omit [Fintype T] in
/-- Only the mutex and `cond.Wait` block. -/
lemma next_ne_none (hmu : s.mu = none ∨ (s.pc t).inMu = true) (hr : s.pc t ≠ .rParked)
    (hw : s.pc t ≠ .wParked) : next s t c ≠ none := by
  cases hpc : s.pc t <;> simp_all [next, State.lockMu, PC.inMu]
  case idle => cases c <;> simp
  all_goals split <;> simp

/-- While a goroutine is inside the lock, one that is can move. -/
lemma LockInv.can_move (hi : LockInv s) (ht : s.pc t ≠ .idle) :
    ∃ u, s.pc u ≠ .idle ∧ ∀ c, next s u c ≠ none := by
  cases hmu : s.mu with
  | some u =>
    have hin := (hi.mutex u).mp hmu
    refine ⟨u, ?_, fun c => next_ne_none (.inr hin) ?_ ?_⟩ <;> rintro h <;> simp [h, PC.inMu] at hin
  | none =>
    by_contra hno
    -- then all that are inside are parked, and nobody is on the way to wake them
    have hparked (u : T) : s.pc u = .idle ∨ s.pc u = .rParked ∨ s.pc u = .wParked := by
      by_contra hu
      push Not at hu
      exact hno ⟨u, hu.1, fun c => next_ne_none (.inl hmu) hu.2.1 hu.2.2⟩
    have hclass (p : PC → Bool) (h₁ : p .idle = false) (h₂ : p .rParked = false) {u : T}
        (hu : p (s.pc u) = true) : s.pc u = .wParked := by
      rcases hparked u with h | h | h
      · simp [h, h₁] at hu
      · simp [h, h₂] at hu
      · exact h
    have hnone (p : PC → Bool) (h₁ : p .idle = false) (h₂ : p .rParked = false)
        (h₃ : p .wParked = false) : census p s.pc = 0 := by
      refine Finset.sum_eq_zero fun u _ => ?_
      rcases hparked u with h | h | h <;> simp [h, h₁, h₂, h₃]
    have hquiet : ¬ ∃ u, (s.pc u).willBroadcast = true := by
      rintro ⟨u, hu⟩
      rw [hclass PC.willBroadcast rfl rfl hu] at hu
      cases hu
    have hact : s.writerActive = false := by
      have h := hi.active
      rw [hnone PC.inWrite rfl rfl rfl] at h
      simpa using h
    have hwriter (u : T) : s.pc u ≠ .wParked := by
      intro hu
      have hpos : 0 < s.writersWaiting := by
        rw [hi.waiting]
        exact census_pos (t := u) (by rw [hu]; rfl)
      have hbias := (hi.bias_iff_of_mu_free hmu).mpr (.inr hpos)
      refine hquiet (hi.wakeWriter u (.inr hu) hact ?_)
      rw [hi.word, hbias, State.enrolled, State.pending, hnone _ rfl rfl rfl, hnone _ rfl rfl rfl]
      simp [biasOf]
    have hwait : s.writersWaiting = 0 := by
      rw [hi.waiting]
      refine Finset.sum_eq_zero fun u _ => ?_
      cases hu : (s.pc u).waitingWriter
      · rfl
      · exact absurd (hclass _ rfl rfl hu) (hwriter u)
    rcases hparked t with h | h | h
    · exact ht h
    · exact hquiet (hi.wakeReader t h hact hwait)
    · exact hwriter t h

/-- Every call returns once no further call begins and the lock's holders release it, whatever
the order of the steps: they cannot go on for ever, and they end only with every goroutine
outside the lock. -/
theorem rwLock_drains (h : Run s) :
    Acc (fun b a : State T => ∃ t c, a.pc t ≠ .idle ∧ next a t c = some b) s ∧
      ((∀ t c, s.pc t ≠ .idle → next s t c = none) → ∀ t, s.pc t = .idle) := by
  constructor
  · have hwf : WellFounded fun b a : State T => toLex (b.broadcastsLeft, b.stepsLeft) <
        toLex (a.broadcastsLeft, a.stepsLeft) := InvImage.wf _ wellFounded_lt
    refine Subrelation.accessible ?_ (hwf.apply s)
    rintro b a ⟨t, c, ht, hnext⟩
    exact left_next ht hnext
  · intro hstuck t
    by_contra ht
    obtain ⟨u, hu, hmove⟩ := h.inv.can_move ht
    exact hmove .rLock (hstuck u .rLock hu)

/-- A writer parks behind a reader that is still inside. -/
theorem rwLock_drains_parked : ∃ s : State (Fin 2), Run s ∧ s.pc 1 = .wParked ∧
    ¬ ∀ t c, s.pc t ≠ .idle → next s t c = none := by
  obtain ⟨s, hs, ht⟩ : ∃ s, schedule (State.new (Fin 2)) [(0, .rLock), (1, .lock), (1, .lock),
      (1, .lock), (1, .lock), (1, .lock), (1, .lock)] = some s ∧ s.pc 1 = .wParked :=
    ⟨_, rfl, rfl⟩
  have hrun : Run s := Run.schedule (by decide) (Reachable.start rfl) hs
  refine ⟨s, hrun, ht, fun hstuck => ?_⟩
  cases ht.symm.trans ((rwLock_drains hrun).2 hstuck 1)

/-- A counted writer has the bias installed, unless it is the one about to do so. -/
lemma LockInv.bias_of_waiting (hi : LockInv s) (ht : (s.pc t).waitingWriter = true)
    (hb : s.pc t ≠ .wBias) : s.bias = true := by
  have hpos : 0 < s.writersWaiting := hi.waiting ▸ census_pos ht
  by_cases hset : ∀ u, (s.pc u).unsettled = false
  · exact (hi.settled hset).mpr (.inr hpos)
  push Not at hset
  obtain ⟨u, hu⟩ := hset
  have hk := hi.known u
  cases hpc : s.pc u <;> simp only [hpc, PC.unsettled, ne_eq, not_true_eq_false] at hu <;>
    rw [hpc] at hk
  case wBias =>
    have hone : census PC.waitingWriter s.pc ≤ 1 := by rw [← hi.waiting, hk.2.1]
    have htu : t = u := census_unique hone ht (by rw [hpc]; rfl)
    exact absurd (htu ▸ hpc) hb
  case tTake => exact absurd hpos (by rw [hk.2.2.1]; exact lt_irrefl 0)
  case uLift => exact hk.1

/-- No step enrolls a reader past a waiting writer. -/
lemma LockInv.enrolled_of_next (hi : LockInv s) (ht : (s.pc t).waitingWriter = true)
    (hb : s.pc t ≠ .wBias) {v : T} (h : next s v c = some s') {u : T}
    (hu : (s'.pc u).enrolled = true) : (s.pc u).enrolled = true := by
  have hneg : ¬ 0 < s.readers + 1 := by
    have := hi.bias_iff_neg.mp (hi.bias_of_waiting ht hb)
    omega
  have hk := hi.known v
  have hmove {f : T → PC} {x : PC} (hs : s'.pc = Function.update f v x)
      (hf : (f u).enrolled = (s.pc u).enrolled)
      (hx : x.enrolled = true → (s.pc v).enrolled = true) : (s.pc u).enrolled = true := by
    rw [hs] at hu
    by_cases huv : u = v
    · subst huv
      exact hx (by simpa using hu)
    · rwa [Function.update_of_ne huv, hf] at hu
  cases hpc : s.pc v <;> simp only [next, hpc] at h <;> rw [hpc] at hmove hk
  case idle => cases c <;> cases h <;> exact hmove rfl rfl (by simp [hneg, PC.enrolled])
  case rParked | wParked => cases h
  case rSlow | rWoken | ruSlow | wEnter | wWoken | tEnter | uEnter =>
    simp only [State.lockMu] at h
    split at h <;> cases h
    exact hmove rfl rfl (by decide)
  case rUndoWake | ruWake | uWake =>
    cases h
    exact hmove rfl (by simp only [State.broadcast]; cases s.pc u <;> rfl) (by decide)
  case tSwap | uLift => split at h <;> cases h <;> exact hmove rfl rfl (by decide)
  case rEnroll =>
    have hpos : 0 < s.writersWaiting := hi.waiting ▸ census_pos ht
    exact absurd hk.2 hpos.ne'
  all_goals
    cases h
    refine hmove rfl rfl ?_
    try split
    all_goals decide

/-- Readers do not overtake: while a writer waits with its bias installed, no goroutine gets in
as a reader that was not in already. -/
theorem rwLock_prefers_writers (h : Run s)
    (hrun : Relation.ReflTransGen (fun a b => Step a b ∧ (a.pc t).waitingWriter = true ∧
      a.pc t ≠ .wBias) s s') {u : T} (hu : (s'.pc u).enrolled = true) :
    (s.pc u).enrolled = true := by
  induction hrun using Relation.ReflTransGen.head_induction_on with
  | refl => exact hu
  | head hstep _ ih =>
    obtain ⟨hab, ht, hb⟩ := hstep
    obtain ⟨⟨v, c, hnext⟩, -⟩ := id hab
    exact h.inv.enrolled_of_next ht hb hnext (ih (h.tail hab))

/-- A writer finds a reader inside and goes to wait. -/
theorem rwLock_prefers_writers_test : ∃ s s' : State (Fin 2),
    Run s ∧ Step s s' ∧ s.pc 1 = .wTest ∧ s'.pc 1 = .wPark ∧ (s.pc 0).enrolled = true := by
  obtain ⟨s, s', hs, hnext, ht, ht', hu⟩ : ∃ s s' : State (Fin 2),
      schedule (State.new (Fin 2)) [(0, .rLock), (1, .lock), (1, .lock), (1, .lock), (1, .lock)] =
        some s ∧ next s 1 .lock = some s' ∧ s.pc 1 = .wTest ∧ s'.pc 1 = .wPark ∧
        (s'.pc 0).enrolled = true := ⟨_, _, rfl, rfl, rfl, rfl, rfl⟩
  have hrun : Run s := Run.schedule (by decide) (Reachable.start rfl) hs
  have hstep : Step s s' := ⟨⟨1, .lock, hnext⟩, bounded_of_card (by decide) s'⟩
  exact ⟨s, s', hrun, hstep, ht, ht', rwLock_prefers_writers hrun
    (.single ⟨hstep, by rw [ht]; rfl, by rw [ht]; decide⟩) hu⟩

end Progress

end BufferRWLock

end Secmem
