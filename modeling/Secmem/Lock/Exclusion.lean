import Secmem.Lock.Invariant

/-!
# `bufferRWLock` excludes, keeps its bias, and loses no wakeup

`next_inv` walks through `buflock.go` control point by control point and shows that every step
keeps `LockInv`; `Run.inv` is the induction over interleavings.  The results about the lock are
read off the invariant in `rwLock_safe`: mutual exclusion, the meaning of the word and of the
bias, `tryLock`'s refusal to barge, and the absence of lost wakeups.
-/

namespace Secmem
namespace BufferRWLock

open Function

section Steps

variable {T : Type} [Fintype T] [DecidableEq T] {s s' : State T} {t : T}

lemma enrolled_goto {x : PC} (h : (s.pc t).enrolled = x.enrolled) :
    census PC.enrolled (update s.pc t x) = s.enrolled := by
  have := census_update PC.enrolled s.pc t x
  rw [h] at this
  exact Nat.add_right_cancel this

omit [Fintype T] in
lemma broadcasts_self {x : PC} (hx : x.willBroadcast = true) :
    ∃ u, (update s.pc t x u).willBroadcast = true :=
  ⟨t, by rwa [update_self]⟩

/-- A reader that was parked before the step still has its broadcast coming. -/
lemma LockInv.wakeReader_update (hi : LockInv s) {x : PC} (hx : x ≠ .rParked)
    (ht : (s.pc t).willBroadcast = false) (hact : s.writerActive = false)
    (hwait : s.writersWaiting = 0) (u : T) (hu : update s.pc t x u = .rParked) :
    ∃ u, (update s.pc t x u).willBroadcast = true := by
  refine willBroadcast_update (hi.wakeReader u ?_ hact hwait) (by simp [ht])
  have hut : u ≠ t := by
    rintro rfl
    exact hx (by simpa using hu)
  rwa [update_of_ne hut] at hu

/-! ## Steps outside the mutex -/

/-- `rLock`'s optimistic increment. -/
lemma rLock_inv (hi : LockInv s) (hpc : s.pc t = .idle)
    (h : s' = { s with readers := s.readers + 1 }.goto t
      (if 0 < s.readers + 1 then .reading else .rSlow)) (hb : s'.Bounded) : LockInv s' := by
  subst h
  have hword := hi.word
  have hbd := hi.bounded
  have hdrain : s.readers + 1 ≠ -bufMaxReaders := by
    cases hbias : s.bias <;> simp [hbias, biasOf, bufMaxReaders] at hword ⊢ <;> omega
  by_cases hpos : 0 < s.readers + 1
  · rw [if_pos hpos] at hb ⊢
    refine hi.outside_move hpc rfl rfl hb ?_ ⟨rfl, rfl⟩ ?_ ?_ ?_ (by decide)
    · simp [PC.enrolled, PC.pending]
    · intro hon
      simp only [hon, biasOf, bufMaxReaders, if_true] at hword
      omega
    · simp [PC.willBroadcast]
    · exact fun h => (hdrain h).elim
  · rw [if_neg hpos] at hb ⊢
    refine hi.outside_move hpc rfl rfl hb ?_ ⟨rfl, rfl⟩ ?_ ?_ ?_ (by decide)
    · simp [PC.enrolled, PC.pending]
    · simp [PC.enrolled]
    · simp [PC.willBroadcast]
    · exact fun h => (hdrain h).elim

/-- `rUnlock`'s decrement: the drain of a biased word commits to a broadcast. -/
lemma rUnlock_inv (hi : LockInv s) (hpc : s.pc t = .reading)
    (h : s' = { s with readers := s.readers - 1 }.goto t
      (if s.readers - 1 < 0 ∧ s.readers - 1 = -bufMaxReaders then .ruSlow else .idle))
    (hb : s'.Bounded) : LockInv s' := by
  subst h
  by_cases hd : s.readers - 1 < 0 ∧ s.readers - 1 = -bufMaxReaders
  · rw [if_pos hd] at hb ⊢
    refine hi.outside_move hpc rfl rfl hb ?_ ⟨rfl, rfl⟩ ?_ ?_ ?_ (by decide)
    · simp [PC.enrolled, PC.pending]
    · simp [PC.enrolled]
    · simp [PC.willBroadcast]
    · exact fun _ => Or.inr rfl
  · rw [if_neg hd] at hb ⊢
    refine hi.outside_move hpc rfl rfl hb ?_ ⟨rfl, rfl⟩ ?_ ?_ ?_ (by decide)
    · simp [PC.enrolled, PC.pending]
    · simp [PC.enrolled]
    · simp [PC.willBroadcast]
    · intro hr
      refine (hd ⟨?_, hr⟩).elim
      simp [hr, bufMaxReaders]

/-- Beginning `lock`, `tryLock` or `unlock` moves the control point and nothing else. -/
lemma begin_inv (hi : LockInv s) {y x : PC} (hpc : s.pc t = y)
    (hyx : (y, x) ∈ [(PC.idle, PC.wEnter), (.idle, .tEnter), (.writing, .uEnter)])
    (h : s' = s.goto t x) (hb : s'.Bounded) : LockInv s' := by
  subst h
  simp only [List.mem_cons, Prod.mk.injEq, List.not_mem_nil, or_false] at hyx
  rcases hyx with ⟨rfl, rfl⟩ | ⟨rfl, rfl⟩ | ⟨rfl, rfl⟩ <;>
    exact hi.outside_move hpc rfl rfl hb rfl ⟨rfl, rfl⟩
      (by simp [PC.enrolled]) (by simp [PC.willBroadcast]) Or.inl (by decide)

/-! ## The reader's slow path -/

/-- `rLockSlow`'s undo: the phantom leaves the word, and if that drained it the goroutine is
committed to a broadcast. -/
lemma rUndo_inv (hi : LockInv s) (hpc : s.pc t = .rUndo)
    (h : s' = { s with readers := s.readers - 1 }.goto t
      (if s.readers - 1 = -bufMaxReaders then .rUndoWake else .rCount)) (hb : s'.Bounded) :
    LockInv s' := by
  subst h
  have hin : (s.pc t).inMu = true := by rw [hpc]; rfl
  have hbias := hi.bias_iff hin (by rw [hpc]; rfl)
  by_cases hd : s.readers - 1 = -bufMaxReaders
  · rw [if_pos hd] at hb ⊢
    refine hi.holder_move hpc rfl rfl rfl hb ?_ rfl rfl (fun _ => hbias) ?_ trivial ?_ ?_
    · simp [State.goto, PC.enrolled, PC.pending]
    · exact fun hact => (enrolled_goto (by rw [hpc]; rfl)).trans (hi.excl hact)
    · exact fun _ _ _ _ => broadcasts_self rfl
    · exact fun _ _ _ _ => broadcasts_self rfl
  · rw [if_neg hd] at hb ⊢
    refine hi.holder_move hpc rfl rfl rfl hb ?_ rfl rfl (fun _ => hbias) ?_ trivial ?_ ?_
    · simp [State.goto, PC.enrolled, PC.pending]
    · exact fun hact => (enrolled_goto (by rw [hpc]; rfl)).trans (hi.excl hact)
    · exact fun u _ _ hr => (hd hr).elim
    · exact fun u hu hact hw => hi.wakeReader_update (by decide) (by rw [hpc]; rfl) hact hw u hu

/-- `rLockSlow`'s enrollment: no writer is in play and none can arrive while `mu` is held, so
the bias is off. -/
lemma rEnroll_inv (hi : LockInv s) (hpc : s.pc t = .rEnroll)
    (h : s' = { s with readersWaiting := s.readersWaiting - 1, readers := s.readers + 1 }.goto t
      .rLeave) (hb : s'.Bounded) : LockInv s' := by
  subst h
  have hin : (s.pc t).inMu = true := by rw [hpc]; rfl
  have hbias := hi.bias_iff hin (by rw [hpc]; rfl)
  have hword := hi.word
  obtain ⟨hact, hwait⟩ : s.writerActive = false ∧ s.writersWaiting = 0 :=
    hi.known_at hpc
  have hoff : s.bias = false := by simpa [hact, hwait] using hbias
  refine hi.holder_move hpc rfl rfl rfl hb ?_ rfl rfl (fun _ => hbias) ?_ trivial ?_ ?_
  · simp [State.goto, PC.enrolled, PC.pending]
  · intro h
    simp [State.goto, hact] at h
  · intro u _ _ hr
    simp only [State.goto, hoff, biasOf, bufMaxReaders] at hr hword
    simp at hword
    omega
  · exact fun u hu _ _ => hi.wakeReader_update (by decide) (by rw [hpc]; rfl) hact hwait u hu

/-! ## The writer's path -/

/-- `lock` counts itself as waiting; the first writer in goes on to install the bias, and every
later one finds it installed. -/
lemma wCount_inv (hi : LockInv s) (hpc : s.pc t = .wCount)
    (h : s' = { s with writersWaiting := s.writersWaiting + 1 }.goto t
      (if s.writersWaiting + 1 = 1 ∧ s.writerActive = false then .wBias else .wTest))
    (hb : s'.Bounded) : LockInv s' := by
  subst h
  have hin : (s.pc t).inMu = true := by rw [hpc]; rfl
  have hbias := hi.bias_iff hin (by rw [hpc]; rfl)
  have hwake : ∀ x : PC, x ≠ .wPark ∧ x ≠ .wParked → ∀ u, update s.pc t x u = .wPark ∨
      update s.pc t x u = .wParked → s.writerActive = false →
      s.readers = -bufMaxReaders → ∃ u, (update s.pc t x u).willBroadcast = true := by
    intro x hx u hu hact hr
    refine willBroadcast_update (hi.wakeWriter u ?_ hact hr) (by simp [hpc, PC.willBroadcast])
    have hut : u ≠ t := by
      rintro rfl
      rw [update_self] at hu
      exact hu.elim hx.1 hx.2
    simpa only [update_of_ne hut] using hu
  have hexcl : ∀ x : PC, x.enrolled = false → s.writerActive = true →
      census PC.enrolled (update s.pc t x) = 0 :=
    fun x hx hact => (enrolled_goto (by rw [hpc, hx]; rfl)).trans (hi.excl hact)
  by_cases hfirst : s.writersWaiting + 1 = 1 ∧ s.writerActive = false
  · rw [if_pos hfirst] at hb ⊢
    have hwait : s.writersWaiting = 0 := by omega
    have hoff : s.bias = false := by simpa [hfirst.2, hwait] using hbias
    refine hi.holder_move hpc rfl rfl rfl hb rfl rfl rfl ?_ (hexcl _ rfl) ?_
      (hwake _ (by decide)) ?_
    · exact fun h => Bool.noConfusion h
    · exact ⟨hoff, hfirst.1, hfirst.2⟩
    · exact fun u _ _ h => (Nat.succ_ne_zero _ h).elim
  · rw [if_neg hfirst] at hb ⊢
    have hon : s.bias = true := by
      refine hbias.mpr ?_
      cases hact : s.writerActive
      · exact Or.inr (by simp [hact] at hfirst; omega)
      · exact Or.inl rfl
    refine hi.holder_move hpc rfl rfl rfl hb rfl rfl rfl ?_ (hexcl _ rfl) trivial
      (hwake _ (by decide)) ?_
    · exact fun _ => ⟨fun _ => Or.inr (Nat.succ_pos _), fun _ => hon⟩
    · exact fun u _ _ h => (Nat.succ_ne_zero _ h).elim

/-- The first writer installs the bias; no other writer can be parked yet. -/
lemma wBias_inv (hi : LockInv s) (hpc : s.pc t = .wBias)
    (h : s' = { s with readers := s.readers - bufMaxReaders, bias := true }.goto t .wTest)
    (hb : s'.Bounded) : LockInv s' := by
  subst h
  obtain ⟨hoff, hwait, hact⟩ : s.bias = false ∧ s.writersWaiting = 1 ∧
      s.writerActive = false :=
    hi.known_at hpc
  have honly : census PC.waitingWriter s.pc ≤ 1 := by
    rw [← hi.waiting, hwait]
  refine hi.holder_move hpc rfl rfl rfl hb ?_ rfl rfl ?_ ?_ trivial ?_ ?_
  · simp [State.goto, PC.enrolled, PC.pending, hoff, biasOf]
  · exact fun _ => ⟨fun _ => Or.inr (by simp [State.goto, hwait]), fun _ => rfl⟩
  · intro h
    simp [State.goto, hact] at h
  · intro u hu _ _
    have hut : u ≠ t := by
      rintro rfl
      simp [State.goto] at hu
    simp only [State.goto, update_of_ne hut] at hu
    refine (hut (census_unique honly ?_ ?_)).elim
    · rcases hu with hu | hu <;> rw [hu] <;> rfl
    · rw [hpc]
      rfl
  · intro u _ _ h
    simp [State.goto, hwait] at h

/-- The writer whose drain check succeeded becomes active. -/
lemma wTake_inv (hi : LockInv s) (hpc : s.pc t = .wTake)
    (h : s' = { s with writersWaiting := s.writersWaiting - 1, writerActive := true }.goto t
      .wLeave) (hb : s'.Bounded) : LockInv s' := by
  subst h
  obtain ⟨hon, hact, hen⟩ : s.bias = true ∧ s.writerActive = false ∧ s.enrolled = 0 :=
    hi.known_at hpc
  have hpos : 0 < s.writersWaiting := by
    rw [hi.waiting]
    exact census_pos (t := t) (by rw [hpc]; rfl)
  refine hi.holder_move hpc rfl rfl rfl hb rfl ?_ ?_ ?_ ?_ trivial ?_ ?_
  · simp only [State.goto, PC.waitingWriter, Bool.toNat_true, Bool.toNat_false]
    omega
  · simp [State.goto, PC.inWrite, hact]
  · exact fun _ => ⟨fun _ => Or.inl rfl, fun _ => hon⟩
  · exact fun _ => (enrolled_goto (by rw [hpc]; rfl)).trans hen
  · exact fun _ _ h => Bool.noConfusion h
  · exact fun _ _ h => Bool.noConfusion h

/-! ## `tryLock` -/

/-- A successful swap found no reader, no phantom and no other writer. -/
lemma tSwap_inv (hi : LockInv s) (hpc : s.pc t = .tSwap) (hzero : s.readers = 0)
    (h : s' = { s with readers := -bufMaxReaders, bias := true }.goto t .tTake)
    (hb : s'.Bounded) : LockInv s' := by
  subst h
  have hin : (s.pc t).inMu = true := by rw [hpc]; rfl
  have hword := hi.word
  obtain ⟨hact, hwait⟩ : s.writerActive = false ∧ s.writersWaiting = 0 :=
    hi.known_at hpc
  have hoff : s.bias = false := by
    simpa [hact, hwait] using hi.bias_iff hin (by rw [hpc]; rfl)
  have hen : s.enrolled = 0 := by
    simp [hoff, biasOf, hzero] at hword
    omega
  have hnone : ∀ u, (s.pc u).waitingWriter = false :=
    census_eq_zero (by rw [← hi.waiting, hwait])
  refine hi.holder_move hpc rfl rfl rfl hb ?_ rfl rfl ?_ ?_ ?_ ?_ ?_
  · simp [State.goto, PC.enrolled, PC.pending, hoff, hzero, biasOf]
  · exact fun h => Bool.noConfusion h
  · intro h
    simp [State.goto, hact] at h
  · exact ⟨rfl, hact, hwait, (enrolled_goto (by rw [hpc]; rfl)).trans hen⟩
  · intro u hu _ _
    have hut : u ≠ t := by
      rintro rfl
      simp [State.goto] at hu
    simp only [State.goto, update_of_ne hut] at hu
    have := hnone u
    rcases hu with hu | hu <;> rw [hu] at this <;> exact Bool.noConfusion this
  · exact fun u hu _ _ => hi.wakeReader_update (by decide) (by rw [hpc]; rfl) hact hwait u hu

lemma tTake_inv (hi : LockInv s) (hpc : s.pc t = .tTake)
    (h : s' = { s with writerActive := true }.goto t .wLeave) (hb : s'.Bounded) :
    LockInv s' := by
  subst h
  obtain ⟨hon, hact, -, hen⟩ : s.bias = true ∧ s.writerActive = false ∧
      s.writersWaiting = 0 ∧ s.enrolled = 0 :=
    hi.known_at hpc
  refine hi.holder_move hpc rfl rfl rfl hb rfl rfl ?_ ?_ ?_ trivial ?_ ?_
  · simp [State.goto, PC.inWrite, hact]
  · exact fun _ => ⟨fun _ => Or.inl rfl, fun _ => hon⟩
  · exact fun _ => (enrolled_goto (by rw [hpc]; rfl)).trans hen
  · exact fun _ _ h => Bool.noConfusion h
  · exact fun _ _ h => Bool.noConfusion h

/-! ## `unlock` -/

lemma uClear_inv (hi : LockInv s) (hpc : s.pc t = .uClear)
    (h : s' = { s with writerActive := false }.goto t .uLift) (hb : s'.Bounded) :
    LockInv s' := by
  subst h
  have hact : s.writerActive = true := by
    have hpos : 0 < census PC.inWrite s.pc := census_pos (t := t) (by rw [hpc]; rfl)
    rw [← hi.active] at hpos
    cases h : s.writerActive
    · simp [h] at hpos
    · rfl
  refine hi.holder_move hpc rfl rfl rfl hb rfl rfl ?_ ?_ ?_ ?_ ?_ ?_
  · simp [State.goto, PC.inWrite, hact]
  · exact fun h => Bool.noConfusion h
  · exact fun h => Bool.noConfusion h
  · exact ⟨hi.bias_of_active hact, rfl⟩
  · exact fun _ _ _ _ => broadcasts_self rfl
  · exact fun _ _ _ _ => broadcasts_self rfl

/-- The last writer out lifts the bias; a queued one keeps it. -/
lemma uLift_inv (hi : LockInv s) (hpc : s.pc t = .uLift)
    (h : (if s.writersWaiting = 0 then
        some ({ s with readers := s.readers + bufMaxReaders, bias := false }.goto t .uWake)
      else some (s.goto t .uWake)) = some s') (hb : s'.Bounded) : LockInv s' := by
  obtain ⟨hon, hact⟩ : s.bias = true ∧ s.writerActive = false :=
    hi.known_at hpc
  by_cases hw : s.writersWaiting = 0
  · rw [if_pos hw] at h
    obtain rfl := Option.some.inj h
    refine hi.holder_move hpc rfl rfl rfl hb ?_ rfl rfl ?_ ?_ trivial ?_ ?_
    · simp [State.goto, PC.enrolled, PC.pending, hon, biasOf]
    · simp [State.goto, hact, hw]
    · simp [State.goto, hact]
    · exact fun _ _ _ _ => broadcasts_self rfl
    · exact fun _ _ _ _ => broadcasts_self rfl
  · rw [if_neg hw] at h
    obtain rfl := Option.some.inj h
    refine hi.holder_move hpc rfl rfl rfl hb rfl rfl rfl ?_ ?_ trivial ?_ ?_
    · simp only [State.goto, hon, true_iff]
      exact fun _ => Or.inr (Nat.pos_of_ne_zero hw)
    · simp [State.goto, hact]
    · exact fun _ _ _ _ => broadcasts_self rfl
    · exact fun _ _ _ _ => broadcasts_self rfl

/-! ## Every step -/

/-- Every step of every goroutine keeps the invariant. -/
lemma next_inv {c : Call} (hi : LockInv s) (h : next s t c = some s')
    (hb : s'.Bounded) : LockInv s' := by
  have hk := hi.known t
  cases hpc : s.pc t <;> rw [hpc] at hk <;> simp only [next, hpc] at h
  case idle =>
    cases c with
    | rLock => exact rLock_inv hi hpc (Option.some.inj h).symm hb
    | lock | tryLock => exact begin_inv hi hpc (by simp) (Option.some.inj h).symm hb
  -- taking the mutex
  case rSlow | rWoken | ruSlow | wEnter | wWoken | tEnter | uEnter =>
    exact hi.lockMu hpc h rfl ⟨rfl, rfl, rfl, rfl⟩ (fun _ => trivial) (by decide)
      (by simp [PC.willBroadcast])
  -- a parked goroutine has no step of its own
  case rParked | wParked => cases h
  -- moves of the holder that change no word
  case rCount | rLeave | ruLeave | wLeave | tRefuse | uLeave =>
    obtain rfl := Option.some.inj h
    exact hi.holder_quiet hpc rfl rfl rfl rfl rfl rfl rfl ⟨rfl, rfl, rfl, rfl⟩ ⟨rfl, rfl⟩
      trivial rfl (by simp) (by simp)
  case rTest =>
    obtain rfl := Option.some.inj h
    split
    next hw =>
      exact hi.holder_quiet hpc rfl rfl rfl rfl rfl rfl rfl ⟨rfl, rfl, rfl, rfl⟩ ⟨rfl, rfl⟩
        hw rfl (by simp) (by simp)
    next hw =>
      have hw' : s.writerActive = false ∧ s.writersWaiting = 0 := by simpa using hw
      exact hi.holder_quiet hpc rfl rfl rfl rfl rfl rfl rfl ⟨rfl, rfl, rfl, rfl⟩ ⟨rfl, rfl⟩
        hw' rfl (by simp) (by simp)
  case rPark =>
    obtain rfl := Option.some.inj h
    exact hi.holder_quiet hpc rfl rfl rfl rfl rfl rfl rfl ⟨rfl, rfl, rfl, rfl⟩ ⟨rfl, rfl⟩
      trivial rfl (by simp) (fun _ => hk)
  case wPark =>
    obtain rfl := Option.some.inj h
    exact hi.holder_quiet hpc rfl rfl rfl rfl rfl rfl rfl ⟨rfl, rfl, rfl, rfl⟩ ⟨rfl, rfl⟩
      trivial rfl (fun _ => Or.inr (Or.inr rfl)) (by simp)
  case wTest =>
    obtain rfl := Option.some.inj h
    split
    next hw =>
      exact hi.holder_quiet hpc rfl rfl rfl rfl rfl rfl rfl ⟨rfl, rfl, rfl, rfl⟩ ⟨rfl, rfl⟩
        trivial rfl (fun _ => by tauto) (by simp)
    next hw =>
      have hin : (s.pc t).inMu = true := by rw [hpc]; rfl
      obtain ⟨hact, hr⟩ : s.writerActive = false ∧ s.readers = -bufMaxReaders := by
        simpa using hw
      have hpos : 0 < s.writersWaiting := by
        rw [hi.waiting]
        exact census_pos (t := t) (by rw [hpc]; rfl)
      have hon := (hi.bias_iff hin (by rw [hpc]; rfl)).mpr (Or.inr hpos)
      have hword := hi.word
      have hen : s.enrolled = 0 := by
        simp only [hon, biasOf, if_true, hr] at hword
        omega
      exact hi.holder_quiet hpc rfl rfl rfl rfl rfl rfl rfl ⟨rfl, rfl, rfl, rfl⟩ ⟨rfl, rfl⟩
        ⟨hon, hact, hen⟩ rfl (by simp) (by simp)
  case tTest =>
    obtain rfl := Option.some.inj h
    split
    next hw =>
      exact hi.holder_quiet hpc rfl rfl rfl rfl rfl rfl rfl ⟨rfl, rfl, rfl, rfl⟩ ⟨rfl, rfl⟩
        trivial rfl (by simp) (by simp)
    next hw =>
      have hw' : s.writerActive = false ∧ s.writersWaiting = 0 := by simpa using hw
      exact hi.holder_quiet hpc rfl rfl rfl rfl rfl rfl rfl ⟨rfl, rfl, rfl, rfl⟩ ⟨rfl, rfl⟩
        hw' rfl (by simp) (by simp)
  case tSwap =>
    split at h
    next hz => exact tSwap_inv hi hpc hz (Option.some.inj h).symm hb
    next =>
      obtain rfl := Option.some.inj h
      exact hi.holder_quiet hpc rfl rfl rfl rfl rfl rfl rfl ⟨rfl, rfl, rfl, rfl⟩ ⟨rfl, rfl⟩
        trivial rfl (by simp) (by simp)
  -- broadcasts
  case rUndoWake | ruWake | uWake =>
    obtain rfl := Option.some.inj h
    exact hi.holder_wake hpc rfl ⟨rfl, rfl, rfl, rfl⟩ rfl rfl (fun _ => trivial) (by decide)
  case reading => exact rUnlock_inv hi hpc (Option.some.inj h).symm hb
  case writing => exact begin_inv hi hpc (by simp) (Option.some.inj h).symm hb
  case rUndo => exact rUndo_inv hi hpc (Option.some.inj h).symm hb
  case rEnroll => exact rEnroll_inv hi hpc (Option.some.inj h).symm hb
  case wCount => exact wCount_inv hi hpc (Option.some.inj h).symm hb
  case wBias => exact wBias_inv hi hpc (Option.some.inj h).symm hb
  case wTake => exact wTake_inv hi hpc (Option.some.inj h).symm hb
  case tTake => exact tTake_inv hi hpc (Option.some.inj h).symm hb
  case uClear => exact uClear_inv hi hpc (Option.some.inj h).symm hb
  case uLift => exact uLift_inv hi hpc h hb

end Steps

/-! ## Runs -/

section Runs

variable {T : Type} [Fintype T] [DecidableEq T] {s : State T}

omit [DecidableEq T] in
lemma new_inv : LockInv (State.new T) := by
  have hzero : ∀ p : PC → Bool, p .idle = false → census p (State.new T).pc = 0 := by
    intro p hp
    simp [census, State.new, hp]
  have hen : (State.new T).enrolled = 0 := hzero _ rfl
  have hpe : (State.new T).pending = 0 := hzero _ rfl
  refine ⟨?_, ?_, ?_, ?_, ?_, ?_, ?_, ?_, ?_, ?_⟩
  · simp [hen, hpe]
  · rw [hen, hpe]
    rfl
  · simp [State.new, PC.inMu]
  · exact (hzero _ rfl).symm
  · exact (hzero _ rfl).symm
  · simp [State.new]
  · simp [State.new]
  · exact fun _ => trivial
  · simp [State.new]
  · simp [State.new]

/-- The invariant holds in every state of every run. -/
lemma Run.inv (h : Run s) : LockInv s := by
  refine h.invariant (fun s hs => hs ▸ new_inv) ?_
  rintro s s' hi ⟨⟨t, c, hstep⟩, hb⟩
  exact next_inv hi hstep hb

omit [DecidableEq T] in
/-- The ghost is readable off the word: below the bound, the word is negative exactly when the
bias is part of it. -/
lemma LockInv.bias_iff_neg (hi : LockInv s) : s.bias = true ↔ s.readers < 0 := by
  have hword := hi.word
  have hbound := hi.bounded
  cases hb : s.bias <;> simp [hb, biasOf, bufMaxReaders] at hword ⊢ <;> omega

omit [DecidableEq T] in
/-- With `mu` free nobody is half way through a change of hands. -/
lemma LockInv.bias_iff_of_mu_free (hi : LockInv s) (hmu : s.mu = none) :
    s.bias = true ↔ s.writerActive = true ∨ 0 < s.writersWaiting := by
  refine hi.settled fun t => ?_
  cases hu : (s.pc t).unsettled
  · rfl
  · have hheld := (hi.mutex t).mpr (PC.inMu_of_unsettled hu)
    rw [hmu] at hheld
    cases hheld

omit [DecidableEq T] in
lemma LockInv.active_of_inWrite (hi : LockInv s) {t : T} (ht : (s.pc t).inWrite = true) :
    s.writerActive = true := by
  have hpos := census_pos ht
  rw [← hi.active] at hpos
  cases hact : s.writerActive
  · simp [hact] at hpos
  · rfl

/-- A writer in its critical section is alone: no reader is enrolled and no other writer is
inside. -/
lemma LockInv.writer_alone (hi : LockInv s) {t : T} (ht : (s.pc t).inWrite = true) :
    (∀ u, (s.pc u).enrolled = false) ∧ ∀ u, u ≠ t → (s.pc u).inWrite = false := by
  have hact := hi.active_of_inWrite ht
  refine ⟨census_eq_zero (hi.excl hact), fun u hu => ?_⟩
  have hone : census PC.inWrite s.pc ≤ 1 := by
    rw [← hi.active, hact]
    exact le_rfl
  cases hin : (s.pc u).inWrite
  · rfl
  · exact (hu (census_unique hone hin ht)).elim

omit [DecidableEq T] in
/-- Where `tryLock` goes for the word, and where it has won it, no other writer is counted. -/
lemma LockInv.tryLock_unopposed (hi : LockInv s) {t : T}
    (ht : s.pc t = .tSwap ∨ s.pc t = .tTake) :
    (∀ u, (s.pc u).waitingWriter = false) ∧ ∀ u, (s.pc u).inWrite = false := by
  have hk := hi.known t
  obtain ⟨hact, hwait⟩ : s.writerActive = false ∧ s.writersWaiting = 0 := by
    rcases ht with ht | ht <;> rw [ht] at hk
    · exact hk
    · exact ⟨hk.2.1, hk.2.2.1⟩
  refine ⟨census_eq_zero ?_, census_eq_zero ?_⟩
  · rw [← hi.waiting, hwait]
  · rw [← hi.active, hact]
    rfl

omit [Fintype T] in
/-- A goroutine committed to a broadcast stays committed until it has woken everybody. -/
lemma willBroadcast_next {s' : State T} {t : T} {c : Call}
    (ht : (s.pc t).willBroadcast = true) (h : next s t c = some s') :
    (s'.pc t).willBroadcast = true ∨ ∀ u, s'.pc u ≠ .rParked ∧ s'.pc u ≠ .wParked := by
  have hwoken : ∀ x : PC, x ≠ .rParked ∧ x ≠ .wParked →
      ∀ u, (s.broadcast.goto t x).pc u ≠ .rParked ∧ (s.broadcast.goto t x).pc u ≠ .wParked := by
    intro x hx u
    by_cases hu : u = t
    · simpa [State.goto, hu] using hx
    · simp only [State.goto, update_of_ne hu, State.broadcast]
      cases s.pc u <;> decide
  cases hpc : s.pc t <;> rw [hpc] at ht <;> simp only [PC.willBroadcast, Bool.false_eq_true] at ht
    <;> simp only [next, hpc] at h
  case rUndoWake | ruWake | uWake =>
    obtain rfl := Option.some.inj h
    exact Or.inr (hwoken _ (by decide))
  case ruSlow =>
    simp only [State.lockMu] at h
    split at h <;> cases h
    exact Or.inl (by simp [State.goto, PC.willBroadcast])
  case uLift =>
    split at h <;> cases h <;> exact Or.inl (by simp [State.goto, PC.willBroadcast])

/-- What a goroutine parked in `cond.Wait` waits for. -/
def State.wakeable (s : State T) (t : T) : Prop :=
  (s.pc t = .rParked ∧ s.writerActive = false ∧ s.writersWaiting = 0) ∨
    (s.pc t = .wParked ∧ s.writerActive = false ∧ s.readers = -bufMaxReaders)

omit [DecidableEq T] in
lemma LockInv.broadcast_pending (hi : LockInv s) {t : T} (ht : s.wakeable t) :
    ∃ u, (s.pc u).willBroadcast = true := by
  rcases ht with ⟨hpc, hact, hw⟩ | ⟨hpc, hact, hr⟩
  · exact hi.wakeReader t hpc hact hw
  · exact hi.wakeWriter t (Or.inr hpc) hact hr

/-- Safety of `bufferRWLock` in every state of every run, with any number of goroutines and any
interleaving.  A writer in its critical section excludes every enrolled reader and every other
writer.  The word is the number of enrolled readers and pending increments, less the bias; the
two counters count the goroutines they should; and with `mu` free the bias is installed — the
word is negative — exactly while a writer is active or waiting.  `tryLock` swaps only when no
other writer is in play.  A goroutine parked although its condition holds has a broadcast
coming: some goroutine is committed to one, and stays so until it has emptied the queue. -/
theorem rwLock_safe (h : Run s) :
    (∀ t, (s.pc t).inWrite = true →
      (∀ u, (s.pc u).enrolled = false) ∧ ∀ u, u ≠ t → (s.pc u).inWrite = false) ∧
    (s.readers = s.enrolled + s.pending - if s.bias = true then bufMaxReaders else 0) ∧
    (s.bias = true ↔ s.readers < 0) ∧
    s.writersWaiting = census PC.waitingWriter s.pc ∧
    s.writerActive.toNat = census PC.inWrite s.pc ∧
    (s.mu = none → (s.bias = true ↔ s.writerActive = true ∨ 0 < s.writersWaiting)) ∧
    (∀ t, s.pc t = .tSwap ∨ s.pc t = .tTake →
      (∀ u, (s.pc u).waitingWriter = false) ∧ ∀ u, (s.pc u).inWrite = false) ∧
    (∀ t, s.wakeable t → ∃ u, (s.pc u).willBroadcast = true) ∧
    (∀ t c s', (s.pc t).willBroadcast = true → next s t c = some s' →
      (s'.pc t).willBroadcast = true ∨ ∀ u, s'.pc u ≠ .rParked ∧ s'.pc u ≠ .wParked) := by
  have hi := h.inv
  refine ⟨fun t => hi.writer_alone, hi.word, hi.bias_iff_neg, hi.waiting, hi.active,
    hi.bias_iff_of_mu_free, fun t => hi.tryLock_unopposed, fun t => hi.broadcast_pending,
    fun t c s' => willBroadcast_next⟩

end Runs

/-! ## A concrete run -/

section Concrete

variable {T : Type} [Fintype T] [DecidableEq T]

omit [DecidableEq T] in
/-- Fewer than `2 ^ 30` goroutines respect the bound in every state. -/
lemma bounded_of_card (hT : Fintype.card T < 2 ^ 30) (s : State T) : s.Bounded := by
  refine lt_of_le_of_lt ?_ hT
  rw [State.enrolled, State.pending, census, census, ← Finset.sum_add_distrib,
    Fintype.card_eq_sum_ones]
  refine Finset.sum_le_sum fun t _ => ?_
  cases s.pc t <;> decide

/-- The state after a schedule: which goroutine moves, and the call it begins if it is idle. -/
def schedule (s : State T) (moves : List (T × Call)) : Option (State T) :=
  moves.foldlM (fun s m => next s m.1 m.2) s

lemma Run.schedule (hT : Fintype.card T < 2 ^ 30) {moves : List (T × Call)} {s s' : State T}
    (hs : Run s) (h : BufferRWLock.schedule s moves = some s') : Run s' := by
  induction moves generalizing s with
  | nil => exact Option.some.inj h ▸ hs
  | cons m ms ih =>
    simp only [BufferRWLock.schedule, List.foldlM_cons, Option.bind_eq_bind,
      Option.bind_eq_some_iff] at h
    obtain ⟨s₁, hnext, hrest⟩ := h
    exact ih (hs.tail ⟨⟨m.1, m.2, hnext⟩, bounded_of_card hT s₁⟩) hrest

/-- A reader enters, a writer queues and parks, the reader leaves: the parked writer's
condition holds, and the reader is the one committed to the broadcast. -/
theorem rwLock_safe_drain : ∃ s : State (Fin 2),
    Run s ∧ s.wakeable 1 ∧ (s.pc 0).willBroadcast = true ∧
      ∃ u, (s.pc u).willBroadcast = true := by
  have hmoves : ∃ s, schedule (State.new (Fin 2))
      [(0, .rLock), (1, .lock), (1, .lock), (1, .lock), (1, .lock), (1, .lock), (1, .lock),
        (0, .rLock)] = some s ∧ s.wakeable 1 ∧ (s.pc 0).willBroadcast = true :=
    ⟨_, rfl, Or.inr ⟨rfl, rfl, rfl⟩, rfl⟩
  obtain ⟨s, hs, hw, hb⟩ := hmoves
  have hrun : Run s := Run.schedule (by decide) (Reachable.start rfl) hs
  exact ⟨s, hrun, hw, hb, (rwLock_safe hrun).2.2.2.2.2.2.2.1 1 hw⟩

end Concrete

end BufferRWLock

end Secmem
