import Secmem.Lock.BufferRWLock
import Mathlib.Tactic.Linarith

/-!
# The invariant of `bufferRWLock` and the shapes of its steps

`LockInv` relates the lock's words to where the goroutines stand.  Only the holder of `mu`
changes the flags and counters, so most of what it needs at each control point is local
knowledge (`Local`) that no other goroutine can invalidate; what other goroutines do change is
the word, through the optimistic increment and `rUnlock`'s decrement.

The second half proves, for each *shape* a step can have, what the step must answer for to keep
the invariant: a move of the holder (`holder_move`, `holder_quiet`, `holder_wake`), a move
outside the mutex (`outside_move`), and taking the mutex (`lockMu`).
-/

namespace Secmem.BufferRWLock

open Function

/-! ## The invariant -/

/-- Half way through a change of hands, with `mu` held: here alone the bias and the flags may
disagree. -/
def PC.unsettled : PC → Bool
  | .wBias | .tTake | .uLift => true
  | _ => false

/-- The bias as a summand of the word. -/
def biasOf (b : Bool) : ℤ := if b = true then bufMaxReaders else 0

section Invariant

variable {T : Type} [Fintype T] {s s' : State T} {t : T} {x y : PC}

/-- What the holder of `mu` knows at its control point. -/
def Local (s : State T) : PC → Prop
  | .wBias => s.bias = false ∧ s.writersWaiting = 1 ∧ s.writerActive = false
  | .uLift => s.bias = true ∧ s.writerActive = false
  | .tTake => s.bias = true ∧ s.writerActive = false ∧ s.writersWaiting = 0 ∧ s.enrolled = 0
  | .tSwap | .rEnroll => s.writerActive = false ∧ s.writersWaiting = 0
  | .wTake => s.bias = true ∧ s.writerActive = false ∧ s.enrolled = 0
  | .rPark => s.writerActive = true ∨ 0 < s.writersWaiting
  | _ => True

/-- The global invariant.  `word` and the two counters say what the shared words count;
`settled` is the bias protocol; `excl` is mutual exclusion of the writer with the readers; the
two `wake` fields exclude a lost wakeup. -/
structure LockInv (s : State T) : Prop where
  bounded : s.enrolled + s.pending < 2 ^ 30
  word : s.readers = s.enrolled + s.pending - biasOf s.bias
  mutex : ∀ t, s.mu = some t ↔ (s.pc t).inMu = true
  waiting : s.writersWaiting = census PC.waitingWriter s.pc
  active : s.writerActive.toNat = census PC.inWrite s.pc
  settled : (∀ t, (s.pc t).unsettled = false) →
    (s.bias = true ↔ s.writerActive = true ∨ 0 < s.writersWaiting)
  excl : s.writerActive = true → s.enrolled = 0
  known : ∀ t, Local s (s.pc t)
  wakeWriter : ∀ t, s.pc t = .wPark ∨ s.pc t = .wParked → s.writerActive = false →
    s.readers = -bufMaxReaders → ∃ u, (s.pc u).willBroadcast = true
  wakeReader : ∀ t, s.pc t = .rParked → s.writerActive = false → s.writersWaiting = 0 →
    ∃ u, (s.pc u).willBroadcast = true

lemma local_of_not_inMu (h : x.inMu = false) : Local s x := by
  cases x <;> simp_all [PC.inMu, Local]

/-- What the holder knows survives a step that leaves the flags alone and enrolls nobody under
the bias. -/
lemma Local.transfer (hw : s'.writersWaiting = s.writersWaiting)
    (ha : s'.writerActive = s.writerActive) (hb : s'.bias = s.bias)
    (he : s.bias = true → s.enrolled = 0 → s'.enrolled = 0) (h : Local s x) : Local s' x := by
  cases x <;> simp_all [Local]

lemma PC.inMu_of_unsettled (h : x.unsettled = true) : x.inMu = true := by
  cases x <;> simp_all [PC.inMu, PC.unsettled]

lemma LockInv.only_holder (hi : LockInv s) {t u : T}
    (ht : (s.pc t).inMu = true) (hne : u ≠ t) : (s.pc u).inMu = false := by
  by_contra hu
  have hmt := (hi.mutex t).mpr ht
  have hmu := (hi.mutex u).mpr (by simpa using hu)
  rw [hmt] at hmu
  exact hne (Option.some.inj hmu).symm

lemma Local.settled_of_active (h : Local s x)
    (hact : s.writerActive = true) : x.unsettled = false := by
  cases x <;> simp_all [Local, PC.unsettled]

/-- An active writer has the bias installed, whatever the holder of `mu` is half way
through. -/
lemma LockInv.bias_of_active (hi : LockInv s) (hact : s.writerActive = true) :
    s.bias = true :=
  (hi.settled fun u => (hi.known u).settled_of_active hact).mpr (Or.inl hact)

/-- The holder of `mu` is the only goroutine that can be half way through a change of hands. -/
lemma LockInv.all_settled (hi : LockInv s) (ht : (s.pc t).inMu = true)
    (hset : (s.pc t).unsettled = false) (u : T) : (s.pc u).unsettled = false := by
  by_cases hu : u = t
  · exact hu ▸ hset
  · cases h : (s.pc u).unsettled
    · rfl
    · rw [PC.inMu_of_unsettled h |>.symm.trans (hi.only_holder ht hu)]

/-- What a goroutine knows where it stands. -/
lemma LockInv.known_at (hi : LockInv s) (hpc : s.pc t = x) : Local s x := hpc ▸ hi.known t

lemma LockInv.bias_iff (hi : LockInv s) (ht : (s.pc t).inMu = true)
    (hset : (s.pc t).unsettled = false) :
    s.bias = true ↔ s.writerActive = true ∨ 0 < s.writersWaiting :=
  hi.settled (hi.all_settled ht hset)

variable [DecidableEq T]

omit [Fintype T] in
/-- A broadcast another goroutine is committed to is still pending after `t` moved. -/
lemma willBroadcast_update {pc : T → PC}
    (h : ∃ u, (pc u).willBroadcast = true)
    (ht : (pc t).willBroadcast = true → x.willBroadcast = true) :
    ∃ u, (update pc t x u).willBroadcast = true := by
  obtain ⟨u, hu⟩ := h
  refine ⟨u, ?_⟩
  by_cases hut : u = t
  · subst hut
    rw [update_self]
    exact ht hu
  · rw [update_of_ne hut]
    exact hu

/-- A move of the holder of `mu` that leaves the other goroutines where they are.  The
hypotheses are what the step has to answer for: the three counts follow its control point, the
bias protocol is restored unless it is half way through a change, and nobody is left parked on
a condition the step made true. -/
lemma LockInv.holder_move (hi : LockInv s)
    (hy : s.pc t = y)
    (ht : y.inMu = true) (hpc : s'.pc = update s.pc t x)
    (hmu : s'.mu = if x.inMu = true then s.mu else none)
    (hb : s'.enrolled + s'.pending < 2 ^ 30)
    (hword : s'.readers + y.enrolled.toNat + y.pending.toNat + biasOf s'.bias =
      s.readers + x.enrolled.toNat + x.pending.toNat + biasOf s.bias)
    (hwait : s'.writersWaiting + y.waitingWriter.toNat =
      s.writersWaiting + x.waitingWriter.toNat)
    (hact : s'.writerActive.toNat + y.inWrite.toNat =
      s.writerActive.toNat + x.inWrite.toNat)
    (hset : x.unsettled = false →
      (s'.bias = true ↔ s'.writerActive = true ∨ 0 < s'.writersWaiting))
    (hexcl : s'.writerActive = true → s'.enrolled = 0) (hx : Local s' x)
    (hwW : ∀ u, s'.pc u = .wPark ∨ s'.pc u = .wParked → s'.writerActive = false →
      s'.readers = -bufMaxReaders → ∃ u, (s'.pc u).willBroadcast = true)
    (hwR : ∀ u, s'.pc u = .rParked → s'.writerActive = false → s'.writersWaiting = 0 →
      ∃ u, (s'.pc u).willBroadcast = true) : LockInv s' := by
  subst hy
  rw [(hi.mutex t).mpr ht] at hmu
  have he := census_update PC.enrolled s.pc t x
  have hp := census_update PC.pending s.pc t x
  have hw := census_update PC.waitingWriter s.pc t x
  have ha := census_update PC.inWrite s.pc t x
  rw [← hpc] at he hp hw ha
  refine ⟨hb, ?_, ?_, ?_, ?_, ?_, hexcl, ?_, hwW, hwR⟩
  · have hold := hi.word
    simp only [State.enrolled, State.pending] at hold ⊢
    omega
  · intro u
    by_cases hu : u = t
    · subst hu
      rw [hpc, hmu, update_self]
      split <;> simp_all
    · rw [hpc, hmu, update_of_ne hu, hi.only_holder ht hu]
      split <;> simp [Ne.symm hu]
  · have hold := hi.waiting
    omega
  · have hold := hi.active
    omega
  · intro hall
    refine hset ?_
    have := hall t
    rwa [hpc, update_self] at this
  · intro u
    by_cases hu : u = t
    · subst hu
      rwa [hpc, update_self]
    · rw [hpc, update_of_ne hu]
      exact local_of_not_inMu (hi.only_holder ht hu)

/-- The classes a control point can be counted in. -/
def PC.SameClass (x y : PC) : Prop :=
  x.enrolled = y.enrolled ∧ x.pending = y.pending ∧ x.waitingWriter = y.waitingWriter ∧
    x.inWrite = y.inWrite

lemma census_sameClass {pc : T → PC} (h : (pc t).SameClass x) :
    census PC.enrolled (update pc t x) = census PC.enrolled pc ∧
      census PC.pending (update pc t x) = census PC.pending pc := by
  have he := census_update PC.enrolled pc t x
  have hp := census_update PC.pending pc t x
  rw [h.1] at he
  rw [h.2.1] at hp
  omega

/-- A move of the holder of `mu` that changes none of the words the invariant speaks of. -/
lemma LockInv.holder_quiet (hi : LockInv s)
    (hy : s.pc t = y)
    (ht : y.inMu = true) (hpc : s'.pc = update s.pc t x)
    (hmu : s'.mu = if x.inMu = true then s.mu else none)
    (hr : s'.readers = s.readers) (hw : s'.writersWaiting = s.writersWaiting)
    (ha : s'.writerActive = s.writerActive) (hbias : s'.bias = s.bias)
    (hcls : y.SameClass x)
    (hset : x.unsettled = false ∧ y.unsettled = false) (hx : Local s x)
    (hbc : y.willBroadcast = false)
    (hparkW : x = .wPark ∨ x = .wParked → s.writerActive = true ∨
      s.readers ≠ -bufMaxReaders ∨ y = .wPark)
    (hparkR : x = .rParked → s.writerActive = true ∨ 0 < s.writersWaiting) :
    LockInv s' := by
  subst hy
  have hcount := census_sameClass hcls
  rw [← hpc] at hcount
  have hen : s'.enrolled = s.enrolled := hcount.1
  have hpd : s'.pending = s.pending := hcount.2
  -- a pending broadcast belongs to another goroutine, which did not move
  have hkeep : (∃ u, (s.pc u).willBroadcast = true) → ∃ u, (s'.pc u).willBroadcast = true := by
    intro h
    rw [hpc]
    exact willBroadcast_update h (by simp [hbc])
  refine hi.holder_move rfl ht hpc hmu ?_ ?_ ?_ ?_ ?_ ?_ ?_ ?_ ?_
  · rw [hen, hpd]
    exact hi.bounded
  · rw [hr, hbias, hcls.1, hcls.2.1]
  · rw [hw, hcls.2.2.1]
  · rw [ha, hcls.2.2.2]
  · intro _
    rw [hbias, ha, hw]
    exact hi.bias_iff ht hset.2
  · rw [ha, hen]
    exact hi.excl
  · exact hx.transfer hw ha hbias fun _ hz => hen.trans hz
  · intro u hu hact hrd
    rw [ha] at hact
    rw [hr] at hrd
    refine hkeep ?_
    by_cases hut : u = t
    · rw [hpc, hut, update_self] at hu
      rcases hparkW hu with h | h | h
      · simp [h] at hact
      · exact (h hrd).elim
      · exact hi.wakeWriter t (Or.inl h) hact hrd
    · rw [hpc, update_of_ne hut] at hu
      exact hi.wakeWriter u hu hact hrd
  · intro u hu hact hwt
    rw [ha] at hact
    rw [hw] at hwt
    refine hkeep ?_
    by_cases hut : u = t
    · rw [hpc, hut, update_self] at hu
      rcases hparkR hu with h | h
      · simp [h] at hact
      · omega
    · rw [hpc, update_of_ne hut] at hu
      exact hi.wakeReader u hu hact hwt

lemma PC.wake_of_inMu (h : x.inMu = true) : x.wake = x := by
  cases x <;> first | rfl | exact Bool.noConfusion h

lemma PC.wake_ne_parked (x : PC) : x.wake ≠ .wParked ∧ x.wake ≠ .rParked := by
  cases x <;> decide

lemma PC.inMu_of_wake_eq_wPark (h : x.wake = .wPark) : x = .wPark := by
  cases x <;> first | rfl | exact PC.noConfusion h

omit [DecidableEq T] in
lemma Local.wake (h : Local s x) : Local s x.wake := by
  cases x <;> exact h

omit [DecidableEq T] in
/-- `cond.Broadcast` keeps the invariant: it renames parked goroutines to woken ones, which no
count distinguishes. -/
lemma LockInv.broadcast (hi : LockInv s) : LockInv s.broadcast := by
  have hcls : ∀ x : PC, x.wake.enrolled = x.enrolled ∧ x.wake.pending = x.pending ∧
      x.wake.waitingWriter = x.waitingWriter ∧ x.wake.inWrite = x.inWrite ∧
      x.wake.inMu = x.inMu ∧ x.wake.unsettled = x.unsettled ∧
      x.wake.willBroadcast = x.willBroadcast := by
    intro x
    cases x <;> decide
  have hen : s.broadcast.enrolled = s.enrolled := census_comp (fun x => (hcls x).1) s.pc
  have hpd : s.broadcast.pending = s.pending := census_comp (fun x => (hcls x).2.1) s.pc
  refine ⟨?_, ?_, ?_, ?_, ?_, ?_, ?_, ?_, ?_, ?_⟩
  · rw [hen, hpd]
    exact hi.bounded
  · rw [hen, hpd]
    exact hi.word
  · intro t
    exact (hi.mutex t).trans (by simp only [State.broadcast, (hcls _).2.2.2.2.1])
  · exact hi.waiting.trans (census_comp (fun x => (hcls x).2.2.1) s.pc).symm
  · exact hi.active.trans (census_comp (fun x => (hcls x).2.2.2.1) s.pc).symm
  · intro hall
    refine hi.settled fun t => ?_
    have := hall t
    simpa only [State.broadcast, (hcls _).2.2.2.2.2.1] using this
  · intro hact
    rw [hen]
    exact hi.excl hact
  · intro t
    have hk : Local s (s.pc t).wake := (hi.known t).wake
    refine Local.transfer ?_ ?_ ?_ (fun _ hz => hen.trans hz) hk <;> rfl
  · intro t ht hact hrd
    have hp : s.pc t = .wPark := by
      rcases ht with ht | ht
      · exact PC.inMu_of_wake_eq_wPark ht
      · exact ((PC.wake_ne_parked _).1 ht).elim
    obtain ⟨u, hu⟩ := hi.wakeWriter t (Or.inl hp) hact hrd
    exact ⟨u, (hcls _).2.2.2.2.2.2.trans hu⟩
  · intro t ht
    exact ((PC.wake_ne_parked _).2 ht).elim

/-- The broadcasting step: everybody is woken, and the holder of `mu` moves on. -/
lemma LockInv.holder_wake (hi : LockInv s)
    (hy : s.pc t = y)
    (ht : y.inMu = true) (hcls : y.SameClass x) (hxmu : x.inMu = true)
    (hset : y.unsettled = false) (hx : ∀ s : State T, Local s x) (hpark : x ≠ .wPark) :
    LockInv (s.broadcast.goto t x) := by
  subst hy
  have hib := hi.broadcast
  have htb : s.broadcast.pc t = s.pc t := PC.wake_of_inMu ht
  have htmu : (s.broadcast.pc t).inMu = true := htb ▸ ht
  have hclsb : (s.broadcast.pc t).SameClass x := htb.symm ▸ hcls
  have hcount := census_sameClass hclsb
  have hnone : ∀ u, (s.broadcast.goto t x).pc u ≠ .wPark ∧
      (s.broadcast.goto t x).pc u ≠ .wParked ∧ (s.broadcast.goto t x).pc u ≠ .rParked := by
    intro u
    by_cases hu : u = t
    · subst hu
      simp only [State.goto, update_self]
      refine ⟨hpark, ?_, ?_⟩ <;> rintro rfl <;> exact Bool.noConfusion hxmu
    · have hno := hi.only_holder ht hu
      simp only [State.goto, update_of_ne hu, State.broadcast]
      refine ⟨fun h => ?_, (PC.wake_ne_parked _).1, (PC.wake_ne_parked _).2⟩
      rw [PC.inMu_of_wake_eq_wPark h] at hno
      exact Bool.noConfusion hno
  refine hib.holder_move rfl htmu rfl ?_ ?_ ?_ ?_ ?_ ?_ ?_ ?_ ?_ ?_
  · rw [if_pos hxmu]
    rfl
  · exact (congrArg₂ (· + ·) hcount.1 hcount.2).trans_lt hib.bounded
  · rw [hclsb.1, hclsb.2.1]
    rfl
  · rw [hclsb.2.2.1]
    rfl
  · rw [hclsb.2.2.2]
    rfl
  · intro _
    exact hib.bias_iff htmu (htb ▸ hset)
  · intro hact
    exact hcount.1.trans (hib.excl hact)
  · exact hx _
  · intro u hu
    rcases hu with hu | hu
    · exact ((hnone u).1 hu).elim
    · exact ((hnone u).2.1 hu).elim
  · intro u hu
    exact ((hnone u).2.2 hu).elim

/-- A move of a goroutine that neither holds nor takes `mu`: it leaves the flags and the bias
alone, and it enrolls a reader only while the bias is off. -/
lemma LockInv.outside_move (hi : LockInv s) {n : ℤ} (hy : s.pc t = y) (ht : y.inMu = false)
    (hxmu : x.inMu = false) (hb : ({ s with readers := n }.goto t x).Bounded)
    (hword : n + y.enrolled.toNat + y.pending.toNat =
      s.readers + x.enrolled.toNat + x.pending.toNat)
    (hcls : y.waitingWriter = x.waitingWriter ∧ y.inWrite = x.inWrite)
    (hgrow : s.bias = true → x.enrolled = true → y.enrolled = true)
    (hbc : y.willBroadcast = true → x.willBroadcast = true)
    (hdrain : n = -bufMaxReaders → s.readers = -bufMaxReaders ∨ x.willBroadcast = true)
    (hpark : x ≠ .wParked ∧ x ≠ .rParked) : LockInv ({ s with readers := n }.goto t x) := by
  subst hy
  have he := census_update PC.enrolled s.pc t x
  have hp := census_update PC.pending s.pc t x
  have hwt := census_update PC.waitingWriter s.pc t x
  have hac := census_update PC.inWrite s.pc t x
  rw [hcls.1] at hwt
  rw [hcls.2] at hac
  have hen : s.bias = true → s.enrolled = 0 → census PC.enrolled (update s.pc t x) = 0 := by
    intro hon hz
    have hle := hgrow hon
    simp only [State.enrolled] at hz
    cases hxe : x.enrolled
    · rw [hxe] at he
      simp at he
      omega
    · rw [hle hxe, hxe] at he
      omega
  have hkeep (h : ∃ u, (s.pc u).willBroadcast = true) :=
    willBroadcast_update (t := t) (x := x) h hbc
  refine ⟨hb, ?_, ?_, ?_, ?_, ?_, ?_, ?_, ?_, ?_⟩ <;> simp only [State.goto]
  · have hold := hi.word
    simp only [State.enrolled, State.pending] at hold ⊢
    omega
  · intro u
    by_cases hu : u = t
    · subst hu
      rw [hi.mutex u, update_self, ht, hxmu]
    · rw [hi.mutex u, update_of_ne hu]
  · have hold := hi.waiting
    omega
  · have hold := hi.active
    omega
  · intro hall
    refine hi.settled fun u => ?_
    by_cases hu : u = t
    · subst hu
      cases h : (s.pc u).unsettled
      · rfl
      · rw [PC.inMu_of_unsettled h] at ht
        exact Bool.noConfusion ht
    · have := hall u
      rwa [update_of_ne hu] at this
  · intro hact
    exact hen (hi.bias_of_active hact) (hi.excl hact)
  · intro u
    by_cases hu : u = t
    · subst hu
      rw [update_self]
      exact local_of_not_inMu hxmu
    · rw [update_of_ne hu]
      refine Local.transfer ?_ ?_ ?_ hen (hi.known u) <;> rfl
  · intro u hu hact hrd
    by_cases hut : u = t
    · rw [hut, update_self] at hu
      rcases hu with hu | hu
      · rw [hu] at hxmu
        exact Bool.noConfusion hxmu
      · exact (hpark.1 hu).elim
    · rw [update_of_ne hut] at hu
      rcases hdrain hrd with h | h
      · exact hkeep (hi.wakeWriter u hu hact h)
      · exact ⟨t, by rw [update_self]; exact h⟩
  · intro u hu hact hwz
    by_cases hut : u = t
    · rw [hut, update_self] at hu
      exact (hpark.2 hu).elim
    · rw [update_of_ne hut] at hu
      exact hkeep (hi.wakeReader u hu hact hwz)

/-- Taking the free mutex: nothing but the holder changes. -/
lemma LockInv.lockMu (hi : LockInv s)
    (hy : s.pc t = y)
    (h : s.lockMu t x = some s') (hxmu : x.inMu = true) (hcls : y.SameClass x)
    (hx : ∀ s : State T, Local s x) (hpark : x ≠ .wPark)
    (hbc : y.willBroadcast = true → x.willBroadcast = true) : LockInv s' := by
  subst hy
  unfold State.lockMu at h
  split at h
  swap
  · cases h
  next hfree =>
  obtain rfl := Option.some.inj h
  have hnomu : ∀ u, (s.pc u).inMu = false := by
    intro u
    by_contra hu
    have := (hi.mutex u).mpr (by simpa using hu)
    rw [hfree] at this
    cases this
  have hcount := census_sameClass hcls
  have hwt := census_update PC.waitingWriter s.pc t x
  have hac := census_update PC.inWrite s.pc t x
  rw [hcls.2.2.1] at hwt
  rw [hcls.2.2.2] at hac
  refine ⟨?_, ?_, ?_, ?_, ?_, ?_, ?_, ?_, ?_, ?_⟩
  · exact (congrArg₂ (· + ·) hcount.1 hcount.2).trans_lt hi.bounded
  · have hold := hi.word
    simp only [State.goto, State.enrolled, State.pending] at hold hcount ⊢
    omega
  · intro u
    simp only [State.goto]
    by_cases hu : u = t
    · subst hu
      simp [update_self, hxmu]
    · simp [update_of_ne hu, hnomu u, Ne.symm hu]
  · have hold := hi.waiting
    simp only [State.goto]
    omega
  · have hold := hi.active
    simp only [State.goto]
    omega
  · intro _
    refine hi.settled fun u => ?_
    cases hun : (s.pc u).unsettled
    · rfl
    · rw [PC.inMu_of_unsettled hun |>.symm.trans (hnomu u)]
  · intro hact
    exact hcount.1.trans (hi.excl hact)
  · intro u
    simp only [State.goto]
    by_cases hu : u = t
    · subst hu
      rw [update_self]
      exact hx _
    · rw [update_of_ne hu]
      exact local_of_not_inMu (hnomu u)
  · intro u hu hact hrd
    simp only [State.goto] at hu hact hrd ⊢
    by_cases hut : u = t
    · rw [hut, update_self] at hu
      rcases hu with hu | hu
      · exact (hpark hu).elim
      · rw [hu] at hxmu
        exact Bool.noConfusion hxmu
    · rw [update_of_ne hut] at hu
      exact willBroadcast_update (hi.wakeWriter u hu hact hrd) hbc
  · intro u hu hact hwz
    simp only [State.goto] at hu hact hwz ⊢
    by_cases hut : u = t
    · rw [hut, update_self] at hu
      rw [hu] at hxmu
      exact Bool.noConfusion hxmu
    · rw [update_of_ne hut] at hu
      exact willBroadcast_update (hi.wakeReader u hu hact hwz) hbc

end Invariant
end Secmem.BufferRWLock
