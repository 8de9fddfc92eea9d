import Secmem.AesGcm.Discipline

/-!
# The scope of a lent AEAD

What holds in every run: the calls of the AEAD that are under way when the callback ends are waited
for before anything is wiped, both objects are then wiped once, and a call that comes after that is
turned away.
-/

namespace Secmem.AesGcm

open Discipline

variable {T : Type} [DecidableEq T] {t : T} {α : Type}

/-- A triple about a program of goroutine `t`. -/
abbrev Outline (t : T) (F : World T → Prop) (p : Code α) (Q : α → World T → Prop) : Prop :=
  (discipline T).Triple (fun _ _ => True) t F p Q

abbrev Stable (t : T) (F : World T → Prop) : Prop := (discipline T).Stable t F

lemma Resting.stable : Stable t (Resting t) := fun _ _ _ hr h =>
  ⟨fun h' => h.reader (hr.reader.mp h'), hr.inside.trans h.inside⟩

lemma Reading.stable : Stable t (Reading t) := fun _ _ _ hr h =>
  ⟨hr.reader.mpr h.reader, hr.inside.trans h.inside⟩

lemma Owns.stable (s : Stage) : Stable t (Owns t s) := fun _ _ _ hr h =>
  ⟨hr.owner.mpr h.owner, (hr.progress h.owner).trans h.progress⟩

lemma Finished.stable : Stable t (Finished t) := by
  intro w w' _ hr h ho
  have ho' := hr.owner.mp ho
  rw [hr.progress ho']
  exact h ho'

/-! ## A call of the AEAD

What a goroutine knows of its own objects, `G`, is not affected by its calls. -/

section Calls

variable {G : Option T → Progress → Prop}

/-- The end of a call: the lock is given back and the call returns or panics. -/
lemma leave_outline (hG : Stable t fun w => G w.owner w.progress) (r : CallEnd) :
    Outline t (fun w => (Reading t w ∧ (w.late t = true → r = .outOfScope)) ∧ G w.owner w.progress)
      (do perform .rUnlock; perform (.callEnds r); pure r)
      fun _ w => Resting t w ∧ G w.owner w.progress := by
  have hlate : Stable t fun w => w.late t = true → r = .outOfScope := by
    intro w w' _ hr h hl
    rw [hr.late] at hl
    exact h hl
  refine Triple.perform
    (fun _ w => (Resting t w ∧ (w.late t = true → r = .outOfScope)) ∧ G w.owner w.progress)
    ((Reading.stable.and hlate).and hG) (fun _ _ h => h.1.1) ?_ fun _ => ?_
  · intro w c r w' hi hw he _
    cases he
    exact ⟨⟨⟨hi.readers.not_mem_erase, hw.1.1.inside⟩, hw.1.2⟩, hw.2⟩
  refine Triple.perform (fun _ w => Resting t w ∧ G w.owner w.progress)
    ((Resting.stable.and hlate).and hG) (fun _ _ h => h.1.2) ?_ fun _ =>
      Triple.ret fun _ _ h => h
  intro w c r w' _ hw he _
  cases he
  exact ⟨hw.1.1, hw.2⟩

lemma scopedCall_outline (hG : Stable t fun w => G w.owner w.progress) (op : Op) :
    Outline t (fun w => Resting t w ∧ G w.owner w.progress) (scopedCall op)
      fun _ w => Resting t w ∧ G w.owner w.progress := by
  have hlent : Stable t fun w => w.lent = true := fun _ _ _ hr h => hr.lent h
  refine Triple.perform (fun _ w => (Resting t w ∧ w.lent = true) ∧ G w.owner w.progress)
    (Resting.stable.and hG) (fun _ _ h => h.1.inside) ?_ fun _ => ?_
  · intro w c r w' _ hw he hi'
    simp only [system, exec] at he
    split at he <;> cases he
    next hl => exact ⟨⟨⟨hw.1.reader, hw.1.inside⟩, hl⟩, hw.2⟩
  refine Triple.perform (fun _ w => (Reading t w ∧ w.lent = true) ∧ G w.owner w.progress)
    ((Resting.stable.and hlent).and hG) (fun _ _ h => h.1.1.reader) ?_ fun _ => ?_
  · intro w c r w' _ hw he hi'
    simp only [system, exec] at he
    split at he <;> cases he
    next m hm =>
      obtain ⟨-, -, hr⟩ := RWLock.rLock_eq hm
      refine ⟨⟨⟨?_, hw.1.1.inside⟩, hw.1.2⟩, hw.2⟩
      rw [hr]
      exact List.mem_cons_self
  refine Triple.perform
    (fun done w => ((Reading t w ∧ w.done = done) ∧ w.lent = true) ∧ G w.owner w.progress)
    ((Reading.stable.and hlent).and hG) (fun _ _ _ => trivial) ?_ fun done => ?_
  · intro w c r w' _ hw he _
    cases he
    exact ⟨⟨⟨hw.1.1, rfl⟩, hw.1.2⟩, hw.2⟩
  cases done with
  | true =>
    exact (leave_outline hG .outOfScope).pre fun w _ h => ⟨⟨h.1.1.1, fun _ => rfl⟩, h.2⟩
  | false =>
    have hdone : Stable t fun w => Reading t w ∧ w.done = false := fun w w' hi hr h =>
      ⟨Reading.stable w w' hi hr h.1, (hr.done h.1.reader).trans h.2⟩
    have hin : Stable t fun w => t ∈ w.mu.readers ∧ w.inside t = true := fun _ _ _ hr h =>
      ⟨hr.reader.mpr h.1, hr.inside.trans h.2⟩
    refine Triple.perform
      (fun _ w => (t ∈ w.mu.readers ∧ w.inside t = true) ∧ G w.owner w.progress)
      ((hdone.and hlent).and hG) (fun _ _ h => ⟨h.1.1.1.reader, h.1.2, h.1.1.2⟩) ?_ fun _ => ?_
    · intro w c r w' _ hw he _
      cases he
      exact ⟨⟨hw.1.1.1.reader, Function.update_self _ _ _⟩, hw.2⟩
    refine Triple.perform
      (fun _ w => (Reading t w ∧ w.late t = false) ∧ G w.owner w.progress) (hin.and hG)
      (fun _ _ h => h.1.2) ?_ fun panic => ?_
    · intro w c r w' hi hw he _
      cases he
      exact ⟨⟨⟨hw.1.1, Function.update_self _ _ _⟩, (hi.inside t hw.1.2).2.2⟩, hw.2⟩
    refine (leave_outline hG (.ofInner panic)).pre fun w _ h => ⟨⟨h.1.1, fun hl => ?_⟩, h.2⟩
    rw [h.1.2] at hl
    cases hl

lemma runCallback_outline (hG : Stable t fun w => G w.owner w.progress) (fn : Callback) :
    Outline t (fun w => Resting t w ∧ G w.owner w.progress) (runCallback fn)
      fun _ w => Resting t w ∧ G w.owner w.progress := by
  induction fn with
  | ends e => exact Triple.ret fun _ _ h => h
  | call op next ih => exact Triple.seq (scopedCall_outline hG op) ih

end Calls

/-! ## `WithAESGCM` -/

lemma close_outline :
    Outline t (fun w => Resting t w ∧ Owns t .lending w) close
      fun _ w => Resting t w ∧ Owns t .closed w := by
  have hwriter : Stable t fun w => w.mu.writer = some t := fun _ _ _ hr h => hr.writer.mpr h
  refine Triple.perform
    (fun _ w => (Resting t w ∧ w.mu.writer = some t) ∧ Owns t .lending w)
    (Resting.stable.and (Owns.stable _)) (fun _ _ h => h.2) ?_ fun _ => ?_
  · intro w c r w' _ hw he hi'
    simp only [system, exec] at he
    split at he <;> cases he
    next m hm =>
      obtain ⟨-, -, hmw, hmr⟩ := RWLock.lock_eq hm
      refine ⟨⟨⟨?_, hw.1.inside⟩, hmw⟩, hw.2.owner, hw.2.progress⟩
      rw [hmr]
      exact List.not_mem_nil
  refine Triple.perform
    (fun _ w => (Resting t w ∧ w.mu.writer = some t) ∧ Owns t .marked w)
    ((Resting.stable.and hwriter).and (Owns.stable _)) (fun _ _ h => ⟨h.1.2, h.2⟩) ?_ fun _ => ?_
  · intro w c r w' _ hw he _
    cases he
    exact ⟨⟨⟨hw.1.1.reader, hw.1.1.inside⟩, hw.1.2⟩, hw.2.owner,
      congrArg (fun p : Progress => { p with done := true }) hw.2.progress⟩
  refine Triple.last ((Resting.stable.and hwriter).and (Owns.stable _))
    (fun _ _ h => ⟨h.1.2, h.2⟩) ?_
  intro w c r w' _ hw he _
  cases he
  exact ⟨⟨hw.1.1.reader, hw.1.1.inside⟩, hw.2.owner,
    congrArg (fun p : Progress => { p with closed := true }) hw.2.progress⟩

/-- The two wipes at the end of a call. -/
lemma wipes_outline {f : Option GoErr → Option GoErr → Code α} {Q : α → World T → Prop}
    (h : ∀ gerr berr, Outline t (fun w => Resting t w ∧ Owns t .wiped w) (f gerr berr) Q) :
    Outline t (fun w => Resting t w ∧ Owns t .closed w)
      (do
        let gerr : Option GoErr ← perform .wipeGCM
        let berr : Option GoErr ← perform .wipeAESBlock
        f gerr berr) Q := by
  refine Triple.perform (fun _ w => Resting t w ∧ Owns t .gcmWiped w)
    (Resting.stable.and (Owns.stable _)) (fun _ _ h => h.2) ?_ fun gerr => ?_
  · intro w c r w' _ hw he _
    cases he
    exact ⟨⟨hw.1.reader, hw.1.inside⟩, hw.2.owner,
      congrArg (fun p : Progress => { p with gcmWipes := p.gcmWipes + 1 }) hw.2.progress⟩
  refine Triple.perform (fun _ w => Resting t w ∧ Owns t .wiped w)
    (Resting.stable.and (Owns.stable _)) (fun _ _ h => .inr h.2) ?_ fun berr => h gerr berr
  intro w c r w' _ hw he _
  cases he
  exact ⟨⟨hw.1.reader, hw.1.inside⟩, hw.2.owner,
    congrArg (fun p : Progress => { p with blockWipes := p.blockWipes + 1 }) hw.2.progress⟩

lemma withKey_outline (fn : Callback) :
    Outline t (fun w => Resting t w ∧ Finished t w) (withKey fn)
      fun _ w => Resting t w ∧ Finished t w := by
  refine Triple.perform
    (fun err w => Resting t w ∧ if err = none then Owns t .expanded w else Finished t w)
    (Resting.stable.and Finished.stable) (fun _ _ _ => trivial) ?_ fun err => ?_
  · intro w c r w' hi hw he _
    simp only [system, exec] at he
    split at he
    · cases he
    next hn =>
      rw [not_not] at hn
      split at he <;> cases he
      · exact ⟨hw.1, hw.2⟩
      · obtain ⟨s, hs, hfirst⟩ := hi.stage
        rw [hfirst hn] at hs
        exact ⟨⟨hw.1.reader, hw.1.inside⟩, rfl, hs⟩
  cases err with
  | some e => exact Triple.ret fun _ _ h => h
  | none =>
  refine Triple.look (Resting.stable.and (Owns.stable _)) (fun _ _ _ => trivial)
    (fun _ _ _ _ he => by cases he; rfl) fun err => ?_
  cases err with
  | some e =>
    refine Triple.perform (fun _ w => Resting t w ∧ Finished t w)
      (Resting.stable.and (Owns.stable _)) (fun _ _ h => .inl h.2) ?_ fun _ =>
        Triple.ret fun _ _ h => h
    intro w c r w' _ hw he _
    cases he
    exact ⟨⟨hw.1.reader, hw.1.inside⟩, fun _ => .inl
      (congrArg (fun p : Progress => { p with blockWipes := p.blockWipes + 1 }) hw.2.progress)⟩
  | none =>
    refine Triple.perform (fun _ w => Resting t w ∧ Owns t .lending w)
      (Resting.stable.and (Owns.stable _)) (fun _ _ h => h.2) ?_ fun _ => ?_
    · intro w c r w' _ hw he _
      cases he
      exact ⟨⟨hw.1.reader, hw.1.inside⟩, hw.2.owner,
        congrArg (fun p : Progress => { p with lent := true }) hw.2.progress⟩
    have hcalls := runCallback_outline (t := t)
      (G := fun o p => o = some t ∧ p = Stage.lending.progress)
      (fun w w' hi hr h =>
        have := Owns.stable .lending w w' hi hr ⟨h.1, h.2⟩
        ⟨this.owner, this.progress⟩) fn
    refine Triple.seq (hcalls.pre fun _ _ h => ⟨h.1, h.2.owner, h.2.progress⟩) fun r => ?_
    refine Triple.seq (close_outline.pre fun _ _ h => ⟨h.1, h.2.1, h.2.2⟩) fun _ => ?_
    refine wipes_outline fun gerr berr => ?_
    exact Triple.look (Resting.stable.and (Owns.stable _)) (fun _ _ h => h.2)
      (fun _ _ _ _ he => by cases he; rfl) fun _ =>
        Triple.ret fun _ _ h => ⟨h.1, fun _ => .inr h.2.progress⟩

lemma withAESGCM_outline (key : Bool) (fn : Option Callback) :
    Outline t (fun w => Resting t w ∧ Finished t w) (withAESGCM key fn)
      fun _ w => Resting t w ∧ Finished t w := by
  -- what is asked of the key leaves the world alone
  have hask {i : Act} {k : Res i → Code CallbackEnd} {c₀ : Choice → Res i}
      (hexec : ∀ (c : Choice) (w : World T), exec t i c w = .done (c₀ c) w)
      (hsafe : ∀ w : World T, Safe t i w)
      (h : ∀ r, Outline t (fun w => Resting t w ∧ Finished t w) (k r)
        fun _ w => Resting t w ∧ Finished t w) :
      Outline t (fun w => Resting t w ∧ Finished t w) (perform i >>= k)
        fun _ w => Resting t w ∧ Finished t w := by
    refine Triple.look (Resting.stable.and Finished.stable) (fun w _ _ => hsafe w) ?_ h
    intro w c r w' he
    cases (hexec c w).symm.trans he
    rfl
  have hret (e : CallbackEnd) : Outline t (fun w => Resting t w ∧ Finished t w) (pure e)
      fun _ w => Resting t w ∧ Finished t w := Triple.ret fun _ _ h => h
  unfold withAESGCM
  split
  · exact hret _
  split
  · exact hret _
  refine hask (fun _ _ => rfl) (fun _ => trivial) fun destroyed => ?_
  split
  · exact hret _
  refine hask (fun _ _ => rfl) (fun _ => trivial) fun n => ?_
  split
  · exact hask (fun _ _ => rfl) (fun _ => trivial) fun n => hret _
  refine hask (fun _ _ => rfl) (fun _ => trivial) fun err => ?_
  split
  · exact hret _
  refine hask (fun _ _ => rfl) (fun _ => trivial) fun err => ?_
  split
  · exact hret _
  exact Triple.seq (withKey_outline _) fun r => hret _

/-! ## Runs -/

lemma outlined : Discipline.Outlined (discipline T) (fun _ _ => True)
    (fun t w => Resting t w ∧ Finished t w) (fun _ => true) where
  idle _ := Resting.stable.and Finished.stable
  code t c := by
    refine Triple.pre (P := fun w => Resting t w ∧ Finished t w) ?_
      fun _ _ h => h.1
    cases c with
    | withAESGCM key fn =>
      exact Triple.seq (withAESGCM_outline key fn) fun _ =>
        Triple.ret fun _ _ h => h
    | aead op =>
      have hG : Stable t fun w => w.owner = some t →
          w.progress = Stage.dropped.progress ∨ w.progress = Stage.wiped.progress :=
        Finished.stable
      exact Triple.seq (scopedCall_outline (G := fun o p => o = some t →
          p = Stage.dropped.progress ∨ p = Stage.wiped.progress) hG op) fun _ =>
        Triple.ret fun _ _ h => h
  api _ _ _ _ := trivial

omit [DecidableEq T] in
lemma initial_inv : Inv (World.initial T) where
  readers := List.nodup_nil
  inside _ h := by cases h
  stage := ⟨.expanded, rfl, fun _ => rfl⟩
  writer h := absurd rfl h
  late _ h := by cases h

lemma Run.keeps {p : Pool Act Res Call T (World T)} (hrun : Run p) :
    (discipline T).Keeps (fun _ _ => True) (fun t w => Resting t w ∧ Finished t w) p := by
  refine outlined.keeps ?_ hrun
  rintro w rfl
  exact ⟨initial_inv, fun t => ⟨⟨List.not_mem_nil, rfl⟩, fun h => by cases h⟩⟩

/-- In every run of any goroutines that call `WithAESGCM` and use the AEAD it lends, nobody is
inside the AEAD when one of the two objects is about to be wiped, nor after that.  Each object is
wiped at most once; when the call that lent the AEAD ends, however its callback ended, each has
been, and so it stays.  A call of the AEAD that began after the scope was closed does not wait, does
not get inside, and ends in a panic with `ErrAEADOutOfScope`. -/
theorem aead_scope {p : Pool Act Res Call T (World T)} (hrun : Run p) :
    (∀ u i k, p.thread u = .act i k → i = .wipeGCM ∨ i = .wipeAESBlock →
      ∀ v, p.state.inside v = false) ∧
    (0 < p.state.gcmWipes ∨ 0 < p.state.blockWipes → ∀ v, p.state.inside v = false) ∧
    (p.state.gcmWipes ≤ 1 ∧ p.state.blockWipes ≤ 1) ∧
    (∀ u k, p.thread u = .act .exits k → p.state.gcmWipes = 1 ∧ p.state.blockWipes = 1) ∧
    (∀ u, p.thread u = .ret () → p.state.owner = some u → p.state.lent = true →
      p.state.gcmWipes = 1 ∧ p.state.blockWipes = 1) ∧
    ∀ u, p.state.late u = true →
      p.state.inside u = false ∧
      (∀ op k, p.thread u ≠ .act (.innerStarts op) k) ∧
      (∀ c k, p.thread u = .act .rLock k → exec u .rLock c p.state ≠ .blocked) ∧
      ∀ r k, p.thread u = .act (.callEnds r) k → r = .panicked (.err errAEADOutOfScope) := by
  have hk := hrun.keeps
  have hi : Inv p.state := hk.1
  obtain ⟨s, hs, -⟩ := hi.stage
  have hwipes : p.state.gcmWipes = s.progress.gcmWipes ∧
      p.state.blockWipes = s.progress.blockWipes := by
    rw [← hs]
    exact ⟨rfl, rfl⟩
  have hnobody (h : s ≠ .lending) : ∀ v, p.state.inside v = false := by
    refine hi.nobody ?_
    rw [hs]
    exact fun h' => h (Stage.progress_injective h')
  have howns {u : T} {s' : Stage} (h : Owns u s' p.state) : s = s' :=
    Stage.progress_injective (hs.symm.trans h.progress)
  have hclosed (u : T) (h : p.state.late u = true) : s ≠ .lending ∧ s ≠ .marked := by
    have hc : p.state.closed = s.progress.closed := congrArg Progress.closed hs
    rw [hi.late u h] at hc
    constructor <;> rintro rfl <;> cases hc
  refine ⟨fun u i k hact hw => ?_, fun hw => ?_, ?_, fun u k hact => ?_, fun u hret ho hl => ?_,
    fun u hlate => ⟨?_, fun op k hact => ?_, fun c k hact => ?_, fun r k hact => ?_⟩⟩
  · refine hnobody ?_
    rintro rfl
    rcases hw with rfl | rfl
    · cases howns (hk.safe hact)
    · rcases hk.safe hact with h | h <;> cases howns h
  · refine hnobody ?_
    rintro rfl
    rw [hwipes.1, hwipes.2] at hw
    exact absurd hw (by decide)
  · rw [hwipes.1, hwipes.2]
    cases s <;> decide
  · obtain rfl := howns (hk.safe hact)
    exact hwipes
  · rcases (hk.idle outlined hret).2 ho with h | h
    · have hlent : p.state.lent = Stage.dropped.progress.lent := congrArg Progress.lent h
      rw [hl] at hlent
      cases hlent
    · obtain rfl := Stage.progress_injective (hs.symm.trans h)
      exact hwipes
  · by_contra hin
    rw [Bool.not_eq_false] at hin
    have hnot := (hi.inside u hin).2.2
    rw [hlate] at hnot
    cases hnot
  · obtain ⟨-, hl, hd⟩ : u ∈ p.state.mu.readers ∧ p.state.lent = true ∧ p.state.done = false :=
      hk.safe hact
    exact (hclosed u hlate).1 (Stage.progress_injective (hs.symm.trans (hi.lending hl hd)))
  · have hno : p.state.mu.writer = none := by
      by_contra hw
      rcases hi.writer hw with h | h
      · exact (hclosed u hlate).1 (Stage.progress_injective (hs.symm.trans h))
      · exact (hclosed u hlate).2 (Stage.progress_injective (hs.symm.trans h))
    simp only [exec, RWLock.rLock, if_pos hno]
    exact fun h => by cases h
  · exact hk.safe hact hlate

/-- Goroutine 0's callback has sealed once and failed, its call has ended, and goroutine 1 comes
with an `Open`. -/
theorem aead_scope_late : ∃ p : Pool Act Res Call (Fin 2) (World (Fin 2)),
    Pool.moves (system (Fin 2)) (fun _ => true) ⟨.initial (Fin 2), fun _ => .ret ()⟩
      (.start 0 (.withAESGCM true
          (some (.call .sealCall fun _ => .ends (.returns (some (.os 1)))))) ::
        List.replicate 20 (.step 0 ⟨none, false, 32, none⟩) ++
        .start 1 (.aead .openCall) :: List.replicate 4 (.step 1 ⟨none, false, 32, none⟩)) =
      some p ∧
    p.state.late 1 = true ∧ p.thread 0 = .ret () ∧ p.state.owner = some 0 ∧
    (p.state.gcmWipes = 1 ∧ p.state.blockWipes = 1) ∧
    ∃ r k, p.thread 1 = .act (.callEnds r) k ∧ r = .panicked (.err errAEADOutOfScope) := by
  have hstart : Run (T := Fin 2) ⟨.initial (Fin 2), fun _ => .ret ()⟩ :=
    Reachable.start ⟨rfl, fun _ => rfl⟩
  refine hstart.exists_moves (P := fun p => p.state.late 1 = true ∧ p.thread 0 = .ret () ∧
    p.state.owner = some 0 ∧ p.state.lent = true ∧ ∃ r k, p.thread 1 = .act (.callEnds r) k)
    ⟨_, rfl, rfl, rfl, rfl, rfl, _, _, rfl⟩ ?_
  rintro p hrun ⟨hlate, hret, ho, hl, r, k, hk⟩
  obtain ⟨-, -, -, -, hwiped, hrest⟩ := aead_scope hrun
  exact ⟨hlate, hret, ho, hwiped 0 hret ho hl, r, k, hk, (hrest 1 hlate).2.2.2 r k hk⟩

end Secmem.AesGcm
