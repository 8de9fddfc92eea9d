import Secmem.Argon2Pool.Discipline
import Secmem.Framework.Critical

/-!
# What holds of an Argon2 pool in every run

`Derive` keeps its workspace to itself and hands it back before the channel can be closed, and the
`Destroy` that sets the flag counts all workspaces in before it closes the channel and destroys
them.  A second `Destroy` that comes while the first is waiting returns at once, which the last
section is about.
-/

namespace Secmem.Argon2Pool

open Discipline

variable {T : Type} [DecidableEq T] {strict : Bool} {t : T} {α : Type} {pick : ℕ → Choice}

/-- A triple about a program of the pool, run by goroutine `t`. -/
abbrev Outline (strict : Bool) (t : T) (F : World T → Prop) (p : PoolProg α)
    (Q : α → World T → Prop) : Prop :=
  (discipline T strict).Triple (fun _ _ => True) t F p Q

abbrev Stable (strict : Bool) (t : T) (F : World T → Prop) : Prop :=
  (discipline T strict).Stable t F

/-! ## Derive -/

section Derive

variable {i : ℕ} {Q : α → World T → Prop} {k : Unit → PoolProg α}

/-- A derivation that began before the pool was torn down has the workspace, with `l` inside. -/
structure Deriving (t : T) (i : ℕ) (l : List T) (w : World T) : Prop where
  taken : Taken t i w
  users : w.users i = l
  late : w.late t = false

lemma Deriving.stable (l : List T) : Stable strict t (Deriving t i l) := by
  intro w w' _ hr h
  have hh := h.taken.holder
  refine ⟨⟨(hr.holder i).mpr hh, fun hd => h.taken.drained ((hr.drained i hh).mp hd)⟩, ?_, ?_⟩
  · rw [hr.users i hh]
    exact h.users
  · rw [hr.late]
    exact h.late

lemma wsMu_stable : Stable strict t fun w => w.wsMu i = some t :=
  fun _ _ _ hr h => (hr.wsMu i).mpr h

lemma wsLock_outline {F : World T → Prop}
    (hF : Stable strict t F) (hframe : ∀ w m, F w → F { w with wsMu := m })
    (h : Outline strict t (fun w => w.wsMu i = some t ∧ F w) (k ()) Q) :
    Outline strict t F (perform (.wsLock i) >>= k) Q := by
  refine Triple.perform (fun _ w => w.wsMu i = some t ∧ F w) hF
    (fun _ _ _ => trivial) ?_ fun _ => h
  intro w c r w' _ hw he _
  simp only [system, exec] at he
  split at he <;> cases he
  exact ⟨Function.update_self _ _ _, hframe w _ hw⟩

lemma wsUnlock_outline {F : World T → Prop}
    (hF : Stable strict t F) (hframe : ∀ w m, F w → F { w with wsMu := m })
    (h : Outline strict t F (k ()) Q) :
    Outline strict t (fun w => w.wsMu i = some t ∧ F w) (perform (.wsUnlock i) >>= k) Q := by
  refine Triple.perform (fun _ w => F w) (wsMu_stable.and hF) (fun _ _ h => h.1) ?_
    fun _ => h
  intro w c r w' _ hw he _
  cases he
  exact hframe w _ hw.2

/-- `Argon2Workspace.Derive` leaves its workspace as it found it. -/
lemma wsDerive_outline :
    Outline strict t (Deriving t i []) (wsDerive i) fun _ w => Deriving t i [] w := by
  have hframe (l : List T) (w : World T) (m) (h : Deriving t i l w) :
      Deriving t i l { w with wsMu := m } := ⟨⟨h.taken.holder, h.taken.drained⟩, h.users, h.late⟩
  refine Triple.look (Deriving.stable []) (fun _ _ _ => trivial)
    (fun _ _ _ _ he => by cases he; rfl) fun invalid => ?_
  cases invalid with
  | some e => exact Triple.ret fun _ _ h => h
  | none =>
    refine wsLock_outline (Deriving.stable []) (hframe []) ?_
    refine Triple.perform
      (fun err w => w.wsMu i = some t ∧ Deriving t i (if err = none then [t] else []) w)
      (wsMu_stable.and (Deriving.stable [])) (fun w _ h => ⟨h.1, h.2.taken, h.2.users⟩) ?_
      fun err => ?_
    · intro w c r w' _ hw he _
      simp only [system, exec] at he
      split at he
      · cases he
        exact ⟨hw.1, hw.2⟩
      · split at he <;> cases he
        · exact ⟨hw.1, hw.2⟩
        · refine ⟨hw.1, ⟨hw.2.taken.holder, hw.2.taken.drained⟩, ?_, hw.2.late⟩
          simp only [Function.update_self, hw.2.users, if_true]
    cases err with
    | some e =>
      refine wsUnlock_outline (Deriving.stable []) (hframe []) ?_
      exact Triple.ret fun _ _ h => h
    | none =>
      refine Triple.perform (fun _ w => w.wsMu i = some t ∧ Deriving t i [] w)
        (wsMu_stable.and (Deriving.stable [t])) (fun w _ h => ⟨h.1, h.2.taken, h.2.users⟩) ?_
        fun _ => ?_
      · intro w c r w' _ hw he _
        cases he
        refine ⟨hw.1, ⟨hw.2.taken.holder, hw.2.taken.drained⟩, ?_, hw.2.late⟩
        have husers : w.users i = [t] := hw.2.users
        simp only [Function.update_self, husers, List.erase_cons_head]
      · refine wsUnlock_outline (Deriving.stable []) (hframe []) ?_
        exact Triple.ret fun _ _ h => h

lemma mu_stable : Stable strict t fun w => w.mu = some t := fun _ _ _ hr h => hr.mu.mpr h

lemma late_stable (p : Prop) : Stable strict t fun w => p → w.late t = false := by
  intro w w' _ hr h hp
  rw [hr.late]
  exact h hp

/-- Taking the pool's mutex. -/
lemma lock_outline
    (h : Outline strict t (fun w => w.mu = some t) (k ()) Q) :
    Outline strict t (fun _ => True) (perform .lock >>= k) Q := by
  refine Triple.perform (fun _ w => w.mu = some t) (Stable.const True)
    (fun _ _ _ => trivial) ?_ fun _ => h
  intro w c r w' _ hw he _
  simp only [system, exec] at he
  split at he <;> cases he
  rfl

lemma unlock_outline {F : World T → Prop}
    (hF : Stable strict t F) (hframe : ∀ w m, F w → F { w with mu := m })
    (h : Outline strict t F (k ()) Q) :
    Outline strict t (fun w => w.mu = some t ∧ F w) (perform .unlock >>= k) Q := by
  refine Triple.perform (fun _ w => F w) (mu_stable.and hF) (fun _ _ h => h.1) ?_
    fun _ => h
  intro w c r w' _ hw he _
  cases he
  exact hframe w _ hw.2

/-- A `Derive` that began after the pool was torn down has an error that wraps `ErrDestroyed`. -/
lemma deriveBody_outline :
    Outline strict t (fun _ => True) deriveBody fun err w =>
      w.late t = true → ∃ e, err = some e ∧ e.is .errDestroyed = true := by
  refine lock_outline ?_
  refine Triple.perform
    (fun done w => w.mu = some t ∧ (done = false → w.late t = false)) mu_stable (fun _ _ h => h)
    ?_ fun done => ?_
  · intro w c r w' hi hw he _
    cases he
    refine ⟨hw, fun hd => ?_⟩
    by_contra hl
    rw [Bool.not_eq_false] at hl
    have := (hi.torn (hi.late t hl)).1
    rw [hd] at this
    cases this
  refine unlock_outline (late_stable _) (fun _ _ h => h) ?_
  split
  · exact Triple.ret fun _ _ _ _ => ⟨_, rfl, rfl⟩
  next hdone =>
  rw [Bool.not_eq_true] at hdone
  refine Triple.perform
    (fun ws w => ws.elim True fun i => Deriving t i [] w) (late_stable _)
    (fun _ _ h => h hdone) ?_ fun ws => ?_
  · intro w c r w' hi hw he hi'
    simp only [system, exec] at he
    split at he
    next i free hfree =>
      cases he
      have hmem : i ∈ w.free := by
        rw [hfree]
        exact List.mem_cons_self
      obtain ⟨-, husers, hnotin⟩ := hi.free_idle hmem
      exact ⟨⟨Function.update_self _ _ _, hnotin⟩, husers, hw hdone⟩
    next =>
      split at he <;> cases he
      trivial
  cases ws with
  | none => exact Triple.ret fun _ _ _ _ => ⟨_, rfl, rfl⟩
  | some i =>
    refine Triple.seq wsDerive_outline fun err => ?_
    refine Triple.perform (fun _ w => True → w.late t = false) (Deriving.stable [])
      ?_ ?_ fun _ => ?_
    · intro w hi hw
      refine ⟨hw.taken, hw.users, ?_⟩
      by_contra hc
      rw [Bool.not_eq_false] at hc
      exact hw.taken.drained ((hi.closed hc).2 i (hi.held i t hw.taken.holder))
    · intro w c r w' _ hw he _
      simp only [system, exec] at he
      split at he
      · cases he
      · split at he <;> cases he
        exact fun _ => hw.late
    · refine Triple.ret fun w _ hw hl => ?_
      rw [hw trivial] at hl
      cases hl

lemma derive_outline : Outline strict t (fun _ => True) derive fun _ _ => True := by
  refine Triple.forget (Stable.const True) (fun _ _ _ => trivial) fun _ => ?_
  refine Triple.seq deriveBody_outline fun err => ?_
  refine Triple.forget ?_ (fun _ _ h => h) fun _ => Triple.done
  intro w w' _ hr h hl
  rw [hr.late] at hl
  exact h hl

end Derive

/-! ## Destroy -/

section Destroy

/-- `t` has set the flag and not closed the channel yet. -/
structure Draining (t : T) (all : List ℕ) (n : ℕ) (w : World T) : Prop where
  members : w.all = all
  setter : w.setter = some t
  closed : w.closed = false
  drained : w.drained.length = n

/-- `t` has taken every workspace back, and all of them but those in `rest` are destroyed. -/
structure Drained (t : T) (all rest : List ℕ) (w : World T) : Prop where
  members : w.all = all
  setter : w.setter = some t
  drained : ∀ i ∈ all, i ∈ w.drained
  destroyed : ∀ i ∈ all, i ∈ rest ∨ w.destroyed i = true

lemma Draining.stable (all : List ℕ) (n : ℕ) : Stable strict t (Draining t all n) := by
  intro w w' _ hr h
  obtain ⟨hs, hc, hd⟩ := hr.setter h.setter
  exact ⟨hr.all.trans h.members, hs, hc.trans h.closed, by rw [hd]; exact h.drained⟩

lemma Drained.stable (all rest : List ℕ) : Stable strict t (Drained t all rest) := by
  intro w w' _ hr h
  obtain ⟨hs, -, hd⟩ := hr.setter h.setter
  refine ⟨hr.all.trans h.members, hs, ?_, fun i hi => ?_⟩
  · rw [hd]
    exact h.drained
  · exact (h.destroyed i hi).imp_right (hr.destroyed i)

lemma drainAll_outline {all : List ℕ} (rest : List ℕ) (n : ℕ) :
    Outline strict t (Draining t all n) (drainAll rest)
      fun _ w => Draining t all (n + rest.length) w := by
  induction rest generalizing n with
  | nil => exact Triple.ret fun _ _ h => h
  | cons i rest ih =>
    refine Triple.perform (fun _ w => Draining t all (n + 1) w) (Draining.stable all n)
      (fun _ _ h => ⟨h.setter, h.closed⟩) ?_ fun _ => ?_
    · intro w c r w' _ hw he _
      simp only [system, exec] at he
      split at he
      · cases he
        refine ⟨hw.members, hw.setter, hw.closed, ?_⟩
        simp only [List.length_append, List.length_singleton, hw.drained]
      · rw [if_neg (by simp [hw.closed])] at he
        cases he
    · refine (ih (n + 1)).post fun _ w h => ?_
      rw [List.length_cons]
      rwa [Nat.add_assoc, Nat.add_comm 1] at h

omit [DecidableEq T] in
/-- Counting suffices: as many distinct workspaces as there are is all of them. -/
lemma Inv.all_drained {w : World T} (hi : Inv w) (hlen : w.drained.length = w.all.length) :
    ∀ i ∈ w.all, i ∈ w.drained := by
  have hsub : w.drained ⊆ w.all := by
    intro i hin
    obtain ⟨u, hu, -⟩ := hi.drained i hin
    exact hi.held i u hu
  have hperm : w.drained.Perm w.all :=
    (hi.drained_nodup.subperm hsub).perm_of_length_le hlen.ge
  exact fun i hin => hperm.mem_iff.mpr hin

lemma wsDestroy_outline {all rest : List ℕ} {i : ℕ} (hi : i ∈ all) :
    Outline strict t (Drained t all (i :: rest)) (wsDestroy i)
      fun _ w => Drained t all rest w := by
  have hframe (l : List ℕ) (w : World T) (m) (h : Drained t all l w) :
      Drained t all l { w with wsMu := m } := ⟨h.members, h.setter, h.drained, h.destroyed⟩
  refine wsLock_outline (Drained.stable all _) (hframe _) ?_
  refine Triple.perform (fun _ w => w.wsMu i = some t ∧ Drained t all rest w)
    (wsMu_stable.and (Drained.stable all _)) ?_ ?_ fun err => ?_
  · intro w hinv h
    have hd := h.2.drained i hi
    refine ⟨h.1, h.2.setter, hd, ?_⟩
    rcases hinv.users i with hu | ⟨u, -, -, hnot⟩
    · exact hu
    · exact absurd hd hnot
  · intro w c r w' _ hw he _
    cases he
    refine ⟨hw.1, hw.2.members, hw.2.setter, hw.2.drained, fun j hj => ?_⟩
    by_cases hji : j = i
    · subst hji
      exact .inr (Function.update_self _ _ _)
    · simp only [Function.update_of_ne hji]
      exact (hw.2.destroyed j hj).imp_left fun h => (List.mem_cons.mp h).resolve_left hji
  · refine wsUnlock_outline (Drained.stable all rest) (hframe rest) ?_
    exact Triple.ret fun _ _ h => h

lemma destroyAll_outline {all rest : List ℕ} (hsub : ∀ i ∈ rest, i ∈ all) (first : Option GoErr) :
    Outline strict t (Drained t all rest) (destroyAll rest first)
      fun _ w => Drained t all [] w := by
  induction rest generalizing first with
  | nil => exact Triple.ret fun _ _ h => h
  | cons i rest ih =>
    refine Triple.seq (wsDestroy_outline (hsub i List.mem_cons_self)) fun err => ?_
    exact ih (fun j hj => hsub j (List.mem_cons_of_mem _ hj)) _

lemma tearDown_outline {all : List ℕ} :
    Outline strict t (Draining t all 0) tearDown fun _ w => Drained t all [] w := by
  refine Triple.perform (fun l w => l = all ∧ Draining t all 0 w)
    (Draining.stable all 0) (fun _ _ _ => trivial) ?_ fun l => .given fun hl => ?_
  · intro w c r w' _ hw he _
    cases he
    exact ⟨hw.members, hw⟩
  subst hl
  refine Triple.seq (drainAll_outline l 0) fun _ => ?_
  have hall (w : World T) (hi : Inv w) (hw : Draining t l (0 + l.length) w) :
      ∀ i ∈ w.all, i ∈ w.drained := by
    refine hi.all_drained ?_
    rw [hw.drained, hw.members, Nat.zero_add]
  refine Triple.perform (fun _ w => Drained t l l w) (Draining.stable l _)
    (fun w hi hw => ⟨hw.setter, hw.closed, hall w hi hw⟩) ?_ fun _ =>
      destroyAll_outline (fun _ h => h) none
  intro w c r w' hi hw he hi'
  simp only [system, exec] at he
  split at he <;> cases he
  refine ⟨hw.members, hw.setter, fun i hin => ?_, fun i hin => .inl hin⟩
  exact hall w hi hw i (by rw [hw.members]; exact hin)

lemma destroy_outline : Outline strict t (fun _ => True) destroy fun _ _ => True := by
  refine lock_outline ?_
  refine Triple.perform
    (fun done w => w.mu = some t ∧ if done = true then strict = true → w.torn = true
      else w.done = false) mu_stable (fun _ _ h => h) ?_ fun done => ?_
  · intro w c r w' hi hw he hi'
    simp only [system, exec] at he
    split at he <;> cases he
    next hgo =>
      refine ⟨hw, ?_⟩
      split
      next hd =>
        intro hs
        by_contra ht
        exact hgo ⟨hs, hd, Bool.not_eq_true _ ▸ ht⟩
      next hd => exact Bool.not_eq_true _ ▸ hd
  cases done with
  | true =>
    have hF : Stable strict t fun w : World T => strict = true → w.torn = true :=
      fun _ _ _ hr h hs => hr.torn (h hs)
    refine unlock_outline hF (fun _ _ h => h) ?_
    exact Triple.forget hF (fun _ _ h => h) fun _ => Triple.done
  | false =>
    have hF : Stable strict t fun w : World T => w.mu = some t ∧ w.done = false := by
      intro w w' _ hr h
      refine ⟨hr.mu.mpr h.1, ?_⟩
      rw [hr.done h.1]
      exact h.2
    refine Triple.perform (fun _ w => ∃ all, w.mu = some t ∧ Draining t all 0 w) hF
      (fun _ _ h => h) ?_ fun _ => .exists fun all => ?_
    · intro w c r w' hi hw he hi'
      cases he
      have hnone : w.setter = none := by
        by_contra hne
        have := hi.done.mpr hne
        rw [hw.2] at this
        cases this
      refine ⟨w.all, hw.1, rfl, rfl, ?_, ?_⟩
      · by_contra hc
        rw [Bool.not_eq_false] at hc
        exact (hi.closed hc).1 hnone
      · simp only [hi.drained_eq_nil hnone, List.length_nil]
    refine unlock_outline (Draining.stable all 0)
      (fun _ _ h => ⟨h.members, h.setter, h.closed, h.drained⟩) ?_
    refine Triple.seq tearDown_outline fun err => ?_
    refine Triple.forget (Drained.stable all []) ?_ fun _ => Triple.done
    intro w hi hw
    refine ⟨hw.setter, hi.done.mpr (by rw [hw.setter]; simp), fun i hin => ?_⟩
    rw [hw.members] at hin
    exact ⟨hw.drained i hin, (hw.destroyed i hin).resolve_left (by simp)⟩

end Destroy

/-! ## Construction -/

/-- The pool with its first `n` workspaces. -/
def built (T : Type) (size n : ℕ) : World T :=
  { blank T size with all := List.range n, free := List.range n, made := n }

lemma newWorkspaces_run {size n i k m : ℕ} {w : World T} (hn : i + n = size)
    (h : (newWorkspaces size n i).run (system T strict) t pick k (built T size i) =
      .done (none, m) w) : w = built T size size := by
  induction n generalizing i k with
  | zero =>
    rw [newWorkspaces, Prog.pure_eq, Prog.run_ret] at h
    cases h
    rw [← hn, Nat.add_zero]
  | succ n ih =>
    rw [newWorkspaces, Prog.perform_bind, Prog.run_act] at h
    obtain ⟨ws, s, hws, h⟩ := Outcome.andThen_eq_done h
    simp only [system, exec] at hws
    split at hws
    · -- the constructor fails, and what it returns is an error
      cases hws
      rw [Prog.run_bind] at h
      obtain ⟨_, _, _, hret⟩ := Outcome.andThen_eq_done h
      cases hret
    · cases hws
      dsimp only at h
      rw [Prog.perform_bind, Prog.run_act] at h
      obtain ⟨_, s₁, hall, hrest⟩ := Outcome.andThen_eq_done h
      cases hall
      rw [Prog.perform_bind, Prog.run_act] at hrest
      obtain ⟨_, s₂, hsend, hrest'⟩ := Outcome.andThen_eq_done hrest
      simp only [system, exec, built, blank] at hsend
      rw [if_neg Bool.false_ne_true, if_pos (by rw [List.length_range]; omega)] at hsend
      cases hsend
      have hholder : Function.update (fun _ : ℕ => (none : Option T)) i none = fun _ => none :=
        Function.update_eq_self i _
      rw [hholder, ← List.range_succ] at hrest'
      exact ih (by omega) hrest'

lemma newArgon2Pool_eq {size : ℤ} {k m : ℕ} {w₀ : World T}
    (h : (newArgon2Pool size).run (system T strict) t pick k (blank T size.toNat) =
      .done (none, m) w₀) : w₀ = initial T size.toNat := by
  rw [newArgon2Pool] at h
  split at h
  · cases h
  · exact newWorkspaces_run (Nat.zero_add _) h

/-! ## Runs -/

omit [DecidableEq T] in
lemma initial_inv (size : ℕ) : Inv (initial T size) := by
  refine
    { all_nodup := List.nodup_range, free_nodup := List.nodup_range, free := ?_, held := ?_,
      drained_nodup := List.nodup_nil, drained := ?_, users := fun _ => .inl rfl, destroyed := ?_,
      closed := ?_, done := ?_, torn := ?_, late := ?_ } <;> simp [initial, blank]

lemma code_outline (c : Call) : Outline strict t (fun _ => True) (code c) fun _ _ => True := by
  have hret {β : Type} {p : PoolProg β}
      (h : Outline strict t (fun _ => True) p fun _ _ => True) :
      Outline strict t (fun _ => True) (do let _ ← p) fun _ _ => True :=
    Triple.seq h fun _ => Triple.done
  cases c with
  | derive => exact hret derive_outline
  | destroy => exact hret destroy_outline

/-- Every state of every run of a pool satisfies the invariant, and every action a goroutine is
about to perform is safe. -/
lemma Run.sound {size : ℤ} {k m : ℕ} {w₀ : World T}
    {p : Pool Act Res Call T (World T)}
    (hnew : (newArgon2Pool size).run (system T false) t pick k (blank T size.toNat) =
      .done (none, m) w₀) (h : Run strict w₀ p) :
    Inv p.state ∧ ∀ t i k, p.thread t = .act i k → Safe strict t i p.state := by
  refine Discipline.sound (D := discipline T strict) (fun _ c => code_outline c)
    (fun _ _ _ _ => trivial) ?_ h
  rintro w rfl
  rw [newArgon2Pool_eq hnew]
  exact initial_inv _

section Results

variable {size : ℤ} {k m : ℕ} {pick : ℕ → Choice} {w₀ : World T}
  {p : Pool Act Res Call T (World T)}

/-- The protocol of every pool `NewArgon2Pool` hands out, in every run of any goroutines that call
`Derive` and `Destroy`.  No workspace has two derivations in it, a workspace is destroyed only with
nobody in it, and stays unused after that.  Nothing is sent on the closed channel.  The `Destroy`
that set the flag returns only when it has taken every workspace back and destroyed it.  A `Derive`
that began after that does not wait for a workspace, and what it returns wraps `ErrDestroyed`. -/
theorem pool_protocol
    (hnew : (newArgon2Pool size).run (system T false) t pick k (blank T size.toNat) =
      .done (none, m) w₀) (hrun : Run false w₀ p) :
    (∀ i, (p.state.users i).length ≤ 1) ∧
    (∀ u i k, p.thread u = .act (.borrow i) k → p.state.users i = []) ∧
    (∀ u i k, p.thread u = .act (.destroyMem i) k → p.state.users i = []) ∧
    (∀ i, p.state.destroyed i = true → p.state.users i = []) ∧
    (∀ u i k, p.thread u = .act (.send i) k → p.state.closed = false) ∧
    (∀ u err k, p.thread u = .act (.destroyReturns true err) k → ∀ i ∈ p.state.all,
      i ∈ p.state.drained ∧ p.state.holder i = some u ∧ p.state.destroyed i = true) ∧
    (∀ u k, p.thread u = .act .recv k → p.state.late u = false) ∧
    (∀ u err k, p.thread u = .act (.deriveReturns err) k → p.state.late u = true →
      ∃ e, err = some e ∧ e.is .errDestroyed = true) := by
  obtain ⟨hi, hsafe⟩ := hrun.sound hnew
  have hidle (i : ℕ) (hd : i ∈ p.state.drained) : p.state.users i = [] := by
    rcases hi.users i with hu | ⟨u, -, -, hnot⟩
    · exact hu
    · exact absurd hd hnot
  refine ⟨fun i => ?_, fun u i k hact => ?_, fun u i k hact => ?_, fun i hd => ?_,
    fun u i k hact => ?_, fun u err k hact i hin => ?_, fun u k hact => hsafe u _ k hact,
    fun u err k hact => hsafe u _ k hact⟩
  · rcases hi.users i with hu | ⟨u, hu, -⟩ <;> simp [hu]
  · exact (hsafe u _ k hact).2.2
  · exact (hsafe u _ k hact).2.2.2
  · exact hidle i (hi.destroyed i hd)
  · exact (hsafe u _ k hact).2.2
  · obtain ⟨hset, -, hall⟩ : p.state.setter = some u ∧ p.state.done = true ∧
        ∀ i ∈ p.state.all, i ∈ p.state.drained ∧ p.state.destroyed i = true := hsafe u _ k hact
    obtain ⟨hdr, hdes⟩ := hall i hin
    obtain ⟨v, hv, hsv⟩ := hi.drained i hdr
    rw [hset] at hsv
    exact ⟨hdr, hv.trans hsv.symm, hdes⟩

/-- A pool of one workspace. -/
lemma newArgon2Pool_one : (newArgon2Pool 1).run (system (Fin 3) false) 0 (fun _ => none) 0
    (blank (Fin 3) 1) = .done (none, 3) (initial (Fin 3) 1) := by
  have hholder : Function.update (fun _ : ℕ => (none : Option (Fin 3))) 0 none = fun _ => none :=
    Function.update_eq_self 0 _
  have hrun : (newArgon2Pool 1).run (system (Fin 3) false) 0 (fun _ => none) 0
      (blank (Fin 3) 1) = .done (none, 3) { initial (Fin 3) 1 with
        holder := Function.update (fun _ => none) 0 none } := rfl
  rw [hrun, hholder]
  rfl

lemma onePool_run :
    Run (T := Fin 3) strict (initial (Fin 3) 1) ⟨initial (Fin 3) 1, fun _ => .ret ()⟩ :=
  Reachable.start ⟨rfl, fun _ => rfl⟩

/-- One goroutine has destroyed the pool, and another begins a `Derive`. -/
theorem pool_protocol_late : ∃ p : Pool Act Res Call (Fin 3) (World (Fin 3)),
    Pool.moves (system (Fin 3) false) (fun _ => true) ⟨initial (Fin 3) 1, fun _ => .ret ()⟩
      (.start 0 .destroy :: List.replicate 11 (.step 0 none) ++
        .start 1 .derive :: List.replicate 4 (.step 1 none)) = some p ∧
    p.state.late 1 = true ∧ p.state.destroyed 0 = true ∧
    ∃ err k, p.thread 1 = .act (.deriveReturns err) k ∧
      ∃ e, err = some e ∧ e.is .errDestroyed = true := by
  refine onePool_run.exists_moves (P := fun p => p.state.late 1 = true ∧
    p.state.destroyed 0 = true ∧ ∃ err k, p.thread 1 = .act (.deriveReturns err) k)
    ⟨_, rfl, rfl, rfl, _, _, rfl⟩ ?_
  rintro p hrun ⟨hlate, hdes, err, k, hk⟩
  have hall := pool_protocol newArgon2Pool_one hrun
  exact ⟨hlate, hdes, err, k, hk, hall.2.2.2.2.2.2.2 1 err k hk hlate⟩

/-! ## The mutex -/

/-- What an action has to do with the pool's mutex. -/
def useMu : Act → Use
  | .lock => .takes
  | .unlock => .gives
  | .readDone | .findDone | .setDone => .brief
  | _ => .other

@[simp] lemma follows_drainAll (all : List ℕ) {post : Unit → Bool → Prop} :
    (drainAll all).Follows (mutex useMu) post false ↔ post () false := by
  induction all with
  | nil => exact Iff.rfl
  | cons _ _ ih => simp [drainAll, ih, mutex, useMu]

lemma follows_destroyAll {all : List ℕ} {first : Option GoErr} {post : Option GoErr → Bool → Prop}
    (h : ∀ err, post err false) : (destroyAll all first).Follows (mutex useMu) post false := by
  induction all generalizing first with
  | nil => exact h first
  | cons _ _ ih => simp [destroyAll, wsDestroy, ih, mutex, useMu]

lemma guards : Guards (system T false) useMu World.mu where
  code c := by
    cases c with
    | derive => simp [system, code, derive, deriveBody, wsDerive, mutex, useMu, Option.forall]
    | destroy => simp [system, code, destroy, tearDown, follows_destroyAll, mutex, useMu]
  takes {t i c s r s'} hu he := by
    cases i <;> cases hu
    simp only [system, exec] at he
    split at he <;> cases he
    next hfree => exact ⟨hfree, rfl⟩
  gives {t i c s r s'} hu he := by
    cases i <;> cases hu
    cases he
    rfl
  leaves {t i c s r s'} hu he := by
    -- the two actions on the mutex have another use
    cases i <;> simp only [system, exec] at he <;> (repeat' split at he) <;> cases he <;>
      first | rfl | simp [useMu] at hu
  ready {i} hu t s := by
    cases i <;> simp [useMu] at hu <;> simp [system, exec]

/-- In every run of every pool the goroutine that has the mutex gives it back by steps of its own: a
late `Derive`, which waits for nothing else, gets to return. -/
lemma mu_given_back {u : T}
    (hnew : (newArgon2Pool size).run (system T false) t pick k (blank T size.toNat) =
      .done (none, m) w₀) (hrun : Run false w₀ p) (hu : p.state.mu = some u) :
    ∃ cs : List Choice, ∃ p',
      p.moves (system T false) (fun _ => true) (cs.map (.step u)) = some p' ∧
        p'.state.mu = none := by
  refine guards.gives_back ?_ hrun hu
  rintro w rfl
  rw [newArgon2Pool_eq hnew]
  rfl

/-! ## Every caller of `Destroy`

The second of two overlapping calls finds the flag set and returns while the first still waits for a
derivation. -/

/-- The pool is torn down: no derivation has a workspace, and all of them are destroyed. -/
def World.TornDown (w : World T) : Prop :=
  (∀ i, w.users i = []) ∧ (∀ i u, ¬Taken u i w) ∧ ∀ i ∈ w.all, w.destroyed i = true

/-- The move is not that of a `Destroy` which finds the flag set before the call that set it has
returned. -/
def InTurn (p : Pool Act Res Call T (World T)) : Move Call T Choice → Prop
  | .step t _ => (∃ k, p.thread t = .act .findDone k) → p.state.done = true → p.state.torn = true
  | _ => True

lemma move_strict {p' : Pool Act Res Call T (World T)} {m : Move Call T Choice} :
    p.move (system T true) (fun _ => true) m = some p' ↔
      p.move (system T false) (fun _ => true) m = some p' ∧ InTurn p m := by
  cases m with
  | start t c => exact (and_iff_left trivial).symm
  | fork t u => exact (and_iff_left trivial).symm
  | step t c =>
    simp only [Pool.move, InTurn]
    cases p.thread t with
    | ret _ => simp
    | fork _ _ => simp
    | act i k =>
      cases i
      case findDone =>
        simp only [system, exec]
        cases p.state.done <;> cases p.state.torn <;> simp
      all_goals
        refine (and_iff_left ?_).symm
        rintro ⟨_, h⟩
        cases h

/-- The strict runs are the runs of the pool all of whose moves are in turn. -/
lemma run_strict : Run true w₀ p ↔ Reachable (fun p => p.state = w₀ ∧ ∀ t, p.thread t = .ret ())
    (fun p p' => ∃ m, p.move (system T false) (fun _ => true) m = some p' ∧ InTurn p m) p := by
  simp only [Run, Pool.Run, move_strict]

/-- In every run in which a `Destroy` that finds the flag set comes after the return of the call
that set it, the pool is torn down whenever a `Destroy` returns. -/
theorem destroy_returns_tornDown
    (hnew : (newArgon2Pool size).run (system T false) t pick k (blank T size.toNat) =
      .done (none, m) w₀) (hrun : Run true w₀ p) :
    ∀ u won err k, p.thread u = .act (.destroyReturns won err) k → p.state.TornDown := by
  obtain ⟨hi, hsafe⟩ := hrun.sound hnew
  intro u won err k hact
  have hall : ∀ i ∈ p.state.all, i ∈ p.state.drained ∧ p.state.destroyed i = true := by
    have hs := hsafe u _ k hact
    simp only [Safe] at hs
    split at hs
    · exact hs.2.2
    · exact (hi.torn (hs trivial)).2
  have htaken (i : ℕ) (v : T) : ¬Taken v i p.state := fun htk =>
    htk.drained (hall i (hi.held i v htk.holder)).1
  refine ⟨fun i => ?_, htaken, fun i hin => (hall i hin).2⟩
  rcases hi.users i with hu | ⟨v, -, hv, hnot⟩
  · exact hu
  · exact absurd ⟨hv, hnot⟩ (htaken i v)

/-- A `Destroy` after another one has returned. -/
theorem destroy_returns_tornDown_again : ∃ p : Pool Act Res Call (Fin 3) (World (Fin 3)),
    Pool.moves (system (Fin 3) true) (fun _ => true) ⟨initial (Fin 3) 1, fun _ => .ret ()⟩
      (.start 0 .destroy :: List.replicate 11 (.step 0 none) ++
        .start 1 .destroy :: List.replicate 3 (.step 1 none)) = some p ∧
    (∃ k, p.thread 1 = .act (.destroyReturns false none) k) ∧ p.state.TornDown := by
  refine onePool_run.exists_moves
    (P := fun p => ∃ k, p.thread 1 = .act (.destroyReturns false none) k) ⟨_, rfl, _, rfl⟩ ?_
  rintro p hrun ⟨k, hk⟩
  exact ⟨⟨k, hk⟩, destroy_returns_tornDown newArgon2Pool_one hrun 1 false none k hk⟩

/-- Goroutine 0 is inside a derivation and goroutine 1's `Destroy` waits for it; goroutine 2's
`Destroy` is about to return. -/
theorem destroy_returns_early : ∃ p : Pool Act Res Call (Fin 3) (World (Fin 3)),
    Run false (initial (Fin 3) 1) p ∧
    (∃ k, p.thread 2 = .act (.destroyReturns false none) k) ∧
    p.state.users 0 = [0] ∧ p.state.destroyed 0 = false ∧ ¬p.state.TornDown := by
  have hrun : ∃ p : Pool Act Res Call (Fin 3) (World (Fin 3)),
      Pool.moves (system (Fin 3) false) (fun _ => true) ⟨initial (Fin 3) 1, fun _ => .ret ()⟩
        (.start 0 .derive :: List.replicate 8 (.step 0 none) ++
          .start 1 .destroy :: List.replicate 5 (.step 1 none) ++
          .start 2 .destroy :: List.replicate 3 (.step 2 none)) = some p ∧
      (∃ k, p.thread 2 = .act (.destroyReturns false none) k) ∧
      p.state.users 0 = [0] ∧ p.state.destroyed 0 = false := ⟨_, rfl, ⟨_, rfl⟩, rfl, rfl⟩
  obtain ⟨p, hp, hk, husers, hdes⟩ := hrun
  refine ⟨p, onePool_run.moves hp, hk, husers, hdes, fun h => ?_⟩
  have := h.1 0
  rw [husers] at this
  cases this

end Results

end Secmem.Argon2Pool
