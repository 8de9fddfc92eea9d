import Secmem.Quarantine.Discipline

/-!
# The quarantine's accounts

In every run, whenever the lock is free the byte count is the sum of the held lengths and the
limits hold; the queue is first in, first out; and each retired range has exactly one place and is
handed to unmap at most once.  The trim loop is where the accounts are made right again: it stops
at the first entry from which on the queue is within the limits.
-/

namespace Secmem.Quarantine

open Discipline

variable {T : Type} [DecidableEq T] {P : Platform} {t : T} {α : Type} {Q : α → World T → Prop}
  {l : QuarantineLimits}

/-- A triple about a program of the quarantine, run by goroutine `t`. -/
abbrev Outline (P : Platform) (t : T) (F : World T → Prop) (p : QProg α)
    (Q : α → World T → Prop) : Prop :=
  (discipline T P).Triple (fun _ _ => True) t F p Q

abbrev Stable (P : Platform) (t : T) (F : World T → Prop) : Prop := (discipline T P).Stable t F

/-! ## Assertions -/

/-- `t` has the lock, and these are the contents of the queue. -/
structure Own (t : T) (l : QuarantineLimits) (held : List Outer) (bytes : ℕ) (w : World T) :
    Prop where
  mu : w.mu = some t
  limits : w.limits = l
  held : w.held = held
  bytes : w.bytes = bytes

omit [DecidableEq T] in
/-- The ranges in `t`'s hands. -/
def Has (t : T) (os : List Outer) (w : World T) : Prop := ∀ o ∈ os, w.owner o = some t

/-- A range that `t` is retiring and has not queued yet. -/
def Retiring (t : T) (o : Outer) (w : World T) : Prop := w.owner o = some t ∧ o ∉ w.entered

lemma Own.stable (l : QuarantineLimits) (held : List Outer) (bytes : ℕ) :
    Stable P t (Own t l held bytes) := by
  intro w w' _ hr h
  obtain ⟨hl, hh, hb⟩ := hr.queue h.mu
  exact ⟨hr.mu.mpr h.mu, hl.trans h.limits, hh.trans h.held, hb.trans h.bytes⟩

lemma Has.stable (os : List Outer) : Stable P t (Has t os) :=
  fun _ _ _ hr h o ho => (hr.owner o).mpr (h o ho)

lemma Retiring.stable (o : Outer) : Stable P t (Retiring t o) :=
  fun _ _ _ hr h => ⟨(hr.owner o).mpr h.1, fun hent => h.2 ((hr.entered o h.1).mp hent)⟩

/-! ## Single steps -/

section Steps

variable {held : List Outer} {bytes : ℕ} {F : World T → Prop}
  {k : Unit → QProg α}

lemma lock_outline (hF : Stable P t F)
    (hframe : ∀ w, F w → F { w with mu := some t })
    (h : ∀ l held bytes, 0 ≤ l.regions → Accounts l held bytes →
      Outline P t (fun w => Own t l held bytes w ∧ F w) (k ()) Q) :
    Outline P t F (perform .lock >>= k) Q := by
  refine Triple.perform (fun _ w => ∃ l held bytes,
    (0 ≤ l.regions ∧ Accounts l held bytes) ∧ Own t l held bytes w ∧ F w) hF
    (fun _ _ _ => trivial) ?_ ?_
  · intro w c r w' hi hw he hi'
    simp only [system, exec] at he
    split at he <;> cases he
    next hmu => exact ⟨_, _, _, ⟨hi.regions, hi.accounts hmu⟩, ⟨rfl, rfl, rfl, rfl⟩, hframe w hw⟩
  · exact fun _ => .exists fun l => .exists fun held => .exists fun bytes =>
      .given fun hok => h l held bytes hok.1 hok.2

lemma unlock_outline (hF : Stable P t F)
    (hframe : ∀ w, F w → F { w with mu := none }) (hok : Accounts l held bytes)
    (h : Outline P t F (k ()) Q) :
    Outline P t (fun w => Own t l held bytes w ∧ F w) (perform .unlock >>= k) Q := by
  refine Triple.perform (fun _ w => F w) ((Own.stable l held bytes).and hF) ?_ ?_
    fun _ => h
  · rintro w _ ⟨hw, -⟩
    refine ⟨hw.mu, ?_⟩
    rw [hw.limits, hw.held, hw.bytes]
    exact hok
  · intro w c r w' _ hw he _
    cases he
    exact hframe w hw.2

/-- A read of what the lock guards. -/
lemma read_outline {i : Act} {k : Res i → QProg α} {v : World T → Res i} {x : Res i}
    (hF : Stable P t F) (hsafe : ∀ w : World T, w.mu = some t → Safe t i w)
    (hexec : ∀ c (w : World T), exec P t i c w = .done (v w) w)
    (hv : ∀ w, Own t l held bytes w → v w = x)
    (h : Outline P t (fun w => Own t l held bytes w ∧ F w) (k x) Q) :
    Outline P t (fun w => Own t l held bytes w ∧ F w) (perform i >>= k) Q := by
  refine Triple.perform (fun r w => r = x ∧ Own t l held bytes w ∧ F w)
    ((Own.stable l held bytes).and hF) (fun w _ hw => hsafe w hw.1.mu) ?_
    fun r => .given fun hr => hr ▸ h
  intro w c r w' _ hw he _
  simp only [system, hexec] at he
  cases he
  exact ⟨hv w hw.1, hw⟩

lemma writeBytes_outline {b : ℕ} (hF : Stable P t F)
    (hframe : ∀ w b, F w → F { w with bytes := b })
    (h : Outline P t (fun w => Own t l held b w ∧ F w) (k ()) Q) :
    Outline P t (fun w => Own t l held bytes w ∧ F w) (perform (.writeBytes b) >>= k) Q := by
  refine Triple.perform (fun _ w => Own t l held b w ∧ F w)
    ((Own.stable l held bytes).and hF) (fun w _ hw => hw.1.mu) ?_ fun _ => h
  intro w c r w' _ hw he _
  cases he
  exact ⟨⟨hw.1.mu, hw.1.limits, hw.1.held, rfl⟩, hframe w b hw.2⟩

end Steps

/-! ## The trim loop -/

/-- The limits hold from entry `n` of the queue on. -/
structure Trimmed (l : QuarantineLimits) (held : List Outer) (n : ℕ) : Prop where
  le : n ≤ held.length
  regions : ((held.drop n).length : ℤ) ≤ l.regions
  within : total (held.drop n) ≤ l.bytes

/-- The loop, from an entry on, with the byte count of the entries from there. -/
lemma trimFrom_outline {held rest : List Outer} {n : ℕ}
    (hreg : 0 ≤ l.regions) (hlt : total held < 2 ^ 64) (hrest : held.drop n = rest)
    (hn : n ≤ held.length) :
    Outline P t (Own t l held (total rest)) (trimFrom rest n)
      fun n' w => Trimmed l held n' ∧ Own t l held (total (held.drop n')) w := by
  induction rest generalizing n with
  | nil =>
    refine Triple.ret fun w _ hw => ⟨⟨hn, ?_, ?_⟩, ?_⟩
    · rw [hrest]
      exact hreg
    · rw [hrest]
      exact Nat.zero_le _
    · rw [hrest]
      exact hw
  | cons o rest ih =>
    have hlen : rest.length + 1 = held.length - n := by
      rw [← List.length_drop, hrest, List.length_cons]
    have htail : held.drop (n + 1) = rest := by
      rw [← List.drop_drop, hrest, List.drop_one, List.tail_cons]
    have hle : o.len + total rest ≤ total held := by
      have hsplit : total held = total (held.take n) + total (held.drop n) := by
        rw [← total_append, List.take_append_drop]
      rw [hsplit, hrest, total_cons]
      omega
    have hF : Stable P t fun _ => True := Stable.const True
    refine Triple.pre (P := fun w => Own t l held (total (o :: rest)) w ∧ True)
      ?_ fun _ _ hw => ⟨hw, trivial⟩
    refine read_outline hF (fun _ h => h) (fun _ _ => rfl) (fun w hw => hw.limits) ?_
    refine read_outline hF (fun _ h => h) (fun _ _ => rfl) (fun w hw => hw.bytes) ?_
    split
    · refine writeBytes_outline hF (fun _ _ h => h) ?_
      rw [total_cons, sub64_eq (by omega) (by omega), Nat.add_sub_cancel_left]
      exact (ih htail (by omega)).pre fun _ _ hw => hw.1
    · next hstop =>
      simp only [not_or, not_lt] at hstop
      refine Triple.ret fun w _ hw => ⟨⟨hn, ?_, ?_⟩, ?_⟩
      · rw [hrest]
        exact hstop.1
      · rw [hrest]
        exact hstop.2
      · rw [hrest]
        exact hw.1

/-- `trimLocked` brings the queue within its limits and leaves the evicted ranges in the caller's
hands. -/
lemma trimLocked_outline {held : List Outer} (hreg : 0 ≤ l.regions) :
    Outline P t (Own t l held (total held)) trimLocked fun evicted w =>
      evicted.Nodup ∧ Has t evicted w ∧
        ∃ held' bytes, Accounts l held' bytes ∧ Own t l held' bytes w := by
  have hF : Stable P t fun _ => True := Stable.const True
  refine Triple.because (φ := total held < 2 ^ 64 ∧ held.Nodup) ?_ fun ⟨hlt, hnd⟩ => ?_
  · intro w hi hw
    rw [← hw.held]
    exact ⟨hi.total_held_lt, hi.held_nodup⟩
  refine Triple.pre (P := fun w => Own t l held (total held) w ∧ True)
    ?_ fun _ _ hw => ⟨hw, trivial⟩
  refine read_outline hF (fun _ h => h) (fun _ _ => rfl) (fun w hw => hw.held) ?_
  refine Triple.seq (M := fun n w => Trimmed l held n ∧ Own t l held (total (held.drop n)) w)
    ((trimFrom_outline hreg hlt rfl (Nat.zero_le _)).pre fun _ _ hw => hw.1) ?_
  refine fun n => .given fun htrim => ?_
  split
  · next hzero =>
    subst hzero
    refine Triple.ret fun w _ hw => ?_
    refine ⟨List.nodup_nil, by simp [Has], held, _, ⟨rfl, ?_, ?_⟩, hw⟩
    · exact htrim.regions
    · exact htrim.within
  · refine Triple.perform
      (fun _ w => Has t (held.take n) w ∧ Own t l (held.drop n) (total (held.drop n)) w)
      (Own.stable _ _ _) (fun _ _ hw => hw.mu) ?_ fun _ => Triple.ret fun w _ hw => ?_
    · intro w c r w' _ hw he _
      cases he
      refine ⟨fun o ho => ?_, hw.mu, hw.limits, ?_, hw.bytes⟩
      · rw [hw.held]
        exact if_pos ho
      · rw [copyDown_eq, hw.held]
    · exact ⟨hnd.sublist (List.take_sublist n held), hw.1, _, _,
        ⟨rfl, htrim.regions, htrim.within⟩, hw.2⟩

/-! ## Unmapping -/

lemma unmap_outline {o : Outer} {os : List Outer} (hnd : (o :: os).Nodup)
    {k : Option GoErr → QProg α}
    (h : ∀ err, Outline P t (Has t os) (k err) Q) :
    Outline P t (Has t (o :: os)) (perform (.unmap o) >>= k) Q := by
  refine Triple.perform (fun _ w => Has t os w) (Has.stable _)
    (fun w _ hw => hw o List.mem_cons_self) ?_ h
  intro w c r w' _ hw he _
  cases he
  intro o' ho'
  have hne : o' ≠ o := by
    rintro rfl
    exact (List.nodup_cons.mp hnd).1 ho'
  simp only [Function.update_of_ne hne]
  exact hw o' (List.mem_cons_of_mem _ ho')

lemma releaseAll_outline {os : List Outer} (hnd : os.Nodup) (first : Option GoErr) :
    Outline P t (Has t os) (releaseAll os first) fun _ _ => True := by
  induction os generalizing first with
  | nil => exact Triple.done
  | cons o os ih => exact unmap_outline hnd fun err => ih (List.nodup_cons.mp hnd).2 _

lemma freeSecretMem_outline (o : Outer) :
    Outline P t (Retiring t o) (freeSecretMem o) fun _ _ => True := by
  rw [freeSecretMem]
  split
  · exact Triple.done
  · exact Triple.last (Retiring.stable o) (fun _ _ hw => hw.1)
      fun _ _ _ _ _ _ _ _ => trivial

/-- What the trim is for: afterwards the lock can be given back. -/
lemma trim_outline {held : List Outer} (hreg : 0 ≤ l.regions)
    {k : List Outer → QProg α}
    (hk : ∀ evicted : List Outer, evicted.Nodup → Outline P t (Has t evicted) (k evicted) Q) :
    Outline P t (Own t l held (total held))
      (do
        let evicted ← trimLocked
        perform .unlock
        k evicted) Q := by
  refine Triple.seq (trimLocked_outline hreg) fun evicted => .given fun hnd => ?_
  refine Triple.pre (P := fun w => ∃ held' bytes, Accounts l held' bytes ∧
    Own t l held' bytes w ∧ Has t evicted w) ?_ ?_
  · refine .exists fun held' => .exists fun bytes => .given fun hok => ?_
    exact unlock_outline (Has.stable _) (fun _ h => h) hok (hk evicted hnd)
  · rintro w _ ⟨hhas, held', bytes, hok, hown⟩
    exact ⟨held', bytes, hok, hown, hhas⟩

/-! ## The calls -/

lemma enqueue_outline (o : Outer) :
    Outline P t (Retiring t o) (enqueue o) fun _ _ => True := by
  refine lock_outline (Retiring.stable o) (fun _ h => h) fun l held bytes hreg hok => ?_
  refine Triple.perform (fun _ w => Own t l (held ++ [o]) bytes w)
    ((Own.stable l held bytes).and (Retiring.stable o)) (fun w _ hw => ⟨hw.1.mu, hw.2⟩) ?_
    fun _ => ?_
  · intro w c r w' _ hw he _
    cases he
    exact ⟨hw.1.mu, hw.1.limits, by rw [hw.1.held], hw.1.bytes⟩
  have hF : Stable P t fun _ => True := Stable.const True
  refine Triple.because (φ := total (held ++ [o]) < 2 ^ 64) ?_ fun hlt => ?_
  · intro w hi hw
    rw [← hw.held]
    exact hi.total_held_lt
  refine Triple.pre (P := fun w => Own t l (held ++ [o]) bytes w ∧ True)
    ?_ fun _ _ hw => ⟨hw, trivial⟩
  refine read_outline hF (fun _ h => h) (fun _ _ => rfl) (fun w hw => hw.bytes) ?_
  refine writeBytes_outline hF (fun _ _ h => h) ?_
  have hsum : add64 bytes o.len = total (held ++ [o]) := by
    simp only [total_append, total_cons, total_nil, Nat.add_zero] at hlt ⊢
    rw [hok.bytes_eq, add64_eq hlt]
  rw [hsum]
  refine Triple.pre ?_ fun _ _ hw => hw.1
  exact trim_outline hreg fun evicted hnd => releaseAll_outline hnd none

/-- Reading the limits under the lock. -/
lemma readLimits_outline {F : World T → Prop} {k : QuarantineLimits → QProg α}
    (hF : Stable P t F) (hframe : ∀ w m, F w → F { w with mu := m })
    (h : ∀ l, Outline P t F (k l) Q) :
    Outline P t F
      (do
        perform .lock
        let limits : QuarantineLimits ← perform .readLimits
        perform .unlock
        k limits) Q := by
  refine lock_outline hF (fun w hw => hframe w _ hw) fun l held bytes _ hok => ?_
  refine read_outline hF (fun _ h => h) (fun _ _ => rfl) (fun w hw => hw.limits) ?_
  exact unlock_outline hF (fun w hw => hframe w _ hw) hok (h l)

lemma retireSecretMem_outline (base len : ℕ) :
    Outline P t (fun _ => True) (retireSecretMem P base len) fun _ _ => True := by
  refine Triple.perform (fun o w => Retiring t o w) (Stable.const True)
    (fun _ _ _ => trivial) ?_ fun o => ?_
  · intro w c r w' hi _ he hi'
    simp only [system, exec] at he
    split at he <;> cases he
    refine ⟨Function.update_self _ _ _, fun hent => ?_⟩
    exact hi.next_not_mem (hi.entered _ hent).1
  split
  · exact freeSecretMem_outline o
  refine readLimits_outline (Retiring.stable o) (fun _ _ h => h) fun l => ?_
  split
  · exact freeSecretMem_outline o
  refine Triple.perform
    (fun err w => err = none ∨ P.quarantineFailureKeepsRange = true → Retiring t o w)
    (Retiring.stable o) (fun _ _ h => h) ?_ fun err => ?_
  · intro w c err w' _ hw he hi'
    simp only [system, exec] at he
    split at he
    · cases he
      exact fun _ => hw
    · split at he <;> cases he
      · exact fun _ => hw
      · next hkeeps => exact fun h => absurd (h.resolve_left (by simp)) hkeeps
  cases err with
  | none => exact (enqueue_outline o).pre fun _ _ hw => hw (.inl rfl)
  | some e =>
    dsimp only
    split
    · exact Triple.done
    · next hkeeps =>
      rw [Bool.not_eq_false] at hkeeps
      exact (freeSecretMem_outline o).pre fun _ _ hw => hw (.inr hkeeps)

lemma setQuarantineLimits_outline (l : QuarantineLimits) :
    Outline P t (fun _ => True) (setQuarantineLimits l) fun _ _ => True := by
  have hF : Stable P t fun _ => True := Stable.const True
  rw [setQuarantineLimits]
  set l' : QuarantineLimits := if l.regions < 0 then { l with regions := 0 } else l with hl'
  have hreg : 0 ≤ l'.regions := by
    rw [hl']
    split
    · exact le_rfl
    · next h => exact not_lt.mp h
  refine lock_outline hF (fun _ h => h) fun l₀ held bytes _ hok => ?_
  refine read_outline hF (fun _ h => h) (fun _ _ => rfl) (fun w hw => hw.limits) ?_
  refine Triple.perform (fun _ w => Own t l' held (total held) w)
    ((Own.stable l₀ held bytes).and hF) (fun w _ hw => ⟨hw.1.mu, hreg⟩) ?_ fun _ => ?_
  · intro w c r w' _ hw he _
    cases he
    exact ⟨hw.1.mu, rfl, hw.1.held, hw.1.bytes.trans hok.bytes_eq⟩
  refine trim_outline hreg fun evicted hnd => ?_
  exact Triple.seq (releaseAll_outline hnd none) fun _ =>
    Triple.done

lemma quarantineInForce_outline :
    Outline P t (fun _ => True) (quarantineInForce P) fun _ _ => True := by
  rw [quarantineInForce]
  split
  · exact Triple.done
  · exact readLimits_outline (Stable.const True) (fun _ _ h => h) fun _ =>
      Triple.done

lemma code_outline (c : Call) : Outline P t (fun _ => True) (code P c) fun _ _ => True := by
  have hret {β : Type} {p : QProg β}
      (h : Outline P t (fun _ => True) p fun _ _ => True) :
      Outline P t (fun _ => True) (do let _ ← p) fun _ _ => True :=
    Triple.seq h fun _ => Triple.done
  cases c with
  | retireSecretMem base len => exact hret (retireSecretMem_outline base len)
  | setQuarantineLimits l => exact hret (setQuarantineLimits_outline l)
  | quarantineInForce => exact hret quarantineInForce_outline

/-! ## Runs -/

omit [DecidableEq T] in
lemma initial_inv (wide : Bool) : Inv (initial T wide) := by
  have hreg : 0 ≤ (defaultQuarantineLimits wide).regions := by cases wide <;> decide
  refine
    { accounts := fun _ => ⟨rfl, hreg, Nat.zero_le _⟩, regions := hreg, numbers := ?_, fifo := rfl,
      nodup := List.nodup_nil, entered := ?_, held := ?_, unmaps := List.nodup_nil,
      unmapped := ?_, left := ?_, owned := ?_, inSpace := ?_, apart := ?_ } <;>
    simp [initial, World.InUse]

lemma Run.sound {wide : Bool} {p : Pool Act Res Call T (World T)} (h : Run P wide p) :
    Inv p.state := by
  refine (Discipline.sound (D := discipline T P) (fun _ c => code_outline c)
    (fun _ _ _ _ => trivial) ?_ h).1
  rintro w rfl
  exact initial_inv wide

/-- Where a retired range can be. -/
inductive Place
  | notQueued
  | held
  | evicted
  | unmapped
  | leftAsItIs
  deriving DecidableEq, Repr

/-- What the queue and the logs say about the place of a range. -/
def World.At (w : World T) (o : Outer) : Place → Prop
  | .notQueued => o ∉ w.entered ∧ o ∉ w.unmaps ∧ o ∉ w.keptAsIs
  | .held => o ∈ w.held
  | .evicted => o ∈ w.departed ∧ o ∉ w.unmaps
  | .unmapped => o ∈ w.unmaps
  | .leftAsItIs => o ∈ w.keptAsIs

omit [DecidableEq T] in
lemma Inv.place {w : World T} (hi : Inv w) (o : Outer) : ∃! x, w.At o x := by
  have hent : o ∈ w.entered ↔ o ∈ w.departed ∨ o ∈ w.held := by rw [hi.fifo, List.mem_append]
  have hdh : o ∈ w.departed → o ∉ w.held := by
    intro hd hh
    have hnd := hi.nodup
    rw [hi.fifo] at hnd
    exact (List.nodup_append.mp hnd).2.2 o hd o hh rfl
  have hheld := hi.held o
  have hleft : o ∈ w.entered → o ∉ w.keptAsIs := fun h => (hi.entered o h).2
  have hun : o ∈ w.unmaps → o ∉ w.keptAsIs := fun h => (hi.unmapped o h).2
  have hunique (x : Place) (hx : w.At o x) (hother : ∀ y, w.At o y → y = x) : ∃! x, w.At o x :=
    ⟨x, hx, hother⟩
  by_cases hu : o ∈ w.unmaps
  · refine hunique .unmapped hu fun y hy => ?_
    cases y <;> simp only [World.At] at hy ⊢ <;> tauto
  by_cases hk : o ∈ w.keptAsIs
  · refine hunique .leftAsItIs hk fun y hy => ?_
    cases y <;> simp only [World.At] at hy ⊢ <;> tauto
  by_cases hd : o ∈ w.departed
  · refine hunique .evicted ⟨hd, hu⟩ fun y hy => ?_
    cases y <;> simp only [World.At] at hy ⊢ <;> tauto
  by_cases hh : o ∈ w.held
  · refine hunique .held hh fun y hy => ?_
    cases y <;> simp only [World.At] at hy ⊢ <;> tauto
  · refine hunique .notQueued ⟨by tauto, hu, hk⟩ fun y hy => ?_
    cases y <;> simp only [World.At] at hy ⊢ <;> tauto

/-- The quarantine in every run, on every platform, with any limits set at any time and whatever
calls to the platform fail.  Whenever the lock is free the byte count is the sum of the held
lengths, as a number and not only modulo `2^64`, and neither limit is exceeded.  What left the queue
is what entered it first, in the same order.  Each retired range has exactly one place, and it is
handed to unmap at most once. -/
theorem quarantine_accounts {wide : Bool} {p : Pool Act Res Call T (World T)}
    (hrun : Run P wide p) :
    (p.state.mu = none →
      p.state.bytes = (p.state.held.map Outer.len).sum ∧
      (p.state.held.length : ℤ) ≤ p.state.limits.regions ∧
      p.state.bytes ≤ p.state.limits.bytes) ∧
    p.state.entered = p.state.departed ++ p.state.held ∧ p.state.entered.Nodup ∧
    (∀ o ∈ p.state.retired, ∃! x, p.state.At o x) ∧
    p.state.unmaps.Nodup := by
  have hi := hrun.sound
  refine ⟨fun hmu => ?_, hi.fifo, hi.nodup, fun o _ => hi.place o, hi.unmaps⟩
  have hok := hi.accounts hmu
  exact ⟨hok.bytes_eq, hok.regions, hok.within⟩

/-- Two retirements and a limit of one region: the first range has been evicted and not unmapped
yet, the second is held. -/
theorem quarantine_accounts_shrunk :
    ∃ p : Pool Act Res Call (Fin 2) (World (Fin 2)),
      Pool.moves (system (Fin 2) ⟨true, false⟩) (fun _ => true)
        ⟨initial (Fin 2) true, fun _ => .ret ()⟩
        (.start 0 (.retireSecretMem 4096 4096) :: List.replicate 13 (.step 0 none) ++
          .start 0 (.retireSecretMem 8192 4096) :: List.replicate 13 (.step 0 none) ++
          .start 1 (.setQuarantineLimits ⟨1, 65536⟩) :: List.replicate 11 (.step 1 none)) =
        some p ∧
      p.state.held = [⟨1, 8192, 4096⟩] ∧ p.state.bytes = 4096 ∧
      ∃! x, p.state.At ⟨0, 4096, 4096⟩ x := by
  have hstart : Run (T := Fin 2) ⟨true, false⟩ true ⟨initial (Fin 2) true, fun _ => .ret ()⟩ :=
    Reachable.start ⟨rfl, fun _ => rfl⟩
  refine hstart.exists_moves (P := fun p => p.state.held = [⟨1, 8192, 4096⟩] ∧
    p.state.bytes = 4096 ∧ p.state.retired = [⟨0, 4096, 4096⟩, ⟨1, 8192, 4096⟩])
    ⟨_, rfl, rfl, rfl, rfl⟩ ?_
  rintro p hrun ⟨hheld, hbytes, hret⟩
  refine ⟨hheld, hbytes, (quarantine_accounts hrun).2.2.2.1 _ ?_⟩
  rw [hret]
  exact List.mem_cons_self

end Secmem.Quarantine
