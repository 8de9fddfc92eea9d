import Secmem.Arena.Keeps

/-!
# Proof outlines of the arena's methods

Each method is shown to perform only safe actions, whatever the other goroutines do meanwhile.
The assertions between its statements are few: `Own` while it holds `alloc`, `Excl` while it
holds the region lock, `Claimed` and `Borrowed` for a handle it is working on.
-/

namespace Secmem.Arena

open Discipline

variable {T : Type} [DecidableEq T] {a : Shape} {pattern : ℕ → UInt8} {t : T} {α : Type}
  {k : Unit → ArenaProg α}

/-- A triple about one of the arena's programs. -/
abbrev Outline (a : Shape) (pattern : ℕ → UInt8) (t : T) (P : World T → Prop)
    (p : ArenaProg α) (Q : α → World T → Prop) : Prop :=
  (discipline T a pattern).Triple (fun _ _ => True) t P p Q

/-- An assertion the other goroutines cannot invalidate. -/
abbrev Stable (a : Shape) (pattern : ℕ → UInt8) (t : T) (P : World T → Prop) : Prop :=
  (discipline T a pattern).Stable t P

/-- An action that only looks at the state. -/
lemma load_outline {i : Act} {k : Res i → ArenaProg α} {P : World T → Prop}
    {Q : α → World T → Prop} (v : World T → Res i) (hP : Stable a pattern t P)
    (hexec : ∀ c (w : World T), exec a pattern t i c w = .done (v w) w)
    (hsafe : ∀ w, P w → Safe a t i w)
    (h : ∀ r, Outline a pattern t (fun w => P w ∧ r = v w) (k r) Q) :
    Outline a pattern t P (perform i >>= k) Q := by
  refine Triple.perform (fun r w => P w ∧ r = v w) hP (fun w _ hw => hsafe w hw) ?_ h
  intro w c r w' _ hw he _
  simp only [system, hexec] at he
  cases he
  exact ⟨hw, rfl⟩

/-! ## Holding `alloc` -/

/-- `t` holds `alloc`, the queue is `q`, and `l` is what is free. -/
structure Own (a : Shape) (t : T) (q : Queue) (l : List ℕ) (w : World T) : Prop where
  alloc : w.alloc = some t
  queue : w.queue = q
  mem_iff : ∀ i, i ∈ l ↔ i < a.count ∧ w.isFree i

lemma Own.stable (q : Queue) (l : List ℕ) : Stable a pattern t (Own a t q l) := by
  intro w w' _ hr hw
  obtain ⟨hal, hq, hf⟩ := hr.alloc hw.alloc
  exact ⟨hal, hq.trans hw.queue, fun i => (hw.mem_iff i).trans (and_congr_right fun _ =>
    (hf i).symm)⟩

section Queue

variable {q : Queue} {l : List ℕ} {F : World T → Prop} {Q : α → World T → Prop}

/-- Taking the mutex: the queue is what the invariant says it is. -/
lemma allocLock_outline (hF : Stable a pattern t F)
    (hframe : ∀ w, F w → F { w with alloc := some t })
    (h : ∀ q l, Chain a q (fun i => i ∈ l) l →
      Outline a pattern t (fun w => Own a t q l w ∧ F w) (k ()) Q) :
    Outline a pattern t F (perform .allocLock >>= k) Q := by
  refine Triple.perform
    (fun _ w => ∃ q l, Chain a q (fun i => i ∈ l) l ∧ Own a t q l w ∧ F w) hF
    (fun _ _ _ => trivial) ?_ ?_
  · intro w c r w' hi hw he hi'
    simp only [system, exec] at he
    split at he <;> cases he
    next hal =>
      obtain ⟨l, hl⟩ := hi.chain hal
      have hlt : ∀ i ∈ l, i < a.count := fun i hil => ((hl.mem_iff i).mp hil).1
      exact ⟨w.queue, l, { hl with mem_iff := fun i => ⟨fun h => ⟨hlt i h, h⟩, fun h => h.2⟩ },
        ⟨rfl, rfl, hl.mem_iff⟩, hframe w hw⟩
  · exact fun _ => .exists fun q => .exists fun l => .given (h q l)

/-- An access to the queue, which reads it, writes it, or does both. -/
lemma queue_outline {i : Act} {k : Res i → ArenaProg α} {v : Queue → Res i} {f : Queue → Queue}
    (hF : Stable a pattern t fun w => Own a t q l w ∧ F w)
    (hframe : ∀ w q', F w → F { w with queue := q' })
    (hsafe : ∀ w : World T, w.alloc = some t → Safe a t i w)
    (hexec : ∀ c (w : World T), exec a pattern t i c w =
      .done (v w.queue) { w with queue := f w.queue })
    (h : Outline a pattern t (fun w => Own a t (f q) l w ∧ F w) (k (v q)) Q) :
    Outline a pattern t (fun w => Own a t q l w ∧ F w) (perform i >>= k) Q := by
  refine Triple.perform (fun r w => r = v q ∧ Own a t (f q) l w ∧ F w) hF
    (fun w _ hw => hsafe w hw.1.alloc) ?_ ?_
  · intro w c r w' _ hw he _
    simp only [system, hexec] at he
    cases he
    exact ⟨congrArg v hw.1.queue, ⟨hw.1.alloc, congrArg f hw.1.queue, hw.1.mem_iff⟩,
      hframe w _ hw.2⟩
  · exact fun r => .given fun hr => hr ▸ h

/-- Giving the mutex back: the queue is in order again. -/
lemma allocUnlock_outline
    (hF : Stable a pattern t fun w => Own a t q l w ∧ F w)
    (hframe : ∀ w, F w → F { w with alloc := none }) (hl : Chain a q (fun i => i ∈ l) l)
    (h : Outline a pattern t F (k ()) Q) :
    Outline a pattern t (fun w => Own a t q l w ∧ F w) (perform .allocUnlock >>= k) Q := by
  refine Triple.perform (fun _ w => F w) hF ?_ ?_ fun _ => h
  · rintro w _ ⟨hw, -⟩
    refine ⟨hw.alloc, l, ?_⟩
    rw [hw.queue]
    exact { hl with mem_iff := hw.mem_iff }
  · intro w c r w' _ hw he _
    cases he
    exact hframe w hw.2

end Queue

/-! ## Acquire -/

section Acquire

variable {q : Queue} {l : List ℕ}

/-- What `Acquire`'s result says about the arena and the queue it leaves behind. -/
def AcquireSpec (a : Shape) (q : Queue) (l : List ℕ) (r : Except GoErr ArenaSlot)
    (w : World T) : Prop :=
  match r with
  | .error e => e = Sentinel.errDestroyed ∧ w.destroyed = true ∨
      e = Sentinel.errWiped ∧ w.slab.wiped = true ∨ e = Sentinel.errArenaFull ∧ l = []
  | .ok h => ∃ es l', q.history = es ++ [.popped h.idx] ∧
      replay (List.range a.count) es = some (h.idx :: l')

lemma AcquireSpec.stable (q : Queue) (l : List ℕ) (r : Except GoErr ArenaSlot) :
    Stable a pattern t (AcquireSpec a q l r) := by
  intro w w' _ hr hw
  cases r with
  | error e =>
    exact hw.imp (And.imp_right hr.destroyed) (Or.imp_left (And.imp_right hr.wiped))
  | ok h => exact hw

lemma zeros_stable : Stable a pattern t fun w => Own a t q l w ∧ ∀ i ∈ l, w.slotZero a i := by
  intro w w' hi hr hw
  refine ⟨Own.stable q l w w' hi hr hw.1, fun i hil => ?_⟩
  obtain ⟨hic, hf⟩ := (hw.1.mem_iff i).mp hil
  exact hr.free hw.1.alloc i hic hf (hw.2 i hil)

/-- The pop, from a queue that is not empty: the slot handed out is the head, and it is zero. -/
lemma pop_outline {i : ℕ} (hl : Chain a q (fun j => j ∈ i :: l) (i :: l)) :
    Outline a pattern t (fun w => Own a t q (i :: l) w ∧ ∀ j ∈ i :: l, w.slotZero a j)
      (do
        let next : ℤ ← perform (.readNext i)
        perform (.writeFreeHead next)
        Prog.when (next < 0) (perform (.writeFreeTail (-1)))
        perform (.writeNext i (-1))
        let gen : ℕ ← perform (.addGeneration i)
        perform (.addLive 1)
        pure (.ok ⟨i, gen⟩))
      fun r w => ∃ q' l', Chain a q' (fun j => j ∈ l') l' ∧ Own a t q' l' w ∧
        AcquireSpec a q' l' r w := by
  have hframe : ∀ (w : World T) q', (∀ j ∈ i :: l, w.slotZero a j) →
      ∀ j ∈ i :: l, ({ w with queue := q' } : World T).slotZero a j := fun _ _ h => h
  have hnot : i ∉ l := (List.nodup_cons.mp hl.linked.nodup).1
  refine queue_outline (v := fun q => q.next i) (f := id) zeros_stable hframe (fun _ h => h)
    (fun _ _ => rfl) ?_
  refine queue_outline (v := fun _ => ()) (f := fun q' => { q' with freeHead := q.next i })
    zeros_stable hframe (fun _ h => h) (fun _ _ => rfl) ?_
  refine Triple.seq (M := fun _ w => Own a t
    { q with freeHead := q.next i, freeTail := if q.next i < 0 then -1 else q.freeTail }
    (i :: l) w ∧ ∀ j ∈ i :: l, w.slotZero a j) ?_ fun _ => ?_
  · by_cases hn : q.next i < 0
    · rw [Prog.when, if_pos hn, if_pos hn]
      exact queue_outline (k := .ret) (v := fun _ => ())
        (f := fun q' => { q' with freeTail := -1 }) zeros_stable hframe
        (fun _ h => h) (fun _ _ => rfl) (.ret fun _ _ hw => hw)
    · rw [Prog.when, if_neg hn, if_neg hn]
      exact .ret fun _ _ hw => hw
  refine queue_outline (v := fun _ => ())
    (f := fun q' => { q' with next := Function.update q'.next i (-1) }) zeros_stable hframe
    (fun _ h => h) (fun _ _ => rfl) ?_
  -- the increment takes the slot off the list of free ones
  refine Triple.perform (fun _ w => Own a t
    { next := Function.update q.next i (-1)
      freeHead := q.next i
      freeTail := if q.next i < 0 then -1 else q.freeTail
      live := q.live
      history := q.history ++ [.popped i] } l w ∧ True) zeros_stable ?_ ?_ fun gen => ?_
  · rintro w _ ⟨hw, hz⟩
    obtain ⟨hic, hf⟩ := (hw.mem_iff i).mp List.mem_cons_self
    refine ⟨hw.alloc, hic, hf, hz i List.mem_cons_self, l, ?_⟩
    rw [hw.queue]
    exact hl.history
  · rintro w c r w' _ ⟨hw, -⟩ he _
    cases he
    refine ⟨⟨hw.alloc, ?_, fun j => ?_⟩, trivial⟩
    · simp only [hw.queue]
    · have hj := hw.mem_iff j
      have hfi := ((hw.mem_iff i).mp List.mem_cons_self).2.1
      by_cases hji : j = i
      · subst hji
        simp only [hnot, false_iff, World.isFree, Function.update_self, not_and]
        omega
      · simp only [List.mem_cons, hji, false_or, World.isFree, Function.update_of_ne hji] at hj ⊢
        exact hj
  refine queue_outline (v := fun _ => ()) (f := fun q' => { q' with live := q'.live + 1 })
    ((Own.stable _ _).and (.const True)) (fun _ _ h => h) (fun _ h => h) (fun _ _ => rfl) ?_
  refine .ret fun _ _ hw => ⟨_, l, ?_, hw.1, q.history, l, rfl, hl.history⟩
  refine ⟨hl.linked.pop.2, ?_, ?_, ?_⟩
  · rw [replay_append, hl.history]
    simp [QueueEvent.apply]
  · have := hl.live
    simp only [List.length_cons] at this ⊢
    omega
  · intro j
    refine ⟨fun hj => ⟨((hl.mem_iff j).mp (List.mem_cons_of_mem _ hj)).1, hj⟩, fun h => h.2⟩

lemma acquireLocked_outline (hl : Chain a q (fun j => j ∈ l) l) :
    Outline a pattern t (fun w => Own a t q l w ∧ True) acquireLocked
      fun r w => ∃ q' l', Chain a q' (fun j => j ∈ l') l' ∧ Own a t q' l' w ∧
        AcquireSpec a q' l' r w := by
  have hstable : Stable a pattern t fun w => Own a t q l w ∧ True :=
    (Own.stable q l).and (.const True)
  -- an arena not destroyed still has its region, so its free slots are zero
  refine Triple.perform (fun b w => Own a t q l w ∧ (b = true → w.destroyed = true) ∧
    (b = false → ∀ i ∈ l, w.slotZero a i)) hstable (fun _ _ _ => trivial) ?_ fun b => ?_
  · intro w c r w' hi hw he _
    cases he
    refine ⟨hw.1, fun hd => hd, fun hd i hil => ?_⟩
    have hin : w.slab.inner = true := by
      by_contra hin
      rw [hi.destroyed (by simpa using hin)] at hd
      cases hd
    obtain ⟨hic, hf⟩ := (hw.1.mem_iff i).mp hil
    exact hi.zero hin i hic hf
  cases b with
  | true =>
    exact .ret fun _ _ hw => ⟨q, l, hl, hw.1, Or.inl ⟨rfl, hw.2.1 rfl⟩⟩
  | false =>
    refine Triple.pre (P := fun w => Own a t q l w ∧ ∀ i ∈ l, w.slotZero a i) ?_
      fun w _ hw => ⟨hw.1, hw.2.2 rfl⟩
    refine load_outline (fun w => w.slab.wiped) zeros_stable (fun _ _ => rfl)
      (fun _ _ => trivial) fun b => ?_
    cases b with
    | true =>
      exact .ret fun _ _ hw => ⟨q, l, hl, hw.1.1, Or.inr (Or.inl ⟨rfl, hw.2.symm⟩)⟩
    | false =>
      refine Triple.pre (P := fun w => Own a t q l w ∧ ∀ i ∈ l, w.slotZero a i) ?_
        fun w _ hw => hw.1
      refine queue_outline (v := fun q => q.freeHead) (f := id) zeros_stable (fun _ _ h => h)
        (fun _ h => h) (fun _ _ => rfl) ?_
      have hempty := hl.linked.head_neg_iff
      cases l with
      | nil =>
        simp only [if_pos (hempty.mpr rfl)]
        exact .ret fun _ _ hw => ⟨q, [], hl, hw.1, Or.inr (Or.inr ⟨rfl, rfl⟩)⟩
      | cons i l =>
        have hhead : q.freeHead = i := hl.linked.linked.1
        have hneg : ¬q.freeHead < 0 := by omega
        simp only [if_neg hneg]
        obtain rfl : i = q.freeHead.toNat := by omega
        exact pop_outline hl

lemma acquire_outline :
    Outline a pattern t (fun _ => True) acquire fun _ _ => True := by
  refine allocLock_outline (.const True) (fun _ h => h) fun q l hl => ?_
  refine Triple.seq (acquireLocked_outline hl) fun r => ?_
  refine .exists fun q' => .exists fun l' => .given fun hl' => ?_
  have hstable : Stable a pattern t fun w => Own a t q' l' w ∧ AcquireSpec a q' l' r w :=
    (Own.stable q' l').and (AcquireSpec.stable q' l' r)
  refine Triple.perform (fun _ w => Own a t q' l' w ∧ True) hstable ?_ ?_ fun _ => ?_
  · rintro w _ ⟨hw, hspec⟩
    refine ⟨hw.alloc, ?_⟩
    rw [hw.queue]
    cases r with
    | error e =>
      refine hspec.imp_right (Or.imp_right fun h => ⟨h.1, ?_⟩)
      obtain rfl := h.2
      exact { hl' with mem_iff := hw.mem_iff }
    | ok h => exact hspec
  · intro w c r w' _ hw he _
    cases he
    exact ⟨hw.1, trivial⟩
  refine allocUnlock_outline ((Own.stable q' l').and (.const True)) (fun _ h => h) hl' ?_
  exact .done

end Acquire

/-! ## Sharing the region lock -/

/-- `t` shares the region lock, and the slab's flags are `s`. -/
structure Shared (t : T) (s : Slab) (w : World T) : Prop where
  reader : t ∈ w.mu.readers
  slab : w.slab = s

lemma Shared.stable (s : Slab) : Stable a pattern t (Shared t s) := by
  intro w w' _ hr hw
  exact ⟨hr.reader.mpr hw.reader, (hr.slab (Or.inl hw.reader)).trans hw.slab⟩

section SharedLock

variable {s : Slab} {F : World T → Prop} {Q : α → World T → Prop}

lemma rLock_outline (hF : Stable a pattern t F)
    (hframe : ∀ w l, F w → F { w with mu := l })
    (h : ∀ s : Slab, s.Sound → Outline a pattern t (fun w => Shared t s w ∧ F w) (k ()) Q) :
    Outline a pattern t F (perform .rLock >>= k) Q := by
  refine Triple.perform (fun _ w => ∃ s : Slab, s.Sound ∧ Shared t s w ∧ F w) hF
    (fun _ _ _ => trivial) ?_ fun _ => .exists fun s => .given (h s)
  intro w c r w' hi hw he hi'
  simp only [system, exec] at he
  split at he <;> cases he
  next l hl =>
    obtain ⟨hfree, -, hr⟩ := RWLock.rLock_eq hl
    refine ⟨w.slab, hi.region hfree, ⟨?_, rfl⟩, hframe w l hw⟩
    simp only [hr, List.mem_cons, true_or]

lemma rUnlock_outline (hF : Stable a pattern t F)
    (hframe : ∀ w l, F w → F { w with mu := l }) (h : Outline a pattern t F (k ()) Q) :
    Outline a pattern t (fun w => Shared t s w ∧ F w) (perform .rUnlock >>= k) Q := by
  refine Triple.perform (fun _ w => F w) ((Shared.stable s).and hF)
    (fun _ _ _ => trivial) ?_ fun _ => h
  intro w c r w' _ hw he _
  cases he
  exact hframe w _ hw.2

/-- A load of one of the slab's flags. -/
lemma flag_outline {i : Act} {k : Res i → ArenaProg α} (v : Slab → Res i)
    (hF : Stable a pattern t F)
    (hexec : ∀ c (w : World T), exec a pattern t i c w = .done (v w.slab) w)
    (hsafe : ∀ w : World T, Safe a t i w)
    (h : Outline a pattern t (fun w => Shared t s w ∧ F w) (k (v s)) Q) :
    Outline a pattern t (fun w => Shared t s w ∧ F w) (perform i >>= k) Q := by
  refine load_outline (fun w => v w.slab) ((Shared.stable s).and hF) hexec
    (fun w _ => hsafe w) fun r => ?_
  refine Triple.pre (P := fun w => r = v s ∧ Shared t s w ∧ F w)
    (.given fun hr => hr ▸ h) ?_
  rintro w _ ⟨hw, rfl⟩
  exact ⟨congrArg v hw.1.slab, hw⟩

end SharedLock

/-! ## Release -/

section Release

variable {h : ArenaSlot}

/-- A `Release` of the handle is in progress. -/
structure Releasing (t : T) (h : ArenaSlot) (w : World T) : Prop where
  releasing : (t, h) ∈ w.releasing
  issued : h ∈ w.issued

lemma Releasing.stable (h : ArenaSlot) : Stable a pattern t (Releasing t h) :=
  fun _ _ _ hr hw => ⟨(hr.releasing h).mpr hw.releasing, hr.issued h hw.issued⟩

lemma Claimed.stable (h : ArenaSlot) : Stable a pattern t (Claimed t h) :=
  fun _ _ _ hr hw => ⟨hr.issued h hw.issued, (hr.claims _).mpr hw.claims,
    (hr.claimed _ hw.claims).1.trans hw.retired⟩

/-- The slot is claimed, and its bytes at the offsets in `ks` are zero already. -/
structure Wiping (a : Shape) (t : T) (h : ArenaSlot) (ks : List ℕ) (w : World T) : Prop where
  claimed : Claimed t h w
  zero : ∀ k ∈ ks, k < a.slotSize → w.mem[a.start h.idx + k]? = some 0

lemma Wiping.stable (h : ArenaSlot) (ks : List ℕ) : Stable a pattern t (Wiping a t h ks) :=
  fun w w' hi hr hw => ⟨Claimed.stable h w w' hi hr hw.claimed, fun k hk hlt =>
    (hr.claimed _ hw.claimed.claims).2 k hlt (hw.zero k hk hlt)⟩

variable {s : Slab}

/-- The wipe, byte by byte. -/
lemma wipeSlotBytes_outline (hs : s.Open) {ks : List ℕ} (hks : ∀ k ∈ ks, k < a.slotSize)
    (done : List ℕ) :
    Outline a pattern t (fun w => Shared t s w ∧ Wiping a t h done w) (wipeSlotBytes h ks)
      fun _ w => Shared t s w ∧ Wiping a t h (done ++ ks) w := by
  induction ks generalizing done with
  | nil =>
    rw [List.append_nil]
    exact .ret fun _ _ hw => hw
  | cons k ks ih =>
    have hk : k < a.slotSize := hks k List.mem_cons_self
    refine Triple.perform
      (fun _ w => Shared t s w ∧ Wiping a t h (done ++ [k]) w)
      ((Shared.stable s).and (Wiping.stable h done)) ?_ ?_ fun _ => ?_
    · rintro w _ ⟨hsh, hw⟩
      exact ⟨hw.claimed, hsh.reader, hsh.slab ▸ hs, hk⟩
    · rintro w c r w' hi ⟨hsh, hw⟩ he -
      cases guarded_done he
      refine ⟨⟨hsh.reader, hsh.slab⟩, ⟨⟨hw.claimed.issued, hw.claimed.claims,
        hw.claimed.retired⟩, fun j hj hlt => ?_⟩⟩
      rw [List.getElem?_set]
      split
      next heq =>
        rw [if_pos]
        rw [heq, hi.length]
        exact Shape.start_add_lt_innerLen (hi.issued h hw.claimed.issued).1 hlt
      next hne =>
        rcases List.mem_append.mp hj with hj | hj
        · exact hw.zero j hj hlt
        · rw [List.mem_singleton.mp hj] at hne
          exact (hne rfl).elim
    · have := ih (fun j hj => hks j (List.mem_cons_of_mem _ hj)) (done ++ [k])
      rwa [List.append_assoc, List.singleton_append] at this

lemma checkStrip_outline (hs : s.Open) :
    Outline a pattern t (fun w => Shared t s w ∧ Claimed t h w) (checkStrip h)
      fun _ w => Shared t s w ∧ Claimed t h w := by
  refine flag_outline (fun s => s.wiped) (Claimed.stable h) (fun _ _ => rfl)
    (fun _ => trivial) ?_
  split
  · exact .ret fun _ _ hw => hw
  have hsafe : ∀ w, Shared t s w ∧ Claimed t h w →
      Claimed t h w ∧ t ∈ w.mu.readers ∧ w.slab.Open :=
    fun w hw => ⟨hw.2, hw.1.reader, hw.1.slab ▸ hs⟩
  have hstable : Stable a pattern t fun w => Shared t s w ∧ Claimed t h w :=
    (Shared.stable s).and (Claimed.stable h)
  refine Triple.look hstable (fun w _ hw => hsafe w hw) ?_ fun b => ?_
  · intro w c r w' he
    cases guarded_done he
    rfl
  split
  · exact .ret fun _ _ hw => hw
  refine Triple.perform (fun _ w => Shared t s w ∧ Claimed t h w) hstable
    (fun w _ hw => hsafe w hw) ?_ fun _ => .ret fun _ _ hw => hw
  rintro w c r w' _ ⟨hsh, hc⟩ he -
  cases guarded_done he
  exact ⟨⟨hsh.reader, hsh.slab⟩, ⟨hc.issued, hc.claims, hc.retired⟩⟩

/-- The slot is claimed and, unless the region is gone, wiped. -/
structure Wiped (a : Shape) (t : T) (h : ArenaSlot) (w : World T) : Prop where
  claimed : Claimed t h w
  zero : w.slab.inner = true → w.slotZero a h.idx

lemma Wiped.stable (h : ArenaSlot) : Stable a pattern t (Wiped a t h) := by
  intro w w' hi hr hw
  refine ⟨Claimed.stable h w w' hi hr hw.claimed, fun hin k hk => ?_⟩
  have hin₀ : w.slab.inner = true := by
    cases hin₀ : w.slab.inner
    · rw [hr.inner hin₀] at hin
      cases hin
    · rfl
  exact (hr.claimed _ hw.claimed.claims).2 k hk (hw.zero hin₀ k hk)

lemma wipeSlot_outline (hs : s.Open) :
    Outline a pattern t (fun w => Shared t s w ∧ Claimed t h w) (wipeSlot a h)
      fun _ w => Shared t s w ∧ Wiped a t h w := by
  refine Triple.seq (checkStrip_outline hs) fun violated => ?_
  refine Triple.seq (M := fun _ w => Shared t s w ∧
    Wiping a t h ([] ++ List.range a.slotSize) w) ?_ fun _ => .ret fun _ _ hw => ?_
  · refine (wipeSlotBytes_outline hs (fun k hk => List.mem_range.mp hk) []).pre ?_
    exact fun w _ hw => ⟨hw.1, hw.2, fun k hk => by cases hk⟩
  · exact ⟨hw.1, hw.2.claimed, fun _ k hk => hw.2.zero k (by simpa using hk) hk⟩

/-- The append at the tail of the free list. -/
lemma appendSlot_outline :
    Outline a pattern t (Wiped a t h) (appendSlot h) fun _ _ => True := by
  have hframe : ∀ (w : World T) q, Wiped a t h w → Wiped a t h { w with queue := q } :=
    fun w q hw => ⟨⟨hw.claimed.issued, hw.claimed.claims, hw.claimed.retired⟩, hw.zero⟩
  have hstable : ∀ q l, Stable a pattern t fun w => Own a t q l w ∧ Wiped a t h w :=
    fun q l => (Own.stable q l).and (Wiped.stable h)
  refine allocLock_outline (Wiped.stable h) (fun w hw => ⟨⟨hw.claimed.issued, hw.claimed.claims,
    hw.claimed.retired⟩, hw.zero⟩) fun q l hl => ?_
  -- a claimed slot is not on the list
  refine Triple.because (φ := h.idx ∉ l) ?_ fun hnew => ?_
  · rintro w _ ⟨hown, hw⟩ hmem
    have := ((hown.mem_iff _).mp hmem).2.2
    rw [hw.claimed.claims] at this
    cases this
  refine queue_outline (v := fun _ => ()) (f := fun q => { q with live := q.live + -1 })
    (hstable _ _) hframe (fun _ h => h) (fun _ _ => rfl) ?_
  refine queue_outline (v := fun _ => ())
    (f := fun q => { q with next := Function.update q.next h.idx (-1) })
    (hstable _ _) hframe (fun _ h => h) (fun _ _ => rfl) ?_
  refine queue_outline (v := fun q => q.freeTail) (f := id) (hstable _ _) hframe (fun _ h => h)
    (fun _ _ => rfl) ?_
  refine Triple.seq (M := fun _ w => Own a t
    { next := if 0 ≤ q.freeTail then
        Function.update (Function.update q.next h.idx (-1)) q.freeTail.toNat h.idx
        else Function.update q.next h.idx (-1)
      freeHead := if 0 ≤ q.freeTail then q.freeHead else h.idx
      freeTail := q.freeTail
      live := q.live + -1
      history := q.history } l w ∧ Wiped a t h w) ?_ fun _ => ?_
  · by_cases htail : 0 ≤ q.freeTail
    · simp only [if_pos htail]
      exact queue_outline (k := .ret) (v := fun _ => ())
        (f := fun q' => { q' with next := Function.update q'.next q.freeTail.toNat h.idx })
        (hstable _ _) hframe (fun _ h => h) (fun _ _ => rfl) (.ret fun _ _ hw => hw)
    · simp only [if_neg htail]
      exact queue_outline (k := .ret) (v := fun _ => ())
        (f := fun q' => { q' with freeHead := h.idx }) (hstable _ _) hframe
        (fun _ h => h) (fun _ _ => rfl) (.ret fun _ _ hw => hw)
  refine queue_outline (v := fun _ => ()) (f := fun q' => { q' with freeTail := h.idx })
    (hstable _ _) hframe (fun _ h => h) (fun _ _ => rfl) ?_
  refine Triple.perform (fun _ w => Own a t
    { next := if 0 ≤ q.freeTail then
        Function.update (Function.update q.next h.idx (-1)) q.freeTail.toNat h.idx
        else Function.update q.next h.idx (-1)
      freeHead := if 0 ≤ q.freeTail then q.freeHead else h.idx
      freeTail := h.idx
      live := q.live + -1
      history := q.history ++ [.pushed h.idx] } (l ++ [h.idx]) w ∧ True) (hstable _ _) ?_ ?_
    fun _ => ?_
  · rintro w _ ⟨hown, hw⟩
    refine ⟨hown.alloc, hw.claimed, hw.zero, l, ?_, hnew⟩
    rw [hown.queue]
    exact hl.history
  · rintro w c r w' hi ⟨hown, hw⟩ he -
    cases he
    refine ⟨⟨hown.alloc, by simp only [hown.queue], fun j => ?_⟩, trivial⟩
    obtain ⟨hidx, hodd, -⟩ := hi.issued h hw.claimed.issued
    have hret := hw.claimed.retired
    by_cases hj : j = h.idx
    · subst hj
      simp only [List.mem_append, List.mem_singleton, or_true, World.isFree,
        Function.update_self, and_true, true_iff]
      exact ⟨hidx, by omega⟩
    · simp only [List.mem_append, List.mem_singleton, hj, or_false, World.isFree,
        Function.update_of_ne hj]
      exact hown.mem_iff j
  refine Triple.last ((Own.stable _ _).and (.const True)) ?_ fun _ _ _ _ _ _ _ _ =>
    trivial
  rintro w hi ⟨hown, -⟩
  refine ⟨hown.alloc, l ++ [h.idx], ?_⟩
  rw [hown.queue]
  refine ⟨hl.linked.push hnew, ?_, ?_, hown.mem_iff⟩
  · rw [replay_append, hl.history]
    simp [QueueEvent.apply, hnew]
  · have := hl.live
    simp only [List.length_append, List.length_singleton]
    omega

lemma readOnlyInForce_outline {F : World T → Prop} (hF : Stable a pattern t F) :
    Outline a pattern t (fun w => Shared t s w ∧ F w) readOnlyInForce
      fun r w => r = decide (s.readOnly = true ∧ s.wiped = false) ∧ Shared t s w ∧
        F w := by
  refine flag_outline (fun s => s.readOnly) hF (fun _ _ => rfl) (fun _ => trivial) ?_
  cases hro : s.readOnly with
  | false => exact .ret fun _ _ hw => ⟨by simp, hw⟩
  | true =>
    refine flag_outline (fun s => s.wiped) hF (fun _ _ => rfl) (fun _ => trivial) ?_
    exact .ret fun _ _ hw => ⟨by cases s.wiped <;> rfl, hw⟩

/-- The claim: the winner owns the slot, the loser has nothing left to do. -/
lemma casGeneration_outline {k : Bool → ArenaProg α} {Q : α → World T → Prop}
    (hwon : Outline a pattern t (fun w => Shared t s w ∧ Claimed t h w) (k true) Q)
    (hlost : Outline a pattern t (fun w => Shared t s w ∧ Releasing t h w) (k false) Q) :
    Outline a pattern t (fun w => Shared t s w ∧ Releasing t h w)
      (perform (.casGeneration h) >>= k) Q := by
  refine Triple.perform (fun r w => Shared t s w ∧ if r = true then Claimed t h w
    else Releasing t h w) ((Shared.stable s).and (Releasing.stable h))
    (fun w _ hw => ⟨hw.2.releasing, hw.2.issued⟩) ?_ fun r => ?_
  · rintro w c r w' _ ⟨hsh, hw⟩ he -
    simp only [system, exec] at he
    split at he <;> cases he
    · exact ⟨⟨hsh.reader, hsh.slab⟩, ⟨hw.issued, Function.update_self _ _ _,
        Function.update_self _ _ _⟩⟩
    · exact ⟨hsh, hw⟩
  · cases r with
    | true => exact hwon
    | false => exact hlost

lemma releaseSlot_outline :
    Outline a pattern t (Releasing t h) (releaseSlot a h) fun _ _ => True := by
  refine load_outline (fun w => w.generation h.idx) (Releasing.stable h) (fun _ _ => rfl)
    (fun _ _ => trivial) fun gen => ?_
  split
  · exact .done
  refine Triple.pre (P := Releasing t h) ?_ fun _ _ hw => hw.1
  refine rLock_outline (Releasing.stable h) (fun w l hw => ⟨hw.releasing, hw.issued⟩)
    fun s hs => ?_
  refine flag_outline (fun s => s.inner) (Releasing.stable h) (fun _ _ => rfl)
    (fun _ => trivial) ?_
  refine Triple.seq (M := fun refused w => (refused =
    decide (s.inner = true ∧ s.readOnly = true ∧ s.wiped = false)) ∧ Shared t s w ∧
      Releasing t h w) ?_ fun refused => .given fun href => ?_
  · by_cases hin : s.inner = true
    · rw [if_pos hin]
      exact (readOnlyInForce_outline (Releasing.stable h)).post
        fun _ _ hw => ⟨by simp [hw.1, hin], hw.2⟩
    · rw [if_neg hin]
      exact .ret fun _ _ hw => ⟨by simp [hin], hw⟩
  split
  next hrefused =>
    obtain ⟨hin, hflags⟩ : s.inner = true ∧ s.readOnly = true ∧ s.wiped = false := by
      simpa [href] using hrefused
    refine Triple.look ((Shared.stable s).and (Releasing.stable h))
      (fun w _ hw => ⟨hw.1.reader, ?_⟩) (fun _ _ _ _ he => by cases he; rfl) fun _ => ?_
    · rw [hw.1.slab, hs.prot hin, Slab.expected, if_pos hflags]
      exact ⟨hs.mapped hin, rfl⟩
    · exact rUnlock_outline (Releasing.stable h) (fun w l hw => ⟨hw.releasing, hw.issued⟩) .done
  next hrefused =>
    refine casGeneration_outline ?_ ?_
    · simp only [Bool.true_eq_false, if_false]
      refine Triple.seq (M := fun _ w => Shared t s w ∧ Wiped a t h w) ?_
        fun violated => ?_
      · by_cases hin : s.inner = true
        · rw [if_pos hin]
          refine wipeSlot_outline ⟨hs.mapped hin, ?_⟩
          rw [hs.prot hin, Slab.expected, if_neg]
          simpa [href, hin] using hrefused
        · rw [if_neg hin]
          exact .ret fun _ _ hw => ⟨hw.1, hw.2, fun h => (hin (hw.1.slab ▸ h)).elim⟩
      · refine rUnlock_outline (Wiped.stable h) (fun w l hw => ⟨⟨hw.claimed.issued,
          hw.claimed.claims, hw.claimed.retired⟩, hw.zero⟩) ?_
        refine Triple.seq appendSlot_outline fun _ => ?_
        split <;> exact .done
    · exact rUnlock_outline (Releasing.stable h) (fun w l hw => ⟨hw.releasing, hw.issued⟩) .done

lemma release_outline (s : Option ArenaSlot) :
    Outline a pattern t (fun _ => True) (release a s) fun _ _ => True := by
  cases s with
  | none => exact .done
  | some h =>
    refine Triple.perform (fun _ => Releasing t h) (.const True) (fun _ _ _ => trivial)
      ?_ fun _ => ?_
    · intro w c r w' _ _ he hi'
      simp only [system, exec] at he
      split at he <;> cases he
      next hg => exact ⟨List.mem_cons_self, hg.1⟩
    refine Triple.seq releaseSlot_outline fun err => ?_
    exact Triple.forget (.const True) (fun _ _ _ => trivial) fun _ => .done

end Release

/-! ## Borrows -/

section Borrow

variable {h : ArenaSlot}

/-- A borrow through the handle is in progress. -/
structure Borrowing (t : T) (h : ArenaSlot) (w : World T) : Prop where
  borrowing : (t, h) ∈ w.borrowing
  issued : h ∈ w.issued

lemma Borrowing.stable (h : ArenaSlot) : Stable a pattern t (Borrowing t h) :=
  fun _ _ _ hr hw => ⟨(hr.borrowing h).mpr hw.borrowing, hr.issued h hw.issued⟩

lemma Borrowed.stable (h : ArenaSlot) : Stable a pattern t (Borrowed t h) :=
  fun _ _ _ hr hw => ⟨(hr.borrowing h).mpr hw.borrowing, hr.issued h hw.issued,
    hr.reader.mpr hw.reader, hr.current h hw.borrowing hw.current⟩

lemma runWrites_outline (writes : List (ℕ × UInt8)) :
    Outline a pattern t (Borrowed t h) (runWrites a h writes)
      fun _ w => Borrowed t h w := by
  induction writes with
  | nil => exact .ret fun _ _ hw => hw
  | cons x writes ih =>
    obtain ⟨k, v⟩ := x
    rw [runWrites]
    split
    next hk =>
      refine Triple.perform (fun _ => Borrowed t h) (Borrowed.stable h)
        (fun w _ hw => ⟨hw, hk⟩) ?_ fun _ => ih
      intro w c r w' _ hw he _
      cases guarded_done he
      exact ⟨hw.borrowing, hw.issued, hw.reader, hw.current⟩
    next => exact .ret fun _ _ hw => hw

lemma borrowSlot_outline (fn : Callback) :
    Outline a pattern t (Borrowing t h) (borrowSlot a h fn) fun _ _ => True := by
  have hframe : ∀ (w : World T) l, Borrowing t h w → Borrowing t h { w with mu := l } :=
    fun w l hw => ⟨hw.borrowing, hw.issued⟩
  refine load_outline (fun w => w.destroyed) (Borrowing.stable h) (fun _ _ => rfl)
    (fun _ _ => trivial) fun destroyed => ?_
  split
  · exact .done
  refine Triple.pre (P := Borrowing t h) ?_ fun _ _ hw => hw.1
  refine rLock_outline (Borrowing.stable h) hframe fun s _ => ?_
  refine flag_outline (fun s => s.inner) (Borrowing.stable h) (fun _ _ => rfl)
    (fun _ => trivial) ?_
  split
  · exact rUnlock_outline (Borrowing.stable h) hframe .done
  refine flag_outline (fun s => s.wiped) (Borrowing.stable h) (fun _ _ => rfl)
    (fun _ => trivial) ?_
  split
  · exact rUnlock_outline (Borrowing.stable h) hframe .done
  refine Triple.perform (fun gen w => Shared t s w ∧ Borrowing t h w ∧
    (gen = h.generation → w.generation h.idx = h.generation))
    ((Shared.stable s).and (Borrowing.stable h)) (fun _ _ _ => trivial) ?_ fun gen => ?_
  · intro w c r w' _ hw he _
    cases he
    exact ⟨hw.1, hw.2, fun h => h⟩
  by_cases hgen : gen = h.generation
  · rw [if_neg (not_not.mpr hgen)]
    -- from here on the handle is the slot's owner for as long as the borrow lasts
    refine Triple.pre (P := Borrowed t h) ?_
      fun w _ hw => ⟨hw.2.1.borrowing, hw.2.1.issued, hw.1.reader, hw.2.2 hgen⟩
    refine Triple.look (Borrowed.stable h) (fun _ _ hw => hw)
      (fun _ _ _ _ he => by cases he; rfl) fun _ => ?_
    refine Triple.seq (runWrites_outline fn.writes) fun finished => ?_
    refine Triple.forget (Borrowed.stable h) (fun _ _ _ => trivial) fun _ => ?_
    split <;> exact .done
  · rw [if_pos hgen]
    refine Triple.pre (P := fun w => Shared t s w ∧ Borrowing t h w) ?_
      fun w _ hw => ⟨hw.1, hw.2.1⟩
    exact rUnlock_outline (Borrowing.stable h) hframe .done

lemma withBytesErr_outline (s : Option ArenaSlot) (fn : Option Callback) :
    Outline a pattern t (fun _ => True) (withBytesErr a s fn) fun _ _ => True := by
  cases fn with
  | none => cases s <;> exact .done
  | some fn =>
    cases s with
    | none => exact .done
    | some h =>
      refine Triple.perform (fun _ => Borrowing t h) (.const True)
        (fun _ _ _ => trivial) ?_ fun _ => ?_
      · intro w c r w' _ _ he hi'
        simp only [system, exec] at he
        split at he <;> cases he
        next hg => exact ⟨List.mem_cons_self, hg.1⟩
      refine Triple.seq (borrowSlot_outline fn) fun r => ?_
      exact Triple.forget (.const True) (fun _ _ _ => trivial) fun _ => .done

end Borrow

/-! ## Holding the region lock -/

/-- `t` holds the region lock exclusively, and the slab's flags are `s`. -/
structure Excl (t : T) (s : Slab) (w : World T) : Prop where
  writer : w.mu.writer = some t
  slab : w.slab = s

lemma Excl.stable (s : Slab) : Stable a pattern t (Excl t s) := by
  intro w w' _ hr hw
  exact ⟨hr.writer.mpr hw.writer, (hr.slab (Or.inr hw.writer)).trans hw.slab⟩

section Exclusive

variable {s : Slab} {F : World T → Prop} {Q : α → World T → Prop}

lemma lock_outline (hF : Stable a pattern t F)
    (hframe : ∀ w l, F w → F { w with mu := l })
    (h : ∀ s : Slab, s.Sound → Outline a pattern t (fun w => Excl t s w ∧ F w) (k ()) Q) :
    Outline a pattern t F (perform .lock >>= k) Q := by
  refine Triple.perform (fun _ w => ∃ s : Slab, s.Sound ∧ Excl t s w ∧ F w) hF
    (fun _ _ _ => trivial) ?_ fun _ => .exists fun s => .given (h s)
  intro w c r w' hi hw he hi'
  simp only [system, exec] at he
  split at he <;> cases he
  next l hl =>
    obtain ⟨hfree, -, hwr, -⟩ := RWLock.lock_eq hl
    exact ⟨w.slab, hi.region hfree, ⟨hwr, rfl⟩, hframe w l hw⟩

lemma unlock_outline (hF : Stable a pattern t F) (hs : s.Sound)
    (h : Outline a pattern t (fun _ => True) (k ()) Q) :
    Outline a pattern t (fun w => Excl t s w ∧ F w) (perform .unlock >>= k) Q := by
  refine Triple.forget ((Excl.stable s).and hF) ?_ fun _ => h
  rintro w _ ⟨hw, -⟩
  exact ⟨hw.writer, hw.slab ▸ hs⟩

/-- An action of the exclusive holder on the slab's flags, whose result and effect depend on
them and on the choice alone. -/
lemma slab_outline {i : Act} {k : Res i → ArenaProg α} (f : Choice → Slab → Res i × Slab)
    (hF : Stable a pattern t F) (hframe : ∀ w s', F w → F { w with slab := s' })
    (hexec : ∀ c (w : World T), exec a pattern t i c w =
      .done (f c w.slab).1 { w with slab := (f c w.slab).2 })
    (hsafe : ∀ w, Excl t s w → F w → Safe a t i w)
    (h : ∀ c, Outline a pattern t (fun w => Excl t (f c s).2 w ∧ F w) (k (f c s).1) Q) :
    Outline a pattern t (fun w => Excl t s w ∧ F w) (perform i >>= k) Q := by
  refine Triple.perform
    (fun r w => ∃ c, r = (f c s).1 ∧ Excl t (f c s).2 w ∧ F w) ((Excl.stable s).and hF)
    (fun w _ hw => hsafe w hw.1 hw.2) ?_ fun r => .exists fun c => .given fun hr => hr ▸ h c
  rintro w c r w' _ ⟨hw, hf⟩ he -
  simp only [system, hexec] at he
  cases he
  refine ⟨c, by rw [hw.slab], ⟨hw.writer, ?_⟩, hframe w _ hf⟩
  simp only [hw.slab]

/-- A system call that changes the slab unless it fails. -/
def Slab.called (s' : Slab) (c : Choice) (s : Slab) : Option GoErr × Slab :=
  c.elim (none, s') fun n => (some (.os n), s)

lemma setProtection_outline (name : String) {p : Prot} {ro : Bool}
    (hp : p = if ro = true then .read else .readWrite) :
    Outline a pattern t (fun _ => True) (setProtection name p ro) fun _ _ => True := by
  have hend : ∀ {s : Slab} {β : Type} (b : β), s.Sound → Outline a pattern t
      (fun w => Excl t s w ∧ True) (perform .unlock >>= fun _ => pure b) fun _ _ => True :=
    fun b hs => unlock_outline (.const True) hs .done
  refine lock_outline (.const True) (fun _ _ h => h) fun s hs => ?_
  refine slab_outline (fun _ s => (s.inner, s)) (.const True) (fun _ _ h => h) (fun _ _ => rfl)
    (fun _ _ _ => trivial) fun _ => ?_
  split
  · exact hend _ hs
  next hin =>
    have hin : s.inner = true := by simpa using hin
    refine slab_outline (fun _ s => (s.wiped, s)) (.const True) (fun _ _ h => h) (fun _ _ => rfl)
      (fun _ _ _ => trivial) fun _ => ?_
    split
    · exact hend _ hs
    next hwiped =>
      have hwiped : s.wiped = false := by simpa using hwiped
      refine slab_outline (fun c s => Slab.called { s with prot := p } c s) (.const True)
        (fun _ _ h => h) (fun c _ => by cases c <;> rfl) (fun _ hw _ => hw.writer) fun c => ?_
      cases c with
      | some n => exact hend _ hs
      | none =>
        refine slab_outline (fun _ s => ((), { s with readOnly := ro })) (.const True)
          (fun _ _ h => h) (fun _ _ => rfl) (fun _ hw _ => hw.writer) fun _ => ?_
        refine hend _ ⟨hs.filed, hs.mapped, fun _ => ?_⟩
        simp only [Slab.expected, Slab.called, Option.elim, hwiped, and_true]
        exact hp

/-! ## Wiping -/

/-- `errors.Is(err, errWipeSkipped)`. -/
def skipped (err : Option GoErr) : Bool := err.elim false fun e => e.is .errWipeSkipped

lemma restore_outline {k : Option GoErr → ArenaProg α} (hF : Stable a pattern t F)
    (hframe : ∀ w s', F w → F { w with slab := s' })
    (hok : Outline a pattern t (fun w => Excl t { s with prot := .readWrite } w ∧ F w) (k none) Q)
    (hfail : ∀ n, Outline a pattern t (fun w => Excl t s w ∧ F w) (k (some (.os n))) Q) :
    Outline a pattern t (fun w => Excl t s w ∧ F w) (perform (.protect .readWrite) >>= k) Q := by
  refine slab_outline (fun c s => Slab.called { s with prot := .readWrite } c s) hF hframe
    (fun c _ => by cases c <;> rfl) (fun _ hw _ => hw.writer) fun c => ?_
  cases c with
  | none => exact hok
  | some n => exact hfail n

/-- The check and the wipe, on a slab made writable. -/
lemma wipe_outline {k : Option GoErr → ArenaProg α} (hopen : s.Open) (layout : Bool)
    (hF : Stable a pattern t F) (hframe : ∀ w m, F w → F { w with mem := m })
    (h : ∀ e, skipped e = false → Outline a pattern t (fun w => Excl t s w ∧ F w) (k e) Q) :
    Outline a pattern t (fun w => Excl t s w ∧ F w)
      (do let canaryErr ← verify layout; perform .wipeSlab; k canaryErr) Q := by
  have hst : Stable a pattern t fun w => Excl t s w ∧ F w := (Excl.stable s).and hF
  have hsafe : ∀ w, Excl t s w → w.mu.writer = some t ∧ w.slab.Open :=
    fun w hw => ⟨hw.writer, hw.slab ▸ hopen⟩
  refine Triple.seq (M := fun e w => skipped e = false ∧ Excl t s w ∧ F w) ?_
    fun e => .given fun he => ?_
  · unfold verify
    split
    · refine Triple.look hst (fun w _ hw => hsafe w hw.1) ?_ fun b => .ret fun w _ hw => ⟨?_, hw⟩
      · intro w c r w' he
        cases guarded_done he
        rfl
      · cases b <;> rfl
    · exact .ret fun w _ hw => ⟨rfl, hw⟩
  · refine Triple.perform (fun _ w => Excl t s w ∧ F w) hst
      (fun w _ hw => hsafe w hw.1) ?_ fun _ => h e he
    rintro w c r w' _ ⟨hw, hf⟩ he -
    cases guarded_done he
    exact ⟨⟨hw.writer, hw.slab⟩, hframe w _ hf⟩

/-- On the emergency path `wipeAndFree` either leaves the slab as it was and says so, or makes
it writable and wipes it. -/
lemma wipeAndFree_inPlace_outline (hm : s.mapped = true) (layout : Bool) :
    Outline a pattern t (fun w => Excl t s w ∧ True) (wipeAndFree layout false)
      fun err w => (skipped err = true ∧ Excl t s w ∧ True) ∨
        (skipped err = false ∧ Excl t { s with prot := .readWrite } w ∧ True) := by
  refine restore_outline (.const True) (fun _ _ h => h) ?_ fun n => ?_
  · refine wipe_outline (s := { s with prot := .readWrite }) ⟨hm, rfl⟩ layout (.const True)
      (fun _ _ h => h) fun e he => ?_
    exact .ret fun _ _ hw => Or.inr ⟨he, hw⟩
  · exact .ret fun _ _ hw => Or.inl ⟨rfl, hw⟩

/-- On a release the slab's protection and mapping change, and nothing else of it. -/
lemma wipeAndFree_unmap_outline (hm : s.mapped = true) (layout : Bool)
    (hF : Stable a pattern t F) (hslab : ∀ w s', F w → F { w with slab := s' })
    (hmem : ∀ w m, F w → F { w with mem := m }) :
    Outline a pattern t (fun w => Excl t s w ∧ F w) (wipeAndFree layout true)
      fun _ w => ∃ s', s'.inner = s.inner ∧ s'.filed = s.filed ∧ Excl t s' w ∧ F w := by
  -- the advice changes nothing and the unmapping only the mapping
  have htail : ∀ {s₁ : Slab} (g : Option GoErr → Option GoErr → Option GoErr),
      s₁.inner = s.inner → s₁.filed = s.filed →
      Outline a pattern t (fun w => Excl t s₁ w ∧ F w)
        (do
          let advice : Option GoErr ← perform .madviseBeforeFree
          let freed : Option GoErr ← perform .unmap
          pure (g advice freed))
        fun _ w => ∃ s', s'.inner = s.inner ∧ s'.filed = s.filed ∧ Excl t s' w ∧ F w := by
    intro s₁ g hin hfd
    refine slab_outline (fun c s => (c.map .os, s)) hF hslab (fun _ _ => rfl)
      (fun _ _ _ => trivial) fun _ => ?_
    refine slab_outline (fun c s => Slab.called { s with mapped := false } c s) hF hslab
      (fun c _ => by cases c <;> rfl) (fun _ hw _ => hw.writer) fun c => ?_
    cases c with
    | none => exact .ret fun _ _ hw => ⟨{ s₁ with mapped := false }, hin, hfd, hw⟩
    | some n => exact .ret fun _ _ hw => ⟨s₁, hin, hfd, hw⟩
  refine restore_outline hF hslab ?_ fun n => ?_
  · refine wipe_outline (s := { s with prot := .readWrite }) ⟨hm, rfl⟩ layout hF hmem fun e _ => ?_
    exact htail (fun _ freed => GoErr.joinOpt e freed) rfl rfl
  · exact htail _ rfl rfl

lemma settle_outline {wasLive : Bool} {err : Option GoErr} (hs : s.Sound) (hin : s.inner = true)
    (hfiled : s.filed = if wasLive = true then .live else .wiped) {s' : Slab}
    (hs' : s' = if skipped err = true then { s with filed := .wiped }
      else { s with filed := .wiped, prot := .readWrite }) :
    Outline a pattern t (fun w => Excl t s' w ∧ True) (settle wasLive err)
      fun _ w => ∃ s', s'.Sound ∧ Excl t s' w ∧ True := by
  subst hs'
  have hsound : (s.filed ≠ .gone) := hs.filed.mpr hin
  change Outline a pattern t _ (if skipped err = false then _ else _) _
  cases hskip : skipped err with
  | false =>
    refine Triple.last ((Excl.stable _).and (.const True))
      (fun w _ hw => hw.1.writer) ?_
    rintro w c r w' _ ⟨hw, -⟩ he -
    cases he
    refine ⟨{ s with filed := .wiped, prot := .readWrite, wiped := true }, ⟨?_, ?_, ?_⟩,
      ⟨hw.writer, ?_⟩, trivial⟩
    · simpa using hin
    · exact hs.mapped
    · exact fun _ => by simp [Slab.expected]
    · simp only [hw.slab, Bool.false_eq_true, if_false]
  | true =>
    cases wasLive with
    | false =>
      refine .ret fun w _ hw => ⟨s, hs, ?_, trivial⟩
      refine ⟨hw.1.writer, hw.1.slab.trans ?_⟩
      cases s
      simp_all
    | true =>
      refine Triple.last ((Excl.stable _).and (.const True))
        (fun w _ hw => hw.1.writer) ?_
      rintro w c r w' _ ⟨hw, -⟩ he -
      simp only [system, exec, hw.slab, if_true] at he
      cases he
      refine ⟨s, hs, ⟨hw.writer, ?_⟩, trivial⟩
      cases s
      simp_all

/-- A pass that holds the lock of a slab still filed. -/
lemma wipeMoved_outline (wasLive : Bool) (hs : s.Sound) (hin : s.inner = true)
    (hfiled : s.filed = if wasLive = true then .live else .wiped) :
    Outline a pattern t (fun w => Excl t { s with filed := .wiped } w ∧ True)
      (do
        let err ← wipeAndFree wasLive false
        settle wasLive err
        perform .unlock
        pure err)
      fun _ _ => True := by
  refine Triple.seq
    (wipeAndFree_inPlace_outline (s := { s with filed := .wiped }) (hs.mapped hin) wasLive)
    fun err => ?_
  refine Triple.pre (P := fun w => ∃ s', s' = (if skipped err = true then
    { s with filed := .wiped } else { s with filed := .wiped, prot := .readWrite }) ∧
    Excl t s' w ∧ True) ?_ ?_
  · refine .exists fun s' => .given fun hs' => ?_
    refine Triple.seq (settle_outline hs hin hfiled hs') fun _ => ?_
    exact .exists fun s'' => .given fun hsound =>
      unlock_outline (.const True) hsound .done
  · rintro w _ (⟨hsk, hw⟩ | ⟨hsk, hw⟩)
    · exact ⟨_, rfl, by simpa [hsk] using hw⟩
    · exact ⟨_, rfl, by simpa [hsk] using hw⟩

/-- The move of a slab to the wiped ones. -/
def Slab.moved (s : Slab) : Option Bool × Slab :=
  match s.filed with
  | .live => (some true, { s with filed := .wiped })
  | .wiped => (some false, s)
  | .gone => (none, s)

lemma wipeLocked_outline (hs : s.Sound) :
    Outline a pattern t (fun w => Excl t s w ∧ True) wipeLocked fun _ _ => True := by
  refine slab_outline (fun _ s => s.moved) (.const True) (fun _ _ h => h)
    (fun _ w => by simp only [exec, Slab.moved]; cases w.slab.filed <;> rfl)
    (fun _ hw _ => hw.writer) fun _ => ?_
  simp only [Slab.moved]
  cases hfd : s.filed with
  | live => exact wipeMoved_outline true hs (hs.filed.mp (by simp [hfd])) hfd
  | wiped =>
    have hsame : s = { s with filed := .wiped } := by rw [← hfd]
    exact (wipeMoved_outline false hs (hs.filed.mp (by simp [hfd])) hfd).pre
      fun w _ hw => hsame ▸ hw
  | gone => exact unlock_outline (.const True) hs .done

lemma wipeInPlace_outline :
    Outline a pattern t (fun _ => True) wipeInPlace fun _ _ => True := by
  refine load_outline (fun w => w.slab.filed != .gone) (.const True) (fun _ _ => rfl)
    (fun _ _ => trivial) fun peeked => ?_
  split
  · exact .done
  refine Triple.pre (P := fun _ => True) ?_ fun _ _ _ => trivial
  exact lock_outline (.const True) (fun _ _ h => h) fun s hs => wipeLocked_outline hs

lemma tryWipeInPlace_outline :
    Outline a pattern t (fun _ => True) tryWipeInPlace fun _ _ => True := by
  refine load_outline (fun w => w.slab.filed != .gone) (.const True) (fun _ _ => rfl)
    (fun _ _ => trivial) fun peeked => ?_
  split
  · exact .done
  refine Triple.pre (P := fun _ => True) ?_ fun _ _ _ => trivial
  refine Triple.perform (fun r w => r = true → ∃ s : Slab, s.Sound ∧ Excl t s w ∧ True)
    (.const True) (fun _ _ _ => trivial) ?_ fun locked => ?_
  · intro w c r w' hi hw he hi'
    simp only [system, exec] at he
    split at he <;> cases he
    next l hl =>
      obtain ⟨hfree, -, hwr, -⟩ := RWLock.lock_eq hl
      exact fun _ => ⟨w.slab, hi.region hfree, ⟨hwr, rfl⟩, trivial⟩
    next => exact fun h => Bool.noConfusion h
  cases locked with
  | false => exact .done
  | true =>
    refine Triple.pre (P := fun w => ∃ s : Slab, s.Sound ∧ Excl t s w ∧ True) ?_
      fun w _ hw => hw rfl
    refine .exists fun s => .given fun hs => ?_
    exact Triple.seq (wipeLocked_outline hs) fun _ => .done

/-- `Destroy`'s release of a region the arena still has: the registration is gone and so, in
the end, is the region. -/
lemma releaseRegion_outline (hs : s.Sound) (hin : s.inner = true) (hF : Stable a pattern t F)
    (hslab : ∀ w s', F w → F { w with slab := s' })
    (hmem : ∀ w m, F w → F { w with mem := m }) :
    Outline a pattern t (fun w => Excl t s w ∧ F w) releaseRegion
      fun _ w => ∃ s', s'.filed = .gone ∧ Excl t s' w ∧ F w := by
  have hm := hs.mapped hin
  have hfree : ∀ layout, Outline a pattern t
      (fun w => Excl t { s with filed := .gone } w ∧ F w) (wipeAndFree layout true)
      fun _ w => ∃ s', s'.filed = .gone ∧ Excl t s' w ∧ F w := fun layout =>
    (wipeAndFree_unmap_outline (s := { s with filed := .gone }) hm layout hF hslab hmem).post
      fun _ _ ⟨s', _, hfd, hw⟩ => ⟨s', hfd, hw⟩
  refine slab_outline (fun _ s => if s.filed = .live then (true, { s with filed := .gone })
    else (false, s)) hF hslab (fun _ w => by simp only [exec]; split <;> rfl)
    (fun _ hw _ => hw.writer) fun _ => ?_
  by_cases hlive : s.filed = .live
  · simp only [if_pos hlive]
    exact hfree true
  · simp only [if_neg hlive, Bool.false_eq_true, if_false]
    refine slab_outline (fun _ s => if s.filed = .wiped then (true, { s with filed := .gone })
      else (false, s)) hF hslab (fun _ w => by simp only [exec]; split <;> rfl)
      (fun _ hw _ => hw.writer) fun _ => ?_
    have hwiped : s.filed = .wiped := by
      have := hs.filed.mpr hin
      cases hfd : s.filed <;> simp_all
    simp only [if_pos hwiped]
    exact hfree false

lemma destroy_outline :
    Outline a pattern t (fun _ => True) destroy fun _ _ => True := by
  have hF : Stable a pattern t fun w => w.destroyed = true := fun _ _ _ hr hw => hr.destroyed hw
  refine Triple.perform (fun _ w => w.destroyed = true) (.const True)
    (fun _ _ _ => trivial) ?_ fun _ => ?_
  · intro w c r w' _ _ he _
    cases he
    rfl
  refine lock_outline hF (fun _ _ h => h) fun s hs => ?_
  refine slab_outline (fun _ s => (s.inner, s)) hF (fun _ _ h => h) (fun _ _ => rfl)
    (fun _ _ _ => trivial) fun _ => ?_
  split
  · exact unlock_outline hF hs .done
  next hin =>
    refine Triple.seq (releaseRegion_outline hs (by simpa using hin) hF
      (fun _ _ h => h) (fun _ _ h => h)) fun err => ?_
    refine .exists fun s' => .given fun hgone => ?_
    refine slab_outline (fun _ s => ((), { s with inner := false })) hF (fun _ _ h => h)
      (fun _ _ => rfl) (fun _ hw hd => ⟨hw.writer, hd⟩) fun _ => ?_
    refine Triple.perform (fun _ w => Excl t { s' with inner := false } w ∧
      w.destroyed = true) ((Excl.stable _).and hF) (fun _ _ _ => trivial) ?_ fun _ => ?_
    · rintro w c r w' _ ⟨hw, hd⟩ he -
      cases he
      exact ⟨⟨hw.writer, hw.slab⟩, hd⟩
    refine unlock_outline hF ⟨?_, fun h => Bool.noConfusion h, fun h => Bool.noConfusion h⟩
      .done
    simp [hgone]

end Exclusive

/-- Every call keeps to the discipline. -/
lemma code_outline (c : Call) :
    Outline a pattern t (fun _ => True) (code a c) fun _ _ => True := by
  have hend : ∀ {β : Type} {p : ArenaProg β}, Outline a pattern t (fun _ => True) p
      (fun _ _ => True) → Outline a pattern t (fun _ => True) (do let _ ← p) fun _ _ => True :=
    fun h => h.seq fun _ => .done
  cases c with
  | acquire => exact hend acquire_outline
  | withBytesErr s fn => exact hend (withBytesErr_outline s fn)
  | release s => exact hend (release_outline s)
  | readOnly => exact hend (setProtection_outline _ rfl)
  | readWrite => exact hend (setProtection_outline _ rfl)
  | wipeInPlace => exact hend wipeInPlace_outline
  | tryWipeInPlace => exact hend tryWipeInPlace_outline
  | destroy => exact hend destroy_outline

end Secmem.Arena
