import Secmem.Arena.Outlines

/-!
# What holds of an arena in every run

`NewArena` establishes the invariant, every call keeps it, and so the invariant holds in every
state of every run, and every action a goroutine is about to perform is safe.  The results about
the arena are read off that: the free list is sound, no stale handle reaches a slot's new owner,
and a release meets the slab as it takes it to be.
-/

namespace Secmem.Arena

variable {T : Type}

/-! ## The fresh arena -/

lemma int32_eq {x : ℤ} (hlo : -2 ^ 31 ≤ x) (hhi : x < 2 ^ 31) : int32 x = x := by
  rw [int32, Int.bmod_def]
  split <;> omega

/-- The seeded links run through the slots in ascending order. -/
lemma linked_seed {count : ℕ} (hcount : count ≤ 2 ^ 31 - 1) {i n : ℕ} (hn : i + n = count)
    (hpos : 0 < n) : Linked (seedNext count) i (List.range' i n) := by
  induction n generalizing i with
  | zero => omega
  | succ n ih =>
    rw [List.range'_succ]
    refine ⟨rfl, ?_⟩
    cases n with
    | zero =>
      rw [seedNext, if_pos (by omega)]
      rfl
    | succ n =>
      have hnext : seedNext count i = ((i + 1 : ℕ) : ℤ) := by
        rw [seedNext, if_neg (by omega), int32_eq (by omega) (by omega)]
        push_cast
        rfl
      rw [hnext]
      exact ih (by omega) (by omega)

lemma lastIndex_range' {i n : ℕ} : lastIndex (List.range' i (n + 1)) = ((i + n : ℕ) : ℤ) := by
  rw [List.range'_concat, lastIndex_append]
  simp

lemma initial_chain (a : Shape) (pattern : ℕ → UInt8) :
    Chain a (initial T a pattern).queue (initial T a pattern).isFree (List.range a.count) := by
  have hpos := a.count_pos
  have hle := a.count_le
  refine ⟨⟨?_, ?_, List.nodup_range⟩, rfl, ?_, fun i => ?_⟩
  · rw [List.range_eq_range']
    exact linked_seed hle (Nat.zero_add _) hpos
  · obtain ⟨n, hn⟩ : ∃ n, a.count = n + 1 := ⟨a.count - 1, by omega⟩
    rw [List.range_eq_range', hn, lastIndex_range']
    simp only [initial, hn]
    rw [int32_eq (by omega) (by omega)]
    push_cast
    omega
  · simp [initial]
  · simp [initial, World.isFree]

/-- The slots of a fresh slab are zero: the canaries are elsewhere. -/
lemma initial_zero (a : Shape) (pattern : ℕ → UInt8) {i : ℕ} (hi : i < a.count) :
    (initial T a pattern).slotZero a i := by
  intro k hk
  have hlt := Shape.start_add_lt hi hk
  have hin := Shape.start_add_lt_innerLen hi hk
  simp only [initial]
  rw [CanaryLayout.getElem?_arm, List.getElem?_replicate, if_pos hin]
  intro z hz
  rcases CanaryLayout.mem_zones hz with ⟨j, -, rfl⟩ | ⟨rfl, -⟩
  · have hj : (j + 1) * a.stride = a.start j + a.stride := by
      rw [Shape.start, Nat.add_mul, Nat.one_mul]
    have := Shape.not_in_strip (a := a) (i := j) (j := i) hk
    simp only [Shape.canary, arenaCanary, hj]
    exact this
  · simp only [Shape.canary, arenaCanary]
    split
    · simp only
      omega
    · simp

lemma initial_inv (a : Shape) (pattern : ℕ → UInt8) : Inv a (initial T a pattern) where
  chain _ := ⟨_, initial_chain a pattern⟩
  history := ⟨_, rfl⟩
  issued h hh := by cases hh
  nodup := List.nodup_nil
  claimed i t h := by cases h
  zero _ i hi _ := initial_zero a pattern hi
  length := by simp [initial]
  region _ := ⟨by simp [initial], fun _ => rfl, fun _ => rfl⟩
  destroyed h := by cases h
  borrows x hx := by cases hx
  apart x hx := by cases hx

/-! ## Runs -/

/-- The runs of an arena: any goroutines, making any of the calls. -/
def Run [DecidableEq T] (a : Shape) (pattern : ℕ → UInt8) (w₀ : World T)
    (p : Pool Act Res Call T (World T)) : Prop :=
  Pool.Run (system T a pattern) (fun _ => true) (fun w => w = w₀) p

lemma newArena_eq {env : Env} {slotSize count : ℤ} {a : Shape} {pattern : ℕ → UInt8}
    {w₀ : World T} (h : newArena T env slotSize count = .ok (a, pattern, w₀)) :
    w₀ = initial T a pattern := by
  unfold newArena at h
  split at h
  · cases h
  split at h
  · cases h
  split at h
  · cases h
  split at h
  · cases h
  split at h
  · cases h
  split at h
  · cases h
  split at h
  · cases h
  split at h
  · cases h
  split at h
  · cases h
  · cases h
    rfl

/-- Every state of every run of an arena satisfies the invariant, and every action a goroutine
is about to perform is safe. -/
lemma Run.sound [DecidableEq T] {env : Env} {slotSize count : ℤ} {a : Shape}
    {pattern : ℕ → UInt8} {w₀ : World T} {p : Pool Act Res Call T (World T)}
    (hnew : newArena T env slotSize count = .ok (a, pattern, w₀)) (h : Run a pattern w₀ p) :
    Inv a p.state ∧ ∀ t i k, p.thread t = .act i k → Safe a t i p.state := by
  refine Discipline.sound (D := discipline T a pattern) (fun _ c => code_outline c)
    (fun _ _ _ _ => trivial) ?_ h
  rintro w rfl
  rw [newArena_eq hnew]
  exact initial_inv a pattern

/-! ## A concrete arena -/

/-- Two slots of one byte, on a platform where everything succeeds. -/
def tinyEnv : Env where
  closedAtRest := false
  insecureFallback := false
  platformHasSecureMemory := true
  maxInt := 2 ^ 63 - 1
  alloc n := .ok n
  alloc_le n m h := by cases h; exact le_rfl
  pattern := .ok fun _ => 165
  register := none

def tiny : Shape where
  slotSize := 1
  count := 2
  innerLen := 34
  slotSize_pos := by decide
  count_pos := by decide
  count_le := by decide
  fits := by decide

/-- The fresh arena with every goroutine idle. -/
def tinyPool : Pool Act Res Call (Fin 2) (World (Fin 2)) :=
  ⟨initial (Fin 2) tiny fun _ => 165, fun _ => .ret ()⟩

lemma tinyPool_run : Run tiny (fun _ => 165) (initial (Fin 2) tiny fun _ => 165) tinyPool :=
  Reachable.start ⟨rfl, fun _ => rfl⟩

/-! ## The results -/

section Results

variable [DecidableEq T] {env : Env} {slotSize count : ℤ} {a : Shape} {pattern : ℕ → UInt8}
  {w₀ : World T} {p : Pool Act Res Call T (World T)}

omit [DecidableEq T] in
/-- The slots not on a list of distinct slots. -/
lemma length_filter_not_mem {n : ℕ} {l : List ℕ} (hl : l.Nodup) (hlt : ∀ i ∈ l, i < n) :
    (((List.range n).filter fun i => i ∉ l).length : ℤ) = n - l.length := by
  have hsub : l.Perm ((List.range n).filter fun i => i ∈ l) := by
    refine (List.perm_ext_iff_of_nodup hl (List.nodup_range.filter _)).mpr fun i => ?_
    simp only [List.mem_filter, List.mem_range, decide_eq_true_eq]
    exact ⟨fun h => ⟨hlt i h, h⟩, fun h => h.2⟩
  have hsum := List.length_eq_length_filter_add (l := List.range n) fun i => decide (i ∈ l)
  rw [List.length_range, ← hsub.length_eq] at hsum
  simp only [decide_not] at hsum ⊢
  omega

/-- A handle is its slot's latest: no later handle on the slot has been issued. -/
def World.latest (w : World T) (h : ArenaSlot) : Prop :=
  ∀ h' ∈ w.issued, h'.idx = h.idx → h'.generation ≤ h.generation

omit [DecidableEq T] in
lemma Claimed.latest {t : T} {h : ArenaSlot} {w : World T} (hi : Inv a w) (hc : Claimed t h w) :
    w.latest h := by
  intro h' hh' hidx
  obtain ⟨-, hodd, -⟩ := hi.issued h hc.issued
  obtain ⟨-, hodd', hle⟩ := hi.issued h' hh'
  have hret := hc.retired
  rw [hidx] at hle
  omega

omit [DecidableEq T] in
lemma Borrowed.latest {t : T} {h : ArenaSlot} {w : World T} (hi : Inv a w)
    (hb : Borrowed t h w) : w.latest h := by
  intro h' hh' hidx
  have hle := (hi.issued h' hh').2.2
  rw [hidx, hb.current] at hle
  exact hle

/-- The free list of every arena `NewArena` admits, in every run.  With `alloc` free, the chain
from `freeHead` is a finite list without repetition that ends at `freeTail`; it holds exactly
the slots whose generation is even and which no `Release` has claimed and not yet appended; and
`live` counts the others.  No two handles that are still current name the same slot.  `Acquire`
reports a full arena only when the list it found is empty, hands out the head of that list
otherwise, and has no third answer on an arena that is neither destroyed nor wiped.  And between
the append of a slot and its next acquisition every slot that was on the list is acquired. -/
theorem freeList_sound (hnew : newArena T env slotSize count = .ok (a, pattern, w₀))
    (hrun : Run a pattern w₀ p) :
    (p.state.alloc = none → ∃ l,
      LinkedQueue p.state.queue.next p.state.queue.freeHead p.state.queue.freeTail l ∧
      replay (List.range a.count) p.state.queue.history = some l ∧
      (∀ i, i ∈ l ↔
        i < a.count ∧ p.state.generation i % 2 = 0 ∧ p.state.claims i = none) ∧
      p.state.queue.live = ((List.range a.count).filter fun i => i ∉ l).length) ∧
    p.state.issued.Pairwise (fun h h' => h.idx = h'.idx →
      ¬(p.state.generation h.idx = h.generation ∧ p.state.generation h'.idx = h'.generation)) ∧
    (∀ t r k, p.thread t = .act (.acquireReturns r) k →
      match r with
      | .error e => e = Sentinel.errDestroyed ∧ p.state.destroyed = true ∨
          e = Sentinel.errWiped ∧ p.state.slab.wiped = true ∨
          e = Sentinel.errArenaFull ∧
            LinkedQueue p.state.queue.next p.state.queue.freeHead p.state.queue.freeTail []
      | .ok h => ∃ es l, p.state.queue.history = es ++ [.popped h.idx] ∧
          replay (List.range a.count) es = some (h.idx :: l)) ∧
    (∀ es i mid rest l, p.state.queue.history = es ++ .pushed i :: mid ++ .popped i :: rest →
      .popped i ∉ mid → replay (List.range a.count) es = some l → ∀ j ∈ l, .popped j ∈ mid) := by
  obtain ⟨hi, hsafe⟩ := hrun.sound hnew
  refine ⟨fun hal => ?_, ?_, fun t r k hact => ?_, fun es i mid rest l heq hmid hl => ?_⟩
  · obtain ⟨l, hl⟩ := hi.chain hal
    refine ⟨l, hl.linked, hl.history, hl.mem_iff, ?_⟩
    rw [length_filter_not_mem hl.linked.nodup fun i hil => ((hl.mem_iff i).mp hil).1]
    exact hl.live
  · refine hi.nodup.imp fun {h h'} hne hidx hcur => hne ?_
    cases h
    cases h'
    simp only at hidx hcur
    subst hidx
    rw [← hcur.1, ← hcur.2]
  · have hs := (hsafe t _ k hact).2
    cases r with
    | error e => exact hs.imp_right (Or.imp_right (And.imp_right Chain.linked))
    | ok h => exact hs
  · obtain ⟨q, hq⟩ := hi.history
    rw [heq] at hq
    exact replay_fifo hl hq hmid

/-- After one goroutine's `Acquire` the second slot is what is left on the list. -/
theorem freeList_sound_acquired : ∃ p, tinyPool.moves (system (Fin 2) tiny fun _ => 165)
    (fun _ => true) (.start 0 .acquire :: List.replicate 11 (.step 0 none)) = some p ∧
    p.state.issued = [⟨0, 1⟩] ∧
    ∃ l, LinkedQueue p.state.queue.next p.state.queue.freeHead p.state.queue.freeTail l ∧
      p.state.queue.live = ((List.range 2).filter fun i => i ∉ l).length := by
  refine tinyPool_run.exists_moves
    (P := fun p => p.state.issued = [⟨0, 1⟩] ∧ p.state.alloc = none) ⟨_, rfl, rfl, rfl⟩ ?_
  rintro p hrun ⟨hissued, hal⟩
  have hnew : newArena (Fin 2) tinyEnv 1 2 = .ok (tiny, _, initial (Fin 2) tiny _) := rfl
  obtain ⟨l, hl, -, -, hlive⟩ := (freeList_sound hnew hrun).1 hal
  exact ⟨hissued, l, hl, hlive⟩

/-- No stale handle reaches a slot's new owner, in every run of every arena.  A borrow runs its
callback, and the callback makes each of its writes, only while its handle is the slot's current
owner.  Whatever `Release` writes — the slot's bytes or its canary strip — it writes to a slot
that no later handle has acquired.  And the slot `Acquire` hands out is all zero. -/
theorem staleHandle_harmless (hnew : newArena T env slotSize count = .ok (a, pattern, w₀))
    (hrun : Run a pattern w₀ p) :
    (∀ t h k, p.thread t = .act (.callbackRuns h) k →
      p.state.generation h.idx = h.generation ∧ p.state.latest h) ∧
    (∀ t h j v k, p.thread t = .act (.callbackWrite h j v) k →
      j < a.slotSize ∧ p.state.generation h.idx = h.generation ∧ p.state.latest h) ∧
    (∀ t h j k, p.thread t = .act (.wipeByte h j) k → j < a.slotSize ∧ p.state.latest h) ∧
    (∀ t h k, p.thread t = .act (.fillStrip h) k → p.state.latest h) ∧
    (∀ t i k, p.thread t = .act (.addGeneration i) k →
      ∀ j < a.slotSize, p.state.mem[a.start i + j]? = some 0) := by
  obtain ⟨hi, hsafe⟩ := hrun.sound hnew
  refine ⟨fun t h k hact => ?_, fun t h j v k hact => ?_, fun t h j k hact => ?_,
    fun t h k hact => ?_, fun t i k hact => ?_⟩
  · have hb : Borrowed t h p.state := hsafe t _ k hact
    exact ⟨hb.current, hb.latest hi⟩
  · obtain ⟨hb, hj⟩ : Borrowed t h p.state ∧ j < a.slotSize := hsafe t _ k hact
    exact ⟨hj, hb.current, hb.latest hi⟩
  · obtain ⟨hc, -, -, hj⟩ : Claimed t h p.state ∧ t ∈ p.state.mu.readers ∧ p.state.slab.Open ∧
        j < a.slotSize := hsafe t _ k hact
    exact ⟨hj, hc.latest hi⟩
  · obtain ⟨hc, -⟩ : Claimed t h p.state ∧ t ∈ p.state.mu.readers ∧ p.state.slab.Open :=
      hsafe t _ k hact
    exact hc.latest hi
  · obtain ⟨-, -, -, hz, -⟩ : p.state.alloc = some t ∧ i < a.count ∧ p.state.isFree i ∧
        p.state.slotZero a i ∧ _ := hsafe t _ k hact
    exact hz

/-- A borrow through the handle just acquired is about to run its callback as the owner. -/
theorem staleHandle_harmless_borrow : ∃ p, tinyPool.moves (system (Fin 2) tiny fun _ => 165)
    (fun _ => true) (.start 0 .acquire :: List.replicate 11 (.step 0 none) ++
      .start 0 (.withBytesErr (some ⟨0, 1⟩) (some ⟨[(0, 7)], none⟩)) ::
      List.replicate 6 (.step 0 none)) = some p ∧
    (∃ k, p.thread 0 = .act (.callbackRuns ⟨0, 1⟩) k) ∧
    p.state.generation 0 = 1 ∧ p.state.latest ⟨0, 1⟩ := by
  refine tinyPool_run.exists_moves
    (P := fun p => ∃ k, p.thread 0 = .act (.callbackRuns ⟨0, 1⟩) k) ⟨_, rfl, _, rfl⟩ ?_
  rintro p hrun ⟨k, hk⟩
  have hnew : newArena (Fin 2) tinyEnv 1 2 = .ok (tiny, _, initial (Fin 2) tiny _) := rfl
  exact ⟨⟨k, hk⟩, (staleHandle_harmless hnew hrun).1 0 _ k hk⟩

/-- `Release` meets the slab as it takes it to be, in every run of every arena, whatever calls to
the platform fail.  Each of its writes, to the canary strip and to the slot, lands in a mapped and
writable slab; and it returns `ErrReadOnly` only with the slab mapped and read-only, and with the
region lock held, so that this cannot change under it. -/
theorem release_meets_slab (hnew : newArena T env slotSize count = .ok (a, pattern, w₀))
    (hrun : Run a pattern w₀ p) :
    (∀ t h k, p.thread t = .act (.fillStrip h) k →
      p.state.slab.mapped = true ∧ p.state.slab.prot.writable = true) ∧
    (∀ t h j k, p.thread t = .act (.wipeByte h j) k →
      p.state.slab.mapped = true ∧ p.state.slab.prot.writable = true) ∧
    (∀ t h k, p.thread t = .act (.refuses h) k →
      t ∈ p.state.mu.readers ∧ p.state.slab.mapped = true ∧ p.state.slab.prot = .read) := by
  obtain ⟨-, hsafe⟩ := hrun.sound hnew
  have hopen (hs : p.state.slab.Open) :
      p.state.slab.mapped = true ∧ p.state.slab.prot.writable = true := by
    rw [hs.1, hs.2]
    exact ⟨rfl, rfl⟩
  refine ⟨fun t h k hact => ?_, fun t h j k hact => ?_, fun t h k hact => hsafe t _ k hact⟩
  · obtain ⟨-, -, hs⟩ : Claimed t h p.state ∧ t ∈ p.state.mu.readers ∧ p.state.slab.Open :=
      hsafe t _ k hact
    exact hopen hs
  · obtain ⟨-, -, hs, -⟩ : Claimed t h p.state ∧ t ∈ p.state.mu.readers ∧ p.state.slab.Open ∧
        j < a.slotSize := hsafe t _ k hact
    exact hopen hs

/-- A release of a slot of a read-only arena is about to be refused. -/
theorem release_meets_slab_readOnly : ∃ p, tinyPool.moves (system (Fin 2) tiny fun _ => 165)
    (fun _ => true) (.start 0 .acquire :: List.replicate 11 (.step 0 none) ++
      .start 1 .readOnly :: List.replicate 6 (.step 1 none) ++
      .start 0 (.release (some ⟨0, 1⟩)) :: List.replicate 6 (.step 0 none)) = some p ∧
    (∃ k, p.thread 0 = .act (.refuses ⟨0, 1⟩) k) ∧
    0 ∈ p.state.mu.readers ∧ p.state.slab.mapped = true ∧ p.state.slab.prot = .read := by
  refine tinyPool_run.exists_moves (P := fun p => ∃ k, p.thread 0 = .act (.refuses ⟨0, 1⟩) k)
    ⟨_, rfl, _, rfl⟩ ?_
  rintro p hrun ⟨k, hk⟩
  have hnew : newArena (Fin 2) tinyEnv 1 2 = .ok (tiny, _, initial (Fin 2) tiny _) := rfl
  exact ⟨⟨k, hk⟩, (release_meets_slab hnew hrun).2.2 0 _ k hk⟩

end Results

end Secmem.Arena
