import Secmem.Arena.Discipline

/-!
# Every safe action keeps the arena's discipline

The lemmas follow the groups of the state: an action on the queue, on the slab, on the bytes,
on a lock, on a generation or on the lists of calls in progress.  `keeps` then goes through the
actions one by one.
-/

namespace Secmem.Arena

open Function

variable {T : Type} {a : Shape} {t : T} {w w' : World T} {h : ArenaSlot}

lemma Rely.refl (a : Shape) (t : T) (w : World T) : Rely a t w w where
  alloc h := ⟨h, rfl, fun _ => Iff.rfl⟩
  reader := Iff.rfl
  writer := Iff.rfl
  slab _ := rfl
  claims _ := Iff.rfl
  claimed _ _ := ⟨rfl, fun _ _ h => h⟩
  free _ _ _ _ h := h
  borrowing _ := Iff.rfl
  releasing _ := Iff.rfl
  current _ _ h := h
  inner h := h
  wiped h := h
  destroyed h := h
  issued _ h := h

lemma Rely.trans {w₁ w₂ w₃ : World T} (h : Rely a t w₁ w₂) (h' : Rely a t w₂ w₃) :
    Rely a t w₁ w₃ where
  alloc hal := by
    obtain ⟨hal₂, hq, hf⟩ := h.alloc hal
    obtain ⟨hal₃, hq', hf'⟩ := h'.alloc hal₂
    exact ⟨hal₃, hq'.trans hq, fun i => (hf' i).trans (hf i)⟩
  reader := h'.reader.trans h.reader
  writer := h'.writer.trans h.writer
  slab hl := by
    have hl₂ : t ∈ w₂.mu.readers ∨ w₂.mu.writer = some t :=
      hl.imp h.reader.mpr h.writer.mpr
    exact (h'.slab hl₂).trans (h.slab hl)
  claims i := (h'.claims i).trans (h.claims i)
  claimed i hc := by
    obtain ⟨hg, hz⟩ := h.claimed i hc
    obtain ⟨hg', hz'⟩ := h'.claimed i ((h.claims i).mpr hc)
    exact ⟨hg'.trans hg, fun k hk hb => hz' k hk (hz k hk hb)⟩
  free hal i hi hf hz := by
    obtain ⟨hal₂, -, hfree⟩ := h.alloc hal
    exact h'.free hal₂ i hi ((hfree i).mpr hf) (h.free hal i hi hf hz)
  borrowing x := (h'.borrowing x).trans (h.borrowing x)
  releasing x := (h'.releasing x).trans (h.releasing x)
  current x hx hc := h'.current x ((h.borrowing x).mpr hx) (h.current x hx hc)
  inner hi := h'.inner (h.inner hi)
  wiped hw := h'.wiped (h.wiped hw)
  destroyed hd := h'.destroyed (h.destroyed hd)
  issued x hx := h'.issued x (h.issued x hx)

/-- The step from `w` to `w'` by goroutine `t` keeps the discipline. -/
def Kept (a : Shape) (t : T) (w w' : World T) : Prop :=
  Inv a w' ∧ ∀ u, u ≠ t → Rely a u w w'

lemma Kept.same (hi : Inv a w) : Kept a t w w := ⟨hi, fun u _ => Rely.refl a u w⟩

/-! ## The queue and its mutex -/

/-- The holder of `alloc` may do what it likes to the queue until it gives the mutex back. -/
lemma kept_queue (hi : Inv a w) (hal : w.alloc = some t) {q : Queue}
    (hq : q.history = w.queue.history) : Kept a t w { w with queue := q } := by
  refine ⟨{ hi with chain := fun h => ?_, history := hq ▸ hi.history },
    fun u hu => { Rely.refl a u w with alloc := ?_ }⟩
  · rw [hal] at h
    cases h
  · exact fun h => (ne_some_of_ne hal hu h).elim

lemma kept_allocLock (hi : Inv a w) (hal : w.alloc = none) :
    Kept a t w { w with alloc := some t } := by
  refine ⟨{ hi with chain := fun h => ?_ }, fun u hu =>
    { Rely.refl a u w with alloc := ?_, free := ?_ }⟩
  · cases h
  · intro h
    rw [hal] at h
    cases h
  · exact fun h _ _ _ hz => hz

lemma kept_allocUnlock (hi : Inv a w) (hal : w.alloc = some t) {l : List ℕ}
    (hl : Chain a w.queue w.isFree l) : Kept a t w { w with alloc := none } := by
  refine ⟨{ hi with chain := fun _ => ⟨l, hl⟩ }, fun u hu =>
    { Rely.refl a u w with alloc := ?_ }⟩
  exact fun h => (ne_some_of_ne hal hu h).elim

/-! ## The slab and the region lock -/

lemma not_reader_or_writer {l : RWLock T} {u : T} (h : l.writer = some t) (hu : u ≠ t) :
    ¬(u ∈ l.readers ∨ l.writer = some u) := by
  rintro (hr | hw)
  · exact RWLock.not_reader_of_writer h hr
  · exact ne_some_of_ne h hu hw

/-- The exclusive holder of the region lock may change what it guards; the region itself goes
only once the arena is marked destroyed, and never comes back. -/
lemma kept_slab (hi : Inv a w) (hw : w.mu.writer = some t) {s : Slab}
    (hinner : s.inner = true → w.slab.inner = true)
    (hgone : s.inner = false → w.destroyed = true)
    (hwiped : w.slab.wiped = true → s.wiped = true) : Kept a t w { w with slab := s } := by
  refine ⟨{ hi with
    zero := fun h => hi.zero (hinner h)
    region := fun h => ?_
    destroyed := hgone }, fun u hu => { Rely.refl a u w with
      slab := ?_, inner := ?_, wiped := hwiped }⟩
  · rw [hw] at h
    cases h
  · exact fun h => (not_reader_or_writer hw hu h).elim
  · intro h
    cases hs : s.inner
    · rfl
    · rw [hinner hs] at h
      cases h

lemma kept_rLock [DecidableEq T] (hi : Inv a w) {l : RWLock T} (h : w.mu.rLock t = some l) :
    Kept a t w { w with mu := l } := by
  obtain ⟨hfree, hw, hr⟩ := RWLock.rLock_eq h
  refine ⟨{ hi with region := fun _ => hi.region hfree }, fun u hu =>
    { Rely.refl a u w with reader := ?_, writer := ?_ }⟩
  · simp only [hr, List.mem_cons, hu, false_or]
  · simp only [hw, hfree]

lemma kept_rUnlock [DecidableEq T] (hi : Inv a w) :
    Kept a t w { w with mu := w.mu.rUnlock t } := by
  refine ⟨{ hi with region := hi.region }, fun u hu => { Rely.refl a u w with reader := ?_ }⟩
  exact List.mem_erase_of_ne hu

lemma kept_lock (hi : Inv a w) {l : RWLock T} (h : w.mu.lock t = some l) :
    Kept a t w { w with mu := l } := by
  obtain ⟨hfree, hnone, hw, hr⟩ := RWLock.lock_eq h
  refine ⟨{ hi with region := fun h => ?_ }, fun u hu =>
    { Rely.refl a u w with reader := ?_, writer := ?_ }⟩
  · rw [hw] at h
    cases h
  · simp only [hr, hnone]
  · simp only [hw, hfree, Option.some.injEq, reduceCtorEq, iff_false]
    exact fun h => hu h.symm

lemma kept_unlock (hi : Inv a w) (hw : w.mu.writer = some t) (hs : w.slab.Sound) :
    Kept a t w { w with mu := w.mu.unlock } := by
  refine ⟨{ hi with region := fun _ => hs }, fun u hu => { Rely.refl a u w with writer := ?_ }⟩
  simp only [RWLock.unlock, reduceCtorEq, false_iff]
  exact ne_some_of_ne hw hu

/-! ## Bytes -/

/-- A change of the slab's bytes that leaves zero every zero byte of a free slot and of a slot
another goroutine has claimed. -/
lemma kept_mem (hi : Inv a w) {m : List UInt8} (hlen : m.length = w.mem.length)
    (hz : ∀ i k, i < a.count → k < a.slotSize → w.isFree i ∨ (∃ u, u ≠ t ∧ w.claims i = some u) →
      w.mem[a.start i + k]? = some 0 → m[a.start i + k]? = some 0) :
    Kept a t w { w with mem := m } := by
  refine ⟨{ hi with
    zero := fun hin i hic hf k hk => hz i k hic hk (Or.inl hf) (hi.zero hin i hic hf k hk)
    length := hlen.trans hi.length },
    fun u hu => { Rely.refl a u w with claimed := ?_, free := ?_ }⟩
  · exact fun i hc => ⟨rfl, fun k hk => hz i k (hi.claimed i u hc).1 hk (Or.inr ⟨u, hu, hc⟩)⟩
  · exact fun _ i hic hf hzero k hk => hz i k hic hk (Or.inl hf) (hzero k hk)

/-- Writing zeros is always fine. -/
lemma kept_wipeByte (hi : Inv a w) (addr : ℕ) : Kept a t w { w with mem := w.mem.set addr 0 } := by
  refine kept_mem hi List.length_set fun i k hic hk _ hzero => ?_
  rw [List.getElem?_set]
  split
  next heq =>
    rw [if_pos]
    rw [hi.length, heq]
    exact Shape.start_add_lt_innerLen hic hk
  next => exact hzero

lemma kept_wipeSlab (hi : Inv a w) : Kept a t w { w with mem := wipeBytes w.mem } := by
  refine kept_mem hi (length_wipeBytes _) fun i k hic hk _ _ => getElem?_wipeBytes ?_
  rw [hi.length]
  exact Shape.start_add_lt_innerLen hic hk

lemma kept_fillStrip (hi : Inv a w) (pattern : ℕ → UInt8) (j : ℕ) :
    Kept a t w { w with
      mem := fillCanary pattern w.mem (a.start j + a.slotSize) (a.start j + a.stride) } := by
  refine kept_mem hi (length_fillCanary _ _ _ _) fun i k hic hk _ hzero => ?_
  rw [getElem?_fillCanary (Shape.not_in_strip hk)]
  exact hzero

/-- A callback writes into a slot that is live, so neither free nor claimed. -/
lemma kept_callbackWrite (hi : Inv a w) (hb : Borrowed t h w) {k : ℕ}
    (hk : k < a.slotSize) (v : UInt8) :
    Kept a t w { w with mem := w.mem.set (a.start h.idx + k) v } := by
  have hodd : w.generation h.idx % 2 = 1 := by
    rw [hb.current]
    exact (hi.issued h hb.issued).2.1
  refine kept_mem hi List.length_set fun i l hic hl hown hzero => ?_
  have hne : i ≠ h.idx := by
    rintro rfl
    rcases hown with hf | ⟨u, -, hu⟩
    · have := hf.1
      omega
    · have := (hi.claimed _ u hu).2
      omega
  rw [List.getElem?_set_ne]
  · exact hzero
  · intro heq
    have hlt := a.slotSize_lt_stride
    exact hne (Shape.start_add_inj (a := a) (by omega) (by omega) heq).1.symm

/-! ## Generations and claims -/

/-- `Acquire`'s increment: a free slot of the list becomes live under a new handle. -/
lemma kept_addGeneration (hi : Inv a w) {i : ℕ} (hal : w.alloc = some t) (hic : i < a.count)
    (hf : w.isFree i) {q : Queue} (hq : ∃ l, replay (List.range a.count) q.history = some l) :
    Kept a t w { w with
      generation := update w.generation i (w.generation i + 1)
      issued := w.issued ++ [⟨i, w.generation i + 1⟩]
      queue := q } := by
  have heven := hf.1
  have hold : ∀ j, w.generation j ≤ update w.generation i (w.generation i + 1) j := by
    intro j
    by_cases hj : j = i
    · subst hj
      simp
    · simp [update_of_ne hj]
  have hodd : ∀ j, update w.generation i (w.generation i + 1) j % 2 = 0 →
      j ≠ i := by
    rintro j hj rfl
    rw [update_self] at hj
    omega
  constructor
  · refine { hi with
      chain := fun h => ?_, history := hq, issued := ?_, nodup := ?_, claimed := ?_, zero := ?_,
      borrows := ?_ }
    · rw [hal] at h
      cases h
    · intro h hh
      rcases List.mem_append.mp hh with hh | hh
      · obtain ⟨h₁, h₂, h₃⟩ := hi.issued h hh
        exact ⟨h₁, h₂, h₃.trans (hold _)⟩
      · rw [List.mem_singleton.mp hh]
        refine ⟨hic, by simp only; omega, ?_⟩
        simp
    · refine List.nodup_append.mpr ⟨hi.nodup, List.nodup_singleton _, ?_⟩
      rintro x hx y hy rfl
      have hle := (hi.issued x hx).2.2
      rw [List.mem_singleton.mp hy] at hle
      simp only at hle
      omega
    · intro j u hc
      have hne : j ≠ i := by
        rintro rfl
        rw [hf.2] at hc
        cases hc
      simp only [update_of_ne hne]
      exact hi.claimed j u hc
    · intro hin j hjc hjf
      have hne := hodd j hjf.1
      refine hi.zero hin j hjc ⟨?_, hjf.2⟩
      simpa only [update_of_ne hne] using hjf.1
    · exact fun x hx => List.mem_append_left _ (hi.borrows x hx)
  · intro u hu
    refine { Rely.refl a u w with alloc := ?_, claimed := ?_, current := ?_, issued := ?_ }
    · exact fun h => (ne_some_of_ne hal hu h).elim
    · intro j hc
      have hne : j ≠ i := by
        rintro rfl
        rw [hf.2] at hc
        cases hc
      exact ⟨update_of_ne hne _ _, fun _ _ h => h⟩
    · intro h hh hcur
      have hne : h.idx ≠ i := by
        rintro rfl
        have := (hi.issued h (hi.borrows _ hh)).2.1
        omega
      simp only [update_of_ne hne]
      exact hcur
    · exact fun h hh => List.mem_append_left _ hh

/-- `Release`'s compare-and-swap, when it succeeds: the handle is retired and the slot claimed.
No borrow goes through the handle, so no borrower loses its slot. -/
lemma kept_casGeneration (hi : Inv a w) (hrel : (t, h) ∈ w.releasing)
    (hiss : h ∈ w.issued) (hcur : w.generation h.idx = h.generation) :
    Kept a t w { w with
      generation := update w.generation h.idx (h.generation + 1)
      claims := update w.claims h.idx (some t) } := by
  obtain ⟨hidx, hodd, -⟩ := hi.issued h hiss
  have hunclaimed : w.claims h.idx = none := by
    by_contra hc
    obtain ⟨u, hu⟩ := Option.ne_none_iff_exists'.mp hc
    have := (hi.claimed _ u hu).2
    omega
  -- the slot was not free, being live, and is not free now, being claimed
  have hfree : ∀ j, (update w.generation h.idx (h.generation + 1) j % 2 = 0 ∧
      update w.claims h.idx (some t) j = none) ↔ w.isFree j := by
    intro j
    by_cases hj : j = h.idx
    · subst hj
      simp only [update_self, World.isFree, reduceCtorEq, and_false, false_iff]
      omega
    · rw [update_of_ne hj, update_of_ne hj]
      rfl
  constructor
  · refine { hi with chain := fun hal => ?_, issued := ?_, claimed := ?_, zero := ?_ }
    · obtain ⟨l, hl⟩ := hi.chain hal
      exact ⟨l, { hl with mem_iff := fun i => (hl.mem_iff i).trans (and_congr_right fun _ =>
        (hfree i).symm) }⟩
    · intro x hx
      obtain ⟨h₁, h₂, h₃⟩ := hi.issued x hx
      refine ⟨h₁, h₂, h₃.trans ?_⟩
      by_cases hj : x.idx = h.idx
      · simp only [hj, update_self]
        omega
      · simp only [update_of_ne hj]
        exact le_rfl
    · intro j u hc
      by_cases hj : j = h.idx
      · subst hj
        simp only [update_self]
        exact ⟨hidx, by omega⟩
      · simp only [update_of_ne hj] at hc ⊢
        exact hi.claimed j u hc
    · exact fun hin j hjc hjf => hi.zero hin j hjc ((hfree j).mp hjf)
  · intro u hu
    refine { Rely.refl a u w with
      alloc := fun h => ⟨h, rfl, hfree⟩, claims := ?_, claimed := ?_, current := ?_ }
    · intro j
      by_cases hj : j = h.idx
      · subst hj
        simp only [update_self, Option.some.injEq, hunclaimed, reduceCtorEq, iff_false]
        exact fun h => hu h.symm
      · simp only [update_of_ne hj]
    · intro j hc
      have hne : j ≠ h.idx := by
        rintro rfl
        rw [hunclaimed] at hc
        cases hc
      exact ⟨update_of_ne hne _ _, fun _ _ h => h⟩
    · intro x hx hxcur
      have hne : x.idx ≠ h.idx := by
        intro hj
        have hxh : x = h := by
          cases x
          cases h
          simp only at hj hxcur hcur
          subst hj
          simp only [ArenaSlot.mk.injEq, true_and]
          omega
        exact hi.apart _ hx _ hrel hxh
      simp only [update_of_ne hne]
      exact hxcur

/-- `Release`'s append: the claimed slot is free from here on. -/
lemma kept_appended (hi : Inv a w) (hal : w.alloc = some t)
    (hc : Claimed t h w) (hz : w.slab.inner = true → w.slotZero a h.idx) {q : Queue}
    (hq : ∃ l, replay (List.range a.count) q.history = some l) :
    Kept a t w { w with claims := update w.claims h.idx none, queue := q } := by
  have hne : ∀ {j u}, u ≠ t → w.claims j = some u → j ≠ h.idx := by
    rintro j u hu hj rfl
    rw [hc.claims] at hj
    exact hu (Option.some.inj hj).symm
  constructor
  · refine { hi with chain := fun h => ?_, history := hq, claimed := ?_, zero := ?_ }
    · rw [hal] at h
      cases h
    · intro j u hj
      have hji : j ≠ h.idx := by
        rintro rfl
        simp at hj
      simp only [update_of_ne hji] at hj
      exact hi.claimed j u hj
    · intro hin j hjc hjf
      by_cases hj : j = h.idx
      · subst hj
        exact hz hin
      · refine hi.zero hin j hjc ⟨hjf.1, ?_⟩
        simpa only [update_of_ne hj] using hjf.2
  · intro u hu
    refine { Rely.refl a u w with alloc := ?_, claims := ?_ }
    · exact fun h => (ne_some_of_ne hal hu h).elim
    · intro j
      by_cases hj : j = h.idx
      · subst hj
        simp only [update_self, hc.claims, Option.some.injEq, reduceCtorEq, false_iff]
        exact fun h => hu h.symm
      · simp only [update_of_ne hj]

/-! ## The calls in progress -/

section Calls

variable [DecidableEq T]

omit [DecidableEq T] in
lemma mem_cons_other {l : List (T × ArenaSlot)} {x : ArenaSlot} {u : T} {y : ArenaSlot}
    (hu : u ≠ t) : (u, y) ∈ (t, x) :: l ↔ (u, y) ∈ l := by
  simp [hu]

lemma mem_erase_other {l : List (T × ArenaSlot)} {x : ArenaSlot} {u : T} {y : ArenaSlot}
    (hu : u ≠ t) : (u, y) ∈ l.erase (t, x) ↔ (u, y) ∈ l :=
  List.mem_erase_of_ne fun h => hu (congrArg Prod.fst h)

omit [DecidableEq T] in
lemma kept_enterBorrow (hi : Inv a w) (hiss : h ∈ w.issued)
    (hrel : ∀ x ∈ w.releasing, x.2 ≠ h) :
    Kept a t w { w with borrowing := (t, h) :: w.borrowing } := by
  refine ⟨{ hi with borrows := ?_, apart := ?_ }, fun u hu =>
    { Rely.refl a u w with borrowing := fun x => mem_cons_other hu, current := ?_ }⟩
  · intro x hx
    rcases List.mem_cons.mp hx with rfl | hx
    · exact hiss
    · exact hi.borrows x hx
  · intro x hx y hy
    rcases List.mem_cons.mp hx with rfl | hx
    · exact (hrel y hy).symm
    · exact hi.apart x hx y hy
  · exact fun x _ hcur => hcur

lemma kept_leaveBorrow (hi : Inv a w) (h : ArenaSlot) :
    Kept a t w { w with borrowing := w.borrowing.erase (t, h) } := by
  refine ⟨{ hi with
    borrows := fun x hx => hi.borrows x (List.mem_of_mem_erase hx)
    apart := fun x hx => hi.apart x (List.mem_of_mem_erase hx) }, fun u hu =>
    { Rely.refl a u w with borrowing := fun x => mem_erase_other hu }⟩

omit [DecidableEq T] in
lemma kept_enterRelease (hi : Inv a w) (hbor : ∀ x ∈ w.borrowing, x.2 ≠ h) :
    Kept a t w { w with releasing := (t, h) :: w.releasing } := by
  refine ⟨{ hi with apart := ?_ }, fun u hu =>
    { Rely.refl a u w with releasing := fun x => mem_cons_other hu }⟩
  intro x hx y hy
  rcases List.mem_cons.mp hy with rfl | hy
  · exact hbor x hx
  · exact hi.apart x hx y hy

lemma kept_leaveRelease (hi : Inv a w) (h : ArenaSlot) :
    Kept a t w { w with releasing := w.releasing.erase (t, h) } := by
  refine ⟨{ hi with apart := fun x hx y hy => hi.apart x hx y (List.mem_of_mem_erase hy) },
    fun u hu => { Rely.refl a u w with releasing := fun x => mem_erase_other hu }⟩

end Calls

/-! ## Every action -/

section Actions

variable [DecidableEq T]

omit [DecidableEq T] in
lemma guarded_done {α : Type} {allowed : Prot → Bool} {o : Outcome (World T) α} {r : α}
    (h : guarded w allowed o = .done r w') : o = .done r w' := by
  unfold guarded at h
  split at h
  · exact h
  · cases h

/-- A safe action of one goroutine preserves the invariant and stays within what the others
rely on. -/
lemma keeps {pattern : ℕ → UInt8} {i : Act} {c : Choice} {r : Res i} (hi : Inv a w)
    (hs : Safe a t i w) (h : exec a pattern t i c w = .done r w') : Kept a t w w' := by
  cases i <;> simp only [exec] at h
  -- loads and notes
  case readFreeHead | readFreeTail | readNext | loadDestroyed | loadWiped | loadGeneration |
      readInner | readReadOnly | madviseBeforeFree | peekAny | acquireReturns | refuses |
      callbackRuns =>
    cases h
    exact Kept.same hi
  case stripIntact | slabIntact =>
    cases guarded_done h
    exact Kept.same hi
  -- the queue
  case writeFreeHead | writeFreeTail | writeNext | addLive =>
    cases h
    exact kept_queue hi hs rfl
  case allocLock =>
    split at h <;> cases h
    next hal => exact kept_allocLock hi hal
  case allocUnlock =>
    cases h
    obtain ⟨hal, l, hl⟩ := hs
    exact kept_allocUnlock hi hal hl
  -- the atomics
  case storeDestroyed =>
    cases h
    exact ⟨{ hi with destroyed := fun _ => rfl }, fun u _ =>
      { Rely.refl a u w with destroyed := fun _ => rfl }⟩
  case storeReleased =>
    cases h
    exact ⟨{ hi with }, fun u _ => { Rely.refl a u w with }⟩
  case addGeneration =>
    cases h
    obtain ⟨hal, hic, hf, -, l, hl⟩ := hs
    refine kept_addGeneration hi hal hic hf ⟨l, ?_⟩
    rw [replay_append, hl]
    simp [QueueEvent.apply]
  case casGeneration =>
    split at h <;> cases h
    next hcur => exact kept_casGeneration hi hs.1 hs.2 hcur
    next => exact Kept.same hi
  -- the region lock
  case rLock =>
    split at h <;> cases h
    next hl => exact kept_rLock hi hl
  case rUnlock =>
    cases h
    exact kept_rUnlock hi
  case lock =>
    split at h <;> cases h
    next hl => exact kept_lock hi hl
  case tryLock =>
    split at h <;> cases h
    next hl => exact kept_lock hi hl
    next => exact Kept.same hi
  case unlock =>
    cases h
    exact kept_unlock hi hs.1 hs.2
  -- the slab
  case clearRegion =>
    cases h
    exact kept_slab hi hs.1 (fun h => Bool.noConfusion h) (fun _ => hs.2) fun h => h
  case writeReadOnly =>
    cases h
    exact kept_slab hi hs (fun h => h) hi.destroyed fun h => h
  case storeWiped =>
    cases h
    exact kept_slab hi hs (fun h => h) hi.destroyed fun _ => rfl
  case protect | unmap =>
    split at h <;> cases h
    · exact kept_slab hi hs (fun h => h) hi.destroyed fun h => h
    · exact Kept.same hi
  case take | takeWiped =>
    split at h <;> cases h
    · exact kept_slab hi hs (fun h => h) hi.destroyed fun h => h
    · exact Kept.same hi
  case moveToWiped =>
    split at h <;> cases h
    · exact kept_slab hi hs (fun h => h) hi.destroyed fun h => h
    · exact Kept.same hi
    · exact Kept.same hi
  case returnToLive =>
    split at h <;> cases h
    · exact kept_slab hi hs (fun h => h) hi.destroyed fun h => h
    · exact Kept.same hi
  -- bytes
  case fillStrip =>
    cases guarded_done h
    exact kept_fillStrip hi _ _
  case wipeByte =>
    cases guarded_done h
    exact kept_wipeByte hi _
  case callbackWrite =>
    cases guarded_done h
    exact kept_callbackWrite hi hs.1 hs.2 _
  case wipeSlab =>
    cases guarded_done h
    exact kept_wipeSlab hi
  -- calls in progress
  case appended x =>
    cases h
    obtain ⟨hal, hc, hz, l, hl, hnew⟩ := hs
    refine kept_appended hi hal hc hz ⟨l ++ [x.idx], ?_⟩
    rw [replay_append, hl]
    simp [QueueEvent.apply, hnew]
  case enterBorrow =>
    split at h <;> cases h
    next hg => exact kept_enterBorrow hi hg.1 hg.2
  case leaveBorrow =>
    cases h
    exact kept_leaveBorrow hi _
  case enterRelease =>
    split at h <;> cases h
    next hg => exact kept_enterRelease hi hg.2
  case leaveRelease =>
    cases h
    exact kept_leaveRelease hi _

/-- The arena's discipline. -/
def discipline (T : Type) [DecidableEq T] (a : Shape) (pattern : ℕ → UInt8) :
    Discipline (system T a pattern) where
  Inv := Inv a
  Rely := Rely a
  Safe := Safe a
  rely_refl := Rely.refl a
  rely_trans := Rely.trans
  keeps := keeps

end Actions

end Secmem.Arena
