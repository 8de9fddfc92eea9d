import Secmem.Arena.Mutex

/-!
# The canaries of an arena

The strips that `Release` checks are the zones of the layout that `NewArena` armed and the janitor
verifies, although the one side computes them from the slot and the other from the descriptor.  The
geometry is in `Canary`; here it is put to the slab of an arena in use: as long as nothing but
`Acquire`, borrows that stay inside their slot, and `Release` happen, in whatever interleaving, the
check of the whole slab passes.
-/

namespace Secmem.Arena

variable {T : Type} {a : Shape} {pattern : ℕ → UInt8} {w : World T}

/-! ## The slab -/

lemma Shape.zone_within {z : ℕ × ℕ} (hz : z ∈ a.canary.zones) : z.1 < z.2 ∧ z.2 ≤ a.innerLen :=
  slabCanary_within a.fits hz

/-- A zone has no byte of a slot. -/
lemma Shape.zone_apart {z : ℕ × ℕ} (hz : z ∈ a.canary.zones) {i k : ℕ} (hi : i < a.count)
    (hk : k < a.slotSize) : ¬Covers z (a.start i + k) := by
  intro hcov
  have hcross := (List.pairwise_append.mp (slabCanary_apart a.slotSize a.count a.innerLen)).2.2
  have hslot : (a.start i, a.start i + a.slotSize) ∈ a.canary.slots :=
    List.mem_map.mpr ⟨i, List.mem_range.mpr hi, rfl⟩
  exact hcross _ hslot z hz _ ⟨⟨Nat.le_add_right _ _, Nat.add_lt_add_left hk _⟩, hcov⟩

/-- The strip behind slot `i`, as `Release` computes it, is zone `i`. -/
lemma Shape.zones_getElem? {i : ℕ} (hi : i < a.count) :
    a.canary.zones[i]? = some (a.start i + a.slotSize, a.start i + a.stride) :=
  slabCanary_getElem? hi

/-- Every zone of the slab holds the pattern. -/
def Intact (a : Shape) (pattern : ℕ → UInt8) (w : World T) : Prop :=
  ∀ z ∈ a.canary.zones, CanaryLayout.Holds pattern w.mem z

lemma intact_iff (hlen : w.mem.length = a.innerLen) :
    a.canary.intact pattern w.mem = true ↔ Intact a pattern w :=
  CanaryLayout.intact_iff fun z hz => by
    rw [hlen]
    exact Shape.zone_within hz

lemma initial_intact (a : Shape) (pattern : ℕ → UInt8) :
    Intact a pattern (initial T a pattern) := by
  have hlen : (initial T a pattern).mem.length = a.innerLen := by simp [initial]
  rw [← intact_iff hlen]
  refine CanaryLayout.intact_arm ?_ fun z hz => ?_
  · exact (List.pairwise_append.mp (slabCanary_apart a.slotSize a.count a.innerLen)).2.1
  · rw [List.length_replicate]
    exact Shape.zone_within hz

/-- A write inside a slot. -/
lemma Intact.set (h : Intact a pattern w) {i k : ℕ} (hi : i < a.count) (hk : k < a.slotSize)
    (v : UInt8) : Intact a pattern { w with mem := w.mem.set (a.start i + k) v } := by
  intro z hz x hx
  have hne : a.start i + k ≠ x := by
    rintro rfl
    exact Shape.zone_apart hz hi hk hx
  rw [List.getElem?_set_ne hne]
  exact h z hz x hx

/-- Two zones that differ are apart. -/
lemma Shape.zones_apart {y z : ℕ × ℕ} (hy : y ∈ a.canary.zones) (hz : z ∈ a.canary.zones)
    (hne : y ≠ z) : Apart y z := by
  have hpair := (List.pairwise_append.mp (slabCanary_apart a.slotSize a.count a.innerLen)).2.1
  have : Std.Symm Apart := ⟨fun v w hvw x hx => hvw x hx.symm⟩
  exact hpair.forall hy hz hne

/-- Arming one strip again. -/
lemma Intact.fillStrip (h : Intact a pattern w) (hlen : w.mem.length = a.innerLen) {i : ℕ}
    (hi : i < a.count) : Intact a pattern { w with
      mem := fillCanary pattern w.mem (a.start i + a.slotSize) (a.start i + a.stride) } := by
  have hzone := List.mem_of_getElem? (Shape.zones_getElem? hi)
  intro z hz
  by_cases heq : z = (a.start i + a.slotSize, a.start i + a.stride)
  · subst heq
    refine CanaryLayout.holds_fillCanary ?_
    rw [hlen]
    exact (Shape.zone_within hzone).2
  · exact (h z hz).fillCanary_of_apart (Shape.zones_apart hz hzone heq)

section Runs

variable [DecidableEq T] {w' : World T}

/-- The actions of the ordinary calls leave every zone as it is, or arm it again. -/
lemma Intact.step {t : T} {i : Act} {c : Choice} {r : Res i} {held held' : Bool} (hi : Inv a w)
    (hs : Safe a t i w) (hl : mutex (useAlloc false) held i = some held')
    (h : Intact a pattern w) (he : exec a pattern t i c w = .done r w') :
    Intact a pattern w' := by
  cases i <;> simp only [exec] at he
  case fillStrip =>
    cases guarded_done he
    exact h.fillStrip hi.length (hi.issued _ hs.1.issued).1
  case wipeByte =>
    cases guarded_done he
    exact h.set (hi.issued _ hs.1.issued).1 hs.2.2.2 0
  case callbackWrite =>
    cases guarded_done he
    exact h.set (hi.issued _ hs.1.issued).1 hs.2 _
  case wipeSlab => cases hl
  case stripIntact | slabIntact =>
    cases guarded_done he
    exact h
  all_goals first
    | (cases he; exact h)
    | (split at he <;> cases he <;> exact h)

/-- The runs in which nothing but the ordinary calls happens. -/
def OrdinaryRun (a : Shape) (pattern : ℕ → UInt8) (p : Pool Act Res Call T (World T)) : Prop :=
  Pool.Run (system T a pattern) ordinary (fun w => w = initial T a pattern) p

lemma OrdinaryRun.intact {p : Pool Act Res Call T (World T)} (h : OrdinaryRun a pattern p) :
    a.canary.intact pattern p.state.mem = true := by
  have hsound : Inv a p.state := by
    refine (Discipline.sound (D := discipline T a pattern) (fun _ c => code_outline c)
      (fun _ _ _ _ => trivial) ?_ h).1
    rintro w rfl
    exact initial_inv a pattern
  rw [intact_iff hsound.length]
  refine Discipline.invariant (D := discipline T a pattern) (fun _ c => code_outline c)
    (fun _ _ _ _ => trivial) ?_ (fun c hc => @follows_ordinary a false c hc) ?_ h
  · rintro w rfl
    exact ⟨initial_inv a pattern, initial_intact a pattern⟩
  · intro t i c w r w' held held' hi hs hl hI he
    exact hI.step hi hs hl he

end Runs

/-- The canaries of every slot size, count and inner length that has room for the slots.  The zones
lie in the region, have nothing in common with each other or with the windows of the slots, and
cover the region together with them.  Arming changes no slot byte, and the check passes exactly when
every zone holds the pattern restarted at its first byte.  In an arena of these sizes, the strip
that `Release` checks for slot `i` and the one it arms again are zone `i`; and in every run of
ordinary calls, whatever the callbacks write into their slots, the check of the slab passes. -/
theorem canaries_partition (pattern : ℕ → UInt8) {slotSize count innerLen : ℕ}
    (hfits : count * (slotSize + canaryLen) ≤ innerLen) :
    let c := arenaCanary (slotSize + canaryLen) slotSize count innerLen
    (∀ z ∈ c.zones, z.1 < z.2 ∧ z.2 ≤ innerLen) ∧
    (c.slots ++ c.zones).Pairwise Apart ∧
    (∀ x, (∃ v ∈ c.slots ++ c.zones, Covers v x) ↔ x < innerLen) ∧
    (∀ inner, inner.length = innerLen → ∀ v ∈ c.slots, ∀ x, Covers v x →
      (c.arm pattern inner)[x]? = inner[x]?) ∧
    (∀ inner, inner.length = innerLen →
      (c.intact pattern inner = true ↔ ∀ z ∈ c.zones, CanaryLayout.Holds pattern inner z)) ∧
    ∀ (a : Shape), a.slotSize = slotSize → a.count = count → a.innerLen = innerLen →
    ∀ (T : Type) [DecidableEq T],
      (∀ h : ArenaSlot, h.idx < count → ∃ z, c.zones[h.idx]? = some z ∧
        ∀ (t : T) (ch : Choice) (w : World T),
          exec a pattern t (.stripIntact h) ch w = guarded w Prot.readable
            (.done (canaryIntact pattern ((w.mem.drop z.1).take (z.2 - z.1))) w) ∧
          exec a pattern t (.fillStrip h) ch w = guarded w Prot.writable
            (.done () { w with mem := fillCanary pattern w.mem z.1 z.2 })) ∧
      ∀ p : Pool Act Res Call T (World T), OrdinaryRun a pattern p →
        c.intact pattern p.state.mem = true := by
  intro c
  have hpair := slabCanary_apart slotSize count innerLen
  refine ⟨fun z hz => slabCanary_within hfits hz, hpair, slabCanary_covers hfits, ?_, ?_, ?_⟩
  · intro inner _ v hv x hx
    refine CanaryLayout.getElem?_arm fun z hz hxz => ?_
    exact (List.pairwise_append.mp hpair).2.2 v hv z hz x ⟨hx, hxz⟩
  · intro inner hlen
    refine CanaryLayout.intact_iff fun z hz => ?_
    rw [hlen]
    exact slabCanary_within hfits hz
  · rintro a rfl rfl rfl T _
    refine ⟨fun h hidx => ⟨_, Shape.zones_getElem? hidx, fun t ch w => ⟨?_, rfl⟩⟩,
      fun p hp => hp.intact⟩
    have hlen : a.start h.idx + a.stride - (a.start h.idx + a.slotSize) = canaryLen := by
      rw [Shape.stride]
      omega
    rw [hlen]
    rfl

/-- The tiny arena after an acquisition and a borrow that writes its slot. -/
theorem canaries_partition_tiny : ∃ p : Pool Act Res Call (Fin 2) (World (Fin 2)),
    tinyPool.moves (system (Fin 2) tiny fun _ => 165) ordinary
      (.start 0 .acquire :: List.replicate 11 (.step 0 none) ++
        .start 0 (.withBytesErr (some ⟨0, 1⟩) (some ⟨[(0, 7)], none⟩)) ::
        List.replicate 10 (.step 0 none)) = some p ∧
    p.state.mem[0]? = some 7 ∧ tiny.canary.intact (fun _ => 165) p.state.mem = true := by
  have hrun₀ : OrdinaryRun tiny (fun _ => 165) tinyPool := Reachable.start ⟨rfl, fun _ => rfl⟩
  refine hrun₀.exists_moves (P := fun p => p.state.mem[0]? = some 7) ⟨_, rfl, rfl⟩ ?_
  intro p hrun hmem
  have hall := canaries_partition (fun _ => 165) tiny.fits
  exact ⟨hmem, (hall.2.2.2.2.2 tiny rfl rfl rfl (Fin 2)).2 p hrun⟩

end Secmem.Arena
