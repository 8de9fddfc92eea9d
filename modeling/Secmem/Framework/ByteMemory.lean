import Secmem.Framework.Utf8
import Mathlib.Tactic

/-!
# Programs on one memory

Code that works in place is about slices that share an array, or are the same slice.  Here a memory
is a byte at every address and a slice, `Span`, is a range of addresses, so that two slices may
overlap as the code has it.  A `MemProg` reads and writes a memory, and stops where an index or a
slice expression is out of range.

`wp p m Q` says that `p`, run in `m`, does not stop there and ends with `Q`.  The lemmas `wp_*`
compute it for each construct, down to what was written where; `read_write_self` and
`read_write_apart` then say what a slice holds.  A fact about more than a few writes goes through
`OnlyIn`, which bounds what has changed at all.
-/

namespace Secmem

/-! ## Memory -/

/-- A byte at every address. -/
abbrev ByteMem := ℕ → UInt8

namespace ByteMem

/-- The `n` bytes from address `a` on. -/
def read (m : ByteMem) (a n : ℕ) : Bytes := (List.range n).map fun i => m (a + i)

/-- The memory with `bs` at address `a`. -/
def write (m : ByteMem) (a : ℕ) (bs : Bytes) : ByteMem := fun x =>
  if a ≤ x then bs[x - a]?.getD (m x) else m x

variable {m m' m'' : ByteMem} {a b n k : ℕ} {bs cs : Bytes}

@[simp] lemma length_read (m : ByteMem) (a n : ℕ) : (m.read a n).length = n := by
  simp [read]

@[simp] lemma read_zero (m : ByteMem) (a : ℕ) : m.read a 0 = [] := rfl

lemma getElem?_read {i : ℕ} (hi : i < n) : (m.read a n)[i]? = some (m (a + i)) := by
  simp [read, hi]

lemma read_succ (m : ByteMem) (a n : ℕ) : m.read a (n + 1) = m.read a n ++ [m (a + n)] := by
  simp [read, List.range_succ]

lemma read_add (m : ByteMem) (a n k : ℕ) :
    m.read a (n + k) = m.read a n ++ m.read (a + n) k := by
  induction k with
  | zero => simp
  | succ k ih => rw [← Nat.add_assoc, read_succ, ih, read_succ, List.append_assoc, Nat.add_assoc]

lemma take_read (m : ByteMem) (a : ℕ) (h : k ≤ n) : (m.read a n).take k = m.read a k := by
  obtain ⟨d, rfl⟩ := Nat.exists_eq_add_of_le h
  rw [read_add, List.take_left' (length_read m a k)]

lemma drop_read (m : ByteMem) (a n k : ℕ) : (m.read a n).drop k = m.read (a + k) (n - k) := by
  rcases Nat.le_total k n with h | h
  · obtain ⟨d, rfl⟩ := Nat.exists_eq_add_of_le h
    rw [read_add, List.drop_left' (length_read m a k), Nat.add_sub_cancel_left]
  · rw [List.drop_eq_nil_of_le (by simpa using h), Nat.sub_eq_zero_of_le h, read_zero]

lemma read_eq_iff : m'.read b n = m.read a n ↔ ∀ i < n, m' (b + i) = m (a + i) := by
  simp only [read, List.map_inj_left, List.mem_range]

lemma read_eq_replicate_iff {x : UInt8} :
    m.read a n = List.replicate n x ↔ ∀ i < n, m (a + i) = x := by
  rw [List.eq_replicate_iff]
  simp [read]

lemma write_of_lt (h : b < a) : m.write a bs b = m b := if_neg (Nat.not_le.mpr h)

lemma write_of_ge (h : a + bs.length ≤ b) : m.write a bs b = m b := by
  rw [write, if_pos (by omega), List.getElem?_eq_none (by omega)]
  rfl

lemma write_add {i : ℕ} (hi : i < bs.length) : m.write a bs (a + i) = bs[i] := by
  rw [write, if_pos (Nat.le_add_right a i), Nat.add_sub_cancel_left, List.getElem?_eq_getElem hi]
  rfl

@[simp] lemma write_nil (m : ByteMem) (a : ℕ) : m.write a [] = m := by
  funext x
  rcases Nat.lt_or_ge x a with h | h
  · exact write_of_lt h
  · exact write_of_ge h

lemma write_append (m : ByteMem) (a : ℕ) (bs cs : Bytes) :
    m.write a (bs ++ cs) = (m.write a bs).write (a + bs.length) cs := by
  funext x
  rcases Nat.lt_or_ge x a with h | h
  · rw [write_of_lt h, write_of_lt (by omega), write_of_lt h]
  · obtain ⟨i, rfl⟩ := Nat.exists_eq_add_of_le h
    rcases Nat.lt_or_ge i bs.length with hi | hi
    · rw [write_add (by rw [List.length_append]; omega), write_of_lt (by omega), write_add hi,
        List.getElem_append_left hi]
    · obtain ⟨j, rfl⟩ := Nat.exists_eq_add_of_le hi
      rcases Nat.lt_or_ge j cs.length with hj | hj
      · rw [write_add (by rw [List.length_append]; omega), ← Nat.add_assoc, write_add hj]
        simp
      · rw [write_of_ge (by rw [List.length_append]; omega), write_of_ge (by omega),
          write_of_ge (by omega)]

/-- What was written can be read back. -/
lemma read_write_self (m : ByteMem) (a : ℕ) (h : bs.length = n) : (m.write a bs).read a n = bs := by
  subst h
  refine List.ext_getElem (length_read _ _ _) fun i hi hi' => ?_
  have := getElem?_read (m := m.write a bs) (a := a) hi'
  rw [List.getElem?_eq_getElem hi] at this
  rw [Option.some.inj this, write_add hi']

/-- A write elsewhere is not seen. -/
lemma read_write_apart (m : ByteMem) (h : a + n ≤ b ∨ b + bs.length ≤ a) :
    (m.write b bs).read a n = m.read a n := by
  rw [read_eq_iff]
  intro i hi
  rcases h with h | h
  · exact write_of_lt (by omega)
  · exact write_of_ge (by omega)

/-- A later write over an earlier one. -/
lemma write_write (m : ByteMem) (a : ℕ) (h : bs.length ≤ cs.length) :
    (m.write a bs).write a cs = m.write a cs := by
  funext x
  rcases Nat.lt_or_ge x a with hx | hx
  · rw [write_of_lt hx, write_of_lt hx, write_of_lt hx]
  · obtain ⟨i, rfl⟩ := Nat.exists_eq_add_of_le hx
    rcases Nat.lt_or_ge i cs.length with hi | hi
    · rw [write_add hi, write_add hi]
    · rw [write_of_ge (by omega), write_of_ge (by omega), write_of_ge (by omega)]

/-- Writes to different places commute. -/
lemma write_comm (m : ByteMem) (h : a + bs.length ≤ b ∨ b + cs.length ≤ a) :
    (m.write a bs).write b cs = (m.write b cs).write a bs := by
  funext x
  by_cases hb : b ≤ x ∧ x < b + cs.length
  · obtain ⟨i, rfl⟩ := Nat.exists_eq_add_of_le hb.1
    have hout : (m.write b cs).write a bs (b + i) = m.write b cs (b + i) := by
      rcases h with h | h
      · exact write_of_ge (by omega)
      · exact write_of_lt (by omega)
    rw [hout, write_add (by omega), write_add (by omega)]
  · have hout (m : ByteMem) : m.write b cs x = m x := by
      rcases Nat.lt_or_ge x b with hx | hx
      · exact write_of_lt hx
      · exact write_of_ge (by omega)
    rw [hout]
    by_cases ha : a ≤ x ∧ x < a + bs.length
    · obtain ⟨i, rfl⟩ := Nat.exists_eq_add_of_le ha.1
      rw [write_add (by omega), write_add (by omega)]
    · rcases Nat.lt_or_ge x a with hx | hx
      · rw [write_of_lt hx, write_of_lt hx, hout]
      · rw [write_of_ge (by omega), write_of_ge (by omega), hout]

/-- Two writes side by side, the second one first. -/
lemma write_write_before (m : ByteMem) (a : ℕ) (bs cs : Bytes) :
    (m.write (a + bs.length) cs).write a bs = m.write a (bs ++ cs) := by
  rw [write_append, write_comm _ (.inr le_rfl)]

/-- Writing what is there changes nothing. -/
lemma write_read (m : ByteMem) (a n : ℕ) : m.write a (m.read a n) = m := by
  funext x
  rcases Nat.lt_or_ge x a with h | h
  · exact write_of_lt h
  · obtain ⟨i, rfl⟩ := Nat.exists_eq_add_of_le h
    rcases Nat.lt_or_ge i n with hi | hi
    · rw [write_add (by rwa [length_read])]
      simp [read]
    · exact write_of_ge (by rw [length_read]; omega)

end ByteMem

/-! ## Slices -/

/-- A slice: where it starts, and its length. -/
structure Span where
  off : ℕ
  len : ℕ
  deriving DecidableEq, Repr

namespace Span

/-- No byte is in both slices. -/
@[reducible] def Apart (s t : Span) : Prop :=
  s.len = 0 ∨ t.len = 0 ∨ s.off + s.len ≤ t.off ∨ t.off + t.len ≤ s.off

lemma Apart.symm {s t : Span} (h : s.Apart t) : t.Apart s := by omega

/-- What is apart from a slice is apart from every slice of it. -/
lemma Apart.mono {s t t' : Span} (h : s.Apart t) (hoff : t.off ≤ t'.off)
    (hend : t'.off + t'.len ≤ t.off + t.len) : s.Apart t' := by omega

/-- The bytes of the slice. -/
def bytes (s : Span) (m : ByteMem) : Bytes := m.read s.off s.len

@[simp] lemma length_bytes (s : Span) (m : ByteMem) : (s.bytes m).length = s.len :=
  ByteMem.length_read m s.off s.len

/-! ### Slices that follow each other -/

/-- Slices of these lengths, the first at `a` and each of the others where the one before ends. -/
def tiles : ℕ → List ℕ → List Span
  | _, [] => []
  | a, n :: ns => ⟨a, n⟩ :: tiles (a + n) ns

lemma within_of_mem_tiles {a : ℕ} {ns : List ℕ} {s : Span} (h : s ∈ tiles a ns) :
    a ≤ s.off ∧ s.off + s.len ≤ a + ns.sum := by
  induction ns generalizing a with
  | nil => cases h
  | cons n ns ih =>
    rw [List.sum_cons]
    rcases List.mem_cons.mp h with rfl | h
    · dsimp only
      omega
    · have := ih h
      omega

lemma pairwise_apart_tiles (a : ℕ) (ns : List ℕ) : (tiles a ns).Pairwise Apart := by
  induction ns generalizing a with
  | nil => exact List.Pairwise.nil
  | cons n ns ih =>
    refine List.pairwise_cons.mpr ⟨fun s hs => ?_, ih _⟩
    exact .inr (.inr (.inl (within_of_mem_tiles hs).1))

lemma exists_mem_tiles {a x : ℕ} {ns : List ℕ} (hlo : a ≤ x) (hhi : x < a + ns.sum) :
    ∃ s ∈ tiles a ns, s.off ≤ x ∧ x < s.off + s.len := by
  induction ns generalizing a with
  | nil =>
    rw [List.sum_nil] at hhi
    omega
  | cons n ns ih =>
    rw [List.sum_cons] at hhi
    rcases Nat.lt_or_ge x (a + n) with hx | hx
    · exact ⟨⟨a, n⟩, List.mem_cons_self, hlo, hx⟩
    · obtain ⟨s, hs, hin⟩ := ih hx (by omega)
      exact ⟨s, List.mem_cons_of_mem _ hs, hin⟩

end Span

namespace ByteMem

variable {m m' m'' : ByteMem} {l l' : List Span} {a n : ℕ}

/-- Nothing has changed outside the slices. -/
def OnlyIn (l : List Span) (m m' : ByteMem) : Prop :=
  ∀ a, (∀ s ∈ l, ¬(s.off ≤ a ∧ a < s.off + s.len)) → m' a = m a

lemma OnlyIn.refl (l : List Span) (m : ByteMem) : OnlyIn l m m := fun _ _ => rfl

lemma OnlyIn.trans (h : OnlyIn l m m') (h' : OnlyIn l m' m'') : OnlyIn l m m'' :=
  fun a ha => (h' a ha).trans (h a ha)

/-- The slices may be taken larger. -/
lemma OnlyIn.mono (h : OnlyIn l m m')
    (hl : ∀ s ∈ l, s.len = 0 ∨ ∃ t ∈ l', t.off ≤ s.off ∧ s.off + s.len ≤ t.off + t.len) :
    OnlyIn l' m m' := by
  intro a ha
  refine h a fun s hs hin => ?_
  rcases hl s hs with h0 | ⟨t, ht, hoff, hend⟩
  · omega
  · exact ha t ht (by omega)

lemma OnlyIn.subset (h : OnlyIn l m m') (hl : l ⊆ l') : OnlyIn l' m m' :=
  fun a ha => h a fun s hs => ha s (hl hs)

/-- The first slice may be taken larger. -/
lemma OnlyIn.widen {s t : Span} (h : OnlyIn (s :: l) m m') (hoff : t.off ≤ s.off)
    (hend : s.off + s.len ≤ t.off + t.len) : OnlyIn (t :: l) m m' := by
  refine h.mono fun u hu => .inr ?_
  rcases List.mem_cons.mp hu with rfl | hu
  · exact ⟨t, List.mem_cons_self, hoff, hend⟩
  · exact ⟨u, List.mem_cons_of_mem _ hu, le_rfl, le_rfl⟩

lemma OnlyIn.widen_snd {s t t' : Span} (h : OnlyIn [s, t] m m') (hoff : t'.off ≤ t.off)
    (hend : t.off + t.len ≤ t'.off + t'.len) : OnlyIn [s, t'] m m' :=
  have hswap : OnlyIn [t, s] m m' := h.subset (List.Perm.swap t s []).subset
  (hswap.widen hoff hend).subset (List.Perm.swap s t' []).subset

lemma OnlyIn.write {s : Span} (h : OnlyIn l m m') (hs : s ∈ l) {b : ℕ} {bs : Bytes}
    (hoff : s.off ≤ b) (hend : b + bs.length ≤ s.off + s.len) : OnlyIn l m (m'.write b bs) := by
  intro a ha
  rw [← h a ha]
  have hout := ha s hs
  rcases Nat.lt_or_ge a b with hab | hab
  · exact write_of_lt hab
  · exact write_of_ge (by omega)

/-- What is apart from the slices is as it was; the bound is a plain formula, for one slice and for
two, where a decision procedure is to find it. -/
lemma OnlyIn.read_one {s : Span} (h : OnlyIn [s] m m')
    (hs : n = 0 ∨ s.len = 0 ∨ a + n ≤ s.off ∨ s.off + s.len ≤ a) :
    m'.read a n = m.read a n := by
  rw [read_eq_iff]
  refine fun i hi => h _ fun t ht hin => ?_
  rw [List.mem_singleton] at ht
  subst ht
  omega

lemma OnlyIn.read_two {s t : Span} (h : OnlyIn [s, t] m m')
    (hs : n = 0 ∨ s.len = 0 ∨ a + n ≤ s.off ∨ s.off + s.len ≤ a)
    (ht : n = 0 ∨ t.len = 0 ∨ a + n ≤ t.off ∨ t.off + t.len ≤ a) :
    m'.read a n = m.read a n := by
  rw [read_eq_iff]
  refine fun i hi => h _ fun u hu hin => ?_
  rcases List.mem_pair.mp hu with rfl | rfl <;> omega

/-- What is apart from the slices is as it was. -/
lemma OnlyIn.read (h : OnlyIn l m m')
    (hl : ∀ s ∈ l, n = 0 ∨ s.len = 0 ∨ a + n ≤ s.off ∨ s.off + s.len ≤ a) :
    m'.read a n = m.read a n := by
  rw [read_eq_iff]
  intro i hi
  refine h _ fun s hs hin => ?_
  have := hl s hs
  omega

lemma OnlyIn.bytes {s : Span} (h : OnlyIn l m m') (hl : ∀ t ∈ l, s.Apart t) :
    s.bytes m' = s.bytes m :=
  h.read hl

end ByteMem

/-! ## Programs -/

/-- A program that reads and writes a memory; nothing where it stops with a panic. -/
abbrev MemProg (α : Type) := StateT ByteMem Option α

namespace MemProg

variable {α β σ : Type} {m : ByteMem}

/-- The program runs to its end, and ends with `Q`. -/
def wp (p : MemProg α) (m : ByteMem) (Q : α → ByteMem → Prop) : Prop :=
  ∃ a m', p.run m = some (a, m') ∧ Q a m'

lemma wp_of_run {p : MemProg α} {a : α} {m' : ByteMem} {Q : α → ByteMem → Prop}
    (h : p.run m = some (a, m')) : wp p m Q ↔ Q a m' := by
  constructor
  · rintro ⟨a', m'', h', hQ⟩
    obtain ⟨rfl, rfl⟩ := Prod.mk.inj (Option.some.inj (h.symm.trans h'))
    exact hQ
  · exact fun hQ => ⟨a, m', h, hQ⟩

@[simp] lemma wp_pure (a : α) (Q : α → ByteMem → Prop) : wp (pure a) m Q ↔ Q a m := wp_of_run rfl

@[simp] lemma wp_bind (p : MemProg α) (f : α → MemProg β) (Q : β → ByteMem → Prop) :
    wp (p >>= f) m Q ↔ wp p m fun a m' => wp (f a) m' Q := by
  unfold wp
  simp only [StateT.run_bind, Option.bind_eq_bind, Option.bind_eq_some_iff, Prod.exists]
  constructor
  · rintro ⟨b, m'', ⟨a, m', hp, hf⟩, hQ⟩
    exact ⟨a, m', hp, b, m'', hf, hQ⟩
  · rintro ⟨a, m', hp, b, m'', hf, hQ⟩
    exact ⟨b, m'', ⟨a, m', hp, hf⟩, hQ⟩

lemma wp_mono {p : MemProg α} {Q Q' : α → ByteMem → Prop} (h : wp p m Q)
    (hQ : ∀ a m', Q a m' → Q' a m') : wp p m Q' := by
  obtain ⟨a, m', hp, hq⟩ := h
  exact ⟨a, m', hp, hQ a m' hq⟩

lemma run_of_wp {p : MemProg Unit} {m' : ByteMem} (h : wp p m fun _ m'' => m'' = m') :
    p.run m = some ((), m') := by
  obtain ⟨_, _, hp, rfl⟩ := h
  exact hp

/-- A panic. -/
def fault : MemProg α := fun _ => none

/-- `s[i:j]`; the code here never slices beyond the length. -/
def slice (s : Span) (i j : ℕ) : MemProg Span :=
  if i ≤ j ∧ j ≤ s.len then pure ⟨s.off + i, j - i⟩ else fault

/-- `s[i]`. -/
def load (s : Span) (i : ℕ) : MemProg UInt8 := fun m =>
  if i < s.len then some (m (s.off + i), m) else none

/-- `s[i] = b`. -/
def store (s : Span) (i : ℕ) (b : UInt8) : MemProg Unit := fun m =>
  if i < s.len then some ((), m.write (s.off + i) [b]) else none

/-- What the slice holds. -/
def contents (s : Span) : MemProg Bytes := fun m => some (s.bytes m, m)

/-- `copy` of a byte string that is not in this memory. -/
def put (d : Span) (bs : Bytes) : MemProg ℕ := fun m =>
  some (min d.len bs.length, m.write d.off (bs.take d.len))

/-- `copy`. -/
def copy (d s : Span) : MemProg ℕ := do
  let bs ← contents s
  put d bs

/-- Fills the slice with zeros. -/
def wipe (s : Span) : MemProg Unit := fun m =>
  some ((), m.write s.off (List.replicate s.len 0))

section Steps

variable {s d : Span} {i j : ℕ}

lemma wp_slice (hij : i ≤ j) (hj : j ≤ s.len) (Q : Span → ByteMem → Prop) :
    wp (slice s i j) m Q ↔ Q ⟨s.off + i, j - i⟩ m := by
  rw [slice, if_pos ⟨hij, hj⟩, wp_pure]

/-- The slice that begins at `a` and has `n` bytes, by any computation of its bounds. -/
lemma wp_slice_eq (a n : ℕ) (ha : s.off + i = a) (hn : i + n = j) (hj : j ≤ s.len)
    (Q : Span → ByteMem → Prop) : wp (slice s i j) m Q ↔ Q ⟨a, n⟩ m := by
  subst ha hn
  rw [wp_slice (by omega) hj, Nat.add_sub_cancel_left]

lemma wp_load (hi : i < s.len) (Q : UInt8 → ByteMem → Prop) :
    wp (load s i) m Q ↔ Q (m (s.off + i)) m :=
  wp_of_run (if_pos hi)

lemma wp_store (hi : i < s.len) (b : UInt8) (Q : Unit → ByteMem → Prop) :
    wp (store s i b) m Q ↔ Q () (m.write (s.off + i) [b]) :=
  wp_of_run (if_pos hi)

@[simp] lemma wp_contents (Q : Bytes → ByteMem → Prop) :
    wp (contents s) m Q ↔ Q (s.bytes m) m :=
  wp_of_run rfl

@[simp] lemma wp_put (bs : Bytes) (Q : ℕ → ByteMem → Prop) :
    wp (put d bs) m Q ↔ Q (min d.len bs.length) (m.write d.off (bs.take d.len)) :=
  wp_of_run rfl

@[simp] lemma wp_copy (Q : ℕ → ByteMem → Prop) :
    wp (copy d s) m Q ↔ Q (min d.len s.len) (m.write d.off ((s.bytes m).take d.len)) := by
  rw [copy, wp_bind, wp_contents, wp_put, Span.length_bytes]

@[simp] lemma wp_wipe (Q : Unit → ByteMem → Prop) :
    wp (wipe s) m Q ↔ Q () (m.write s.off (List.replicate s.len 0)) :=
  wp_of_run rfl

end Steps

/-! ## Loops -/

/-- `for i := range n`. -/
def forRange : ℕ → (ℕ → MemProg Unit) → MemProg Unit
  | 0, _ => pure ()
  | n + 1, body => do
    forRange n body
    body n

/-- A counted loop with an invariant. -/
lemma wp_forRange {n : ℕ} {body : ℕ → MemProg Unit} {Q : Unit → ByteMem → Prop}
    (I : ℕ → ByteMem → Prop) (hinit : I 0 m)
    (hstep : ∀ i < n, ∀ m, I i m → wp (body i) m fun _ m' => I (i + 1) m')
    (hQ : ∀ m, I n m → Q () m) : wp (forRange n body) m Q := by
  suffices h : wp (forRange n body) m fun _ m' => I n m' from wp_mono h fun _ => hQ
  clear hQ
  induction n with
  | zero => exact ⟨(), m, rfl, hinit⟩
  | succ n ih =>
    rw [forRange, wp_bind]
    refine wp_mono (ih fun i hi => hstep i (by omega)) fun _ m' hI => ?_
    exact hstep n (by omega) m' hI

/-- `for cond { body }` over the loop's variables, at most `fuel` rounds. -/
def loop (cond : σ → Bool) (body : σ → MemProg σ) : ℕ → σ → MemProg σ
  | 0, x => if cond x = true then fault else pure x
  | fuel + 1, x => if cond x = true then body x >>= loop cond body fuel else pure x

/-- A loop with an invariant and a variant that bounds its rounds. -/
lemma wp_loop {cond : σ → Bool} {body : σ → MemProg σ} {fuel : ℕ} {x : σ}
    {Q : σ → ByteMem → Prop} (I : σ → ByteMem → Prop) (μ : σ → ℕ) (hinit : I x m)
    (hfuel : μ x ≤ fuel) (hμ : ∀ x, cond x = true → 0 < μ x)
    (hstep : ∀ x m, I x m → cond x = true → wp (body x) m fun x' m' => I x' m' ∧ μ x' < μ x)
    (hQ : ∀ x m, I x m → cond x = false → Q x m) : wp (loop cond body fuel x) m Q := by
  induction fuel generalizing x m with
  | zero =>
    have hc : ¬cond x = true := fun h => by
      have := hμ x h
      omega
    rw [loop, if_neg hc, wp_pure]
    exact hQ x m hinit (Bool.not_eq_true _ ▸ hc)
  | succ fuel ih =>
    rw [loop]
    split
    next hc =>
      rw [wp_bind]
      refine wp_mono (hstep x m hinit hc) fun x' m' h => ?_
      exact ih h.1 (by omega)
    next hc =>
      rw [wp_pure]
      exact hQ x m hinit (Bool.not_eq_true _ ▸ hc)

/-- `for i := range s { s[i] = f(s[i]) }`. -/
def updateEach (s : Span) (f : UInt8 → UInt8) : MemProg Unit :=
  forRange s.len fun i => do
    let b ← load s i
    store s i (f b)

@[simp] lemma wp_updateEach (s : Span) (f : UInt8 → UInt8) (Q : Unit → ByteMem → Prop) :
    wp (updateEach s f) m Q ↔ Q () (m.write s.off ((s.bytes m).map f)) := by
  refine wp_of_run (run_of_wp ?_)
  refine wp_forRange (fun i m' => m' = m.write s.off ((m.read s.off i).map f)) (by simp) ?_
    fun _ h => h
  rintro i hi _ rfl
  rw [wp_bind, wp_load hi, wp_store hi, ByteMem.read_succ, List.map_append, ByteMem.write_append,
    List.length_map, ByteMem.length_read, ByteMem.write_of_ge (by simp)]
  rfl

/-- `for i := 0; i < n; i++ { d[i] = f(x[i], y[i]) }`. -/
def zipEach (n : ℕ) (d x y : Span) (f : UInt8 → UInt8 → UInt8) : MemProg Unit :=
  forRange n fun i => do
    let a ← load x i
    let b ← load y i
    store d i (f a b)

/-- Where the destination is the first operand, or apart from it, and apart from the second, the
loop computes as if everything was read before anything is written. -/
lemma wp_zipEach {n : ℕ} {d x y : Span} {f : UInt8 → UInt8 → UInt8} (hd : n ≤ d.len)
    (hx : n ≤ x.len) (hy : n ≤ y.len)
    (hdx : d.off = x.off ∨ d.off + n ≤ x.off ∨ x.off + n ≤ d.off)
    (hdy : d.off + n ≤ y.off ∨ y.off + n ≤ d.off) (Q : Unit → ByteMem → Prop) :
    wp (zipEach n d x y f) m Q ↔
      Q () (m.write d.off (List.zipWith f (m.read x.off n) (m.read y.off n))) := by
  refine wp_of_run (run_of_wp ?_)
  refine wp_forRange
    (fun i m' => m' = m.write d.off (List.zipWith f (m.read x.off i) (m.read y.off i)))
    (by simp) ?_ fun _ h => h
  rintro i hi _ rfl
  have hlen : (List.zipWith f (m.read x.off i) (m.read y.off i)).length = i := by simp
  have hrx : m.write d.off (List.zipWith f (m.read x.off i) (m.read y.off i)) (x.off + i) =
      m (x.off + i) := by
    rcases hdx with h | h | h
    · exact ByteMem.write_of_ge (by omega)
    · exact ByteMem.write_of_ge (by omega)
    · exact ByteMem.write_of_lt (by omega)
  have hry : m.write d.off (List.zipWith f (m.read x.off i) (m.read y.off i)) (y.off + i) =
      m (y.off + i) := by
    rcases hdy with h | h
    · exact ByteMem.write_of_ge (by omega)
    · exact ByteMem.write_of_lt (by omega)
  rw [wp_bind, wp_load (by omega), wp_bind, wp_load (by omega), wp_store (by omega), hrx, hry,
    ByteMem.read_succ, ByteMem.read_succ, List.zipWith_append (by simp), ByteMem.write_append,
    hlen]
  rfl

end MemProg

end Secmem
