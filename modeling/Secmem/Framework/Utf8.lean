import Mathlib.Data.List.Basic
import Mathlib.Data.Nat.Notation
import Mathlib.Data.UInt
import Mathlib.Tactic.Lemma

/-!
# UTF-8

Strings as bytes, and the runes in them.  `decodeRune` reads one rune the way Go's `unicode/utf8`
does: a byte that begins no well-formed sequence is a rune of its own, `runeError`, one byte wide.
`encodeRune` writes one, and `text` is what a list of runes is written as; a byte string is valid
UTF-8 when it is the text of scalar values.

The two facts the rest rests on are `decodeRune_cons`, that writing what was read gives the bytes
back, and `take_text`, that a text cut before the first byte of a rune is a text.
-/

namespace Secmem

abbrev Bytes := List UInt8

namespace Utf8

/-- `utf8.RuneError`. -/
def runeError : ℕ := 0xFFFD

/-- A scalar value: a code point that is not a surrogate. -/
def IsScalar (r : ℕ) : Prop := r < 0xD800 ∨ 0xE000 ≤ r ∧ r < 0x110000

instance (r : ℕ) : Decidable (IsScalar r) := inferInstanceAs (Decidable (_ ∨ _))

/-- The length of the sequence that a first byte announces, and the range of the second byte. -/
def sequence (x : ℕ) : Option (ℕ × ℕ × ℕ) :=
  if x < 0xC2 then none
  else if x < 0xE0 then some (2, 0x80, 0xBF)
  else if x < 0xF0 then
    some (3, if x = 0xE0 then 0xA0 else 0x80, if x = 0xED then 0x9F else 0xBF)
  else if x < 0xF5 then
    some (4, if x = 0xF0 then 0x90 else 0x80, if x = 0xF4 then 0x8F else 0xBF)
  else none

/-- A byte that continues a sequence. -/
def isTail (b : UInt8) : Bool := Nat.ble 0x80 b.toNat && Nat.ble b.toNat 0xBF

/-- `utf8.RuneStart`. -/
def runeStart (b : UInt8) : Bool := !isTail b

/-- The bytes that follow the first one, if they complete its sequence, as a number. -/
def continued (n lo hi : ℕ) (s : Bytes) : Option ℕ :=
  match n, s with
  | 2, b :: _ =>
    if lo ≤ b.toNat ∧ b.toNat ≤ hi then some (b.toNat - 0x80) else none
  | 3, b :: c :: _ =>
    if (lo ≤ b.toNat ∧ b.toNat ≤ hi) ∧ isTail c = true then
      some ((b.toNat - 0x80) * 64 + (c.toNat - 0x80)) else none
  | 4, b :: c :: d :: _ =>
    if (lo ≤ b.toNat ∧ b.toNat ≤ hi) ∧ isTail c = true ∧ isTail d = true then
      some (((b.toNat - 0x80) * 64 + (c.toNat - 0x80)) * 64 + (d.toNat - 0x80)) else none
  | _, _ => none

/-- The bits of the rune in the first byte of a sequence of `n` bytes, in their place. -/
def leading (n x : ℕ) : ℕ :=
  if n = 2 then (x - 0xC0) * 64 else if n = 3 then (x - 0xE0) * 4096 else (x - 0xF0) * 262144

/-- `utf8.DecodeRune`: the first rune and its width. -/
def decodeRune : Bytes → ℕ × ℕ
  | [] => (runeError, 0)
  | b :: s =>
    if b.toNat < 0x80 then (b.toNat, 1)
    else match sequence b.toNat with
      | none => (runeError, 1)
      | some (n, lo, hi) =>
        match continued n lo hi s with
        | none => (runeError, 1)
        | some low => (leading n b.toNat + low, n)

/-- `utf8.AppendRune`, for a scalar value. -/
def encodeRune (r : ℕ) : Bytes :=
  if r < 0x80 then [UInt8.ofNat r]
  else if r < 0x800 then [UInt8.ofNat (0xC0 + r / 64), UInt8.ofNat (0x80 + r % 64)]
  else if r < 0x10000 then
    [UInt8.ofNat (0xE0 + r / 4096), UInt8.ofNat (0x80 + r / 64 % 64),
      UInt8.ofNat (0x80 + r % 64)]
  else
    [UInt8.ofNat (0xF0 + r / 262144), UInt8.ofNat (0x80 + r / 4096 % 64),
      UInt8.ofNat (0x80 + r / 64 % 64), UInt8.ofNat (0x80 + r % 64)]

/-- What a list of runes is written as. -/
def text (rs : List ℕ) : Bytes := rs.flatMap encodeRune

/-- A rune of a string, with its width. -/
structure Rune where
  rune : ℕ
  width : ℕ
  deriving DecidableEq, Repr

/-- Whether the rune stands for a byte that is not part of any sequence. -/
def Rune.invalid (r : Rune) : Bool := r.rune == runeError && r.width == 1

/-- The runes of a string from the `skip`-th byte on. -/
def runesFrom : ℕ → Bytes → List Rune
  | _, [] => []
  | skip + 1, _ :: s => runesFrom skip s
  | 0, b :: s =>
    let r := decodeRune (b :: s)
    ⟨r.1, r.2⟩ :: runesFrom (r.2 - 1) s

/-- The runes of a string, as Go's `range` visits them. -/
def runes (s : Bytes) : List Rune := runesFrom 0 s

/-! ## Reading and writing -/

private lemma ofNat_of_eq {n : ℕ} {b : UInt8} (h : n = b.toNat) : UInt8.ofNat n = b := by
  rw [h, UInt8.ofNat_toNat]

private lemma isTail_iff {b : UInt8} : isTail b = true ↔ 0x80 ≤ b.toNat ∧ b.toNat ≤ 0xBF := by
  simp [isTail]

private lemma sequence_two {x lo hi : ℕ} (h : sequence x = some (2, lo, hi)) :
    0xC2 ≤ x ∧ x < 0xE0 ∧ lo = 0x80 ∧ hi = 0xBF := by
  grind [sequence]

private lemma sequence_three {x lo hi : ℕ} (h : sequence x = some (3, lo, hi)) :
    0xE0 ≤ x ∧ x < 0xF0 ∧ 0x80 ≤ lo ∧ hi ≤ 0xBF ∧ (x = 0xE0 → lo = 0xA0) ∧
      (x = 0xED → hi = 0x9F) := by
  grind [sequence]

private lemma sequence_four {x lo hi : ℕ} (h : sequence x = some (4, lo, hi)) :
    0xF0 ≤ x ∧ x < 0xF5 ∧ 0x80 ≤ lo ∧ hi ≤ 0xBF ∧ (x = 0xF0 → lo = 0x90) ∧
      (x = 0xF4 → hi = 0x8F) := by
  grind [sequence]

/-- A rune that was read as part of the string: a scalar value, written as the bytes it was read
from. -/
structure Reads (s : Bytes) (r : ℕ) (w : ℕ) : Prop where
  scalar : IsScalar r
  bytes : encodeRune r = s.take w
  ascii : w = 1 → r < 0x80
  pos : 0 < w

private lemma reads_two {b c : UInt8} {lo hi : ℕ} (s : Bytes)
    (hseq : sequence b.toNat = some (2, lo, hi)) (hc : lo ≤ c.toNat ∧ c.toNat ≤ hi) :
    Reads (b :: c :: s) (leading 2 b.toNat + (c.toNat - 0x80)) 2 := by
  obtain ⟨h₁, h₂, rfl, rfl⟩ := sequence_two hseq
  have hlead : leading 2 b.toNat = (b.toNat - 0xC0) * 64 := rfl
  rw [hlead]
  refine ⟨Or.inl (by omega), ?_, by omega, by omega⟩
  rw [encodeRune, if_neg (by omega), if_pos (by omega), ofNat_of_eq (b := b) (by omega),
    ofNat_of_eq (b := c) (by omega)]
  rfl

private lemma reads_three {b c d : UInt8} {lo hi : ℕ} (s : Bytes)
    (hseq : sequence b.toNat = some (3, lo, hi)) (hc : lo ≤ c.toNat ∧ c.toNat ≤ hi)
    (hd : isTail d = true) :
    Reads (b :: c :: d :: s)
      (leading 3 b.toNat + ((c.toNat - 0x80) * 64 + (d.toNat - 0x80))) 3 := by
  obtain ⟨h₁, h₂, h₃, h₄, h₅, h₆⟩ := sequence_three hseq
  rw [isTail_iff] at hd
  have hlead : leading 3 b.toNat = (b.toNat - 0xE0) * 4096 := rfl
  rw [hlead]
  refine ⟨?_, ?_, by omega, by omega⟩
  · unfold IsScalar
    omega
  · rw [encodeRune, if_neg (by omega), if_neg (by omega), if_pos (by omega),
      ofNat_of_eq (b := b) (by omega), ofNat_of_eq (b := c) (by omega),
      ofNat_of_eq (b := d) (by omega)]
    rfl

private lemma reads_four {b c d e : UInt8} {lo hi : ℕ} (s : Bytes)
    (hseq : sequence b.toNat = some (4, lo, hi)) (hc : lo ≤ c.toNat ∧ c.toNat ≤ hi)
    (hd : isTail d = true) (he : isTail e = true) :
    Reads (b :: c :: d :: e :: s) (leading 4 b.toNat +
      (((c.toNat - 0x80) * 64 + (d.toNat - 0x80)) * 64 + (e.toNat - 0x80))) 4 := by
  obtain ⟨h₁, h₂, h₃, h₄, h₅, h₆⟩ := sequence_four hseq
  rw [isTail_iff] at hd he
  have hlead : leading 4 b.toNat = (b.toNat - 0xF0) * 262144 := rfl
  rw [hlead]
  refine ⟨?_, ?_, by omega, by omega⟩
  · unfold IsScalar
    omega
  · rw [encodeRune, if_neg (by omega), if_neg (by omega), if_neg (by omega),
      ofNat_of_eq (b := b) (by omega), ofNat_of_eq (b := c) (by omega),
      ofNat_of_eq (b := d) (by omega), ofNat_of_eq (b := e) (by omega)]
    rfl

private lemma reads_continued {b : UInt8} {s : Bytes} {n lo hi low : ℕ}
    (hseq : sequence b.toNat = some (n, lo, hi)) (hlow : continued n lo hi s = some low) :
    Reads (b :: s) (leading n b.toNat + low) n := by
  unfold continued at hlow
  split at hlow
  next c rest =>
    obtain ⟨hc, hlow⟩ := Option.ite_none_right_eq_some.mp hlow
    rw [← Option.some.inj hlow]
    exact reads_two rest hseq hc
  next c d rest =>
    obtain ⟨⟨hc, hd⟩, hlow⟩ := Option.ite_none_right_eq_some.mp hlow
    rw [← Option.some.inj hlow]
    exact reads_three rest hseq hc hd
  next c d e rest =>
    obtain ⟨⟨hc, hd, he⟩, hlow⟩ := Option.ite_none_right_eq_some.mp hlow
    rw [← Option.some.inj hlow]
    exact reads_four rest hseq hc hd he
  next => cases hlow

/-- What `decodeRune` makes of a string that is not empty. -/
lemma decodeRune_cons (b : UInt8) (s : Bytes) :
    decodeRune (b :: s) = (runeError, 1) ∨
      Reads (b :: s) (decodeRune (b :: s)).1 (decodeRune (b :: s)).2 := by
  simp only [decodeRune]
  by_cases hascii : b.toNat < 0x80
  · rw [if_pos hascii]
    refine Or.inr ⟨Or.inl (by omega), ?_, fun _ => hascii, Nat.one_pos⟩
    simp [encodeRune, hascii]
  · rw [if_neg hascii]
    cases hseq : sequence b.toNat with
    | none => exact Or.inl rfl
    | some x =>
      obtain ⟨n, lo, hi⟩ := x
      cases hlow : continued n lo hi s with
      | none =>
        simp only [hlow]
        exact Or.inl trivial
      | some low =>
        simp only [hlow]
        exact Or.inr (reads_continued hseq hlow)

/-! ## Texts -/

@[simp] lemma text_nil : text [] = [] := rfl

@[simp] lemma text_cons (r : ℕ) (rs : List ℕ) : text (r :: rs) = encodeRune r ++ text rs := rfl

@[simp] lemma text_append (rs rs' : List ℕ) : text (rs ++ rs') = text rs ++ text rs' :=
  List.flatMap_append

/-- The first byte of a rune begins it, and no other byte of it does. -/
lemma encodeRune_eq_cons {r : ℕ} (h : IsScalar r) :
    ∃ b s, encodeRune r = b :: s ∧ runeStart b = true ∧ ∀ c ∈ s, runeStart c = false := by
  have htail : ∀ n, 0x80 ≤ n → n ≤ 0xBF → runeStart (UInt8.ofNat n) = false := by
    intro n h₁ h₂
    rw [runeStart, Bool.not_eq_false', isTail_iff, UInt8.toNat_ofNat']
    omega
  have hstart : ∀ n, n < 256 → n < 0x80 ∨ 0xC0 ≤ n → runeStart (UInt8.ofNat n) = true := by
    intro n h₁ h₂
    rw [runeStart, Bool.not_eq_true', ← Bool.not_eq_true, isTail_iff, UInt8.toNat_ofNat']
    omega
  unfold IsScalar at h
  unfold encodeRune
  split
  next hr => exact ⟨_, _, rfl, hstart _ (by omega) (by omega), by simp⟩
  next =>
    split
    next hr =>
      refine ⟨_, _, rfl, hstart _ (by omega) (by omega), ?_⟩
      simp only [List.mem_singleton, forall_eq]
      exact htail _ (by omega) (by omega)
    next =>
      split
      next hr =>
        refine ⟨_, _, rfl, hstart _ (by omega) (by omega), ?_⟩
        simp only [List.mem_cons, List.not_mem_nil, or_false, forall_eq_or_imp, forall_eq]
        exact ⟨htail _ (by omega) (by omega), htail _ (by omega) (by omega)⟩
      next =>
        refine ⟨_, _, rfl, hstart _ (by omega) (by omega), ?_⟩
        simp only [List.mem_cons, List.not_mem_nil, or_false, forall_eq_or_imp, forall_eq]
        exact ⟨htail _ (by omega) (by omega), htail _ (by omega) (by omega),
          htail _ (by omega) (by omega)⟩

/-- A text cut where a rune begins, or at its ends, is the text of its first runes. -/
lemma take_text {rs : List ℕ} (h : ∀ r ∈ rs, IsScalar r) {cut : ℕ}
    (hcut : ∀ b, (text rs)[cut]? = some b → cut = 0 ∨ runeStart b = true) :
    ∃ n, (text rs).take cut = text (rs.take n) := by
  induction rs generalizing cut with
  | nil => exact ⟨0, by simp⟩
  | cons r rs ih =>
    obtain ⟨b, s, henc, -, htail⟩ := encodeRune_eq_cons (h r List.mem_cons_self)
    by_cases hzero : cut = 0
    · exact ⟨0, by simp [hzero]⟩
    · by_cases hlt : cut < (encodeRune r).length
      · -- inside the first rune there is no beginning of a rune
        have hget : (text (r :: rs))[cut]? = some (encodeRune r)[cut] := by
          rw [text_cons, List.getElem?_append_left hlt, List.getElem?_eq_getElem hlt]
        have hmem : (encodeRune r)[cut] ∈ s := by
          obtain ⟨k, rfl⟩ := Nat.exists_eq_succ_of_ne_zero hzero
          simp only [henc, List.getElem_cons_succ]
          exact List.getElem_mem _
        rcases hcut _ hget with hz | hst
        · exact absurd hz hzero
        · rw [htail _ hmem] at hst
          cases hst
      · have hrest : ∀ c, (text rs)[cut - (encodeRune r).length]? = some c →
            cut - (encodeRune r).length = 0 ∨ runeStart c = true := by
          intro c hc
          by_cases hz : cut - (encodeRune r).length = 0
          · exact Or.inl hz
          · refine Or.inr ((hcut c ?_).resolve_left hzero)
            rw [text_cons, List.getElem?_append_right (by omega)]
            exact hc
        obtain ⟨n, hn⟩ := ih (fun r' hr' => h r' (List.mem_cons_of_mem _ hr')) hrest
        refine ⟨n + 1, ?_⟩
        rw [text_cons, List.take_append, hn, List.take_of_length_le (by omega), List.take_succ_cons,
          text_cons]

/-- Bytes below `0x80` are runes of their own. -/
lemma text_ascii {s : Bytes} (h : ∀ b ∈ s, b.toNat < 0x80) : text (s.map UInt8.toNat) = s := by
  induction s with
  | nil => rfl
  | cons b s ih =>
    have hb := h b List.mem_cons_self
    rw [List.map_cons, text_cons, ih fun c hc => h c (List.mem_cons_of_mem _ hc)]
    simp [encodeRune, hb]

/-! ## The runes of a string -/

lemma runesFrom_eq (skip : ℕ) (s : Bytes) : runesFrom skip s = runes (s.drop skip) := by
  induction s generalizing skip with
  | nil => simp [runesFrom, runes]
  | cons b s ih =>
    cases skip with
    | zero => rfl
    | succ skip =>
      rw [List.drop_succ_cons, ← ih]
      rfl

lemma runes_cons (b : UInt8) (s : Bytes) :
    runes (b :: s) = ⟨(decodeRune (b :: s)).1, (decodeRune (b :: s)).2⟩ ::
      runes (s.drop ((decodeRune (b :: s)).2 - 1)) := by
  rw [← runesFrom_eq]
  rfl

lemma runes_cons_ascii {b : UInt8} (hb : b.toNat < 0x80) (s : Bytes) :
    runes (b :: s) = ⟨b.toNat, 1⟩ :: runes s := by
  rw [runes_cons, decodeRune, if_pos hb]
  rfl

lemma runes_ascii {s : Bytes} (h : ∀ b ∈ s, b.toNat < 0x80) :
    (runes s).map Rune.rune = s.map UInt8.toNat := by
  induction s with
  | nil => rfl
  | cons b s ih =>
    obtain ⟨hb, hs⟩ := List.forall_mem_cons.mp h
    rw [runes_cons_ascii hb, List.map_cons, ih hs, List.map_cons]

/-- If every rune is below `0x80`, so is every byte. -/
lemma ascii_of_runes {s : Bytes} (h : ∀ r ∈ runes s, r.rune < 0x80) : ∀ b ∈ s, b.toNat < 0x80 := by
  induction s with
  | nil => simp
  | cons b s ih =>
    have hb : b.toNat < 0x80 := by
      have hr : (decodeRune (b :: s)).1 < 0x80 := h _ (runes_cons b s ▸ List.mem_cons_self)
      rcases decodeRune_cons b s with herr | hreads
      · rw [herr] at hr
        exact absurd hr (by decide)
      · obtain ⟨w, hw⟩ := Nat.exists_eq_succ_of_ne_zero hreads.pos.ne'
        have hbytes := hreads.bytes
        rw [encodeRune, if_pos hr, hw, List.take_succ_cons] at hbytes
        rw [← (List.cons.inj hbytes).1, UInt8.toNat_ofNat']
        omega
    rw [runes_cons_ascii hb] at h
    exact List.forall_mem_cons.mpr ⟨hb, ih (List.forall_mem_cons.mp h).2⟩

/-- Above `0x80` the last byte of a rune is not ASCII. -/
lemma exists_mem_encodeRune {r : ℕ} (h : 0x80 ≤ r) : ∃ b ∈ encodeRune r, 0x80 ≤ b.toNat := by
  refine ⟨UInt8.ofNat (0x80 + r % 64), ?_, by rw [UInt8.toNat_ofNat']; omega⟩
  unfold encodeRune
  rw [if_neg (by omega)]
  split
  · simp
  · split <;> simp

/-- A rune that was read is not one that stands for a single bad byte. -/
lemma Reads.not_invalid {s : Bytes} {r w : ℕ} (h : Reads s r w) :
    (Rune.mk r w).invalid = false := by
  by_contra hinv
  simp only [Rune.invalid, Bool.not_eq_false, Bool.and_eq_true, beq_iff_eq, runeError] at hinv
  have := h.ascii hinv.2
  omega

/-- Induction along the runes of a string. -/
lemma runes_induction {motive : Bytes → Prop} (nil : motive [])
    (rune : ∀ s r w, Reads s r w → runes s = ⟨r, w⟩ :: runes (s.drop w) →
      motive (s.drop w) → motive s)
    (byte : ∀ b s, runes (b :: s) = ⟨runeError, 1⟩ :: runes s → motive s → motive (b :: s))
    (s : Bytes) : motive s := by
  induction hn : s.length using Nat.strong_induction_on generalizing s with
  | _ n ih =>
    cases s with
    | nil => exact nil
    | cons b s =>
      have hruns := runes_cons b s
      simp only [List.length_cons] at hn
      rcases decodeRune_cons b s with herr | hr
      · rw [herr] at hruns
        exact byte b s hruns (ih s.length (by omega) s rfl)
      · obtain ⟨w, hw⟩ := Nat.exists_eq_succ_of_ne_zero hr.pos.ne'
        have hdrop : (b :: s).drop (decodeRune (b :: s)).2 =
            s.drop ((decodeRune (b :: s)).2 - 1) := by
          rw [hw]
          rfl
        refine rune (b :: s) _ _ hr (by rw [hdrop]; exact hruns) (ih _ ?_ _ rfl)
        rw [hdrop, List.length_drop]
        omega

end Utf8

end Secmem
