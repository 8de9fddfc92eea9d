import Secmem.Redact.Sanitizer
import Mathlib.Data.List.GetD

/-!
# The allowlist and the matches that are replaced

`indexAllowlist` keeps the ends of the allowlist's matches, their starts, and for each start the
greatest end so far, but not which end belongs to which start.  `exempts_iff` says that two searches
in this index answer the question that was asked about pairs.  `applyRule_exact` puts it to use: an
entropy rule replaces the matches that are not exempt and pass its filter, and the rest of the
message stays as it is.
-/

namespace Secmem.Redact

/-! ## Searching a sorted list -/

section Search

variable {α : Type} {f : α → ℕ} {l : List α} {x : ℕ}

/-- In a list sorted by `f`, what is taken while `f` is below `x` is all there is below `x`. -/
lemma mem_takeWhile_iff (h : l.Pairwise fun a b => f a ≤ f b) {a : α} :
    a ∈ l.takeWhile (fun b => f b < x) ↔ a ∈ l ∧ f a < x := by
  induction l with
  | nil => simp
  | cons b l ih =>
    obtain ⟨hb, hl⟩ := List.pairwise_cons.mp h
    by_cases hbx : f b < x
    · rw [List.takeWhile_cons_of_pos (by simpa using hbx), List.mem_cons, List.mem_cons, ih hl]
      constructor
      · rintro (rfl | ⟨ha, hax⟩)
        · exact ⟨.inl rfl, hbx⟩
        · exact ⟨.inr ha, hax⟩
      · rintro ⟨rfl | ha, hax⟩
        · exact .inl rfl
        · exact .inr ⟨ha, hax⟩
    · rw [List.takeWhile_cons_of_neg (by simpa using hbx)]
      constructor
      · intro ha
        cases ha
      · rintro ⟨ha, hax⟩
        rcases List.mem_cons.mp ha with rfl | ha
        · exact absurd hax hbx
        · exact absurd ((hb a ha).trans_lt hax) hbx

lemma searchInts_map (f : α → ℕ) (l : List α) (x : ℕ) :
    searchInts (l.map f) x = (l.takeWhile fun b => f b < x).length := by
  rw [searchInts, List.takeWhile_map, List.length_map]
  rfl

lemma take_searchInts (f : α → ℕ) (l : List α) (x : ℕ) :
    l.take (searchInts (l.map f) x) = l.takeWhile fun b => f b < x := by
  rw [searchInts_map]
  exact List.prefix_iff_eq_take.mp (List.takeWhile_prefix _) |>.symm

/-- The search finds a number that is there. -/
lemma getElem?_searchInts {ends : List ℕ} (h : ends.Pairwise (· ≤ ·)) :
    ends[searchInts ends x]? = some x ↔ x ∈ ends := by
  constructor
  · exact List.mem_of_getElem?
  · intro hx
    have hsplit := List.takeWhile_append_dropWhile (p := fun b => decide (b < x)) (l := ends)
    have hmem : x ∈ ends.dropWhile fun b => b < x := by
      rw [← hsplit, List.mem_append] at hx
      refine hx.resolve_left fun hx => ?_
      have := (mem_takeWhile_iff (f := id) h).mp hx
      exact absurd this.2 (Nat.lt_irrefl x)
    cases hdrop : ends.dropWhile fun b => decide (b < x) with
    | nil =>
      rw [hdrop] at hmem
      cases hmem
    | cons b rest =>
      have hb : ¬ b < x := by
        have := List.head_dropWhile_not (fun b => decide (b < x)) (l := ends)
          (by rw [hdrop]; exact List.cons_ne_nil _ _)
        simpa [hdrop] using this
      have hsorted : (b :: rest).Pairwise (· ≤ ·) := hdrop ▸ h.sublist (List.dropWhile_sublist _)
      have hxb : b ≤ x := by
        rw [hdrop] at hmem
        rcases List.mem_cons.mp hmem with rfl | hrest
        · exact le_rfl
        · exact (List.pairwise_cons.mp hsorted).1 x hrest
      have : b = x := by omega
      have hget : ends[searchInts ends x]? =
          (ends.takeWhile (fun b => decide (b < x)) ++ b :: rest)[searchInts ends x]? := by
        rw [← hdrop, hsplit]
      rw [hget, searchInts, List.getElem?_append_right le_rfl, Nat.sub_self, this]
      rfl

end Search

/-! ## The index -/

/-- The running maximum at a place is reached by a span up to that place. -/
lemma le_getD_runningMax {stop i : ℕ} (m : ℕ) {l : List (ℕ × ℕ)} (hi : i < l.length) :
    stop ≤ (runningMax m l).getD i 0 ↔ stop ≤ m ∨ ∃ x ∈ l.take (i + 1), stop ≤ x.2 := by
  induction l generalizing m i with
  | nil => cases hi
  | cons x l ih =>
    cases i with
    | zero => simp [runningMax]
    | succ i =>
      rw [runningMax, List.getD_cons_succ, ih _ (Nat.lt_of_succ_lt_succ hi), List.take_succ_cons,
        le_max_iff, or_assoc, List.exists_mem_cons_iff]

/-- The match `[start, stop)` is spared: a match of the allowlist ends where it starts, or contains
it. -/
def Sanitizer.Exempt (s : Sanitizer) (message : Bytes) (start stop : ℕ) : Prop :=
  ∃ p ∈ s.allowlist, ∃ x ∈ p.findAllStringIndex message,
    x.2 = start ∨ x.1 ≤ start ∧ stop ≤ x.2

instance (s : Sanitizer) (message : Bytes) (start stop : ℕ) :
    Decidable (s.Exempt message start stop) :=
  inferInstanceAs (Decidable (∃ p ∈ s.allowlist, ∃ x ∈ p.findAllStringIndex message, _))

/-- The spans in any order that is sorted by their starts. -/
lemma exempts_of_sorted {spans : List (ℕ × ℕ)} (h : spans.Pairwise fun x y => x.1 ≤ y.1)
    (start stop : ℕ) :
    AllowIndex.exempts ⟨(spans.map Prod.snd).insertionSort (· ≤ ·), spans.map Prod.fst,
        runningMax 0 spans⟩ start stop = true ↔
      ∃ x ∈ spans, x.2 = start ∨ x.1 ≤ start ∧ stop ≤ x.2 := by
  have hends := getElem?_searchInts (x := start)
    (List.pairwise_insertionSort (· ≤ ·) (spans.map Prod.snd))
  rw [List.mem_insertionSort, List.mem_map] at hends
  have hcut := take_searchInts Prod.fst spans (start + 1)
  rw [AllowIndex.exempts]
  split
  · next hnil =>
    have : spans = [] := by
      have hlen := congrArg List.length hnil
      rw [List.length_insertionSort, List.length_map] at hlen
      exact List.eq_nil_of_length_eq_zero hlen
    simp [this]
  split
  · next hend =>
    obtain ⟨x, hx, hxs⟩ := hends.mp hend
    simp only [true_iff]
    exact ⟨x, hx, .inl hxs⟩
  · next hend =>
    have hnone : ∀ x ∈ spans, x.2 ≠ start := fun x hx hxs => hend (hends.mpr ⟨x, hx, hxs⟩)
    -- what is left is containment, among the spans that start at or before `start`
    have hcontain : (∃ x ∈ spans, x.2 = start ∨ x.1 ≤ start ∧ stop ≤ x.2) ↔
        ∃ x ∈ spans.take (searchInts (spans.map Prod.fst) (start + 1)), stop ≤ x.2 := by
      rw [hcut]
      constructor
      · rintro ⟨x, hx, hxs | ⟨hle, hstop⟩⟩
        · exact absurd hxs (hnone x hx)
        · exact ⟨x, (mem_takeWhile_iff h).mpr ⟨hx, by omega⟩, hstop⟩
      · rintro ⟨x, hx, hstop⟩
        obtain ⟨hx, hlt⟩ := (mem_takeWhile_iff h).mp hx
        exact ⟨x, hx, .inr ⟨by omega, hstop⟩⟩
    rw [hcontain]
    cases hi : searchInts (spans.map Prod.fst) (start + 1) with
    | zero => simp
    | succ i =>
      have hlen : i < spans.length := by
        have hle : searchInts (spans.map Prod.fst) (start + 1) ≤ (spans.map Prod.fst).length :=
          (List.takeWhile_sublist _).length_le
        rw [hi, List.length_map] at hle
        omega
      rw [decide_eq_true_iff, le_getD_runningMax 0 hlen]
      constructor
      · rintro (hzero | hx)
        · have hpos : 0 < (spans.take (i + 1)).length := by
            rw [List.length_take]
            omega
          exact ⟨_, List.getElem_mem hpos, by omega⟩
        · exact hx
      · exact .inr

lemma exempts_iff (s : Sanitizer) (message : Bytes) (start stop : ℕ) :
    (s.indexAllowlist message).exempts start stop = true ↔ s.Exempt message start stop := by
  have hsorted := List.pairwise_insertionSort (fun x y : ℕ × ℕ => x.1 ≤ y.1)
    (s.allowlist.flatMap fun p => p.findAllStringIndex message)
  rw [Sanitizer.indexAllowlist, exempts_of_sorted hsorted]
  simp only [List.mem_insertionSort, List.mem_flatMap, Sanitizer.Exempt]
  constructor
  · rintro ⟨x, ⟨p, hp, hx⟩, h⟩
    exact ⟨p, hp, x, hx, h⟩
  · rintro ⟨p, hp, x, hx, h⟩
    exact ⟨x, ⟨p, hp, hx⟩, h⟩

/-! ## What a rule replaces -/

/-- The message with `text` in the place of each match, from `pos` on. -/
def rewritten (text : Match → Bytes) (message : Bytes) : ℕ → List Match → Bytes
  | pos, [] => message.drop pos
  | pos, m :: ms => slice message pos m.span.1 ++ text m ++ rewritten text message m.span.2 ms

/-- Spans from `pos` on, from left to right and without overlap, up to `stop` at most. -/
def SpansFrom (stop : ℕ) : ℕ → List (ℕ × ℕ) → Prop
  | pos, [] => pos ≤ stop
  | pos, x :: xs => pos ≤ x.1 ∧ x.1 ≤ x.2 ∧ SpansFrom stop x.2 xs

/-- What `regexp` documents of an expression: its matches are successive and do not overlap, and
`ReplaceAllString` replaces them all by the expansion of the template. -/
structure Pattern.Lawful (p : Pattern) : Prop where
  spans : ∀ message, SpansFrom message.length 0
    ((p.findAllStringSubmatchIndex message).map Match.span)
  replace : ∀ message tag, p.replaceAllString message tag =
    rewritten (p.expandString tag message) message 0 (p.findAllStringSubmatchIndex message)

section Replace

variable {message : Bytes} {a b c pos lastEnd : ℕ} {ms : List Match}

lemma slice_append (hab : a ≤ b) (hbc : b ≤ c) :
    slice message a b ++ slice message b c = slice message a c := by
  simp only [slice, List.drop_take]
  rw [show c - a = (b - a) + (c - b) by omega, List.take_add, List.drop_drop,
    Nat.add_sub_cancel' hab]

lemma slice_append_drop (hab : a ≤ b) :
    slice message a b ++ message.drop b = message.drop a := by
  rw [slice, List.drop_take]
  conv_rhs => rw [← List.take_append_drop (b - a) (message.drop a)]
  rw [List.drop_drop, Nat.add_sub_cancel' hab]

@[simp] lemma slice_self : slice message a a = [] := by
  rw [slice, List.drop_take, Nat.sub_self, List.take_zero]

/-- With its own text in the place of each match the message is as it was. -/
lemma rewritten_self (h : SpansFrom message.length pos (ms.map Match.span)) :
    rewritten (fun m => slice message m.span.1 m.span.2) message pos ms = message.drop pos := by
  induction ms generalizing pos with
  | nil => rfl
  | cons m ms ih =>
    obtain ⟨hpos, hspan, hms⟩ := h
    rw [rewritten, ih hms, List.append_assoc, slice_append_drop hspan, slice_append_drop hpos]

/-- What becomes of a match. -/
def Sanitizer.replacement (s : Sanitizer) (rule : Rule) (message : Bytes) (m : Match) : Bytes :=
  if ¬s.Exempt message m.span.1 m.span.2 ∧
      rule.filter.all (fun f => f (slice message m.span.1 m.span.2)) = true then
    rule.pattern.expandString rule.effectiveTag message m
  else slice message m.span.1 m.span.2

variable {s : Sanitizer} {rule : Rule}

lemma replaces_iff (hrule : rule.category = .entropy) (m : Match) :
    s.replaces rule message m = true ↔ ¬s.Exempt message m.span.1 m.span.2 ∧
      rule.filter.all (fun f => f (slice message m.span.1 m.span.2)) = true := by
  have hgate : (s.allowlist ≠ [] ∧ s.Exempt message m.span.1 m.span.2) ↔
      s.Exempt message m.span.1 m.span.2 := by
    constructor
    · exact And.right
    · intro h
      obtain ⟨p, hp, -⟩ := id h
      exact ⟨List.ne_nil_of_mem hp, h⟩
  simp only [Sanitizer.replaces, hrule, true_and, exempts_iff, hgate]
  split
  · next h => simp [h]
  · next h =>
    cases rule.filter with
    | none => simp [h]
    | some f => simp [h]

/-- The loop of `applyRule` is behind by the matches that it has not replaced. -/
lemma substitute_eq (hrule : rule.category = .entropy) (hle : lastEnd ≤ pos)
    (h : SpansFrom message.length pos (ms.map Match.span)) :
    s.substitute rule message lastEnd ms =
      slice message lastEnd pos ++ rewritten (s.replacement rule message) message pos ms := by
  induction ms generalizing pos lastEnd with
  | nil => rw [Sanitizer.substitute, rewritten, slice_append_drop hle]
  | cons m ms ih =>
    obtain ⟨hpos, hspan, hms⟩ := h
    rw [Sanitizer.substitute, rewritten, Sanitizer.replacement]
    by_cases hm : s.replaces rule message m = true
    · rw [if_pos hm, if_pos ((replaces_iff hrule m).mp hm), ih le_rfl hms, slice_self,
        List.nil_append, ← List.append_assoc, ← List.append_assoc, slice_append hle hpos]
    · rw [if_neg hm, if_neg fun h => hm ((replaces_iff hrule m).mpr h),
        ih (hle.trans (hpos.trans hspan)) hms, ← List.append_assoc, ← List.append_assoc,
        slice_append hle hpos, slice_append (hle.trans hpos) hspan]

end Replace

/-- The index answers the question about pairs, and an entropy rule puts the expansion of its tag in
the place of the matches that are not exempt and pass its filter, and of nothing else. -/
theorem applyRule_exact (s : Sanitizer) {rule : Rule} (hrule : rule.category = .entropy)
    (hlaw : rule.pattern.Lawful) (message : Bytes) :
    (∀ start stop, (s.indexAllowlist message).exempts start stop = true ↔
      ∃ p ∈ s.allowlist, ∃ x ∈ p.findAllStringIndex message,
        x.2 = start ∨ x.1 ≤ start ∧ stop ≤ x.2) ∧
    rewritten (fun m => slice message m.span.1 m.span.2) message 0
      (rule.pattern.findAllStringSubmatchIndex message) = message ∧
    s.applyRule message rule = rewritten (s.replacement rule message) message 0
      (rule.pattern.findAllStringSubmatchIndex message) := by
  have hspans := hlaw.spans message
  refine ⟨exempts_iff s message, rewritten_self hspans, ?_⟩
  rw [Sanitizer.applyRule]
  split
  · next hplain =>
    -- neither gated nor filtered: every match is replaced
    have hall : s.replacement rule message =
        rule.pattern.expandString rule.effectiveTag message := by
      funext m
      rw [Sanitizer.replacement, if_pos]
      refine ⟨fun ⟨_, hp, _⟩ => hplain.1 ⟨hrule, List.ne_nil_of_mem hp⟩, ?_⟩
      rw [Option.isNone_iff_eq_none.mp hplain.2, Option.all_none]
    rw [hlaw.replace, hall]
  · cases hms : rule.pattern.findAllStringSubmatchIndex message with
    | nil => rw [rewritten, List.drop_zero]
    | cons m ms =>
      rw [hms] at hspans
      dsimp only
      rw [substitute_eq hrule le_rfl hspans, slice_self, List.nil_append]

/-! ## An expression without operators -/

/-- Where `text` occurs in what is left from `pos` on, after the next `skip` bytes, from left to
right and without overlap. -/
def occurrences (text : Bytes) : (pos skip : ℕ) → Bytes → List (ℕ × ℕ)
  | _, _, [] => []
  | pos, skip + 1, _ :: rest => occurrences text (pos + 1) skip rest
  | pos, 0, b :: rest =>
    if text.isPrefixOf (b :: rest) = true then
      (pos, pos + text.length) :: occurrences text (pos + 1) (text.length - 1) rest
    else occurrences text (pos + 1) 0 rest

/-- The expression that matches `text` alone, for replacements without `$`. -/
def Pattern.literal (text : Bytes) : Pattern :=
  let found (message : Bytes) : List Match :=
    (occurrences text 0 0 message).map fun x => [some x]
  { replaceAllString := fun message tag => rewritten (fun _ => tag) message 0 (found message)
    findAllStringSubmatchIndex := found
    findAllStringIndex := occurrences text 0 0
    expandString := fun tag _ _ => tag }

lemma spansFrom_occurrences {text : Bytes} (htext : text ≠ []) (pos skip : ℕ) {rest : Bytes}
    (hskip : skip ≤ rest.length) :
    SpansFrom (pos + rest.length) (pos + skip) (occurrences text pos skip rest) := by
  have hpos := List.length_pos_iff.mpr htext
  have hmono {stop p p' : ℕ} {xs : List (ℕ × ℕ)} (hp : p' ≤ p) (h : SpansFrom stop p xs) :
      SpansFrom stop p' xs := by
    cases xs with
    | nil => exact hp.trans h
    | cons x xs => exact ⟨hp.trans h.1, h.2⟩
  induction rest generalizing pos skip with
  | nil => exact Nat.add_le_add_left hskip pos
  | cons b rest ih =>
    rw [List.length_cons] at hskip ⊢
    rw [show pos + (rest.length + 1) = pos + 1 + rest.length by omega]
    cases skip with
    | succ skip => exact hmono (by omega) (ih (pos + 1) skip (by omega))
    | zero =>
      rw [occurrences]
      split
      · next hmatch =>
        have hle := (List.isPrefixOf_iff_prefix.mp hmatch).length_le
        rw [List.length_cons] at hle
        exact ⟨le_rfl, Nat.le_add_right _ _, hmono (by omega) (ih _ _ (by omega))⟩
      · exact hmono (by omega) (ih _ 0 (Nat.zero_le _))

lemma Pattern.literal_lawful {text : Bytes} (htext : text ≠ []) : (literal text).Lawful where
  spans message := by
    have h := spansFrom_occurrences htext 0 0 (Nat.zero_le message.length)
    rw [Nat.zero_add] at h
    simpa [literal, Match.span, Function.comp_def] using h
  replace _ _ := rfl

/-- Of two matches the first comes right after a label of the allowlist, and only the second is
replaced. -/
theorem applyRule_exact_commit :
    let s : Sanitizer := ⟨[], [.literal (bytes "commit: ")], 4096⟩
    let rule : Rule := ⟨bytes "hex_secret", .entropy, .literal (bytes "0123"), [], none⟩
    let message := bytes "commit: 0123, 0123"
    (s.indexAllowlist message).exempts 8 12 = true ∧
    (s.indexAllowlist message).exempts 14 18 ≠ true ∧
    s.applyRule message rule = bytes "commit: 0123, [REDACTED:hex_secret]" := by
  intro s rule message
  obtain ⟨hexempt, -, hrule⟩ :=
    @applyRule_exact s rule rfl (Pattern.literal_lawful (by decide)) message
  rw [hexempt, Ne, hexempt, hrule]
  decide +kernel

end Secmem.Redact
