import Secmem.Framework.Utf8
import Mathlib.Data.List.Sort
import Mathlib.Order.Defs.LinearOrder

/-!
# `redact/sanitizer.go`

The sanitizer: a list of rules applied in order, then the control characters, then the length,
and this again until nothing changes or the passes run out.

A `Pattern` is what the sanitizer uses of a compiled regular expression.  Nothing is assumed of
it here, nor of a rule's filter: the text a pass returns is made well formed after the rules have
run.
-/

namespace Secmem.Redact

open Utf8

/-- The bytes of a string of the source. -/
def bytes (s : String) : Bytes := s.toByteArray.data.toList

/-- The spans of a match and of its groups; a group that took no part has none. -/
abbrev Match := List (Option (ℕ × ℕ))

/-- What is used of a `regexp.Regexp`. -/
structure Pattern where
  replaceAllString : Bytes → Bytes → Bytes
  findAllStringSubmatchIndex : Bytes → List Match
  findAllStringIndex : Bytes → List (ℕ × ℕ)
  expandString : Bytes → Bytes → Match → Bytes

inductive Category
  | injection
  | secret
  | entropy
  | other (name : String)
  deriving DecidableEq, Repr

structure Rule where
  name : Bytes
  category : Category
  pattern : Pattern
  tag : Bytes
  filter : Option (Bytes → Bool)

/-- `tag`: the replacement, or the default one. -/
def Rule.effectiveTag (r : Rule) : Bytes :=
  if r.tag ≠ [] then r.tag else bytes "[REDACTED:" ++ r.name ++ bytes "]"

structure Sanitizer where
  rules : List Rule
  allowlist : List Pattern
  maxLen : ℤ

/-! ## Construction -/

inductive SanitizerOption
  | withMaxLen (n : ℤ)
  | withAllowlist (patterns : List Pattern)

variable (s : Sanitizer) (message : Bytes)

/-- The settings an option changes. -/
def SanitizerOption.apply : SanitizerOption → Sanitizer
  | withMaxLen n => { s with maxLen := n }
  | withAllowlist patterns => { s with allowlist := patterns }

def newSanitizer (rules : List Rule) (opts : List SanitizerOption) : Sanitizer :=
  opts.foldl SanitizerOption.apply ⟨rules, [], 4096⟩

/-! ## The allowlist -/

/-- `allowIndex`: the ends of the allowlist's matches in order, their starts in order, and for
each start the greatest end so far. -/
structure AllowIndex where
  ends : List ℕ
  starts : List ℕ
  maxEnd : List ℕ
  deriving DecidableEq, Repr

/-- The greatest end so far, for each span. -/
def runningMax : ℕ → List (ℕ × ℕ) → List ℕ
  | _, [] => []
  | m, x :: xs => max m x.2 :: runningMax (max m x.2) xs

def Sanitizer.indexAllowlist : AllowIndex :=
  let spans := (s.allowlist.flatMap fun p => p.findAllStringIndex message).insertionSort
    fun x y => x.1 ≤ y.1
  ⟨(spans.map Prod.snd).insertionSort (· ≤ ·), spans.map Prod.fst, runningMax 0 spans⟩

/-- `sort.SearchInts`: where `x` would be inserted into a sorted list. -/
def searchInts (xs : List ℕ) (x : ℕ) : ℕ := (xs.takeWhile (· < x)).length

def AllowIndex.exempts (a : AllowIndex) (start stop : ℕ) : Bool :=
  if a.ends = [] then false
  else if a.ends[searchInts a.ends start]? = some start then true
  else match searchInts a.starts (start + 1) with
    | 0 => false
    | i + 1 => decide (stop ≤ a.maxEnd.getD i 0)

/-! ## One rule -/

/-- The whole span of a match. -/
def Match.span (m : Match) : ℕ × ℕ := ((m.headD none).getD (0, 0))

/-- The bytes `[lo, hi)` of a message. -/
def slice (lo hi : ℕ) : Bytes := (message.take hi).drop lo

/-- Whether a match is replaced. -/
def Sanitizer.replaces (rule : Rule) (message : Bytes) (m : Match) : Bool :=
  let gated := rule.category = .entropy ∧ s.allowlist ≠ []
  if gated ∧ (s.indexAllowlist message).exempts m.span.1 m.span.2 = true then false
  else match rule.filter with
    | none => true
    | some f => f (slice message m.span.1 m.span.2)

/-- The message with the matches that are replaced, from `lastEnd` on. -/
def Sanitizer.substitute (s : Sanitizer) (rule : Rule) (message : Bytes) :
    ℕ → List Match → Bytes
  | lastEnd, [] => message.drop lastEnd
  | lastEnd, m :: ms =>
    if s.replaces rule message m = true then
      slice message lastEnd m.span.1 ++
        rule.pattern.expandString rule.effectiveTag message m ++
        s.substitute rule message m.span.2 ms
    else s.substitute rule message lastEnd ms

def Sanitizer.applyRule (rule : Rule) : Bytes :=
  if ¬(rule.category = .entropy ∧ s.allowlist ≠ []) ∧ rule.filter.isNone = true then
    rule.pattern.replaceAllString message rule.effectiveTag
  else match rule.pattern.findAllStringSubmatchIndex message with
    | [] => message
    | m :: ms => s.substitute rule message 0 (m :: ms)

/-! ## Control characters -/

/-- The control characters: C0, DEL and C1. -/
def isControl (r : ℕ) : Bool := Nat.blt r 32 || r == 127 || (Nat.ble 0x80 r && Nat.ble r 0x9f)

lemma isControl_iff {r : ℕ} :
    isControl r = true ↔ r < 32 ∨ r = 127 ∨ 0x80 ≤ r ∧ r ≤ 0x9f := by
  simp [isControl, Nat.blt_eq, or_assoc]

/-- Whether a rune is replaced. -/
def nonPrintable (r : Rune) : Bool := r.invalid || isControl r.rune

/-- What a rune is written as. -/
def stripRune (r : Rune) : Bytes :=
  if r.invalid = true then bytes "[REDACTED:invalid_utf8]"
  else if isControl r.rune = true then bytes "[REDACTED:control_char]"
  else encodeRune r.rune

def stripNonPrintable (s : Bytes) : Bytes :=
  if (runes s).any nonPrintable = false then s else (runes s).flatMap stripRune

/-! ## Length -/

def truncatedTag : Bytes := bytes "[REDACTED:truncated]"

/-- The cut, moved back to the beginning of a rune. -/
def backUp (m : Bytes) : ℕ → ℕ
  | 0 => 0
  | cut + 1 => if runeStart (m.getD (cut + 1) 0) = true then cut + 1 else backUp m cut

def Sanitizer.truncate (m : Bytes) : Bytes :=
  if s.maxLen ≤ 0 ∨ (m.length : ℤ) ≤ s.maxLen then m
  else if truncatedTag.isSuffixOf m = true ∧
      (m.length : ℤ) - truncatedTag.length ≤ s.maxLen then m
  else m.take (backUp m s.maxLen.toNat) ++ truncatedTag

/-! ## Passes -/

def Sanitizer.onePass : Bytes :=
  s.truncate (stripNonPrintable (s.rules.foldl s.applyRule message))

def maxSanitizePasses : ℕ := 16

/-- The loop of `Sanitize`: the text it ends with, and whether it ended at a fixpoint rather
than at its bound. -/
def Sanitizer.iterate (s : Sanitizer) : ℕ → Bytes → Bytes × Bool
  | 0, prev => (prev, false)
  | n + 1, prev =>
    if s.onePass prev = prev then (s.onePass prev, true) else s.iterate n (s.onePass prev)

def Sanitizer.sanitize : Bytes :=
  if message = [] then message
  else (s.iterate maxSanitizePasses (s.truncate message)).1

/-- Whether the loop of `Sanitize` stops before its bound. -/
def Sanitizer.stops : Bool :=
  message.isEmpty || (s.iterate maxSanitizePasses (s.truncate message)).2

/-! ## What a pass returns -/

/-- Printable text: the text of scalar values that are not control characters. -/
def Printable (s : Bytes) : Prop :=
  ∃ rs : List ℕ, (∀ r ∈ rs, IsScalar r ∧ isControl r = false) ∧ s = text rs

namespace Printable

lemma nil : Printable [] := ⟨[], by simp, rfl⟩

lemma append {s s' : Bytes} (h : Printable s) (h' : Printable s') : Printable (s ++ s') := by
  obtain ⟨rs, hrs, rfl⟩ := h
  obtain ⟨rs', hrs', rfl⟩ := h'
  refine ⟨rs ++ rs', fun r hr => ?_, (text_append rs rs').symm⟩
  rcases List.mem_append.mp hr with hr | hr
  · exact hrs r hr
  · exact hrs' r hr

lemma rune {r : ℕ} (h : IsScalar r) (hc : isControl r = false) : Printable (encodeRune r) :=
  ⟨[r], by simpa using ⟨h, hc⟩, by simp⟩

/-- The tags are ASCII. -/
lemma ascii {s : Bytes} (h : s.all fun b => Nat.ble 32 b.toNat && Nat.ble b.toNat 126) :
    Printable s := by
  have hb : ∀ b ∈ s, 32 ≤ b.toNat ∧ b.toNat ≤ 126 := by
    intro b hb
    simpa using List.all_eq_true.mp h b hb
  refine ⟨s.map UInt8.toNat, fun r hr => ?_, (text_ascii fun b hm => ?_).symm⟩
  · obtain ⟨b, hm, rfl⟩ := List.mem_map.mp hr
    have := hb b hm
    refine ⟨Or.inl (by omega), ?_⟩
    rw [← Bool.not_eq_true, isControl_iff]
    omega
  · have := hb b hm
    omega

/-- A printable text cut where a rune begins is printable. -/
lemma take {s : Bytes} (h : Printable s) {cut : ℕ}
    (hcut : ∀ b, s[cut]? = some b → cut = 0 ∨ runeStart b = true) : Printable (s.take cut) := by
  obtain ⟨rs, hrs, rfl⟩ := h
  obtain ⟨n, hn⟩ := take_text (fun r hr => (hrs r hr).1) hcut
  exact ⟨rs.take n, fun r hr => hrs r (List.mem_of_mem_take hr), hn⟩

end Printable

/-! ### Control characters -/

/-- Stripping changes nothing but the runes it replaces. -/
lemma flatMap_stripRune (s : Bytes) (h : (runes s).any nonPrintable = false) :
    (runes s).flatMap stripRune = s := by
  induction s using runes_induction with
  | nil => rfl
  | rune s r w hr hruns ih =>
    rw [hruns, List.any_cons, Bool.or_eq_false_iff] at h
    have hc : isControl r = false := (Bool.or_eq_false_iff.mp h.1).2
    have hrune : stripRune ⟨r, w⟩ = s.take w := by
      simp [stripRune, hr.not_invalid, hc, hr.bytes]
    rw [hruns, List.flatMap_cons, ih h.2, hrune, List.take_append_drop]
  | byte b s hruns ih =>
    rw [hruns, List.any_cons, Bool.or_eq_false_iff] at h
    exact absurd h.1 (by decide)

lemma printable_stripRune {r : Rune} (h : r.invalid = true ∨ IsScalar r.rune) :
    Printable (stripRune r) := by
  unfold stripRune
  split
  next => exact .ascii (by decide)
  next hinv =>
    split
    next => exact .ascii (by decide)
    next hc => exact .rune (h.resolve_left hinv) (by simpa using hc)

lemma printable_stripNonPrintable (s : Bytes) : Printable (stripNonPrintable s) := by
  have hout : Printable ((runes s).flatMap stripRune) := by
    induction s using runes_induction with
    | nil => exact .nil
    | rune s r w hr hruns ih =>
      rw [hruns, List.flatMap_cons]
      exact (printable_stripRune (Or.inr hr.scalar)).append ih
    | byte b s hruns ih =>
      rw [hruns, List.flatMap_cons]
      exact (printable_stripRune (Or.inl rfl)).append ih
  unfold stripNonPrintable
  split
  next h => rwa [flatMap_stripRune s h] at hout
  next => exact hout

/-! ### Length -/

lemma backUp_le (m : Bytes) (cut : ℕ) : backUp m cut ≤ cut := by
  induction cut with
  | zero => exact Nat.le_refl 0
  | succ cut ih =>
    unfold backUp
    split
    · exact Nat.le_refl _
    · exact ih.trans (Nat.le_succ cut)

/-- The cut is where a rune begins. -/
lemma backUp_start (m : Bytes) (cut : ℕ) (b : UInt8) (h : m[backUp m cut]? = some b) :
    backUp m cut = 0 ∨ runeStart b = true := by
  induction cut with
  | zero => exact Or.inl rfl
  | succ cut ih =>
    unfold backUp at h ⊢
    split at h
    next hst =>
      rw [if_pos hst]
      rw [List.getD_eq_getElem?_getD, h] at hst
      exact Or.inr hst
    next hst =>
      rw [if_neg hst]
      exact ih h

namespace Sanitizer

lemma printable_truncate {m : Bytes} (h : Printable m) : Printable (s.truncate m) := by
  unfold truncate
  split
  next => exact h
  next =>
    split
    next => exact h
    next => exact (h.take (backUp_start m _)).append (.ascii (by decide))

lemma length_truncate (m : Bytes) (h : 0 < s.maxLen) :
    ((s.truncate m).length : ℤ) ≤ s.maxLen + truncatedTag.length := by
  unfold truncate
  split
  next hfits => omega
  next =>
    split
    next htag => omega
    next =>
      have hback := backUp_le m s.maxLen.toNat
      rw [List.length_append, List.length_take]
      omega

/-- A truncated text is left alone. -/
lemma truncate_truncate (m : Bytes) : s.truncate (s.truncate m) = s.truncate m := by
  by_cases hfits : s.maxLen ≤ 0 ∨ (m.length : ℤ) ≤ s.maxLen
  · have hsame : s.truncate m = m := by rw [truncate, if_pos hfits]
    rw [hsame, hsame]
  · by_cases htag : truncatedTag.isSuffixOf m = true ∧
        (m.length : ℤ) - truncatedTag.length ≤ s.maxLen
    · have hsame : s.truncate m = m := by rw [truncate, if_neg hfits, if_pos htag]
      rw [hsame, hsame]
    · have hcut : s.truncate m = m.take (backUp m s.maxLen.toNat) ++ truncatedTag := by
        rw [truncate, if_neg hfits, if_neg htag]
      rw [hcut, truncate]
      split
      next => rfl
      next =>
        have hback := backUp_le m s.maxLen.toNat
        refine if_pos ⟨?_, ?_⟩
        · rw [List.isSuffixOf_iff_suffix]
          exact List.suffix_append _ _
        · rw [List.length_append, List.length_take]
          omega

/-! ### Passes -/

lemma printable_onePass (m : Bytes) : Printable (s.onePass m) :=
  s.printable_truncate (printable_stripNonPrintable _)

/-- What the loop returns is what a pass returned, and if it stopped early that pass returns it
again. -/
lemma iterate_cases (n : ℕ) (prev : Bytes) :
    (∃ m, (s.iterate (n + 1) prev).1 = s.onePass m) ∧
      ((s.iterate (n + 1) prev).2 = true →
        s.onePass (s.iterate (n + 1) prev).1 = (s.iterate (n + 1) prev).1) := by
  induction n generalizing prev with
  | zero =>
    unfold iterate
    split
    next h => exact ⟨⟨prev, rfl⟩, fun _ => congrArg s.onePass h⟩
    next h => exact ⟨⟨prev, rfl⟩, fun hstop => by cases hstop⟩
  | succ n ih =>
    rw [iterate]
    split
    next h => exact ⟨⟨prev, rfl⟩, fun _ => congrArg s.onePass h⟩
    next h => exact ih (s.onePass prev)

/-- What a pass returns and returns again is a fixpoint of the whole loop. -/
lemma sanitize_of_onePass {m : Bytes} (h : s.onePass m = m) : s.sanitize m = m := by
  unfold sanitize
  split
  next => rfl
  next =>
    have htrunc : s.truncate m = m := by
      conv_rhs => rw [← h]
      conv_lhs => rw [← h]
      exact s.truncate_truncate _
    rw [htrunc, maxSanitizePasses, iterate, if_pos h]
    exact h

/-- `Sanitize` returns printable text within the limit, and text that it leaves alone unless the
passes ran out. -/
theorem sanitize_sound (m : Bytes) :
    Printable (s.sanitize m) ∧
      (0 < s.maxLen → ((s.sanitize m).length : ℤ) ≤ s.maxLen + truncatedTag.length) ∧
      (s.stops m = true → s.sanitize (s.sanitize m) = s.sanitize m) := by
  by_cases hm : m = []
  · subst hm
    have hnil : s.sanitize [] = [] := rfl
    rw [hnil]
    refine ⟨.nil, fun hmax => ?_, fun _ => hnil⟩
    rw [List.length_nil]
    omega
  · obtain ⟨⟨m', hm'⟩, hfix⟩ := s.iterate_cases 15 (s.truncate m)
    have hout : s.sanitize m = (s.iterate 16 (s.truncate m)).1 := if_neg hm
    rw [hout]
    refine ⟨?_, fun hmax => ?_, fun hstop => ?_⟩
    · rw [hm']
      exact s.printable_onePass m'
    · rw [hm']
      exact s.length_truncate _ hmax
    · refine s.sanitize_of_onePass (hfix ?_)
      have hempty : m.isEmpty = false := by simpa using hm
      rwa [stops, hempty, Bool.false_or] at hstop

end Sanitizer

end Secmem.Redact
