import Secmem.Redact.Handler

/-!
# Which keys are sensitive

A key is compared with the entries of the key set by components: both are cut by `splitKey`, and an
entry is found where it occurs in the components that lead to the key and reaches into the key's
own.  There is no comparison of the key as a whole, so a key that is an entry but for the case of
its letters is not redacted when its capitals cut it in other places (`mixed_case_key_shown`).
-/

namespace Secmem.Redact

/-- An entry occurs in the components of the path and the key, and ends inside the key's own. -/
def KeySet.Finds (ks : KeySet) (path comps : Path) : Prop :=
  ∃ e ∈ ks.entries, ∃ before after, path ++ comps = before ++ e ++ after ∧
    after.length < comps.length

/-- The entry stands at the place `i`. -/
lemma take_drop_eq_iff {α : Type} {l e : List α} {i : ℕ} (hi : i + e.length ≤ l.length) :
    (l.drop i).take e.length = e ↔
      ∃ before after, l = before ++ e ++ after ∧ before.length = i := by
  constructor
  · intro h
    refine ⟨l.take i, (l.drop i).drop e.length, ?_, by simp; omega⟩
    conv_lhs => rw [← List.take_append_drop i l, ← List.take_append_drop e.length (l.drop i), h]
    rw [List.append_assoc]
  · rintro ⟨before, after, rfl, rfl⟩
    simp

lemma KeySet.matches_iff (ks : KeySet) (path comps : Path) :
    ks.matches (appendPath path comps) comps.length = true ↔ ks.Finds path comps := by
  by_cases hc : comps = []
  · subst hc
    simp [KeySet.matches, Finds]
  · have hpos : 0 < comps.length := List.length_pos_iff.mpr hc
    have hne : ¬ (comps.length = 0 ∨ appendPath path comps = []) := by simp [appendPath, hc]
    have hlen : (appendPath path comps).length = path.length + comps.length := List.length_append
    rw [KeySet.matches, if_neg hne]
    simp only [List.any_eq_true, Bool.and_eq_true, decide_eq_true_eq, List.mem_range, hlen]
    refine exists_congr fun e => and_congr_right fun _ => ?_
    constructor
    · rintro ⟨hle, i, hi, hstart, htake⟩
      rw [take_drop_eq_iff (by omega)] at htake
      obtain ⟨before, after, heq, rfl⟩ := htake
      have := congrArg List.length heq
      rw [hlen, List.length_append, List.length_append] at this
      exact ⟨before, after, heq, by omega⟩
    · rintro ⟨before, after, heq, hafter⟩
      have := congrArg List.length heq
      rw [List.length_append, List.length_append, List.length_append] at this
      exact ⟨by omega, before.length, by omega, by omega,
        (take_drop_eq_iff (by omega)).mpr ⟨before, after, heq, rfl⟩⟩

/-- A key that is cut into the components of an entry is found, wherever it stands. -/
lemma finds_of_splitKey_eq {U : Unicode} {names : List Bytes} {name key : Bytes}
    (hname : name ∈ names) (hne : splitKey U name ≠ []) (hkey : splitKey U key = splitKey U name)
    (path : Path) : (newKeySet U names).Finds path (splitKey U key) := by
  refine ⟨splitKey U name, ?_, path, [], by rw [hkey, List.append_nil], ?_⟩
  · simpa [newKeySet] using ⟨⟨name, hname, rfl⟩, hne⟩
  · rw [hkey]
    exact List.length_pos_iff.mpr hne

def noValues : Store Empty Empty := ⟨Empty.elim, Empty.elim, fun _ => []⟩

/-- **A key is redacted exactly where an entry is found.**  Outside a sensitive group, the handler
replaces whatever value stands under a key by the marker, for attributes of a record and for members
of groups alike, if and only if some entry of the key set occurs in the components of the path and
the key and reaches into those of the key.  So it does for a key that is cut into the components of
an entry, and under a sensitive group for every key. -/
theorem sensitive_key_redacted (U : Unicode) (names : List Bytes) (s : Sanitizer) (path : Path)
    (key : Bytes) :
    ((∀ {N G : Type} (S : Store N G) (n : ℕ) (l : LogLayer N G),
        S.sanitizeAttr U (newKeySet U names) s (n + 1) path false key l =
          some (key, .string keyTag)) ↔
      (newKeySet U names).Finds path (splitKey U key)) ∧
    (∀ name ∈ names, splitKey U name ≠ [] → splitKey U key = splitKey U name →
      (newKeySet U names).Finds path (splitKey U key)) ∧
    ∀ {N G : Type} (S : Store N G) (n : ℕ) (l : LogLayer N G),
      S.sanitizeAttr U (newKeySet U names) s (n + 1) path true key l =
        some (key, .string keyTag) := by
  refine ⟨⟨fun h => ?_, fun h _ _ S n l => ?_⟩,
    fun name hname hne hkey => finds_of_splitKey_eq hname hne hkey path, fun S n l => ?_⟩
  · -- a number is passed on under any other key
    by_contra hfinds
    have hshown : ¬ (keyed U (newKeySet U names) path key).sensitive = true :=
      mt (KeySet.matches_iff ..).mp hfinds
    have hout := h noValues 0 (.other [])
    rw [Store.sanitizeAttr, if_neg (not_or.mpr ⟨Bool.false_ne_true, hshown⟩)] at hout
    cases hout
  · rw [Store.sanitizeAttr]
    exact if_pos (.inr ((KeySet.matches_iff ..).mpr h))
  · rw [Store.sanitizeAttr]
    exact if_pos (.inl rfl)

theorem sensitive_key_redacted_capitals :
    noValues.sanitizeAttr asciiTables (newKeySet asciiTables [bytes "api_key"]) ⟨[], [], 4096⟩ 1
        [bytes "db"] false (bytes "API_KEY") (.string (bytes "hunter2")) =
      some (bytes "API_KEY", .string keyTag) := by
  obtain ⟨hiff, hcut, -⟩ := sensitive_key_redacted asciiTables [bytes "api_key"] ⟨[], [], 4096⟩
    [bytes "db"] (bytes "API_KEY")
  exact hiff.mpr (hcut _ List.mem_cons_self (by decide +kernel) (by decide +kernel)) _ _ _

/-- A key that is one of the default entries but for letter case, with a value that is passed on. -/
theorem mixed_case_key_shown :
    bytes "token" ∈ defaultSensitiveKeys ∧
    asciiTables.toLower (bytes "toKen") = bytes "token" ∧
    noValues.sanitizeAttr asciiTables (newKeySet asciiTables defaultSensitiveKeys) ⟨[], [], 4096⟩ 1
        [] false (bytes "toKen") (.string (bytes "hunter2")) =
      some (bytes "toKen", .string (bytes "hunter2")) := by
  refine ⟨by decide +kernel, by decide +kernel, ?_⟩
  have hshown : (keyed asciiTables (newKeySet asciiTables defaultSensitiveKeys) []
      (bytes "toKen")).sensitive = false := by
    decide +kernel
  have htext : (⟨[], [], 4096⟩ : Sanitizer).sanitize (bytes "hunter2") = bytes "hunter2" := by
    decide +kernel
  rw [Store.sanitizeAttr, if_neg (by rw [hshown]; decide), Store.sanitizeValue, htext]

end Secmem.Redact
