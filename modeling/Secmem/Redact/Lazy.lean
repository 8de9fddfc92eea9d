import Secmem.Redact.Needs

/-!
# Attributes that build themselves

`sanitizeAttr` resolves a `LogValuer` and goes through the members of the group it stands for.  A
member may be a `LogValuer` again, and `Value.Resolve` bounds the calls of `LogValue` in one place
only, not from a group to its members.  The walk of `render` counts the levels of such groups with
all others; `sanitizeAttr` counts nothing.  It returns where every way down through the members that
the key set does not hide comes to an end, at a value on which `render` returns, and recurses
without end where one does not.
-/

namespace Secmem.Redact

/-- An attribute where `sanitizeAttr` finds it, outside sensitive groups. -/
structure Member (N G : Type) where
  path : Path
  key : Bytes
  value : LogLayer N G

namespace Store

variable {N G : Type} (S : Store N G) (U : Unicode) (ks : KeySet)

/-- The members of the group that an attribute stands for, unless its key hides them. -/
def members (x : Member N G) : List (Member N G) :=
  let k := keyed U ks x.path x.key
  if k.sensitive = true then []
  else
    match S.resolve x.value with
    | .ok (.group attrs) => attrs.map fun a => ⟨k.full, a.1, S.log a.2⟩
    | _ => []

/-- The `Any` value that an attribute stands for, unless its key hides it, and the path to it. -/
def held (x : Member N G) : Option (N × Path) :=
  let k := keyed U ks x.path x.key
  if k.sensitive = true then none
  else
    match S.resolve x.value with
    | .ok (.any (some v)) => some (v, k.full)
    | _ => none

/-- Every way down through the members that are not hidden comes to an end, at a value on which
`render` returns. -/
inductive Sanitizable : Member N G → Prop
  | intro (x) : (∀ v path, S.held U ks x = some (v, path) →
      Halts fun n => S.render U ks n v path) →
    (∀ y ∈ S.members U ks x, Sanitizable y) → Sanitizable x

variable {S U ks} {s : Sanitizer}

/-- `Resolve` gives no `LogValuer`. -/
lemma resolve_resolve {l l' : LogLayer N G} (h : S.resolve l = .ok l') :
    S.resolve l' = .ok l' ∧ ∀ t result, l' ≠ .valuer t result := by
  suffices hloop : ∀ (orig : LogLayer N G) (n : ℕ) (l : LogLayer N G),
      S.resolveLoop orig n l = .ok l' →
        S.resolve l' = .ok l' ∧ ∀ t result, l' ≠ .valuer t result from hloop _ _ _ h
  intro orig n
  induction n with
  | zero => exact fun l h => by cases h
  | succ n ih =>
    intro l h
    match l with
    | .valuer _ (.ok g) => exact ih _ h
    | .valuer _ (.error e) => cases h
    | .string _ | .other _ | .group _ | .any _ =>
      cases h
      exact ⟨rfl, fun _ _ h => by cases h⟩

/-- `sanitizeAttr` of a `LogValuer` is that of what it resolves to. -/
lemma sanitizeAttr_valuer {x : Member N G} {t : Bytes} {result : Except Bytes G}
    (hx : x.value = .valuer t result) (hk : ¬ (keyed U ks x.path x.key).sensitive = true) (n : ℕ) :
    S.sanitizeAttr U ks s (n + 1) x.path false x.key x.value =
      match S.resolve x.value with
      | .ok l => S.sanitizeAttr U ks s n x.path false x.key l
      | .error e => some (x.key, .string (s.sanitize (capWrite [] e))) := by
  rw [sanitizeAttr, if_neg (by simpa using hk), hx]
  rfl

/-- One step of `sanitizeAttr`, for what is resolved. -/
lemma halts_resolved {x : Member N G} (hx : S.resolve x.value = .ok x.value)
    (hvaluer : ∀ t result, x.value ≠ .valuer t result) :
    (Halts fun n => S.sanitizeAttr U ks s n x.path false x.key x.value) ↔
      (∀ v path, S.held U ks x = some (v, path) → Halts fun n => S.render U ks n v path) ∧
      ∀ y ∈ S.members U ks x,
        Halts fun n => S.sanitizeAttr U ks s n y.path false y.key y.value := by
  obtain ⟨path, key, l⟩ := x
  rw [← halts_succ]
  have hconst {o : Bytes × Passed} : Halts fun _ : ℕ => some o := ⟨0, fun _ _ => rfl⟩
  simp only [sanitizeAttr, held, members, Bool.false_eq_true, false_or] at hx ⊢
  split
  · exact iff_of_true hconst ⟨fun _ _ h => (Option.some_ne_none _ h.symm).elim, by simp⟩
  · rw [hx]
    match l with
    | .valuer t result => exact absurd rfl (hvaluer t result)
    | .string _ | .other _ | .any none =>
      exact iff_of_true hconst ⟨fun _ _ h => (Option.some_ne_none _ h.symm).elim, by simp⟩
    | .any (some v) =>
      simp only [sanitizeValue, halts_map]
      exact ⟨fun h => ⟨fun _ _ heq => by cases heq; exact h, by simp⟩, fun h => h.1 _ _ rfl⟩
    | .group attrs =>
      simp only [sanitizeValue, halts_map, halts_mapM, List.forall_mem_map]
      exact ⟨fun h => ⟨fun _ _ heq => (Option.some_ne_none _ heq.symm).elim, h⟩, And.right⟩

/-- What an attribute resolves to has its members and its value. -/
lemma members_resolved {x : Member N G} {l : LogLayer N G} (hr : S.resolve x.value = .ok l) :
    S.members U ks { x with value := l } = S.members U ks x ∧
      S.held U ks { x with value := l } = S.held U ks x := by
  simp only [members, held, hr, (resolve_resolve hr).1, and_self]

/-- One step of `sanitizeAttr`. -/
lemma halts_sanitizeAttr (x : Member N G) :
    (Halts fun n => S.sanitizeAttr U ks s n x.path false x.key x.value) ↔
      (∀ v path, S.held U ks x = some (v, path) → Halts fun n => S.render U ks n v path) ∧
      ∀ y ∈ S.members U ks x,
        Halts fun n => S.sanitizeAttr U ks s n y.path false y.key y.value := by
  by_cases hvaluer : ∃ t result, x.value = .valuer t result
  · obtain ⟨t, result, hx⟩ := hvaluer
    rw [← halts_succ]
    by_cases hk : (keyed U ks x.path x.key).sensitive = true
    · simp only [sanitizeAttr, held, members, hk, or_true, if_true]
      exact iff_of_true ⟨0, fun _ _ => rfl⟩
        ⟨fun _ _ h => (Option.some_ne_none _ h.symm).elim, by simp⟩
    · simp only [sanitizeAttr_valuer hx hk]
      cases hr : S.resolve x.value with
      | error e =>
        simp only [held, members, hr, if_neg hk]
        exact iff_of_true ⟨0, fun _ _ => rfl⟩
          ⟨fun _ _ h => (Option.some_ne_none _ h.symm).elim, by simp⟩
      | ok l =>
        obtain ⟨hl, hne⟩ := resolve_resolve hr
        have hstep := @halts_resolved N G S U ks s { x with value := l } hl hne
        rwa [(members_resolved hr).1, (members_resolved hr).2] at hstep
  · have hne (t : Bytes) (result : Except Bytes G) : x.value ≠ .valuer t result :=
      fun h => hvaluer ⟨t, result, h⟩
    refine halts_resolved ?_ hne
    match hx : x.value with
    | .valuer t result => exact absurd hx (hne t result)
    | .string _ | .other _ | .group _ | .any _ => rfl

/-- A call that returns has gone through the members at a lower depth. -/
lemma members_below {n : ℕ} {x y : Member N G} (hy : y ∈ S.members U ks x)
    (hn : (S.sanitizeAttr U ks s n x.path false x.key x.value).isSome = true) :
    ∃ k < n, (S.sanitizeAttr U ks s k y.path false y.key y.value).isSome = true := by
  induction n generalizing x with
  | zero => cases hn
  | succ n ih =>
    have hk : ¬ (keyed U ks x.path x.key).sensitive = true := by
      intro hk
      simp [members, hk] at hy
    by_cases hvaluer : ∃ t result, x.value = .valuer t result
    · obtain ⟨t, result, hx⟩ := hvaluer
      rw [sanitizeAttr_valuer hx hk] at hn
      cases hr : S.resolve x.value with
      | error e => simp [members, hk, hr] at hy
      | ok l =>
        rw [hr] at hn
        obtain ⟨k, hlt, hy'⟩ := ih (x := { x with value := l }) ((members_resolved hr).1 ▸ hy) hn
        exact ⟨k, Nat.lt_succ_of_lt hlt, hy'⟩
    · obtain ⟨path, key, l⟩ := x
      match l with
      | .valuer t result => exact absurd ⟨t, result, rfl⟩ hvaluer
      | .string _ | .other _ | .any _ =>
        simp [members, hk, resolve, maxLogValues, resolveLoop] at hy
      | .group attrs =>
        simp only [members, if_neg hk, resolve, maxLogValues, resolveLoop, List.mem_map] at hy
        obtain ⟨a, ha, rfl⟩ := hy
        rw [sanitizeAttr, if_neg (by simpa using hk), sanitizeValue, Option.isSome_map] at hn
        obtain ⟨out, hout⟩ := Option.isSome_iff_exists.mp hn
        obtain ⟨b, -, hb⟩ := (exists_mem_of_mapM hout).1 a ha
        exact ⟨n, Nat.lt_succ_self n, Option.isSome_iff_exists.mpr ⟨b, hb⟩⟩

lemma halts_iff_sanitizable (x : Member N G) :
    (Halts fun n => S.sanitizeAttr U ks s n x.path false x.key x.value) ↔ S.Sanitizable U ks x := by
  constructor
  · rintro h
    obtain ⟨n, hn⟩ := h
    have hsome := hn n le_rfl
    have hhalts : Halts fun n => S.sanitizeAttr U ks s n x.path false x.key x.value := ⟨n, hn⟩
    clear hn
    induction n using Nat.strong_induction_on generalizing x with
    | _ n ih =>
      obtain ⟨hheld, hmembers⟩ := (halts_sanitizeAttr x).mp hhalts
      refine .intro x hheld fun y hy => ?_
      obtain ⟨k, hk, hy'⟩ := members_below hy hsome
      exact ih k hk y hy' (hmembers y hy)
  · intro h
    induction h with
    | intro x hheld _ ih => exact (halts_sanitizeAttr x).mpr ⟨hheld, ih⟩

/-- **Where sanitizing comes to an end.**  `Handle` and `WithAttrs` return if and only if a
sensitive group hides all attributes, or every way down from each of them, through the members that
the key set does not hide along the path, comes to an end at a value on which `render` returns.
`render` itself returns wherever `fmt` does, whether the groups inside have an end or not. -/
theorem sanitizing_ends (S : Store N G) (U : Unicode) (h : Handler) (message : Bytes)
    (attrs : List (Bytes × G)) :
    ((Halts fun n => S.handle U n h message attrs) ↔ h.redactAll = true ∨
      ∀ a ∈ attrs, S.Sanitizable U h.keys ⟨h.path, a.1, S.log a.2⟩) ∧
    ((Halts fun n => S.withAttrs U n h attrs) ↔ h.redactAll = true ∨
      ∀ a ∈ attrs, S.Sanitizable U h.keys ⟨h.path, a.1, S.log a.2⟩) ∧
    ∀ v path, S.Prints U h.keys v path → Halts fun n => S.render U h.keys n v path := by
  have hall : (Halts fun n => S.sanitizeAll U n h attrs) ↔ h.redactAll = true ∨
      ∀ a ∈ attrs, S.Sanitizable U h.keys ⟨h.path, a.1, S.log a.2⟩ := by
    simp only [sanitizeAll, halts_mapM]
    cases h.redactAll with
    | true =>
      refine iff_of_true (fun a _ => halts_succ.mp ⟨0, fun n _ => ?_⟩) (.inl rfl)
      simp [sanitizeAttr]
    | false =>
      rw [or_iff_right Bool.false_ne_true]
      exact forall₂_congr fun a _ => halts_iff_sanitizable ⟨h.path, a.1, S.log a.2⟩
  refine ⟨by simpa only [handle, halts_map] using hall, ?_,
    fun v path hprints => (ends_render S U h.keys hprints).halts⟩
  unfold withAttrs
  split
  · next hnil =>
    subst hnil
    exact iff_of_true ⟨0, fun _ _ => rfl⟩ (.inr (by simp))
  · simpa only [halts_map] using hall

/-! ## A group with an end, and one without -/

/-- A `LogValuer` that stands for a group with one string in it, and a value of its type. -/
def account : Store Unit (Fin 3) where
  node _ := .struct (.named [.logValuer] []) ⟨[], none, .failed, some 1, .failed, []⟩ []
  log
    | 0 => .valuer (bytes "main.Account") (.ok 1)
    | 1 => .group [(bytes "name", 2)]
    | 2 => .string (bytes "ada")
  order keys := List.range keys.length

theorem sanitizing_ends_account :
    Halts fun n => account.handle asciiTables n ⟨⟨[], [], 4096⟩, ⟨[]⟩, [], false⟩ (bytes "login")
      [(bytes "user", 0)] := by
  have hend := sanitizing_ends account asciiTables ⟨⟨[], [], 4096⟩, ⟨[]⟩, [], false⟩
    (bytes "login") [(bytes "user", 0)]
  refine hend.1.mpr (.inr fun a ha => ?_)
  obtain rfl := List.mem_singleton.mp ha
  refine .intro _ (fun _ _ h => by cases h) fun y hy => ?_
  obtain rfl : y = ⟨[bytes "user"], bytes "name", .string (bytes "ada")⟩ :=
    List.mem_singleton.mp hy
  exact .intro _ (fun _ _ h => by cases h) fun _ h => by cases h

/-- A type `L` whose `LogValue` returns the group with the one member `x`, which is an `L`; a value
of the type stands beside it. -/
def nested : Store Unit Bool where
  node _ := .struct (.named [.logValuer] []) ⟨[], none, .failed, some true, .failed, []⟩ []
  log
    | false => .valuer (bytes "main.L") (.ok true)
    | true => .group [(bytes "x", false)]
  order keys := List.range keys.length

/-- No entry of the key set is made of one component only, over and over. -/
lemma matches_replicate {ks : KeySet} {c : Bytes} (h : ∀ e ∈ ks.entries, ∃ x ∈ e, x ≠ c)
    (k keyComps : ℕ) : ks.matches (List.replicate k c) keyComps = false := by
  unfold KeySet.matches
  split
  · rfl
  · simp only [List.any_eq_false]
    intro e he hmatch
    obtain ⟨x, hx, hne⟩ := h e he
    simp only [Bool.and_eq_true, decide_eq_true_eq, List.any_eq_true] at hmatch
    obtain ⟨-, i, -, -, hrun⟩ := hmatch
    rw [← hrun] at hx
    exact hne (List.eq_of_mem_replicate (List.mem_of_mem_drop (List.mem_of_mem_take hx)))

lemma keyed_nested {ks : KeySet} (h : ∀ e ∈ ks.entries, ∃ x ∈ e, x ≠ bytes "x") (k : ℕ) :
    keyed asciiTables ks (List.replicate k (bytes "x")) (bytes "x") =
      ⟨List.replicate (k + 1) (bytes "x"), false⟩ := by
  have hsplit : splitKey asciiTables (bytes "x") = [bytes "x"] := by decide +kernel
  rw [keyed, hsplit, appendPath, ← List.replicate_one, ← List.replicate_add, matches_replicate h]

lemma sanitizeAttr_nested {ks : KeySet} (h : ∀ e ∈ ks.entries, ∃ x ∈ e, x ≠ bytes "x")
    (s : Sanitizer) (n k : ℕ) (g : Bool) :
    nested.sanitizeAttr asciiTables ks s n (List.replicate k (bytes "x")) false (bytes "x")
      (nested.log g) = none := by
  induction n generalizing k g with
  | zero => rfl
  | succ n ih =>
    rw [sanitizeAttr, keyed_nested h, if_neg (by simp)]
    cases g with
    | false => exact ih k true
    | true =>
      show ([(bytes "x", false)].mapM fun a => nested.sanitizeAttr asciiTables ks s n _ false a.1
        (nested.log a.2)).map _ = none
      rw [List.mapM_cons, ih (k + 1) false]
      rfl

/-- There is no map and no `reflect.Value` in it. -/
lemma needs_nested (U : Unicode) (ks : KeySet) (d : ℕ) :
    (∀ ro path v, (nested.needs U ks d).value ro path v) ∧
      ∀ path g, (nested.needs U ks d).log path (nested.resolve (nested.log g)) := by
  induction d with
  | zero => exact ⟨fun _ _ _ => trivial, fun _ _ => trivial⟩
  | succ d ih =>
    constructor
    · intro ro path v
      show nested.valueNeeds U ks _ ro path v
      unfold valueNeeds
      split
      · exact fun g _ => ih.2 path g
      · exact .inl rfl
    · intro path g
      have hgroup : nested.resolve (nested.log g) = .ok (.group [(bytes "x", false)]) := by
        cases g <;> rfl
      rw [hgroup]
      exact fun a _ => .inr (ih.2 _ _)

/-- With the default keys, the attribute `x` of type `L` is never sanitized; held inside an `Any`
it is rendered. -/
theorem nested_never_sanitized :
    (∀ n, nested.handle asciiTables n (newHandler asciiTables ⟨[], [], 4096⟩ []) (bytes "m")
      [(bytes "x", false)] = none) ∧
    (∀ n, nested.withAttrs asciiTables n (newHandler asciiTables ⟨[], [], 4096⟩ [])
      [(bytes "x", false)] = none) ∧
    Ends (fun n => nested.render asciiTables (newHandler asciiTables ⟨[], [], 4096⟩ []).keys n ()
        [])
      fun _ => True := by
  have hentries : ∀ e ∈ (newHandler asciiTables ⟨[], [], 4096⟩ []).keys.entries,
      ∃ x ∈ e, x ≠ bytes "x" := by
    decide +kernel
  have hall : ∀ n, nested.sanitizeAll asciiTables n (newHandler asciiTables ⟨[], [], 4096⟩ [])
      [(bytes "x", false)] = none := by
    intro n
    have hattr := sanitizeAttr_nested hentries ⟨[], [], 4096⟩ n 0 false
    unfold sanitizeAll
    rw [List.mapM_cons]
    show Option.bind (nested.sanitizeAttr _ _ _ n [] false _ _) _ = none
    rw [List.replicate_zero] at hattr
    exact congrArg (Option.bind · _) hattr
  refine ⟨fun n => ?_, fun n => ?_, ?_⟩
  · rw [handle, hall]
    rfl
  · rw [withAttrs, if_neg (by simp), hall]
    rfl
  · exact ends_render nested asciiTables _ ((needs_nested _ _ _).1 _ _ _)

end Store
end Secmem.Redact
