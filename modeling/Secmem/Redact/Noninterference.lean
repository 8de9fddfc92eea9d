import Secmem.Redact.Handler

/-!
# What the handler's output depends on

Two values are alike where they have the same shape and differ only in what the walk is meant not to
show: values under a hidden key, and the insides of values that render themselves.  A value may
contain itself, so likeness is any relation that is closed under a step into the parts, an
`Alikeness`.  It is indexed by what the walk knows when it reaches a value, the flag of `reflect`
and the path of key components, because both decide whether a part is shown.

`walk_alike` is the one result about the walk: it writes the same text for values that are alike, at
every depth and after every text written before.  With the keys of the key set as the hidden ones it
gives `redaction_noninterference`, about everything a handler passes on over a sequence of calls.
With no key hidden it gives `self_rendering_opaque`.

What `fmt` prints is likeness of another kind.  It is given the keys of maps, where it calls fewer
methods than the walk does, and what a `reflect.Value` holds; and `byteView` calls no method at all.
The second half of `self_rendering_opaque` says that a value which renders itself is taken apart
there.
-/

namespace Secmem.Redact

open Store

variable {N G : Type}

/-! ## Values that are alike -/

/-- Relations between values where the walk reaches them, between values where `fmt` does below the
top, and between log values. -/
structure Likeness (N G : Type) where
  value : RO → Path → N → N → Prop
  print : RO → N → N → Prop
  log : Path → G → G → Prop

section Relation

variable (U : Unicode) (S : Store N G) (hidden : Path → Bytes → Prop) (R : Likeness N G)

/-- Layers of which `fmt` prints the same when it takes them apart. -/
inductive PrintsAlike (ro : RO) (top : Bool) : Layer N G → Layer N G → Prop
  | same (l) : PrintsAlike ro top l l
  | pointer {e f} (t m a t' m' a') : top = true → (S.node e).followed = true →
      (S.node f).followed = true → R.print ro e f →
      PrintsAlike ro top (.pointer t m a (some e)) (.pointer t' m' a' (some f))
  | interface {e f} (t t') : R.print ro.ro e f →
      PrintsAlike ro top (.interface t (some e)) (.interface t' (some f))
  | struct {fs gs} (t m t' m') :
      List.Forall₂ (fun f g => f.exported = g.exported ∧ f.embedded = g.embedded ∧
        R.print (ro.field f.exported f.embedded) f.value g.value) fs gs →
      PrintsAlike ro top (.struct t m fs) (.struct t' m' gs)
  | map {es ds} (t m t' m') :
      List.Forall₂ (fun e d => e.1 = d.1 ∧ R.print ro.ro e.2 d.2) es ds →
      PrintsAlike ro top (.map t m es) (.map t' m' ds)
  | sequence {vs ws} (t m b t' m' b') : List.Forall₂ (R.print ro.ro) vs ws →
      PrintsAlike ro top (.sequence t m b vs) (.sequence t' m' b' ws)

/-- Keys of maps with one name. -/
def KeysAlike (ro : RO) (k k' : N) : Prop :=
  S.asked ro (S.node k) = S.asked ro (S.node k') ∧
    (S.asked ro (S.node k) = none → PrintsAlike S R ro true (S.node k) (S.node k'))

/-- The same results, with a log value that is alike. -/
inductive ResultsAlike (path : Path) : MethodResults N G → MethodResults N G → Prop
  | refl (m) : ResultsAlike path m m
  | log {g k} (m : MethodResults N G) : R.log path g k →
      ResultsAlike path { m with log := some g } { m with log := some k }

/-- What is under the name is hidden, or it is alike where the name leads. -/
def Shown (path : Path) (name : Bytes) (alike : Path → Prop) : Prop :=
  hidden path name ∨ alike (appendPath path (splitKey U name))

def FieldsAlike (ro : RO) (path : Path) (f g : StoredField N) : Prop :=
  f.name = g.name ∧ f.exported = g.exported ∧ f.embedded = g.embedded ∧
    Shown U hidden path f.name fun full =>
      R.value (ro.field f.exported f.embedded) full f.value g.value

def EntriesAlike (ro : RO) (path : Path) (e d : N × N) : Prop :=
  KeysAlike S R ro e.1 d.1 ∧ ∀ n name, S.mapKeyName n ro e.1 = some name →
    Shown U hidden path name fun full => R.value ro full e.2 d.2

/-- Layers that differ only under hidden keys and inside values that render themselves. -/
inductive Alike (ro : RO) (path : Path) : Layer N G → Layer N G → Prop
  | same (l) : Alike ro path l l
  /-- Two values of one type that renders itself, whose methods have the same results. -/
  | rendered {l l'} : l.kind ≠ .interface → l.kind = l'.kind → l.ty = l'.ty →
      l.selfRendering = true → ResultsAlike R path l.results l'.results → Alike ro path l l'
  | pointer {e f} (t m a a') : R.value ro path e f →
      Alike ro path (.pointer t m a (some e)) (.pointer t m a' (some f))
  | interface {e f} (t) : R.value ro.ro path e f →
      Alike ro path (.interface t (some e)) (.interface t (some f))
  | struct {fs gs} (t m) : List.Forall₂ (FieldsAlike U hidden R ro path) fs gs →
      Alike ro path (.struct t m fs) (.struct t m gs)
  | map {es ds} (t m) : List.Forall₂ (EntriesAlike U S hidden R ro.ro path) es ds →
      Alike ro path (.map t m es) (.map t m ds)
  | bytes {vs ws} (t m) : S.byteView (.sequence t m true vs) = S.byteView (.sequence t m true ws) →
      Alike ro path (.sequence t m true vs) (.sequence t m true ws)
  | sequence {vs ws} (t m) : List.Forall₂ (R.value ro.ro path) vs ws →
      Alike ro path (.sequence t m false vs) (.sequence t m false ws)

/-- Attributes with one key, hidden or alike. -/
def AttrsAlike (path : Path) (a b : Bytes × G) : Prop :=
  a.1 = b.1 ∧ Shown U hidden path a.1 fun full => R.log full a.2 b.2

inductive LogAlike (path : Path) : LogLayer N G → LogLayer N G → Prop
  | same (l) : LogAlike path l l
  | group {as bs} : List.Forall₂ (AttrsAlike U hidden R path) as bs →
      LogAlike path (.group as) (.group bs)
  | valuer {g k} (typeName) : R.log path g k →
      LogAlike path (.valuer typeName (.ok g)) (.valuer typeName (.ok k))
  | any {v w} : R.value .none path v w → LogAlike path (.any (some v)) (.any (some w))

/-- Relations that are closed under a step into the parts. -/
structure Alikeness extends Likeness N G where
  value_step : ∀ {ro path v w}, value ro path v w →
    Alike U S hidden toLikeness ro path (S.node v) (S.node w)
  print_step : ∀ {ro v w}, print ro v w →
    (S.node v).ownText ro false = (S.node w).ownText ro false ∧
      ((S.node v).ownText ro false = none →
        PrintsAlike S toLikeness ro false (S.node v) (S.node w))
  log_step : ∀ {path g k}, log path g k → LogAlike U hidden toLikeness path (S.log g) (S.log k)

/-- The key set hides every name whose value may differ. -/
abbrev Hides (ks : KeySet) : Prop :=
  ∀ {path name}, hidden path name → (keyed U ks path name).sensitive = true

/-- It writes the same for values that are alike. -/
abbrev Blind (value : RenderVal N) : Prop :=
  ∀ {ro path v w} b, R.value ro path v w → value ro path v b = value ro path w b

/-- What `Resolve` gave, alike. -/
inductive ResolvedAlike (path : Path) :
    Except Bytes (LogLayer N G) → Except Bytes (LogLayer N G) → Prop
  | error (e) : ResolvedAlike path (.error e) (.error e)
  | ok {l k} : LogAlike U hidden R path l k → ResolvedAlike path (.ok l) (.ok k)

abbrev BlindLog (log : RenderLog N G) : Prop :=
  ∀ {path r r'} b, ResolvedAlike U hidden R path r r' → log path r b = log path r' b

end Relation

/-! ## What `fmt` prints -/

section Printing

variable {U : Unicode} {S : Store N G} {hidden : Path → Bytes → Prop} {ro : RO}

lemma mapM_eq_of_forall₂ {α β γ : Type} {f : α → Option γ} {g : β → Option γ} {xs : List α}
    {ys : List β} (h : List.Forall₂ (fun x y => f x = g y) xs ys) : xs.mapM f = ys.mapM g := by
  induction h with
  | nil => rfl
  | cons hxy _ ih => rw [List.mapM_cons, List.mapM_cons, hxy, ih]

lemma map_eq_of_forall₂ {α β γ : Type} {f : α → γ} {g : β → γ} {xs : List α} {ys : List β}
    (h : List.Forall₂ (fun x y => f x = g y) xs ys) : xs.map f = ys.map g := by
  rw [← List.forall₂_eq_eq_eq, List.forall₂_map_left_iff, List.forall₂_map_right_iff]
  exact h

/-- `fmt` prints the same of layers that it takes apart alike, if it does so one level down. -/
lemma printParts_alike {R : Likeness N G} {print : RO → Bool → N → Option Bytes}
    (hprint : ∀ {ro v w}, R.print ro v w → print ro false v = print ro false w) {top : Bool}
    {l l' : Layer N G} (h : PrintsAlike S R ro top l l') :
    S.printParts print ro top l = S.printParts print ro top l' := by
  cases h with
  | same => rfl
  | pointer t m a t' m' a' htop he hf h =>
    rw [printParts, printParts, if_pos ⟨htop, he⟩, if_pos ⟨htop, hf⟩, hprint h]
  | interface t t' h => exact hprint h
  | struct t m t' m' h =>
    refine congrArg (Option.map _) (mapM_eq_of_forall₂ (h.imp ?_))
    rintro f g ⟨hx, hm, hv⟩
    rw [hprint hv, hx, hm]
  | map t m t' m' h =>
    rw [printParts, printParts, map_eq_of_forall₂ (h.imp fun _ _ he => he.1)]
    refine congrArg (Option.map _) (mapM_eq_of_forall₂ (h.imp ?_))
    rintro e d ⟨hk, hv⟩
    rw [hk, hprint hv]
  | sequence t m b t' m' b' h =>
    exact congrArg (Option.map _) (mapM_eq_of_forall₂ (h.imp fun _ _ => hprint))

variable (A : Alikeness U S hidden)

lemma printValue_alike (n : ℕ) {v w : N} (h : A.print ro v w) :
    S.printValue n ro false v = S.printValue n ro false w := by
  induction n generalizing ro v w with
  | zero => rfl
  | succ n ih =>
    obtain ⟨hown, hparts⟩ := A.print_step h
    rw [printValue, printValue, ← hown]
    split
    · rfl
    · next hnone => exact printParts_alike ih (hparts hnone)

/-- Keys that are alike have one name. -/
lemma mapKeyName_alike (n : ℕ) {k k' : N} (h : KeysAlike S A.toLikeness ro k k') :
    S.mapKeyName n ro k = S.mapKeyName n ro k' := by
  rw [mapKeyName, mapKeyName, fprint, fprint, ← h.1]
  split
  · rfl
  · next hnone => rw [printParts_alike (printValue_alike A n) (h.2 hnone)]

end Printing

section Walk

variable {U : Unicode} {S : Store N G} {hidden : Path → Bytes → Prop} {A : Alikeness U S hidden}
  {ks : KeySet} {ro : RO} {path : Path} {l l' : Layer N G}

/-- What the walk reads of a value before it looks at its parts. -/
lemma Alike.view {R : Likeness N G} (h : Alike U S hidden R ro path l l') :
    l.kind = l'.kind ∧ l.ty = l'.ty ∧ ResultsAlike R path l.results l'.results := by
  cases h with
  | rendered _ hk ht _ hm => exact ⟨hk, ht, hm⟩
  | _ => exact ⟨rfl, rfl, .refl _⟩

lemma Alike.selfRendering_eq {R : Likeness N G} (h : Alike U S hidden R ro path l l') :
    l.selfRendering = l'.selfRendering := by
  obtain ⟨hk, ht, -⟩ := h.view
  rw [Layer.selfRendering, Layer.selfRendering, hk, ht]

/-- A `[]byte` has no methods, so only equal ones are alike. -/
lemma Alike.byteView_eq {R : Likeness N G} (h : Alike U S hidden R ro path l l')
    (hl : l.ty = .byteSlice) : S.byteView l = S.byteView l' := by
  cases h with
  | rendered _ _ _ hs _ => simp [Layer.selfRendering, hl, Ty.own, Ty.viaPointer] at hs
  | bytes t m h => exact h
  | _ => rfl

lemma resolve_alike {l k : LogLayer N G} (h : LogAlike U hidden A.toLikeness path l k) :
    ResolvedAlike U hidden A.toLikeness path (S.resolve l) (S.resolve k) := by
  have horig : tooMany l = tooMany k := by cases h <;> rfl
  suffices hloop : ∀ (n : ℕ) {l' k' : LogLayer N G}, LogAlike U hidden A.toLikeness path l' k' →
      ResolvedAlike U hidden A.toLikeness path (S.resolveLoop l n l') (S.resolveLoop k n k') from
    hloop _ h
  intro n
  induction n with
  | zero =>
    intro l' k' _
    rw [resolveLoop, resolveLoop, horig]
    exact .error _
  | succ n ih =>
    intro l' k' h
    cases h with
    | same =>
      match l' with
      | .valuer _ (.ok g) => exact ih (.same _)
      | .valuer _ (.error e) => exact .error _
      | .string _ | .other _ | .group _ | .any _ => exact .ok (.same _)
    | group h => exact .ok (.group h)
    | valuer _ h => exact ih (A.log_step h)
    | any h => exact .ok (.any h)

/-! ## Values that render themselves -/

lemma isSome_chooseMethod {ifaces : List Iface} (h : ifaces ≠ []) :
    ∃ m, chooseMethod ifaces = some m := by
  obtain ⟨i, hi⟩ := List.exists_mem_of_ne_nil ifaces h
  rw [← Option.isSome_iff_exists]
  unfold chooseMethod
  cases i <;> simp only [List.contains_eq_mem, hi, decide_true, Bool.or_true, Bool.true_or,
    if_true] <;> repeat' split
  all_goals rfl

lemma Store.dynamic_of_ne_interface (S : Store N G) (h : l.kind ≠ .interface) :
    S.dynamic l = some l := by
  cases l with
  | interface => exact absurd rfl h
  | _ => rfl

/-- A value that renders itself is not taken apart. -/
lemma form_ne_parts (S : Store N G) (hl : l.kind ≠ .interface) (hs : l.selfRendering = true) :
    S.form l ≠ .parts := by
  have hty : l.ty ≠ .byteSlice := by
    intro hty
    simp [Layer.selfRendering, hty, Ty.own, Ty.viaPointer] at hs
  rw [form, S.dynamic_of_ne_interface hl]
  dsimp only [Option.bind_some]
  rw [if_neg hty]
  by_cases hown : l.ty.own = []
  · rw [Layer.selfRendering, hown] at hs
    simp only [List.isEmpty_nil, Bool.not_true, Bool.false_or, Bool.and_eq_true,
      Bool.not_eq_true', List.isEmpty_eq_false_iff] at hs
    obtain ⟨method, hm⟩ := isSome_chooseMethod hs.2
    have hnil : chooseMethod [] = none := rfl
    simp [hown, hnil, hm, hs.1, hs.2, Layer.selfRendering]
  · obtain ⟨method, hm⟩ := isSome_chooseMethod hown
    simp [hm]

/-- Layers that are alike are rendered in one way. -/
inductive FormsAlike (R : Likeness N G) (path : Path) : Form N G → Form N G → Prop
  | same (f) : FormsAlike R path f f
  | method {m m'} (isNil method) : ResultsAlike R path m m' →
      FormsAlike R path (.method isNil m method) (.method isNil m' method)

lemma chooseMethod_alike {R : Likeness N G} {m m' : MethodResults N G}
    (h : ResultsAlike R path m m') (isNil : Bool) (ifaces : List Iface) :
    Option.Rel (FormsAlike R path) ((chooseMethod ifaces).map (.method isNil m))
      ((chooseMethod ifaces).map (.method isNil m')) := by
  cases chooseMethod ifaces with
  | none => exact .none
  | some method => exact .some (.method isNil method h)

lemma or_getD_alike {R : Likeness N G} {o o' a a' : Option (Form N G)}
    (ho : Option.Rel (FormsAlike R path) o o') (ha : Option.Rel (FormsAlike R path) a a') :
    FormsAlike R path ((o.or a).getD .parts) ((o'.or a').getD .parts) := by
  cases ho with
  | some h => exact h
  | none =>
    cases ha with
    | some h => exact h
    | none => exact .same _

lemma form_alike (h : Alike U S hidden A.toLikeness ro path l l') :
    FormsAlike A.toLikeness path (S.form l) (S.form l') := by
  obtain ⟨hk, ht, hm⟩ := h.view
  -- the value whose methods are tried first is the one inside an interface
  have hdyn {ro : RO} {x y : Layer N G} (hxy : Alike U S hidden A.toLikeness ro path x y) :
      Option.Rel (FormsAlike A.toLikeness path)
        (if x.ty = .byteSlice then some (.bytes (S.byteView x))
          else (chooseMethod x.ty.own).map (.method l.isNilPointer x.results))
        (if y.ty = .byteSlice then some (.bytes (S.byteView y))
          else (chooseMethod y.ty.own).map (.method l'.isNilPointer y.results)) := by
    obtain ⟨-, hty, hres⟩ := hxy.view
    rw [← hty, Layer.isNilPointer, Layer.isNilPointer, hk]
    split
    · next hbytes =>
      rw [hxy.byteView_eq hbytes]
      exact .some (.same _)
    · exact chooseMethod_alike hres _ _
  have hown : Option.Rel (FormsAlike A.toLikeness path)
      ((S.dynamic l).bind fun x =>
        if x.ty = .byteSlice then some (.bytes (S.byteView x))
        else (chooseMethod x.ty.own).map (.method l.isNilPointer x.results))
      ((S.dynamic l').bind fun x =>
        if x.ty = .byteSlice then some (.bytes (S.byteView x))
        else (chooseMethod x.ty.own).map (.method l'.isNilPointer x.results)) := by
    by_cases hl : l.kind = .interface
    · cases h with
      | same =>
        match S.dynamic l with
        | none => exact .none
        | some x => exact @hdyn .none _ _ (.same x)
      | rendered hne => exact absurd hl hne
      | interface t h => exact hdyn (A.value_step h)
      | _ => cases hl
    · rw [S.dynamic_of_ne_interface hl, S.dynamic_of_ne_interface (hk ▸ hl)]
      exact hdyn h
  have haddress : Option.Rel (FormsAlike A.toLikeness path)
      (if l.kind.addressed && l.selfRendering then
        (chooseMethod l.ty.viaPointer).map (.method false l.results) else none)
      (if l'.kind.addressed && l'.selfRendering then
        (chooseMethod l'.ty.viaPointer).map (.method false l'.results) else none) := by
    rw [← hk, ← ht, ← h.selfRendering_eq]
    split
    · exact chooseMethod_alike hm _ _
    · exact .none
  exact or_getD_alike hown haddress

lemma renderMethod_alike {log : RenderLog N G} (hlog : BlindLog U hidden A.toLikeness log)
    {m m' : MethodResults N G} (h : ResultsAlike A.toLikeness path m m') (n : ℕ) (isNil : Bool)
    (b : Bytes) (method : Method) :
    S.renderMethod n log path isNil m b method = S.renderMethod n log path isNil m' b method := by
  cases h with
  | refl => rfl
  | log m h =>
    cases method with
    | logValue => exact hlog b (resolve_alike (A.log_step h))
    | _ => rfl

/-! ## The parts of a value -/

section Parts

variable {value : RenderVal N}

/-- The loop over members with the same names, after which the same follows. -/
lemma renderMembers_alike {γ δ : Type} {put : Bytes → Bytes → Bytes} {name : γ → Option Bytes}
    {name' : δ → Option Bytes} {member : γ → Bytes → Bytes → Option Bytes}
    {member' : δ → Bytes → Bytes → Option Bytes} {xs : List γ} {ys : List δ}
    (h : List.Forall₂ (fun x y => name x = name' y ∧
      ∀ text, name x = some text → member x text = member' y text) xs ys) (first : Bool)
    (b : Bytes) : renderMembers put name member first xs b =
        renderMembers put name' member' first ys b := by
  induction h generalizing first b with
  | nil => rfl
  | @cons x y _ _ hxy _ ih =>
    rw [renderMembers, renderMembers, ← hxy.1]
    cases htext : name x with
    | none => rfl
    | some text =>
      dsimp only [Option.bind_some]
      rw [hxy.2 text htext, funext (ih _)]

variable (hhide : Hides U hidden ks) (hvalue : Blind A.toLikeness value)

include hhide in
lemma underKey_alike {name b : Bytes} {f g : Path → Option Bytes}
    (h : Shown U hidden path name fun full => f full = g full) :
    underKey U ks path name b f = underKey U ks path name b g := by
  rw [underKey, underKey]
  obtain hname | h := h
  · rw [if_pos (hhide hname), if_pos (hhide hname)]
  · exact congrArg (ite _ _) h

include hhide hvalue

lemma renderField_alike {name : Bytes} {v w : N}
    (h : Shown U hidden path name fun full => A.value ro full v w) :
    renderField U ks value ro path name v = renderField U ks value ro path name w :=
  funext fun b => underKey_alike hhide (h.imp_right (hvalue b))

lemma renderFields_alike {fs gs : List (StoredField N)}
    (h : List.Forall₂ (FieldsAlike U hidden A.toLikeness ro path) fs gs) (b : Bytes) :
    renderFields U ks value ro path fs b = renderFields U ks value ro path gs b := by
  refine renderMembers_alike (h.imp ?_) true b
  rintro f g ⟨hname, hx, hm, hv⟩
  refine ⟨congrArg some hname, fun name hn => ?_⟩
  cases hn
  rw [← hx, ← hm]
  exact renderField_alike hhide hvalue hv

lemma renderEntries_alike {γ δ : Type} {name : γ → Option Bytes} {name' : δ → Option Bytes}
    {elem : γ → N} {elem' : δ → N} {xs : List γ} {ys : List δ}
    (h : List.Forall₂ (fun x y => name x = name' y ∧ ∀ text, name x = some text →
      Shown U hidden path text fun full => A.value ro full (elem x) (elem' y)) xs ys) (b : Bytes) :
    renderEntries U ks value ro path name elem xs b =
      renderEntries U ks value ro path name' elem' ys b :=
  renderMembers_alike (h.imp fun _ _ hxy => ⟨hxy.1, fun text htext =>
    renderField_alike hhide hvalue (hxy.2 text htext)⟩) true b

end Parts

/-- Sorting by name does not separate members that are alike. -/
lemma forall₂_insertionSort {α β γ : Type} {R : α × β → α × γ → Prop}
    (hR : ∀ {x y}, R x y → x.1 = y.1) {r : α → α → Prop} [DecidableRel r]
    {xs : List (α × β)} {ys : List (α × γ)} (h : List.Forall₂ R xs ys) :
    List.Forall₂ R (xs.insertionSort fun x y => r x.1 y.1)
      (ys.insertionSort fun x y => r x.1 y.1) := by
  have insert {x : α × β} {y : α × γ} (hxy : R x y) {xs : List (α × β)} {ys : List (α × γ)}
      (h : List.Forall₂ R xs ys) :
      List.Forall₂ R (xs.orderedInsert (fun x y => r x.1 y.1) x)
        (ys.orderedInsert (fun x y => r x.1 y.1) y) := by
    induction h with
    | nil => exact .cons hxy .nil
    | @cons x' y' xs ys hxy' hrest ih =>
      rw [List.orderedInsert_cons, List.orderedInsert_cons, hR hxy, hR hxy']
      split
      · exact .cons hxy (.cons hxy' hrest)
      · exact .cons hxy' ih
  induction h with
  | nil => exact .nil
  | cons hxy _ ih => exact insert hxy ih

/-- The names of entries that are alike, where all of them have one. -/
lemma named_alike (n : ℕ) {es ds : List (N × N)}
    (h : List.Forall₂ (EntriesAlike U S hidden A.toLikeness ro path) es ds) :
    Option.Rel (List.Forall₂ fun x y => x.1 = y.1 ∧
        Shown U hidden path x.1 fun full => A.value ro full x.2 y.2)
      (es.mapM fun e => (S.mapKeyName n ro e.1).map fun name => (name, e.2))
      (ds.mapM fun e => (S.mapKeyName n ro e.1).map fun name => (name, e.2)) := by
  induction h with
  | nil => exact .some .nil
  | @cons e d es ds hed _ ih =>
    obtain ⟨hkeys, hshown⟩ := hed
    rw [List.mapM_cons, List.mapM_cons, ← mapKeyName_alike A n hkeys]
    cases hn : S.mapKeyName n ro e.1 with
    | none => exact .none
    | some name =>
      generalize List.mapM (m := Option) _ es = xs at ih ⊢
      generalize List.mapM (m := Option) _ ds = ys at ih ⊢
      cases ih with
      | none => exact .none
      | some hrest => exact .some (.cons ⟨rfl, hshown n name hn⟩ hrest)

section Parts

variable {value : RenderVal N} (hhide : Hides U hidden ks) (hvalue : Blind A.toLikeness value)

include hhide hvalue in
lemma renderMap_alike {es ds : List (N × N)} (n : ℕ)
    (h : List.Forall₂ (EntriesAlike U S hidden A.toLikeness ro path) es ds) (b : Bytes) :
    S.renderMap U ks n value ro path es b = S.renderMap U ks n value ro path ds b := by
  rw [renderMap, renderMap, h.length_eq]
  split
  · exact renderEntries_alike hhide hvalue
      (h.imp fun _ _ hed => ⟨mapKeyName_alike A n hed.1, hed.2 n⟩) b
  · have hrel := named_alike n h
    generalize List.mapM (m := Option) _ es = xs at hrel ⊢
    generalize List.mapM (m := Option) _ ds = ys at hrel ⊢
    cases hrel with
    | none => rfl
    | some hxy =>
      refine renderEntries_alike hhide hvalue
        ((forall₂_insertionSort (r := fun x y => ¬ y < x) And.left hxy).imp ?_) b
      rintro x y ⟨hname, hshown⟩
      refine ⟨congrArg some hname, fun name hn => ?_⟩
      cases hn
      exact hshown

include hvalue in
lemma renderElems_alike {vs ws : List N} (h : List.Forall₂ (A.value ro path) vs ws)
    (first : Bool) (b : Bytes) :
    renderElems value ro path first vs b = renderElems value ro path first ws b := by
  induction h generalizing first b with
  | nil => rfl
  | cons hv _ ih => rw [renderElems, renderElems, hvalue _ hv, funext (ih _)]

include hhide hvalue in
/-- The parts of values that are alike, where they are not ones that render themselves. -/
lemma renderParts_alike (n : ℕ) (h : Alike U S hidden A.toLikeness ro path l l')
    (hl : l.kind ≠ .interface → l.selfRendering = false) (b : Bytes) :
    S.renderParts U ks n value ro path l b = S.renderParts U ks n value ro path l' b := by
  cases h with
  | same => rfl
  | rendered hne _ _ hs _ => exact absurd hs (by rw [hl hne]; decide)
  | pointer t m a a' h =>
    rw [renderParts, renderParts, (A.value_step h).view.1, hvalue _ h]
  | interface t h => exact hvalue b h
  | struct t m h => rw [renderParts, renderParts, renderFields_alike hhide hvalue h]
  | map t m h => rw [renderParts, renderParts, renderMap_alike hhide hvalue n h]
  | bytes t m h => exact congrArg (fun text => some (capWrite b text)) h
  | sequence t m h => rw [renderParts, renderParts, renderElems_alike hvalue h]

include hhide in
lemma renderAttrs_alike {log : RenderLog N G} (hlog : BlindLog U hidden A.toLikeness log)
    {as bs : List (Bytes × G)} (h : List.Forall₂ (AttrsAlike U hidden A.toLikeness path) as bs)
    (b : Bytes) : S.renderAttrs U ks log path as b = S.renderAttrs U ks log path bs b := by
  refine renderMembers_alike (h.imp ?_) true b
  rintro a a' ⟨hkey, hshown⟩
  refine ⟨congrArg some hkey, fun key hk => ?_⟩
  cases hk
  exact funext fun b => underKey_alike hhide
    (hshown.imp_right fun hlogs => hlog _ (resolve_alike (A.log_step hlogs)))

end Parts

/-! ## The walk -/

/-- One level of the walk, from the level below. -/
lemma renderValue_alike (hhide : Hides U hidden ks) {below : Walk N G}
    (hvalue : Blind A.toLikeness below.value) (hlog : BlindLog U hidden A.toLikeness below.log)
    (n : ℕ) {v w : N} (b : Bytes) (h : A.value ro path v w) :
    S.renderValue U ks n below ro path v b = S.renderValue U ks n below ro path w b := by
  have hstep := A.value_step h
  have hparts (hl : (S.node v).kind ≠ .interface → (S.node v).selfRendering = false) :=
    renderParts_alike hhide hvalue n hstep hl b
  rw [renderValue, renderValue, ← hstep.selfRendering_eq]
  split
  · rfl
  · split
    · -- a value that renders itself is not one whose parts are written
      have hform := form_alike hstep
      have hne (hne : (S.node v).kind ≠ .interface) (hs : (S.node v).selfRendering = true) :=
        form_ne_parts S hne hs
      generalize S.form (S.node v) = f at hform hne
      generalize S.form (S.node w) = f' at hform
      cases hform with
      | method isNil method hm => exact renderMethod_alike hlog hm n isNil b method
      | same =>
        cases f with
        | parts => exact hparts fun hk => Bool.eq_false_iff.mpr fun hs => hne hk hs rfl
        | _ => rfl
    · split
      · rfl
      · next hs => exact hparts fun _ => Bool.eq_false_iff.mpr hs

lemma walk_alike (hhide : Hides U hidden ks) (n d : ℕ) :
    Blind A.toLikeness (S.walk U ks n d).value ∧
      BlindLog U hidden A.toLikeness (S.walk U ks n d).log := by
  induction d with
  | zero => exact ⟨fun _ _ => rfl, fun _ _ => rfl⟩
  | succ d ih =>
    have hvalue : Blind A.toLikeness (S.renderValue U ks n (S.walk U ks n d)) :=
      renderValue_alike hhide ih.1 ih.2 n
    refine ⟨hvalue, fun b h => ?_⟩
    cases h with
    | error => rfl
    | ok h =>
      cases h with
      | same => rfl
      | group h => exact congrArg (Option.map _) (renderAttrs_alike hhide ih.2 h _)
      | valuer => rfl
      | any h => exact hvalue b h

/-- Values that are alike are rendered alike. -/
lemma render_alike (hhide : Hides U hidden ks) (n : ℕ) {v w : N} (h : A.value .none path v w) :
    S.render U ks n v path = S.render U ks n w path :=
  (walk_alike hhide n _).1 [] h

/-! ## Attributes -/

lemma sanitizeAttr_alike (hhide : Hides U hidden ks) (s : Sanitizer) (n : ℕ) {key : Bytes}
    {l k : LogLayer N G}
    (h : Shown U hidden path key fun full => LogAlike U hidden A.toLikeness full l k) :
    S.sanitizeAttr U ks s n path false key l = S.sanitizeAttr U ks s n path false key k := by
  induction n generalizing path key l k with
  | zero => rfl
  | succ n ih =>
    obtain hname | h := h
    · rw [sanitizeAttr, sanitizeAttr, if_pos (.inr (hhide hname)), if_pos (.inr (hhide hname))]
    · rw [sanitizeAttr, sanitizeAttr]
      refine congrArg (ite _ _) ?_
      have hres := resolve_alike h
      cases h with
      | same => rfl
      | group h =>
        refine congrArg (Option.map _) (mapM_eq_of_forall₂ (h.imp fun a b hab => ?_))
        rw [← hab.1]
        exact ih (hab.2.imp_right A.log_step)
      | valuer typeName h =>
        rw [sanitizeValue, sanitizeValue]
        generalize S.resolve _ = r at hres ⊢
        generalize S.resolve _ = r' at hres ⊢
        cases hres with
        | error => rfl
        | ok h => exact ih (.inr h)
      | any h => exact congrArg (Option.map _) (render_alike hhide n h)

end Walk

/-! ## The calls of a handler -/

/-- The names that the key set hides. -/
def Sensitive (U : Unicode) (ks : KeySet) (path : Path) (name : Bytes) : Prop :=
  (keyed U ks path name).sensitive = true

section Calls

variable (U : Unicode) (R : Likeness N G)

/-- Attributes that differ only in what the handler is not to show: under a sensitive group, in
anything but their keys. -/
def Handler.Unseen (h : Handler) (as bs : List (Bytes × G)) : Prop :=
  if h.redactAll = true then as.map Prod.fst = bs.map Prod.fst
  else List.Forall₂ (AttrsAlike U (Sensitive U h.keys) R h.path) as bs

/-- Calls that differ only in what the handler is not to show when they come. -/
inductive AlikeCalls : Handler → List (Call G) → List (Call G) → Prop
  | nil (h) : AlikeCalls h [] []
  | withGroup {h cs ds} (name) : AlikeCalls (h.withGroup U name) cs ds →
      AlikeCalls h (.withGroup name :: cs) (.withGroup name :: ds)
  | withAttrs {h cs ds as bs} : h.Unseen U R as bs → AlikeCalls h cs ds →
      AlikeCalls h (.withAttrs as :: cs) (.withAttrs bs :: ds)
  | handle {h cs ds as bs} (message) : h.Unseen U R as bs → AlikeCalls h cs ds →
      AlikeCalls h (.handle message as :: cs) (.handle message bs :: ds)

variable {U} {S : Store N G} {ks : KeySet} (A : Alikeness U S (Sensitive U ks)) {h : Handler}

lemma sanitizeAll_unseen (n : ℕ) (hks : h.keys = ks) {as bs : List (Bytes × G)}
    (hu : h.Unseen U A.toLikeness as bs) : S.sanitizeAll U n h as = S.sanitizeAll U n h bs := by
  rw [Handler.Unseen, hks] at hu
  refine mapM_eq_of_forall₂ ?_
  split at hu
  · next hall =>
    rw [← List.forall₂_eq_eq_eq, List.forall₂_map_left_iff, List.forall₂_map_right_iff] at hu
    refine hu.imp fun a b hab => ?_
    cases n with
    | zero => rfl
    | succ n => rw [sanitizeAttr, sanitizeAttr, if_pos (.inl hall), if_pos (.inl hall), hab]
  · next hall =>
    refine hu.imp fun a b hab => ?_
    rw [Bool.eq_false_iff.mpr hall, hks, ← hab.1]
    exact sanitizeAttr_alike id h.sanitizer n (hab.2.imp_right A.log_step)

lemma Handler.keys_withGroup (name : Bytes) : (h.withGroup U name).keys = h.keys := by
  rw [Handler.withGroup]
  split <;> rfl

lemma Handler.Unseen.nil_iff {as bs : List (Bytes × G)} (hu : h.Unseen U R as bs) :
    as = [] ↔ bs = [] := by
  have hlen : as.length = bs.length := by
    rw [Handler.Unseen] at hu
    split at hu
    · simpa using congrArg List.length hu
    · exact hu.length_eq
  rw [← List.length_eq_zero_iff, hlen, List.length_eq_zero_iff]

lemma calls_alike (n : ℕ) {cs ds : List (Call G)} (hcalls : AlikeCalls U A.toLikeness h cs ds)
    (hks : h.keys = ks) : S.calls U n h cs = S.calls U n h ds := by
  induction hcalls with
  | nil => rfl
  | withGroup name _ ih => rw [calls, calls, ih ((Handler.keys_withGroup name).trans hks)]
  | withAttrs hu _ ih =>
    rw [calls, calls, withAttrs, withAttrs, sanitizeAll_unseen A n hks hu, ih hks,
      if_congr hu.nil_iff rfl rfl]
  | handle message hu _ ih =>
    rw [calls, calls, handle, handle, sanitizeAll_unseen A n hks hu, ih hks]

/-- **Redaction by key is noninterference.**  What a handler passes on over a sequence of calls does
not depend on the values that lie under sensitive keys, those of attributes, of the members of
groups, of struct fields and of map entries, at whatever depth, in values that may contain
themselves, and under whatever groups were opened on the way.  Whether the calls return does not
depend on them either. -/
theorem redaction_noninterference {h : Handler} (A : Alikeness U S (Sensitive U h.keys)) (n : ℕ)
    {cs ds : List (Call G)} (hcalls : AlikeCalls U A.toLikeness h cs ds) :
    S.calls U n h cs = S.calls U n h ds :=
  calls_alike A n hcalls rfl

end Calls

/-- Places of a log-in with a password. -/
inductive LoginPlace
  | user (password : Bytes)
  | name
  | password (password : Bytes)

/-- The attributes of the log-in: the first has a string, the second a user. -/
def loginStore : Store LoginPlace (Bool × Bytes) where
  node
    | .user x => .struct (.named [] []) noResults
        [⟨bytes "Name", true, false, .name⟩, ⟨bytes "dbPassword", false, false, .password x⟩]
    | .name => .basic (.named [] []) noResults (bytes "ann")
    | .password x => .basic (.named [] []) noResults x
  log
    | (true, x) => .string x
    | (false, x) => .any (some (.user x))
  order keys := List.range keys.length

/-- A log-in with a password in a struct, under a group. -/
def loginCalls (password : Bytes) : List (Call (Bool × Bytes)) :=
  [.withGroup (bytes "api"), .withAttrs [(bytes "key", true, password)],
    .handle (bytes "login") [(bytes "user", false, password)]]

/-- Users are alike where the handler finds them. -/
def usersAlike :
    Alikeness asciiTables loginStore
      (Sensitive asciiTables (newKeySet asciiTables defaultSensitiveKeys)) where
  value _ path v w := v = w ∨ path = [bytes "api", bytes "user"] ∧
    ∃ x y, v = .user x ∧ w = .user y
  print _ _ _ := False
  log path g k := path = [bytes "api", bytes "user"] ∧ g.1 = false ∧ k.1 = false
  value_step h := by
    obtain rfl | ⟨rfl, x, y, rfl, rfl⟩ := h
    · exact .same _
    · refine .struct _ _ (.cons ⟨rfl, rfl, rfl, .inr (.inl rfl)⟩
        (.cons ⟨rfl, rfl, rfl, .inl ?_⟩ .nil))
      show (keyed asciiTables _ _ (bytes "dbPassword")).sensitive = true
      decide +kernel
  print_step h := h.elim
  log_step := by
    rintro _ ⟨_, x⟩ ⟨_, y⟩ ⟨rfl, rfl, rfl⟩
    exact .any (.inr ⟨rfl, x, y, rfl, rfl⟩)

theorem redaction_noninterference_login :
    let h := newHandler asciiTables ⟨[], [], 4096⟩ []
    loginStore.calls asciiTables 2 h (loginCalls (bytes "hunter2")) =
      loginStore.calls asciiTables 2 h (loginCalls (bytes "swordfish")) := by
  intro h
  refine redaction_noninterference usersAlike 2
    (.withGroup _ (.withAttrs ?_ (.handle _ ?_ (.nil _))))
  · refine .cons ⟨rfl, .inl ?_⟩ .nil
    show (keyed asciiTables _ _ (bytes "key")).sensitive = true
    decide +kernel
  · exact .cons ⟨rfl, .inr ⟨by decide +kernel, rfl, rfl⟩⟩ .nil

end Secmem.Redact
