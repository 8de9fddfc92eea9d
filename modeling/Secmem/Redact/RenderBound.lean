import Secmem.Redact.Needs
import Mathlib.Logic.Relation

/-!
# How much `render` writes

Text of the caller goes through `capWriter`, which stops at the cap; names of fields, delimiters and
markers are written past it.  What bounds them is where the cap is tested: a value is not begun
beyond the cap, and after the one write that passes it every level of the walk that is still open
adds at most its closing bracket.  So the excess is a field name, a marker and one byte a level.

Below the cap nothing is left out.  So a text that is not past it says that the walk had all that it
`needs`.
-/

namespace Secmem.Redact

variable {N G : Type}

/-! ## What occurs in a value -/

/-- The parts of a value that its layer shows. -/
def Layer.parts (l : Layer N G) : List (N ⊕ G) :=
  l.results.log.toList.map .inr ++
    match l with
    | pointer _ _ _ elem => elem.toList.map .inl
    | interface _ elem => elem.toList.map .inl
    | struct _ _ fields => fields.map fun f => .inl f.value
    | map _ _ entries => entries.map (fun e => .inl e.1) ++ entries.map fun e => .inl e.2
    | sequence _ _ _ elems => elems.map .inl
    | basic .. => []
    | byte .. => []

def LogLayer.parts : LogLayer N G → List (N ⊕ G)
  | group attrs => attrs.map fun a => .inr a.2
  | valuer _ (.ok g) => [.inr g]
  | any (some v) => [.inl v]
  | _ => []

namespace Store

variable (S : Store N G)

def parts : N ⊕ G → List (N ⊕ G)
  | .inl v => (S.node v).parts
  | .inr g => (S.log g).parts

/-- Every struct field name that occurs in `x`, however deep, is at most this long. -/
def NamesWithin (L : ℕ) (x : N ⊕ G) : Prop :=
  ∀ v, Relation.ReflTransGen (fun x y => y ∈ S.parts x) x (.inl v) →
    ∀ name ∈ (S.node v).names, name.length ≤ L

variable {S} {L : ℕ} {x y : N ⊕ G}

lemma NamesWithin.part (h : S.NamesWithin L x) (hy : y ∈ S.parts x) : S.NamesWithin L y :=
  fun v hv => h v (.head hy hv)

/-- What `Resolve` leads to occurs in the value. -/
lemma parts_resolve {l l' : LogLayer N G} (h : ∀ y ∈ l.parts, S.NamesWithin L y)
    (hl : S.resolve l = .ok l') : ∀ y ∈ l'.parts, S.NamesWithin L y := by
  suffices hloop : ∀ (orig : LogLayer N G) (n : ℕ) (l : LogLayer N G),
      (∀ y ∈ l.parts, S.NamesWithin L y) → S.resolveLoop orig n l = .ok l' →
        ∀ y ∈ l'.parts, S.NamesWithin L y from hloop _ _ _ h hl
  intro orig n
  induction n with
  | zero => exact fun l _ hl => by cases hl
  | succ n ih =>
    intro l h hl
    match l with
    | .valuer _ (.ok g) => exact ih _ (fun y hy => (h (.inr g) List.mem_cons_self).part hy) hl
    | .valuer _ (.error e) => cases hl
    | .string _ | .other _ | .group _ | .any _ =>
      cases hl
      exact h

/-! ## What is written -/

section Wrote

variable {U : Unicode} {ks : KeySet} {d : ℕ}

/-- The most that a walk with `d` levels left leaves of a text that was not past the cap. -/
def limit (L d : ℕ) : ℕ := renderCap + L + 24 + d

/-- The text `out` that came of `b`: it is not shorter, where `C` holds it is within the bound, and
if it is not past the cap then nothing was left out that the walk `needs`. -/
structure Wrote (bound : ℕ) (C needs : Prop) (b out : Bytes) : Prop where
  le : b.length ≤ out.length
  within : C → out.length ≤ bound
  all : out.length ≤ renderCap → needs

namespace Wrote

variable {bound bound' : ℕ} {C P Q : Prop} {b b' mid out : Bytes}

lemma weaken (h : Wrote bound C P b out) (hb : b'.length ≤ b.length) (hbound : bound ≤ bound')
    (hP : P → Q) : Wrote bound' C Q b' out :=
  ⟨hb.trans h.le, fun hC => (h.within hC).trans hbound, fun hcap => hP (h.all hcap)⟩

/-- A text that was past the cap already, and was left as it is. -/
lemma stopped (hcap : renderCap < b.length) (hb : C → b.length ≤ bound) : Wrote bound C P b b :=
  ⟨le_rfl, hb, fun h => absurd h (not_le.mpr hcap)⟩

lemma written {s : Bytes} (hb : b.length + s.length ≤ bound) (hP : P) :
    Wrote bound C P b (b ++ s) := by
  rw [← List.length_append] at hb
  exact ⟨by simp, fun _ => hb, fun _ => hP⟩

lemma capWritten (p : Bytes) (hb : max renderCap b.length ≤ bound) (hP : P) :
    Wrote bound C P b (capWrite b p) := by
  refine ⟨by simp [capWrite], fun _ => le_trans ?_ hb, fun _ => hP⟩
  rw [capWrite, List.length_append, List.length_take]
  omega

lemma closed {s : Bytes} (h : Wrote bound C P b out) (hs : bound + s.length ≤ bound') :
    Wrote bound' C P b (out ++ s) := by
  refine ⟨h.le.trans (by simp), fun hC => ?_, fun hcap => h.all ?_⟩
  · have := h.within hC
    rw [List.length_append]
    omega
  · rw [List.length_append] at hcap
    omega

lemma andThen (h : Wrote bound C P b mid) (h' : Wrote bound' C Q mid out) :
    Wrote bound' C (P ∧ Q) b out :=
  ⟨h.le.trans h'.le, h'.within, fun hcap => ⟨h.all (h'.le.trans hcap), h'.all hcap⟩⟩

lemma under {C' : Prop} (h : Wrote bound C' P b out) (hC : C → C') : Wrote bound C P b out :=
  ⟨h.le, fun hc => h.within (hC hc), h.all⟩

end Wrote

lemma length_separate (first : Bool) (b : Bytes) :
    b.length ≤ (separate first b).length ∧ (separate first b).length ≤ b.length + 1 := by
  cases first <;> simp [separate]

lemma length_put {b s : Bytes} (p : Bytes) (hb : b.length ≤ renderCap + 1) (hs : s.length = 1) :
    b.length ≤ (capWrite b p ++ s).length ∧ (capWrite b p ++ s).length ≤ renderCap + 2 := by
  rw [capWrite, List.length_append, List.length_append, List.length_take]
  omega

/-- The loop over named members, where each of them writes no more than `bound` allows. -/
lemma wrote_renderMembers {γ : Type} {put : Bytes → Bytes → Bytes} {name : γ → Option Bytes}
    {member : γ → Bytes → Bytes → Option Bytes} {P : γ → Bytes → Prop} {bound : ℕ} {C : Prop}
    (first : Bool) {xs : List γ} {b out : Bytes}
    (hmember : ∀ x ∈ xs, ∀ text b out, name x = some text → b.length ≤ renderCap + 1 →
      member x text (put b text) = some out → Wrote bound C (P x text) b out)
    (hb : C → b.length ≤ bound) (hout : renderMembers put name member first xs b = some out) :
    Wrote bound C (∀ x ∈ xs, ∃ text, name x = some text ∧ P x text) b out := by
  induction xs generalizing first b with
  | nil =>
    cases hout
    exact ⟨le_rfl, hb, fun _ _ h => by cases h⟩
  | cons x xs ih =>
    simp only [renderMembers] at hout
    split at hout
    · next hcap =>
      cases hout
      exact .stopped hcap hb
    · next hcap =>
      obtain ⟨text, htext, hout⟩ := Option.bind_eq_some_iff.mp hout
      obtain ⟨mid, hmid, hout⟩ := Option.bind_eq_some_iff.mp hout
      have hsep := length_separate first b
      have hx := hmember x List.mem_cons_self text _ mid htext (by omega) hmid
      have hrest := ih false (fun y hy => hmember y (List.mem_cons_of_mem _ hy)) hx.within hout
      exact (hx.andThen hrest).weaken hsep.1 le_rfl fun hall =>
        List.forall_mem_cons.mpr ⟨⟨text, htext, hall.1⟩, hall.2⟩

lemma wrote_writeMarshaled {bound : ℕ} {C : Prop} (b : Bytes) (isNil : Bool) (r : Marshaled)
    (hb : max renderCap (b.length + 24) ≤ bound) :
    Wrote bound C True b (writeMarshaled b isNil r) := by
  have hfailed : marshalErrorTag.length = 24 := rfl
  have hguarded : (guarded isNil).length ≤ 16 := by cases isNil <;> decide
  cases r with
  | text t => exact .capWritten t (by omega) trivial
  | failed => exact .written (by omega) trivial
  | panicked => exact .written (by omega) trivial

/-- What a walk writes, with so many levels left. -/
structure Writes (S : Store N G) (U : Unicode) (ks : KeySet) (L d : ℕ) (w : Walk N G) : Prop where
  value : ∀ ro path v b out, w.value ro path v b = some out →
    Wrote (max (limit L d) b.length) (S.NamesWithin L (.inl v))
      ((S.needs U ks d).value ro path v) b out
  log : ∀ path r b out, w.log path r b = some out →
    Wrote (max (limit L d) (b.length + 3)) (∀ l, r = .ok l → ∀ y ∈ l.parts, S.NamesWithin L y)
      ((S.needs U ks d).log path r) b out

lemma wrote_underKey {bound : ℕ} {C : Prop} {P : Path → Prop} {f : Path → Option Bytes}
    {path : Path} {name b out : Bytes} (hout : underKey U ks path name b f = some out)
    (hb : C → b.length + 14 ≤ bound)
    (hf : ∀ full, f full = some out → Wrote bound C (P full) b out) :
    Wrote bound C (keyNeeds U ks path name P) b out := by
  simp only [underKey] at hout
  split at hout
  · next hk =>
    cases hout
    have htag : keyTag.length = 14 := rfl
    refine ⟨by simp, fun hC => ?_, fun _ => .inl hk⟩
    have := hb hC
    rw [List.length_append]
    omega
  · exact (hf _ hout).weaken le_rfl le_rfl .inr

section Parts

variable {w : Walk N G} (h : Writes S U ks L d w) {C : Prop}

include h

lemma Writes.renderField {ro : RO} {path : Path} {name b out : Bytes} {v : N}
    (hC : C → S.NamesWithin L (.inl v)) (hb : C → b.length ≤ renderCap + L + 2)
    (hout : renderField U ks w.value ro path name v b = some out) :
    Wrote (limit L d) C
      (keyNeeds U ks path name fun full => (S.needs U ks d).value ro full v) b out := by
  refine wrote_underKey hout (fun hc => ?_) fun full hfull => ?_
  · have := hb hc
    unfold limit
    omega
  · have hw := (h.value ro full v b out hfull).under hC
    refine ⟨hw.le, fun hc => ?_, hw.all⟩
    have hin := hw.within hc
    have := hb hc
    unfold limit at hin ⊢
    omega

lemma Writes.renderFields {ro : RO} {path : Path} {fields : List (StoredField N)} {b out : Bytes}
    (hC : C → ∀ f ∈ fields, f.name.length ≤ L ∧ S.NamesWithin L (.inl f.value))
    (hb : C → b.length ≤ limit L d)
    (hout : renderFields U ks w.value ro path fields b = some out) :
    Wrote (limit L d) C (∀ f ∈ fields, keyNeeds U ks path f.name fun full =>
      (S.needs U ks d).value (ro.field f.exported f.embedded) full f.value) b out := by
  refine (wrote_renderMembers (P := fun f name => keyNeeds U ks path name fun full =>
      (S.needs U ks d).value (ro.field f.exported f.embedded) full f.value) true
    (fun f hf name b out hname hcap hout => ?_) hb hout).weaken le_rfl le_rfl
    fun hall f hf => by simpa using hall f hf
  cases hname
  have hput : (b ++ f.name ++ bytes ":").length = b.length + f.name.length + 1 := by
    rw [List.length_append, List.length_append]
    rfl
  refine (h.renderField (fun hc => (hC hc f hf).2) (fun hc => ?_) hout).weaken (by omega) le_rfl id
  have := (hC hc f hf).1
  omega

/-- The loops of `renderMap`, where the names come from `name`. -/
lemma Writes.renderEntries {γ : Type} {ro : RO} {path : Path} {entries : List γ}
    {name : γ → Option Bytes} {elem : γ → N} {b out : Bytes}
    (hC : C → ∀ e ∈ entries, S.NamesWithin L (.inl (elem e))) (hb : C → b.length ≤ limit L d)
    (hout : renderEntries U ks w.value ro path name elem entries b = some out) :
    Wrote (limit L d) C (∀ e ∈ entries, ∃ text, name e = some text ∧
      keyNeeds U ks path text fun full => (S.needs U ks d).value ro full (elem e)) b out := by
  refine wrote_renderMembers true (fun e he text b out _ hcap hout => ?_) hb hout
  have hput := length_put text (s := bytes ":") hcap rfl
  exact (h.renderField (fun hc => hC hc e he) (fun _ => by omega) hout).weaken hput.1 le_rfl id

omit h in
lemma returns_of_mapKeyName {n : ℕ} {ro : RO} {k : N} {name : Bytes}
    (h : S.mapKeyName n ro k = some name) :
    ∃ text, Returns (S.fprint · ro (S.node k)) text ∧ capWrite [] text = name := by
  obtain ⟨text, htext, rfl⟩ := Option.map_eq_some_iff.mp h
  exact ⟨text, returns_of_below (fun n => below_fprint n ro _) htext, rfl⟩

lemma Writes.renderMap {n : ℕ} {ro : RO} {path : Path} {entries : List (N × N)} {b out : Bytes}
    (hC : C → ∀ e ∈ entries, S.NamesWithin L (.inl e.2)) (hb : C → b.length ≤ limit L d)
    (hout : S.renderMap U ks n w.value ro path entries b = some out) :
    Wrote (limit L d) C (∀ e ∈ entries, ∃ text, Returns (S.fprint · ro (S.node e.1)) text ∧
      keyNeeds U ks path (capWrite [] text) fun full => (S.needs U ks d).value ro full e.2)
      b out := by
  unfold Store.renderMap at hout
  split at hout
  · refine (h.renderEntries hC hb hout).weaken le_rfl le_rfl fun hall e he => ?_
    obtain ⟨name, hname, hneeds⟩ := hall e he
    obtain ⟨text, htext, rfl⟩ := returns_of_mapKeyName hname
    exact ⟨text, htext, hneeds⟩
  · obtain ⟨named, hnamed, hout⟩ := Option.bind_eq_some_iff.mp hout
    obtain ⟨hto, hfrom⟩ := exists_mem_of_mapM hnamed
    refine (h.renderEntries (C := C) (fun hc x hx => ?_) hb hout).weaken le_rfl le_rfl
      fun hall e he => ?_
    · obtain ⟨e, he, hx⟩ := hfrom x ((List.mem_insertionSort _).mp hx)
      obtain ⟨_, _, rfl⟩ := Option.map_eq_some_iff.mp hx
      exact hC hc e he
    · obtain ⟨x, hx, hmap⟩ := hto e he
      obtain ⟨name, hname, rfl⟩ := Option.map_eq_some_iff.mp hmap
      obtain ⟨text, htext, rfl⟩ := returns_of_mapKeyName hname
      obtain ⟨_, heq, hneeds⟩ := hall _ ((List.mem_insertionSort _).mpr hx)
      cases heq
      exact ⟨text, htext, hneeds⟩

lemma Writes.renderElems {ro : RO} {path : Path} (first : Bool) {elems : List N} {b out : Bytes}
    (hC : C → ∀ v ∈ elems, S.NamesWithin L (.inl v))
    (hb : (separate first b).length ≤ renderCap + 1)
    (hout : renderElems w.value ro path first elems b = some out) :
    Wrote (limit L d) C (∀ v ∈ elems, (S.needs U ks d).value ro path v) b out := by
  have hsep := length_separate first b
  induction elems generalizing first b with
  | nil =>
    cases hout
    refine ⟨le_rfl, fun _ => ?_, fun _ _ h => by cases h⟩
    unfold limit
    omega
  | cons v elems ih =>
    obtain ⟨mid, hmid, hout⟩ := Option.bind_eq_some_iff.mp hout
    have hv := ((h.value _ _ _ _ _ hmid).under fun hc => hC hc v List.mem_cons_self).weaken hsep.1
      (show max (limit L d) (separate first b).length ≤ limit L d by unfold limit; omega) id
    split at hout
    · next hcap =>
      cases hout
      exact (hv.andThen (.stopped hcap hv.within)).weaken le_rfl le_rfl fun hall =>
        List.forall_mem_cons.mpr hall
    · have hsep' := length_separate false mid
      have hrest := ih false (fun hc v' hv' => hC hc v' (List.mem_cons_of_mem _ hv')) (by omega)
        hout hsep'
      exact (hv.andThen hrest).weaken le_rfl le_rfl fun hall => List.forall_mem_cons.mpr hall

lemma Writes.renderParts {n : ℕ} {ro : RO} {path : Path} {l : Layer N G} {b out : Bytes}
    (hC : C → (∀ name ∈ l.names, name.length ≤ L) ∧ ∀ y ∈ l.parts, S.NamesWithin L y)
    (hb : b.length ≤ renderCap) (hout : S.renderParts U ks n w.value ro path l b = some out) :
    Wrote (limit L (d + 1)) C (S.partsNeed U ks (S.needs U ks d).value ro path l) b out := by
  have hlimit : limit L (d + 1) = limit L d + 1 := rfl
  have hwrite (p : Bytes) {P : Prop} (hP : P) : Wrote (limit L (d + 1)) C P b (capWrite b p) :=
    .capWritten p (by unfold limit; omega) hP
  have hmark (s : Bytes) (hs : s.length ≤ 5) {P : Prop} (hP : P) :
      Wrote (limit L (d + 1)) C P b (b ++ s) := .written (by unfold limit; omega) hP
  -- The value one level down, after at most five bytes.
  have hbelow {ro : RO} {e : N} {s : Bytes} (hs : s.length ≤ 5) (he : C → S.NamesWithin L (.inl e))
      (h' : w.value ro path e (b ++ s) = some out) :
      Wrote (limit L (d + 1)) C ((S.needs U ks d).value ro path e) b out :=
    ((h.value _ _ _ _ _ h').under he).weaken (by simp) (by
      rw [List.length_append]
      unfold limit
      omega) id
  have hopen (s : Bytes) (hs : s.length ≤ 4) : (b ++ s).length ≤ limit L d := by
    rw [List.length_append]
    unfold limit
    omega
  match l with
  | .basic .. | .byte .. =>
    obtain ⟨text, -, rfl⟩ := Option.map_eq_some_iff.mp hout
    exact hwrite text trivial
  | .pointer _ _ _ none | .interface _ none =>
    cases hout
    exact hmark nilText (by decide) trivial
  | .pointer _ _ _ (some e) =>
    simp only [Store.renderParts] at hout
    split at hout
    · next hro =>
      cases hout
      exact hmark _ (by decide) (.inl hro)
    · have he (hc : C) := (hC hc).2 (.inl e) (by simp [Layer.parts])
      split at hout
      · exact (hbelow (by decide) he hout).weaken le_rfl le_rfl .inr
      · exact (hbelow (s := []) (by decide) he (by simpa using hout)).weaken le_rfl le_rfl .inr
  | .interface _ (some e) =>
    exact hbelow (s := []) (by decide) (fun hc => (hC hc).2 _ (by simp [Layer.parts]))
      (by rw [List.append_nil]; exact hout)
  | .struct _ _ fields =>
    obtain ⟨mid, hmid, rfl⟩ := Option.map_eq_some_iff.mp hout
    refine ((h.renderFields (fun hc f hf => ⟨?_, ?_⟩) (fun _ => hopen _ (by decide)) hmid).closed
      hlimit.ge).weaken (by simp) le_rfl id
    · exact (hC hc).1 f.name (List.mem_map_of_mem hf)
    · exact (hC hc).2 _ (List.mem_append_right _ (List.mem_map_of_mem hf))
  | .map _ _ entries =>
    obtain ⟨mid, hmid, rfl⟩ := Option.map_eq_some_iff.mp hout
    refine ((h.renderMap (fun hc e he => ?_) (fun _ => hopen _ (by decide)) hmid).closed
      hlimit.ge).weaken (by simp) le_rfl id
    exact (hC hc).2 _ (List.mem_append_right _ (List.mem_append_right _ (List.mem_map_of_mem he)))
  | .sequence _ _ true elems =>
    cases hout
    exact hwrite _ trivial
  | .sequence _ _ false elems =>
    obtain ⟨mid, hmid, rfl⟩ := Option.map_eq_some_iff.mp hout
    refine ((h.renderElems true (fun hc e he => ?_) ?_ hmid).closed hlimit.ge).weaken (by simp)
      le_rfl id
    · exact (hC hc).2 _ (List.mem_append_right _ (List.mem_map_of_mem he))
    · rw [separate, if_pos rfl, List.length_append]
      exact Nat.add_le_add hb le_rfl

lemma Writes.renderMethod {n : ℕ} {path : Path} {isNil : Bool} {m : MethodResults N G}
    {method : Method} {b out : Bytes}
    (hC : C → ∀ g, m.log = some g → ∀ y ∈ (S.log g).parts, S.NamesWithin L y)
    (hb : b.length ≤ renderCap)
    (hout : S.renderMethod n w.log path isNil m b method = some out) :
    Wrote (limit L (d + 1)) C (S.methodNeeds (S.needs U ks d).log path m method) b out := by
  have hcap : max renderCap (b.length + 24) ≤ limit L (d + 1) := by
    unfold limit
    omega
  cases method with
  | print =>
    obtain ⟨text, htext, rfl⟩ := Option.map_eq_some_iff.mp hout
    exact .capWritten text (by omega) ⟨text, returns_of_below (below_fprintItself · m) htext⟩
  | marshalText =>
    cases hout
    exact wrote_writeMarshaled _ _ _ hcap
  | marshalJSON =>
    cases hout
    exact wrote_writeMarshaled _ _ _ hcap
  | goString =>
    cases hout
    exact .capWritten _ (by omega) trivial
  | logValue =>
    simp only [Store.renderMethod] at hout
    split at hout
    · next hg =>
      cases hout
      exact (wrote_writeMarshaled b isNil .panicked hcap).weaken le_rfl le_rfl fun _ g hg' => by
        rw [hg] at hg'
        cases hg'
    · next g hg =>
      refine ((h.log _ _ _ _ hout).under fun hc l hl => ?_).weaken le_rfl
        (by unfold limit; omega) fun hneeds g' hg' => ?_
      · exact parts_resolve (hC hc g hg) hl
      · rw [hg] at hg'
        cases hg'
        exact hneeds

omit h in
/-- A method is one of the value or of what an interface holds. -/
lemma form_method {l : Layer N G} {isNil : Bool} {m : MethodResults N G} {method : Method}
    (hl : S.form l = .method isNil m method) :
    m = l.results ∨ ∃ t e, l = .interface t (some e) ∧ m = (S.node e).results := by
  have haddress {o : Option (Form N G)}
      (ho : (o.or (if l.kind.addressed && l.selfRendering then
        (chooseMethod l.ty.viaPointer).map (.method false l.results) else none)).getD .parts =
          .method isNil m method) :
      o = some (.method isNil m method) ∨ m = l.results := by
    cases o with
    | some f => exact .inl (congrArg some ho)
    | none =>
      rw [Option.none_or] at ho
      split at ho
      · cases hm : chooseMethod l.ty.viaPointer with
        | none =>
          rw [hm] at ho
          cases ho
        | some meth =>
          rw [hm] at ho
          cases ho
          exact .inr rfl
      · cases ho
  obtain hown | hm := haddress hl
  · obtain ⟨x, hx, hown⟩ := Option.bind_eq_some_iff.mp hown
    split at hown
    · cases hown
    · obtain ⟨_, -, heq⟩ := Option.map_eq_some_iff.mp hown
      cases heq
      match l, hx with
      | .interface t (some e), hx =>
        cases hx
        exact .inr ⟨t, e, rfl, rfl⟩
      | .basic .., hx | .byte .., hx | .pointer .., hx | .struct .., hx | .map .., hx
      | .sequence .., hx =>
        cases hx
        exact .inl rfl
  · exact .inl hm

lemma Writes.renderValue {n : ℕ} {ro : RO} {path : Path} {v : N} {b out : Bytes}
    (hout : S.renderValue U ks n w ro path v b = some out) :
    Wrote (max (limit L (d + 1)) b.length) (S.NamesWithin L (.inl v))
      (S.valueNeeds U ks (S.needs U ks d) ro path v) b out := by
  simp only [Store.renderValue] at hout
  split at hout
  · next hcap =>
    cases hout
    exact .stopped hcap fun _ => le_max_right _ _
  · next hcap =>
    have hb : b.length ≤ renderCap := Nat.le_of_not_lt hcap
    have hparts (hp : S.renderParts U ks n w.value ro path (S.node v) b = some out) :=
      h.renderParts (C := S.NamesWithin L (.inl v))
        (fun hc => ⟨hc v .refl, fun y hy => hc.part hy⟩) hb hp
    have hmax : limit L (d + 1) ≤ max (limit L (d + 1)) b.length := le_max_left _ _
    split at hout
    · next hro =>
      simp only [valueNeeds, if_pos hro]
      generalize hform : S.form (S.node v) = form at hout ⊢
      cases form with
      | bytes text =>
        cases hout
        exact .capWritten _ (by unfold limit; omega) trivial
      | method isNil m method =>
        refine (h.renderMethod (fun hc g hg => ?_) hb hout).weaken le_rfl hmax id
        obtain rfl | ⟨t, e, hnode, rfl⟩ := form_method hform
        · exact fun y hy => (hc.part (y := .inr g) (by simp [parts, Layer.parts, hg])).part hy
        · have he : S.NamesWithin L (.inl e) := hc.part (by simp [parts, Layer.parts, hnode])
          exact fun y hy => (he.part (y := .inr g) (by simp [parts, Layer.parts, hg])).part hy
      | parts => exact (hparts hout).weaken le_rfl hmax id
    · next hro =>
      simp only [valueNeeds, if_neg hro]
      split at hout
      · next hs =>
        cases hout
        have htag : unexportedTag.length = 21 := rfl
        exact .written (by unfold limit; omega) (.inl hs)
      · exact (hparts hout).weaken le_rfl hmax .inr

lemma Writes.renderAttrs {path : Path} {attrs : List (Bytes × G)} {b out : Bytes}
    {bound : ℕ} (hbound : limit L d ≤ bound)
    (hC : C → ∀ a ∈ attrs, S.NamesWithin L (.inr a.2)) (hb : C → b.length ≤ bound)
    (hout : S.renderAttrs U ks w.log path attrs b = some out) :
    Wrote bound C (∀ a ∈ attrs, keyNeeds U ks path a.1 fun full =>
      (S.needs U ks d).log full (S.resolve (S.log a.2))) b out := by
  refine (wrote_renderMembers (P := fun a key => keyNeeds U ks path key fun full =>
      (S.needs U ks d).log full (S.resolve (S.log a.2))) true
    (fun a ha key b out hkey hcap hout => ?_) hb hout).weaken le_rfl le_rfl
    fun hall a ha => by simpa using hall a ha
  have hput := length_put key (s := bytes "=") hcap rfl
  have hlimit : renderCap + 24 ≤ limit L d := by
    unfold limit
    omega
  refine (wrote_underKey hout (fun _ => by omega) fun full hfull => ?_).weaken hput.1 le_rfl id
  refine ((h.log _ _ _ _ hfull).under fun hc l => ?_).weaken le_rfl (by omega) id
  exact parts_resolve fun y hy => (hC hc a ha).part hy

end Parts

/-- The walk from any depth. -/
lemma writes_walk (n d : ℕ) : Writes S U ks L d (S.walk U ks n d) := by
  have hdots : (bytes "...").length = 3 := rfl
  induction d with
  | zero =>
    refine ⟨fun ro path v b out hout => ?_, fun path r b out hout => ?_⟩
    · cases hout
      split
      · next hcap => exact .stopped hcap fun _ => le_max_right _ _
      · exact .written (by unfold limit; omega) trivial
    · cases hout
      exact .written (by omega) trivial
  | succ d ih =>
    refine ⟨fun ro path v b out hout => ih.renderValue hout, fun path r b out hout => ?_⟩
    have hwrite (p : Bytes) {C : Prop} :
        Wrote (max (limit L (d + 1)) (b.length + 3)) C True b (capWrite b p) :=
      .capWritten p (by unfold limit; omega) trivial
    match r with
    | .error e =>
      cases hout
      split
      · next hcap => exact .stopped hcap fun _ => by omega
      · exact hwrite e
    | .ok (.any none) =>
      cases hout
      have hnil : nilText.length = 5 := rfl
      split
      · next hcap => exact .stopped hcap fun _ => by omega
      · exact .written (by unfold limit; omega) trivial
    | .ok (.any (some v)) =>
      exact ((ih.renderValue hout).under fun hc => hc _ rfl _ (by simp [LogLayer.parts])).weaken
        le_rfl (by omega) id
    | .ok (.group attrs) =>
      obtain ⟨mid, hmid, rfl⟩ := Option.map_eq_some_iff.mp hout
      have hbracket : (bytes "[").length = 1 := rfl
      have hattrs : Wrote (max (limit L d) (b.length + 1)) (∀ a ∈ attrs, S.NamesWithin L (.inr a.2))
          _ (b ++ bytes "[") mid :=
        ih.renderAttrs (le_max_left _ _) id (fun _ => by rw [List.length_append]; omega) hmid
      have hclose : max (limit L d) (b.length + 1) + (bytes "]").length ≤
          max (limit L (d + 1)) (b.length + 3) := by
        have : (bytes "]").length = 1 := rfl
        unfold limit
        omega
      exact ((hattrs.closed hclose).under fun hc a ha => hc _ rfl _ (List.mem_map_of_mem ha)).weaken
        (by simp) le_rfl id
    | .ok (.string s) =>
      cases hout
      exact hwrite s
    | .ok (.other t) =>
      cases hout
      exact hwrite t
    | .ok (.valuer ..) =>
      cases hout
      exact ⟨le_rfl, fun _ => by omega, fun _ => trivial⟩

end Wrote

/-- A pointer to a struct whose only field `Next` is that pointer. -/
def ring : Store Bool Empty where
  node
    | false => .pointer (.named [] []) noResults (bytes "0xc000012028") (some true)
    | true => .struct (.named [] []) noResults [⟨bytes "Next", true, false, false⟩]
  log g := g.elim
  order keys := List.range keys.length

/-- There is no map and no `reflect.Value` in the ring. -/
lemma needs_ring (U : Unicode) (ks : KeySet) (d : ℕ) (ro : RO) (path : Path) (v : Bool) :
    (ring.needs U ks d).value ro path v := by
  induction d generalizing ro path v with
  | zero => trivial
  | succ d ih =>
    have hparts : ring.partsNeed U ks (ring.needs U ks d).value ro path (ring.node v) := by
      cases v with
      | false => exact .inr (ih _ _ _)
      | true => exact fun f _ => .inr (ih _ _ _)
    have hform : ring.form (ring.node v) = .parts := by cases v <;> rfl
    show ring.valueNeeds U ks _ ro path v
    simp only [valueNeeds, hform]
    split
    · exact hparts
    · exact .inr hparts

/-- The values of `s := []any{nil}; s[0] = s` and `map[*[]any]int{&s: 1}`. -/
inductive Endless
  | table
  | key
  | slice
  | item
  | one

def endless : Store Endless Empty where
  node
    | .table => .map (.named [] []) noResults [(.key, .one)]
    | .key => .pointer (.named [] []) noResults (bytes "0xc000010030") (some .slice)
    | .slice => .sequence (.named [] []) noResults false [.item]
    | .item => .interface (.named [] []) (some .slice)
    | .one => .basic (.named [] []) noResults (bytes "1")
  log g := g.elim
  order keys := List.range keys.length

/-- `fmt` goes from the slice to its element and back. -/
lemma printValue_endless (n : ℕ) (ro : RO) : endless.printValue n ro false .slice = none ∧
    endless.printValue n ro false .item = none := by
  have hown (v : Endless) (ro : RO) : (endless.node v).ownText ro false = none := by
    cases v <;> simp [endless, Layer.ownText, Layer.ty, Ty.printable, Ty.own]
  induction n generalizing ro with
  | zero => exact ⟨rfl, rfl⟩
  | succ n ih =>
    rw [printValue, printValue, hown, hown]
    refine ⟨?_, (ih ro.ro).1⟩
    show ([Endless.item].mapM fun e => endless.printValue n ro.ro false e).map _ = none
    rw [List.mapM_cons, (ih ro.ro).2]
    rfl

lemma fprint_endless (n : ℕ) (ro : RO) : endless.fprint n ro (endless.node .key) = none := by
  have hasked : endless.asked ro (endless.node .key) = none := by
    rw [asked]
    split <;> rfl
  rw [fprint, hasked]
  show (endless.printValue n ro false .slice).map _ = none
  rw [(printValue_endless n ro).1]
  rfl

end Store
end Secmem.Redact
