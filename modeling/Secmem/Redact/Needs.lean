import Secmem.Redact.Handler
import Secmem.Framework.Fuel

/-!
# Where `render` returns

The walk returns because its depth is bounded, whatever the store: pointers may be cyclic and a
`LogValue` may build new values without end.  The exceptions are a key of a map and a value that is
a `reflect.Value`.  They are printed by `fmt`, which follows a pointer at the top and has no bound
on the depth of slices, maps and interfaces below it.

`needs` collects what the walk hands to `fmt`: the keys of the maps it comes to, with the flag they
are reached with, and the `reflect.Value`s, but nothing that lies under a sensitive key, inside a
value that renders itself or below the bound on the depth.
-/

namespace Secmem.Redact.Store

variable {N G : Type} (S : Store N G)

/-! ## What the walk hands to `fmt` -/

/-- What has to hold for `renderValue` and `renderLogValue` to return, at one depth. -/
structure Needs (N G : Type) where
  value : RO → Path → N → Prop
  log : Path → Except Bytes (LogLayer N G) → Prop

section Needs

variable (U : Unicode) (ks : KeySet)

/-- What is under a name is not looked at if the name is sensitive. -/
def keyNeeds (path : Path) (name : Bytes) (shown : Path → Prop) : Prop :=
  let k := keyed U ks path name
  k.sensitive = true ∨ shown k.full

/-- The parts of a value: `fmt` returns on the keys of a map. -/
def partsNeed (value : RO → Path → N → Prop) (ro : RO) (path : Path) : Layer N G → Prop
  | .pointer _ _ _ (some e) => ro.canInterface = false ∨ value ro path e
  | .interface _ (some e) => value ro.ro path e
  | .struct _ _ fields => ∀ f ∈ fields, keyNeeds U ks path f.name fun full =>
      value (ro.field f.exported f.embedded) full f.value
  | .map _ _ entries => ∀ e ∈ entries, ∃ text, Returns (S.fprint · ro.ro (S.node e.1)) text ∧
      keyNeeds U ks path (capWrite [] text) fun full => value ro.ro full e.2
  | .sequence _ _ false elems => ∀ e ∈ elems, value ro.ro path e
  | _ => True

/-- A method: `fmt` returns on what a `reflect.Value` holds. -/
def methodNeeds (log : Path → Except Bytes (LogLayer N G) → Prop) (path : Path)
    (m : MethodResults N G) : Method → Prop
  | .print => ∃ text, Returns (S.fprintItself · m) text
  | .logValue => ∀ g, m.log = some g → log path (S.resolve (S.log g))
  | _ => True

def valueNeeds (below : Needs N G) (ro : RO) (path : Path) (v : N) : Prop :=
  let l := S.node v
  if ro.canInterface = true then
    match S.form l with
    | .bytes _ => True
    | .method _ m method => S.methodNeeds below.log path m method
    | .parts => S.partsNeed U ks below.value ro path l
  else l.selfRendering = true ∨ S.partsNeed U ks below.value ro path l

def logNeeds (below : Needs N G) (value : RO → Path → N → Prop) (path : Path) :
    Except Bytes (LogLayer N G) → Prop
  | .ok (.any (some v)) => value .none path v
  | .ok (.group attrs) => ∀ a ∈ attrs, keyNeeds U ks path a.1 fun full =>
      below.log full (S.resolve (S.log a.2))
  | _ => True

/-- What the walk with so many levels left needs. -/
def needs : ℕ → Needs N G
  | 0 => ⟨fun _ _ _ => True, fun _ _ => True⟩
  | d + 1 =>
    let value := S.valueNeeds U ks (needs d)
    ⟨value, S.logNeeds U ks (needs d) value⟩

/-- `fmt` returns on everything that `render` hands to it. -/
def Prints (v : N) (path : Path) : Prop :=
  (S.needs U ks (maxRenderDepth + 1)).value .none path v

end Needs

/-! ## The walk returns -/

section Returns

variable {S} {U : Unicode} {ks : KeySet} {d : ℕ} {w : ℕ → Walk N G} {b : Bytes}

/-- The walk at one depth returns where it has what it needs; `n` bounds the calls of `fmt`. -/
structure Returning (nd : Needs N G) (w : ℕ → Walk N G) : Prop where
  value : ∀ ro path v b, nd.value ro path v →
    Ends (fun n => (w n).value ro path v b) fun _ => True
  log : ∀ path r b, nd.log path r → Ends (fun n => (w n).log path r b) fun _ => True

lemma ends_true {α : Type} {f : ℕ → Option α} {a : α} (h : Returns f a) :
    Ends f fun _ => True := h.mono fun _ _ => trivial

lemma ends_underKey {path : Path} {name : Bytes} {shown : ℕ → Path → Option Bytes}
    (h : keyNeeds U ks path name fun full => Ends (fun n => shown n full) fun _ => True) :
    Ends (fun n => underKey U ks path name b (shown n)) fun _ => True := by
  simp only [underKey]
  split
  · exact ends_pure trivial
  · next hk => exact h.resolve_left hk

/-- The loop over named members returns where the names do and what follows each of them. -/
lemma ends_renderMembers {γ : Type} {put : Bytes → Bytes → Bytes} (first : Bool) {xs : List γ}
    {name : ℕ → γ → Option Bytes} {member : ℕ → γ → Bytes → Bytes → Option Bytes}
    (h : ∀ x ∈ xs, Ends (fun n => name n x) fun text =>
      ∀ b, Ends (fun n => member n x text b) fun _ => True) :
    Ends (fun n => renderMembers put (name n) (member n) first xs b) fun _ => True := by
  induction xs generalizing first b with
  | nil => exact ends_pure trivial
  | cons x xs ih =>
    simp only [renderMembers]
    split
    · exact ends_pure trivial
    · exact (h x List.mem_cons_self).bind fun _ htext => (htext _).bind fun _ _ =>
        ih false fun y hy => h y (List.mem_cons_of_mem _ hy)

variable {value : ℕ → RenderVal N} {P : RO → Path → N → Prop}
  (hvalue : ∀ ro path v b, P ro path v → Ends (fun n => value n ro path v b) fun _ => True)

include hvalue

/-- The loops of `renderMap`, where the names come from `name` and each of them returns. -/
lemma ends_renderEntries {γ : Type} {ro : RO} {path : Path} {entries : List γ}
    {name : ℕ → γ → Option Bytes} {elem : γ → N}
    (he : ∀ e ∈ entries, Ends (fun n => name n e) fun text =>
      keyNeeds U ks path text fun full => P ro full (elem e)) :
    Ends (fun n => renderEntries U ks (value n) ro path (name n) elem entries b) fun _ => True :=
  ends_renderMembers true fun e hmem => (he e hmem).mono fun _ htext _ =>
    ends_underKey (htext.imp_right (hvalue _ _ _ _))

lemma ends_renderMap {ro : RO} {path : Path} {entries : List (N × N)}
    (he : ∀ e ∈ entries, ∃ text, Returns (S.fprint · ro (S.node e.1)) text ∧
      keyNeeds U ks path (capWrite [] text) fun full => P ro full e.2) :
    Ends (fun n => S.renderMap U ks n (value n) ro path entries b) fun _ => True := by
  have hname : ∀ e ∈ entries, Ends (fun n => S.mapKeyName n ro e.1) fun name =>
      keyNeeds U ks path name fun full => P ro full e.2 := by
    intro e hmem
    obtain ⟨text, htext, hneeds⟩ := he e hmem
    exact htext.map fun _ heq => heq ▸ hneeds
  unfold renderMap
  split
  · exact ends_renderEntries hvalue hname
  · -- Every name is formatted first.
    have hnamed : Ends (fun n => entries.mapM fun e => (S.mapKeyName n ro e.1).map fun name =>
        (name, e.2)) (List.Forall₂ (fun _ x => keyNeeds U ks path x.1 fun full => P ro full x.2)
          entries) :=
      Ends.mapM fun e hmem => (hname e hmem).map fun _ h => h
    refine hnamed.bind fun named hall => ends_renderEntries hvalue fun x hx => ends_pure ?_
    have hx' : x ∈ named := (List.mem_insertionSort _).mp hx
    obtain ⟨i, hi, rfl⟩ := List.getElem_of_mem hx'
    exact hall.get (hall.length_eq ▸ hi) hi

lemma ends_renderElems {ro : RO} {path : Path} (first : Bool) {elems : List N}
    (hv : ∀ v ∈ elems, P ro path v) :
    Ends (fun n => renderElems (value n) ro path first elems b) fun _ => True := by
  induction elems generalizing first b with
  | nil => exact ends_pure trivial
  | cons v elems ih =>
    refine (hvalue _ _ _ _ (hv v List.mem_cons_self)).bind fun out _ => ?_
    split
    · exact ends_pure trivial
    · exact ih false fun v' hv' => hv v' (List.mem_cons_of_mem _ hv')

omit hvalue in
/-- `fmt` returns on a value without parts. -/
lemma ends_fprint_basic (ro : RO) {l : Layer N G} (hl : l.kind = .basic) :
    Ends (S.fprint · ro l) fun _ => True := by
  unfold fprint
  split
  · exact ends_pure trivial
  · cases l with
    | basic t m text => exact ends_pure trivial
    | byte t m x => exact ends_pure trivial
    | _ => cases hl

lemma ends_renderParts {ro : RO} {path : Path} {l : Layer N G}
    (hl : S.partsNeed U ks P ro path l) :
    Ends (fun n => S.renderParts U ks n (value n) ro path l b) fun _ => True := by
  unfold renderParts
  match l with
  | .basic .. => exact (ends_fprint_basic ro rfl).map fun _ _ => trivial
  | .byte .. => exact (ends_fprint_basic ro rfl).map fun _ _ => trivial
  | .pointer _ _ _ none => exact ends_pure trivial
  | .pointer _ _ _ (some e) =>
    dsimp only
    split
    · exact ends_pure trivial
    · next hro => exact hvalue _ _ _ _ (hl.resolve_left hro)
  | .interface _ none => exact ends_pure trivial
  | .interface _ (some e) => exact hvalue _ _ _ _ hl
  | .struct _ _ fields =>
    exact (ends_renderMembers true fun f hf => ends_pure fun _ =>
      ends_underKey ((hl f hf).imp_right (hvalue _ _ _ _))).map fun _ _ => trivial
  | .map _ _ entries => exact (ends_renderMap hvalue hl).map fun _ _ => trivial
  | .sequence _ _ true elems => exact ends_pure trivial
  | .sequence _ _ false elems =>
    exact (ends_renderElems hvalue true hl).map fun _ _ => trivial

omit hvalue in
lemma Returning.renderMethod {nd : Needs N G} (h : Returning nd w) {path : Path} (isNil : Bool)
    {m : MethodResults N G} {method : Method} (hm : S.methodNeeds nd.log path m method) :
    Ends (fun n => S.renderMethod n (w n).log path isNil m b method) fun _ => True := by
  cases method with
  | print =>
    obtain ⟨text, htext⟩ := hm
    exact htext.map fun _ _ => trivial
  | logValue =>
    simp only [Store.renderMethod]
    split
    · exact ends_pure trivial
    · next g hg => exact h.log _ _ _ (hm g hg)
  | _ => exact ends_pure trivial

omit hvalue in
lemma Returning.renderValue {nd : Needs N G} (h : Returning nd w) {ro : RO} {path : Path} {v : N}
    (hv : S.valueNeeds U ks nd ro path v) :
    Ends (fun n => S.renderValue U ks n (w n) ro path v b) fun _ => True := by
  simp only [valueNeeds] at hv
  simp only [Store.renderValue]
  split
  · exact ends_pure trivial
  · split
    · next hro =>
      rw [if_pos hro] at hv
      generalize S.form (S.node v) = form at hv ⊢
      cases form with
      | bytes text => exact ends_pure trivial
      | method isNil m method => exact h.renderMethod isNil hv
      | parts => exact ends_renderParts h.value hv
    · next hro =>
      rw [if_neg hro] at hv
      split
      · exact ends_pure trivial
      · next hs => exact ends_renderParts h.value (hv.resolve_left hs)

omit hvalue in
/-- The walk from any depth. -/
lemma returning_walk (d : ℕ) : Returning (S.needs U ks d) fun n => S.walk U ks n d := by
  induction d with
  | zero => exact ⟨fun _ _ _ _ _ => ends_pure trivial, fun _ _ _ _ => ends_pure trivial⟩
  | succ d ih =>
    refine ⟨fun ro path v b hv => ih.renderValue hv, fun path r b hr => ?_⟩
    match r with
    | .error _ => exact ends_pure trivial
    | .ok (.any none) => exact ends_pure trivial
    | .ok (.any (some v)) => exact ih.renderValue hr
    | .ok (.group attrs) =>
      exact (ends_renderMembers true fun a ha => ends_pure fun _ =>
        ends_underKey ((hr a ha).imp_right (ih.log _ _ _))).map fun _ _ => trivial
    | .ok (.string _) => exact ends_pure trivial
    | .ok (.other _) => exact ends_pure trivial
    | .ok (.valuer ..) => exact ends_pure trivial

end Returns

/-- `render` returns where `fmt` does. -/
lemma ends_render (S : Store N G) (U : Unicode) (ks : KeySet) {v : N} {path : Path}
    (h : S.Prints U ks v path) : Ends (fun n => S.render U ks n v path) fun _ => True :=
  (returning_walk _).value .none path v [] h

/-! ## A result stays when the bound is raised -/

section Raised

variable {S} {U : Unicode} {ks : KeySet}

lemma below_printParts {print print' : RO → Bool → N → Option Bytes}
    (h : ∀ ro top v, Below (print ro top v) (print' ro top v)) (ro : RO) (top : Bool)
    (l : Layer N G) : Below (S.printParts print ro top l) (S.printParts print' ro top l) := by
  match l with
  | .basic .. => exact .refl _
  | .byte .. => exact .refl _
  | .pointer _ _ _ none => exact .refl _
  | .pointer _ _ _ (some e) =>
    simp only [printParts]
    split
    · exact (h _ _ _).map _
    · exact .refl _
  | .interface _ none => exact .refl _
  | .interface _ (some e) => exact h _ _ _
  | .struct _ _ fields => exact (Below.mapM _ fun f => h _ _ _).map _
  | .map _ _ entries =>
    exact (Below.mapM _ fun e => (h _ _ _).bind fun _ => (h _ _ _).map _).map _
  | .sequence _ _ _ elems => exact (Below.mapM _ fun e => h _ _ _).map _

lemma below_printValue (n : ℕ) (ro : RO) (top : Bool) (v : N) :
    Below (S.printValue n ro top v) (S.printValue (n + 1) ro top v) := by
  induction n generalizing ro top v with
  | zero => exact fun _ h => by cases h
  | succ n ih =>
    rw [printValue, printValue]
    split
    · exact .refl _
    · exact below_printParts ih ro top _

lemma below_fprint (n : ℕ) (ro : RO) (l : Layer N G) :
    Below (S.fprint n ro l) (S.fprint (n + 1) ro l) := by
  rw [fprint, fprint]
  split
  · exact .refl _
  · exact below_printParts (below_printValue n) ro true l

lemma below_fprintItself (n : ℕ) (m : MethodResults N G) :
    Below (S.fprintItself n m) (S.fprintItself (n + 1) m) := by
  rw [fprintItself, fprintItself]
  split
  · exact .refl _
  · exact .refl _
  · exact below_fprint n _ _

end Raised

end Secmem.Redact.Store
