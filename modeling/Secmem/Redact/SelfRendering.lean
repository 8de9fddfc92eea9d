import Secmem.Redact.Noninterference

/-!
# Values that render themselves

The walk asks a value that has a rendering method for its text and does not look inside.  Three
places are not the walk's.  A key of a map is named by `fmt`, which knows fewer methods and calls
none on what was reached through an unexported field; a slice or an array of bytes is written by
`byteView`, which calls none; and `fmt.Fprint` takes a `reflect.Value` for what it holds.
-/

namespace Secmem.Redact

open Store

variable {N G : Type}

/-- A type without rendering methods. -/
def plain : Ty := .named [] []

section Taken

variable {U : Unicode} {ks : KeySet} {S : Store N G} {n : ℕ} {ro : RO} {path : Path} {b : Bytes}

lemma capWrite_of_le {p : Bytes} (h : b.length + p.length ≤ renderCap) : capWrite b p = b ++ p := by
  rw [capWrite, List.take_of_length_le (by omega)]

/-- A value without methods is rendered by its parts. -/
lemma walk_plain {l : Layer N G} {v : N} (hv : S.node v = l) (hty : l.ty = plain)
    (hk : l.kind ≠ .interface) (hb : b.length ≤ renderCap) (d : ℕ) :
    (S.walk U ks n (d + 1)).value ro path v b =
      S.renderParts U ks n (S.walk U ks n d).value ro path l b := by
  subst hv
  have hs : (S.node v).selfRendering = false := by
    simp [Layer.selfRendering, hty, plain, Ty.own, Ty.viaPointer]
  have hform : S.form (S.node v) = .parts := by
    rw [form, S.dynamic_of_ne_interface hk, hs, Bool.and_false]
    simp [hty, plain, Ty.own, chooseMethod]
  show S.renderValue U ks n (S.walk U ks n d) ro path v b = _
  rw [renderValue, if_neg (not_lt.mpr hb), hform, hs]
  split <;> rfl

lemma fprint_basic (n : ℕ) {text : Bytes} :
    S.fprint n ro (.basic plain noResults text) = some text := by
  have hasked : S.asked ro (.basic plain noResults text) = none := by
    rw [asked]
    split <;> rfl
  rw [fprint, hasked, printParts]

/-- A key that `fmt` cannot ask is printed field by field. -/
lemma fprint_struct {t : Ty} {m : MethodResults N G} {f : StoredField N} {text : Bytes}
    (hask : ro.canInterface = true → t.printable = false)
    (hf : S.node f.value = .basic plain noResults text) :
    S.fprint (n + 1) ro (.struct t m [f]) = some (bytes "\x7b" ++ text ++ bytes "\x7d") := by
  have hasked : S.asked ro (.struct t m [f]) = none := by
    rw [asked]
    split
    · next hro => simp [dynamic, Layer.ty, hask hro]
    · rfl
  have hown : (Layer.basic plain noResults text : Layer N G).ownText
      (ro.field f.exported f.embedded) false = none := by
    simp [Layer.ownText, Layer.ty, plain, Ty.printable, Ty.own]
  have hprint : S.printValue (n + 1) (ro.field f.exported f.embedded) false f.value =
      some text := by
    rw [printValue, hf, hown, printParts]
  rw [fprint, hasked]
  simp [printParts, hprint, spaced]

lemma keyed_empty (path : Path) (name : Bytes) : (keyed U ⟨[]⟩ path name).sensitive = false := by
  simp [keyed, KeySet.matches]

lemma renderParts_map {value : RenderVal N} {k e : N} {name text : Bytes}
    (hname : S.fprint n ro.ro (S.node k) = some name)
    (hvalue : ∀ full b, b.length ≤ renderCap → value ro.ro full e b = some (capWrite b text))
    (hlen : b.length + name.length + text.length + 100 ≤ renderCap) :
    S.renderParts U ⟨[]⟩ n value ro path (.map plain noResults [(k, e)]) b =
      some (b ++ bytes "map[" ++ name ++ bytes ":" ++ text ++ bytes "]") := by
  have h4 : (bytes "map[").length = 4 := rfl
  have h1 : (bytes ":").length = 1 := rfl
  have hkey : S.mapKeyName n ro.ro k = some name := by
    rw [mapKeyName, hname, Option.map_some, capWrite_of_le (by simp; omega), List.nil_append]
  have hb : ¬ renderCap < (b ++ bytes "map[").length := by simp; omega
  have hcap : capWrite (b ++ bytes "map[") name = b ++ bytes "map[" ++ name :=
    capWrite_of_le (by simp; omega)
  have hw (full : Path) : value ro.ro full e (b ++ bytes "map[" ++ name ++ bytes ":") =
      some (b ++ bytes "map[" ++ name ++ bytes ":" ++ text) := by
    rw [hvalue full _ (by simp; omega), capWrite_of_le (by simp; omega)]
  have hmap : S.renderMap U ⟨[]⟩ n value ro.ro path [(k, e)] (b ++ bytes "map[") =
      some (b ++ bytes "map[" ++ name ++ bytes ":" ++ text) := by
    rw [renderMap, if_neg (by simp [maxSortedMapLen]), List.mapM_cons, hkey]
    show renderEntries U ⟨[]⟩ value ro.ro path (fun x => some x.1) Prod.snd [(name, e)]
      (b ++ bytes "map[") = _
    rw [renderEntries, renderMembers, if_neg hb, separate, if_pos rfl, Option.bind_some, hcap,
      renderField, underKey, keyed_empty, if_neg Bool.false_ne_true, hw]
    rfl
  rw [renderParts, hmap, Option.map_some]

/-- A map in a field, with a key that `fmt` cannot ask. -/
lemma render_tokens {t : Ty} {m : MethodResults N G} {exported : Bool} {v tokens key one : N}
    {f : StoredField N} {text : Bytes} (hask : exported = true → t.printable = false)
    (hv : S.node v = .struct plain noResults [⟨bytes "Kept", exported, false, tokens⟩])
    (htokens : S.node tokens = .map plain noResults [(key, one)])
    (hkey : S.node key = .struct t m [f])
    (hf : S.node f.value = .basic plain noResults text)
    (hone : S.node one = .basic plain noResults (bytes "1")) (hlen : text.length ≤ 1000) (n : ℕ) :
    S.render U ⟨[]⟩ (n + 1) v [] =
      some (bytes "\x7bKept:map[\x7b" ++ text ++ bytes "\x7d:1]\x7d") := by
  have hask' : (RO.none.field exported false).ro.canInterface = true → t.printable = false := by
    cases exported with
    | false => exact fun h => by cases h
    | true => exact fun _ => hask rfl
  have hone' (full : Path) (b : Bytes) (hb : b.length ≤ renderCap) :
      (S.walk U ⟨[]⟩ (n + 1) 7).value (RO.none.field exported false).ro full one b =
        some (capWrite b (bytes "1")) := by
    rw [walk_plain hone rfl (fun h => by cases h) hb 6, renderParts, fprint_basic, Option.map_some]
  have hlen' : (bytes "\x7b" ++ bytes "Kept" ++ bytes ":").length +
      (bytes "\x7b" ++ text ++ bytes "\x7d").length + (bytes "1").length + 100 ≤ renderCap := by
    rw [List.length_append, List.length_append, List.length_append, List.length_append]
    exact le_trans (Nat.add_le_add_right (Nat.add_le_add_right (Nat.add_le_add_left
      (Nat.add_le_add_right (Nat.add_le_add_left hlen _) _) _) _) _) (by decide)
  have hjoin : bytes "\x7bKept:map[\x7b" = bytes "\x7b" ++ bytes "Kept" ++ bytes ":" ++
      bytes "map[" ++ bytes "\x7b" ∧ bytes "\x7d:1]\x7d" =
      bytes "\x7d" ++ bytes ":" ++ bytes "1" ++ bytes "]" ++ bytes "\x7d" := by decide +kernel
  rw [render, walk_plain hv rfl (fun h => by cases h) (by decide), renderParts, renderFields,
    renderMembers, if_neg (by decide), Option.bind_some, renderField, underKey, keyed_empty,
    if_neg Bool.false_ne_true, separate, if_pos rfl]
  dsimp only [maxRenderDepth, List.nil_append]
  rw [walk_plain htokens rfl (fun h => by cases h) (by decide) 7,
    renderParts_map (by rw [hkey]; exact fprint_struct hask' hf) hone' hlen', hjoin.1, hjoin.2]
  simp [renderMembers]

/-- A slice of bytes, whatever methods their type has. -/
lemma render_digits {t : Ty} {m : MethodResults N G} {v d : N} {x : UInt8}
    (hv : S.node v = .sequence plain noResults true [d]) (hd : S.node d = .byte t m x) (n : ℕ) :
    S.render U ks n v path = some [x] := by
  rw [render, walk_plain hv rfl (fun h => by cases h) (by decide), renderParts, byteView,
    List.map_singleton, hd]
  rfl

/-- A `reflect.Value` that can be asked. -/
lemma render_reflected {v x : N} {text : Bytes} (hk : (S.node v).kind ≠ .interface)
    (hp : (S.node v).ty.printable = true)
    (hm : (S.node v).results.reflects = some (.none, some x))
    (hx : S.node x = .basic plain noResults text) (hlen : text.length ≤ renderCap) (n : ℕ) :
    S.render U ks n v path = some text := by
  have hty : (S.node v).ty ≠ .byteSlice := fun h => by rw [h] at hp; cases hp
  have hmethod : chooseMethod (S.node v).ty.own = some .print := if_pos hp
  have hform : S.form (S.node v) = .method (S.node v).isNilPointer (S.node v).results .print := by
    rw [form, S.dynamic_of_ne_interface hk]
    simp [hty, hmethod]
  show S.renderValue U ks n (S.walk U ks n maxRenderDepth) .none path v [] = some text
  rw [renderValue, if_neg (by decide), if_pos (show RO.none.canInterface = true from rfl), hform]
  simp only [renderMethod, fprintItself, hm, hx, fprint_basic, Option.map_some]
  rw [capWrite_of_le (by simpa using hlen), List.nil_append]

end Taken

/-- Places with a secret in them. -/
inductive TokenPlace
  | holder (secret : Bytes)
  | tokens (secret : Bytes)
  | token (secret : Bytes)
  | secret (secret : Bytes)
  | one
  | digits (b : UInt8)
  | digit (b : UInt8)

/-- A token is a struct with a `MarshalText` that redacts it, and a digit a `uint8` with such a
`String`. -/
def tokenStore : Store TokenPlace Empty where
  node
    | .holder x => .struct plain noResults
        [⟨bytes "Shown", true, false, .token x⟩, ⟨bytes "kept", false, false, .token x⟩]
    | .tokens x => .map plain noResults [(.token x, .one)]
    | .token x => .struct (.named [.textMarshaler] [.textMarshaler])
        ⟨[], none, .text (bytes "[REDACTED]"), none, .failed, []⟩
        [⟨bytes "Value", true, false, .secret x⟩]
    | .secret x => .basic plain noResults x
    | .one => .basic plain noResults (bytes "1")
    | .digits b => .sequence plain noResults true [.digit b]
    | .digit b => .byte (.named [.stringer] [.stringer])
        ⟨bytes "*", none, .failed, none, .failed, []⟩ b
  log g := g.elim
  order keys := List.range keys.length

/-- Tokens are alike, and so are the structs that hold them. -/
def tokensAlike : Alikeness asciiTables tokenStore fun _ _ => False where
  value _ _ v w := (∃ a b, v = .holder a ∧ w = .holder b) ∨ ∃ a b, v = .token a ∧ w = .token b
  print _ _ _ := False
  log _ _ _ := False
  value_step h := by
    obtain ⟨a, b, rfl, rfl⟩ | ⟨a, b, rfl, rfl⟩ := h
    · have htoken : (∃ x y, TokenPlace.token a = .holder x ∧ TokenPlace.token b = .holder y) ∨
          ∃ x y, TokenPlace.token a = .token x ∧ TokenPlace.token b = .token y :=
        .inr ⟨a, b, rfl, rfl⟩
      exact .struct _ _
        (.cons ⟨rfl, rfl, rfl, .inr htoken⟩ (.cons ⟨rfl, rfl, rfl, .inr htoken⟩ .nil))
    · exact .rendered (fun h => by cases h) rfl rfl rfl (.refl _)
  print_step h := h.elim
  log_step h := h.elim

end Secmem.Redact
