import Secmem.Redact.Values

/-!
# `redact/handler.go`

The `slog` handler that redacts every record before the handler it wraps sees it.

A key is split into components, and a key is sensitive when an entry of the key set occurs in the
path of components that leads to it and reaches into its own.  An `Any` value is rendered as text
by a walk over its parts, which is bounded in depth; `walk n` is the walk with `n` levels left, and
holds both `renderValue` and `renderLogValue`, which call each other.  The text built so far is
passed along because the bounds on its size are tested on the way.

The walk needs no bound of its own, but `fmt` and `sanitizeAttr` have none, so what they do is given
up to a depth of calls, with `none` where more would be needed.  The tables of Unicode are a
parameter.
-/

namespace Secmem.Redact

open Utf8

/-! ## Sensitive keys -/

/-- What is used of the packages `unicode` and `strings`. -/
structure Unicode where
  isLetter : ℕ → Bool
  isNumber : ℕ → Bool
  isMark : ℕ → Bool
  isDigit : ℕ → Bool
  isUpper : ℕ → Bool
  isLower : ℕ → Bool
  toLower : Bytes → Bytes

section Keys

variable (U : Unicode)

/-- Whether a component ends before the rune `r`, which follows `prev`. -/
def boundary (prev r : ℕ) (next : Option ℕ) : Bool :=
  U.isDigit r != U.isDigit prev ||
    (U.isUpper r && U.isLower prev) ||
    (U.isUpper r && U.isUpper prev && (next.map U.isLower).getD false)

def flush (cur : List ℕ) : List Bytes :=
  if cur = [] then [] else [U.toLower (text cur)]

/-- The loop of `splitKey`: `prev` is the rune before, `cur` the component so far. -/
def splitRunes (prev : ℕ) (cur : List ℕ) : List ℕ → List Bytes
  | [] => flush U cur
  | r :: rest =>
    if !U.isLetter r && !U.isNumber r && !U.isMark r then
      flush U cur ++ splitRunes r [] rest
    else if cur ≠ [] ∧ boundary U prev r rest.head? = true then
      flush U cur ++ splitRunes r [r] rest
    else splitRunes r (cur ++ [r]) rest

def splitKey (key : Bytes) : List Bytes :=
  splitRunes U 0 [] ((runes key).map Rune.rune)

/-- The components that lead to a value. -/
abbrev Path := List Bytes

def appendPath (path comps : Path) : Path := path ++ comps

structure KeySet where
  entries : List (List Bytes)

def newKeySet (names : List Bytes) : KeySet :=
  ⟨(names.map (splitKey U)).filter (· ≠ [])⟩

/-- `match`: an entry occurs in the path and ends past the start of the key's own components. -/
def KeySet.matches (ks : KeySet) (path : Path) (keyComps : ℕ) : Bool :=
  if keyComps = 0 ∨ path = [] then false
  else
    let keyStart := path.length - keyComps
    ks.entries.any fun e =>
      decide (e.length ≤ path.length) &&
        (List.range (path.length + 1 - e.length)).any fun i =>
          decide (keyStart + 1 - e.length ≤ i) && decide ((path.drop i).take e.length = e)

def defaultSensitiveKeys : List Bytes :=
  ["password", "passwd", "pwd", "pass", "passphrase", "passcode",
    "secret", "secret_key", "client_secret", "api_secret",
    "token", "access_token", "refresh_token", "id_token", "session_token", "jwt",
    "api_key", "apikey", "x_api_key",
    "authorization", "auth", "bearer",
    "cookie", "cookies", "set_cookie", "session",
    "private_key", "privatekey", "signing_key", "secret_access_key",
    "credential", "credentials"].map bytes

/-- The path of a member, and whether its name is sensitive there. -/
structure Keyed where
  full : Path
  sensitive : Bool

def keyed (ks : KeySet) (path : Path) (name : Bytes) : Keyed :=
  let comps := splitKey U name
  let full := appendPath path comps
  ⟨full, ks.matches full comps.length⟩

end Keys

/-- The ASCII part of the tables. -/
def asciiTables : Unicode where
  isLetter r := (Nat.ble 65 r && Nat.ble r 90) || (Nat.ble 97 r && Nat.ble r 122)
  isNumber r := Nat.ble 48 r && Nat.ble r 57
  isMark _ := false
  isDigit r := Nat.ble 48 r && Nat.ble r 57
  isUpper r := Nat.ble 65 r && Nat.ble r 90
  isLower r := Nat.ble 97 r && Nat.ble r 122
  toLower s := s.map fun b => if 65 ≤ b ∧ b ≤ 90 then b + 32 else b

/-! ## Rendering -/

def keyTag : Bytes := bytes "[REDACTED:key]"

def unexportedTag : Bytes := bytes "[REDACTED:unexported]"

def panicTag : Bytes := bytes "[REDACTED:panic]"

def marshalErrorTag : Bytes := bytes "[REDACTED:marshal_error]"

def renderCap : ℕ := 65536

def maxRenderDepth : ℕ := 8

def maxSortedMapLen : ℕ := 1024

/-- A write through `capWriter`. -/
def capWrite (b p : Bytes) : Bytes := b ++ p.take (renderCap - b.length)

/-- The stand-in that `callGuarded` leaves for a method that panicked. -/
def guarded (isNil : Bool) : Bytes := if isNil = true then nilText else panicTag

def writeMarshaled (b : Bytes) (isNil : Bool) : Marshaled → Bytes
  | .text t => capWrite b t
  | .failed => b ++ marshalErrorTag
  | .panicked => b ++ guarded isNil

/-- The method `renderByMethod` chooses. -/
inductive Method
  | print
  | marshalText
  | logValue
  | marshalJSON
  | goString
  deriving DecidableEq, Repr

def chooseMethod (ifaces : List Iface) : Option Method :=
  if ifaces.contains .formatter || ifaces.contains .error || ifaces.contains .stringer then
    some .print
  else if ifaces.contains .textMarshaler then some .marshalText
  else if ifaces.contains .logValuer then some .logValue
  else if ifaces.contains .jsonMarshaler then some .marshalJSON
  else if ifaces.contains .goStringer then some .goString
  else none

/-- A blank before every member but the first. -/
def separate (first : Bool) (b : Bytes) : Bytes := if first = true then b else b ++ [32]

variable {N G : Type}

/-- How `renderValue` goes about a value whose methods it can call. -/
inductive Form (N G : Type)
  /-- As bytes. -/
  | bytes (text : Bytes)
  /-- With a method of the value or of the pointer to it. -/
  | method (isNil : Bool) (m : MethodResults N G) (method : Method)
  /-- By its parts. -/
  | parts

/-- Text to which a value, or what `Resolve` gave of a `slog.Value`, is appended. -/
abbrev RenderVal (N : Type) := RO → Path → N → Bytes → Option Bytes

abbrev RenderLog (N G : Type) := Path → Except Bytes (LogLayer N G) → Bytes → Option Bytes

namespace Store

variable (S : Store N G)

/-- The value's own methods come first, and those of the pointer to it after them. -/
def form (l : Layer N G) : Form N G :=
  let own := (S.dynamic l).bind fun x =>
    if x.ty = .byteSlice then some (.bytes (S.byteView x))
    else (chooseMethod x.ty.own).map (.method l.isNilPointer x.results)
  let address :=
    if l.kind.addressed && l.selfRendering then
      (chooseMethod l.ty.viaPointer).map (.method false l.results)
    else none
  (own.or address).getD .parts

/-- A method that `renderByMethod` has chosen; `log` renders a `slog.Value` one level down. -/
def renderMethod (n : ℕ) (log : RenderLog N G) (path : Path) (isNil : Bool)
    (m : MethodResults N G) (b : Bytes) : Method → Option Bytes
  | .print => (S.fprintItself n m).map (capWrite b)
  | .marshalText => some (writeMarshaled b isNil m.text)
  | .logValue =>
    match m.log with
    | none => some (b ++ guarded isNil)
    | some g => log path (S.resolve (S.log g)) b
  | .marshalJSON => some (writeMarshaled b isNil m.json)
  | .goString => some (capWrite b m.goString)

section Render

variable (U : Unicode) (ks : KeySet) (n : ℕ)

/-- `renderValue` and `renderLogValue` at one depth. -/
structure Walk (N G : Type) where
  value : RenderVal N
  log : RenderLog N G

/-- The tag where the name is sensitive, or what is `shown` under its path. -/
def underKey (path : Path) (name : Bytes) (b : Bytes) (shown : Path → Option Bytes) :
    Option Bytes :=
  let k := keyed U ks path name
  if k.sensitive = true then some (b ++ keyTag) else shown k.full

/-- `renderField`, with the walk one level down. -/
def renderField (value : RenderVal N) (ro : RO) (path : Path) (name : Bytes) (v : N) (b : Bytes) :
    Option Bytes :=
  underKey U ks path name b fun full => value ro full v b

/-- The loops over the fields of a struct, the entries of a map and the members of a group.  `put`
writes the name of a member, which for an entry `fmt` may not return, and `member` what follows. -/
def renderMembers {γ : Type} (put : Bytes → Bytes → Bytes) (name : γ → Option Bytes)
    (member : γ → Bytes → Bytes → Option Bytes) : Bool → List γ → Bytes → Option Bytes
  | _, [], b => some b
  | first, x :: xs, b =>
    if renderCap < b.length then some b
    else
      (name x).bind fun text => (member x text (put (separate first b) text)).bind
        (renderMembers put name member false xs)

/-- The fields of a struct. -/
def renderFields (value : RenderVal N) (ro : RO) (path : Path) (fields : List (StoredField N)) :
    Bytes → Option Bytes :=
  renderMembers (fun b name => b ++ name ++ bytes ":") (fun f => some f.name)
    (fun f name => renderField U ks value (ro.field f.exported f.embedded) path name f.value)
    true fields

/-- `mapKeyName`, by way of `fmt.Fprint`. -/
def mapKeyName (ro : RO) (k : N) : Option Bytes := (S.fprint n ro (S.node k)).map (capWrite [])

/-- The loops of `renderMap`, over the values and their names. -/
def renderEntries {γ : Type} (value : RenderVal N) (ro : RO) (path : Path)
    (name : γ → Option Bytes) (elem : γ → N) (entries : List γ) : Bytes → Option Bytes :=
  renderMembers (fun b name => capWrite b name ++ bytes ":") name
    (fun e name => renderField U ks value ro path name (elem e)) true entries

/-- `renderMap`: a large map has its keys formatted as they come, any other before the first entry
is written. -/
def renderMap (value : RenderVal N) (ro : RO) (path : Path)
    (entries : List (N × N)) (b : Bytes) : Option Bytes :=
  if maxSortedMapLen < entries.length then
    renderEntries U ks value ro path (fun e => S.mapKeyName n ro e.1) Prod.snd entries b
  else
    (entries.mapM fun e => (S.mapKeyName n ro e.1).map fun name => (name, e.2)).bind fun named =>
      renderEntries U ks value ro path (fun e => some e.1) Prod.snd
        (named.insertionSort fun x y => ¬ y.1 < x.1) b

/-- The elements of a slice or an array. -/
def renderElems (value : RenderVal N) (ro : RO) (path : Path) :
    Bool → List N → Bytes → Option Bytes
  | _, [], b => some b
  | first, v :: elems, b =>
    (value ro path v (separate first b)).bind fun b =>
      if renderCap < b.length then some b else renderElems value ro path false elems b

/-- The switch on the kind in `renderValue`. -/
def renderParts (value : RenderVal N) (ro : RO) (path : Path)
    (l : Layer N G) (b : Bytes) : Option Bytes :=
  match l with
  | .pointer _ _ _ none => some (b ++ nilText)
  | .pointer _ _ _ (some e) =>
    if ro.canInterface = false then some (b ++ bytes "<ptr>")
    else value ro path e (if (S.node e).kind = .struct then b ++ bytes "&" else b)
  | .interface _ none => some (b ++ nilText)
  | .interface _ (some e) => value ro.ro path e b
  | .struct _ _ fields =>
    (renderFields U ks value ro path fields (b ++ bytes "\x7b")).map (· ++ bytes "\x7d")
  | .map _ _ entries =>
    (S.renderMap U ks n value ro.ro path entries (b ++ bytes "map[")).map (· ++ bytes "]")
  | .sequence _ _ true _ => some (capWrite b (S.byteView l))
  | .sequence _ _ false elems =>
    (renderElems value ro.ro path true elems (b ++ bytes "[")).map (· ++ bytes "]")
  | .basic .. => (S.fprint n ro l).map (capWrite b)
  | .byte .. => (S.fprint n ro l).map (capWrite b)

/-- `renderValue`, with the walk one level down. -/
def renderValue (below : Walk N G) (ro : RO) (path : Path) (v : N) (b : Bytes) : Option Bytes :=
  let l := S.node v
  if renderCap < b.length then some b
  else if ro.canInterface = true then
    match S.form l with
    | .bytes text => some (capWrite b text)
    | .method isNil m method => S.renderMethod n below.log path isNil m b method
    | .parts => S.renderParts U ks n below.value ro path l b
  else if l.selfRendering = true then some (b ++ unexportedTag)
  else S.renderParts U ks n below.value ro path l b

/-- The members of a group. -/
def renderAttrs (log : RenderLog N G) (path : Path) (attrs : List (Bytes × G)) :
    Bytes → Option Bytes :=
  renderMembers (fun b key => capWrite b key ++ bytes "=") (fun a => some a.1)
    (fun a key b => underKey U ks path key b fun full => log full (S.resolve (S.log a.2)) b)
    true attrs

/-- `renderLogValue` of what `Resolve` gave; an `Any` is rendered by `value` at the same depth, and
the error of `Resolve` is one. -/
def renderLogValue (below : Walk N G) (value : RenderVal N) (path : Path)
    (r : Except Bytes (LogLayer N G)) (b : Bytes) : Option Bytes :=
  match r with
  | .error e => some (if renderCap < b.length then b else capWrite b e)
  | .ok (.any none) => some (if renderCap < b.length then b else b ++ nilText)
  | .ok (.any (some v)) => value .none path v b
  | .ok (.group attrs) =>
    (S.renderAttrs U ks below.log path attrs (b ++ bytes "[")).map (· ++ bytes "]")
  | .ok (.string s) => some (capWrite b s)
  | .ok (.other t) => some (capWrite b t)
  | .ok (.valuer ..) => some b

/-- The walk with so many levels left. -/
def walk : ℕ → Walk N G
  | 0 =>
    { value := fun _ _ _ b => some (if renderCap < b.length then b else b ++ bytes "...")
      log := fun _ _ b => some (b ++ bytes "...") }
  | d + 1 =>
    let value := S.renderValue U ks n (walk d)
    { value := value, log := S.renderLogValue U ks (walk d) value }

/-- `render`, with so many calls of `printValue` inside each other at most. -/
def render (v : N) (path : Path) : Option Bytes :=
  (S.walk U ks n (maxRenderDepth + 1)).value .none path v []

end Render

end Store

/-! ## Attributes -/

/-- A `slog.Value` as the handler passes it on. -/
inductive Passed
  | string (s : Bytes)
  | other (text : Bytes)
  | nil
  | group (attrs : List (Bytes × Passed))

/-- What `slog.GroupValue` and `Record.AddAttrs` drop. -/
def Passed.isEmptyGroup : Passed → Bool
  | group [] => true
  | _ => false

def dropEmptyGroups (attrs : List (Bytes × Passed)) : List (Bytes × Passed) :=
  attrs.filter fun a => !a.2.isEmptyGroup

namespace Store

variable (S : Store N G) (U : Unicode) (ks : KeySet) (s : Sanitizer)

/-- The switch of `sanitizeAttr` on the kind, for a key that is not sensitive; `attr` is the call
one level down. -/
def sanitizeValue (n : ℕ) (attr : Path → Bool → Bytes → LogLayer N G → Option (Bytes × Passed))
    (path full : Path) (redactAll : Bool) (key : Bytes) (l : LogLayer N G) :
    Option (Bytes × Passed) :=
  match l with
  | .string x => some (key, .string (s.sanitize x))
  | .group attrs =>
    (attrs.mapM fun a => attr full false a.1 (S.log a.2)).map fun out =>
      (key, .group (dropEmptyGroups out))
  | .valuer .. =>
    match S.resolve l with
    | .ok l' => attr path redactAll key l'
    | .error e => some (key, .string (s.sanitize (capWrite [] e)))
  | .any none => some (key, .nil)
  | .any (some v) => (S.render U ks n v full).map fun text => (key, .string (s.sanitize text))
  | .other t => some (key, .other t)

/-- `sanitizeAttr`, with so many calls inside each other at most. -/
def sanitizeAttr : ℕ → Path → Bool → Bytes → LogLayer N G → Option (Bytes × Passed)
  | 0, _, _, _, _ => none
  | n + 1, path, redactAll, key, l =>
    let k := keyed U ks path key
    if redactAll = true ∨ k.sensitive = true then some (key, .string keyTag)
    else S.sanitizeValue U ks s n (sanitizeAttr n) path k.full redactAll key l

end Store

/-! ## The handler -/

structure Handler where
  sanitizer : Sanitizer
  keys : KeySet
  path : Path
  redactAll : Bool

/-- A call on a handler: on the wrapping one, and with what it passes on, on the one it wraps. -/
inductive Call (V : Type)
  | withGroup (name : Bytes)
  | withAttrs (attrs : List (Bytes × V))
  | handle (message : Bytes) (attrs : List (Bytes × V))

inductive HandlerOption
  | withSensitiveKeys (keys : List Bytes)
  | withoutDefaultSensitiveKeys

/-- The names added by the options, in order. -/
def HandlerOption.keys : HandlerOption → List Bytes
  | withSensitiveKeys keys => keys
  | withoutDefaultSensitiveKeys => []

def HandlerOption.noDefaults : HandlerOption → Bool
  | withSensitiveKeys _ => false
  | withoutDefaultSensitiveKeys => true

def newHandler (U : Unicode) (s : Sanitizer) (opts : List HandlerOption) : Handler :=
  let defaults := if opts.any HandlerOption.noDefaults then [] else defaultSensitiveKeys
  ⟨s, newKeySet U (defaults ++ opts.flatMap HandlerOption.keys), [], false⟩

/-- `WithGroup`: the handler it leaves. -/
def Handler.withGroup (U : Unicode) (h : Handler) (name : Bytes) : Handler :=
  if name = [] then h
  else
    let k := keyed U h.keys h.path name
    { h with path := k.full, redactAll := h.redactAll || k.sensitive }

namespace Store

variable (S : Store N G) (U : Unicode) (n : ℕ)

/-- The attributes of a call, one after the other. -/
def sanitizeAll (h : Handler) (attrs : List (Bytes × G)) : Option (List (Bytes × Passed)) :=
  attrs.mapM fun a => S.sanitizeAttr U h.keys h.sanitizer n h.path h.redactAll a.1 (S.log a.2)

/-- `WithAttrs`: what it passes on. -/
def withAttrs (h : Handler) (attrs : List (Bytes × G)) : Option (List (Call Passed)) :=
  if attrs = [] then some []
  else (S.sanitizeAll U n h attrs).map fun out => [.withAttrs out]

/-- `Handle`: what it passes on. -/
def handle (h : Handler) (message : Bytes) (attrs : List (Bytes × G)) :
    Option (List (Call Passed)) :=
  (S.sanitizeAll U n h attrs).map fun out =>
    [.handle (h.sanitizer.sanitize message) (dropEmptyGroups out)]

/-- What a sequence of calls, each on the handler the last one left, passes on. -/
def calls (h : Handler) : List (Call G) → Option (List (Call Passed))
  | [] => some []
  | .withGroup name :: cs =>
    (calls (h.withGroup U name) cs).map ((if name = [] then [] else [.withGroup name]) ++ ·)
  | .withAttrs attrs :: cs =>
    (S.withAttrs U n h attrs).bind fun out => (calls h cs).map (out ++ ·)
  | .handle message attrs :: cs =>
    (S.handle U n h message attrs).bind fun out => (calls h cs).map (out ++ ·)

end Store
end Secmem.Redact
