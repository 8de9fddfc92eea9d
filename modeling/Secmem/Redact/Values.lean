import Secmem.Redact.Sanitizer

/-!
# Values as the handler sees them

What `redact/handler.go` reads of a Go value through `reflect`, of a `slog.Value`, and of the
printing of `fmt`.

A value is a place in a store, which shows one layer of it at a time: in Go a pointer, a slice or a
map may lead back to where it was reached from, and a `LogValue` builds what it returns when it is
called, again and again.  A type is here the rendering interfaces it implements, and a layer carries
what the rendering methods of the value return.  Its parts are those that `reflect` reaches: fields
with their names, elements, entries in the order in which the map is iterated.  `RO` is the flag by
which `reflect` forbids calling methods on what was reached through an unexported field.

`fprint` is `fmt.Fprint` of a `reflect.Value`.  The handler uses it for basic values, for the keys
of maps and for a value that is a `reflect.Value` itself.  `fmt` has no bound on the depth to which
it follows a value, so what it does is given up to a depth of calls, with `none` where more would be
needed.
-/

namespace Secmem.Redact

/-! ## Types -/

/-- The interfaces through which a value controls its own textual form. -/
inductive Iface
  | formatter
  | error
  | stringer
  | textMarshaler
  | logValuer
  | jsonMarshaler
  | goStringer
  deriving DecidableEq, Repr

/-- What is used of a `reflect.Type`: whether it is `[]byte` itself, and otherwise the rendering
interfaces of the type and of the pointer to it. -/
inductive Ty
  | byteSlice
  | named (own viaPointer : List Iface)
  deriving DecidableEq, Repr

namespace Ty

/-- The rendering interfaces the type implements. -/
def own : Ty → List Iface
  | byteSlice => []
  | named own _ => own

/-- The rendering interfaces the pointer to the type implements. -/
def viaPointer : Ty → List Iface
  | byteSlice => []
  | named _ viaPointer => viaPointer

/-- Whether `fmt` prints a value with its own methods for `%v`. -/
def printable (t : Ty) : Bool :=
  t.own.contains .formatter || t.own.contains .error || t.own.contains .stringer

end Ty

/-- What a `MarshalText` or a `MarshalJSON` comes to. -/
inductive Marshaled
  | text (b : Bytes)
  | failed
  | panicked
  deriving DecidableEq, Repr

/-- What is used of a `reflect.Kind`, with whether a pointer is nil. -/
inductive Kind
  | basic
  | pointer (isNil : Bool)
  | interface
  | struct
  | map
  | sequence
  deriving DecidableEq, Repr

/-- Whether the methods of the pointer to a value count for it. -/
def Kind.addressed : Kind → Bool
  | pointer _ => false
  | interface => false
  | _ => true

/-! ## Unexported fields -/

/-- The flags `flagEmbedRO` and `flagStickyRO`. -/
inductive RO
  | none
  | embed
  | sticky
  deriving DecidableEq, Repr

namespace RO

/-- `CanInterface`. -/
def canInterface : RO → Bool
  | none => true
  | _ => false

/-- `flag.ro`, for what is reached through an element, an entry or an interface. -/
def ro : RO → RO
  | none => none
  | _ => sticky

/-- The flag of a field: an embedded field does not pass its own on. -/
def field (r : RO) (exported embedded : Bool) : RO :=
  if r = sticky then sticky
  else if exported = true then none
  else if embedded = true then embed
  else sticky

end RO

/-! ## Values -/

/-- What the rendering methods of a value return, called on it or on its address: what `fmt` prints
for `Format`, `Error` or `String` and for `GoString`, a panic included, and the results of the
others, where a `log` that is `none` is a `LogValue` that panicked.  `reflects` is what a
`reflect.Value` holds, if the value is one: `fmt.Fprint` prints that in its place. -/
structure MethodResults (N G : Type) where
  printed : Bytes
  reflects : Option (RO × Option N)
  text : Marshaled
  log : Option G
  json : Marshaled
  goString : Bytes

structure StoredField (N : Type) where
  name : Bytes
  exported : Bool
  embedded : Bool
  value : N

/-- One layer of a value as `reflect` shows it. -/
inductive Layer (N G : Type)
  /-- A number, a string, a channel, a function: what `fmt` prints of it. -/
  | basic (t : Ty) (m : MethodResults N G) (text : Bytes)
  /-- A value whose kind is `uint8`. -/
  | byte (t : Ty) (m : MethodResults N G) (b : UInt8)
  | pointer (t : Ty) (m : MethodResults N G) (address : Bytes) (elem : Option N)
  | interface (t : Ty) (elem : Option N)
  | struct (t : Ty) (m : MethodResults N G) (fields : List (StoredField N))
  | map (t : Ty) (m : MethodResults N G) (entries : List (N × N))
  /-- A slice or an array; `bytes` where the kind of its elements is `uint8`. -/
  | sequence (t : Ty) (m : MethodResults N G) (bytes : Bool) (elems : List N)

/-- One layer of a `slog.Value`; `other` is a number, a boolean, a time or a duration.  A
`LogValuer` comes with the name of its type and with what its `LogValue` returns, or the text of the
error that stands for its panic. -/
inductive LogLayer (N G : Type)
  | string (s : Bytes)
  | other (text : Bytes)
  | group (attrs : List (Bytes × G))
  | valuer (typeName : Bytes) (result : Except Bytes G)
  | any (v : Option N)

/-- Values and `slog.Value`s, each known by its place; `order` is the order in which `fmt` prints
the keys of a map. -/
structure Store (N G : Type) where
  node : N → Layer N G
  log : G → LogLayer N G
  order : List N → List ℕ

variable {N G : Type}

/-- The methods of a value whose type has none. -/
def noResults : MethodResults N G := ⟨[], none, .failed, none, .failed, []⟩

def decimal (b : UInt8) : Bytes := bytes (toString b.toNat)

def nilText : Bytes := bytes "<nil>"

/-- Texts with blanks between them. -/
def spaced (texts : List Bytes) : Bytes := [32].intercalate texts

namespace Layer

def kind : Layer N G → Kind
  | basic .. => .basic
  | byte .. => .basic
  | pointer _ _ _ elem => .pointer elem.isNone
  | interface .. => .interface
  | struct .. => .struct
  | map .. => .map
  | sequence .. => .sequence

def ty : Layer N G → Ty
  | basic t _ _ => t
  | byte t _ _ => t
  | pointer t _ _ _ => t
  | interface t _ => t
  | struct t _ _ => t
  | map t _ _ => t
  | sequence t _ _ _ => t

def results : Layer N G → MethodResults N G
  | basic _ m _ => m
  | byte _ m _ => m
  | pointer _ m _ _ => m
  | interface _ _ => noResults
  | struct _ m _ => m
  | map _ m _ => m
  | sequence _ m _ _ => m

def isNilPointer (l : Layer N G) : Bool := l.kind == .pointer true

/-- `selfRendering`, of the value's type. -/
def selfRendering (l : Layer N G) : Bool :=
  !l.ty.own.isEmpty || (l.kind.addressed && !l.ty.viaPointer.isEmpty)

def toByte : Layer N G → UInt8
  | byte _ _ b => b
  | _ => 0

/-- A pointer to it is one that `fmt` follows at the top. -/
def followed (l : Layer N G) : Bool := l.kind == .struct || l.kind == .map || l.kind == .sequence

/-- What the value's own methods print where `printValue` calls them. -/
def ownText (ro : RO) (top : Bool) (l : Layer N G) : Option Bytes :=
  if !top && ro.canInterface && l.ty.printable && l.kind != .interface then some l.results.printed
  else none

/-- The names of the fields of a struct. -/
def names : Layer N G → List Bytes
  | struct _ _ fields => fields.map StoredField.name
  | _ => []

end Layer

namespace Store

variable (S : Store N G)

/-- The value `Interface` returns: that in an interface, and any other itself. -/
def dynamic : Layer N G → Option (Layer N G)
  | .interface _ elem => elem.map S.node
  | l => some l

/-- `byteView`; no other value than a sequence of bytes has one. -/
def byteView : Layer N G → Bytes
  | .sequence _ _ true elems => elems.map fun e => (S.node e).toByte
  | _ => []

/-! ## `fmt` -/

/-- The switch on the kind in `printValue`; `print` is the call one level down. -/
def printParts (print : RO → Bool → N → Option Bytes) (ro : RO) (top : Bool) :
    Layer N G → Option Bytes
  | .basic _ _ text => some text
  | .byte _ _ b => some (decimal b)
  | .pointer _ _ _ none => some nilText
  | .pointer _ _ address (some e) =>
    if top = true ∧ (S.node e).followed = true then
      (print ro false e).map fun text => bytes "&" ++ text
    else some address
  | .interface _ none => some nilText
  | .interface _ (some e) => print ro.ro false e
  | .struct _ _ fields =>
    (fields.mapM fun f => print (ro.field f.exported f.embedded) false f.value).map
      fun texts => bytes "\x7b" ++ spaced texts ++ bytes "\x7d"
  | .map _ _ entries =>
    (entries.mapM fun e => (print ro.ro false e.1).bind fun key =>
        (print ro.ro false e.2).map fun text => key ++ bytes ":" ++ text).map
      fun texts => bytes "map[" ++
        spaced ((S.order (entries.map Prod.fst)).filterMap fun i => texts[i]?) ++ bytes "]"
  | .sequence _ _ _ elems =>
    (elems.mapM fun e => print ro.ro false e).map
      fun texts => bytes "[" ++ spaced texts ++ bytes "]"

/-- `printValue`, of `%v`, with so many calls inside each other at most. -/
def printValue : ℕ → RO → Bool → N → Option Bytes
  | 0, _, _, _ => none
  | n + 1, ro, top, v =>
    match (S.node v).ownText ro top with
    | some text => some text
    | none => S.printParts (printValue n) ro top (S.node v)

/-- What `handleMethods` prints for what `Interface` returns. -/
def asked (ro : RO) (l : Layer N G) : Option Bytes :=
  if ro.canInterface = true then
    (S.dynamic l).bind fun x => if x.ty.printable = true then some x.results.printed else none
  else none

/-- `fmt.Fprint` of a `reflect.Value`, with so many calls of `printValue` inside the first. -/
def fprint (n : ℕ) (ro : RO) (l : Layer N G) : Option Bytes :=
  match S.asked ro l with
  | some text => some text
  | none => S.printParts (S.printValue n) ro true l

/-- `fmt.Fprint` of a value with `Format`, `Error` or `String`. -/
def fprintItself (n : ℕ) (m : MethodResults N G) : Option Bytes :=
  match m.reflects with
  | none => some m.printed
  | some (_, none) => some (bytes "<invalid reflect.Value>")
  | some (ro, some v) => S.fprint n ro (S.node v)

/-! ## `Value.Resolve` -/

def maxLogValues : ℕ := 100

/-- The error for a `LogValuer` that does not come to an end. -/
def tooMany : LogLayer N G → Bytes
  | .valuer typeName _ => bytes "LogValue called too many times on " ++ typeName
  | _ => []

/-- The loop of `Resolve`: the value, or the text of the error that takes its place. -/
def resolveLoop (orig : LogLayer N G) : ℕ → LogLayer N G → Except Bytes (LogLayer N G)
  | 0, _ => .error (tooMany orig)
  | n + 1, .valuer _ (.ok g) => resolveLoop orig n (S.log g)
  | _ + 1, .valuer _ (.error e) => .error e
  | _ + 1, l => .ok l

/-- `Value.Resolve`. -/
def resolve (l : LogLayer N G) : Except Bytes (LogLayer N G) := S.resolveLoop l maxLogValues l

end Store
end Secmem.Redact
