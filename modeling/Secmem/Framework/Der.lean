import Secmem.Framework.Utf8
import Mathlib.Data.Nat.Size
import Mathlib.Tactic

/-!
# Reading DER

The readers of `golang.org/x/crypto/cryptobyte`, as functions from what is left of the input to
what was read and what is left then.  They are not defined here: `Cryptobyte` has those that read a
single element, with what they are documented to do.  An element is read exactly if it stands at
the front of the input as DER writes it: the length in the short form below 128, otherwise in the
fewest octets that hold it, and at most four.

The lemmas at the end say what one reader knows about another on the same input: an `INTEGER` that
was read has the tag `INTEGER`, whoever looks at it.
-/

namespace Secmem.Der

/-! ## Tags -/

abbrev Tag := UInt8

def INTEGER : Tag := 0x02
def BIT_STRING : Tag := 0x03
def OCTET_STRING : Tag := 0x04
def NULL : Tag := 0x05
def OBJECT_IDENTIFIER : Tag := 0x06
def SEQUENCE : Tag := 0x30

def contextSpecific (t : Tag) : Tag := t ||| 0x80
def constructed (t : Tag) : Tag := t ||| 0x20

/-! ## Elements -/

/-- A big-endian number. -/
def unsigned (s : Bytes) : ℕ := s.foldl (fun n b => n * 256 + b.toNat) 0

/-- The low `width` bytes of a number, most significant first. -/
def toBE : (width n : ℕ) → Bytes
  | 0, _ => []
  | width + 1, n => toBE width (n / 256) ++ [UInt8.ofNat n]

/-- The digits of `k` bits that a number takes. -/
def places (k n : ℕ) : ℕ := (Nat.size n + (k - 1)) / k

/-- The octets a number takes. -/
abbrev octets (n : ℕ) : ℕ := places 8 n

/-- The length field of contents of `n` bytes. -/
def encodeLength (n : ℕ) : Bytes :=
  if n < 0x80 then [UInt8.ofNat n] else UInt8.ofNat (0x80 + octets n) :: toBE (octets n) n

/-- The element with the given tag and contents. -/
def element (tag : Tag) (c : Bytes) : Bytes := tag :: (encodeLength c.length ++ c)

/-- Tags of one octet, which are all that the cursor reads. -/
def LowTag (tag : Tag) : Prop := tag &&& 0x1f ≠ 0x1f

instance (tag : Tag) : Decidable (LowTag tag) := inferInstanceAs (Decidable (_ ≠ _))

/-- An element as it stands in the input. -/
structure Element where
  tag : Tag
  /-- Header and contents. -/
  whole : Bytes
  contents : Bytes
  deriving DecidableEq, Repr

/-! ## Integers -/

/-- `checkASN1Integer`: the fewest octets that keep the sign. -/
def checkASN1Integer : Bytes → Bool
  | [] => false
  | [_] => true
  | a :: b :: _ =>
    !(a == 0 && b &&& 0x80 == 0) && !(a == 0xff && b &&& 0x80 == 0x80)

/-- A two's-complement number. -/
def signed (s : Bytes) : ℤ :=
  if (s.headD 0).toNat < 0x80 then unsigned s else (unsigned s : ℤ) - 256 ^ s.length

/-! ## Object identifiers -/

abbrev ObjectIdentifier := List ℕ

/-- `readBase128Int`: at most five octets, the first not `0x80`, and a result of 31 bits. -/
def readBase128Int (s : Bytes) : Option (ℕ × Bytes) := go 0 0 s
where
  go (i ret : ℕ) : Bytes → Option (ℕ × Bytes)
    | [] => none
    | b :: s =>
      if i = 5 ∨ 2 ^ 24 ≤ ret ∨ i = 0 ∧ b = 0x80 then none
      else
        let ret := ret * 128 + b.toNat % 128
        if b.toNat < 0x80 then some (ret, s) else go (i + 1) ret s

/-- The arcs after the first two. -/
def readArcs : ℕ → Bytes → Option (List ℕ)
  | _, [] => some []
  | 0, _ :: _ => none
  | fuel + 1, s =>
    match readBase128Int s with
    | some (v, rest) => (readArcs fuel rest).map (v :: ·)
    | none => none

/-- The identifier that contents stand for. -/
def decodeOID (c : Bytes) : Option ObjectIdentifier :=
  match readBase128Int c with
  | none => none
  | some (v, more) =>
    (readArcs more.length more).map fun arcs =>
      (if v < 80 then [v / 40, v % 40] else [2, v - 80]) ++ arcs

/-! ## The readers -/

/-- The readers of single elements, and what they read. -/
class Cryptobyte where
  /-- `ReadAnyASN1Element`, with the contents besides. -/
  readElement : Bytes → Option (Element × Bytes)
  /-- `ReadASN1Integer` into an `int64`. -/
  readASN1Integer : Bytes → Option (ℤ × Bytes)
  /-- `ReadASN1ObjectIdentifier`. -/
  readASN1ObjectIdentifier : Bytes → Option (ObjectIdentifier × Bytes)
  readElement_iff : ∀ {s rest : Bytes} {e : Element}, readElement s = some (e, rest) ↔
    LowTag e.tag ∧ (element e.tag e.contents).length < 2 ^ 32 ∧
      e.whole = element e.tag e.contents ∧ s = element e.tag e.contents ++ rest
  readASN1Integer_eq_some : ∀ {s rest : Bytes} {v : ℤ}, readASN1Integer s = some (v, rest) ↔
    ∃ e, readElement s = some (e, rest) ∧ e.tag = INTEGER ∧ checkASN1Integer e.contents = true ∧
      e.contents.length ≤ 8 ∧ signed e.contents = v
  readObjectIdentifier_eq_some : ∀ {s rest : Bytes} {oid : ObjectIdentifier},
    readASN1ObjectIdentifier s = some (oid, rest) ↔
      ∃ e, readElement s = some (e, rest) ∧ e.tag = OBJECT_IDENTIFIER ∧
        decodeOID e.contents = some oid

export Cryptobyte (readElement readASN1Integer readASN1ObjectIdentifier readElement_iff
  readASN1Integer_eq_some readObjectIdentifier_eq_some)

variable [Cryptobyte]

/-- `ReadASN1`. -/
def readASN1 (tag : Tag) (s : Bytes) : Option (Bytes × Bytes) :=
  match readElement s with
  | some (e, rest) => if e.tag = tag then some (e.contents, rest) else none
  | none => none

/-- `ReadASN1Element`. -/
def readASN1Element (tag : Tag) (s : Bytes) : Option (Bytes × Bytes) :=
  match readElement s with
  | some (e, rest) => if e.tag = tag then some (e.whole, rest) else none
  | none => none

/-- `PeekASN1Tag`. -/
def peekASN1Tag (tag : Tag) (s : Bytes) : Bool := s.head? == some tag

/-- `ReadOptionalASN1`. -/
def readOptionalASN1 (tag : Tag) (s : Bytes) : Option (Option Bytes × Bytes) :=
  if peekASN1Tag tag s = true then (readASN1 tag s).map fun x => (some x.1, x.2)
  else some (none, s)

/-- `SkipOptionalASN1`. -/
def skipOptionalASN1 (tag : Tag) (s : Bytes) : Option Bytes :=
  (readOptionalASN1 tag s).map Prod.snd

/-- `ReadASN1BitStringAsBytes`. -/
def readASN1BitStringAsBytes (s : Bytes) : Option (Bytes × Bytes) :=
  match readASN1 BIT_STRING s with
  | some (0 :: c, rest) => some (c, rest)
  | _ => none

/-! ## What one reader says about another -/

section Readers

variable {tag : Tag} {s c rest : Bytes}

lemma readElement_tag {e : Element} (h : readElement s = some (e, rest)) :
    s.head? = some e.tag := by
  rw [(readElement_iff.mp h).2.2.2, element]
  rfl

lemma readASN1_eq_some : readASN1 tag s = some (c, rest) ↔
    ∃ e, readElement s = some (e, rest) ∧ e.tag = tag ∧ e.contents = c := by
  unfold readASN1
  cases readElement s with
  | none => simp
  | some x =>
    obtain ⟨e, rest'⟩ := x
    by_cases ht : e.tag = tag
    · simp only [if_pos ht, Option.some.injEq, Prod.mk.injEq]
      constructor
      · rintro ⟨rfl, rfl⟩
        exact ⟨e, ⟨rfl, rfl⟩, ht, rfl⟩
      · rintro ⟨e', ⟨rfl, rfl⟩, -, rfl⟩
        exact ⟨rfl, rfl⟩
    · simp only [if_neg ht, Option.some.injEq, Prod.mk.injEq, reduceCtorEq, false_iff]
      rintro ⟨e', ⟨rfl, -⟩, ht', -⟩
      exact ht ht'

lemma peek_of_readASN1 (h : readASN1 tag s = some (c, rest)) : peekASN1Tag tag s = true := by
  obtain ⟨e, he, rfl, -⟩ := readASN1_eq_some.mp h
  rw [peekASN1Tag, readElement_tag he, beq_self_eq_true]

lemma readASN1_of_integer {v : ℤ} (h : readASN1Integer s = some (v, rest)) :
    ∃ c, readASN1 INTEGER s = some (c, rest) := by
  obtain ⟨e, he, htag, -⟩ := readASN1Integer_eq_some.mp h
  exact ⟨e.contents, readASN1_eq_some.mpr ⟨e, he, htag, rfl⟩⟩

lemma readASN1_of_objectIdentifier {oid : ObjectIdentifier}
    (h : readASN1ObjectIdentifier s = some (oid, rest)) :
    ∃ c, readASN1 OBJECT_IDENTIFIER s = some (c, rest) := by
  obtain ⟨e, he, htag, -⟩ := readObjectIdentifier_eq_some.mp h
  exact ⟨e.contents, readASN1_eq_some.mpr ⟨e, he, htag, rfl⟩⟩

end Readers

end Secmem.Der
