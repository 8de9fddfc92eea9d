import Secmem.Framework.Der
import Mathlib.Data.Nat.Bitwise

/-!
# Writing DER

The encodings that the readers of `Der` read.  An element is written in one way only: its length
in the fewest octets, a natural number in the fewest octets that keep the sign, an object
identifier with no leading `0x80`.  `readASN1_iff` says that an element is taken off the front of
the input exactly if the input begins with its encoding, and the lemmas after it say the same for
the contents of integers and object identifiers.  `Cursor.cursor` is an example of such readers.

The cursor refuses an element of `2 ^ 32` bytes or more; that bound is the only difference between
what it reads and what can be written.
-/

namespace Secmem.Der

/-! ## Big-endian numbers -/

@[simp] lemma length_toBE (width n : ℕ) : (toBE width n).length = width := by
  induction width generalizing n with
  | zero => rfl
  | succ width ih => simp [toBE, ih]

@[simp] lemma unsigned_nil : unsigned [] = 0 := rfl

lemma unsigned_concat (s : Bytes) (b : UInt8) :
    unsigned (s ++ [b]) = unsigned s * 256 + b.toNat := by
  simp [unsigned]

lemma unsigned_append (s t : Bytes) :
    unsigned (s ++ t) = unsigned s * 256 ^ t.length + unsigned t := by
  induction t using List.reverseRecOn with
  | nil => simp
  | append_singleton t b ih =>
    rw [← List.append_assoc, unsigned_concat, ih, unsigned_concat, List.length_append, pow_add]
    simp only [List.length_singleton, pow_one]
    ring

lemma unsigned_cons (b : UInt8) (s : Bytes) :
    unsigned (b :: s) = b.toNat * 256 ^ s.length + unsigned s := by
  have := unsigned_append [b] s
  simpa [unsigned] using this

lemma unsigned_lt (s : Bytes) : unsigned s < 256 ^ s.length := by
  induction s with
  | nil => simp
  | cons b s ih =>
    rw [unsigned_cons, List.length_cons, pow_succ]
    have := b.toNat_lt
    nlinarith [pow_pos (show 0 < 256 by decide) s.length]

lemma unsigned_toBE (width n : ℕ) : unsigned (toBE width n) = n % 256 ^ width := by
  induction width generalizing n with
  | zero => simp [toBE, Nat.mod_one]
  | succ width ih =>
    have hmod : n % 256 ^ (width + 1) = n % 256 + 256 * (n / 256 % 256 ^ width) := by
      rw [pow_succ', Nat.mod_mul]
    rw [toBE, unsigned_concat, ih, UInt8.toNat_ofNat', hmod]
    omega

lemma toBE_unsigned (s : Bytes) : toBE s.length (unsigned s) = s := by
  induction s using List.reverseRecOn with
  | nil => rfl
  | append_singleton s b ih =>
    have hb := b.toNat_lt
    rw [List.length_append, List.length_singleton, toBE, unsigned_concat,
      show (unsigned s * 256 + b.toNat) / 256 = unsigned s by omega, ih]
    congr 2
    apply UInt8.toNat_inj.mp
    rw [UInt8.toNat_ofNat']
    omega

lemma toBE_mod (width n : ℕ) : toBE width (n % 256 ^ width) = toBE width n := by
  have := toBE_unsigned (toBE width n)
  rwa [length_toBE, unsigned_toBE] at this

/-- Byte by byte, from the right. -/
lemma toBE_eq_map (n v : ℕ) :
    toBE n v = ((List.range n).map fun i => UInt8.ofNat (v / 256 ^ i)).reverse := by
  induction n generalizing v with
  | zero => rfl
  | succ n ih =>
    rw [toBE, ih, List.range_succ_eq_map, List.map_cons, List.reverse_cons, List.map_map]
    have hshift (i : ℕ) : v / 256 / 256 ^ i = v / 256 ^ (i + 1) := by
      rw [Nat.div_div_eq_div_mul, pow_succ']
    simp only [hshift, pow_zero, Nat.div_one]
    rfl

section Places

variable {k n j : ℕ}

lemma places_le_iff (hk : 0 < k) : places k n ≤ j ↔ n < (2 ^ k) ^ j := by
  rw [← pow_mul, ← Nat.size_le, places, Nat.div_le_iff_le_mul_add_pred hk]
  omega

@[simp] lemma places_zero (hk : 0 < k) : places k 0 = 0 :=
  Nat.le_zero.mp ((places_le_iff hk).mpr (by simp))

lemma places_pos (hk : 0 < k) (hn : 0 < n) : 0 < places k n := by
  by_contra h
  have := (places_le_iff hk).mp (Nat.le_of_not_lt h)
  rw [pow_zero] at this
  omega

/-- A number of `j` digits, the first of them not zero. -/
lemma places_eq (hk : 0 < k) (h : n < (2 ^ k) ^ j) (h' : (2 ^ k) ^ (j - 1) ≤ n) :
    places k n = j := by
  have hle := (places_le_iff hk).mpr h
  have hge : ¬ places k n ≤ j - 1 := fun hj => by
    have := (places_le_iff hk).mp hj
    omega
  omega

lemma pow_le_of_places (hk : 0 < k) (hn : 0 < n) : (2 ^ k) ^ (places k n - 1) ≤ n := by
  have hpos := places_pos hk hn
  by_contra h
  have := (places_le_iff hk).mpr (Nat.lt_of_not_le h)
  omega

/-- The last digit is one of them. -/
lemma places_succ (hk : 0 < k) (hn : 0 < n) : places k n = places k (n / 2 ^ k) + 1 := by
  have hpos := places_pos hk hn
  have hiff (j : ℕ) : places k n ≤ j + 1 ↔ places k (n / 2 ^ k) ≤ j := by
    rw [places_le_iff hk, places_le_iff hk, Nat.div_lt_iff_lt_mul (by positivity), pow_succ]
  have h₁ := (hiff (places k (n / 2 ^ k))).mpr le_rfl
  have h₂ := (hiff (places k n - 1)).mp (by omega)
  omega

end Places

lemma octets_le_iff {n k : ℕ} : octets n ≤ k ↔ n < 256 ^ k := places_le_iff (by decide)

lemma octets_eq {n k : ℕ} (h : n < 256 ^ k) (h' : 256 ^ (k - 1) ≤ n) : octets n = k :=
  places_eq (by decide) h h'

/-- The bytes of a number, as few as possible. -/
def natBytes (n : ℕ) : Bytes := toBE (octets n) n

@[simp] lemma natBytes_zero : natBytes 0 = [] := by simp [natBytes, toBE]

@[simp] lemma length_natBytes (n : ℕ) : (natBytes n).length = octets n := length_toBE _ _

@[simp] lemma unsigned_natBytes (n : ℕ) : unsigned (natBytes n) = n := by
  rw [natBytes, unsigned_toBE, Nat.mod_eq_of_lt (octets_le_iff.mp le_rfl)]

/-- A byte string without a leading zero is the bytes of its number. -/
lemma natBytes_unsigned {s : Bytes} (h : s.head? ≠ some 0) : natBytes (unsigned s) = s := by
  cases s with
  | nil => exact natBytes_zero
  | cons b s =>
    have hb : 0 < b.toNat := by
      rw [Nat.pos_iff_ne_zero]
      intro h0
      exact h (congrArg some (UInt8.toNat_inj.mp h0))
    have hlen : octets (unsigned (b :: s)) = (b :: s).length := by
      refine octets_eq (unsigned_lt _) ?_
      rw [unsigned_cons, List.length_cons, Nat.add_sub_cancel]
      nlinarith [pow_pos (show 0 < 256 by decide) s.length]
    rw [natBytes, hlen, toBE_unsigned]

lemma head_natBytes (n : ℕ) : (natBytes n).head? ≠ some 0 := by
  intro h
  obtain ⟨s, hs⟩ : ∃ s, natBytes n = 0 :: s := by
    cases hn : natBytes n with
    | nil => simp [hn] at h
    | cons b s =>
      rw [hn] at h
      exact ⟨s, by rw [Option.some.inj h]⟩
  have hval := unsigned_natBytes n
  have hlen := length_natBytes n
  rw [hs, unsigned_cons, UInt8.toNat_zero, Nat.zero_mul, Nat.zero_add] at hval
  rw [hs, List.length_cons] at hlen
  have hlt := unsigned_lt s
  rw [hval] at hlt
  have := octets_le_iff.mpr hlt
  omega

/-! ## Elements -/

lemma length_encodeLength (n : ℕ) :
    (encodeLength n).length = if n < 0x80 then 1 else 1 + octets n := by
  unfold encodeLength
  split <;> simp [Nat.add_comm]

variable {tag : Tag} {s c rest : Bytes}

@[simp] lemma peekASN1Tag_element (t : Tag) :
    peekASN1Tag t (element tag c ++ rest) = (tag == t) := by
  rw [peekASN1Tag, element, List.cons_append, List.head?_cons]
  rfl

lemma length_le_element (tag : Tag) (c : Bytes) : c.length < (element tag c).length := by
  simp only [element, List.length_cons, List.length_append]
  omega

/-- The contents of an element of a bounded input are bounded. -/
lemma short_contents (hs : s.length < 2 ^ 32) (h : s = element tag c ++ rest) :
    c.length < 2 ^ 32 ∧ rest.length < 2 ^ 32 := by
  have := length_le_element tag c
  rw [h, List.length_append] at hs
  omega

/-! ## Integers -/

/-- The contents of a natural number's INTEGER: its bytes, with a zero before them where the first
would read as a sign, and a zero for none. -/
def natContents (n : ℕ) : Bytes :=
  match natBytes n with
  | [] => [0]
  | b :: s => if 0x80 ≤ b.toNat then 0 :: b :: s else b :: s

/-- The INTEGER of a natural number. -/
def integer (n : ℕ) : Bytes := element INTEGER (natContents n)

/-- Contents as few as possible and without a sign. -/
def Shortest : Bytes → Prop
  | [] => False
  | a :: s => a.toNat < 0x80 ∧ (a = 0 → ∀ b ∈ s.head?, 0x80 ≤ b.toNat)

lemma natContents_of_shortest {c : Bytes} (h : Shortest c) : natContents (unsigned c) = c := by
  match c, h with
  | [a], h =>
    by_cases ha : a = 0
    · subst ha
      simp [natContents, unsigned]
    · have hbytes : natBytes (unsigned [a]) = [a] := natBytes_unsigned (by simpa using ha)
      rw [natContents, hbytes]
      exact if_neg (Nat.not_le.mpr h.1)
  | a :: b :: s, ⟨hlt, hzero⟩ =>
    by_cases ha : a = 0
    · subst ha
      have hb : 0x80 ≤ b.toNat := hzero rfl b rfl
      have hdrop : unsigned (0 :: b :: s) = unsigned (b :: s) := by
        rw [unsigned_cons]
        simp
      have hbytes : natBytes (unsigned (b :: s)) = b :: s := by
        refine natBytes_unsigned fun h0 => ?_
        rw [Option.some.inj h0] at hb
        exact absurd hb (by decide)
      rw [hdrop, natContents, hbytes]
      exact if_pos hb
    · have hbytes : natBytes (unsigned (a :: b :: s)) = a :: b :: s :=
        natBytes_unsigned (by simpa using ha)
      rw [natContents, hbytes]
      exact if_neg (Nat.not_le.mpr hlt)

lemma shortest_natContents (n : ℕ) : Shortest (natContents n) := by
  have hhead := head_natBytes n
  unfold natContents
  split
  next => exact ⟨by decide, fun _ b hb => by simp at hb⟩
  next b s hbytes =>
    rw [hbytes] at hhead
    split
    next hb =>
      refine ⟨by decide, fun _ b' hb' => ?_⟩
      obtain rfl : b = b' := by simpa using hb'
      exact hb
    next hb => exact ⟨Nat.not_le.mp hb, fun h0 => absurd (by rw [h0]; rfl) hhead⟩

@[simp] lemma unsigned_natContents (n : ℕ) : unsigned (natContents n) = n := by
  have hval := unsigned_natBytes n
  unfold natContents
  split
  next hbytes =>
    rw [hbytes] at hval
    rw [← hval]
    rfl
  next b s hbytes =>
    rw [hbytes] at hval
    split
    · rw [unsigned_cons, UInt8.toNat_zero, Nat.zero_mul, Nat.zero_add, hval]
    · exact hval

/-- The contents of one natural number's INTEGER, and of no other's. -/
lemma eq_natContents_iff {c : Bytes} {n : ℕ} : c = natContents n ↔ Shortest c ∧ unsigned c = n := by
  constructor
  · rintro rfl
    exact ⟨shortest_natContents n, unsigned_natContents n⟩
  · rintro ⟨hmin, rfl⟩
    exact (natContents_of_shortest hmin).symm

lemma and_128 (b : UInt8) : b &&& 0x80 = if b.toNat < 0x80 then 0 else 0x80 := by
  have hb := b.toNat_lt
  apply UInt8.toNat_inj.mp
  rw [UInt8.toNat_and, show (0x80 : UInt8).toNat = 2 ^ 7 from rfl, Nat.and_two_pow,
    Nat.testBit_eq_decide_div_mod_eq]
  split
  next h => simp [show b.toNat / 128 % 2 = 0 by omega]
  next h => simp [show b.toNat / 128 % 2 = 1 by omega]

/-- What `checkASN1Integer` and the sign say about contents that stand for a natural number. -/
lemma checkASN1Integer_iff {c : Bytes} {n : ℕ} :
    checkASN1Integer c = true ∧ signed c = n ↔ Shortest c ∧ unsigned c = n := by
  cases c with
  | nil => simp [checkASN1Integer, Shortest]
  | cons a s =>
    by_cases ha : a.toNat < 0x80
    · have hsigned : signed (a :: s) = unsigned (a :: s) := by
        rw [signed, List.headD_cons, if_pos ha]
      have hff : a ≠ 0xff := fun h => by
        rw [h] at ha
        exact absurd ha (by decide)
      rw [hsigned, Nat.cast_inj]
      refine and_congr_left fun _ => ?_
      cases s with
      | nil => simp [checkASN1Integer, Shortest, ha]
      | cons b s =>
        simp only [checkASN1Integer, and_128, Shortest, ha, List.head?_cons, Option.mem_def,
          Option.some.injEq, forall_eq', true_and]
        by_cases h0 : a = 0 <;> by_cases hb : b.toNat < 0x80 <;> simp [h0, hb, hff]
        omega
    · constructor
      · rintro ⟨-, hsigned⟩
        rw [signed, List.headD_cons, if_neg ha] at hsigned
        have := unsigned_lt (a :: s)
        zify at this
        omega
      · rintro ⟨⟨hlt, -⟩, -⟩
        exact absurd hlt ha

lemma length_natContents_le (n : ℕ) : (natContents n).length ≤ octets n + 1 := by
  have hlen := length_natBytes n
  unfold natContents
  split
  next => simp
  next b s hbytes =>
    rw [hbytes] at hlen
    split <;> simp only [List.length_cons] at hlen ⊢ <;> omega

/-! ## Object identifiers -/

/-- The last `width` digits of seven bits, each with the mark that more follow. -/
def toSeptets : (width n : ℕ) → Bytes
  | 0, _ => []
  | width + 1, n => toSeptets width (n / 128) ++ [UInt8.ofNat (0x80 + n % 128)]

/-- The digits before the last. -/
def septets (n : ℕ) : Bytes := toSeptets (places 7 n) n

/-- A number in base 128. -/
def base128 (n : ℕ) : Bytes := septets (n / 128) ++ [UInt8.ofNat (n % 128)]

/-- The contents of an OBJECT IDENTIFIER. -/
def encodeOID : ObjectIdentifier → Bytes
  | a :: b :: arcs => base128 (40 * a + b) ++ arcs.flatMap base128
  | _ => []

lemma septets_zero : septets 0 = [] := by simp [septets, toSeptets]

lemma septets_succ {n : ℕ} (hn : 0 < n) :
    septets n = septets (n / 128) ++ [UInt8.ofNat (0x80 + n % 128)] := by
  rw [septets, places_succ (by decide) hn]
  rfl

/-- What has been read so far, `ret`, and what follows are the number and the rest. -/
lemma readBase128Int_go {i ret v : ℕ} (hret : ret = 0 ↔ i = 0)
    (h : readBase128Int.go i ret s = some (v, rest)) : septets ret ++ s = base128 v ++ rest := by
  induction s generalizing i ret with
  | nil => cases h
  | cons b s ih =>
    have hb := b.toNat_lt
    simp only [readBase128Int.go] at h
    split at h
    · cases h
    next hok =>
      split at h
      next hlast =>
        obtain ⟨rfl, rfl⟩ := Prod.mk.inj (Option.some.inj h)
        have hdigit : (ret * 128 + b.toNat % 128) / 128 = ret ∧
            (ret * 128 + b.toNat % 128) % 128 = b.toNat := by omega
        rw [base128, hdigit.1, hdigit.2, UInt8.ofNat_toNat, List.append_assoc]
        rfl
      next hmore =>
        -- the first digit is not zero, so what is read so far is not
        have hpos : 0 < ret * 128 + b.toNat % 128 := by
          by_contra hzero
          have hret0 : ret = 0 := by omega
          have hb0 : b = 0x80 := UInt8.toNat_inj.mp (by
            rw [show (0x80 : UInt8).toNat = 128 from rfl]
            omega)
          exact hok (.inr (.inr ⟨hret.mp hret0, hb0⟩))
        have hdigit : (ret * 128 + b.toNat % 128) / 128 = ret ∧
            0x80 + (ret * 128 + b.toNat % 128) % 128 = b.toNat := by omega
        rw [← ih (by omega) h, septets_succ hpos, hdigit.1, hdigit.2, UInt8.ofNat_toNat,
          List.append_assoc]
        rfl

lemma readBase128Int_eq_some {v : ℕ} (h : readBase128Int s = some (v, rest)) :
    s = base128 v ++ rest := by
  have := readBase128Int_go (by simp) h
  rwa [septets_zero, List.nil_append] at this

lemma readArcs_eq_some {fuel : ℕ} {arcs : List ℕ} (h : readArcs fuel s = some arcs) :
    s = arcs.flatMap base128 := by
  induction fuel generalizing s arcs with
  | zero =>
    cases s with
    | nil =>
      obtain rfl : [] = arcs := Option.some.inj h
      rfl
    | cons b s => cases h
  | succ fuel ih =>
    cases s with
    | nil =>
      obtain rfl : [] = arcs := Option.some.inj h
      rfl
    | cons b s =>
      simp only [readArcs] at h
      split at h
      next v more hv =>
        obtain ⟨arcs', harcs, rfl⟩ := Option.map_eq_some_iff.mp h
        rw [readBase128Int_eq_some hv, ih harcs, List.flatMap_cons]
      next => cases h

/-- Contents that stand for an identifier are its encoding. -/
lemma decodeOID_eq_some {oid : ObjectIdentifier} (h : decodeOID c = some oid) :
    c = encodeOID oid := by
  unfold decodeOID at h
  split at h
  · cases h
  next v more hv =>
    obtain ⟨arcs, harcs, rfl⟩ := Option.map_eq_some_iff.mp h
    rw [readBase128Int_eq_some hv, readArcs_eq_some harcs]
    split
    · rw [List.cons_append, List.cons_append, List.nil_append, encodeOID, Nat.div_add_mod]
    · rw [List.cons_append, List.cons_append, List.nil_append, encodeOID,
        show 40 * 2 + (v - 80) = v by omega]

/-! ## What is read -/

section Readers

variable [Cryptobyte]

/-- `ReadASN1` takes exactly the elements as they are written. -/
theorem readASN1_iff : readASN1 tag s = some (c, rest) ↔
    LowTag tag ∧ (element tag c).length < 2 ^ 32 ∧ s = element tag c ++ rest := by
  rw [readASN1_eq_some]
  constructor
  · rintro ⟨e, he, rfl, rfl⟩
    obtain ⟨htag, hshort, -, hs⟩ := readElement_iff.mp he
    exact ⟨htag, hshort, hs⟩
  · rintro ⟨htag, hshort, hs⟩
    exact ⟨⟨tag, element tag c, c⟩, readElement_iff.mpr ⟨htag, hshort, rfl, hs⟩, rfl, rfl⟩

lemma readASN1_element (htag : LowTag tag) (hshort : (element tag c).length < 2 ^ 32) :
    readASN1 tag (element tag c ++ rest) = some (c, rest) :=
  readASN1_iff.mpr ⟨htag, hshort, rfl⟩

/-- In an input the cursor can read to its end, every element it stands before is read. -/
lemma readASN1_of_short (hs : s.length < 2 ^ 32) (htag : LowTag tag) :
    readASN1 tag s = some (c, rest) ↔ s = element tag c ++ rest := by
  rw [readASN1_iff]
  refine ⟨fun h => h.2.2, fun h => ⟨htag, ?_, h⟩⟩
  rw [h, List.length_append] at hs
  omega

/-- `ReadASN1Integer` of a natural number that an `int64` holds. -/
lemma readASN1Integer_iff {n : ℕ} (hn : n < 256 ^ 7) :
    readASN1Integer s = some ((n : ℤ), rest) ↔
      (integer n).length < 2 ^ 32 ∧ s = integer n ++ rest := by
  have hlen : (natContents n).length ≤ 8 :=
    (length_natContents_le n).trans (Nat.succ_le_succ (octets_le_iff.mpr hn))
  constructor
  · intro h
    obtain ⟨el, hread, htag, hc, -, hval⟩ := readASN1Integer_eq_some.mp h
    obtain ⟨-, hshort, -, hs⟩ := readElement_iff.mp hread
    rw [htag, eq_natContents_iff.mpr (checkASN1Integer_iff.mp ⟨hc, hval⟩)] at hshort hs
    exact ⟨hshort, hs⟩
  · rintro ⟨hshort, rfl⟩
    have hc := checkASN1Integer_iff.mpr ⟨shortest_natContents n, unsigned_natContents n⟩
    exact readASN1Integer_eq_some.mpr ⟨⟨INTEGER, integer n, natContents n⟩,
      readElement_iff.mpr ⟨(by decide : LowTag INTEGER), hshort, rfl, rfl⟩, rfl, hc.1, hlen, hc.2⟩

/-- `ReadASN1ObjectIdentifier` takes an identifier only as it is written. -/
lemma readASN1ObjectIdentifier_eq_some {oid : ObjectIdentifier}
    (h : readASN1ObjectIdentifier s = some (oid, rest)) :
    (element OBJECT_IDENTIFIER (encodeOID oid)).length < 2 ^ 32 ∧
      s = element OBJECT_IDENTIFIER (encodeOID oid) ++ rest := by
  obtain ⟨el, hread, htag, hoid⟩ := readObjectIdentifier_eq_some.mp h
  obtain ⟨-, hshort, -, hs⟩ := readElement_iff.mp hread
  rw [htag, decodeOID_eq_some hoid] at hshort hs
  exact ⟨hshort, hs⟩

/-- An identifier that its own encoding stands for is read. -/
lemma readASN1ObjectIdentifier_element {oid : ObjectIdentifier}
    (hoid : decodeOID (encodeOID oid) = some oid)
    (hshort : (element OBJECT_IDENTIFIER (encodeOID oid)).length < 2 ^ 32) :
    readASN1ObjectIdentifier (element OBJECT_IDENTIFIER (encodeOID oid) ++ rest) =
      some (oid, rest) :=
  readObjectIdentifier_eq_some.mpr ⟨⟨OBJECT_IDENTIFIER, element _ _, encodeOID oid⟩,
    readElement_iff.mpr ⟨(by decide : LowTag OBJECT_IDENTIFIER), hshort, rfl, rfl⟩, rfl, hoid⟩

end Readers

/-! ## A cursor -/

/-- The length of an element's header and of its contents, from what follows the tag. -/
def readLength : Bytes → Option (ℕ × ℕ)
  | [] => none
  | l :: s =>
    if l.toNat < 0x80 then some (2, l.toNat)
    else
      let k := l.toNat - 0x80
      let n := unsigned (s.take k)
      if k = 0 ∨ 4 < k ∨ s.length < k then none
      else if n < 0x80 ∨ n / 256 ^ (k - 1) = 0 ∨ 2 ^ 32 ≤ 2 + k + n then none
      else some (2 + k, n)

/-- The element at the front of the input, by its tag and its length. -/
def scanElement : Bytes → Option (Element × Bytes)
  | [] => none
  | t :: s =>
    if t &&& 0x1f = 0x1f then none
    else match readLength s with
      | none => none
      | some (header, n) =>
        let whole := (t :: s).take (header + n)
        if (t :: s).length < header + n then none
        else some (⟨t, whole, whole.drop header⟩, (t :: s).drop (header + n))

lemma readLength_eq_some {s : Bytes} {header n : ℕ} (h : readLength s = some (header, n)) :
    ∃ tail, s = encodeLength n ++ tail ∧ header = 1 + (encodeLength n).length ∧
      header + n < 2 ^ 32 := by
  cases s with
  | nil => cases h
  | cons l s =>
    have hl := l.toNat_lt
    simp only [readLength] at h
    split at h
    next hshort =>
      obtain ⟨rfl, rfl⟩ := Prod.mk.inj (Option.some.inj h)
      refine ⟨s, ?_, ?_, by omega⟩
      · rw [encodeLength, if_pos hshort, UInt8.ofNat_toNat]
        rfl
      · rw [length_encodeLength, if_pos hshort]
    next hlong =>
      split at h
      · cases h
      next hk =>
        split at h
        · cases h
        next hn =>
          obtain ⟨rfl, rfl⟩ := Prod.mk.inj (Option.some.inj h)
          push Not at hk hn
          set k := l.toNat - 0x80 with hkdef
          have htake : (s.take k).length = k := by
            rw [List.length_take]
            omega
          have hoct : octets (unsigned (s.take k)) = k := by
            refine octets_eq ?_ ?_
            · have := unsigned_lt (s.take k)
              rwa [htake] at this
            · exact Nat.pos_of_ne_zero hn.2.1 |> Nat.div_pos_iff.mp |>.2
          refine ⟨s.drop k, ?_, ?_, by omega⟩
          · rw [encodeLength, if_neg (by omega), hoct]
            have hle : toBE k (unsigned (s.take k)) = s.take k := by
              have := toBE_unsigned (s.take k)
              rwa [htake] at this
            rw [hle, List.cons_append, List.take_append_drop,
              show 0x80 + k = l.toNat by omega, UInt8.ofNat_toNat]
          · rw [length_encodeLength, if_neg (by omega), hoct]
            omega

lemma readLength_encodeLength {n : ℕ} (h : 1 + (encodeLength n).length + n < 2 ^ 32)
    (tail : Bytes) :
    readLength (encodeLength n ++ tail) = some (1 + (encodeLength n).length, n) := by
  by_cases hn : n < 0x80
  · have hnat : (UInt8.ofNat n).toNat = n := by
      rw [UInt8.toNat_ofNat']
      omega
    simp only [encodeLength, if_pos hn, List.cons_append, readLength, hnat, List.length_singleton]
  · have hoct : octets n ≤ 4 := octets_le_iff.mpr (by omega)
    have hpos : 0 < octets n := places_pos (by decide) (by omega)
    have hnat : (UInt8.ofNat (0x80 + octets n)).toNat = 0x80 + octets n := by
      rw [UInt8.toNat_ofNat']
      omega
    have htake : (toBE (octets n) n ++ tail).take (octets n) = toBE (octets n) n := by
      rw [List.take_append_of_le_length (by simp), List.take_of_length_le (by simp)]
    have hval : unsigned (toBE (octets n) n) = n := unsigned_natBytes n
    have hdiv : n / 256 ^ (octets n - 1) ≠ 0 :=
      (Nat.div_pos (pow_le_of_places (by decide) (by omega)) (by positivity)).ne'
    rw [length_encodeLength, if_neg hn] at h ⊢
    simp only [encodeLength, if_neg hn, List.cons_append, readLength, hnat,
      Nat.add_sub_cancel_left, htake, hval]
    rw [if_neg (by omega), if_neg (by simp; omega), if_neg (by omega)]
    congr 2
    omega

lemma scanElement_iff {s rest : Bytes} {e : Element} :
    scanElement s = some (e, rest) ↔
      LowTag e.tag ∧ (element e.tag e.contents).length < 2 ^ 32 ∧
        e.whole = element e.tag e.contents ∧ s = element e.tag e.contents ++ rest := by
  constructor
  · intro h
    cases s with
    | nil => cases h
    | cons t s =>
      simp only [scanElement] at h
      split at h
      · cases h
      next htag =>
        split at h
        · cases h
        next header n hlen =>
          split at h
          · cases h
          next hroom =>
            obtain ⟨rfl, rfl⟩ := Prod.mk.inj (Option.some.inj h)
            obtain ⟨tail, rfl, hheader, hlt⟩ := readLength_eq_some hlen
            have hsplit : header + n = (t :: encodeLength n).length + n := by
              rw [hheader, List.length_cons]
              omega
            have htail : n ≤ tail.length := by
              simp only [List.length_cons, List.length_append] at hroom hheader
              omega
            have hcons : t :: (encodeLength n ++ tail) = (t :: encodeLength n) ++ tail := rfl
            have hwhole : (t :: (encodeLength n ++ tail)).take (header + n) =
                (t :: encodeLength n) ++ tail.take n := by
              rw [hcons, hsplit, List.take_length_add_append]
            have hcontents : ((t :: (encodeLength n ++ tail)).take (header + n)).drop header =
                tail.take n := by
              rw [hwhole, show header = (t :: encodeLength n).length by
                rw [hheader, List.length_cons]; omega, List.drop_left]
            have hn : (tail.take n).length = n := by
              rw [List.length_take]
              omega
            have helement : element t (tail.take n) = (t :: encodeLength n) ++ tail.take n := by
              rw [element, hn]
              rfl
            rw [hcontents, hwhole, helement]
            refine ⟨htag, ?_, rfl, ?_⟩
            · rw [List.length_append, hn, ← hsplit]
              exact hlt
            · rw [hsplit, hcons, List.drop_length_add_append, List.append_assoc,
                List.take_append_drop]
  · rintro ⟨htag, hshort, hwhole, rfl⟩
    obtain ⟨tag, whole, c⟩ := e
    simp only at htag hshort hwhole ⊢
    subst hwhole
    have hlen : (element tag c).length = 1 + (encodeLength c.length).length + c.length := by
      simp only [element, List.length_cons, List.length_append]
      omega
    rw [hlen] at hshort
    simp only [element, List.cons_append, scanElement]
    rw [if_neg htag, List.append_assoc, readLength_encodeLength hshort]
    have hcons : tag :: (encodeLength c.length ++ (c ++ rest)) = element tag c ++ rest := by
      simp [element]
    simp only [hcons, ← hlen, List.take_left, List.drop_left, List.length_append]
    rw [if_neg (by omega)]
    congr 2
    rw [show 1 + (encodeLength c.length).length = (tag :: encodeLength c.length).length by
      rw [List.length_cons]; omega]
    congr 1
    have : element tag c = (tag :: encodeLength c.length) ++ c := rfl
    rw [this, List.drop_left]

namespace Cursor

/-- Readers that behave as documented. -/
scoped instance cursor : Cryptobyte where
  readElement := scanElement
  readASN1Integer s := (scanElement s).bind fun (e, rest) =>
    if e.tag = INTEGER ∧ checkASN1Integer e.contents = true ∧ e.contents.length ≤ 8 then
      some (signed e.contents, rest) else none
  readASN1ObjectIdentifier s := (scanElement s).bind fun (e, rest) =>
    if e.tag = OBJECT_IDENTIFIER then (decodeOID e.contents).map fun oid => (oid, rest) else none
  readElement_iff := scanElement_iff
  readASN1Integer_eq_some := by
    simp only [Option.bind_eq_some_iff, Prod.exists, Option.ite_none_right_eq_some,
      Option.some.injEq, Prod.mk.injEq]
    grind
  readObjectIdentifier_eq_some := by
    simp only [Option.bind_eq_some_iff, Prod.exists, Option.ite_none_right_eq_some,
      Option.map_eq_some_iff, Prod.mk.injEq]
    grind

end Cursor

end Secmem.Der
