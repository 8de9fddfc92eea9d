import Secmem.Framework.ByteStrings

/-!
# Base64

The standard alphabet with padding, as Go's `encoding/base64` writes and reads it.  The decoder
passes over line breaks wherever they stand and reports the offset of what it cannot read.

`decode_lines` is the round trip for a text that was encoded in pieces with a line break after
each: every piece but the last is a whole number of three-byte groups, so that no padding is met
before the end.
-/

namespace Secmem.Base64

/-! ## The alphabet -/

/-- The letter for six bits. -/
def letter (n : ℕ) : UInt8 :=
  if n < 26 then UInt8.ofNat (65 + n)
  else if n < 52 then UInt8.ofNat (97 + (n - 26))
  else if n < 62 then UInt8.ofNat (48 + (n - 52))
  else if n = 62 then 43 else 47

/-- The six bits a letter stands for. -/
def sextet (c : UInt8) : Option ℕ :=
  if 65 ≤ c ∧ c ≤ 90 then some (c.toNat - 65)
  else if 97 ≤ c ∧ c ≤ 122 then some (c.toNat - 97 + 26)
  else if 48 ≤ c ∧ c ≤ 57 then some (c.toNat - 48 + 52)
  else if c = 43 then some 62
  else if c = 47 then some 63
  else none

/-- The padding character. -/
def pad : UInt8 := 61

def isBreak (c : UInt8) : Bool := c == 10 || c == 13

/-! ## Encoding -/

/-- `StdEncoding.Encode`. -/
def encode : Bytes → Bytes
  | a :: b :: c :: s =>
    letter (a.toNat / 4) :: letter (a.toNat % 4 * 16 + b.toNat / 16) ::
      letter (b.toNat % 16 * 4 + c.toNat / 64) :: letter (c.toNat % 64) :: encode s
  | [a, b] =>
    [letter (a.toNat / 4), letter (a.toNat % 4 * 16 + b.toNat / 16), letter (b.toNat % 16 * 4),
      pad]
  | [a] => [letter (a.toNat / 4), letter (a.toNat % 4 * 16), pad, pad]
  | [] => []

/-- A text encoded in pieces of `w` bytes, with a line break after each. -/
def lines (w : ℕ) : ℕ → Bytes → Bytes
  | 0, _ => []
  | fuel + 1, s => if s = [] then [] else encode (s.take w) ++ 10 :: lines w fuel (s.drop w)

/-- `StdEncoding.EncodedLen`. -/
def encodedLen (n : ℕ) : ℕ := (n + 2) / 3 * 4

/-- `StdEncoding.DecodedLen`. -/
def decodedLen (n : ℕ) : ℕ := n / 4 * 3

/-! ## Decoding -/

/-- The bytes of up to four sextets: one byte fewer than there are sextets. -/
def assemble (ds : List ℕ) : Bytes :=
  let v := ds.getD 0 0 * 2 ^ 18 + ds.getD 1 0 * 2 ^ 12 + ds.getD 2 0 * 2 ^ 6 + ds.getD 3 0
  [UInt8.ofNat (v / 2 ^ 16), UInt8.ofNat (v / 2 ^ 8), UInt8.ofNat v].take (ds.length - 1)

/-- What follows the last padding character: nothing but line breaks. -/
def finish (at_ : ℕ) (out s : Bytes) : Except ℕ Bytes :=
  let rest := s.dropWhile isBreak
  if rest = [] then .ok out else .error (at_ + (s.length - rest.length))

/-- The first padding character has been met after `ds`; `at_` is the offset of what follows
it. -/
def padding (at_ : ℕ) (ds : List ℕ) (out s : Bytes) : Except ℕ Bytes :=
  match ds.length with
  | 2 =>
    let rest := s.dropWhile isBreak
    let here := at_ + (s.length - rest.length)
    match rest with
    | [] => .error here
    | c :: rest => if c = pad then finish (here + 1) (out ++ assemble ds) rest
        else .error (here - 1)
  | 3 => finish at_ (out ++ assemble ds) s
  | _ => .error (at_ - 1)

/-- The decoder at offset `at_`, with the sextets `ds` of the group it is in and what it has
written. -/
def decodeFrom (at_ : ℕ) (ds : List ℕ) (out : Bytes) : Bytes → Except ℕ Bytes
  | [] => if ds = [] then .ok out else .error (at_ - ds.length)
  | c :: s =>
    match sextet c with
    | some d =>
      if ds.length = 3 then decodeFrom (at_ + 1) [] (out ++ assemble (ds ++ [d])) s
      else decodeFrom (at_ + 1) (ds ++ [d]) out s
    | none =>
      if isBreak c = true then decodeFrom (at_ + 1) ds out s
      else if c = pad then padding (at_ + 1) ds out s
      else .error at_

/-- `StdEncoding.Decode`; an error is a `CorruptInputError` with its offset. -/
def decode (s : Bytes) : Except ℕ Bytes := decodeFrom 0 [] [] s

/-! ## Letters -/

lemma sextet_letter : ∀ n < 64, sextet (letter n) = some n := by decide

/-- What the encoder writes is a letter of the alphabet or the padding character. -/
def Plain (c : UInt8) : Prop := (∃ n < 64, c = letter n) ∨ c = pad

lemma encode_plain (s : Bytes) : ∀ c ∈ encode s, Plain c := by
  have hl : ∀ n < 64, Plain (letter n) := fun n hn => Or.inl ⟨n, hn, rfl⟩
  have hp : Plain pad := Or.inr rfl
  fun_induction encode s with
  | case1 a b c s ih =>
    have ha := a.toNat_lt
    have hb := b.toNat_lt
    have hc := c.toNat_lt
    simp only [List.forall_mem_cons]
    exact ⟨hl _ (by omega), hl _ (by omega), hl _ (by omega), hl _ (by omega), ih⟩
  | case2 a b =>
    have ha := a.toNat_lt
    have hb := b.toNat_lt
    simp only [List.forall_mem_cons]
    exact ⟨hl _ (by omega), hl _ (by omega), hl _ (by omega), hp, by simp⟩
  | case3 a =>
    have ha := a.toNat_lt
    simp only [List.forall_mem_cons]
    exact ⟨hl _ (by omega), hl _ (by omega), hp, hp, by simp⟩
  | case4 => simp

lemma length_encode (s : Bytes) : (encode s).length = encodedLen s.length := by
  fun_induction encode s with
  | case1 a b c s ih =>
    simp only [List.length_cons, ih, encodedLen]
    omega
  | case2 a b => simp [encodedLen]
  | case3 a => simp [encodedLen]
  | case4 => rfl

/-! ## Round trip -/

section Groups

variable {at_ : ℕ} {out s : Bytes}

lemma decodeFrom_letter {n : ℕ} (hn : n < 64) (ds : List ℕ) (h : ds.length < 3) :
    decodeFrom at_ ds out (letter n :: s) = decodeFrom (at_ + 1) (ds ++ [n]) out s := by
  rw [decodeFrom, sextet_letter n hn]
  exact if_neg (by omega)

lemma decodeFrom_last {n : ℕ} (hn : n < 64) (ds : List ℕ) (h : ds.length = 3) :
    decodeFrom at_ ds out (letter n :: s) =
      decodeFrom (at_ + 1) [] (out ++ assemble (ds ++ [n])) s := by
  rw [decodeFrom, sextet_letter n hn]
  exact if_pos h

lemma decodeFrom_break (ds : List ℕ) :
    decodeFrom at_ ds out (10 :: s) = decodeFrom (at_ + 1) ds out s := rfl

lemma decodeFrom_pad (ds : List ℕ) :
    decodeFrom at_ ds out (pad :: s) = padding (at_ + 1) ds out s := rfl

end Groups

lemma assemble_three (a b c : UInt8) :
    assemble [a.toNat / 4, a.toNat % 4 * 16 + b.toNat / 16, b.toNat % 16 * 4 + c.toNat / 64,
      c.toNat % 64] = [a, b, c] := by
  have ha := a.toNat_lt
  have hb := b.toNat_lt
  have hc := c.toNat_lt
  simp only [assemble, List.getD_cons_zero, List.getD_cons_succ, List.length_cons, List.length_nil,
    List.take_succ_cons, List.take_zero, List.cons.injEq, and_true]
  refine ⟨UInt8.toNat.inj ?_, UInt8.toNat.inj ?_, UInt8.toNat.inj ?_⟩ <;>
    simp only [UInt8.toNat_ofNat'] <;> omega

lemma assemble_two (a b : UInt8) :
    assemble [a.toNat / 4, a.toNat % 4 * 16 + b.toNat / 16, b.toNat % 16 * 4] = [a, b] := by
  have ha := a.toNat_lt
  have hb := b.toNat_lt
  simp only [assemble, List.getD_cons_zero, List.getD_cons_succ, List.getD_nil, List.length_cons,
    List.length_nil, List.take_succ_cons, List.take_zero, List.cons.injEq, and_true]
  refine ⟨UInt8.toNat.inj ?_, UInt8.toNat.inj ?_⟩ <;> simp only [UInt8.toNat_ofNat'] <;> omega

lemma assemble_one (a : UInt8) : assemble [a.toNat / 4, a.toNat % 4 * 16] = [a] := by
  have ha := a.toNat_lt
  simp only [assemble, List.getD_cons_zero, List.getD_cons_succ, List.getD_nil, List.length_cons,
    List.length_nil, List.take_succ_cons, List.take_zero, List.cons.injEq, and_true]
  refine UInt8.toNat.inj ?_
  simp only [UInt8.toNat_ofNat']
  omega

/-- One whole group, whatever follows it. -/
lemma decodeFrom_group (a b c : UInt8) (at_ : ℕ) (out s : Bytes) :
    decodeFrom at_ [] out (letter (a.toNat / 4) :: letter (a.toNat % 4 * 16 + b.toNat / 16) ::
      letter (b.toNat % 16 * 4 + c.toNat / 64) :: letter (c.toNat % 64) :: s) =
      decodeFrom (at_ + 4) [] (out ++ [a, b, c]) s := by
  have ha := a.toNat_lt
  have hb := b.toNat_lt
  have hc := c.toNat_lt
  rw [decodeFrom_letter (by omega) [] (by simp), decodeFrom_letter (by omega) _ (by simp),
    decodeFrom_letter (by omega) _ (by simp), decodeFrom_last (by omega) _ (by simp)]
  simp only [List.nil_append, List.cons_append, assemble_three]

lemma decodeFrom_groups {t : Bytes} (ht : t.length % 3 = 0) (at_ : ℕ) (out s : Bytes) :
    decodeFrom at_ [] out (encode t ++ s) =
      decodeFrom (at_ + (encode t).length) [] (out ++ t) s := by
  fun_induction encode t generalizing at_ out with
  | case1 a b c t ih =>
    have hrest : t.length % 3 = 0 := by
      simp only [List.length_cons] at ht
      omega
    simp only [List.cons_append, decodeFrom_group, ih hrest, List.append_assoc, List.nil_append,
      List.length_cons]
    congr 1
    omega
  | case2 a b => simp at ht
  | case3 a => simp at ht
  | case4 => simp

/-- A text that ends here, with or without padding. -/
lemma decodeFrom_encode (t : Bytes) (at_ : ℕ) (out : Bytes) :
    decodeFrom at_ [] out (encode t) = .ok (out ++ t) := by
  fun_induction encode t generalizing at_ out with
  | case1 a b c t ih =>
    rw [decodeFrom_group, ih]
    simp
  | case2 a b =>
    have ha := a.toNat_lt
    have hb := b.toNat_lt
    rw [decodeFrom_letter (by omega) [] (by simp), decodeFrom_letter (by omega) _ (by simp),
      decodeFrom_letter (by omega) _ (by simp), decodeFrom_pad]
    simp [padding, finish, assemble_two]
  | case3 a =>
    have ha := a.toNat_lt
    rw [decodeFrom_letter (by omega) [] (by simp), decodeFrom_letter (by omega) _ (by simp),
      decodeFrom_pad]
    simp [padding, finish, assemble_one, List.dropWhile, isBreak, pad]
  | case4 => simp [decodeFrom]

/-! ## Length -/

lemma length_assemble (ds : List ℕ) (h : ds.length ≤ 4) :
    (assemble ds).length = ds.length - 1 := by
  simp only [assemble, List.length_take, List.length_cons, List.length_nil]
  omega

lemma finish_eq_ok {at_ : ℕ} {out s r : Bytes} (h : finish at_ out s = .ok r) : r = out := by
  simp only [finish] at h
  split at h
  · exact (Except.ok.inj h).symm
  · cases h

lemma length_padding {at_ : ℕ} {ds : List ℕ} {out s r : Bytes}
    (h : padding at_ ds out s = .ok r) :
    r.length ≤ out.length + 3 * ((ds.length + (s.length + 1)) / 4) := by
  unfold padding at h
  split at h
  next hlen =>
    simp only at h
    split at h
    · cases h
    next c rest hrest =>
      have hpos : 1 ≤ s.length := by
        have hle := (List.dropWhile_sublist (l := s) isBreak).length_le
        rw [hrest, List.length_cons] at hle
        omega
      split at h
      · rw [finish_eq_ok h, List.length_append, length_assemble ds (by omega), hlen]
        omega
      · cases h
  next hlen =>
    rw [finish_eq_ok h, List.length_append, length_assemble ds (by omega), hlen]
    omega
  next => cases h

lemma length_decodeFrom {at_ : ℕ} {ds : List ℕ} {out s r : Bytes} (hds : ds.length ≤ 3)
    (h : decodeFrom at_ ds out s = .ok r) :
    r.length ≤ out.length + 3 * ((ds.length + s.length) / 4) := by
  induction s generalizing at_ ds out with
  | nil =>
    rw [decodeFrom] at h
    split at h
    · rw [← Except.ok.inj h]
      omega
    · cases h
  | cons c s ih =>
    rw [decodeFrom] at h
    split at h
    next d hd =>
      split at h
      next hthree =>
        have hr := ih (by simp) h
        rw [List.length_append, length_assemble _ (by simp [hthree])] at hr
        simp only [List.length_append, List.length_cons, List.length_nil] at hr ⊢
        omega
      next hne =>
        have hr := ih (by simp; omega) h
        simp only [List.length_append, List.length_cons, List.length_nil] at hr ⊢
        omega
    next hd =>
      split at h
      · have hr := ih hds h
        simp only [List.length_cons]
        omega
      · split at h
        · exact length_padding h
        · cases h

/-- What is decoded fits where Go's callers put it. -/
lemma length_decode {s r : Bytes} (h : decode s = .ok r) : r.length ≤ decodedLen s.length := by
  have hr := length_decodeFrom (by simp) h
  simp only [List.length_nil, zero_add] at hr
  rw [decodedLen]
  omega

/-! ## Lines -/

lemma lines_plain (w fuel : ℕ) (s : Bytes) : ∀ c ∈ lines w fuel s, Plain c ∨ c = 10 := by
  induction fuel generalizing s with
  | zero => simp [lines]
  | succ fuel ih =>
    intro c hc
    rw [lines] at hc
    split at hc
    · simp at hc
    · rcases List.mem_append.mp hc with henc | hrest
      · exact Or.inl (encode_plain _ c henc)
      · rcases List.mem_cons.mp hrest with rfl | hmem
        · exact Or.inr rfl
        · exact ih _ c hmem

/-- A text that begins and ends with a character of the encoder's. -/
structure Framed (t : Bytes) : Prop where
  head : ∃ b, t.head? = some b ∧ Plain b
  last : ∃ c, t.getLast? = some c ∧ Plain c

lemma framed_encode {s : Bytes} (hs : s ≠ []) : Framed (encode s) := by
  have hne : encode s ≠ [] := by
    have hpos : 0 < s.length := List.length_pos_iff.mpr hs
    rw [← List.length_pos_iff, length_encode, encodedLen]
    omega
  refine ⟨⟨_, List.head?_eq_some_head hne, ?_⟩, ⟨_, List.getLast?_eq_some_getLast hne, ?_⟩⟩
  · exact encode_plain s _ (List.head_mem hne)
  · exact encode_plain s _ (List.getLast_mem hne)

/-- The lines of a text, without the break after the last, decode to it. -/
lemma decode_lines {w : ℕ} (hw : 0 < w) (hgroups : w % 3 = 0) {fuel : ℕ} {s : Bytes}
    (hs : s ≠ []) (hfuel : s.length ≤ fuel) :
    ∃ t, lines w fuel s = t ++ [10] ∧ Framed t ∧
      ∀ at_ out, decodeFrom at_ [] out t = .ok (out ++ s) := by
  induction fuel generalizing s with
  | zero => exact absurd (List.eq_nil_of_length_eq_zero (by omega)) hs
  | succ fuel ih =>
    have hlen : 0 < s.length := List.length_pos_iff.mpr hs
    rw [lines, if_neg hs]
    by_cases hdrop : s.drop w = []
    · have htake : s.take w = s := List.take_of_length_le (List.drop_eq_nil_iff.mp hdrop)
      refine ⟨encode s, ?_, framed_encode hs, fun at_ out => decodeFrom_encode s at_ out⟩
      rw [htake, hdrop]
      cases fuel <;> simp [lines]
    · -- a full line is a whole number of groups, so the decoder is between two of them after it
      obtain ⟨t, ht, hframed, hdecode⟩ := ih hdrop (by rw [List.length_drop]; omega)
      have hline : s.take w ≠ [] := by
        rw [Ne, List.take_eq_nil_iff]
        rintro (h | h)
        · omega
        · exact hs h
      refine ⟨encode (s.take w) ++ 10 :: t, by simp [ht], ⟨?_, ?_⟩, fun at_ out => ?_⟩
      · obtain ⟨b, hb, hplain⟩ := (framed_encode hline).head
        exact ⟨b, by rw [List.head?_append, hb, Option.some_or], hplain⟩
      · obtain ⟨c, hc, hplain⟩ := hframed.last
        exact ⟨c, by rw [List.getLast?_append, List.getLast?_cons, hc]; rfl, hplain⟩
      have hfull : (s.take w).length % 3 = 0 := by
        rw [List.drop_eq_nil_iff] at hdrop
        rw [List.length_take, Nat.min_eq_left (by omega), hgroups]
      rw [decodeFrom_groups hfull, decodeFrom_break, hdecode, List.append_assoc,
        List.take_append_drop]

/-- Lines of 64 characters: the length of the encoding, and one for each line. -/
lemma length_lines {fuel : ℕ} {s : Bytes} (hfuel : s.length ≤ fuel) :
    (lines 48 fuel s).length = encodedLen s.length + (encodedLen s.length + 63) / 64 := by
  induction fuel generalizing s with
  | zero =>
    obtain rfl := List.eq_nil_of_length_eq_zero (Nat.le_zero.mp hfuel)
    rfl
  | succ fuel ih =>
    rw [lines]
    split
    next h =>
      subst h
      rfl
    next h =>
      have hpos : 0 < s.length := List.length_pos_iff.mpr h
      have hrest := ih (s := s.drop 48) (by rw [List.length_drop]; omega)
      rw [List.length_append, List.length_cons, hrest, length_encode, List.length_take,
        List.length_drop]
      simp only [encodedLen]
      omega

end Secmem.Base64
