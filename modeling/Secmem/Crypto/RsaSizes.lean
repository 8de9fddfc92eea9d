import Secmem.Framework.DerEncoding
import Secmem.Crypto.Signers

/-!
# What the RSA size rule accepts

`rsabounds.go` in terms of numbers.  The functions there look at stripped magnitudes, at their
lengths and at their first and last bytes; `checkRSAIntegers_iff` says that they decide `Caps`, a
condition on the numbers themselves.

`checkPKCS1Size` reads a structure with a cursor.  `KeyTree` is the grammar of what it accepts:
integers by their content octets, which need not be minimal, and behind them the list of other
primes, if there is one.  `checkPKCS1Size_iff` says that it accepts exactly the encodings of trees
within the caps, and looks at nothing after the outer SEQUENCE.
-/

namespace Secmem.Crypto

open Der

/-! ## Magnitudes -/

/-- What is left of a magnitude without its leading zeros is the bytes of its number. -/
lemma stripZeros_eq (b : Bytes) : stripZeros b = natBytes (unsigned b) := by
  induction b with
  | nil => rw [unsigned_nil, natBytes_zero]; rfl
  | cons x b ih =>
    by_cases hx : x = 0
    · subst hx
      have hdrop : stripZeros (0 :: b) = stripZeros b := rfl
      rw [hdrop, ih, unsigned_cons, UInt8.toNat_zero, Nat.zero_mul, Nat.zero_add]
    · have hkeep : stripZeros (x :: b) = x :: b := by simp [stripZeros, hx]
      rw [hkeep, natBytes_unsigned (by simpa using hx)]

lemma stripZeros_eq_nil {b : Bytes} : stripZeros b = [] ↔ unsigned b = 0 := by
  rw [stripZeros_eq]
  constructor
  · intro h
    rw [← unsigned_natBytes (unsigned b), h, unsigned_nil]
  · intro h
    rw [h, natBytes_zero]

/-- `bitLen` is the number of bits. -/
lemma bitLen_natBytes (n : ℕ) : bitLen (natBytes n) = n.size := by
  have hval := unsigned_natBytes n
  have hhead := head_natBytes n
  cases hbytes : natBytes n with
  | nil =>
    rw [hbytes, unsigned_nil] at hval
    rw [← hval]
    rfl
  | cons b s =>
    rw [hbytes] at hval hhead
    have hs := unsigned_lt s
    have hpow : (256 : ℕ) ^ s.length = 2 ^ (s.length * 8) := by
      rw [Nat.mul_comm, pow_mul]
      rfl
    rw [unsigned_cons] at hval
    rw [hpow] at hval hs
    have hb : 0 < b.toNat := by
      rw [Nat.pos_iff_ne_zero]
      intro h0
      exact hhead (congrArg some (UInt8.toNat_inj.mp h0))
    -- the size is the number of bits above the first byte's place, and at most them
    have hle (k : ℕ) : n.size ≤ s.length * 8 + k ↔ b.toNat.size ≤ k := by
      rw [Nat.size_le, Nat.size_le, pow_add, ← hval]
      constructor
      · intro h
        by_contra hk
        have := Nat.mul_le_mul_right (2 ^ (s.length * 8)) (Nat.le_of_not_lt hk)
        rw [Nat.mul_comm (2 ^ k)] at this
        omega
      · intro h
        have := Nat.mul_le_mul_right (2 ^ (s.length * 8)) (Nat.succ_le_of_lt h)
        rw [Nat.succ_mul, Nat.mul_comm (2 ^ k)] at this
        omega
    have hupper := (hle b.toNat.size).mpr le_rfl
    have hsize : 0 < b.toNat.size := Nat.size_pos.mpr hb
    have hlower : ¬ n.size ≤ s.length * 8 + (b.toNat.size - 1) := fun h => by
      have := (hle _).mp h
      omega
    simp only [bitLen]
    omega

lemma last_natBytes (n : ℕ) : ((natBytes n).getLastD 0).toNat % 2 = n % 2 := by
  have hval := unsigned_natBytes n
  rcases List.eq_nil_or_concat' (natBytes n) with hnil | ⟨s, b, hs⟩
  · rw [hnil, unsigned_nil] at hval
    rw [hnil, ← hval]
    rfl
  · rw [hs, unsigned_concat] at hval
    rw [hs, List.getLastD_concat, ← hval]
    omega

/-! ## The caps -/

/-- The rule every RSA key meets. -/
structure Caps (n e d p q : ℕ) (crt : List ℕ) : Prop where
  modulus : n.size ≤ rsaMaxModulusBits
  privateExponent : d.size ≤ rsaMaxModulusBits
  primes : p.size ≤ rsaMaxPrimeBits ∧ q.size ≤ rsaMaxPrimeBits
  publicExponent : e.size ≤ rsaMaxExponentBits ∧ 1 < e ∧ e % 2 = 1
  crt : ∀ v ∈ crt, v.size ≤ rsaMaxPrimeBits

lemma two_le_size {n : ℕ} : 2 ≤ n.size ↔ 1 < n := by
  have h := Nat.size_le (m := n) (n := 1)
  omega

lemma checkRSAIntegers_iff {n e d p q : ℕ} {crt : List ℕ} :
    checkRSAIntegers (natBytes n) (natBytes e) (natBytes d) (natBytes p) (natBytes q)
      (crt.map natBytes) = .ok () ↔ Caps n e d p q crt := by
  simp only [checkRSAIntegers, bind_eq_ok, demand_eq_ok, bitLen_natBytes, last_natBytes,
    two_le_size, List.forall_mem_map, exists_const]
  constructor
  · rintro ⟨hn, hd, hpq, he, hcrt⟩
    exact ⟨hn, hd, hpq, he, hcrt⟩
  · rintro ⟨hn, hd, hpq, he, hcrt⟩
    exact ⟨hn, hd, hpq, he, hcrt⟩

/-- On magnitudes with any leading zeros, once they are stripped. -/
lemma checkRSAIntegers_strip {n e d p q : Bytes} {crt : List Bytes} :
    checkRSAIntegers (stripZeros n) (stripZeros e) (stripZeros d) (stripZeros p) (stripZeros q)
      (crt.map stripZeros) = .ok () ↔
      Caps (unsigned n) (unsigned e) (unsigned d) (unsigned p) (unsigned q)
        (crt.map unsigned) := by
  have hcrt : crt.map stripZeros = (crt.map unsigned).map natBytes := by
    rw [List.map_map]
    exact List.map_congr_left fun v _ => stripZeros_eq v
  rw [hcrt, stripZeros_eq, stripZeros_eq, stripZeros_eq, stripZeros_eq, stripZeros_eq,
    checkRSAIntegers_iff]

/-! ## Trees -/

/-- INTEGERs one after another. -/
def integers (cs : List Bytes) : Bytes := cs.flatMap (element INTEGER)

/-- The `otherPrimeInfos`: a SEQUENCE for each prime. -/
def primeInfos (infos : List (List Bytes)) : Bytes :=
  infos.flatMap fun cs => element SEQUENCE (integers cs)

/-- An `RSAPrivateKey`, with the content octets of each of its integers. -/
structure KeyTree where
  version : Bytes
  n : Bytes
  e : Bytes
  d : Bytes
  p : Bytes
  q : Bytes
  /-- exponent1, exponent2 and coefficient, as many as there are -/
  crt : List Bytes
  others : Option (List (List Bytes))

namespace KeyTree

/-- What the SEQUENCE holds after the eight integers. -/
def encodeOthers : Option (List (List Bytes)) → Bytes
  | none => []
  | some infos => element SEQUENCE (primeInfos infos)

def contents (t : KeyTree) : Bytes :=
  integers (t.version :: t.n :: t.e :: t.d :: t.p :: t.q :: t.crt) ++ encodeOthers t.others

def encode (t : KeyTree) : Bytes := element SEQUENCE t.contents

/-- Every integer after the version is within its bound, and there are no more than admitted. -/
structure Measured (t : KeyTree) : Prop where
  caps : Caps (unsigned t.n) (unsigned t.e) (unsigned t.d) (unsigned t.p) (unsigned t.q)
    (t.crt.map unsigned)
  crt_le : t.crt.length ≤ 3
  others_le : ∀ infos ∈ t.others, infos.length ≤ rsaMaxOtherPrimes
  three : ∀ infos ∈ t.others, ∀ cs ∈ infos, cs.length = 3
  small : ∀ infos ∈ t.others, ∀ cs ∈ infos, ∀ c ∈ cs, (unsigned c).size ≤ rsaMaxPrimeBits

end KeyTree

@[simp] lemma integers_nil : integers [] = [] := rfl

@[simp] lemma integers_cons (c : Bytes) (cs : List Bytes) :
    integers (c :: cs) = element INTEGER c ++ integers cs := List.flatMap_cons

@[simp] lemma primeInfos_nil : primeInfos [] = [] := rfl

@[simp] lemma primeInfos_cons (cs : List Bytes) (infos : List (List Bytes)) :
    primeInfos (cs :: infos) = element SEQUENCE (integers cs) ++ primeInfos infos :=
  List.flatMap_cons

lemma element_ne_nil (tag : Tag) (c : Bytes) : element tag c ≠ [] := by simp [element]

lemma peek_of_append {tag : Tag} {c rest s : Bytes} (h : s = element tag c ++ rest) :
    peekASN1Tag tag s = true := by
  rw [h, peekASN1Tag_element, beq_self_eq_true]

lemma peek_encodeOthers (others : Option (List (List Bytes))) :
    peekASN1Tag INTEGER (KeyTree.encodeOthers others) = false := by
  cases others with
  | none => rfl
  | some infos => rfl

/-! ## Readers -/

variable [Cryptobyte]

section Readers

variable {s rest : Bytes}

/-- The loop reads INTEGERs until there are `k` of them or something else comes. -/
lemma readIntegers_iff (hs : s.length < 2 ^ 32) {k : ℕ} {vs : List Bytes} :
    readIntegers k s = .ok (vs, rest) ↔
      ∃ cs : List Bytes, vs = cs.map stripZeros ∧ cs.length ≤ k ∧ s = integers cs ++ rest ∧
        (cs.length = k ∨ peekASN1Tag INTEGER rest = false) := by
  induction k generalizing s vs with
  | zero =>
    simp only [readIntegers, Except.ok.injEq, Prod.mk.injEq]
    constructor
    · rintro ⟨rfl, rfl⟩
      exact ⟨[], rfl, le_rfl, rfl, .inl rfl⟩
    · rintro ⟨cs, rfl, hlen, rfl, -⟩
      obtain rfl : cs = [] := List.length_eq_zero_iff.mp (Nat.le_zero.mp hlen)
      exact ⟨rfl, rfl⟩
  | succ k ih =>
    by_cases hpeek : peekASN1Tag INTEGER s = true
    · simp only [readIntegers, if_pos hpeek, bind_eq_ok, require_eq_ok, Prod.exists,
        Except.ok.injEq, Prod.mk.injEq, readASN1_of_short hs (by decide : LowTag INTEGER)]
      constructor
      · rintro ⟨c, tail, hc, ws, rest', hrest, rfl, rfl⟩
        obtain ⟨cs, rfl, hlen, rfl, hstop⟩ := (ih (short_contents hs hc).2).mp hrest
        refine ⟨c :: cs, rfl, Nat.succ_le_succ hlen, ?_, ?_⟩
        · rw [hc, integers_cons, List.append_assoc]
        · exact hstop.imp_left fun h => congrArg Nat.succ h
      · rintro ⟨cs, rfl, hlen, hcs, hstop⟩
        cases cs with
        | nil =>
          rw [hcs, integers_nil, List.nil_append] at hpeek
          rcases hstop with hstop | hstop
          · cases hstop
          · rw [hpeek] at hstop
            cases hstop
        | cons c cs =>
          rw [integers_cons, List.append_assoc] at hcs
          refine ⟨c, _, hcs, cs.map stripZeros, rest, ?_, rfl, rfl⟩
          exact (ih (short_contents hs hcs).2).mpr
            ⟨cs, rfl, Nat.le_of_succ_le_succ hlen, rfl, hstop.imp_left Nat.succ.inj⟩
    · simp only [readIntegers, if_neg hpeek, Except.ok.injEq, Prod.mk.injEq]
      constructor
      · rintro ⟨rfl, rfl⟩
        exact ⟨[], rfl, Nat.zero_le _, rfl, .inr (Bool.eq_false_iff.mpr hpeek)⟩
      · rintro ⟨cs, rfl, -, hcs, -⟩
        cases cs with
        | nil => exact ⟨rfl, hcs⟩
        | cons c cs =>
          rw [integers_cons, List.append_assoc] at hcs
          exact absurd (peek_of_append hcs) hpeek

/-- An entry of other primes holds the INTEGERs asked for and no more. -/
lemma checkPrimeInfo_iff (hs : s.length < 2 ^ 32) {k : ℕ} :
    checkPrimeInfo k s = .ok () ↔
      ∃ cs : List Bytes, cs.length = k ∧ s = integers cs ∧
        ∀ c ∈ cs, (unsigned c).size ≤ rsaMaxPrimeBits := by
  induction k generalizing s with
  | zero =>
    simp only [checkPrimeInfo, demand_eq_ok]
    constructor
    · rintro rfl
      exact ⟨[], rfl, rfl, fun c hc => absurd hc List.not_mem_nil⟩
    · rintro ⟨cs, hlen, rfl, -⟩
      rw [List.length_eq_zero_iff.mp hlen, integers_nil]
  | succ k ih =>
    simp only [checkPrimeInfo, bind_eq_ok, require_eq_ok, demand_eq_ok, Prod.exists, exists_const,
      readASN1_of_short hs (by decide : LowTag INTEGER), stripZeros_eq, bitLen_natBytes]
    constructor
    · rintro ⟨c, tail, hc, hsize, hrest⟩
      obtain ⟨cs, hlen, rfl, hsmall⟩ := (ih (short_contents hs hc).2).mp hrest
      refine ⟨c :: cs, congrArg Nat.succ hlen, by rw [hc, integers_cons], ?_⟩
      exact List.forall_mem_cons.mpr ⟨hsize, hsmall⟩
    · rintro ⟨cs, hlen, hcs, hsmall⟩
      cases cs with
      | nil => cases hlen
      | cons c cs =>
        rw [integers_cons] at hcs
        obtain ⟨hsize, hsmall⟩ := List.forall_mem_cons.mp hsmall
        refine ⟨c, _, hcs, hsize, ?_⟩
        exact (ih (short_contents hs hcs).2).mpr ⟨cs, Nat.succ.inj hlen, rfl, hsmall⟩

lemma checkOtherPrimes_iff (hs : s.length < 2 ^ 32) {k : ℕ} :
    checkOtherPrimes k s = .ok () ↔
      ∃ infos : List (List Bytes), infos.length ≤ k ∧ s = primeInfos infos ∧
        ∀ cs ∈ infos, cs.length = 3 ∧ ∀ c ∈ cs, (unsigned c).size ≤ rsaMaxPrimeBits := by
  induction k generalizing s with
  | zero =>
    simp only [checkOtherPrimes, demand_eq_ok]
    constructor
    · rintro rfl
      exact ⟨[], le_rfl, rfl, fun c hc => absurd hc List.not_mem_nil⟩
    · rintro ⟨infos, hlen, rfl, -⟩
      rw [List.length_eq_zero_iff.mp (Nat.le_zero.mp hlen), primeInfos_nil]
  | succ k ih =>
    rw [checkOtherPrimes]
    split
    next hnil =>
      simp only [true_iff]
      exact ⟨[], Nat.zero_le _, hnil, fun c hc => absurd hc List.not_mem_nil⟩
    next hnil =>
      simp only [bind_eq_ok, require_eq_ok, Prod.exists,
        readASN1_of_short hs (by decide : LowTag SEQUENCE)]
      constructor
      · rintro ⟨info, tail, hinfo, ⟨⟩, hthree, hrest⟩
        obtain ⟨hshort, htail⟩ := short_contents hs hinfo
        obtain ⟨cs, hcs, rfl, hsmall⟩ := (checkPrimeInfo_iff hshort).mp hthree
        obtain ⟨infos, hlen, rfl, hinfos⟩ := (ih htail).mp hrest
        refine ⟨cs :: infos, Nat.succ_le_succ hlen, by rw [hinfo, primeInfos_cons], ?_⟩
        exact List.forall_mem_cons.mpr ⟨⟨hcs, hsmall⟩, hinfos⟩
      · rintro ⟨infos, hlen, hinfos, hsmall⟩
        cases infos with
        | nil => exact absurd hinfos hnil
        | cons cs infos =>
          rw [primeInfos_cons] at hinfos
          obtain ⟨hcs, hrest⟩ := List.forall_mem_cons.mp hsmall
          obtain ⟨hshort, htail⟩ := short_contents hs hinfos
          refine ⟨_, _, hinfos, (), (checkPrimeInfo_iff hshort).mpr ⟨cs, hcs.1, rfl, hcs.2⟩, ?_⟩
          exact (ih htail).mpr ⟨infos, Nat.le_of_succ_le_succ hlen, rfl, hrest⟩

end Readers

/-! ## The structure -/

/-- What stands after the integers: nothing, or the other primes and nothing after them. -/
lemma checkOthers_iff {s : Bytes} (hs : s.length < 2 ^ 32) :
    (if s = [] then (.ok () : Except Err Unit)
      else do
        let (others, seq) ← require errMalformed (readASN1 SEQUENCE s)
        demand (seq = []) errMalformed
        checkOtherPrimes rsaMaxOtherPrimes others) = .ok () ↔
      ∃ others : Option (List (List Bytes)), s = KeyTree.encodeOthers others ∧
        ∀ infos ∈ others, infos.length ≤ rsaMaxOtherPrimes ∧
          ∀ cs ∈ infos, cs.length = 3 ∧ ∀ c ∈ cs, (unsigned c).size ≤ rsaMaxPrimeBits := by
  split
  next hnil =>
    simp only [true_iff]
    exact ⟨none, hnil, fun infos h => by cases h⟩
  next hnil =>
    simp only [bind_eq_ok, require_eq_ok, demand_eq_ok, Prod.exists, exists_const,
      readASN1_of_short hs (by decide : LowTag SEQUENCE)]
    constructor
    · rintro ⟨others, tail, hothers, rfl, hcheck⟩
      have hshort := (short_contents hs hothers).1
      obtain ⟨infos, hlen, rfl, hinfos⟩ := (checkOtherPrimes_iff hshort).mp hcheck
      refine ⟨some infos, by rw [hothers, List.append_nil]; rfl, ?_⟩
      rintro _ ⟨⟩
      exact ⟨hlen, hinfos⟩
    · rintro ⟨others, hothers, hinfos⟩
      cases others with
      | none => exact absurd hothers hnil
      | some infos =>
        have happend : s = element SEQUENCE (primeInfos infos) ++ [] := by
          rw [hothers, List.append_nil]
          rfl
        obtain ⟨hlen, hsmall⟩ := hinfos infos rfl
        refine ⟨_, [], happend, rfl, ?_⟩
        exact (checkOtherPrimes_iff (short_contents hs happend).1).mpr ⟨infos, hlen, rfl, hsmall⟩

/-- `checkPKCS1Size` accepts the encodings of the trees that are within the caps. -/
theorem checkPKCS1Size_iff {s : Bytes} :
    checkPKCS1Size s = .ok () ↔
      ∃ (t : KeyTree) (rest : Bytes), s = t.encode ++ rest ∧ t.encode.length < 2 ^ 32 ∧
        t.Measured := by
  simp only [checkPKCS1Size, bind_eq_ok, require_eq_ok, Prod.exists, readASN1_iff]
  constructor
  · rintro ⟨seq, rest, ⟨-, hshort, rfl⟩, version, body, ⟨-, -, hversion⟩, ints, tail, hints,
      hcheck⟩
    have hseq : seq.length < 2 ^ 32 := (length_le_element SEQUENCE seq).trans hshort
    obtain ⟨-, hbody⟩ := short_contents hseq hversion
    obtain ⟨cs, rfl, hlen, rfl, -⟩ := (readIntegers_iff hbody).mp hints
    have htail : tail.length < 2 ^ 32 := by
      rw [List.length_append] at hbody
      omega
    -- fewer than five integers are refused
    obtain _ | ⟨n, _ | ⟨e, _ | ⟨d, _ | ⟨p, _ | ⟨q, crt⟩⟩⟩⟩⟩ := cs
    case cons.cons.cons.cons.cons =>
      obtain ⟨⟨⟩, hcaps, hothers⟩ := bind_eq_ok.mp hcheck
      obtain ⟨others, rfl, hinfos⟩ := (checkOthers_iff htail).mp hothers
      refine ⟨⟨version, n, e, d, p, q, crt, others⟩, rest, ?_, ?_, ?_⟩
      · rw [hversion]
        simp [KeyTree.encode, KeyTree.contents]
      · rw [hversion] at hshort
        simpa [KeyTree.encode, KeyTree.contents] using hshort
      · refine ⟨checkRSAIntegers_strip.mp hcaps, ?_, fun infos h => (hinfos infos h).1,
          fun infos h cs hcs => ((hinfos infos h).2 cs hcs).1,
          fun infos h cs hcs => ((hinfos infos h).2 cs hcs).2⟩
        change crt.length ≤ 3
        simp only [List.length_cons] at hlen
        omega
    all_goals cases hcheck
  · rintro ⟨t, rest, rfl, hshort, ht⟩
    have hseq : t.contents.length < 2 ^ 32 := (length_le_element SEQUENCE _).trans hshort
    have hversion : t.contents = element INTEGER t.version ++
        (integers (t.n :: t.e :: t.d :: t.p :: t.q :: t.crt) ++
          KeyTree.encodeOthers t.others) := by
      rw [KeyTree.contents, integers_cons, List.append_assoc]
    obtain ⟨-, hbody⟩ := short_contents hseq hversion
    have htail : (KeyTree.encodeOthers t.others).length < 2 ^ 32 := by
      rw [List.length_append] at hbody
      omega
    have hfirst : (element INTEGER t.version).length < 2 ^ 32 := by
      rw [hversion, List.length_append] at hseq
      omega
    refine ⟨t.contents, rest, ⟨by decide, hshort, rfl⟩, t.version, _,
      ⟨by decide, hfirst, hversion⟩, _, KeyTree.encodeOthers t.others,
      (readIntegers_iff hbody).mpr ⟨_, rfl, ?_, rfl, .inr (peek_encodeOthers t.others)⟩, ?_⟩
    · have := ht.crt_le
      simp only [List.length_cons]
      omega
    · refine bind_eq_ok.mpr ⟨(), checkRSAIntegers_strip.mpr ht.caps, ?_⟩
      refine (checkOthers_iff htail).mpr ?_
      exact ⟨t.others, rfl, fun infos h =>
        ⟨ht.others_le infos h, fun cs hcs => ⟨ht.three infos h cs hcs, ht.small infos h cs hcs⟩⟩⟩

end Secmem.Crypto
