import Secmem.Crypto.RsaSizes
import Secmem.Crypto.Granted

/-!
# The structure assembled for an OpenSSH RSA key

`pkcs1DER` sizes a buffer from the lengths of nine integers, two of which it computes, and then
writes them.  Here the sizes and the writes are compared with the minimal encoding of the numbers:
`pkcs1Total_eq` is its length and `contents_pkcs1Writes` its bytes, so that the buffer is filled
and nothing is written outside it.

Which integers are assembled at all is `Assembles`.  On all others `pkcs1Fields` ends in an error
before anything is allocated.
-/

namespace Secmem.Crypto

open Ownership Der SliceWriter

/-! ## Length fields -/

lemma derLengthOctets_eq (n : ℕ) : derLengthOctets n = octets n := by
  induction n using Nat.strong_induction_on with
  | _ n ih =>
    rw [derLengthOctets]
    split
    next h => rw [h, octets, places_zero (by decide)]
    next h =>
      rw [ih (n / 256) (by omega)]
      exact (places_succ (by decide) (Nat.pos_of_ne_zero h)).symm

lemma derLengthLen_eq (n : ℕ) : derLengthLen n = (encodeLength n).length := by
  rw [derLengthLen, derLengthOctets_eq, length_encodeLength]

lemma contents_map_putByte {α : Type} (l : List α) (f : α → UInt8) :
    contents (l.map fun i => putByte (f i)) = l.map f := by
  induction l with
  | nil => rfl
  | cons a l ih =>
    rw [List.map_cons, contents_cons, ih]
    rfl

/-- A length is written as DER has it. -/
lemma contents_putLength {n : ℕ} (h : n < 2 ^ 32) : contents (putLength n) = encodeLength n := by
  have hfew : ∀ k < 5, 0x80 ||| UInt8.ofNat k = UInt8.ofNat (0x80 + k) := by decide
  have hoct : octets n ≤ 4 := octets_le_iff.mpr (by omega)
  have hshift (i : ℕ) : n >>> (8 * i) = n / 256 ^ i := by
    rw [Nat.shiftRight_eq_div_pow, pow_mul]
    rfl
  unfold putLength encodeLength
  split
  · rfl
  · simp only [derLengthOctets_eq, hshift]
    rw [contents_cons, contents_map_putByte, toBE_eq_map, List.map_reverse, putByte, Write.content,
      hfew _ (by omega)]
    rfl

/-! ## Integers -/

lemma high_iff (b : UInt8) : b &&& 0x80 ≠ 0 ↔ 0x80 ≤ b.toNat := by
  rw [and_128]
  split
  next h => simpa using h
  next h => simpa using Nat.le_of_not_lt h

lemma derContentLen_eq (v : ℕ) : derContentLen (natBytes v) = (natContents v).length := by
  unfold derContentLen natContents
  cases natBytes v with
  | nil => rfl
  | cons b s =>
    simp only [high_iff]
    split <;> rfl

lemma derEncodedLen_eq (v : ℕ) : derEncodedLen (natBytes v) = (integer v).length := by
  rw [derEncodedLen, derContentLen_eq, derLengthLen_eq, integer, element, List.length_cons,
    List.length_append]
  omega

/-- An integer is written as DER has it. -/
lemma contents_putInteger {v : ℕ} (h : (integer v).length < 2 ^ 32) :
    contents (putInteger (natBytes v)) = integer v := by
  have hlen : (natContents v).length < 2 ^ 32 := (length_le_element INTEGER _).trans h
  unfold putInteger
  rw [contents_append, contents_cons, derContentLen_eq, contents_putLength hlen]
  refine congrArg (fun body => [0x02] ++ encodeLength (natContents v).length ++ body)
    (?_ : _ = natContents v)
  unfold natContents
  cases natBytes v with
  | nil => rfl
  | cons b s =>
    simp only [high_iff]
    split
    · rw [contents_cons, contents_cons]
      simp [putByte, Write.content, contents]
    · simp [Write.content, contents]

/-! ## The structure -/

/-- A SEQUENCE of natural numbers. -/
def encodeIntegers (vs : List ℕ) : Bytes := element SEQUENCE (vs.flatMap integer)

lemma pkcs1Content_eq (vs : List ℕ) :
    pkcs1Content (vs.map natBytes) = (vs.flatMap integer).length := by
  rw [pkcs1Content, List.map_map, List.length_flatMap]
  exact congrArg List.sum (List.map_congr_left fun v _ => derEncodedLen_eq v)

/-- The size asked for is that of the encoding. -/
lemma pkcs1Total_eq (vs : List ℕ) :
    pkcs1Total (vs.map natBytes) = (encodeIntegers vs).length := by
  rw [pkcs1Total, pkcs1Content_eq, derLengthLen_eq, encodeIntegers, element, List.length_cons,
    List.length_append]
  omega

/-- What is written is the encoding. -/
lemma contents_pkcs1Writes {vs : List ℕ} (h : (encodeIntegers vs).length < 2 ^ 32) :
    contents (pkcs1Writes (vs.map natBytes)) = encodeIntegers vs := by
  have hbody : (vs.flatMap integer).length < 2 ^ 32 := (length_le_element SEQUENCE _).trans h
  have hints : contents ((vs.map natBytes).flatMap putInteger) = vs.flatMap integer := by
    clear h
    induction vs with
    | nil => rfl
    | cons v vs ih =>
      rw [List.flatMap_cons, List.length_append] at hbody
      rw [List.map_cons, List.flatMap_cons, List.flatMap_cons, contents_append,
        contents_putInteger (by omega), ih (by omega)]
  rw [pkcs1Writes, contents_append, contents_cons, pkcs1Content_eq, contents_putLength hbody, hints]
  rfl

lemma length_integer_le {v : ℕ} (h : v.size ≤ rsaMaxModulusBits) : (integer v).length ≤ 2060 := by
  have hoct : octets v ≤ 2048 := by
    have : rsaMaxModulusBits = 16384 := rfl
    rw [octets, places]
    omega
  have hcontents := length_natContents_le v
  have hlen : (encodeLength (natContents v).length).length ≤ 3 := by
    rw [length_encodeLength]
    have : octets (natContents v).length ≤ 2 := octets_le_iff.mpr (by omega)
    split <;> omega
  rw [integer, element, List.length_cons, List.length_append]
  omega

lemma length_encodeIntegers_lt {vs : List ℕ} (hvs : vs.length ≤ 9)
    (h : ∀ v ∈ vs, v.size ≤ rsaMaxModulusBits) : (encodeIntegers vs).length < 2 ^ 32 := by
  have hsum : (vs.flatMap integer).length ≤ vs.length * 2060 := by
    rw [List.length_flatMap, ← smul_eq_mul, ← List.length_map (fun v => (integer v).length)]
    refine List.sum_le_card_nsmul _ _ fun n hn => ?_
    obtain ⟨v, hv, rfl⟩ := List.mem_map.mp hn
    exact length_integer_le (h v hv)
  have hoct : octets (vs.flatMap integer).length ≤ 4 := octets_le_iff.mpr (by omega)
  rw [encodeIntegers, element, List.length_cons, List.length_append, length_encodeLength]
  split <;> omega

/-! ## The integers of the structure -/

/-- The integers of an `RSAPrivateKey`. -/
def rsaPrivateKey (n e d p q iqmp : ℕ) : List ℕ :=
  [0, n, e, d, p, q, d % (p - 1), d % (q - 1), iqmp]

/-- The integers a structure is assembled of: none of them zero, within the caps, and the primes
at least two. -/
structure Assembles (n e d p q iqmp : Bytes) : Prop where
  nonzero : ∀ b ∈ [n, e, d, p, q, iqmp], unsigned b ≠ 0
  sizes : checkRSAIntegers (stripZeros n) (stripZeros e) (stripZeros d) (stripZeros p)
    (stripZeros q) [stripZeros iqmp] = .ok ()
  primes : 2 ≤ unsigned p ∧ 2 ≤ unsigned q

section Fields

variable {n e d p q iqmp : Bytes}

lemma caps_of_sizes
    (h : checkRSAIntegers (stripZeros n) (stripZeros e) (stripZeros d) (stripZeros p)
      (stripZeros q) [stripZeros iqmp] = .ok ()) :
    Caps (unsigned n) (unsigned e) (unsigned d) (unsigned p) (unsigned q) [unsigned iqmp] :=
  (checkRSAIntegers_strip : checkRSAIntegers _ _ _ _ _ ([iqmp].map stripZeros) = _ ↔ _).mp h

/-- The caps on the numbers bound the lengths of the arrays. -/
lemma length_strip_le {b : Bytes} {k : ℕ} (h : (unsigned b).size ≤ k * 8) :
    (stripZeros b).length ≤ k := by
  rw [stripZeros_eq, length_natBytes, octets, places]
  omega

lemma stripZeros_toBE {v k : ℕ} (h : v < 256 ^ k) : stripZeros (toBE k v) = natBytes v := by
  rw [stripZeros_eq, unsigned_toBE, Nat.mod_eq_of_lt h]

lemma decrementBE_strip (b : Bytes) :
    decrementBE (stripZeros b) =
      if unsigned b = 0 then none
      else some (toBE (octets (unsigned b)) (unsigned b - 1)) := by
  rw [decrementBE_eq, stripZeros_eq, unsigned_natBytes, length_natBytes]

/-- One less than a prime takes no more bytes than the prime. -/
lemma pred_lt (v : ℕ) : v - 1 < 256 ^ octets v := by
  have := octets_le_iff.mp (le_refl (octets v))
  omega

/-- A CRT exponent, for a prime within its cap. -/
lemma reduceMod_strip {b : Bytes} (hb : 2 ≤ unsigned b) (hprime : (unsigned b).size ≤ 8192)
    (hd : (unsigned d).size ≤ 16384) :
    reduceMod (stripZeros d) (toBE (octets (unsigned b)) (unsigned b - 1)) =
      some (toBE (octets (unsigned b)) (unsigned d % (unsigned b - 1))) := by
  have hmod : unsigned (toBE (octets (unsigned b)) (unsigned b - 1)) = unsigned b - 1 := by
    rw [unsigned_toBE, Nat.mod_eq_of_lt (pred_lt _)]
  have hm : octets (unsigned b) * 8 ≤ rsaMaxPrimeBits := by
    have : rsaMaxPrimeBits = 8192 := rfl
    rw [octets, places]
    omega
  have hx : (stripZeros d).length * 8 ≤ rsaMaxModulusBits := by
    have hlen : (stripZeros d).length ≤ 2048 := length_strip_le (by omega)
    have hmax : rsaMaxModulusBits = 16384 := rfl
    omega
  rw [reduceMod_eq (by rw [length_toBE]; exact hm) hx, hmod, if_neg (by omega), length_toBE,
    stripZeros_eq, unsigned_natBytes]

/-- What is assembled, as numbers. -/
lemma pkcs1Fields_eq (h : Assembles n e d p q iqmp) :
    pkcs1Fields n e d p q iqmp =
      .ok ((rsaPrivateKey (unsigned n) (unsigned e) (unsigned d) (unsigned p) (unsigned q)
        (unsigned iqmp)).map natBytes) := by
  obtain ⟨hnonzero, hsizes, hp, hq⟩ := h
  have hcaps := caps_of_sizes hsizes
  have hmodulus : rsaMaxModulusBits = 16384 := rfl
  have hprime : rsaMaxPrimeBits = 8192 := rfl
  have hd := hcaps.privateExponent
  obtain ⟨hpsize, hqsize⟩ := hcaps.primes
  simp only [List.forall_mem_cons, List.not_mem_nil, false_imp_iff, implies_true, and_true]
    at hnonzero
  have hdec {b : Bytes} (hb : 2 ≤ unsigned b) : decrementBE (stripZeros b) =
      some (toBE (octets (unsigned b)) (unsigned b - 1)) := by
    rw [decrementBE_strip, if_neg (by omega)]
  have hpred {b : Bytes} (hb : 2 ≤ unsigned b) :
      stripZeros (toBE (octets (unsigned b)) (unsigned b - 1)) ≠ [] := by
    rw [ne_eq, stripZeros_eq_nil, unsigned_toBE, Nat.mod_eq_of_lt (pred_lt _)]
    omega
  have hexp {b : Bytes} (hb : 2 ≤ unsigned b) :
      stripZeros (toBE (octets (unsigned b)) (unsigned d % (unsigned b - 1))) =
        natBytes (unsigned d % (unsigned b - 1)) := by
    refine stripZeros_toBE ((Nat.mod_lt _ (by omega)).trans_le ?_)
    exact (pred_lt _).le
  unfold pkcs1Fields
  simp only [bind_eq_ok, demand_eq_ok, require_eq_ok, exists_const, Except.ok.injEq, ne_eq,
    stripZeros_eq_nil (b := n), stripZeros_eq_nil (b := e), stripZeros_eq_nil (b := d),
    stripZeros_eq_nil (b := p), stripZeros_eq_nil (b := q), stripZeros_eq_nil (b := iqmp)]
  refine ⟨hnonzero, (), hsizes, ⟨length_strip_le (by omega), length_strip_le (by omega)⟩,
    _, hdec hp, _, hdec hq, ⟨hpred hp, hpred hq⟩,
    _, reduceMod_strip hp (by omega) (by omega), _, reduceMod_strip hq (by omega) (by omega), ?_⟩
  rw [hexp hp, hexp hq]
  simp [rsaPrivateKey, stripZeros_eq]

/-- Whatever has fields is assembled. -/
lemma assembles_of_ok {fields : List Bytes} (h : pkcs1Fields n e d p q iqmp = .ok fields) :
    Assembles n e d p q iqmp := by
  unfold pkcs1Fields at h
  simp only [bind_eq_ok, demand_eq_ok, require_eq_ok, exists_const, ne_eq,
    stripZeros_eq_nil (b := n), stripZeros_eq_nil (b := e), stripZeros_eq_nil (b := d),
    stripZeros_eq_nil (b := p), stripZeros_eq_nil (b := q), stripZeros_eq_nil (b := iqmp)] at h
  obtain ⟨hnonzero, ⟨⟩, hsizes, -, pm1, hpm1, qm1, hqm1, ⟨hp, hq⟩, -⟩ := h
  have htwo {b m : Bytes} (hm : decrementBE (stripZeros b) = some m) (h : ¬ stripZeros m = []) :
      2 ≤ unsigned b := by
    rw [decrementBE_strip] at hm
    split at hm
    · cases hm
    · rw [← Option.some.inj hm, stripZeros_eq_nil, unsigned_toBE,
        Nat.mod_eq_of_lt (pred_lt _)] at h
      omega
  refine ⟨?_, hsizes, htwo hpm1 hp, htwo hqm1 hq⟩
  simpa only [List.forall_mem_cons, List.not_mem_nil, false_imp_iff, implies_true, and_true]
    using hnonzero

lemma malformed_checkRSAIntegers (n e d p q : Bytes) (crt : List Bytes) :
    Fails (fun x => x.Is .errMalformed) (checkRSAIntegers n e d p q crt) := by
  simp [checkRSAIntegers]

/-- The integers of a file are refused as malformed, and never by a panic. -/
lemma malformed_pkcs1Fields (n e d p q iqmp : Bytes) :
    Fails (fun x => x.Is .errMalformed) (pkcs1Fields n e d p q iqmp) := by
  simp only [pkcs1Fields, fails_bind, malformed_checkRSAIntegers, fails_demand, fails_require,
    is_errMalformed, implies_true, true_and, and_true, fails_ok]
  rintro - - ⟨⟩ hsizes hlong
  have hcaps := caps_of_sizes hsizes
  have hprime : rsaMaxPrimeBits = 8192 := rfl
  obtain ⟨hp, hq⟩ := hcaps.primes
  exact absurd ⟨length_strip_le (by omega), length_strip_le (by omega)⟩ hlong

end Fields

/-! ## The size rule on the result -/

lemma integers_map (vs : List ℕ) : integers (vs.map natContents) = vs.flatMap integer := by
  induction vs with
  | nil => rfl
  | cons v vs ih =>
    rw [List.map_cons, integers_cons, ih, List.flatMap_cons]
    rfl

lemma size_mod_le {a m : ℕ} (hm : 0 < m) : (a % m).size ≤ m.size :=
  Nat.size_le_size (Nat.mod_lt a hm).le

section Sizes

variable {n e d p q iqmp : ℕ}

/-- The CRT exponents are within the caps because the primes are. -/
lemma caps_rsaPrivateKey (h : Caps n e d p q [iqmp]) (hp : 2 ≤ p) (hq : 2 ≤ q) :
    Caps n e d p q [d % (p - 1), d % (q - 1), iqmp] := by
  have hexp {r : ℕ} (hr : 2 ≤ r) (hsize : r.size ≤ rsaMaxPrimeBits) :
      (d % (r - 1)).size ≤ rsaMaxPrimeBits :=
    ((size_mod_le (by omega)).trans (Nat.size_le_size (Nat.sub_le r 1))).trans hsize
  refine ⟨h.modulus, h.privateExponent, h.primes, h.publicExponent, ?_⟩
  simp only [List.forall_mem_cons, List.not_mem_nil, false_imp_iff, implies_true, and_true]
  exact ⟨hexp hp h.primes.1, hexp hq h.primes.2, h.crt iqmp List.mem_cons_self⟩

lemma length_rsaPrivateKey_lt (h : Caps n e d p q [iqmp]) (hp : 2 ≤ p) (hq : 2 ≤ q) :
    (encodeIntegers (rsaPrivateKey n e d p q iqmp)).length < 2 ^ 32 := by
  have hcaps := caps_rsaPrivateKey h hp hq
  have hwide : rsaMaxPrimeBits ≤ rsaMaxModulusBits := by decide
  have hexponent : rsaMaxExponentBits ≤ rsaMaxModulusBits := by decide
  refine length_encodeIntegers_lt (by simp [rsaPrivateKey]) ?_
  have hcrt := hcaps.crt
  simp only [rsaPrivateKey, List.forall_mem_cons, List.not_mem_nil, false_imp_iff, implies_true,
    and_true] at hcrt ⊢
  exact ⟨by simp, h.modulus, h.publicExponent.1.trans hexponent, h.privateExponent,
    h.primes.1.trans hwide, h.primes.2.trans hwide, hcrt.1.trans hwide, hcrt.2.1.trans hwide,
    hcrt.2.2.trans hwide⟩

/-- The size rule accepts what is assembled. -/
lemma checkPKCS1Size_rsaPrivateKey [Cryptobyte] (h : Caps n e d p q [iqmp]) (hp : 2 ≤ p)
    (hq : 2 ≤ q) : checkPKCS1Size (encodeIntegers (rsaPrivateKey n e d p q iqmp)) = .ok () := by
  let t : KeyTree := ⟨natContents 0, natContents n, natContents e, natContents d, natContents p,
    natContents q, [d % (p - 1), d % (q - 1), iqmp].map natContents, none⟩
  have hencode : t.encode = encodeIntegers (rsaPrivateKey n e d p q iqmp) := by
    rw [KeyTree.encode, encodeIntegers, ← integers_map, KeyTree.contents, KeyTree.encodeOthers,
      List.append_nil]
    rfl
  refine checkPKCS1Size_iff.mpr ⟨t, [], by rw [hencode, List.append_nil], ?_, ?_⟩
  · rw [hencode]
    exact length_rsaPrivateKey_lt h hp hq
  · have hnone : ∀ infos, infos ∉ t.others := fun infos => Option.not_mem_none infos
    refine ⟨?_, by simp [t], fun infos hi => absurd hi (hnone infos),
      fun infos hi => absurd hi (hnone infos), fun infos hi => absurd hi (hnone infos)⟩
    simpa [t] using caps_rsaPrivateKey h hp hq

end Sizes

/-! ## The call -/

/-- On a host that grants allocations, `pkcs1DER` assembles the minimal encoding in a buffer of
exactly its size, if the integers are in order, and otherwise fails with nothing allocated. -/
theorem pkcs1DER_exact [Cryptobyte] {E : Env} (hE : E.Grants) (h : Holdings Bytes Event)
    (n e d p q iqmp : Bytes) :
    let vs := rsaPrivateKey (unsigned n) (unsigned e) (unsigned d) (unsigned p) (unsigned q)
      (unsigned iqmp)
    (Assembles n e d p q iqmp →
      ∃ fields, pkcs1Fields n e d p q iqmp = .ok fields ∧
        (encodeIntegers vs).length = pkcs1Total fields ∧
        Writer.run ⟨List.replicate (pkcs1Total fields) 0, 0⟩ (pkcs1Writes fields) =
          some ⟨encodeIntegers vs, pkcs1Total fields⟩ ∧
        checkPKCS1Size (encodeIntegers vs) = .ok () ∧
        (pkcs1DER E n e d p q iqmp).wp h fun r h' =>
          r = .ok h.requests ∧ h' = h.grant (encodeIntegers vs)) ∧
    (¬ Assembles n e d p q iqmp →
      (pkcs1DER E n e d p q iqmp).wp h fun r h' =>
        ∃ err, r = .error err ∧ err.Is .errMalformed ∧ h' = h) := by
  intro vs
  refine ⟨fun hok => ?_, fun hbad => ?_⟩
  · have hcaps := caps_of_sizes hok.sizes
    have hshort := length_rsaPrivateKey_lt hcaps hok.primes.1 hok.primes.2
    have hfields := pkcs1Fields_eq hok
    have htotal := pkcs1Total_eq vs
    have hfill : Writer.run ⟨List.replicate (pkcs1Total (vs.map natBytes)) 0, 0⟩
        (pkcs1Writes (vs.map natBytes)) =
          some ⟨encodeIntegers vs, pkcs1Total (vs.map natBytes)⟩ := by
      have hlen : (contents (pkcs1Writes (vs.map natBytes))).length =
          (List.replicate (pkcs1Total (vs.map natBytes)) (0 : UInt8)).length := by
        rw [contents_pkcs1Writes hshort, List.length_replicate, htotal]
      have hrun := Writer.run_fill hlen
      rw [contents_pkcs1Writes hshort, List.length_replicate] at hrun
      exact hrun
    have hne : pkcs1Total (vs.map natBytes) ≠ 0 := by
      rw [htotal, encodeIntegers, element, List.length_cons]
      omega
    refine ⟨_, hfields, htotal.symm, hfill,
      checkPKCS1Size_rsaPrivateKey hcaps hok.primes.1 hok.primes.2, ?_⟩
    rw [pkcs1DER, Op.wp_bind, hfields, Op.wp_lift]
    dsimp only
    rw [Op.wp_bind, wp_newEmptyBuffer hE hne]
    dsimp only
    rw [Op.wp_bind, Op.wp_orRelease, Op.wp_bind, borrow, Op.wp_read (Holdings.held_grant h _)]
    dsimp only
    rw [hfill, require, Op.wp_bind, Op.wp_lift]
    dsimp only
    rw [Op.wp_bind, store, Op.wp_write (Holdings.held_grant h _)]
    dsimp only
    rw [Op.wp_lift, List.length_replicate, demand, if_pos rfl]
    dsimp only
    rw [Op.wp_pure, Holdings.write_grant]
    exact ⟨rfl, rfl⟩
  · rw [pkcs1DER, Op.wp_bind, Op.wp_lift]
    cases hfields : pkcs1Fields n e d p q iqmp with
    | ok fields => exact absurd (assembles_of_ok hfields) hbad
    | error err => exact ⟨err, rfl, malformed_pkcs1Fields n e d p q iqmp err hfields, rfl⟩

open Der.Cursor in
/-- The key with the primes 11 and 13, its modulus with a leading zero. -/
theorem pkcs1DER_eleven_thirteen :
    grantingEnv.Grants ∧ Assembles [0x00, 0x8f] [7] [103] [11] [13] [6] ∧
      (pkcs1DER grantingEnv [0x00, 0x8f] [7] [103] [11] [13] [6]).wp Holdings.empty fun r h' =>
        r = .ok 0 ∧
          h' = Holdings.empty.grant (encodeIntegers [0, 143, 7, 103, 11, 13, 3, 7, 6]) := by
  have hself (v : ℕ) : v.size ≤ v := Nat.size_le.mpr Nat.lt_two_pow_self
  have hbound {v k : ℕ} (h : v ≤ k) : v.size ≤ k := (hself v).trans h
  have hcaps : Caps 143 7 103 11 13 [6] := by
    refine ⟨hbound (by decide), hbound (by decide), ⟨hbound (by decide), hbound (by decide)⟩,
      ⟨hbound (by decide), by decide, by decide⟩, fun v hv => hbound ?_⟩
    rw [List.mem_singleton.mp hv]
    decide
  have hok : Assembles [0x00, 0x8f] [7] [103] [11] [13] [6] :=
    ⟨by decide, (checkRSAIntegers_strip : checkRSAIntegers _ _ _ _ _ ([[6]].map stripZeros) = _ ↔
      _).mpr hcaps, by decide⟩
  obtain ⟨fields, -, -, -, -, hcall⟩ := (pkcs1DER_exact grants_grantingEnv Holdings.empty
    [0x00, 0x8f] [7] [103] [11] [13] [6]).1 hok
  exact ⟨grants_grantingEnv, hok, hcall⟩

end Secmem.Crypto
