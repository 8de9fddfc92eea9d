import Secmem.Crypto.ScryptParams

/-!
# The grammar of a PBES2 file

What `readPBES2` reads, written down as the structures that can be encoded (`FileTree`) and their
encoding.  A tree carries the choices that the grammar leaves open: whether keyLength is present,
and which pseudo-random function is named, with the contents of the NULL-tagged element after it
if there is one.  Everything else about the bytes is fixed by the values.

`readPBES2_exact` says that a file is accepted exactly if it is the encoding of a tree that is in
order, and that the fields returned are the tree's.  Each reader has an `iff` of its own, for
inputs shorter than the cursor's limit of `2 ^ 32` bytes.
-/

namespace Secmem.Crypto

open Der

/-! ## Trees and their encoding -/

inductive Scheme
  | aes128CBC
  | aes192CBC
  | aes256CBC
  deriving DecidableEq, Repr

namespace Scheme

def oid : Scheme → ObjectIdentifier
  | aes128CBC => oidAES128CBC
  | aes192CBC => oidAES192CBC
  | aes256CBC => oidAES256CBC

def keyLen : Scheme → ℕ
  | aes128CBC => 16
  | aes192CBC => 24
  | aes256CBC => 32

end Scheme

/-- The identifier of HMAC over a hash. -/
def prfOID : InPlaceHash → ObjectIdentifier
  | .hashSHA1 => oidHMACArc ++ [7]
  | .hashSHA224 => oidHMACArc ++ [8]
  | .hashSHA256 => oidHMACArc ++ [9]
  | .hashSHA384 => oidHMACArc ++ [10]
  | .hashSHA512 => oidHMACArc ++ [11]
  | .hashSHA512_224 => oidHMACArc ++ [12]
  | .hashSHA512_256 => oidHMACArc ++ [13]

/-- A PRF that is named, with the contents of a NULL-tagged element after its identifier. -/
structure PRFTree where
  hash : InPlaceHash
  null : Option Bytes
  deriving DecidableEq, Repr

inductive KDFTree
  | pbkdf2 (salt : Bytes) (iter : ℕ) (keyLength : Bool) (prf : Option PRFTree)
  | scrypt (salt : Bytes) (N r p : ℕ) (keyLength : Bool)
  deriving DecidableEq, Repr

structure FileTree where
  kdf : KDFTree
  scheme : Scheme
  iv : Bytes
  ct : Bytes
  deriving DecidableEq, Repr

def sequence (c : Bytes) : Bytes := element SEQUENCE c

def oidElement (oid : ObjectIdentifier) : Bytes := element OBJECT_IDENTIFIER (encodeOID oid)

def octetString (c : Bytes) : Bytes := element OCTET_STRING c

def encodeKeyLength (keyLen : ℕ) (keyLength : Bool) : Bytes :=
  if keyLength = true then integer keyLen else []

def encodeNull : Option Bytes → Bytes
  | none => []
  | some c => element NULL c

def encodePRF : Option PRFTree → Bytes
  | none => []
  | some t => sequence (oidElement (prfOID t.hash) ++ encodeNull t.null)

namespace KDFTree

/-- The parameters of the key derivation. -/
def params (keyLen : ℕ) : KDFTree → Bytes
  | pbkdf2 salt iter keyLength prf =>
    octetString salt ++ (integer iter ++ (encodeKeyLength keyLen keyLength ++ encodePRF prf))
  | scrypt salt N r p keyLength =>
    octetString salt ++ (integer N ++ (integer r ++ (integer p ++
      encodeKeyLength keyLen keyLength)))

def oid : KDFTree → ObjectIdentifier
  | pbkdf2 _ _ _ _ => oidPBKDF2
  | scrypt _ _ _ _ _ => oidScrypt

def salt : KDFTree → Bytes
  | pbkdf2 salt _ _ _ => salt
  | scrypt salt _ _ _ _ => salt

/-- What the tree stands for; a PRF that is absent is HMAC-SHA-1. -/
def kdf : KDFTree → KDF
  | pbkdf2 _ iter _ prf => .pbkdf2 ((prf.map PRFTree.hash).getD .hashSHA1) iter
  | scrypt _ N r p _ => .scrypt N r p

/-- The bounds on the parameters. -/
def InOrder : KDFTree → Prop
  | pbkdf2 salt iter _ _ =>
    (salt ≠ [] ∧ salt.length ≤ maxPBES2Salt) ∧ 1 ≤ iter ∧ iter ≤ maxPBKDF2Iterations
  | scrypt salt N r p _ => (salt ≠ [] ∧ salt.length ≤ maxPBES2Salt) ∧ ScryptLimits N r p

def encode (keyLen : ℕ) (t : KDFTree) : Bytes :=
  sequence (oidElement t.oid ++ sequence (t.params keyLen))

end KDFTree

namespace FileTree

def encodeScheme (t : FileTree) : Bytes := sequence (oidElement t.scheme.oid ++ octetString t.iv)

def encode (t : FileTree) : Bytes :=
  sequence (sequence (oidElement oidPBES2 ++
    sequence (t.kdf.encode t.scheme.keyLen ++ t.encodeScheme)) ++ octetString t.ct)

def file (t : FileTree) : Pbes2File := ⟨t.kdf.kdf, t.scheme.keyLen, t.kdf.salt, t.iv, t.ct⟩

structure InOrder (t : FileTree) : Prop where
  kdf : t.kdf.InOrder
  iv : t.iv.length = 16
  ct : t.ct ≠ [] ∧ t.ct.length % 16 = 0

end FileTree

/-! ## What the trees hold -/

lemma Scheme.keyLen_lt (x : Scheme) : x.keyLen < 256 ^ 7 := by
  cases x <;> decide

lemma Scheme.decodeOID_oid (x : Scheme) : decodeOID (encodeOID x.oid) = some x.oid := by
  cases x <;> decide

lemma KDFTree.decodeOID_oid (t : KDFTree) : decodeOID (encodeOID t.oid) = some t.oid := by
  have hpbkdf2 : decodeOID (encodeOID oidPBKDF2) = some oidPBKDF2 := by decide
  have hscrypt : decodeOID (encodeOID oidScrypt) = some oidScrypt := by decide
  cases t with
  | pbkdf2 salt iter present prf => exact hpbkdf2
  | scrypt salt N r p present => exact hscrypt

lemma peek_nil (t : Tag) : peekASN1Tag t [] = false := rfl

lemma peek_encodePRF (prf : Option PRFTree) : peekASN1Tag INTEGER (encodePRF prf) = false := by
  cases prf <;> rfl

lemma below_eq_some {arc oid : ObjectIdentifier} {n : ℕ} :
    below arc oid = some n ↔ oid = arc ++ [n] := by
  unfold below
  constructor
  · intro h
    split at h
    next hc =>
      obtain ⟨hlen, htake⟩ := hc
      have hdrop : oid.drop arc.length = [n] := by
        obtain ⟨hlt, hget⟩ := List.getElem?_eq_some_iff.mp h
        rw [List.drop_eq_getElem_cons hlt, hget, List.drop_eq_nil_of_le (by omega)]
      rw [← List.take_append_drop arc.length oid, htake, hdrop]
    next => cases h
  · rintro rfl
    rw [if_pos ⟨by simp, by simp⟩]
    simp

lemma prfByOID_eq_some {oid : ObjectIdentifier} {h : InPlaceHash} :
    prfByOID oid = some h ↔ oid = prfOID h := by
  constructor
  · intro hprf
    unfold prfByOID at hprf
    split at hprf
    all_goals first
      | next hb =>
        obtain rfl := Option.some.inj hprf
        exact below_eq_some.mp hb
      | cases hprf
  · rintro rfl
    cases h <;> decide

lemma decodeOID_prfOID (h : InPlaceHash) : decodeOID (encodeOID (prfOID h)) = some (prfOID h) := by
  cases h <;> decide

lemma schemeKeyLen_iff {oid : ObjectIdentifier} {k : ℕ} :
    schemeKeyLen oid = .ok k ↔ ∃ x : Scheme, oid = x.oid ∧ x.keyLen = k := by
  constructor
  · intro h
    unfold schemeKeyLen at h
    split_ifs at h with h128 h192 h256
    · exact ⟨.aes128CBC, h128, Except.ok.inj h⟩
    · exact ⟨.aes192CBC, h192, Except.ok.inj h⟩
    · exact ⟨.aes256CBC, h256, Except.ok.inj h⟩
  · rintro ⟨x, rfl, rfl⟩
    cases x <;> rfl

lemma demandPBES2_iff {oid : ObjectIdentifier} {u : Unit} :
    demandPBES2 oid = .ok u ↔ oid = oidPBES2 := by
  unfold demandPBES2
  split
  next h => simp [h]
  next h =>
    split <;> simp [h]

/-! ## Elements of a bounded input -/

variable [Cryptobyte]

section Readers

variable {s c rest : Bytes} {tag : Tag}

lemma readOID_of_short (hs : s.length < 2 ^ 32) {oid : ObjectIdentifier}
    (hoid : decodeOID (encodeOID oid) = some oid) :
    readASN1ObjectIdentifier s = some (oid, rest) ↔ s = oidElement oid ++ rest := by
  refine ⟨fun h => (readASN1ObjectIdentifier_eq_some h).2, fun h => ?_⟩
  rw [h, List.length_append] at hs
  rw [h]
  exact readASN1ObjectIdentifier_element hoid (by simp only [oidElement] at hs; omega)

/-! ## The pseudo-random function -/

lemma skipNull_iff (hs : s.length < 2 ^ 32) :
    skipOptionalASN1 NULL s = some [] ↔ ∃ null, s = encodeNull null := by
  unfold skipOptionalASN1 readOptionalASN1
  split
  next hpeek =>
    simp only [Option.map_map, Option.map_eq_some_iff, Prod.exists, Function.comp_apply,
      readASN1_of_short hs (by decide : LowTag NULL)]
    constructor
    · rintro ⟨c, _, hs', rfl⟩
      exact ⟨some c, by rw [hs', List.append_nil, encodeNull]⟩
    · rintro ⟨null, hnull⟩
      cases null with
      | none =>
        rw [hnull] at hpeek
        cases hpeek
      | some c => exact ⟨c, [], by rw [hnull, List.append_nil, encodeNull], rfl⟩
  next hpeek =>
    simp only [Option.map_some, Option.some.injEq]
    constructor
    · rintro rfl
      exact ⟨none, rfl⟩
    · rintro ⟨null, rfl⟩
      cases null with
      | none => rfl
      | some c =>
        exfalso
        have hnull : peekASN1Tag NULL (element NULL c ++ []) = (NULL == NULL) :=
          peekASN1Tag_element NULL
        rw [List.append_nil] at hnull
        exact hpeek (hnull.trans (by decide))

/-- At the end of the parameters, the PRF is absent or named, and nothing follows it. -/
lemma readPRF_iff (hs : s.length < 2 ^ 32) {h : InPlaceHash} : readPRF s = .ok (h, []) ↔
    ∃ prf : Option PRFTree, s = encodePRF prf ∧ (prf.map PRFTree.hash).getD .hashSHA1 = h := by
  simp only [readPRF, bind_eq_ok, require_eq_ok, Prod.exists]
  constructor
  · rintro ⟨o, s', hopt, hmatch⟩
    unfold readOptionalASN1 at hopt
    split at hopt
    next hpeek =>
      obtain ⟨⟨c, r⟩, hread, heq⟩ := Option.map_eq_some_iff.mp hopt
      obtain ⟨rfl, rfl⟩ := Prod.mk.inj heq
      rw [readASN1_of_short hs (by decide)] at hread
      obtain ⟨hc, -⟩ := short_contents hs hread
      simp only [bind_eq_ok, require_eq_ok, demand_eq_ok, Prod.exists, Except.ok.injEq,
        Prod.mk.injEq] at hmatch
      obtain ⟨oid, prf, hoid, _, hskip, -, rfl, _, hprf, rfl, rfl⟩ := hmatch
      obtain rfl := prfByOID_eq_some.mp hprf
      rw [readOID_of_short hc (decodeOID_prfOID _)] at hoid
      obtain ⟨null, hnull⟩ := (skipNull_iff (short_contents hc hoid).2).mp hskip
      refine ⟨some ⟨_, null⟩, ?_, rfl⟩
      rw [hread, hoid, hnull, List.append_nil]
      rfl
    next hpeek =>
      obtain ⟨rfl, rfl⟩ := Prod.mk.inj (Option.some.inj hopt)
      obtain ⟨rfl, rfl⟩ := Prod.mk.inj (Except.ok.inj hmatch)
      exact ⟨none, rfl, rfl⟩
  · rintro ⟨prf, hprf, rfl⟩
    cases prf with
    | none =>
      subst hprf
      exact ⟨none, [], rfl, rfl⟩
    | some t =>
      have hread := (readASN1_of_short hs (by decide)).mpr
        (hprf.trans (List.append_nil _).symm)
      have hc := (short_contents hs ((readASN1_of_short hs (by decide)).mp hread)).1
      have hpeek := peek_of_readASN1 hread
      refine ⟨some _, [], by rw [readOptionalASN1, if_pos hpeek, hread]; rfl, ?_⟩
      simp only [bind_eq_ok, require_eq_ok, demand_eq_ok, Prod.exists, Except.ok.injEq,
        Prod.mk.injEq]
      have hnull := (short_contents hc rfl).2
      exact ⟨_, _, (readOID_of_short hc (decodeOID_prfOID _)).mpr rfl, [],
        (skipNull_iff hnull).mpr ⟨_, rfl⟩, (), rfl, _, prfByOID_eq_some.mpr rfl, rfl, trivial⟩

end Readers

/-! ## The key derivation -/

section KeyDerivation

variable {s rest salt : Bytes} {what : String} {keyLen : ℕ}

lemma readSalt_of_short (hs : s.length < 2 ^ 32) : readSalt what s = .ok (salt, rest) ↔
    s = octetString salt ++ rest ∧ salt ≠ [] ∧ salt.length ≤ maxPBES2Salt := by
  rw [readSalt_iff, readASN1_of_short hs (by decide)]
  rfl

/-- A count that is read, as the number it encodes. -/
lemma readCount_of_short (hs : s.length < 2 ^ 32) {x : Option ℕ} :
    readASN1Count s = some (x, rest) ↔ ∃ n, s = integer n ++ rest ∧ x = asCount n := by
  simp only [readASN1Count_iff, readASN1_of_short hs (by decide : LowTag INTEGER)]
  constructor
  · rintro ⟨c, hc, hshort, rfl⟩
    exact ⟨unsigned c, by rw [integer, natContents_of_shortest hshort]; exact hc, rfl⟩
  · rintro ⟨n, hn, rfl⟩
    exact ⟨natContents n, hn, shortest_natContents n, by rw [unsigned_natContents]⟩

/-- An INTEGER in the fewest octets, as the number it encodes. -/
lemma readNumber_of_short (hs : s.length < 2 ^ 32) {n : ℕ} :
    (∃ c, (readASN1 INTEGER s = some (c, rest) ∧ Shortest c) ∧ unsigned c = n) ↔
      s = integer n ++ rest := by
  simp only [readASN1_of_short hs (by decide : LowTag INTEGER)]
  constructor
  · rintro ⟨c, ⟨hc, hshort⟩, rfl⟩
    rw [integer, natContents_of_shortest hshort]
    exact hc
  · intro hn
    exact ⟨natContents n, ⟨hn, shortest_natContents n⟩, unsigned_natContents n⟩

/-- The bytes before `rest` are a keyLength or nothing; what follows decides where both are
possible, and an INTEGER may not. -/
lemma readKeyLength_of_short (hkey : keyLen < 256 ^ 7) (hs : s.length < 2 ^ 32)
    (hrest : peekASN1Tag INTEGER rest = false) :
    readKeyLength what keyLen s = .ok rest ↔
      ∃ present, s = encodeKeyLength keyLen present ++ rest := by
  rw [readKeyLength_iff hkey]
  constructor
  · rintro (⟨-, hs'⟩ | ⟨-, hs'⟩)
    · exact ⟨true, hs'⟩
    · exact ⟨false, hs'⟩
  · rintro ⟨present, hs'⟩
    cases present with
    | true =>
      refine .inl ⟨?_, hs'⟩
      rw [hs', List.length_append, encodeKeyLength, if_pos rfl] at hs
      omega
    | false =>
      obtain rfl : s = rest := hs'
      exact .inr ⟨hrest, rfl⟩

/-- `readPBKDF2Params` takes the parameters of a tree that is in order. -/
lemma readPBKDF2Params_iff (hkey : keyLen < 256 ^ 7) (hs : s.length < 2 ^ 32) {kdf : KDF} :
    readPBKDF2Params keyLen s = .ok (kdf, salt) ↔
      ∃ iter present prf, s = (KDFTree.pbkdf2 salt iter present prf).params keyLen ∧
        (KDFTree.pbkdf2 salt iter present prf).InOrder ∧
        (KDFTree.pbkdf2 salt iter present prf).kdf = kdf := by
  simp only [readPBKDF2Params, bind_eq_ok, require_eq_ok, demand_eq_ok, Prod.exists,
    Except.ok.injEq, Prod.mk.injEq, readSalt_of_short hs]
  constructor
  · rintro ⟨-, -, _, s₁, ⟨rfl, hsalt⟩, x, s₂, hcount, -, hzero, iter, hiter, s₃, hkeyLen, prf, s₄,
      hprf, -, rfl, rfl, rfl⟩
    have hs₁ := (short_contents hs rfl).2
    obtain ⟨n, rfl, rfl⟩ := (readCount_of_short hs₁).mp hcount
    obtain ⟨hle, hmax⟩ := Option.filter_eq_some_iff.mp hiter
    obtain ⟨-, rfl⟩ := asCount_eq_some.mp hle
    have hs₂ := (short_contents hs₁ rfl).2
    have hs₃ : s₃.length < 2 ^ 32 := by
      rcases (readKeyLength_iff hkey).mp hkeyLen with ⟨-, rfl⟩ | ⟨-, rfl⟩
      · exact (short_contents hs₂ rfl).2
      · exact hs₂
    obtain ⟨t, rfl, rfl⟩ := (readPRF_iff hs₃).mp hprf
    obtain ⟨present, rfl⟩ := (readKeyLength_of_short hkey hs₂ (peek_encodePRF t)).mp hkeyLen
    refine ⟨n, present, t, rfl, ⟨hsalt, ?_, of_decide_eq_true hmax⟩, rfl⟩
    exact Nat.one_le_iff_ne_zero.mpr fun h0 => hzero (by rw [h0]; rfl)
  · rintro ⟨iter, present, prf, rfl, ⟨hsalt, hone, hmax⟩, rfl⟩
    have hs₁ := (short_contents hs rfl).2
    have hs₂ := (short_contents hs₁ rfl).2
    have hs₃ : (encodePRF prf).length < 2 ^ 32 := by
      rw [List.length_append] at hs₂
      omega
    have hcount : asCount iter = some iter :=
      asCount_eq_some.mpr ⟨by simp only [maxPBKDF2Iterations] at hmax; omega, rfl⟩
    refine ⟨(), ?_, salt, _, ⟨rfl, hsalt⟩, _, _, (readCount_of_short hs₁).mpr ⟨iter, rfl, rfl⟩, (),
      ?_, iter, ?_, encodePRF prf,
      (readKeyLength_of_short hkey hs₂ (peek_encodePRF prf)).mpr ⟨present, rfl⟩, _, [],
      (readPRF_iff hs₃).mpr ⟨prf, rfl, rfl⟩, (), rfl, rfl, rfl⟩
    · rw [KDFTree.params, octetString, peekASN1Tag_element]
      rfl
    · rw [hcount]
      simp only [ne_eq, Option.some.injEq]
      omega
    · rw [hcount]
      exact Option.filter_eq_some_iff.mpr ⟨rfl, decide_eq_true hmax⟩

/-- `readScryptParams` takes the parameters of a tree that is in order. -/
lemma readScryptParams_tree (hkey : keyLen < 256 ^ 7) (hs : s.length < 2 ^ 32) {kdf : KDF} :
    readScryptParams keyLen s = .ok (kdf, salt) ↔
      ∃ N r p present, s = (KDFTree.scrypt salt N r p present).params keyLen ∧
        (KDFTree.scrypt salt N r p present).InOrder ∧
        (KDFTree.scrypt salt N r p present).kdf = kdf := by
  rw [readScryptParams_iff]
  constructor
  · rintro ⟨s₁, cN, s₂, cr, s₃, cp, s₄, hsalt, hN, hr, hp, hlimits, rfl, hkeyLen⟩
    obtain ⟨rfl, hsize⟩ := (readSalt_of_short hs).mp hsalt
    have hs₁ := (short_contents hs rfl).2
    obtain rfl := (readNumber_of_short hs₁).mp ⟨cN, hN, rfl⟩
    have hs₂ := (short_contents hs₁ rfl).2
    obtain rfl := (readNumber_of_short hs₂).mp ⟨cr, hr, rfl⟩
    have hs₃ := (short_contents hs₂ rfl).2
    obtain rfl := (readNumber_of_short hs₃).mp ⟨cp, hp, rfl⟩
    have hs₄ := (short_contents hs₃ rfl).2
    obtain ⟨present, hs'⟩ := (readKeyLength_of_short hkey hs₄ (peek_nil _)).mp hkeyLen
    rw [List.append_nil] at hs'
    subst hs'
    exact ⟨_, _, _, present, rfl, ⟨hsize, hlimits⟩, rfl⟩
  · rintro ⟨N, r, p, present, rfl, ⟨hsalt, hlimits⟩, rfl⟩
    have hs₁ := (short_contents hs rfl).2
    have hs₂ := (short_contents hs₁ rfl).2
    have hs₃ := (short_contents hs₂ rfl).2
    have hs₄ := (short_contents hs₃ rfl).2
    obtain ⟨cN, hN, rfl⟩ := (readNumber_of_short hs₁).mpr rfl
    obtain ⟨cr, hr, rfl⟩ := (readNumber_of_short hs₂).mpr rfl
    obtain ⟨cp, hp, rfl⟩ := (readNumber_of_short hs₃).mpr rfl
    exact ⟨_, cN, _, cr, _, cp, _, (readSalt_of_short hs).mpr ⟨rfl, hsalt⟩, hN, hr, hp, hlimits,
      rfl,
      (readKeyLength_of_short hkey hs₄ (peek_nil _)).mpr ⟨present, (List.append_nil _).symm⟩⟩

/-- Which of the two derivations is named decides how its parameters are read. -/
lemma readKDF_iff (hkey : keyLen < 256 ^ 7) (hs : s.length < 2 ^ 32) {kdf : KDF} :
    readKDF keyLen s = .ok (kdf, salt) ↔
      ∃ t : KDFTree, s = oidElement t.oid ++ sequence (t.params keyLen) ∧ t.InOrder ∧
        t.kdf = kdf ∧ t.salt = salt := by
  simp only [readKDF, bind_eq_ok, require_eq_ok, demand_eq_ok, Prod.exists]
  constructor
  · rintro ⟨oid, s₁, hoid, -, hknown, params, _, hparams, -, rfl, h⟩
    obtain ⟨-, rfl⟩ := readASN1ObjectIdentifier_eq_some hoid
    have hs₁ := (short_contents hs rfl).2
    rw [readASN1_of_short hs₁ (by decide)] at hparams
    subst hparams
    have hs₂ := (short_contents hs₁ rfl).1
    rw [List.append_nil]
    split at h
    next hscrypt =>
      subst hscrypt
      obtain ⟨N, r, p, present, rfl, hin, rfl⟩ := (readScryptParams_tree hkey hs₂).mp h
      exact ⟨_, rfl, hin, rfl, rfl⟩
    next hnot =>
      obtain rfl := hknown.resolve_right hnot
      obtain ⟨iter, present, prf, rfl, hin, rfl⟩ := (readPBKDF2Params_iff hkey hs₂).mp h
      exact ⟨_, rfl, hin, rfl, rfl⟩
  · rintro ⟨t, rfl, hin, rfl, rfl⟩
    have hs₁ := (short_contents hs rfl).2
    have hs₂ := (short_contents hs₁ (List.append_nil _).symm).1
    have hread := (readASN1_of_short hs₁ (by decide)).mpr (List.append_nil _).symm
    have hoid := (readOID_of_short hs t.decodeOID_oid).mpr rfl
    cases t with
    | pbkdf2 salt iter present prf =>
      have hne : ¬ oidPBKDF2 = oidScrypt := by decide
      refine ⟨_, _, hoid, (), .inl rfl, _, [], hread, (), rfl, (if_neg hne).trans ?_⟩
      exact (readPBKDF2Params_iff hkey hs₂).mpr ⟨iter, present, prf, rfl, hin, rfl⟩
    | scrypt salt N r p present =>
      refine ⟨_, _, hoid, (), .inr rfl, _, [], hread, (), rfl, (if_pos rfl).trans ?_⟩
      exact (readScryptParams_tree hkey hs₂).mpr ⟨N, r, p, present, rfl, hin, rfl⟩

end KeyDerivation

/-! ## The file -/

section File

variable {s der : Bytes}

/-- The outer structure, with nothing after any of its parts. -/
lemma readEncryptedPrivateKeyInfo_iff (hs : der.length < 2 ^ 32) {alg ct : Bytes} :
    readEncryptedPrivateKeyInfo der = .ok (oidPBES2, alg, ct) ↔
      der = sequence (sequence (oidElement oidPBES2 ++ alg) ++ octetString ct) := by
  simp only [readEncryptedPrivateKeyInfo, bind_eq_ok, require_eq_ok, demand_eq_ok, Prod.exists,
    Except.ok.injEq, Prod.mk.injEq, readASN1_of_short hs (by decide : LowTag SEQUENCE)]
  constructor
  · rintro ⟨seq, _, rfl, -, rfl, c, s₁, hc, oid, s₂, hoid, ct', _, hct, -, rfl, rfl, rfl, rfl⟩
    have hseq := (short_contents hs rfl).1
    rw [readASN1_of_short hseq (by decide)] at hc
    subst hc
    obtain ⟨hs₁, hs₂⟩ := short_contents hseq rfl
    rw [readOID_of_short hs₁ (by decide)] at hoid
    rw [readASN1_of_short hs₂ (by decide)] at hct
    subst hoid hct
    simp only [List.append_nil]
    rfl
  · rintro rfl
    have hseq := (short_contents hs (List.append_nil _).symm).1
    obtain ⟨hs₁, hs₂⟩ := short_contents hseq rfl
    exact ⟨_, [], (List.append_nil _).symm, (), rfl, _, _,
      (readASN1_of_short hseq (by decide)).mpr rfl, _, _,
      (readOID_of_short hs₁ (by decide)).mpr rfl, _, [],
      (readASN1_of_short hs₂ (by decide)).mpr (List.append_nil _).symm, (), rfl, rfl, rfl, rfl⟩

/-- A file that is read is bounded, by the cursor itself. -/
lemma length_of_readPBES2 {f : Pbes2File} (h : readPBES2 der = .ok f) : der.length < 2 ^ 32 := by
  simp only [readPBES2, readEncryptedPrivateKeyInfo, bind_eq_ok, require_eq_ok, demand_eq_ok,
    Prod.exists] at h
  obtain ⟨_, _, _, ⟨seq, rest, hseq, -, rfl, -⟩, -⟩ := h
  obtain ⟨-, hlen, rfl⟩ := readASN1_iff.mp hseq
  rwa [List.append_nil]

lemma readPBES2_of_short (hs : der.length < 2 ^ 32) {f : Pbes2File} :
    readPBES2 der = .ok f ↔ ∃ t : FileTree, t.InOrder ∧ t.encode = der ∧ t.file = f := by
  simp only [readPBES2, bind_eq_ok, require_eq_ok, demand_eq_ok, Prod.exists, Except.ok.injEq,
    demandPBES2_iff, schemeKeyLen_iff]
  constructor
  · rintro ⟨_, alg, ct, hinfo, -, rfl, params, _, hparams, -, rfl, kdf, s₁, hkdf, scheme, _,
      hscheme,
      -, rfl, oid, s₂, hoid, _, ⟨x, rfl, rfl⟩, iv, _, hiv, -, ⟨rfl, hivLen⟩, k, salt, hread, -, hct,
      rfl⟩
    rw [readEncryptedPrivateKeyInfo_iff hs] at hinfo
    subst hinfo
    have hinfo := (short_contents hs (List.append_nil _).symm).1
    have halg := (short_contents (short_contents hinfo rfl).1 rfl).2
    rw [readASN1_of_short halg (by decide)] at hparams
    subst hparams
    have hparams := (short_contents halg rfl).1
    rw [readASN1_of_short hparams (by decide)] at hkdf
    subst hkdf
    obtain ⟨hkdf, hs₁⟩ := short_contents hparams rfl
    rw [readASN1_of_short hs₁ (by decide)] at hscheme
    subst hscheme
    have hscheme := (short_contents hs₁ rfl).1
    rw [readOID_of_short hscheme x.decodeOID_oid] at hoid
    subst hoid
    rw [readASN1_of_short (short_contents hscheme rfl).2 (by decide)] at hiv
    subst hiv
    obtain ⟨t, rfl, hin, rfl, rfl⟩ := (readKDF_iff x.keyLen_lt hkdf).mp hread
    refine ⟨⟨t, x, iv, ct⟩, ⟨hin, hivLen, hct⟩, ?_, rfl⟩
    simp only [List.append_nil]
    rfl
  · rintro ⟨t, hin, rfl, rfl⟩
    have hinfo := (short_contents hs (List.append_nil _).symm).1
    have halg := (short_contents (short_contents hinfo rfl).1 rfl).2
    have hparams := (short_contents halg (List.append_nil _).symm).1
    obtain ⟨hkdf, hs₁⟩ := short_contents hparams rfl
    have hscheme := (short_contents hs₁ (List.append_nil _).symm).1
    have hiv := (short_contents hscheme rfl).2
    exact ⟨_, _, _, (readEncryptedPrivateKeyInfo_iff hs).mpr rfl, (), rfl, _, [],
      (readASN1_of_short halg (by decide)).mpr (List.append_nil _).symm, (), rfl, _, _,
      (readASN1_of_short hparams (by decide)).mpr rfl, _, [],
      (readASN1_of_short hs₁ (by decide)).mpr (List.append_nil _).symm, (), rfl, _, _,
      (readOID_of_short hscheme t.scheme.decodeOID_oid).mpr rfl, _, ⟨_, rfl, rfl⟩, _, [],
      (readASN1_of_short hiv (by decide)).mpr (List.append_nil _).symm, (), ⟨rfl, hin.iv⟩, _, _,
      (readKDF_iff t.scheme.keyLen_lt hkdf).mpr ⟨t.kdf, rfl, hin.kdf, rfl, rfl⟩, (), hin.ct, rfl⟩

/-- `readPBES2` accepts exactly the encodings of the trees that are in order, and returns their
fields; every other byte string is refused.  The bound is the cursor's. -/
theorem readPBES2_exact (der : Bytes) (f : Pbes2File) :
    readPBES2 der = .ok f ↔
      der.length < 2 ^ 32 ∧ ∃ t : FileTree, t.InOrder ∧ t.encode = der ∧ t.file = f := by
  constructor
  · intro h
    have hs := length_of_readPBES2 h
    exact ⟨hs, (readPBES2_of_short hs).mp h⟩
  · rintro ⟨hs, h⟩
    exact (readPBES2_of_short hs).mpr h

end File

end Secmem.Crypto
