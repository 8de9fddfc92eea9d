import Secmem.Framework.Slices
import Secmem.Crypto.RsaSizes
import Secmem.Crypto.Granted

/-!
# What reaches the standard library's RSA parser

`newRSASigner` and `Sign` of `rsa.go` with the slices they work on.  The constructor locates the
key in the borrowed bytes, measures it, parses it and remembers where it was, as an offset that it
recovers from capacities; `Sign` slices the bytes of a later borrow at that place and parses them
again.  Both are written with a record of the inputs on which the parser was called.

`result_newKey` ties the constructor to `rsaPublic`, which the parsers of the containers use, and
`newKey_measured` is about the record: the parser sees measured structures only, and `Sign` gives
it the bytes that were measured.
-/

namespace Secmem.Crypto

open Der

/-! ## The model -/

/-- What a call returns, and the inputs of `x509.ParsePKCS1PrivateKey` on the way. -/
structure Traced (α : Type) where
  result : Except Err α
  parsed : List Bytes

/-- What an `RSASigner` keeps besides its buffer. -/
structure RSAKey where
  keyOff : ℕ
  keyLen : ℕ
  pub : Bytes

section Signer

variable [Cryptobyte] {mem : Bytes}

/-- `locatePKCS1`, which returns a slice of the one it is given. -/
def locateSlice (der : Slice mem) : Except Err (Option (Slice mem)) := do
  let (seq, _) ← require errNotRSADER (readASN1Slice SEQUENCE der)
  let (_, seq) ← require errNotRSADER (readASN1Slice INTEGER seq)
  if peekASN1Tag INTEGER seq.elems = true then .ok (some der)
  else if peekASN1Tag SEQUENCE seq.elems = true then do
    let (alg, seq) ← require errNotRSADER (readASN1Slice SEQUENCE seq)
    let (oid, _) ← require errNotRSADER (readASN1Slice OBJECT_IDENTIFIER alg)
    let (priv, _) ← require errNotRSADER (readASN1Slice OCTET_STRING seq)
    .ok (if oid.elems = oidRSADER then some priv else none)
  else .error errNotRSADER

/-- `subsliceOffset`. -/
def subsliceOffset (outer inner : Slice mem) : Option ℕ := Slice.offsetIn outer inner

variable (E : Env)

/-- `parsePKCS1`. -/
def parsePKCS1 (pkcs1 : Bytes) : Except Err Bytes :=
  match E.parsePKCS1PrivateKey pkcs1 with
  | .error text => .error (.new ("secmemcrypto: parse PKCS#1: " ++ text))
  | .ok pub => .ok pub

/-- `errors.Join(err, wipeRSAPrivateKey(key))`, for what a call has come to. -/
def joinWipe {α : Type} (r : Except Err α) : Except Err α :=
  match r, E.wipeRSA with
  | r, none => r
  | .ok _, some text => .error (.new text)
  | .error e, some text => .error (e.join (.new text))

/-- The callback of `newRSASigner` on the borrowed bytes. -/
def newKey (der : Slice mem) : Traced RSAKey :=
  match locateSlice der with
  | .error e => ⟨.error e, []⟩
  | .ok none => ⟨.error (rejectNonRSAPKCS8 der.elems), []⟩
  | .ok (some pkcs1) =>
    match checkPKCS1Size pkcs1.elems with
    | .error e => ⟨.error e, []⟩
    | .ok () =>
      { parsed := [pkcs1.elems]
        result := match parsePKCS1 E pkcs1.elems with
          | .error e => .error e
          | .ok pub => joinWipe E (match subsliceOffset der pkcs1 with
            | none => .error (.new "secmemcrypto: internal: RSA key not located inside its buffer")
            | some off => .ok ⟨off, pkcs1.len, pub⟩) }

/-- The options of `Sign`. -/
inductive SignerOpts
  | nil
  | nilPSSOptions
  | given
  deriving DecidableEq, Repr

/-- `RSASigner.Sign` on the borrowed bytes, where `sign` is what `priv.Sign` returns for the key
it is called on. -/
def signKey (sign : Bytes → Except Err Bytes) (key : RSAKey) (opts : SignerOpts)
    (der : Slice mem) : Traced Bytes :=
  match opts with
  | .nil => ⟨.error (.new ("secmemcrypto: rsa sign: nil opts (pass the digest's crypto.Hash, or " ++
      "*rsa.PSSOptions)")), []⟩
  | .nilPSSOptions => ⟨.error (.new ("secmemcrypto: rsa sign: nil *rsa.PSSOptions (pass a " ++
      "non-nil *rsa.PSSOptions, or the digest's crypto.Hash for PKCS#1 v1.5)")), []⟩
  | .given =>
    if h : key.keyOff + key.keyLen ≤ der.len then
      let pkcs1 := der.sub key.keyOff (key.keyOff + key.keyLen) (Nat.le_add_right _ _) h
      { parsed := [pkcs1.elems]
        result := match parsePKCS1 E pkcs1.elems with
          | .error e => .error e
          | .ok _ => joinWipe E (sign pkcs1.elems) }
    else ⟨.error (.new "secmemcrypto: key buffer is shorter than the key it was built with"), []⟩

/-! ## Locating the key -/

/-- Two computations end in the same error, or in related values. -/
def Agrees {α β : Type} (R : α → β → Prop) : Except Err α → Except Err β → Prop
  | .ok a, .ok b => R a b
  | .error e, .error e' => e = e'
  | _, _ => False

omit [Cryptobyte] in
lemma agrees_bind {α β γ δ : Type} {R : α → β → Prop} {S : γ → δ → Prop} {x : Except Err α}
    {y : Except Err β} {f : α → Except Err γ} {g : β → Except Err δ} (h : Agrees R x y)
    (hfg : ∀ a b, R a b → Agrees S (f a) (g b)) : Agrees S (x >>= f) (y >>= g) := by
  cases x with
  | error e =>
    cases y with
    | error e' => exact h
    | ok b => exact h.elim
  | ok a =>
    cases y with
    | error e' => exact h.elim
    | ok b => exact hfg a b h

/-- One element read off a slice and off its bytes. -/
lemma agrees_read (e : Err) (tag : Tag) (s : Slice mem) :
    Agrees (fun x y => (x.1.elems, x.2.elems) = y ∧ x.1.Within s ∧ x.2.Within s)
      (require e (readASN1Slice tag s)) (require e (readASN1 tag s.elems)) := by
  rcases readASN1Slice_cases tag s with ⟨hs, hb⟩ | ⟨c, r, hs, hb, hc, hr⟩
  · rw [hs, hb]
    exact rfl
  · rw [hs, hb]
    exact ⟨rfl, hc, hr⟩

/-- What is located is a slice of the buffer, and its bytes are those that the parsers of the
containers see. -/
lemma agrees_locate (der : Slice mem) :
    Agrees (fun x y => x.map Slice.elems = y ∧ ∀ s ∈ x, s.Within der)
      (locateSlice der) (locatePKCS1 der.elems) := by
  refine agrees_bind (agrees_read errNotRSADER SEQUENCE der) ?_
  rintro ⟨seq, _⟩ _ ⟨rfl, hseq, -⟩
  refine agrees_bind (agrees_read errNotRSADER INTEGER seq) ?_
  rintro ⟨_, rest⟩ _ ⟨rfl, -, hrest⟩
  dsimp only
  split
  · refine ⟨rfl, ?_⟩
    rintro _ ⟨⟩
    exact Slice.Within.refl der
  split
  · refine agrees_bind (agrees_read errNotRSADER SEQUENCE rest) ?_
    rintro ⟨alg, tail⟩ _ ⟨rfl, -, htail⟩
    refine agrees_bind (agrees_read errNotRSADER OBJECT_IDENTIFIER alg) ?_
    rintro ⟨oid, _⟩ _ ⟨rfl, -, -⟩
    refine agrees_bind (agrees_read errNotRSADER OCTET_STRING tail) ?_
    rintro ⟨priv, _⟩ _ ⟨rfl, hpriv, -⟩
    dsimp only
    split
    · refine ⟨rfl, ?_⟩
      rintro _ ⟨⟩
      exact hpriv.trans (htail.trans (hrest.trans hseq))
    · exact ⟨rfl, fun s hs => absurd hs (Option.not_mem_none s)⟩
  · exact rfl

lemma locateSlice_cases (der : Slice mem) :
    (∃ e, locateSlice der = .error e ∧ locatePKCS1 der.elems = .error e) ∨
      (locateSlice der = .ok none ∧ locatePKCS1 der.elems = .ok none) ∨
      ∃ s, locateSlice der = .ok (some s) ∧ locatePKCS1 der.elems = .ok (some s.elems) ∧
        s.Within der := by
  have h := agrees_locate der
  cases hs : locateSlice der with
  | error e =>
    cases hb : locatePKCS1 der.elems with
    | error e' =>
      rw [hs, hb] at h
      exact .inl ⟨e, rfl, congrArg Except.error h.symm⟩
    | ok y =>
      rw [hs, hb] at h
      exact h.elim
  | ok x =>
    cases hb : locatePKCS1 der.elems with
    | error e' =>
      rw [hs, hb] at h
      exact h.elim
    | ok y =>
      rw [hs, hb] at h
      obtain ⟨rfl, hwithin⟩ := h
      cases x with
      | none => exact .inr (.inl ⟨rfl, rfl⟩)
      | some s => exact .inr (.inr ⟨s, rfl, rfl, hwithin s rfl⟩)

/-- Nothing that is measured is empty. -/
lemma ne_nil_of_checkPKCS1Size {s : Bytes} (h : checkPKCS1Size s = .ok ()) : s ≠ [] := by
  obtain ⟨t, rest, rfl, -, -⟩ := checkPKCS1Size_iff.mp h
  exact List.append_ne_nil_of_left_ne_nil (element_ne_nil _ _) rest

variable {E}

/-- The constructor and `rsaPublic` agree on every result. -/
theorem result_newKey (der : Slice mem) :
    (newKey E der).result.map RSAKey.pub = rsaPublic E der.elems := by
  unfold newKey rsaPublic
  rcases locateSlice_cases der with ⟨e, hs, hb⟩ | ⟨hs, hb⟩ | ⟨pkcs1, hs, hb, hwithin⟩
  · rw [hs, hb]
    rfl
  · rw [hs, hb]
    rfl
  rw [hs, hb]
  dsimp only
  change _ = (checkPKCS1Size pkcs1.elems >>= fun _ => _)
  cases hcheck : checkPKCS1Size pkcs1.elems with
  | error e => rfl
  | ok u =>
    have hne := ne_nil_of_checkPKCS1Size hcheck
    obtain ⟨i, hi, -, -⟩ := Slice.offsetIn_of_within hwithin (Slice.len_ne_zero hne)
    simp only [subsliceOffset, hi, parsePKCS1, joinWipe, if_neg hne]
    cases E.parsePKCS1PrivateKey pkcs1.elems with
    | error text => rfl
    | ok pub => cases E.wipeRSA <;> rfl

/-! ## The record -/

/-- What the constructor parses it has measured, and it remembers its place. -/
lemma newKey_cases (E : Env) (der : Slice mem) :
    ((newKey E der).parsed = [] ∧ ∃ e, (newKey E der).result = .error e) ∨
      ∃ pkcs1 : Bytes, (newKey E der).parsed = [pkcs1] ∧
        locatePKCS1 der.elems = .ok (some pkcs1) ∧ checkPKCS1Size pkcs1 = .ok () ∧
        ∀ key, (newKey E der).result = .ok key →
          key.keyOff + key.keyLen ≤ der.len ∧
            (der.elems.drop key.keyOff).take key.keyLen = pkcs1 := by
  unfold newKey
  rcases locateSlice_cases der with ⟨e, hs, hb⟩ | ⟨hs, hb⟩ | ⟨pkcs1, hs, hb, hwithin⟩
  · rw [hs]
    exact .inl ⟨rfl, _, rfl⟩
  · rw [hs]
    exact .inl ⟨rfl, _, rfl⟩
  rw [hs]
  dsimp only
  cases hcheck : checkPKCS1Size pkcs1.elems with
  | error e => exact .inl ⟨rfl, e, rfl⟩
  | ok u =>
    refine .inr ⟨pkcs1.elems, rfl, hb, hcheck, fun key hkey => ?_⟩
    obtain ⟨i, hi, hroom, hbytes⟩ := Slice.offsetIn_of_within hwithin
      (Slice.len_ne_zero (ne_nil_of_checkPKCS1Size hcheck))
    simp only [subsliceOffset, hi] at hkey
    cases hparse : parsePKCS1 E pkcs1.elems with
    | error e =>
      rw [hparse] at hkey
      cases hkey
    | ok pub =>
      rw [hparse] at hkey
      cases hwipe : E.wipeRSA with
      | some text =>
        simp only [joinWipe, hwipe] at hkey
        cases hkey
      | none =>
        simp only [joinWipe, hwipe, Except.ok.injEq] at hkey
        rw [← hkey]
        exact ⟨hroom, hbytes⟩

omit [Cryptobyte] in
/-- `Sign` parses the bytes at the place it was given. -/
lemma parsed_signKey (sign : Bytes → Except Err Bytes) {key : RSAKey} (der : Slice mem)
    (h : key.keyOff + key.keyLen ≤ der.len) :
    (signKey E sign key .given der).parsed =
      [(der.elems.drop key.keyOff).take key.keyLen] := by
  simp only [signKey, dif_pos h, Slice.elems_sub, Nat.add_sub_cancel_left]

/-- The standard library's parser is called on measured structures only, and every `Sign` on the
same bytes calls it on the structure that the constructor measured. -/
theorem newKey_measured (E : Env) (der : Slice mem) :
    (∀ pkcs1 ∈ (newKey E der).parsed,
      ∃ (t : KeyTree) (rest : Bytes), pkcs1 = t.encode ++ rest ∧ t.Measured) ∧
    ∀ key, (newKey E der).result = .ok key →
      ∃ pkcs1, (newKey E der).parsed = [pkcs1] ∧ checkPKCS1Size pkcs1 = .ok () ∧
        ∀ {mem' : Bytes} (der' : Slice mem'), der'.elems = der.elems →
          ∀ sign opts, (signKey E sign key opts der').parsed =
            if opts = .given then [pkcs1] else [] := by
  rcases newKey_cases E der with ⟨hnone, e, herror⟩ | ⟨pkcs1, hone, -, hcheck, hplace⟩
  · refine ⟨fun pkcs1 h => ?_, fun key hkey => ?_⟩
    · rw [hnone] at h
      cases h
    · rw [herror] at hkey
      cases hkey
  · refine ⟨fun b hb => ?_, fun key hkey => ⟨pkcs1, hone, hcheck, ?_⟩⟩
    · rw [hone] at hb
      rw [List.mem_singleton.mp hb]
      obtain ⟨t, rest, hencode, -, hmeasured⟩ := checkPKCS1Size_iff.mp hcheck
      exact ⟨t, rest, hencode, hmeasured⟩
    · intro mem' der' hsame sign opts
      obtain ⟨hroom, hbytes⟩ := hplace key hkey
      have hlen : der'.len = der.len := by
        rw [← der'.length_elems, hsame, der.length_elems]
      cases opts with
      | nil => rfl
      | nilPSSOptions => rfl
      | given =>
        rw [parsed_signKey sign der' (by omega), hsame, hbytes]
        rfl

end Signer

/-- A structure of the five integers that define a key. -/
def smallKey : KeyTree := ⟨[0], [0x21], [3], [7], [3], [11], [], none⟩

lemma measured_smallKey : smallKey.Measured := by
  have hbound {v k : ℕ} (h : v ≤ k) : v.size ≤ k :=
    (Nat.size_le.mpr Nat.lt_two_pow_self).trans h
  refine ⟨⟨hbound (by decide), hbound (by decide), ⟨hbound (by decide), hbound (by decide)⟩,
    ⟨hbound (by decide), by decide, by decide⟩, fun v hv => absurd hv List.not_mem_nil⟩,
    by decide, fun infos h => (Option.not_mem_none infos h).elim,
    fun infos h => (Option.not_mem_none infos h).elim,
    fun infos h => (Option.not_mem_none infos h).elim⟩

/-- A host whose parser accepts everything. -/
def acceptingEnv : Env := { grantingEnv with parsePKCS1PrivateKey := fun _ => .ok [] }

open Der.Cursor in
/-- Such a parser is given the small key, at first and by `Sign`. -/
theorem newKey_smallKey :
    ∃ key, (newKey acceptingEnv (Slice.whole smallKey.encode)).result = .ok key ∧
      (signKey acceptingEnv (fun _ => .ok []) key .given (Slice.whole smallKey.encode)).parsed =
        [smallKey.encode] := by
  have hlocate : locatePKCS1 smallKey.encode = .ok (some smallKey.encode) := by decide
  have hcheck : checkPKCS1Size smallKey.encode = .ok () :=
    checkPKCS1Size_iff.mpr ⟨smallKey, [], (List.append_nil _).symm, by decide, measured_smallKey⟩
  have hpublic : rsaPublic acceptingEnv smallKey.encode = .ok [] := by
    rw [rsaPublic, hlocate]
    change (checkPKCS1Size smallKey.encode >>= fun _ => _) = _
    rw [hcheck]
    rfl
  have hresult : (newKey acceptingEnv (Slice.whole smallKey.encode)).result.map RSAKey.pub =
      rsaPublic acceptingEnv (Slice.whole smallKey.encode).elems := result_newKey _
  rw [Slice.elems_whole, hpublic] at hresult
  cases hkey : (newKey acceptingEnv (Slice.whole smallKey.encode)).result with
  | error e =>
    rw [hkey] at hresult
    cases hresult
  | ok key =>
    obtain ⟨-, hsign⟩ := newKey_measured acceptingEnv (Slice.whole smallKey.encode)
    obtain ⟨pkcs1, hone, -, hsame⟩ := hsign key hkey
    refine ⟨key, rfl, (hsame (Slice.whole smallKey.encode) rfl (fun _ => .ok []) .given).trans ?_⟩
    rcases newKey_cases acceptingEnv (Slice.whole smallKey.encode) with
      ⟨-, e, he⟩ | ⟨b, hb, hat, -, -⟩
    · rw [hkey] at he
      cases he
    · rw [Slice.elems_whole, hlocate, Except.ok.injEq, Option.some.injEq] at hat
      rw [if_pos rfl, ← hone, hb, hat]

end Secmem.Crypto
