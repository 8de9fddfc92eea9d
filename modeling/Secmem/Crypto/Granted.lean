import Secmem.Crypto.Encrypted

/-!
# When no allocation is refused

What the calls of the parsers return on a host that grants every allocation.  A container then
ends up in a buffer with the bytes it stands for: those of the file, or those its PEM body decodes
to, for which `decodedBody` is the computation without the buffer.
-/

namespace Secmem.Crypto

open Ownership ByteStrings
open Op hiding bind

/-- No allocation is refused. -/
def Env.Grants (E : Env) : Prop := ∀ n, E.refuses n = none

/-- A host that grants every allocation, with primitives that compute nothing. -/
def grantingEnv : Env where
  refuses _ := none
  heapTransientsAllowed := true
  ed25519Public _ := ⟨List.replicate 32 0, List.length_replicate⟩
  ecdsaPublic _ _ := .error "unsupported"
  parsePKCS1PrivateKey _ := .error "unsupported"
  wipeRSA := none
  wipeAES := none
  bcrypt _ _ _ n := ⟨List.replicate n 0, List.length_replicate⟩
  pbkdf2 _ _ _ _ n := ⟨List.replicate n 0, List.length_replicate⟩
  scrypt _ _ _ _ _ n := ⟨List.replicate n 0, List.length_replicate⟩
  aesEncrypt _ := ⟨fun _ => List.replicate 16 0, fun _ _ => List.length_replicate⟩
  aesDecrypt _ := ⟨fun _ => List.replicate 16 0, fun _ _ => List.length_replicate⟩
  chachaOpen _ _ _ := none

lemma grants_grantingEnv : grantingEnv.Grants := fun _ => rfl

variable {E : Env} {p : Holdings Bytes Event} {Q : Except Err Buf → Holdings Bytes Event → Prop}

lemma wp_newEmptyBuffer (hE : E.Grants) {size : ℕ} (hsize : size ≠ 0) {f : Err → Err} :
    ((newEmptyBuffer E size).mapError f).wp p Q ↔
      Q (.ok p.requests) (p.grant (List.replicate size 0)) := by
  rw [wp_mapError, newEmptyBuffer, if_neg hsize, wp_request]
  simp [hE p.requests]

lemma overlay_zero {dst src : Bytes} (h : src.length ≤ dst.length) :
    overlay dst src 0 = src ++ dst.drop src.length := by
  simp [overlay, List.take_of_length_le h]

/-- Copying into a buffer of the same size fills it. -/
lemma wp_copyIn_full {b : Buf} {dst src : Bytes} (hdst : p.held b = some dst) (hsrc : src ≠ [])
    (hlen : src.length = dst.length) {Q : Except Err Unit → Holdings Bytes Event → Prop} :
    (copyIn b src 0).wp p Q ↔ Q (.ok ()) (p.write b src) := by
  have hpos : ¬ dst.length ≤ 0 := by
    rw [← hlen]
    simpa using hsrc
  rw [copyIn, wp_bind, borrow, wp_read hdst]
  dsimp only
  rw [if_neg hpos, store, wp_write hdst, overlay_zero hlen.le, hlen, List.drop_length,
    List.append_nil]

lemma wp_copyToBuffer (hE : E.Grants) {data : Bytes} (hdata : data ≠ []) :
    (copyToBuffer E data).wp p Q ↔ Q (.ok p.requests) (p.grant data) := by
  have hlen : data.length ≠ 0 := by simpa using hdata
  rw [copyToBuffer, wp_bind, wp_newEmptyBuffer hE hlen]
  dsimp only
  rw [wp_bind, wp_orRelease,
    wp_copyIn_full (Holdings.held_grant p _) hdata (by rw [List.length_replicate])]
  rw [Holdings.write_grant, wp_pure]

lemma wp_truncate {b : Buf} {data : Bytes} (hdata : p.held b = some data) {n : ℕ}
    (hn : n ≤ data.length) {Q : Except Err Unit → Holdings Bytes Event → Prop} :
    (truncate b n).wp p Q ↔ Q (.ok ()) (p.write b (data.take n)) := by
  rw [truncate, wp_bind, wp_read hdata]
  dsimp only
  rw [if_neg (by omega), store, wp_write hdata]

/-! ## Key derivation and ciphers -/

lemma wp_withScratch (hE : E.Grants) {α : Type} {size : ℕ} (hsize : size ≠ 0) {fn : Call α}
    {Q : Except Err α → Holdings Bytes Event → Prop} :
    (withScratch E size fn).wp p Q ↔
      fn.wp (p.grant (List.replicate size 0)) fun r p' => Q r (p'.release p.requests) := by
  rw [withScratch, wp_bind, wp_newEmptyBuffer hE hsize]
  dsimp only
  rw [wp_andRelease, wp_bind, borrow, wp_read (Holdings.held_grant p _)]

/-- What `opensshCrypt` returns, of the key and IV that the derivation makes, where the key
schedule can be wiped. -/
def cryptResult (E : Env) (src tag kiv : Bytes) (mode : OpensshCipher) (decrypt : Bool) :
    Except Err Bytes :=
  if mode = .chaCha20Poly1305 then
    if decrypt = false then .error (errUnsupportedKey.then_ ": chacha20-poly1305 for encryption")
    else match E.chachaOpen src tag kiv with
      | none => .error (.of .incorrectPassword)
      | some plain => .ok plain.val
  else if mode.cbc = true then
    if decrypt = false then .error (errUnsupportedKey.then_ ": CBC for encryption")
    else .ok (cbcPlain (E.aesDecrypt (kiv.take mode.keyLen)) (src.length / 16)
      (kiv.drop mode.keyLen) src)
  else .ok (ctrText (E.aesEncrypt (kiv.take mode.keyLen)) (kiv.drop mode.keyLen) src)

lemma checkAESKey_take {mode : OpensshCipher} (hmode : mode ≠ .chaCha20Poly1305) {kiv : Bytes}
    (hkiv : kiv.length = mode.keyLen + mode.ivLen) :
    checkAESKey (kiv.take mode.keyLen) = .ok () := by
  have hlen : (kiv.take mode.keyLen).length = mode.keyLen := by
    rw [List.length_take]
    omega
  rw [checkAESKey, demand_eq_ok, hlen]
  cases mode with
  | chaCha20Poly1305 => exact absurd rfl hmode
  | _ => decide

/-- The cipher runs once the derivation's parameters are in order, and leaves only a number used
up and the derivation logged. -/
lemma wp_opensshCrypt (hE : E.Grants) (hwipe : E.wipeAES = none) {src tag passphrase salt : Bytes}
    {rounds : ℕ} {mode : OpensshCipher} {decrypt : Bool}
    (hcheck : BcryptPbkdf.check (mode.keyLen + mode.ivLen) passphrase salt rounds = .ok ())
    {Q : Except Err Bytes → Holdings Bytes Event → Prop} :
    (opensshCrypt E src tag passphrase salt rounds mode decrypt).wp p Q ↔
      Q (cryptResult E src tag
          (E.bcrypt passphrase salt rounds (mode.keyLen + mode.ivLen)).val mode decrypt)
        (p.refuse.emit .derive) := by
  rw [opensshCrypt, wp_withScratch hE (by decide), wp_bind, wp_lift, hcheck]
  rw [wp_bind, wp_emit]
  rw [← Holdings.release_emit_grant p (List.replicate scratchSize 0)]
  unfold cryptResult
  by_cases hmode : mode = .chaCha20Poly1305
  · simp only [if_pos hmode]
    split
    · rfl
    · cases E.chachaOpen src tag
          (E.bcrypt passphrase salt rounds (mode.keyLen + mode.ivLen)).val with
      | none => rfl
      | some plain => rfl
  · simp only [if_neg hmode]
    rw [wp_bind, wp_lift, checkAESKey_take hmode (E.bcrypt _ _ _ _).property]
    dsimp only
    split
    · split
      · rw [hwipe]
        rfl
      · rw [wp_lift, wipeAESBlock, hwipe]
    · rw [wp_lift, wipeAESBlock, hwipe]

lemma wp_pbes2Decrypt (hE : E.Grants) (hwipe : E.wipeAES = none) {f : Pbes2File}
    {passphrase : Bytes} (hkey : f.keyLen = 16 ∨ f.keyLen = 24 ∨ f.keyLen = 32)
    {Q : Except Err Bytes → Holdings Bytes Event → Prop} :
    (pbes2Decrypt E f passphrase).wp p Q ↔
      Q (.ok (cbcPlain (E.aesDecrypt (f.key E passphrase)) (f.ct.length / 16) f.iv f.ct))
        (p.refuse.emit .derive) := by
  have hlen : (f.key E passphrase).length = f.keyLen := by
    unfold Pbes2File.key
    split
    · exact (E.pbkdf2 _ _ _ _ _).property
    · exact (E.scrypt _ _ _ _ _ _).property
  have hcheck : checkAESKey (f.key E passphrase) = .ok () := by
    rw [checkAESKey, demand_eq_ok, hlen]
    exact hkey
  rw [pbes2Decrypt, wp_withScratch hE (by simp [cipherScratch, opensshAESBlock]), wp_bind,
    wp_emit]
  rw [wp_bind, wp_lift, hcheck]
  rw [wp_lift, wipeAESBlock, hwipe, Holdings.release_emit_grant]

/-! ## Errors of a call -/

@[simp] lemma raises_lift_iff {α : Type} {S : Err → Prop} {r : Except Err α} :
    Op.Raises S (Op.lift r : Call α) ↔ Fails S r := raises_lift

/-! ## PEM bodies -/

/-- The bytes a PEM body decodes to. -/
def decodedBody (body : Bytes) : Except Err Bytes := do
  let body := trimSpace body
  let empty := errMalformed.then_ ": empty PEM body"
  demand (Base64.decodedLen body.length ≠ 0) empty
  match Base64.decode body with
  | .error off =>
    .error (malformedBody (.new ("illegal base64 data at input byte " ++ toString off)))
  | .ok out => do
    demand (out.length ≠ 0) empty
    .ok out

lemma malformedBody_empty (text : String) :
    malformedBody (errMalformed.then_ text) = errMalformed.then_ text :=
  if_pos List.mem_cons_self

/-- A body that decodes ends up in a buffer; one that does not leaves nothing, and the log as it
was. -/
lemma wp_decodePEMBody (hE : E.Grants) {body : Bytes}
    (hok : ∀ out, decodedBody body = .ok out → Q (.ok p.requests) (p.grant out))
    (herror : ∀ e p', decodedBody body = .error e → p'.log = p.log → Q (.error e) p') :
    (decodePEMBody E body).wp p Q := by
  simp only [decodedBody] at hok herror
  rw [decodePEMBody, wp_bind, wp_lift]
  by_cases hn : Base64.decodedLen (trimSpace body).length = 0
  · simp only [demand, hn, ne_eq, not_true_eq_false, if_false] at herror ⊢
    exact herror _ p rfl rfl
  simp only [demand, hn, ne_eq, not_false_eq_true, if_true] at hok herror ⊢
  rw [wp_bind, wp_newEmptyBuffer hE hn]
  dsimp only
  rw [wp_bind, wp_orRelease, wp_mapError, wp_bind, borrow,
    wp_read (Holdings.held_grant p _)]
  cases hdecode : Base64.decode (trimSpace body) with
  | error off =>
    rw [hdecode] at herror
    exact herror _ _ rfl rfl
  | ok out =>
    rw [hdecode] at hok herror
    have hfits : out.length ≤
        (List.replicate (Base64.decodedLen (trimSpace body).length) (0 : UInt8)).length := by
      rw [List.length_replicate]
      exact Base64.length_decode hdecode
    dsimp only
    rw [wp_bind, store, wp_write (Holdings.held_grant p _), Holdings.write_grant]
    rw [wp_bind, wp_lift]
    by_cases hout : out.length = 0
    · simp only [hout, not_true_eq_false, if_false, malformedBody_empty] at herror ⊢
      exact herror _ _ rfl rfl
    · simp only [hout, not_false_eq_true, if_true] at hok ⊢
      rw [wp_truncate (Holdings.held_grant p _) (by
        rw [overlay_zero hfits, List.length_append]
        omega), Holdings.write_grant, overlay_zero hfits, List.take_left]
      exact hok out rfl

end Secmem.Crypto
