import Secmem.Crypto.Encrypted

/-!
# Every buffer is accounted for

Whatever the input and whichever allocations the host refuses, a call of either entry point that
fails has destroyed every buffer it allocated, and one that succeeds has destroyed all but the
signer's.

Each parser has one lemma here, which says what it leaves of the buffers it was given and of those
it allocated.  The parsers that take a container start from `Owning`, and end in `Leaves`; a
function that only reads, or works in a scratch buffer, leaves what it found.
-/

namespace Secmem.Crypto

open Ownership
open Op hiding bind

variable {E : Env} {o : Options} {base : ℕ → Option Bytes} {lo : ℕ} {b : Buf} {passphrase : Bytes}
  {p : Holdings Bytes Event} {pub : Option Bytes}

/-! ## Buffers -/

lemma leaves_newEmptyBuffer {size : ℕ} {f : Err → Err} (h : Same base lo p) :
    ((newEmptyBuffer E size).mapError f).wp p (Leaves base lo id) := by
  refine leaves_mapError ?_
  unfold newEmptyBuffer
  split
  · exact h
  · exact leaves_request h

lemma owning_store (h : Owning base lo b p) (contents : Bytes) :
    (store b contents).wp p fun _ p' => Owning base lo b p' := by
  obtain ⟨c, hc⟩ := h
  rw [store, wp_write hc.read]
  exact ⟨contents, hc.write contents⟩

lemma owning_copyIn (h : Owning base lo b p) (src : Bytes) (off : ℕ) :
    (copyIn b src off).wp p fun _ p' => Owning base lo b p' := by
  obtain ⟨c, hc⟩ := h
  rw [copyIn, wp_bind, borrow, wp_read hc.read]
  dsimp only
  split
  · exact ⟨c, hc⟩
  · exact owning_store ⟨c, hc⟩ _

lemma owning_truncate (h : Owning base lo b p) (n : ℕ) :
    (truncate b n).wp p fun _ p' => Owning base lo b p' := by
  obtain ⟨c, hc⟩ := h
  rw [truncate, wp_bind, wp_read hc.read]
  dsimp only
  split
  · exact ⟨c, hc⟩
  · exact owning_store ⟨c, hc⟩ _

/-- A parser that reads its container and lets go of it when it is done. -/
lemma leaves_borrowing {α : Type} {own : α → ℕ} {f : Bytes → Call α} (h : Owning base lo b p)
    (hf : ∀ base c, Same base lo p → (f c).wp p (Leaves base lo own)) :
    ((do let c ← borrow b; f c) |>.andRelease b).wp p (Leaves base lo own) := by
  obtain ⟨c, hc⟩ := h
  refine leaves_andRelease (c := c) hc.after hc.free ?_
  rw [wp_bind, borrow, wp_read hc.read]
  exact hf _ c hc.same

lemma leaves_decodePEMBody {body : Bytes} (h : Same base lo p) :
    (decodePEMBody E body).wp p (Leaves base lo id) := by
  refine leaves_lift_bind h fun _ => leaves_bind (leaves_newEmptyBuffer h) ?_
  intro blob p' hblob
  refine leaves_step ?_ fun _ p' hblob => hblob
  obtain ⟨c, (hc : Holds base lo blob c p')⟩ := hblob
  refine keeps_mapError ?_
  rw [wp_bind, borrow, wp_read hc.read]
  dsimp only
  split
  · exact ⟨c, hc⟩
  · refine keeps_bind (owning_store ⟨c, hc⟩ _) fun _ p' h => ?_
    exact keeps_bind (keeps_lift h) fun _ p' h => owning_truncate h _

lemma leaves_copyToBuffer {data : Bytes} (h : Same base lo p) :
    (copyToBuffer E data).wp p (Leaves base lo id) := by
  refine leaves_bind (leaves_newEmptyBuffer h) fun blob p' hblob => ?_
  exact leaves_step (owning_copyIn hblob _ _) fun _ p' hblob => hblob

lemma leaves_pkcs1DER {n e d q r iqmp : Bytes} (h : Same base lo p) :
    (pkcs1DER E n e d q r iqmp).wp p (Leaves base lo id) := by
  refine leaves_lift_bind h fun fields => leaves_bind (leaves_newEmptyBuffer h) ?_
  intro out p' hout
  refine leaves_step ?_ fun _ p' hout => hout
  obtain ⟨c, (hc : Holds base lo out c p')⟩ := hout
  rw [wp_bind, borrow, wp_read hc.read]
  refine keeps_bind (keeps_lift ⟨c, hc⟩) fun w p' h => ?_
  exact keeps_bind (owning_store h w.b) fun _ p' h => keeps_lift h

lemma same_withScratch {α : Type} {size : ℕ} {fn : Call α} (h : Same base lo p)
    (hfn : ∀ base p', Same base lo p' → fn.wp p' fun _ p' => Same base lo p') :
    (withScratch E size fn).wp p fun _ p' => Same base lo p' := by
  unfold withScratch
  rw [wp_bind]
  refine wp_mono (leaves_newEmptyBuffer h) fun r p' hr => ?_
  cases r with
  | error e => exact hr
  | ok scratch =>
    obtain ⟨c, (hc : Holds base lo scratch c p')⟩ := hr
    refine same_andRelease (c := c) hc.after hc.free ?_
    rw [wp_bind, borrow, wp_read hc.read]
    exact hfn _ _ hc.same

/-- A failed or finished computation beside an owned buffer leaves it owned. -/
lemma Holds.owning_of_same {c : Bytes} {p' : Holdings Bytes Event} (hc : Holds base lo b c p)
    (h : Same (Function.update base b (some c)) lo p') : Holds base lo b c p' :=
  ⟨h.since, hc.after, hc.free, h.held⟩

/-! ## Signers -/

/-- What a constructor does to the buffer it is given: nothing, and a signer it returns owns it. -/
def Adopts (base : ℕ → Option Bytes) (lo : ℕ) (b : Buf) (r : Except Err Signer)
    (p : Holdings Bytes Event) : Prop :=
  Owning base lo b p ∧ ∀ s, r = .ok s → s.buf = b

lemma Adopts.error (h : Owning base lo b p) {e : Err} : Adopts base lo b (.error e) p :=
  ⟨h, fun s hs => by cases hs⟩

lemma adopts_lift_bind {α : Type} {r : Except Err α} {f : α → Call Signer}
    (h : Owning base lo b p) (hf : ∀ a, (f a).wp p (Adopts base lo b)) :
    (Op.lift r >>= f).wp p (Adopts base lo b) := by
  rw [wp_bind, wp_lift]
  cases r with
  | error e => exact Adopts.error h
  | ok a => exact hf a

lemma adopts_read_bind {f : Bytes → Call Signer} {gone : Err} (h : Owning base lo b p)
    (hf : ∀ c, (f c).wp p (Adopts base lo b)) :
    (Op.read gone b >>= f).wp p (Adopts base lo b) := by
  obtain ⟨c, hc⟩ := h
  rw [wp_bind, wp_read hc.read]
  exact hf c

lemma adopts_derived {f : Err → Err} {r : Except Err Bytes} {g : Bytes → Signer}
    (h : Owning base lo b p) (hg : ∀ pub, (g pub).buf = b) :
    ((Op.lift r).mapError f >>= fun pub => pure (g pub) : Call Signer).wp p
      (Adopts base lo b) := by
  rw [wp_bind, wp_mapError, wp_lift]
  cases r with
  | error e => exact Adopts.error h
  | ok pub => exact ⟨h, fun s hs => by cases hs; exact hg pub⟩

lemma adopts_newEd25519Signer (h : Owning base lo b p) :
    (newEd25519Signer E b).wp p (Adopts base lo b) := by
  refine adopts_read_bind h fun seed => adopts_lift_bind h fun _ => ?_
  exact adopts_derived h fun _ => rfl

lemma adopts_newECDSASigner {curve : Curve} (h : Owning base lo b p) :
    (newECDSASigner E o curve b).wp p (Adopts base lo b) := by
  refine adopts_lift_bind h fun _ => adopts_read_bind h fun scalar => ?_
  refine adopts_lift_bind h fun _ => ?_
  split
  · exact Adopts.error h
  · exact ⟨h, fun s hs => by cases hs; rfl⟩

lemma leaves_checkPub {s : Signer} (h : Owning base lo s.buf p) :
    (checkPub s pub).wp p (Leaves base lo Signer.buf) := by
  unfold checkPub
  split
  · exact h
  · rw [wp_bind, wp_release]
    exact h.release

lemma leaves_ed25519FromSeed {seed : Bytes} (h : Same base lo p) :
    (ed25519FromSeed E seed pub).wp p (Leaves base lo Signer.buf) := by
  refine leaves_lift_bind h fun _ => leaves_bind (leaves_newEmptyBuffer h) ?_
  intro out p' hout
  refine leaves_step (owning_copyIn hout _ _) fun _ p' hout => ?_
  refine leaves_bind (leaves_orRelease (adopts_newEd25519Signer hout)) fun s p' hs => ?_
  exact leaves_checkPub hs

lemma leaves_ecdsaFromScalar {d : Bytes} {curve : Curve}
    (h : Same base lo p) :
    (ecdsaFromScalar E o d curve pub).wp p (Leaves base lo Signer.buf) := by
  refine leaves_lift_bind h fun _ => leaves_bind (leaves_newEmptyBuffer h) ?_
  intro out p' hout
  refine leaves_step (owning_copyIn hout _ _) fun _ p' hout => ?_
  refine leaves_bind (leaves_orRelease (adopts_newECDSASigner hout)) fun s p' hs => ?_
  exact leaves_checkPub hs

variable [Der.Cryptobyte]

lemma adopts_newRSASigner (h : Owning base lo b p) :
    (newRSASigner E o b).wp p (Adopts base lo b) := by
  refine adopts_lift_bind h fun _ => adopts_read_bind h fun der => ?_
  exact adopts_derived h fun _ => rfl

lemma leaves_rsaFromDER (h : Owning base lo b p) :
    (rsaFromDER E o b).wp p (Leaves base lo Signer.buf) :=
  leaves_orRelease (adopts_newRSASigner h)

lemma leaves_ecdsaFromSEC1 {der : Bytes} {curve : Option Curve}
    (h : Same base lo p) :
    (ecdsaFromSEC1 E o der curve pub).wp p (Leaves base lo Signer.buf) := by
  refine leaves_lift_bind h fun k => leaves_bind (leaves_ecdsaFromScalar h) ?_
  exact fun s p' hs => leaves_checkPub hs

/-! ## Containers -/

omit [Der.Cryptobyte] in
lemma leaves_parseOpenSSHPrivateBlock {privBlock pubBlob : Bytes} {blockSize : ℕ}
    (h : Same base lo p) :
    (parseOpenSSHPrivateBlock E o privBlock pubBlob blockSize).wp p
      (Leaves base lo Opened.buf) := by
  refine leaves_lift_bind h fun x => ?_
  obtain ⟨t, rest, pub⟩ := x
  cases t with
  | ed25519 =>
    refine leaves_lift_bind h fun _ => leaves_bind (leaves_ed25519FromSeed h) ?_
    exact fun s p' hs => hs
  | ecdsa curve name =>
    refine leaves_lift_bind h fun _ => leaves_bind (leaves_ecdsaFromScalar h) ?_
    exact fun s p' hs => hs
  | rsa =>
    refine leaves_lift_bind h fun _ => leaves_bind (leaves_pkcs1DER h) ?_
    exact fun der p' hder => hder

lemma leaves_parseOpenSSH (h : Owning base lo b p) :
    (parseOpenSSH E o b).wp p (Leaves base lo Signer.buf) := by
  refine leaves_bind (?_ : Op.wp _ p (Leaves base lo Opened.buf)) fun opened p' hopened => ?_
  · refine leaves_borrowing h fun base c hc => ?_
    exact leaves_lift_bind hc fun _ => leaves_parseOpenSSHPrivateBlock hc
  · cases opened with
    | signer s => exact hopened
    | der blob => exact leaves_rsaFromDER hopened

lemma leaves_parseSEC1 (h : Owning base lo b p) :
    (parseSEC1 E o b).wp p (Leaves base lo Signer.buf) :=
  leaves_borrowing h fun _ _ hc => leaves_ecdsaFromSEC1 hc

/-- What opening a `PrivateKeyInfo` leaves: a signer's buffer, if it returns a signer. -/
def LeavesSigner (base : ℕ → Option Bytes) (lo : ℕ) (r : Except Err (Option Signer))
    (p : Holdings Bytes Event) : Prop :=
  match r with
  | .ok (some s) => Owning base lo s.buf p
  | _ => Same base lo p

omit [Der.Cryptobyte] in
lemma leavesSigner_lift_bind {α : Type} {r : Except Err α} {f : α → Call Signer}
    (h : Same base lo p) (hf : ∀ a, (f a).wp p (Leaves base lo Signer.buf)) :
    (do let a ← Op.lift r; let s ← f a; return some s : Call (Option Signer)).wp p
      (LeavesSigner base lo) := by
  rw [wp_bind, wp_lift]
  cases r with
  | error e => exact h
  | ok a =>
    change (f a >>= fun s => pure (some s)).wp p (LeavesSigner base lo)
    rw [wp_bind]
    refine wp_mono (hf a) fun r p' hr => ?_
    cases r with
    | error e => exact hr
    | ok s => exact hr

lemma leaves_openPKCS8 {k : PrivateKeyInfo} (h : Same base lo p) :
    (openPKCS8 E o k).wp p (LeavesSigner base lo) := by
  unfold openPKCS8
  split
  · exact h
  · split
    · exact leavesSigner_lift_bind h fun _ => leaves_ecdsaFromSEC1 h
    · split
      · exact leavesSigner_lift_bind h fun _ => leaves_ed25519FromSeed h
      · split <;> exact h

lemma leaves_parsePKCS8 (h : Owning base lo b p) :
    (parsePKCS8 E o b).wp p (Leaves base lo Signer.buf) := by
  obtain ⟨c, hc⟩ := h
  have hread : (do
      let der ← borrow b
      let k ← Op.lift (readPKCS8 der)
      openPKCS8 E o k : Call (Option Signer)).wp p
        (LeavesSigner (Function.update base b (some c)) lo) := by
    rw [wp_bind, borrow, wp_read hc.read]
    dsimp only
    rw [wp_bind, wp_lift]
    split
    · exact leaves_openPKCS8 hc.same
    · exact hc.same
  have hback : ∀ {p' : Holdings Bytes Event}, Same (Function.update base b (some c)) lo p' →
      Owning base lo b p' := fun hp' => ⟨c, hp'.since, hc.after, hc.free, hp'.held⟩
  unfold parsePKCS8
  rw [wp_bind, wp_orRelease]
  refine wp_mono hread fun r p' hr => ?_
  cases r with
  | error e => exact (hback hr).release
  | ok s =>
    cases s with
    | none => exact leaves_rsaFromDER (hback hr)
    | some s =>
      dsimp only
      rw [wp_bind, wp_release]
      exact Holds.release_other hc.free hr.choose_spec.after hr

lemma leaves_parseDER (h : Owning base lo b p) :
    (parseDER E o b).wp p (Leaves base lo Signer.buf) := by
  refine leaves_step ?_ fun next p' h => ?_
  · obtain ⟨c, hc⟩ := h
    rw [wp_bind, borrow, wp_read hc.read]
    exact ⟨c, hc⟩
  · split
    · exact leaves_parsePKCS8 h
    · split
      · exact leaves_parseSEC1 h
      · split
        · exact leaves_rsaFromDER h
        · rw [wp_bind, wp_release]
          exact h.release

lemma leaves_parsePEM {typ : Bytes} (h : Owning base lo b p) :
    (parsePEM E o typ b).wp p (Leaves base lo Signer.buf) := by
  unfold parsePEM
  split
  · exact leaves_parseOpenSSH h
  · split
    · exact leaves_parsePKCS8 h
    · split
      · exact leaves_parseSEC1 h
      · split
        · exact leaves_rsaFromDER h
        · split
          · exact leaves_borrowing h fun _ _ hc => hc
          · rw [wp_bind, wp_release]
            exact h.release

lemma leaves_parsePrivateKey {data : Bytes} (h : Same base lo p) :
    (parsePrivateKey E o data).wp p (Leaves base lo Signer.buf) := by
  unfold parsePrivateKey
  split
  · exact leaves_bind (leaves_copyToBuffer h) fun _ _ hblob => leaves_parseOpenSSH hblob
  · split
    · exact leaves_bind (leaves_copyToBuffer h) fun _ _ hblob => leaves_parseDER hblob
    · split
      · refine leaves_lift_bind h fun x => ?_
        exact leaves_bind (leaves_decodePEMBody h) fun _ _ hblob => leaves_parsePEM hblob
      · exact h

/-! ## Protected containers -/

omit [Der.Cryptobyte] in
lemma same_opensshCrypt {src tag passphrase salt : Bytes} {rounds : ℕ} {mode : OpensshCipher}
    {decrypt : Bool} (h : Same base lo p) :
    (opensshCrypt E src tag passphrase salt rounds mode decrypt).wp p
      fun _ p' => Same base lo p' := by
  refine same_withScratch h fun base p' h => keeps_bind (keeps_lift h) fun _ p' h => ?_
  refine keeps_bind (x := Op.emit .derive) (h.emit _) fun _ p' h => ?_
  dsimp only
  split
  · split
    · exact h
    · split <;> exact h
  · refine keeps_bind (keeps_lift h) fun _ p' h => ?_
    split
    · split <;> exact h
    · exact h

omit [Der.Cryptobyte] in
lemma same_pbes2Decrypt {f : Pbes2File} (h : Same base lo p) :
    (pbes2Decrypt E f passphrase).wp p fun _ p' => Same base lo p' := by
  refine same_withScratch h fun base p' h => ?_
  refine keeps_bind (x := Op.emit .derive) (h.emit _) fun _ p' h => ?_
  exact keeps_bind (keeps_lift h) fun _ p' h => keeps_lift h

omit [Der.Cryptobyte] in
lemma leaves_openSealed {c : Sealed} (h : Same base lo p) :
    (openSealed E o c passphrase).wp p (Leaves base lo Opened.buf) := by
  refine leaves_bind (leaves_newEmptyBuffer h) fun plain p' hplain => ?_
  obtain ⟨d, (hd : Holds _ lo plain d p')⟩ := hplain
  rw [wp_andRelease, wp_bind, wp_mapError]
  refine wp_mono (same_opensshCrypt hd.same) fun r p' hr => ?_
  have hd' := Holds.owning_of_same hd hr
  cases r with
  | error e => exact hd'.release
  | ok text =>
    dsimp only
    rw [wp_bind, store, wp_write hd'.read]
    have hw := hd'.write text
    exact leaves_andRelease hw.after hw.free
      (leaves_mapError (leaves_parseOpenSSHPrivateBlock hw.same))

lemma leaves_parseOpenSSHEncrypted (h : Owning base lo b p) :
    (parseOpenSSHEncrypted E o b passphrase).wp p (Leaves base lo Signer.buf) := by
  refine leaves_bind (?_ : Op.wp _ p (Leaves base lo Opened.buf)) fun opened p' hopened => ?_
  · refine leaves_borrowing h fun base c hc => ?_
    exact leaves_lift_bind hc fun _ => leaves_openSealed hc
  · cases opened with
    | signer s => exact hopened
    | der blob => exact leaves_mapError (leaves_rsaFromDER hopened)

lemma leaves_decryptPKCS8 (h : Owning base lo b p) :
    (decryptPKCS8 E b passphrase).wp p (Leaves base lo Prod.fst) := by
  refine leaves_borrowing h fun base c hc => leaves_lift_bind hc fun f => ?_
  refine leaves_bind (leaves_newEmptyBuffer hc) fun plain p' hplain => ?_
  refine leaves_step ?_ fun n p' hplain => hplain
  obtain ⟨d, (hd : Holds _ lo plain d p')⟩ := hplain
  rw [wp_bind]
  refine wp_mono (same_pbes2Decrypt hd.same) fun r p' hr => ?_
  have hd' := Holds.owning_of_same hd hr
  cases r with
  | error e => exact ⟨d, hd'⟩
  | ok text =>
    dsimp only
    rw [wp_bind, store, wp_write hd'.read]
    exact ⟨text, hd'.write text⟩

lemma leaves_parsePKCS8Encrypted (h : Owning base lo b p) :
    (parsePKCS8Encrypted E o b passphrase).wp p (Leaves base lo Signer.buf) := by
  refine leaves_bind (leaves_decryptPKCS8 h) fun x p' hx => ?_
  refine leaves_step (owning_truncate hx _) fun _ p' hx => ?_
  exact leaves_mapError (leaves_parsePKCS8 hx)

lemma leaves_locateEncrypted {data : Bytes} (h : Same base lo p) :
    (locateEncrypted E data).wp p (Leaves base lo Prod.snd) := by
  unfold locateEncrypted
  split
  · exact leaves_bind (leaves_copyToBuffer h) fun _ _ hblob => hblob
  · split
    · refine leaves_lift_bind h fun _ => ?_
      exact leaves_bind (leaves_copyToBuffer h) fun _ _ hblob => hblob
    · split
      · refine leaves_lift_bind h fun _ => ?_
        exact leaves_bind (leaves_decodePEMBody h) fun _ _ hblob => hblob
      · exact h

lemma leaves_parseEncryptedPrivateKey {data passphrase : Bytes} (h : Same base lo p) :
    (parseEncryptedPrivateKey E o data passphrase).wp p (Leaves base lo Signer.buf) := by
  refine leaves_bind (leaves_locateEncrypted h) fun x p' hx => ?_
  obtain ⟨c, blob⟩ := x
  cases c with
  | openSSH => exact leaves_parseOpenSSHEncrypted hx
  | pkcs8 => exact leaves_parsePKCS8Encrypted hx

/-! ## The entry points -/

/-- The buffers a call allocates, after it: none is left of a call that failed, and of one that
returned a signer only the one the signer owns.  Those that were there before are as they were. -/
structure Accounted (call : Call Signer) (p : Holdings Bytes Event) : Prop where
  before : ∀ n < p.requests, (call.run p).2.held n = p.held n
  failed : ∀ e, (call.run p).1 = .error e → ∀ n, p.requests ≤ n → (call.run p).2.held n = none
  signer : ∀ s, (call.run p).1 = .ok s →
    p.requests ≤ s.buf ∧ ∀ n, p.requests ≤ n → ((call.run p).2.held n ≠ none ↔ n = s.buf)

omit [Der.Cryptobyte] in
lemma accounted_of_leaves {call : Call Signer}
    (h : call.wp p (Leaves p.held p.requests Signer.buf)) : Accounted call p := by
  unfold Op.wp at h
  refine ⟨fun n hn => ?_, fun e he n hn => ?_, fun s hs => ?_⟩
  · cases hr : (call.run p).1 with
    | error e =>
      rw [hr] at h
      rw [h.held]
    | ok s =>
      rw [hr] at h
      obtain ⟨c, hc⟩ := h
      have := hc.after
      rw [hc.held, Function.update_of_ne (by omega)]
  · rw [he] at h
    rw [h.held]
    exact p.fresh n hn
  · rw [hs] at h
    obtain ⟨c, hc⟩ := h
    refine ⟨hc.after, fun n hn => ?_⟩
    rw [hc.held]
    by_cases heq : n = s.buf
    · simp [heq]
    · simp [p.fresh n hn, heq]

/-- Both entry points account for every buffer they allocate, for every input and whichever
allocations fail. -/
theorem parse_accounts_for_buffers (E : Env) (data passphrase : Bytes) (opts : List Opt)
    (p : Holdings Bytes Event) :
    Accounted (parsePrivateKeyCall E data opts) p ∧
      Accounted (parsePrivateKeyWithPassphrase E data passphrase opts) p := by
  refine ⟨accounted_of_leaves ?_, accounted_of_leaves ?_⟩
  · unfold parsePrivateKeyCall
    split
    · exact Same.refl p
    · exact Op.leaves_mapError (leaves_parsePrivateKey (Same.refl p))
  · unfold parsePrivateKeyWithPassphrase
    split
    · exact Same.refl p
    · split
      · exact Same.refl p
      · exact Op.leaves_mapError (leaves_parseEncryptedPrivateKey (Same.refl p))

end Secmem.Crypto
