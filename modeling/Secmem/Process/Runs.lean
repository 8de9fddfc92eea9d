import Secmem.Process.Lifetime

/-!
# Histories of one buffer

One goroutine makes a buffer and calls its methods, in any order, on a platform that may fail at
every call.  `Sound` is what holds between two calls; every method keeps it (`ens_method`), and so
does an emergency wipe (`Sweeping.wipeAllAlone`).
-/

namespace Secmem.Process

open World

variable {T : Type} {err : Option GoErr} {c : Content} {a : Abs}

/-! ## Between two calls -/

/-- The bytes of a buffer that last stored `plain`: these, or while it is sealed what the cipher
made of them. -/
structure Coded (P : Platform) (plain : List UInt8) (s : Sealing) : Prop where
  coding : s.cipher = false ∧ s.inner = plain ∨
    s.cipher = true ∧ s.sealed = true ∧ Encrypts P plain s.inner
  tagged : s.tagged = true → s.sealed = true

namespace Coded

variable {P : Platform} {plain : List UInt8} {s : Sealing}

lemma of_unsealed (h : Coded P plain s) (hs : s.sealed = false) :
    s.cipher = false ∧ s.tagged = false ∧ s.inner = plain := by
  have htag : s.tagged = false := by
    cases ht : s.tagged with
    | false => rfl
    | true => exact absurd (hs.symm.trans (h.tagged ht)) (by decide)
  rcases h.coding with ⟨hc, hi⟩ | ⟨-, hs', -⟩
  · exact ⟨hc, htag, hi⟩
  · exact absurd (hs.symm.trans hs') (by decide)

/-- Decryption gives back what was stored. -/
lemma decoded (h : Coded P plain s) {plain' rest : List UInt8} (hd : Decoded P s plain' rest) :
    plain' = plain := by
  rcases h.coding with ⟨hc, hi⟩ | ⟨hc, -, cipher, seed, hcipher, -, hi⟩
  · cases hd with
    | asIs => exact hi
    | decrypted hc' => exact absurd (hc.symm.trans hc') (by decide)
  · cases hd with
    | asIs hc' => exact absurd (hc.symm.trans hc') (by decide)
    | decrypted _ hcipher' =>
      obtain rfl := Option.some.inj (hcipher.symm.trans hcipher')
      rw [hi, cipher.decrypt_encrypt]

lemma sealCipher_ne (h : Coded P plain s) (hc : s.cipher = true) : P.sealCipher ≠ none := by
  rcases h.coding with ⟨hc', -⟩ | ⟨-, -, cipher, -, hcipher, -⟩
  · exact absurd (hc.symm.trans hc') (by decide)
  · rw [hcipher]
    exact Option.some_ne_none _

end Coded

/-- A world with the buffer `b`, which nobody is using. -/
structure Sound (P : Platform) (b key : ℕ) (layout : CanaryLayout) (w : World T) : Prop where
  calm : Calm b key layout w
  idle : Idle (w.obj b)
  janitorKey : (w.obj b).state.janitorKey = key
  registered : w.lookup key ≠ none ↔ (w.obj b).state.inner = true
  coded : (w.obj b).view.sealRefusal = none → Coded P (w.obj b).ghost.plain (w.obj b).sealing
  len_le : (w.obj b).state.len ≤ (w.obj b).ghost.plain.length
  purged : (w.obj b).view.sealRefusal = some .errWiped → ∀ x ∈ (w.obj b).region.inner, x = 0

/-- The tag of the buffer, if it has one, is that of its bytes under the current prekey. -/
def Tagged (P : Platform) (b key : ℕ) (w : World T) : Prop :=
  (w.obj b).state.inner = true → (w.obj b).state.sealTagged = true →
    TagMatches P w key (w.obj b).sealing

section Sound

variable {P : Platform} {b key : ℕ} {layout : CanaryLayout} {w w' : World T} {o : Obj T}

lemma sealRefusal_of_refusal (h : a.refusal = none) : a.sealRefusal = none :=
  sealRefusal_eq_none.mpr ((refusal_eq_none.mp h).imp_right And.left)

lemma sealRefusal_eq_wiped :
    a.sealRefusal = some .errWiped ↔ a.destroyed = false ∧ a.wiped = true := by
  unfold Abs.sealRefusal
  cases a.destroyed <;> cases a.wiped <;> simp

lemma Idle.inner_of_sealRefusal (h : Idle o) (hr : o.view.sealRefusal = none) :
    o.state.inner = true := by
  have hd : o.state.data.isNone = false := (sealRefusal_eq_none.mp hr).1
  rw [h.gone, hd]
  rfl

namespace Sound

lemma unsealed (h : Sound P b key layout w) (hr : (w.obj b).view.refusal = none) :
    (w.obj b).sealCipher = false ∧ (w.obj b).state.sealTagged = false ∧
      (w.obj b).region.inner = (w.obj b).ghost.plain :=
  (h.coded (sealRefusal_of_refusal hr)).of_unsealed (refusal_eq_none.mp hr).2.2

lemma ready (h : Sound P b key layout w) : Ready (w.obj b) where
  toIdle := h.idle
  len_le := h.len_le
  plain hr := (h.unsealed hr).2.2

/-- The buffer has changed, and nothing around it that concerns it. -/
lemma of_setObj (h : Sound P b key layout w) (hcalm : Calm b key layout w')
    (hlook : w'.lookup key = w.lookup key) (hidle : Idle o)
    (hkey : o.state.janitorKey = (w.obj b).state.janitorKey)
    (hinner : o.state.inner = (w.obj b).state.inner)
    (hcoded : o.view.sealRefusal = none → Coded P o.ghost.plain o.sealing)
    (hlen : o.state.len ≤ o.ghost.plain.length) (hwiped : o.wiped = false) :
    Sound P b key layout (w'.setObj b o) where
  calm := hcalm.setObj o
  idle := by rwa [obj_setObj]
  janitorKey := by rw [obj_setObj, hkey, h.janitorKey]
  registered := by
    have : (w'.setObj b o).lookup key = w'.lookup key := rfl
    rw [obj_setObj, this, hlook, hinner]
    exact h.registered
  coded := by rwa [obj_setObj]
  len_le := by rwa [obj_setObj]
  purged := by
    rw [obj_setObj, sealRefusal_eq_wiped]
    exact fun he => absurd (hwiped.symm.trans he.2) Bool.false_ne_true

end Sound

lemma Evolves.lookup (h : Evolves key w w') : w'.lookup key = w.lookup key := by
  rw [World.lookup, World.lookup, h.live, h.wiped]

end Sound

/-! ## Access -/

lemma Content.write_coherent (h : c.inner = c.plain) (lo : ℕ) (bs : List UInt8) :
    (c.write lo bs).inner = (c.write lo bs).plain := by
  unfold Content.write
  split
  · exact h
  · rw [h]

lemma Content.writeAll_coherent (h : c.inner = c.plain)
    (ws : List (ℕ × List UInt8)) : (c.writeAll ws).inner = (c.writeAll ws).plain := by
  induction ws generalizing c with
  | nil => exact h
  | cons x ws ih => exact ih (c.write_coherent h x.1 x.2)

/-- What a use leaves of the buffer. -/
structure UsedTo (o : Obj T) (c : Content) (o' : Obj T) : Prop where
  state : o'.state = o.state
  wiped : o'.wiped = o.wiped
  sealCipher : o'.sealCipher = o.sealCipher
  content : o'.content = o.content ∨ o'.content = c ∧ c.inner.length = o.region.inner.length

lemma Used.usedTo {faulty used : Bool} {o o' : Obj T}
    (h : Used faulty o c used err o') : UsedTo o c o' := by
  cases h with
  | done hlen =>
    unfold Obj.rested
    split
    · exact ⟨rfl, rfl, rfl, .inr ⟨rfl, hlen⟩⟩
    · exact ⟨rfl, rfl, rfl, .inr ⟨rfl, hlen⟩⟩
  | notOpened => exact ⟨rfl, rfl, rfl, .inl rfl⟩
  | notClosed _ _ _ _ hlen => exact ⟨rfl, rfl, rfl, .inr ⟨rfl, hlen⟩⟩

section Methods

variable {P : Platform} {b key : ℕ} {layout : CanaryLayout} {w w' : World T} {faulty : Bool}
  {m : Method}

/-- The buffer after a use of its bytes. -/
lemma Sound.used {used : Bool} {o' : Obj T}
    (h : Sound P b key layout w) (hr : (w.obj b).view.refusal = none)
    (hc : c.inner = c.plain) (hu : Used faulty (w.obj b) c used err o') :
    Sound P b key layout (w.setObj b o') := by
  have hto := hu.usedTo
  obtain ⟨hcipher, htag, hplain⟩ := h.unsealed hr
  have hcontent : o'.region.inner = o'.ghost.plain ∧
      o'.region.inner.length = (w.obj b).region.inner.length := by
    rcases hto.content with heq | ⟨heq, hlen⟩
    · exact ⟨(congrArg Content.inner heq).trans (hplain.trans (congrArg Content.plain heq).symm),
        congrArg (·.inner.length) heq⟩
    · exact ⟨(congrArg Content.inner heq).trans (hc.trans (congrArg Content.plain heq).symm),
        (congrArg (·.inner.length) heq).trans hlen⟩
  refine h.of_setObj h.calm rfl (hu.idle h.idle) (by rw [hto.state]) (by rw [hto.state])
    (fun _ => ⟨.inl ⟨hto.sealCipher.trans hcipher, hcontent.1⟩, fun ht => ?_⟩) ?_
    (hto.wiped.trans (refusal_eq_none.mp hr).2.1)
  · have ht' : o'.state.sealTagged = true := ht
    rw [hto.state, htag] at ht'
    cases ht'
  · rw [hto.state, ← hcontent.1, hcontent.2, hplain]
    exact h.len_le

/-! ## What a method does -/

/-- The error that a method returns. -/
def Reply.error : Reply → Option GoErr
  | .err e => e
  | .borrowed _ (.returns e) => e
  | .borrowed _ .panics => none
  | .bytes _ e => e
  | .count _ e => e
  | .byte _ e => e
  | .equal _ e => e
  | .wrote _ _ e => e
  | .size _ => none
  | .flag _ => none

/-- An error that wraps `ErrDestroyed`. -/
def Reply.saysDestroyed (r : Reply) : Prop := ∃ e, r.error = some e ∧ e.is .errDestroyed = true

/-- What a method says of a destroyed buffer, of which `IsSealed` said `sealed` before.  A borrow
without a callback is refused for that. -/
def Method.GoneReply (sealed : Bool) : Method → Reply → Prop
  | .isDestroyed, r => r = .flag true
  | .len, r => r = .size 0
  | .mappedLen, r => r = .size 0
  | .isSealed, r => r = .flag sealed
  | .destroy, r => r = .err none
  | .withBytes none, r => r.error ≠ none
  | .withBytesErr none, r => r.error ≠ none
  | _, r => r.saysDestroyed

/-- An error that wraps the sentinel. -/
def Reply.says (e : Sentinel) (r : Reply) : Prop := ∃ x, r.error = some x ∧ x.is e = true

/-- What a method says of a buffer that cannot be used any more, because of `e`. -/
def Method.ShutReply (e : Sentinel) : Method → Reply → Prop
  | .isDestroyed, _ | .len, _ | .mappedLen, _ | .isSealed, _ => True
  | .withBytes none, r | .withBytesErr none, r => r.error ≠ none
  | _, r => r.says e

/-! ## According to the abstract buffer -/

namespace Abs

/-- Writes, as far as they fall into the buffer. -/
def store (a : Abs) (ws : List (ℕ × List UInt8)) : Abs :=
  { a with bytes := ws.foldl (fun bs x => (writeAt bs x.1 x.2).take bs.length) a.bytes }

/-- A method that answers at once or uses the bytes.  On a faulty platform the use may not take
place, or end with an error.  What `MappedLen` says of a live buffer is left open. -/
def Uses (faulty : Bool) (a : Abs) (m : Method) (r : Reply) (a' : Abs) : Prop :=
  ∃ mapped, match a.answer mapped m with
  | some r₀ => r = r₀ ∧ a' = a
  | none => a.refusal = none ∧ ∃ used err, (err = none → used = true) ∧
      (err = none ∨ faulty = true) ∧ r = a.reply used err m ∧
      a' = if used = true then a.store (a.stores m) else a

/-- A method that is refused, or that has an effect its error tells about. -/
def Guarded (a : Abs) (refusal : Option Sentinel) (effect : Option GoErr → Abs → Prop)
    (r : Reply) (a' : Abs) : Prop :=
  match refusal with
  | some e => r.says e ∧ a' = a
  | none => ∃ err, r = .err err ∧ effect err a'

/-- `ReadOnly` and `ReadWrite`. -/
def SetsReadOnly (faulty : Bool) (a : Abs) (ro : Bool) : Reply → Abs → Prop :=
  a.Guarded a.refusal fun
    | none, a' => a' = { a with readOnly := ro }
    | some _, a' => faulty = true ∧ a' = a

/-- `Truncate`.  If the region cannot be closed the tail is zero and still there. -/
def Truncates (faulty : Bool) (a : Abs) (n : ℤ) : Reply → Abs → Prop :=
  a.Guarded a.mutationRefusal fun err a' =>
    if n < 0 ∨ a.bytes.length < n then err = some (lengthOutOfRange n a.bytes.length) ∧ a' = a
    else match err with
    | none => a' = { a with bytes := a.bytes.take n.toNat }
    | some _ => faulty = true ∧
      (a' = a ∨ a' = a.store [(n.toNat, List.replicate (a.bytes.length - n.toNat) 0)])

/-- `Seal` and `Unseal`, which may fail for reasons that the abstract buffer does not know.  They
touch nothing but the flag. -/
def SetsSealed (a : Abs) (flag : Bool) : Reply → Abs → Prop :=
  a.Guarded a.sealRefusal fun err a' =>
    ∃ sealed, a' = { a with sealed := sealed } ∧ (err = none → sealed = flag)

/-- What a method does. -/
def Step (faulty : Bool) (a : Abs) : Method → Reply → Abs → Prop
  | .readOnly => a.SetsReadOnly faulty true
  | .readWrite => a.SetsReadOnly faulty false
  | .truncate n => a.Truncates faulty n
  | .seal => a.SetsSealed true
  | .unseal => a.SetsSealed false
  | .destroy => fun r a' => if a.destroyed = true then r = .err none ∧ a' = a
    else a' = { a with bytes := [], destroyed := true }
  | m => a.Uses faulty m

end Abs

/-- What concerns a history in one call. -/
structure MethodStep (P : Platform) (faulty : Bool) (b key : ℕ) (m : Method) (r : Reply)
    (w w' : World T) : Prop where
  step : (w.obj b).view.Step faulty m r (w'.obj b).view
  tagged : Tagged P b key w → Tagged P b key w'

lemma refusal_of_sealRefusal {e : Sentinel} (h : a.sealRefusal = some e) :
    a.refusal = some e ∧ a.mutationRefusal = some e := by
  cases hd : a.destroyed <;> cases hw : a.wiped <;>
    simp_all [Abs.refusal, Abs.mutationRefusal, Abs.sealRefusal]

lemma refusal_of_destroyed (h : a.destroyed = true) :
    a.refusal = some .errDestroyed ∧ a.sealRefusal = some .errDestroyed := by
  simp [Abs.refusal, Abs.sealRefusal, h]

lemma Sound.destroyed (h : Sound P b key layout w) :
    (w.obj b).view.destroyed = true ↔ (w.obj b).state.inner = false := by
  rw [h.idle.gone]
  simp [Obj.view]

lemma says_of_error {r : Reply} {e : Sentinel} (h : r.error = some (.sentinel e)) : r.says e :=
  ⟨_, h, by cases e <;> rfl⟩

namespace Abs

variable {a' : Abs} {r : Reply} {e : Sentinel} {refusal : Option Sentinel}
  {effect : Option GoErr → Abs → Prop}

lemma Guarded.refused (he : refusal = some e) (name : String) :
    a.Guarded refusal effect (.err (some (.wrap name e))) a := by
  subst he
  exact ⟨⟨_, rfl, by cases e <;> rfl⟩, rfl⟩

lemma Guarded.done (hr : refusal = none) (h : effect err a') :
    a.Guarded refusal effect (.err err) a' := by
  subst hr
  exact ⟨err, rfl, h⟩

lemma step_iff_uses (hm : m.accesses = true) : a.Step faulty m r a' ↔ a.Uses faulty m r a' := by
  cases m <;> first | exact Iff.rfl | cases hm

namespace Step

/-- A buffer that cannot be used any more refuses every call. -/
lemma shut (h : a.Step faulty m r a') (he : a.sealRefusal = some e) (hm : m ≠ .destroy) :
    a' = a ∧ m.ShutReply e r := by
  obtain ⟨hread, hmut⟩ := refusal_of_sealRefusal he
  cases m with
  | withBytes fn | withBytesErr fn =>
    obtain ⟨mapped, h⟩ := h
    cases fn with
    | none =>
      obtain ⟨rfl, rfl⟩ := h
      exact ⟨rfl, Option.some_ne_none _⟩
    | some fn =>
      simp only [answer, hread] at h
      obtain ⟨rfl, rfl⟩ := h
      exact ⟨rfl, says_of_error rfl⟩
  | exposeString | copyOut n off | byteAt i | constantTimeEqual other | writeTo wr =>
    obtain ⟨mapped, h⟩ := h
    simp only [answer, hread] at h
    obtain ⟨rfl, rfl⟩ := h
    exact ⟨rfl, says_of_error rfl⟩
  | copyIn src off | setByteAt i v | readFrom rd =>
    obtain ⟨mapped, h⟩ := h
    simp only [answer, hmut] at h
    obtain ⟨rfl, rfl⟩ := h
    exact ⟨rfl, says_of_error rfl⟩
  | len | mappedLen | isSealed | isDestroyed =>
    obtain ⟨mapped, h⟩ := h
    exact ⟨h.2, trivial⟩
  | destroy => exact absurd rfl hm
  | _ =>
    simp only [Step, SetsReadOnly, Truncates, SetsSealed, Guarded, hread, hmut, he] at h
    exact h.symm

/-- What a call says of a destroyed buffer, which it leaves as it is. -/
lemma gone (h : a.Step faulty m r a') (hd : a.destroyed = true) :
    a' = a ∧ m.GoneReply a.sealed r := by
  by_cases hm : m = .destroy
  · subst hm
    rw [Step, if_pos hd] at h
    obtain ⟨rfl, rfl⟩ := h
    exact ⟨rfl, rfl⟩
  obtain ⟨rfl, hr⟩ := h.shut (refusal_of_destroyed hd).2 hm
  refine ⟨rfl, ?_⟩
  cases m with
  | len | mappedLen | isSealed | isDestroyed =>
    obtain ⟨mapped, rfl, -⟩ := h
    simp [Method.GoneReply, len, hd]
  | withBytes fn | withBytesErr fn => cases fn <;> exact hr
  | destroy => exact absurd rfl hm
  | _ => exact hr

lemma destroyed (h : a.Step faulty .destroy r a') :
    a'.destroyed = true ∧ a'.sealed = a.sealed := by
  rw [Step] at h
  split at h
  next hd =>
    rw [h.2]
    exact ⟨hd, rfl⟩
  next =>
    rw [h]
    exact ⟨rfl, rfl⟩

/-- No method wipes the buffer. -/
lemma wiped (h : a.Step faulty m r a') : a'.wiped = a.wiped := by
  by_cases hm : m.accesses = true
  · obtain ⟨mapped, h⟩ := (step_iff_uses hm).mp h
    split at h
    · rw [h.2]
    · obtain ⟨-, used, err, -, -, -, rfl⟩ := h
      split <;> rfl
  · cases m <;> simp only [Method.accesses, not_true_eq_false] at hm <;>
      simp only [Step, SetsReadOnly, Truncates, SetsSealed, Guarded] at h <;> grind [store]

end Step

end Abs

/-! ## Methods -/

lemma length_le_writeAt (l : List UInt8) (lo : ℕ) (bs : List UInt8) :
    l.length ≤ (writeAt l lo bs).length := by
  simp only [writeAt, List.length_append, List.length_take, List.length_drop]
  omega

lemma take_writeAt {n : ℕ} {l : List UInt8} (hn : n ≤ l.length) (lo : ℕ) (bs : List UInt8) :
    (writeAt l lo bs).take n = (writeAt (l.take n) lo bs).take (l.take n).length := by
  refine List.ext_getElem? fun i => ?_
  simp only [writeAt, List.getElem?_take, List.getElem?_append, List.length_append,
    List.length_take, List.getElem?_drop]
  grind

lemma take_self_writeAt {lo : ℕ} {l bs : List UInt8} (h : lo ≤ l.length) :
    (writeAt l lo bs).take lo = l.take lo := by
  rw [writeAt, List.append_assoc, List.take_append_of_le_length (by simp [h]), List.take_take,
    min_self]

lemma Content.take_writeAll {n : ℕ} (hn : n ≤ c.plain.length) (ws : List (ℕ × List UInt8)) :
    (c.writeAll ws).plain.take n =
      ws.foldl (fun bs x => (writeAt bs x.1 x.2).take bs.length) (c.plain.take n) := by
  induction ws generalizing c with
  | nil => rfl
  | cons x ws ih =>
    have hw : (c.write x.1 x.2).plain = writeAt c.plain x.1 x.2 := by
      unfold Content.write
      split
      next hx => simp [hx, writeAt]
      next => rfl
    have := ih (c := c.write x.1 x.2) (by rw [hw]; exact hn.trans (length_le_writeAt ..))
    rw [hw, take_writeAt hn] at this
    exact this

/-- A use writes what the abstract buffer stores. -/
lemma Used.view {used : Bool} {o o' : Obj T} (ws : List (ℕ × List UInt8))
    (h : Used faulty o (o.content.writeAll ws) used err o')
    (hlen : o.state.len ≤ o.ghost.plain.length) :
    (err = none → used = true) ∧ (err = none ∨ faulty = true) ∧
      o'.view = if used = true then o.view.store ws else o.view := by
  have hview : (o.withContent (o.content.writeAll ws)).view = o.view.store ws :=
    congrArg (fun bs => ({ o.view with bytes := bs } : Abs))
      (Content.take_writeAll (c := o.content) hlen ws)
  cases h with
  | done =>
    refine ⟨fun _ => rfl, .inl rfl, ?_⟩
    rw [if_pos rfl, ← hview]
    unfold Obj.rested
    split <;> rfl
  | notOpened e p hf => exact ⟨fun herr => absurd herr (Option.some_ne_none e), .inr hf, rfl⟩
  | notClosed e p hf => exact ⟨fun _ => rfl, .inr hf, hview⟩

lemma Sound.access {r : Reply} {o' : Obj T} (h : Sound P b key layout w)
    (hm : m.accesses = true) (hstep : AccessStep faulty (w.obj b) m r o') :
    Sound P b key layout (w.setObj b o') ∧ MethodStep P faulty b key m r w (w.setObj b o') := by
  unfold AccessStep at hstep
  cases hans : (w.obj b).view.answer (w.obj b).region.inner.length m with
  | some r₀ =>
    rw [hans] at hstep
    obtain ⟨rfl, rfl⟩ := hstep
    rw [setObj_obj]
    exact ⟨h, (Abs.step_iff_uses hm).mpr ⟨_, by rw [hans]; exact ⟨rfl, rfl⟩⟩, id⟩
  | none =>
    rw [hans] at hstep
    obtain ⟨hr, used, err, hu, rfl⟩ := hstep
    obtain ⟨hused, hfine, hview⟩ := Used.view _ hu h.len_le
    refine ⟨h.used hr (Content.writeAll_coherent (h.unsealed hr).2.2 _) hu,
      (Abs.step_iff_uses hm).mpr ⟨(w.obj b).region.inner.length, ?_⟩, fun _ _ ht => ?_⟩
    · rw [hans, obj_setObj]
      exact ⟨hr, used, err, hused, hfine, rfl, hview⟩
    · rw [obj_setObj, hu.usedTo.state, (h.unsealed hr).2.1] at ht
      cases ht

variable {Q : Reply → World T → Prop} {s : Sealing}

/-- A call that leaves the buffer as it was. -/
lemma Sound.unchanged (h : Sound P b key layout w)
    (hQ : ∀ r w', Sound P b key layout w' → MethodStep P faulty b key m r w w' → Q r w')
    (hstep : (w.obj b).view.Step faulty m (.err err) (w.obj b).view) :
    Q (.err err) (w.setObj b (w.obj b)) := by
  rw [setObj_obj]
  exact hQ _ w h ⟨hstep, id⟩

lemma view_cut {o : Obj T} {n : ℕ} (hr : o.view.refusal = none) (hn : n ≤ o.state.len) :
    (o.cut n).view = { o.view with bytes := o.view.bytes.take n } := by
  have hlive : o.state.data.isNone = false := (refusal_eq_none.mp hr).1
  have hlen : (o.cut n).state.len = n := rfl
  rw [Obj.view, hlen, Obj.view, List.take_take, min_eq_left hn, hlive]
  rfl

/-- The buffer cut to fewer bytes than it has. -/
lemma Sound.cut {n : ℕ} (h : Sound P b key layout w) (hr : (w.obj b).view.refusal = none)
    (hn : n ≤ (w.obj b).state.len) : Sound P b key layout (w.setObj b ((w.obj b).cut n)) := by
  refine h.of_setObj h.calm rfl ?_ rfl rfl (fun _ => h.coded (sealRefusal_of_refusal hr))
    (hn.trans h.len_le) (refusal_eq_none.mp hr).2.1
  exact { h.idle with
    gone := h.ready.inner_true hr
    readable := fun _ => h.idle.readable hr
    writable := fun _ => h.idle.writable hr }

lemma Sound.withSealing (h : Sound P b key layout w) (hcalm : Calm b key layout w')
    (hr : (w.obj b).view.sealRefusal = none) (hev : Evolves key w w')
    (hcoded : Coded P (w.obj b).ghost.plain s)
    (hprot : s.sealed = false → (w.obj b).state.closedAtRest = false →
      s.prot.readable = true ∧ ((w.obj b).state.readOnly = false → s.prot.writable = true)) :
    Sound P b key layout (w'.setObj b ((w.obj b).withSealing s)) := by
  refine h.of_setObj hcalm hev.lookup ?_ rfl rfl (fun _ => hcoded) h.len_le
    (sealRefusal_eq_none.mp hr).2
  exact { h.idle with
    readable := fun hr hc => (hprot (refusal_eq_none.mp hr).2.2 hc).1
    writable := fun hr hc => (hprot (refusal_eq_none.mp hr).2.2 hc).2 }

/-- A protection that lets an unsealed buffer be used. -/
lemma usable_restProtection {st : BufferState} (hc : st.closedAtRest = false) :
    (restProtection st).readable = true ∧
      (st.readOnly = false → (restProtection st).writable = true) := by
  cases hro : st.readOnly <;> simp [restProtection, hc, hro, Prot.readable, Prot.writable]

lemma usable_readWrite (st : BufferState) : Prot.readWrite.readable = true ∧
    (st.readOnly = false → Prot.readWrite.writable = true) :=
  ⟨rfl, fun _ => rfl⟩

lemma Sound.sealStep (h : Sound P b key layout w)
    (hr : (w.obj b).view.refusal = none) (hcalm : Calm b key layout w') (hev : Evolves key w w')
    (hs : SealStep P (w.obj b) (w.obj b).sealing err w' s) :
    Sound P b key layout (w'.setObj b ((w.obj b).withSealing s)) := by
  have hplain := (h.unsealed hr).2.2
  refine h.withSealing hcalm (sealRefusal_of_refusal hr) hev ⟨?_, fun ht => (hs.tagged ht).1⟩
    fun hsealed hc => ?_
  · rw [← hplain]
    exact hs.coding.imp (fun hi => ⟨hi.1, hi.2.1⟩) fun hi => ⟨hi.1, hi.2.1, hi.2.2.1⟩
  · rcases hs.prot hsealed with hp | hp | hp
    · rw [hp]
      exact ⟨h.idle.readable hr hc, h.idle.writable hr hc⟩
    · rw [hp]
      exact usable_readWrite _
    · rw [hp]
      exact usable_restProtection hc

/-- A tag is kept by what surrounds the buffer. -/
lemma tagged_withSealing (hcalm : Calm b key layout w')
    (htag : s.tagged = true → TagMatches P w' key s) :
    Tagged P b key (w'.setObj b ((w.obj b).withSealing s)) := by
  intro _ ht
  rw [obj_setObj] at ht ⊢
  exact (hcalm.evolves_setObj _).tagMatches (htag ht)

lemma Sound.unsealStep (h : Sound P b key layout w)
    (hr : (w.obj b).view.sealRefusal = none) (hsealed : (w.obj b).state.sealed = true)
    (hcalm : Calm b key layout w') (hev : Evolves key w w')
    (hs : UnsealStep P faulty (w.obj b) w (w.obj b).sealing err w' s) :
    Sound P b key layout (w'.setObj b ((w.obj b).withSealing s)) := by
  have hcoded := h.coded hr
  cases hs with
  | failed e p | refused p =>
    refine h.withSealing hcalm hr hev ⟨hcoded.coding, hcoded.tagged⟩ fun hopen => ?_
    exact absurd (hsealed.symm.trans hopen) (by decide)
  | done _ plain rest _ hdec =>
    exact h.withSealing hcalm hr hev ⟨.inl ⟨rfl, hcoded.decoded hdec⟩, nofun⟩
      fun _ hc => usable_restProtection hc
  | again e w₁ _ plain rest _ _ _ hdec hagain =>
    refine h.withSealing hcalm hr hev ⟨?_, fun _ => hagain.sealed⟩ fun hopen => ?_
    · rw [← hcoded.decoded hdec]
      exact hagain.coding.imp (fun hi => ⟨hi.1, hi.2.1⟩) fun hi => ⟨hi.1, hagain.sealed, hi.2.1⟩
    · exact absurd (hagain.sealed.symm.trans hopen) (by decide)

lemma Tagged.unsealStep (ht : Tagged P b key w)
    (h : Sound P b key layout w) (hr : (w.obj b).view.sealRefusal = none)
    (hcalm : Calm b key layout w') (hev : Evolves key w w')
    (hs : UnsealStep P faulty (w.obj b) w (w.obj b).sealing err w' s) :
    Tagged P b key (w'.setObj b ((w.obj b).withSealing s)) := by
  have hold : (w.obj b).state.sealTagged = true → TagMatches P w' key (w.obj b).sealing :=
    fun htag => hev.tagMatches (ht (h.idle.inner_of_sealRefusal hr) htag)
  refine tagged_withSealing hcalm fun htag => ?_
  cases hs with
  | failed e p | refused p => exact hold htag
  | done => cases htag
  | again e w₁ _ plain rest _ _ _ _ hagain =>
    rw [← h.janitorKey]
    exact (hagain.tagged htag).2

variable [DecidableEq T] {t : T} {crash : Prop}

lemma ens_own {α : Type} {p : ProcProg α} {Q : α → World T → Prop}
    (h : Ens P t faulty crash p Q (w.setObj b (w.obj b))) : Ens P t faulty crash p Q w := by
  rwa [setObj_obj] at h

/-- `ReadOnly` and `ReadWrite`. -/
lemma ens_protection (h : Sound P b key layout w) {name : String} {p : Prot} {ro : Bool}
    (hm : ∀ r a', (w.obj b).view.SetsReadOnly faulty ro r a' → (w.obj b).view.Step faulty m r a')
    (hp : p.readable = true ∧ (ro = false → p.writable = true))
    (hQ : ∀ r w', Sound P b key layout w' → MethodStep P faulty b key m r w w' → Q r w') :
    Ens P t faulty crash (setProtection b name p ro) (fun e w' => Q (.err e) w') w := by
  refine ens_own (b := b) (ens_setProtection h.ready (fun e he => ?_) (fun hf hr e => ?_)
    fun hr => ?_)
  · exact h.unchanged hQ (hm _ _ (.refused he name))
  · exact h.unchanged hQ (hm _ _ (.done hr ⟨hf, rfl⟩))
  · have hobj : ({ (if (w.obj b).state.closedAtRest = true then w.obj b else (w.obj b).setProt p)
        with state := { (w.obj b).state with readOnly := ro } } : Obj T) =
        { w.obj b with
          state := { (w.obj b).state with readOnly := ro }
          region := { (w.obj b).region with
            prot := if (w.obj b).state.closedAtRest = true then (w.obj b).region.prot
              else p } } := by
      split <;> rfl
    obtain ⟨hcipher, htag, hplain⟩ := h.unsealed hr
    rw [hobj]
    refine hQ _ _ (h.of_setObj h.calm rfl ?_ rfl rfl
      (fun _ => ⟨.inl ⟨hcipher, hplain⟩, fun ht => ?_⟩) h.len_le (refusal_eq_none.mp hr).2.1)
      ⟨hm _ _ (.done hr (by rw [obj_setObj]; rfl)), fun _ _ ht => ?_⟩
    · refine { h.idle with readable := fun _ hc => ?_, writable := fun _ hc hro => ?_ }
      · have hc' : (w.obj b).state.closedAtRest = false := hc
        simp only [hc', Bool.false_eq_true, if_false]
        exact hp.1
      · have hc' : (w.obj b).state.closedAtRest = false := hc
        simp only [hc', Bool.false_eq_true, if_false]
        exact hp.2 hro
    · rw [show (_ : Sealing).tagged = (w.obj b).state.sealTagged from rfl, htag] at ht
      cases ht
    · rw [obj_setObj] at ht
      exact absurd (htag.symm.trans ht) (by decide)

lemma ens_truncateMethod (h : Sound P b key layout w) {n : ℤ}
    (hQ : ∀ r w', Sound P b key layout w' →
      MethodStep P faulty b key (.truncate n) r w w' → Q r w') :
    Ens P t faulty crash (truncate b n) (fun e w' => Q (.err e) w') w := by
  have hlen := h.ready.length_bytes
  have hlive : (w.obj b).view.mutationRefusal = none → (w.obj b).view.refusal = none :=
    fun hmut => (mutationRefusal_eq_none.mp hmut).1
  have hm : ∀ r a', (w.obj b).view.Truncates faulty n r a' →
      (w.obj b).view.Step faulty (.truncate n) r a' := fun _ _ h => h
  -- a buffer that was cut has no tag
  have htag : ∀ o' : Obj T, (w.obj b).view.refusal = none →
      o'.state.sealTagged = (w.obj b).state.sealTagged →
      Tagged P b key w → Tagged P b key (w.setObj b o') := by
    intro o' hr htag _ _ ht
    rw [obj_setObj, htag, (h.unsealed hr).2.1] at ht
    cases ht
  refine ens_own (b := b) (ens_truncate h.ready (fun e he => ?_) (fun hmut hout => ?_)
    (fun hmut hn => ?_) fun hmut hpos hlt used err o' hu => ?_)
  · exact h.unchanged hQ (hm _ _ (.refused he _))
  · refine h.unchanged hQ (hm _ _ (.done hmut ?_))
    rw [hlen, if_pos hout]
    exact ⟨rfl, rfl⟩
  · have hr := hlive hmut
    refine hQ _ _ (h.cut hr (by omega)) ⟨hm _ _ (.done hmut ?_), htag _ hr rfl⟩
    rw [hlen, if_neg (by omega), obj_setObj]
    exact view_cut hr (by omega)
  · have hr := hlive hmut
    have hto := hu.usedTo
    have hused := h.used hr (Content.write_coherent (c := (w.obj b).content)
      (h.unsealed hr).2.2 _ _) hu
    obtain ⟨hdone, hfine, hview⟩ := Used.view
      [(n.toNat, List.replicate ((w.obj b).state.len - n.toNat) 0)] hu h.len_le
    refine hQ _ _ ?_ ⟨hm _ _ (.done hmut ?_), htag _ hr ?_⟩
    · split
      · have hcut := hused.cut (n := n.toNat)
        rw [obj_setObj, setObj_setObj] at hcut
        refine hcut ?_ ?_
        · simp only [refusal_eq_none, Obj.view, hto.state, hto.wiped] at hr ⊢
          exact hr
        · rw [hto.state]
          omega
      · exact hused
    · rw [hlen, if_neg (by omega), obj_setObj]
      cases err with
      | none =>
        rw [hdone rfl, if_pos rfl] at hview
        show (o'.cut n.toNat).view = _
        have hn : n.toNat ≤ (w.obj b).view.bytes.length := by omega
        rw [view_cut (by rw [hview]; exact hr) (by rw [hto.state]; omega), hview]
        simp only [Abs.store, List.foldl_cons, List.foldl_nil, List.take_take, min_eq_left hn,
          take_self_writeAt hn]
      | some e =>
        refine ⟨hfine.resolve_left (Option.some_ne_none e), ?_⟩
        show o'.view = _ ∨ o'.view = _
        rw [hview]
        cases used
        · exact .inl rfl
        · exact .inr rfl
    · split <;> simp only [Obj.cut, hto.state]

lemma ens_sealMethod (h : Sound P b key layout w)
    (hQ : ∀ r w', Sound P b key layout w' → MethodStep P faulty b key .seal r w w' → Q r w') :
    Ens P t faulty crash (sealBuffer P b) (fun e w' => Q (.err e) w') w := by
  have hm : ∀ r a', (w.obj b).view.SetsSealed true r a' →
      (w.obj b).view.Step faulty .seal r a' := fun _ _ h => h
  refine ens_own (b := b) (ens_sealBuffer h.calm h.idle
    (fun hr => h.registered.mpr (h.idle.inner_of_sealRefusal hr))
    (fun hr => ⟨(h.unsealed hr).1, (h.unsealed hr).2.1⟩) (fun e he => ?_) (fun hr hsealed => ?_)
    fun hr err w' s' hcalm hev hstep => ?_)
  · exact h.unchanged hQ (hm _ _ (.refused he _))
  · exact h.unchanged hQ (hm _ _ (.done hr ⟨_, rfl, fun _ => hsealed⟩))
  · refine hQ _ _ (h.sealStep hr hcalm hev hstep)
      ⟨hm _ _ (.done (sealRefusal_of_refusal hr) ⟨s'.sealed, ?_, hstep.success⟩), fun _ => ?_⟩
    · rw [obj_setObj]
      rfl
    · refine tagged_withSealing hcalm fun ht => ?_
      rw [← h.janitorKey]
      exact (hstep.tagged ht).2.2

lemma ens_unsealMethod (h : Sound P b key layout w)
    (hQ : ∀ r w', Sound P b key layout w' → MethodStep P faulty b key .unseal r w w' → Q r w') :
    Ens P t faulty crash (unsealBuffer P b) (fun e w' => Q (.err e) w') w := by
  have hm : ∀ r a', (w.obj b).view.SetsSealed false r a' →
      (w.obj b).view.Step faulty .unseal r a' := fun _ _ h => h
  refine ens_own (b := b) (ens_unsealBuffer h.calm h.idle
    (fun hr => h.registered.mpr (h.idle.inner_of_sealRefusal hr))
    (fun hr => (h.coded hr).sealCipher_ne)
    (fun e he => ?_) (fun hr => ?_) fun hr hsealed err w' s' hcalm hev hstep => ?_)
  · exact h.unchanged hQ (hm _ _ (.refused he _))
  · exact h.unchanged hQ (hm _ _ (.done (sealRefusal_of_refusal hr)
      ⟨_, rfl, fun _ => (refusal_eq_none.mp hr).2.2⟩))
  · refine hQ _ _ (h.unsealStep hr hsealed hcalm hev hstep)
      ⟨hm _ _ (.done hr ⟨s'.sealed, ?_, fun he => ?_⟩),
        fun ht => ht.unsealStep h hr hcalm hev hstep⟩
    · rw [obj_setObj]
      rfl
    · subst he
      cases hstep
      rfl

lemma ens_destroyMethod (h : Sound P b key layout w)
    (hQ : ∀ r w', Sound P b key layout w' → MethodStep P faulty b key .destroy r w w' → Q r w') :
    Ens P t faulty crash (destroy P b) (fun e w' => Q (.err e) w') w := by
  refine ens_own (b := b) (ens_destroy h.calm h.idle h.janitorKey h.registered.mpr
    (fun hg => ?_) fun hlive' err w' o' hcalm hlook hd => ?_)
  · rw [setObj_obj]
    exact hQ _ w h ⟨(if_pos (h.destroyed.mpr hg)).mpr ⟨rfl, rfl⟩, id⟩
  · have hinner : o'.state.inner = false := by rw [hd.state]
    have hgone : o'.view.destroyed = true := by simp [Obj.view, hd.state]
    have hobj : (w'.setObj b o').obj b = o' := obj_setObj _ _ _
    refine hQ _ _ ⟨hcalm.setObj o', ?_, ?_, ?_, fun hr => ?_, ?_, fun hr => ?_⟩
      ⟨?_, fun _ hlive => ?_⟩
    · rw [hobj]
      refine ⟨hd.mu, hd.openMu.trans h.idle.openMu, hd.openers.trans h.idle.openers, ?_,
        fun hi => ?_, fun hr => ?_, fun hr => ?_⟩
      · rw [hd.state]
        rfl
      · rw [hinner] at hi
        cases hi
      · rw [(refusal_of_destroyed hgone).1] at hr
        cases hr
      · rw [(refusal_of_destroyed hgone).1] at hr
        cases hr
    · rw [hobj, hd.state]
      exact h.janitorKey
    · have hnone : (w'.setObj b o').lookup key = none := hlook
      simp [hnone, hinner]
    · rw [hobj, (refusal_of_destroyed hgone).2] at hr
      cases hr
    · rw [hobj, hd.state]
      exact Nat.zero_le _
    · rw [hobj, (refusal_of_destroyed hgone).2] at hr
      cases hr
    · have hnot : ¬(w.obj b).view.destroyed = true := by
        rw [h.destroyed, hlive']
        decide
      refine (if_neg hnot).mpr ?_
      rw [hobj]
      simp [Obj.view, hd.state, hd.wiped, BufferState.len]
    · rw [hobj, hinner] at hlive
      cases hlive

/-- Every method keeps a history sound. -/
lemma ens_method (h : Sound P b key layout w) (m : Method)
    (hcontract : (w.obj b).view.refusal = none → crash ∨ (w.obj b).view.keepsContract m = true)
    (hQ : ∀ r w', Sound P b key layout w' → MethodStep P faulty b key m r w w' → Q r w') :
    Ens P t faulty crash (runMethod P b m) Q w := by
  by_cases hm : m.accesses = true
  · refine ens_own (b := b) (does_accessMethod h.ready hm hcontract fun r o' hstep => ?_)
    obtain ⟨hs, hstep⟩ := h.access hm hstep
    exact hQ _ _ hs hstep
  · match m, hQ with
    | .readOnly, hQ =>
      refine (ens_map ..).mpr (ens_protection (m := .readOnly) h (fun _ _ h => h) ?_ hQ)
      exact ⟨rfl, nofun⟩
    | .readWrite, hQ =>
      refine (ens_map ..).mpr (ens_protection (m := .readWrite) h (fun _ _ h => h) ?_ hQ)
      exact ⟨rfl, fun _ => rfl⟩
    | .seal, hQ => exact (ens_map ..).mpr (ens_sealMethod h hQ)
    | .unseal, hQ => exact (ens_map ..).mpr (ens_unsealMethod h hQ)
    | .truncate n, hQ => exact (ens_map ..).mpr (ens_truncateMethod h hQ)
    | .destroy, hQ => exact (ens_map ..).mpr (ens_destroyMethod h hQ)

end Methods

end Secmem.Process
