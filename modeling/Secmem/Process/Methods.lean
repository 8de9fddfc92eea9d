import Secmem.Process.Access

/-!
# The access methods, alone

Each access method of a `SecureBuffer`, run alone on a buffer at rest, behaves as the abstract
buffer says: it answers at once, or it uses the bytes and replies accordingly.  This holds
whether or not the platform fails; a failure can only be one to open or to close the region.

An object's abstract view is taken from the ghost `plain`, the plaintext last stored; while the
buffer can be read, `Ready` says that the region holds just that.
-/

namespace Secmem.Process

open World

variable {T : Type}

/-- The abstract buffer that an object represents. -/
def Obj.view (o : Obj T) : Abs :=
  ⟨o.ghost.plain.take o.state.len, o.state.sealed, o.state.readOnly, o.wiped,
    o.state.data.isNone⟩

/-- A buffer that nobody is using.  One that can be read is open to reading, and to writing
unless it is read-only or closed at rest. -/
structure Idle (o : Obj T) : Prop where
  mu : o.mu = .free
  openMu : o.openMu = none
  openers : o.openers = 0
  gone : o.state.inner = !o.state.data.isNone
  mapped : o.state.inner = true → o.region.mapped = true
  readable : o.view.refusal = none → o.state.closedAtRest = false →
    o.region.prot.readable = true
  writable : o.view.refusal = none → o.state.closedAtRest = false → o.state.readOnly = false →
    o.region.prot.writable = true

/-- An idle buffer that holds, while it can be read, just what was last stored. -/
structure Ready (o : Obj T) : Prop extends Idle o where
  len_le : o.state.len ≤ o.ghost.plain.length
  plain : o.view.refusal = none → o.region.inner = o.ghost.plain

/-- What an access method does, according to the abstract buffer. -/
def AccessStep (faulty : Bool) (o : Obj T) (m : Method) (r : Reply) (o' : Obj T) : Prop :=
  match o.view.answer o.region.inner.length m with
  | some r₀ => r = r₀ ∧ o' = o
  | none => o.view.refusal = none ∧ ∃ used err,
      Used faulty o (o.content.writeAll (o.view.stores m)) used err o' ∧
        r = o.view.reply used err m

namespace AccessStep

variable {faulty : Bool} {o o' : Obj T} {m : Method}

lemma of_answer {r : Reply} (h : o.view.answer o.region.inner.length m = some r) :
    AccessStep faulty o m r o := by
  unfold AccessStep
  rw [h]
  exact ⟨rfl, rfl⟩

lemma of_used {used : Bool} {err : Option GoErr} {c : Content} (hr : o.view.refusal = none)
    (h : o.view.answer o.region.inner.length m = none)
    (hc : c = o.content.writeAll (o.view.stores m)) (hu : Used faulty o c used err o') :
    AccessStep faulty o m (o.view.reply used err m) o' := by
  unfold AccessStep
  rw [h]
  exact ⟨hr, used, err, hc ▸ hu, rfl⟩

end AccessStep

/-! ## Locks around a use -/

namespace Used

variable {faulty : Bool} {o o' : Obj T} {c : Content} {used : Bool} {err : Option GoErr}

lemma mu_eq (h : Used faulty o c used err o') : o'.mu = o.mu := by
  cases h with
  | done =>
    unfold Obj.rested
    split <;> rfl
  | notOpened => rfl
  | notClosed => rfl

/-- A use under a lock, once the lock is free again. -/
lemma unlocked {l : RWLock T} (hmu : o.mu = .free)
    (h : Used faulty { o with mu := l } c used err o') :
    Used faulty o c used err { o' with mu := .free } := by
  cases h with
  | done hlen =>
    have heq : { ({ o with mu := l }.withContent c).rested with mu := .free } =
        (o.withContent c).rested := by
      unfold Obj.rested
      cases hc : o.state.closedAtRest <;>
        simp [Obj.withContent, Obj.setProt, hc, ← hmu]
    rw [heq]
    exact .done hlen
  | notOpened e p hf hc =>
    have := Used.notOpened (o := o) (c := c) e p hf hc
    simpa only [Obj.setProt, ← hmu] using this
  | notClosed e p hf hc hlen =>
    have := Used.notClosed (o := o) e p hf hc hlen
    simpa only [Obj.setProt, Obj.withContent, ← hmu] using this

/-- A use changes nothing of a buffer but its bytes and its protection. -/
lemma idle (h : Idle o) (hu : Used faulty o c used err o') : Idle o' := by
  have hclosed (c : Content) (p : Prot) (hc : o.state.closedAtRest = true) :
      Idle ((o.withContent c).setProt p) :=
    ⟨h.mu, h.openMu, h.openers, h.gone, h.mapped,
      fun _ hc' => absurd (hc.symm.trans hc') (by decide),
      fun _ hc' => absurd (hc.symm.trans hc') (by decide)⟩
  cases hu with
  | done =>
    unfold Obj.rested
    split
    next hc => exact hclosed c .none hc
    next => exact ⟨h.mu, h.openMu, h.openers, h.gone, h.mapped, h.readable, h.writable⟩
  | notOpened e p hf hc => exact hclosed o.content p hc
  | notClosed e p hf hc => exact hclosed c p hc

end Used

lemma refusal_eq_none {a : Abs} :
    a.refusal = none ↔ a.destroyed = false ∧ a.wiped = false ∧ a.sealed = false := by
  unfold Abs.refusal
  cases a.destroyed <;> cases a.wiped <;> cases a.sealed <;> simp

lemma mutationRefusal_eq_none {a : Abs} :
    a.mutationRefusal = none ↔ a.refusal = none ∧ a.readOnly = false := by
  unfold Abs.mutationRefusal
  cases a.refusal <;> cases a.readOnly <;> simp

namespace Ready

variable {o : Obj T}

lemma length_bytes (h : Ready o) : o.view.bytes.length = o.state.len := by
  simp only [Obj.view, List.length_take]
  exact Nat.min_eq_left h.len_le

lemma view_len (h : Ready o) : o.view.len = o.state.len := by
  rw [Abs.len, h.length_bytes]
  split
  next hd =>
    have : o.state.data = none := by simpa [Obj.view] using hd
    simp [BufferState.len, this]
  next => rfl

lemma noRegion_eq (h : Ready o) : noRegion o.state = o.state.data.isNone := by
  simp only [noRegion, h.gone, Bool.not_not]

lemma inner_true (h : Ready o) (hr : o.view.refusal = none) : o.state.inner = true := by
  have hd : o.state.data.isNone = false := (refusal_eq_none.mp hr).1
  rw [h.gone, hd]
  rfl

lemma inner_eq (h : Ready o) (hr : o.view.refusal = none) :
    o.region.inner.take o.state.len = o.view.bytes := by
  rw [h.plain hr]
  rfl

/-- A copy out of the live bytes. -/
lemma read_eq (h : Ready o) (hr : o.view.refusal = none) (lo n : ℕ) :
    (o.region.inner.drop lo).take (min n (o.state.len - lo)) =
      (o.view.bytes.drop lo).take n := by
  rw [← h.inner_eq hr, List.drop_take, List.take_take]

lemma len_le_inner (h : Ready o) (hr : o.view.refusal = none) :
    o.state.len ≤ o.region.inner.length := by
  rw [h.plain hr]
  exact h.len_le

variable [DecidableEq T] {t : T}

lemma usable (h : Ready o) (hr : o.view.refusal = none) {l : RWLock T} (hl : holds l t = true) :
    Usable t { o with mu := l } where
  held := hl
  openMu := h.openMu
  openers := h.openers
  wiped := (refusal_eq_none.mp hr).2.1
  mapped := h.mapped (h.inner_true hr)
  readable := h.readable hr
  writable := h.writable hr

end Ready

variable [DecidableEq T]

section Rules

variable {P : Platform} {t : T} {faulty : Bool} {crash : Prop} {w : World T} {b : ℕ} {o : Obj T}
  {α : Type} {body : BufferState → ProcProg α} {refuse : Sentinel → α} {gone : BufferState → Bool}
  {Q : α → World T → Prop} {m : Method}

/-- What a stretch under the lock `l` has to come to, for `Q` to hold once the lock is free. -/
def Unlocks (w : World T) (b : ℕ) (l : RWLock T) (Q : α → World T → Prop) (r : α)
    (w' : World T) : Prop :=
  ∃ o', w' = w.setObj b o' ∧ o'.mu = l ∧ Q r (w.setObj b { o' with mu := .free })

/-- A stretch under the exclusive lock. -/
lemma ens_lockedObj {body : ProcProg α} (h : o.mu = .free)
    (hbody : Ens P t faulty crash body (Unlocks w b (lockedBy t) Q)
      (w.setObj b { o with mu := lockedBy t })) :
    Ens P t faulty crash (locked b body) Q (w.setObj b o) := by
  rw [ens_locked (by rwa [obj_setObj])]
  simp only [obj_setObj, setObj_setObj]
  refine hbody.mono fun r w' h' => ?_
  obtain ⟨o', rfl, hmu, hQ⟩ := h'
  simpa only [obj_setObj, setObj_setObj, hmu, unlock_lockedBy] using hQ

/-- A stretch under the shared lock. -/
lemma ens_rLockedObj {body : ProcProg α} (h : o.mu = .free)
    (hbody : Ens P t faulty crash body (Unlocks w b (sharedBy t) Q)
      (w.setObj b { o with mu := sharedBy t })) :
    Ens P t faulty crash (rLocked b body) Q (w.setObj b o) := by
  rw [ens_rLocked (by rwa [obj_setObj])]
  simp only [obj_setObj, setObj_setObj]
  refine hbody.mono fun r w' h' => ?_
  obtain ⟨o', rfl, hmu, hQ⟩ := h'
  simpa only [obj_setObj, setObj_setObj, hmu, rUnlock_sharedBy] using hQ

/-! ## Checks -/

/-- The checks a method begins with are those of the abstract buffer. -/
lemma ens_gate (hgone : gone o.state = o.state.data.isNone)
    (Q : Except Sentinel BufferState → World T → Prop) :
    Ens P t faulty crash (gate gone b) Q (w.setObj b o) ↔
      Q (o.view.refusal.elim (.ok o.state) .error) (w.setObj b o) := by
  simp only [gate, ens_bind, ens_load, obj_setObj, hgone, Abs.refusal]
  cases hd : o.state.data.isNone with
  | true =>
    have hdv : o.view.destroyed = true := hd
    simp only [hdv, if_true, ens_pure, Option.elim_some]
  | false =>
    have hdv : o.view.destroyed = false := hd
    have hwv : o.view.wiped = o.wiped := rfl
    have hsv : o.view.sealed = o.state.sealed := rfl
    simp only [hdv, hwv, hsv, Bool.false_eq_true, if_false, ens_bind, ens_loadWiped,
      obj_setObj]
    cases o.wiped with
    | true => exact Iff.rfl
    | false => cases o.state.sealed <;> exact Iff.rfl

lemma ens_gateMutation (hgone : gone o.state = o.state.data.isNone)
    (Q : Except Sentinel BufferState → World T → Prop) :
    Ens P t faulty crash (gateMutation gone b) Q (w.setObj b o) ↔
      Q (o.view.mutationRefusal.elim (.ok o.state) .error) (w.setObj b o) := by
  simp only [gateMutation, ens_bind]
  rw [ens_gate hgone]
  simp only [Abs.mutationRefusal]
  cases o.view.refusal with
  | some e => exact Iff.rfl
  | none =>
    have hro : o.view.readOnly = o.state.readOnly := rfl
    rw [hro]
    simp only [Option.elim_none]
    cases o.state.readOnly <;> exact Iff.rfl

/-- A method's body after checks that come to `refusal`. -/
lemma ens_checked {check : ProcProg (Except Sentinel BufferState)}
    {refusal : Option Sentinel}
    (hcheck : ∀ Q, Ens P t faulty crash check Q (w.setObj b o) ↔
      Q (refusal.elim (.ok o.state) .error) (w.setObj b o))
    (hrefused : ∀ e, refusal = some e → Q (refuse e) (w.setObj b o))
    (hbody : refusal = none → Ens P t faulty crash (body o.state) Q (w.setObj b o)) :
    Ens P t faulty crash (checked check refuse body) Q (w.setObj b o) := by
  simp only [checked, ens_bind]
  rw [hcheck]
  cases refusal with
  | some e => exact hrefused e rfl
  | none => exact hbody rfl

/-- A method that reads: the shared lock, the checks, then the body. -/
lemma ens_reading (h : Ready o)
    (hrefused : ∀ e, o.view.refusal = some e → Q (refuse e) (w.setObj b o))
    (hbody : o.view.refusal = none → Usable t { o with mu := sharedBy t } →
      Ens P t faulty crash (body o.state) (Unlocks w b (sharedBy t) Q)
        (w.setObj b { o with mu := sharedBy t })) :
    Ens P t faulty crash (rLocked b (checked (gate noData b) refuse body)) Q (w.setObj b o) := by
  refine ens_rLockedObj h.mu (ens_checked (ens_gate rfl) ?_ ?_)
  · intro e he
    refine ⟨_, rfl, rfl, ?_⟩
    have := hrefused e he
    rwa [← h.mu]
  · intro hr
    exact hbody hr (h.usable hr (holds_sharedBy t))

/-- A method that changes the contents. -/
lemma ens_mutating (h : Ready o)
    (hgone : gone o.state = o.state.data.isNone)
    (hrefused : ∀ e, o.view.mutationRefusal = some e → Q (refuse e) (w.setObj b o))
    (hbody : o.view.refusal = none → o.state.readOnly = false →
      Usable t { o with mu := lockedBy t } →
      Ens P t faulty crash (body o.state) (Unlocks w b (lockedBy t) Q)
        (w.setObj b { o with mu := lockedBy t })) :
    Ens P t faulty crash (locked b (checked (gateMutation gone b) refuse body)) Q
      (w.setObj b o) := by
  refine ens_lockedObj h.mu (ens_checked (ens_gateMutation hgone) ?_ ?_)
  · intro e he
    refine ⟨_, rfl, rfl, ?_⟩
    have := hrefused e he
    rwa [← h.mu]
  · intro hm
    obtain ⟨hr, hro⟩ := mutationRefusal_eq_none.mp hm
    exact hbody hr hro (h.usable hr (holds_lockedBy t))

omit [DecidableEq T] in
/-- The answer of a method that has taken a lock. -/
lemma answered {r : Reply} {l : RWLock T} {Q : Reply → World T → Prop}
    (hmu : o.mu = .free)
    (hQ : ∀ r o', AccessStep faulty o m r o' → Q r (w.setObj b o'))
    (h : o.view.answer o.region.inner.length m = some r) :
    Unlocks w b l Q r (w.setObj b { o with mu := l }) := by
  refine ⟨_, rfl, rfl, ?_⟩
  rw [← hmu]
  exact hQ _ _ (.of_answer h)

omit [DecidableEq T] in
/-- The reply of a method that has used the bytes under a lock. -/
lemma replied {r : Reply} {l : RWLock T} {c : Content} {used : Bool}
    {err : Option GoErr} {o' : Obj T} {Q : Reply → World T → Prop} (hmu : o.mu = .free)
    (hQ : ∀ r o', AccessStep faulty o m r o' → Q r (w.setObj b o'))
    (hr : o.view.refusal = none) (hans : o.view.answer o.region.inner.length m = none)
    (hc : c = o.content.writeAll (o.view.stores m)) (hreply : r = o.view.reply used err m)
    (h : Used faulty { o with mu := l } c used err o') :
    Unlocks w b l Q r (w.setObj b o') :=
  ⟨o', rfl, h.mu_eq, hreply ▸ hQ _ _ (.of_used hr hans hc (h.unlocked hmu))⟩

/-- A program run alone does to the buffer what is said of the method. -/
def Does (P : Platform) (t : T) (faulty : Bool) (crash : Prop) (w : World T) (b : ℕ) (o : Obj T)
    (m : Method) (body : ProcProg Reply) : Prop :=
  ∀ {Q : Reply → World T → Prop}, (∀ r o', AccessStep faulty o m r o' → Q r (w.setObj b o')) →
    Ens P t faulty crash body Q (w.setObj b o)

/-! ## Methods that read -/

lemma does_copyOut (h : Ready o) {n : ℕ} {off : ℤ} :
    Does P t faulty crash w b o (.copyOut n off) (copyOut b n off) := by
  intro Q hQ
  refine ens_reading h (fun e he => hQ _ _ (.of_answer (by simp [Abs.answer, he])))
    fun hr hu => ?_
  by_cases hrange : off < 0 ∨ (o.state.len : ℤ) ≤ off
  · rw [if_pos hrange, ens_pure]
    exact answered h.mu hQ (by simp [Abs.answer, hr, Abs.rangeError, h.view_len, hrange])
  · simp only [if_neg hrange, ens_bind, ens_pure]
    refine ens_onceOpen hu (fun Q₁ hQ₁ => ens_readBody hu _ _ (hQ₁ rfl)) fun used err o' hu' =>
      replied h.mu hQ hr ?_ rfl ?_ hu'
    · simp [Abs.answer, hr, Abs.rangeError, h.view_len, hrange]
    · rw [Abs.reply, ← h.read_eq hr]

lemma does_byteAt (h : Ready o) {i : ℤ} :
    Does P t faulty crash w b o (.byteAt i) (byteAt b i) := by
  intro Q hQ
  refine ens_reading h (fun e he => hQ _ _ (.of_answer (by simp [Abs.answer, he])))
    fun hr hu => ?_
  by_cases hrange : i < 0 ∨ (o.state.len : ℤ) ≤ i
  · rw [if_pos hrange, ens_pure]
    exact answered h.mu hQ (by simp [Abs.answer, hr, Abs.rangeError, h.view_len, hrange])
  · simp only [if_neg hrange, ens_bind, ens_pure]
    refine ens_onceOpen hu (fun Q₁ hQ₁ => ens_readBody hu _ _ (hQ₁ rfl)) fun used err o' hu' =>
      replied h.mu hQ hr ?_ rfl ?_ hu'
    · simp [Abs.answer, hr, Abs.rangeError, h.view_len, hrange]
    · have hread := h.read_eq hr i.toNat 1
      rw [Nat.min_eq_left (by omega)] at hread
      rw [Abs.reply, hread]
      cases used with
      | false => rfl
      | true => cases hd : o.view.bytes.drop i.toNat <;> simp

lemma does_constantTimeEqual (h : Ready o) {other : List UInt8} :
    Does P t faulty crash w b o (.constantTimeEqual other) (constantTimeEqual b other) := by
  intro Q hQ
  refine ens_reading h (fun e he => hQ _ _ (.of_answer (by simp [Abs.answer, he])))
    fun hr hu => ?_
  by_cases hlen : o.state.len ≠ other.length
  · rw [if_pos hlen, ens_pure]
    exact answered h.mu hQ (by simp [Abs.answer, hr, h.view_len, hlen])
  · simp only [if_neg hlen, ens_bind, ens_pure]
    refine ens_onceOpen hu (r := decide (o.view.bytes = other)) (fun Q₁ hQ₁ => ?_)
      fun used err o' hu' => replied h.mu hQ hr ?_ rfl ?_ hu'
    · simp only [ens_bind, ens_pure]
      refine ens_readBody hu _ _ ?_
      rw [List.drop_zero, h.inner_eq hr]
      exact hQ₁ rfl
    · simp [Abs.answer, hr, h.view_len, hlen]
    · cases used <;> rfl

lemma does_writeTo (h : Ready o) {wr : Writer} :
    Does P t faulty crash w b o (.writeTo wr) (writeTo b wr) := by
  intro Q hQ
  simp only [writeTo, ens_bind]
  refine ens_reading h (fun e he => hQ _ _ (.of_answer (by simp [Abs.answer, he])))
    fun hr hu => ?_
  simp only [ens_bind]
  refine ens_whileOpen hu (fun Q₁ hQ₁ => ens_readBody hu _ _ (hQ₁ rfl)) fun used err o' hu' => ?_
  have hans : o.view.answer o.region.inner.length (.writeTo wr) = none := by
    simp [Abs.answer, hr]
  have hrep := replied (r := o.view.reply used err (.writeTo wr)) h.mu hQ hr hans rfl rfl hu'
  cases err with
  | some e => exact hrep
  | none =>
    have hused : used = true := by
      cases hu'
      rfl
    simp only [hused, if_true, List.drop_zero, h.inner_eq hr]
    exact hrep

/-! ## Borrows -/

/-- A callback's writes, on an open region: they are possible if it keeps its contract. -/
lemma canWrite_callback (h : Ready o) (hr : o.view.refusal = none) {l : RWLock T}
    (hl : holds l t = true) {fn : Callback}
    (hcontract : crash ∨ ((fn o.view.bytes).strays = [] ∧
      (o.state.readOnly = true → (fn o.view.bytes).writes = []))) :
    CanWrite crash ({ o with mu := l }.opened t) ((fn o.view.bytes).strays ++
      ((fn o.view.bytes).writes.filter fun x => x.1 < o.state.len).map
        fun x => (0 + x.1, x.2)) := by
  intro x hx
  refine hcontract.imp_right fun hk => ?_
  rw [hk.1, List.nil_append, List.mem_map] at hx
  obtain ⟨y, hy, rfl⟩ := hx
  obtain ⟨hmem, hlt⟩ := List.mem_filter.mp hy
  have hro : o.state.readOnly = false := by
    by_contra hro
    rw [hk.2 (by simpa using hro)] at hmem
    exact absurd hmem List.not_mem_nil
  have hinner : ({ o with mu := l }.opened t).region.inner = o.region.inner :=
    congrArg Content.inner (content_opened _ _)
  refine ⟨?_, (h.usable hr hl).opened_writable hro⟩
  have hle := h.len_le_inner hr
  have hlt' : y.1 < o.state.len := by simpa using hlt
  rw [hinner]
  omega

lemma does_borrow (h : Ready o) {fn : Callback} {conv : CallbackEnd → CallbackEnd}
    (hans : o.view.answer o.region.inner.length m =
      o.view.refusal.map fun e => .borrowed none (.returns (some e)))
    (hstores : o.view.stores m = (fn o.view.bytes).strays.map (fun x => (x.1, [x.2])) ++
      (fn o.view.bytes).inside o.view.bytes.length)
    (hreply : ∀ used err, o.view.reply used err m =
      borrowReply conv (if used = true then
        some (o.view.bytes, (fn o.view.bytes).end o.view.bytes.length) else none, err))
    (hcontract : o.view.refusal = none → crash ∨ ((fn o.view.bytes).strays = [] ∧
      (o.state.readOnly = true → (fn o.view.bytes).writes = []))) :
    Does P t faulty crash w b o m (borrow b fn conv) := by
  intro Q hQ
  refine ens_reading h (fun e he => hQ _ _ (.of_answer (by rw [hans, he]; rfl)))
    fun hr hu => ?_
  simp only [ens_bind, ens_pure]
  refine ens_onceOpen hu (r := some (o.view.bytes, (fn o.view.bytes).end o.view.bytes.length))
    (c := o.content.writeAll (o.view.stores m)) (fun Q₁ hQ₁ => ?_)
    fun used err o' hu' => replied h.mu hQ hr (by rw [hans, hr]; rfl) rfl (hreply _ _).symm hu'
  have hinner : ({ o with mu := sharedBy t }.opened t).region.inner = o.region.inner :=
    congrArg Content.inner (content_opened _ _)
  simp only [ens_bind, ens_pure]
  refine ens_runCallback hu.opened_readable ?_ ?_
  · simp only [hinner, List.drop_zero, h.inner_eq hr]
    exact canWrite_callback h hr (holds_sharedBy t) (hcontract hr)
  · simp only [hinner, List.drop_zero, h.inner_eq hr, content_opened, Nat.zero_add, Prod.mk.eta,
      List.map_id']
    rw [hstores, h.length_bytes] at hQ₁
    exact hQ₁

lemma keepsContract_iff {a : Abs} {fn : Callback} :
    ((fn a.bytes).strays.isEmpty && (!a.readOnly || (fn a.bytes).writes.isEmpty)) = true ↔
      (fn a.bytes).strays = [] ∧ (a.readOnly = true → (fn a.bytes).writes = []) := by
  cases a.readOnly <;> simp

lemma does_exposeString (h : Ready o) :
    Does P t faulty crash w b o .exposeString (exposeString b) := by
  intro Q hQ
  simp only [exposeString, ens_bind]
  refine does_borrow (m := .withBytesErr (some fun _ => ⟨[], [], .returns none⟩)) h
    (by simp only [Abs.answer]) rfl (fun used err => ?_) (fun _ => Or.inr ⟨rfl, fun _ => rfl⟩)
    fun r o' hstep => ?_
  · cases used <;> rfl
  · unfold AccessStep at hstep
    cases hr : o.view.refusal with
    | some e =>
      simp only [Abs.answer, hr, Option.map_some] at hstep
      obtain ⟨rfl, rfl⟩ := hstep
      exact hQ _ _ (.of_answer (by simp [Abs.answer, hr]))
    | none =>
      simp only [Abs.answer, hr, Option.map_none, true_and] at hstep
      obtain ⟨used, err, hu, rfl⟩ := hstep
      have hrep := hQ _ _ (.of_used hr (by simp [Abs.answer, hr]) rfl hu)
      cases hu <;> exact hrep

/-! ## Methods that write -/

lemma does_copyIn (h : Ready o) {src : List UInt8} {off : ℤ} :
    Does P t faulty crash w b o (.copyIn src off) (copyIn b src off) := by
  intro Q hQ
  refine ens_mutating h rfl (fun e he => hQ _ _ (.of_answer (by simp [Abs.answer, he])))
    fun hr hro hu => ?_
  have hm : o.view.mutationRefusal = none := mutationRefusal_eq_none.mpr ⟨hr, hro⟩
  by_cases hrange : off < 0 ∨ (o.state.len : ℤ) ≤ off
  · rw [if_pos hrange, ens_pure]
    exact answered h.mu hQ (by simp [Abs.answer, hm, Abs.rangeError, h.view_len, hrange])
  · have hin : off.toNat + (src.take (o.state.len - off.toNat)).length ≤
        o.region.inner.length := by
      have hle := h.len_le_inner hr
      have htake := List.length_take_le (o.state.len - off.toNat) src
      omega
    simp only [if_neg hrange, ens_bind, ens_pure, storeBytes]
    refine ens_onceOpen hu (r := (src.take (o.state.len - off.toNat)).length)
      (c := o.content.write off.toNat (src.take (o.state.len - off.toNat)))
      (fun Q₁ hQ₁ => ?_) fun used err o' hu' => replied h.mu hQ hr ?_ ?_ ?_ hu'
    · simp only [ens_bind, ens_pure]
      exact ens_writeBody hu hro hin hQ₁
    · simp [Abs.answer, hm, Abs.rangeError, h.view_len, hrange]
    · rw [Abs.stores, h.length_bytes]
      rfl
    · rw [Abs.reply, h.length_bytes]

lemma does_setByteAt (h : Ready o) {i : ℤ} {v : UInt8} :
    Does P t faulty crash w b o (.setByteAt i v) (setByteAt b i v) := by
  intro Q hQ
  refine ens_mutating h rfl (fun e he => hQ _ _ (.of_answer (by simp [Abs.answer, he])))
    fun hr hro hu => ?_
  have hm : o.view.mutationRefusal = none := mutationRefusal_eq_none.mpr ⟨hr, hro⟩
  by_cases hrange : i < 0 ∨ (o.state.len : ℤ) ≤ i
  · rw [if_pos hrange, ens_pure]
    exact answered h.mu hQ (by simp [Abs.answer, hm, Abs.rangeError, h.view_len, hrange])
  · have hin : i.toNat + [v].length ≤ o.region.inner.length := by
      have hle := h.len_le_inner hr
      simp only [List.length_singleton]
      omega
    simp only [if_neg hrange, ens_bind, ens_pure, storeBytes]
    refine ens_onceOpen hu (r := 1) (c := o.content.write i.toNat [v])
      (fun Q₁ hQ₁ => ?_) fun used err o' hu' =>
      replied h.mu hQ hr ?_ rfl rfl hu'
    · simp only [ens_bind, ens_pure]
      exact ens_writeBody hu hro hin hQ₁
    · simp [Abs.answer, hm, Abs.rangeError, h.view_len, hrange]

/-- The end of `ReadFrom`, after a first look at the buffer that found it usable. -/
lemma does_storeRead (h : Ready o) {r : Reader} (hm : o.view.mutationRefusal = none)
    (hok : acceptShort (readFull r o.state.len).2 = none) :
    Does P t faulty crash w b o (.readFrom r) (storeRead b (readFull r o.state.len).1) := by
  intro Q hQ
  refine ens_mutating h rfl (fun e he => hQ _ _ (.of_answer (by simp [Abs.answer, he])))
    fun hr hro hu => ?_
  have hin : 0 + ((readFull r o.state.len).1.take o.state.len).length ≤
      o.region.inner.length := by
    have hle := h.len_le_inner hr
    have htake := List.length_take_le o.state.len (readFull r o.state.len).1
    omega
  simp only [ens_bind, ens_pure]
  refine ens_whileOpen hu (r := ((readFull r o.state.len).1.take o.state.len).length)
    (c := o.content.write 0 ((readFull r o.state.len).1.take o.state.len))
    (fun Q₁ hQ₁ => ?_) fun used err o' hu' => replied h.mu hQ hr ?_ ?_ ?_ hu'
  · simp only [ens_bind, ens_pure]
    exact ens_writeBody hu hro hin hQ₁
  · simp [Abs.answer, hm, h.view_len, hok]
  · rw [Abs.stores, h.length_bytes]
    rfl
  · rw [Abs.reply, h.length_bytes]

lemma does_readFrom (h : Ready o) {r : Reader} :
    Does P t faulty crash w b o (.readFrom r) (readFrom b r) := by
  intro Q hQ
  simp only [readFrom, ens_bind]
  refine ens_rLockedObj h.mu ?_
  rw [ens_gateMutation rfl]
  have hview : ({ o with mu := sharedBy t } : Obj T).view = o.view := rfl
  refine ⟨_, rfl, rfl, ?_⟩
  rw [← h.mu, hview]
  cases hm : o.view.mutationRefusal with
  | some e => exact hQ _ _ (.of_answer (by simp [Abs.answer, hm]))
  | none =>
    simp only [Option.elim_none]
    cases hok : acceptShort (readFull r o.state.len).2 with
    | some e => exact hQ _ _ (.of_answer (by simp [Abs.answer, hm, h.view_len, hok]))
    | none => exact does_storeRead h hm hok hQ

/-! ## Queries -/

/-- A query reads under the shared lock. -/
lemma does_load (h : Ready o) {body : ProcProg Reply} {r : Reply}
    (hans : o.view.answer o.region.inner.length m = some r)
    (hbody : ∀ Q₁ : Reply → World T → Prop, Q₁ r (w.setObj b { o with mu := sharedBy t }) →
      Ens P t faulty crash body Q₁ (w.setObj b { o with mu := sharedBy t })) :
    Does P t faulty crash w b o m (rLocked b body) :=
  fun hQ => ens_rLockedObj h.mu (hbody _ (answered h.mu hQ hans))

lemma does_len (h : Ready o) :
    Does P t faulty crash w b o .len (len b) := by
  refine does_load h rfl fun Q₁ hQ₁ => ?_
  simp only [ens_bind, ens_load, ens_pure, obj_setObj]
  rwa [h.view_len] at hQ₁

lemma does_mappedLen (h : Ready o) :
    Does P t faulty crash w b o .mappedLen (mappedLen b) := by
  refine does_load h rfl fun Q₁ hQ₁ => ?_
  simp only [ens_bind, ens_load, obj_setObj, h.gone]
  have hd : o.view.destroyed = o.state.data.isNone := rfl
  rw [hd] at hQ₁
  cases hgone : o.state.data.isNone with
  | true => simpa [hgone] using hQ₁
  | false => simpa [hgone] using hQ₁

lemma does_isSealed (h : Ready o) :
    Does P t faulty crash w b o .isSealed (isSealed b) := by
  refine does_load h rfl fun Q₁ hQ₁ => ?_
  simp only [ens_bind, ens_load, ens_pure, obj_setObj]
  exact hQ₁

lemma does_isDestroyed (h : Ready o) :
    Does P t faulty crash w b o .isDestroyed (isDestroyed b) := by
  refine does_load h rfl fun Q₁ hQ₁ => ?_
  simp only [ens_bind, ens_load, ens_pure, obj_setObj, h.noRegion_eq]
  exact hQ₁

/-! ## All of them -/

/-- The methods that look at the buffer or its bytes, and change at most the bytes. -/
def Method.accesses : Method → Bool
  | .readOnly | .readWrite | .seal | .unseal | .truncate _ | .destroy => false
  | _ => true

/-- An access method run alone does what the abstract buffer says. -/
lemma does_accessMethod (h : Ready o) (hm : m.accesses = true)
    (hcontract : o.view.refusal = none → crash ∨ o.view.keepsContract m = true) :
    Does P t faulty crash w b o m (runMethod P b m) := by
  cases m with
  | withBytes fn | withBytesErr fn =>
    intro Q hQ
    cases fn with
    | none => exact hQ _ _ (.of_answer rfl)
    | some fn =>
      refine does_borrow h (by simp only [Abs.answer]) rfl (fun used err => ?_)
        (fun hr => (hcontract hr).imp_right fun hk => keepsContract_iff.mp hk) hQ
      cases used <;> rfl
  | exposeString => exact does_exposeString h
  | copyOut n off => exact does_copyOut h
  | copyIn src off => exact does_copyIn h
  | byteAt i => exact does_byteAt h
  | setByteAt i v => exact does_setByteAt h
  | constantTimeEqual other => exact does_constantTimeEqual h
  | writeTo wr => exact does_writeTo h
  | readFrom r => exact does_readFrom h
  | len => exact does_len h
  | mappedLen => exact does_mappedLen h
  | isSealed => exact does_isSealed h
  | isDestroyed => exact does_isDestroyed h
  | _ => exact absurd hm Bool.false_ne_true

end Rules

end Secmem.Process
