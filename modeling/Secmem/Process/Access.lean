import Secmem.Process.Abstract
import Secmem.Process.Alone

/-!
# Using a region, alone

What `open` and `close` do around a use of a buffer's region, what a copy or a callback does to
the bytes, and which of the checks of a method pass.  The rules for the methods in
`Process.Methods` are put together from these.
-/

namespace Secmem.Process

open World

variable {T : Type} {bs : List UInt8}

/-! ## Contents -/

/-- The bytes of a region and what the ghosts record about them. -/
structure Content where
  inner : List UInt8
  plain : List UInt8
  rest : List UInt8

def Obj.content (o : Obj T) : Content := ⟨o.region.inner, o.ghost.plain, o.ghost.rest⟩

def Obj.withContent (o : Obj T) (c : Content) : Obj T :=
  { o with
    region := { o.region with inner := c.inner }
    ghost := { o.ghost with plain := c.plain, rest := c.rest } }

@[simp] lemma withContent_content (o : Obj T) : o.withContent o.content = o := rfl

@[simp] lemma content_withContent (o : Obj T) (c : Content) : (o.withContent c).content = c := rfl

@[simp] lemma withContent_withContent (o : Obj T) (c c' : Content) :
    (o.withContent c).withContent c' = o.withContent c' := rfl

namespace Content

/-- `bs` written at `lo`; writing nothing leaves everything as it was. -/
def write (c : Content) (lo : ℕ) (bs : List UInt8) : Content :=
  if bs = [] then c
  else ⟨writeAt c.inner lo bs, writeAt c.plain lo bs, writeAt c.inner lo bs⟩

/-- Several writes, in order. -/
def writeAll (c : Content) (ws : List (ℕ × List UInt8)) : Content :=
  ws.foldl (fun c x => c.write x.1 x.2) c

end Content

lemma length_writeAt {inner bs : List UInt8} {lo : ℕ} (h : lo + bs.length ≤ inner.length) :
    (writeAt inner lo bs).length = inner.length := by
  simp only [writeAt, List.length_append, List.length_take, List.length_drop]
  omega

lemma Content.length_write {c : Content} {lo : ℕ}
    (h : lo + bs.length ≤ c.inner.length) : (c.write lo bs).inner.length = c.inner.length := by
  unfold Content.write
  split
  · rfl
  · exact length_writeAt h

/-! ## Open and closed -/

/-- The object while one use, by thread `t`, has it open. -/
def Obj.opened (t : T) (o : Obj T) : Obj T :=
  if o.state.closedAtRest = true then
    { o.setProt (openProtection o.state) with
      openers := 1
      ghost := { o.ghost with opens := t :: o.ghost.opens } }
  else o

/-- The count after the use. -/
def Obj.uncounted [DecidableEq T] (t : T) (o : Obj T) : Obj T :=
  { o with openers := 0, ghost := { o.ghost with opens := o.ghost.opens.erase t } }

/-- The object once the use is over. -/
def Obj.closed [DecidableEq T] (t : T) (o : Obj T) : Obj T :=
  if o.state.closedAtRest = true then (o.uncounted t).setProt .none else o

/-- The protection at rest of a closed-at-rest buffer, after a use. -/
def Obj.rested (o : Obj T) : Obj T :=
  if o.state.closedAtRest = true then o.setProt .none else o

@[simp] lemma content_opened (t : T) (o : Obj T) : (o.opened t).content = o.content := by
  unfold Obj.opened
  split <;> rfl

variable [DecidableEq T]

/-- A buffer that `t` has locked and checked: live, not wiped and not sealed. -/
structure Usable (t : T) (o : Obj T) : Prop where
  held : holds o.mu t = true
  openMu : o.openMu = none
  openers : o.openers = 0
  wiped : o.wiped = false
  mapped : o.region.mapped = true
  readable : o.state.closedAtRest = false → o.region.prot.readable = true
  writable : o.state.closedAtRest = false → o.state.readOnly = false →
    o.region.prot.writable = true

namespace Usable

variable {t : T} {o : Obj T}

lemma closed_opened (h : Usable t o) (c : Content) :
    ((o.opened t).withContent c).closed t = (o.withContent c).rested := by
  have hn := h.openers
  rcases o with ⟨kind, mu, wiped, sealCipher, state, openMu, openers, region, ghost⟩
  simp only at hn
  subst hn
  cases hc : state.closedAtRest <;>
    simp [Obj.closed, Obj.uncounted, Obj.opened, Obj.rested, Obj.withContent, Obj.setProt, hc]

lemma opened_readable (h : Usable t o) :
    (o.opened t).region.mapped = true ∧ (o.opened t).region.prot.readable = true := by
  unfold Obj.opened
  split
  next => exact ⟨h.mapped, by simp only [Obj.setProt, openProtection]; split <;> rfl⟩
  next hc => exact ⟨h.mapped, h.readable (by simpa using hc)⟩

lemma opened_writable (h : Usable t o) (hro : o.state.readOnly = false) :
    (o.opened t).region.mapped = true ∧ (o.opened t).region.prot.writable = true := by
  unfold Obj.opened
  split
  next => exact ⟨h.mapped, by simp [Obj.setProt, openProtection, hro, Prot.writable]⟩
  next hc => exact ⟨h.mapped, h.writable (by simpa using hc) hro⟩

end Usable

/-- What a use of the region that changes its contents to `c` can come to: whether it took
place, the error of opening or closing the region, and the object afterwards. -/
inductive Used (faulty : Bool) (o : Obj T) (c : Content) : Bool → Option GoErr → Obj T → Prop
  | done (hlen : c.inner.length = o.region.inner.length) :
      Used faulty o c true none (o.withContent c).rested
  | notOpened (e : GoErr) (p : Prot) (hf : faulty = true) (hc : o.state.closedAtRest = true) :
      Used faulty o c false (some e) (o.setProt p)
  | notClosed (e : GoErr) (p : Prot) (hf : faulty = true) (hc : o.state.closedAtRest = true)
      (hlen : c.inner.length = o.region.inner.length) :
      Used faulty o c true (some e) ((o.withContent c).setProt p)

section Rules

variable {P : Platform} {t : T} {faulty : Bool} {crash : Prop} {w : World T} {b : ℕ} {o : Obj T}
  {ws : List (ℕ × UInt8)}

lemma ens_openBuffer (h : Usable t o) {Q : Option GoErr → World T → Prop}
    (hok : Q none (w.setObj b (o.opened t)))
    (hbad : faulty = true → o.state.closedAtRest = true →
      ∀ e p, Q (some e) (w.setObj b (o.setProt p))) :
    Ens P t faulty crash (openBuffer b) Q (w.setObj b o) := by
  obtain ⟨-, hmu, hn, hwiped, -, -, -⟩ := h
  rcases o with ⟨kind, mu, wiped, sealCipher, state, openMu, openers, region, ghost⟩
  simp only at hmu hn hwiped
  subst hmu hn hwiped
  cases hc : state.closedAtRest with
  | false => simpa [openBuffer, Obj.opened, hc] using hok
  | true =>
    simp only [Obj.opened, hc, if_true, Obj.setProt] at hok
    simp only [hc, Obj.setProt, true_implies] at hbad
    simp only [openBuffer, openFirst, ens_bind, ens_load, obj_setObj, hc,
      Bool.true_eq_false, if_false, ens_openMuLock, setObj_setObj, ens_readOpeners, ne_eq,
      not_true_eq_false, ens_mprotect, true_or]
    refine ⟨?_, fun hf n => ?_⟩
    · simp only [ens_bind, ens_relock, ens_pure, ens_readOpeners, ens_writeOpeners, ens_opens,
        ens_openMuUnlock, obj_setObj, setObj_setObj, ens_mprotect, Obj.setProt,
        true_or]
      exact ⟨hok, fun hf n => ⟨hbad hf _ _, fun _ _ => hbad hf _ _⟩⟩
    · simpa only [ens_bind, ens_pure, ens_opens, ens_openMuUnlock, obj_setObj,
        setObj_setObj] using hbad hf _ region.prot

lemma ens_closeBuffer {Q : Option GoErr → World T → Prop} (hwiped : o.wiped = false)
    (hmu : o.openMu = none) (hn : o.state.closedAtRest = true → o.openers = 1)
    (hok : Q none (w.setObj b (o.closed t)))
    (hbad : faulty = true → o.state.closedAtRest = true →
      ∀ e, Q (some e) (w.setObj b (o.uncounted t))) :
    Ens P t faulty crash (closeBuffer b) Q (w.setObj b o) := by
  rcases o with ⟨kind, mu, wiped, sealCipher, state, openMu, openers, region, ghost⟩
  simp only at hmu hn hwiped
  subst hmu hwiped
  cases hc : state.closedAtRest with
  | false => simpa [closeBuffer, Obj.closed, hc] using hok
  | true =>
    obtain rfl := hn hc
    simp only [Obj.closed, hc, if_true, Obj.setProt, Obj.uncounted] at hok
    simp only [hc, true_implies, Obj.uncounted] at hbad
    simp only [closeBuffer, closeLast, ens_bind, ens_load, obj_setObj, hc,
      Bool.true_eq_false, if_false, ens_openMuLock, setObj_setObj, ens_readOpeners,
      ens_writeOpeners, sub_self, lt_self_iff_false, ens_mprotect, true_or, ens_pure,
      ens_closes, Int.not_lt.mpr Int.one_nonneg, ens_openMuUnlock, Option.map_none,
      Option.map_some, Obj.setProt]
    exact ⟨hok, fun hf n => hbad hf _⟩

section Using

variable {α : Type} {zero r : α} {body : ProcProg α} {c : Content}
  {Q : α × Option GoErr → World T → Prop} (h : Usable t o)
  (hbody : ∀ Q₁ : α → World T → Prop, (c.inner.length = o.region.inner.length →
      Q₁ r (w.setObj b ((o.opened t).withContent c))) →
    Ens P t faulty crash body Q₁ (w.setObj b (o.opened t)))
  (hQ : ∀ used err o', Used faulty o c used err o' →
    Q (if used = true then r else zero, err) (w.setObj b o'))

include h hbody hQ

/-- A use of the region between `open` and `close`. -/
lemma ens_whileOpen :
    Ens P t faulty crash (whileOpen b zero body) Q (w.setObj b o) := by
  simp only [whileOpen, ens_bind]
  refine ens_openBuffer h ?_ fun hf hc e p => hQ _ _ _ (.notOpened e p hf hc)
  simp only [ens_bind, ens_pure]
  refine hbody _ fun hlen => ens_closeBuffer ?_ ?_ ?_ ?_ ?_
  · unfold Obj.opened
    split <;> exact h.wiped
  · unfold Obj.opened
    split <;> exact h.openMu
  · intro hc
    unfold Obj.opened at hc ⊢
    split at hc
    next hc' => rw [if_pos hc']; rfl
    next hc' => exact absurd hc hc'
  · rw [h.closed_opened]
    exact hQ _ _ _ (.done hlen)
  · intro hf hc e
    have hc' : o.state.closedAtRest = true := by
      unfold Obj.opened at hc
      split at hc <;> exact hc
    have := hQ _ _ _ (.notClosed e (openProtection o.state) hf hc' hlen)
    have hn := h.openers
    rcases o with ⟨kind, mu, wiped, sealCipher, state, openMu, openers, region, ghost⟩
    simp only at hn hc'
    subst hn
    simp only [Obj.opened, hc', if_true, Obj.uncounted, Obj.withContent, List.erase_cons_head]
    exact this

lemma ens_onceOpen :
    Ens P t faulty crash (onceOpen b o.state zero body) Q (w.setObj b o) := by
  unfold onceOpen
  cases hc : o.state.closedAtRest with
  | true => exact ens_whileOpen h hbody hQ
  | false =>
    simp only [Bool.false_eq_true, if_false, ens_bind, ens_pure]
    simp only [Obj.opened, hc, Bool.false_eq_true, if_false] at hbody
    have hrest : (o.withContent c).rested = o.withContent c := by
      simp [Obj.rested, Obj.withContent, hc]
    refine hbody _ fun hlen => ?_
    have hok := hQ _ _ _ (.done hlen)
    rwa [hrest] at hok

end Using

/-! ## Reading and writing -/

/-- A copy out of the region, as the body of a use. -/
lemma ens_readBody (h : Usable t o) (lo n : ℕ) {Q : List UInt8 → World T → Prop}
    (hQ : Q ((o.region.inner.drop lo).take n) (w.setObj b ((o.opened t).withContent o.content))) :
    Ens (α := List UInt8) P t faulty crash (upon b (.read lo n)) Q (w.setObj b (o.opened t)) := by
  have hin : (o.opened t).region.inner = o.region.inner :=
    congrArg Content.inner (content_opened t o)
  rw [ens_read (by simpa only [obj_setObj] using h.opened_readable), obj_setObj, hin]
  rwa [← content_opened, withContent_content] at hQ

/-- A write: if it cannot be made, a fault must be allowed. -/
lemma ens_writes {lo : ℕ} {Q : Unit → World T → Prop}
    (h : bs ≠ [] → crash ∨ (lo + bs.length ≤ o.region.inner.length ∧
      o.region.mapped = true ∧ o.region.prot.writable = true))
    (hQ : (bs ≠ [] → lo + bs.length ≤ o.region.inner.length) →
      Q () (w.setObj b (o.withContent (o.content.write lo bs)))) :
    Ens (α := Unit) P t faulty crash (upon b (.write lo bs)) Q (w.setObj b o) := by
  rw [ens_act]
  intro c _
  simp only [exec, execObj, obj_setObj]
  split
  next hbs =>
    have := hQ fun hne => absurd hbs hne
    simpa [Content.write, hbs] using this
  next hbs =>
    split
    next hout =>
      rcases h hbs with hcrash | ⟨hin, -⟩
      · exact hcrash
      · omega
    next hout =>
      unfold Obj.guarded
      split
      next hrw =>
        have := hQ fun _ => by omega
        simp only [Content.write, hbs, if_false] at this
        simp only [Outcome.within_done, setObj_setObj, Outcome.post_done]
        exact this
      next hrw =>
        rcases h hbs with hcrash | ⟨-, hrw'⟩
        · exact hcrash
        · exact absurd hrw' hrw

/-- A copy into the region, as the body of a use. -/
lemma ens_writeBody (h : Usable t o) (hro : o.state.readOnly = false) {lo : ℕ}
    (hin : lo + bs.length ≤ o.region.inner.length) {Q : Unit → World T → Prop}
    (hQ : (o.content.write lo bs).inner.length = o.region.inner.length →
      Q () (w.setObj b ((o.opened t).withContent (o.content.write lo bs)))) :
    Ens (α := Unit) P t faulty crash (upon b (.write lo bs)) Q (w.setObj b (o.opened t)) := by
  have hinner : (o.opened t).region.inner = o.region.inner :=
    congrArg Content.inner (content_opened t o)
  refine ens_writes (fun _ => Or.inr ⟨hinner.symm ▸ hin, h.opened_writable hro⟩) fun _ => ?_
  rw [content_opened]
  exact hQ (Content.length_write hin)

/-! ## Callbacks -/

/-- A callback's writes can be made, or a fault is allowed. -/
def CanWrite (crash : Prop) (o : Obj T) (ws : List (ℕ × UInt8)) : Prop :=
  ∀ x ∈ ws, crash ∨ (x.1 < o.region.inner.length ∧
    o.region.mapped = true ∧ o.region.prot.writable = true)

omit [DecidableEq T] in
/-- A write inside the region changes nothing that decides whether the next can be made. -/
lemma CanWrite.tail {k : ℕ} {v : UInt8} (hk : k < o.region.inner.length)
    (h : CanWrite crash o ws) :
    CanWrite crash (o.withContent (o.content.write k [v])) ws := by
  intro x hx
  refine (h x hx).imp_right fun hin => ⟨?_, hin.2⟩
  have hlen : (o.content.write k [v]).inner.length = o.region.inner.length :=
    Content.length_write hk
  exact hlen.symm ▸ hin.1

lemma ens_strayWrites {Q : Unit → World T → Prop}
    (h : CanWrite crash o ws)
    (hQ : (o.content.writeAll (ws.map fun x => (x.1, [x.2]))).inner.length =
        o.region.inner.length →
      Q () (w.setObj b (o.withContent (o.content.writeAll (ws.map fun x => (x.1, [x.2])))))) :
    Ens P t faulty crash (strayWrites b ws) Q (w.setObj b o) := by
  induction ws generalizing o with
  | nil => exact hQ rfl
  | cons x ws ih =>
    refine ens_writes (fun _ => ?_) fun hin => ?_
    · exact (h x List.mem_cons_self).imp_right fun hx => ⟨hx.1, hx.2⟩
    · have hk : x.1 < o.region.inner.length := hin (List.cons_ne_nil _ _)
      have hlen : (o.content.write x.1 [x.2]).inner.length = o.region.inner.length :=
        Content.length_write hk
      exact ih (CanWrite.tail hk fun y hy => h y (List.mem_cons_of_mem _ hy))
        fun hl => hQ (hl.trans hlen)

lemma ens_sliceWrites {lo n : ℕ} {Q : Bool → World T → Prop}
    (h : CanWrite crash o ((ws.filter fun x => x.1 < n).map fun x => (lo + x.1, x.2)))
    (hQ : (o.content.writeAll
        ((ws.takeWhile fun x => x.1 < n).map fun x => (lo + x.1, [x.2]))).inner.length =
          o.region.inner.length →
      Q (ws.all fun x => x.1 < n) (w.setObj b (o.withContent (o.content.writeAll
        ((ws.takeWhile fun x => x.1 < n).map fun x => (lo + x.1, [x.2])))))) :
    Ens P t faulty crash (sliceWrites b lo n ws) Q (w.setObj b o) := by
  induction ws generalizing o with
  | nil => exact hQ rfl
  | cons x ws ih =>
    simp only [sliceWrites]
    by_cases hx : x.1 < n
    · simp only [hx, if_true, ens_bind]
      simp only [List.filter_cons, hx, decide_true, if_true, List.map_cons] at h
      refine ens_writes (fun _ => ?_) fun hin => ?_
      · exact (h _ List.mem_cons_self).imp_right fun hx => ⟨hx.1, hx.2⟩
      · have hk : lo + x.1 < o.region.inner.length := hin (List.cons_ne_nil _ _)
        have hlen : (o.content.write (lo + x.1) [x.2]).inner.length = o.region.inner.length :=
          Content.length_write hk
        refine ih (CanWrite.tail hk fun y hy => h y (List.mem_cons_of_mem _ hy)) fun hl => ?_
        simp only [List.takeWhile_cons, hx, decide_true, if_true, List.map_cons, List.all_cons,
          Bool.true_and] at hQ
        exact hQ (hl.trans hlen)
    · simp only [hx, if_false, ens_pure]
      simp only [List.takeWhile_cons, hx, decide_false, Bool.false_eq_true, if_false,
        List.map_nil, List.all_cons, Bool.false_and] at hQ
      exact hQ rfl

/-- A callback on the slice of `n` bytes at `lo`. -/
lemma ens_runCallback {lo n : ℕ} {fn : Callback} {Q : List UInt8 × CallbackEnd → World T → Prop}
    (hr : o.region.mapped = true ∧ o.region.prot.readable = true)
    (hw : let e := fn ((o.region.inner.drop lo).take n)
      CanWrite crash o (e.strays ++ (e.writes.filter fun x => x.1 < n).map
        fun x => (lo + x.1, x.2)))
    (hQ : let seen := (o.region.inner.drop lo).take n
      let c := o.content.writeAll ((fn seen).strays.map (fun x => (x.1, [x.2])) ++
        ((fn seen).inside n).map fun x => (lo + x.1, x.2))
      c.inner.length = o.region.inner.length →
      Q (seen, (fn seen).end n) (w.setObj b (o.withContent c))) :
    Ens P t faulty crash (runCallback b lo n fn) Q (w.setObj b o) := by
  simp only [runCallback, ens_bind]
  rw [ens_read (by simpa only [obj_setObj] using hr), obj_setObj]
  simp only at hw hQ
  refine ens_strayWrites (fun x hx => hw x (List.mem_append_left _ hx)) fun hstray => ?_
  refine ens_sliceWrites ?_ fun hslice => ?_
  · intro x hx
    refine (hw x (List.mem_append_right _ hx)).imp_right fun hin => ⟨?_, hin.2⟩
    exact hstray.symm ▸ hin.1
  · simp only [ens_pure]
    have hinside : ∀ e : Effect, (e.inside n).map (fun x => (lo + x.1, x.2)) =
        (e.writes.takeWhile fun x => x.1 < n).map fun x => (lo + x.1, [x.2]) := by
      intro e
      simp only [Effect.inside, List.map_map]
      rfl
    simp only [hinside] at hQ
    unfold Content.writeAll at hQ hstray hslice ⊢
    rw [List.foldl_append] at hQ
    exact hQ (hslice.trans hstray)

end Rules

end Secmem.Process
