import Secmem.Process.Methods

/-!
# Comparing two secrets

`Secret.ConstantTimeEqual` (`secret.go`) and `X25519Key.ConstantTimeEqual`
(`secmem-crypto/x25519.go`).  Two different buffers are borrowed one inside the other, in the
order of their janitor keys.  If both operands have the same buffer there is nothing to compare,
and what is left to decide is whether it can be read: a `Secret` borrows it, an `X25519Key` asks
whether it is destroyed or sealed.

Run alone, both answer that the operands are equal just when both buffers can be read and hold
the same bytes, whichever operand comes first.  The exception is an `X25519Key` compared with
one that has the same buffer after `WipeAllSecrets`: a wiped buffer is neither destroyed nor
sealed, so the keys are found equal though nothing can be read.
-/

namespace Secmem.Process

open World

/-! ## The methods -/

/-- A `Secret` is its buffer, which the zero value lacks. -/
structure Secret where
  buf : Option ℕ
  deriving DecidableEq, Repr

structure X25519Key where
  scalarBuf : Option ℕ
  deriving DecidableEq, Repr

/-- The buffer of a pointer to a key, unless one of the two is nil. -/
def X25519Key.scalar (k : Option X25519Key) : Option ℕ := k.bind X25519Key.scalarBuf

/-- `WithBytesErr` with a callback that runs code of its own, given the length of its slice.
The first component is what it leaves in the variable it captures, which is `zero` before. -/
def lending {α : Type} (b : ℕ) (zero : α) (fn : ℕ → ProcProg (α × Option GoErr)) :
    ProcProg (α × Option GoErr) :=
  rLocked b <| checked (gate noData b) (fun e => (zero, some e)) fun s => do
    let r ← onceOpen b s (zero, none) (fn s.len)
    pure (r.1.1, r.1.2.or r.2)

/-- `subtle.ConstantTimeCompare` on the first `n` bytes of `x` and the first `m` of `y`. -/
def constantTimeCompare (x n y m : ℕ) : ProcProg Bool :=
  if n ≠ m then pure false else do
  let a : List UInt8 ← upon x (.read 0 n)
  let b : List UInt8 ← upon y (.read 0 m)
  pure (decide (a = b))

/-- The two borrows, one inside the other, around a comparison of the slices. -/
def compareNested (compare : ℕ → ℕ → ℕ → ℕ → ProcProg Bool) (first second : ℕ) :
    ProcProg Bool := do
  let r ← lending first false fun n => lending second false fun m => do
    let equal ← compare first n second m
    pure (equal, none)
  pure (r.2.isNone && r.1)

/-- The borrows in ascending order of the janitor key, which `LockOrder` returns too. -/
def compareOrdered (compare : ℕ → ℕ → ℕ → ℕ → ProcProg Bool) (x y : ℕ) : ProcProg Bool := do
  let first : BufferState ← upon x .load
  let second : BufferState ← upon y .load
  if first.janitorKey > second.janitorKey then compareNested compare y x
  else compareNested compare x y

/-- The callback `func([]byte) {}`. -/
def noCallback : Callback := fun _ => ⟨[], [], .returns none⟩

/-- Whether a borrow returned nil. -/
def Reply.isNil : Reply → Bool
  | .borrowed _ (.returns none) => true
  | _ => false

/-- The answer of a query. -/
def Reply.isTrue : Reply → Bool
  | .flag v => v
  | _ => false

namespace Secret

/-- The comparison of the slices checks their lengths first. -/
def compare (x n y m : ℕ) : ProcProg Bool :=
  if n = m then constantTimeCompare x n y m else pure false

def constantTimeEqual (s other : Secret) : ProcProg Bool :=
  match s.buf, other.buf with
  | some x, some y =>
    if x = y then do
      let r ← withBytes x (some noCallback)
      pure r.isNil
    else compareOrdered compare x y
  | _, _ => pure false

end Secret

namespace X25519Key

/-- `!IsDestroyed() && !IsSealed()`. -/
def inUse (b : ℕ) : ProcProg Bool := do
  let destroyed ← isDestroyed b
  if destroyed.isTrue = true then pure false else do
  let sealed ← isSealed b
  pure (!sealed.isTrue)

def constantTimeEqual (k other : Option X25519Key) : ProcProg Bool :=
  match scalar k, scalar other with
  | some x, some y => if x = y then inUse x else compareOrdered constantTimeCompare x y
  | _, _ => pure false

end X25519Key

/-! ## What the answer should be -/

section Answer

variable {T : Type}

/-- The bytes of a buffer that can be read. -/
def Abs.contents (a : Abs) : Option (List UInt8) :=
  if a.refusal = none then some a.bytes else none

/-- The bytes behind an operand. -/
def World.contents (w : World T) (x : Option ℕ) : Option (List UInt8) :=
  x.bind fun b => (w.obj b).view.contents

/-- Both operands can be read, and they hold the same bytes. -/
def World.Matching (w : World T) (x y : Option ℕ) : Prop :=
  ∃ bs, w.contents x = some bs ∧ w.contents y = some bs

lemma World.matching_comm {w : World T} {x y : Option ℕ} :
    w.Matching x y ↔ w.Matching y x := by
  unfold World.Matching
  simp only [and_comm]

/-- The answer `v` to the question `p`: right, or a refusal on a platform that may fail. -/
def Answers (faulty : Bool) (p : Prop) (v : Bool) : Prop :=
  (v = true → p) ∧ (faulty = false → p → v = true)

namespace Answers

variable {faulty : Bool} {p : Prop}

lemma of_iff {v : Bool} (h : v = true ↔ p) : Answers faulty p v := ⟨h.mp, fun _ => h.mpr⟩

lemma refused (h : faulty = true ∨ ¬p) : Answers faulty p false := by
  refine ⟨fun hv => absurd hv Bool.false_ne_true, fun hf hp => ?_⟩
  rcases h with h | h
  · exact absurd (hf.symm.trans h) Bool.false_ne_true
  · exact absurd hp h

end Answers

lemma World.matching_some {w : World T} {x y : ℕ} :
    w.Matching (some x) (some y) ↔ (w.obj x).view.refusal = none ∧
      (w.obj y).view.refusal = none ∧ (w.obj x).view.bytes = (w.obj y).view.bytes := by
  unfold World.Matching World.contents Abs.contents
  constructor
  · rintro ⟨bs, hx, hy⟩
    simp only [Option.bind_some, Option.ite_none_right_eq_some, Option.some.injEq] at hx hy
    exact ⟨hx.1, hy.1, hx.2.trans hy.2.symm⟩
  · rintro ⟨hx, hy, heq⟩
    exact ⟨(w.obj x).view.bytes, by simp [hx], by simp [hy, heq]⟩

lemma World.not_matching_of_refusal {w : World T} {b : ℕ} {e : Sentinel} {y : Option ℕ}
    (h : (w.obj b).view.refusal = some e) : ¬w.Matching (some b) y := by
  rintro ⟨bs, hbs, -⟩
  simp [World.contents, Abs.contents, h] at hbs

/-- An operand at rest. -/
def World.AtRest (w : World T) (x : Option ℕ) : Prop := ∀ b ∈ x, Ready (w.obj b)

end Answer

/-! ## Borrows one inside the other -/

section Rules

variable {T : Type} [DecidableEq T] {P : Platform} {t : T} {faulty : Bool} {crash : Prop}
  {w : World T} {b x y : ℕ}

/-- A buffer while a borrow by `t` alone has it. -/
def Obj.lent (t : T) (o : Obj T) : Obj T := { o with mu := sharedBy t }.opened t

omit [DecidableEq T] in
lemma inner_lent (o : Obj T) : (o.lent t).region.inner = o.region.inner :=
  congrArg Content.inner (content_opened t { o with mu := sharedBy t })

/-- A use of the region in the course of which other buffers may change. -/
lemma ens_around {α : Type} {o : Obj T} {zero : α} {body : ProcProg α}
    {Q : α × Option GoErr → World T → Prop} (h : Usable t o)
    (hshut : faulty = true → ∀ e p, Q (zero, some e) (w.setObj b (o.setProt p)))
    (hbody : Ens P t faulty crash body (fun r w' => w'.obj b = o.opened t ∧
        ∀ err, (faulty = true ∨ err = none) → ∀ o', Q (r, err) (w'.setObj b o'))
      (w.setObj b (o.opened t))) :
    Ens P t faulty crash (onceOpen b o.state zero body) Q (w.setObj b o) := by
  unfold onceOpen
  cases hc : o.state.closedAtRest with
  | false =>
    have hopened : o.opened t = o := by simp [Obj.opened, hc]
    simp only [Bool.false_eq_true, if_false, ens_bind, ens_pure]
    rw [hopened] at hbody
    refine hbody.mono fun r w' hr => ?_
    have := hr.2 none (Or.inr rfl) (w'.obj b)
    rwa [setObj_obj] at this
  | true =>
    have hopened : o.opened t = { o.setProt (openProtection o.state) with
        openers := 1, ghost := { o.ghost with opens := t :: o.ghost.opens } } := by
      simp [Obj.opened, hc]
    simp only [if_true, whileOpen, ens_bind]
    refine ens_openBuffer h ?_ fun hf _ e p => hshut hf e p
    simp only [ens_bind, ens_pure]
    refine hbody.mono fun r w' hr => ?_
    rw [← setObj_obj w' b, hr.1]
    refine ens_closeBuffer ?_ ?_ ?_ (hr.2 _ (Or.inr rfl) _) fun hf _ e => hr.2 _ (Or.inl hf) _
    · rw [hopened]
      exact h.wiped
    · rw [hopened]
      exact h.openMu
    · rw [hopened]
      exact fun _ => rfl

/-- A borrow whose callback runs code of its own, with a postcondition about everything but the
borrowed buffer. -/
lemma ens_lending {α : Type} {zero : α} {fn : ℕ → ProcProg (α × Option GoErr)}
    {Q : α × Option GoErr → World T → Prop} (h : Ready (w.obj b))
    (hframe : ∀ r w' o', Q r w' → Q r (w'.setObj b o'))
    (hrefused : ∀ e, faulty = true ∨ (w.obj b).view.refusal ≠ none → Q (zero, some e) w)
    (hlate : faulty = true → ∀ r e w', Q r w' → Q (r.1, r.2.or (some e)) w')
    (hbody : (w.obj b).view.refusal = none →
      Ens P t faulty crash (fn (w.obj b).state.len)
        (fun r w' => w'.obj b = (w.obj b).lent t ∧ Q r w') (w.setObj b ((w.obj b).lent t))) :
    Ens P t faulty crash (lending b zero fn) Q w := by
  unfold lending
  rw [ens_rLocked h.mu]
  refine ens_checked (ens_gate rfl) ?_ fun hr => ?_
  · intro e he
    have hne : (w.obj b).view.refusal ≠ none := by
      rw [show (w.obj b).view.refusal = some e from he]
      exact Option.some_ne_none e
    rw [setObj_setObj]
    exact hframe _ _ _ (hrefused _ (Or.inr hne))
  · simp only [ens_bind, ens_pure]
    refine ens_around (h.usable hr (holds_sharedBy t)) ?_ ((hbody hr).mono fun r w' hQ => ?_)
    · intro hf e p
      rw [setObj_setObj]
      exact hframe _ _ _ (hrefused e (Or.inl hf))
    · refine ⟨hQ.1, fun err herr o' => ?_⟩
      simp only [setObj_setObj]
      refine hframe _ _ _ ?_
      cases err with
      | none => simpa using hQ.2
      | some e => exact hlate (herr.resolve_right (Option.some_ne_none e)) r e w' hQ.2

/-- The bytes of a lent buffer can be read. -/
lemma ens_readLent {o : Obj T} (h : Ready o) (hr : o.view.refusal = none)
    (hw : w.obj b = o.lent t) {Q : List UInt8 → World T → Prop} (hQ : Q o.view.bytes w) :
    Ens (α := List UInt8) P t faulty crash (upon b (.read 0 o.state.len)) Q w := by
  have hopen := (h.usable hr (holds_sharedBy t)).opened_readable
  rw [ens_read (by rw [hw]; exact hopen), hw, inner_lent, List.drop_zero, h.inner_eq hr]
  exact hQ

lemma ens_constantTimeCompare {o o' : Obj T} (h : Ready o) (h' : Ready o')
    (hr : o.view.refusal = none) (hr' : o'.view.refusal = none)
    (hx : w.obj x = o.lent t) (hy : w.obj y = o'.lent t) {Q : Bool → World T → Prop}
    (hQ : Q (decide (o.view.bytes = o'.view.bytes)) w) :
    Ens P t faulty crash (constantTimeCompare x o.state.len y o'.state.len) Q w := by
  unfold constantTimeCompare
  by_cases hlen : o.state.len = o'.state.len
  · rw [if_neg (not_not.mpr hlen)]
    exact ens_readLent h hr hx (ens_readLent h' hr' hy hQ)
  · have hne : o.view.bytes ≠ o'.view.bytes := by
      intro heq
      apply hlen
      rw [← h.length_bytes, ← h'.length_bytes, heq]
    rw [if_pos hlen, ens_pure]
    rwa [decide_eq_false hne] at hQ

/-- What both comparisons of two slices do. -/
def Compares (P : Platform) (t : T) (faulty : Bool) (crash : Prop)
    (compare : ℕ → ℕ → ℕ → ℕ → ProcProg Bool) : Prop :=
  ∀ (w : World T) (x y : ℕ) (o o' : Obj T), Ready o → Ready o' →
    o.view.refusal = none → o'.view.refusal = none →
    w.obj x = o.lent t → w.obj y = o'.lent t → ∀ Q : Bool → World T → Prop,
    Q (decide (o.view.bytes = o'.view.bytes)) w →
    Ens P t faulty crash (compare x o.state.len y o'.state.len) Q w

lemma compares_constantTimeCompare : Compares P t faulty crash constantTimeCompare :=
  fun _ _ _ _ _ h h' hr hr' hx hy _ hQ => ens_constantTimeCompare h h' hr hr' hx hy hQ

lemma Secret.compares_compare : Compares P t faulty crash Secret.compare := by
  intro w x y o o' h h' hr hr' hx hy Q hQ
  unfold Secret.compare
  split
  next => exact ens_constantTimeCompare h h' hr hr' hx hy hQ
  next hlen =>
    have hcompare : Ens P t faulty crash (constantTimeCompare x o.state.len y o'.state.len) Q w :=
      ens_constantTimeCompare h h' hr hr' hx hy hQ
    rwa [constantTimeCompare, if_pos hlen] at hcompare

/-- Two different buffers borrowed one inside the other. -/
lemma ens_compareNested {compare : ℕ → ℕ → ℕ → ℕ → ProcProg Bool}
    (hc : Compares P t faulty crash compare) (hx : Ready (w.obj x)) (hy : Ready (w.obj y))
    (hne : x ≠ y) :
    Ens P t faulty crash (compareNested compare x y)
      (fun v _ => Answers faulty (w.Matching (some x) (some y)) v) w := by
  have hlate : faulty = true → ∀ (r : Bool × Option GoErr) (e : GoErr),
      Answers faulty (w.Matching (some x) (some y)) ((r.2.or (some e)).isNone && r.1) := by
    intro hf r e
    have hsome : (r.2.or (some e)).isNone = false := by cases r.2 <;> rfl
    rw [hsome, Bool.false_and]
    exact .refused (Or.inl hf)
  have hobj : (w.setObj x ((w.obj x).lent t)).obj y = w.obj y :=
    obj_setObj_of_ne _ _ hne.symm
  simp only [compareNested, ens_bind, ens_pure]
  refine ens_lending hx (fun _ _ _ hQ => hQ) ?_ (fun hf r e _ _ => hlate hf r e) fun hrx => ?_
  · rintro e (hf | hr)
    · exact .refused (Or.inl hf)
    · obtain ⟨s, hs⟩ := Option.ne_none_iff_exists'.mp hr
      exact .refused (Or.inr (not_matching_of_refusal hs))
  rw [← hobj] at hy
  refine ens_lending hy ?_ ?_ ?_ fun hry => ?_
  · intro r w' o' hQ
    exact ⟨(obj_setObj_of_ne _ _ hne).trans hQ.1, hQ.2⟩
  · rintro e (hf | hr)
    · exact ⟨obj_setObj _ _ _, .refused (Or.inl hf)⟩
    · rw [hobj] at hr
      obtain ⟨s, hs⟩ := Option.ne_none_iff_exists'.mp hr
      refine ⟨obj_setObj _ _ _, .refused (Or.inr ?_)⟩
      rw [matching_comm]
      exact not_matching_of_refusal hs
  · intro hf r e w' hQ
    exact ⟨hQ.1, hlate hf r e⟩
  · rw [hobj] at hy hry ⊢
    simp only [ens_bind, ens_pure]
    refine hc _ x y _ _ hx hy hrx hry ?_ (obj_setObj _ _ _) _ ⟨obj_setObj _ _ _, ?_⟩
    · rw [obj_setObj_of_ne _ _ hne, obj_setObj]
    · refine ⟨?_, .of_iff ?_⟩
      · rw [obj_setObj_of_ne _ _ hne, obj_setObj]
      · simp [matching_some, hrx, hry]

/-- The order in which the buffers are borrowed does not matter to the answer. -/
lemma ens_compareOrdered {compare : ℕ → ℕ → ℕ → ℕ → ProcProg Bool}
    (hc : Compares P t faulty crash compare) (hx : Ready (w.obj x)) (hy : Ready (w.obj y))
    (hne : x ≠ y) :
    Ens P t faulty crash (compareOrdered compare x y)
      (fun v _ => Answers faulty (w.Matching (some x) (some y)) v) w := by
  simp only [compareOrdered, ens_bind, ens_load]
  split
  next =>
    rw [matching_comm]
    exact ens_compareNested hc hy hx hne.symm
  next => exact ens_compareNested hc hx hy hne

/-! ## One buffer behind both operands -/

/-- A borrow that does nothing succeeds if the buffer can be read. -/
lemma ens_withBytes_isNil (h : Ready (w.obj b)) :
    Ens P t faulty crash (withBytes b (some noCallback))
      (fun r _ => Answers faulty (w.Matching (some b) (some b)) r.isNil) w := by
  rw [← setObj_obj w b]
  refine does_accessMethod (m := .withBytes (some noCallback)) h rfl
    (fun _ => Or.inr (by simp [Abs.keepsContract, noCallback])) fun r o' hstep => ?_
  rw [setObj_obj, matching_some]
  unfold AccessStep at hstep
  cases hr : (w.obj b).view.refusal with
  | some e =>
    simp only [Abs.answer, hr, Option.map_some] at hstep
    rw [hstep.1]
    exact .refused (Or.inr fun hm => absurd hm.1 (Option.some_ne_none e))
  | none =>
    simp only [Abs.answer, hr, Option.map_none] at hstep
    obtain ⟨-, used, err, hu, rfl⟩ := hstep
    cases hu with
    | done => exact .of_iff (by simp [Abs.reply, noCallback, Effect.end, CallbackEnd.withoutErr,
        CallbackEnd.orClose, Reply.isNil])
    | notOpened e p hf => exact .refused (Or.inl hf)
    | notClosed e p hf => exact .refused (Or.inl hf)

/-- The two queries find a buffer that is neither destroyed nor sealed. -/
lemma ens_inUse (h : Ready (w.obj b)) :
    Ens P t faulty crash (X25519Key.inUse b) (fun v _ =>
      v = (!(w.obj b).view.destroyed && !(w.obj b).view.sealed)) w := by
  rw [← setObj_obj w b]
  simp only [X25519Key.inUse, ens_bind]
  refine does_isDestroyed h fun r o' hstep => ?_
  obtain ⟨rfl, rfl⟩ := hstep
  rw [setObj_obj]
  cases hd : (w.obj b).view.destroyed with
  | true => simp [Reply.isTrue]
  | false =>
    simp only [Reply.isTrue, Bool.false_eq_true, if_false, ens_bind, ens_pure]
    rw [← setObj_obj w b]
    refine does_isSealed h fun r o' hstep => ?_
    obtain ⟨rfl, rfl⟩ := hstep
    rw [setObj_obj, Bool.not_false, Bool.true_and]

/-! ## The answers -/

lemma Secret.ens_constantTimeEqual (s other : Secret) (hs : w.AtRest s.buf)
    (ho : w.AtRest other.buf) :
    Ens P t faulty crash (s.constantTimeEqual other)
      (fun v _ => Answers faulty (w.Matching s.buf other.buf) v) w := by
  obtain ⟨x⟩ := s
  obtain ⟨y⟩ := other
  cases x with
  | none => exact .refused (Or.inr fun ⟨bs, hbs, _⟩ => absurd hbs (by simp [World.contents]))
  | some x =>
    cases y with
    | none => exact .refused (Or.inr fun ⟨bs, _, hbs⟩ => absurd hbs (by simp [World.contents]))
    | some y =>
      have hx := hs x rfl
      have hy := ho y rfl
      simp only [Secret.constantTimeEqual]
      split
      next heq =>
        subst heq
        simp only [ens_bind, ens_pure]
        exact ens_withBytes_isNil hx
      next hne => exact ens_compareOrdered Secret.compares_compare hx hy hne

/-- The buffer, if the two keys have the same one, is not one that has only been wiped. -/
def World.NotMerelyWiped (w : World T) (x y : Option ℕ) : Prop :=
  ∀ b ∈ x, b ∈ y → (w.obj b).wiped = true →
    (w.obj b).view.destroyed = true ∨ (w.obj b).view.sealed = true

lemma X25519Key.ens_constantTimeEqual (k other : Option X25519Key) (hk : w.AtRest (scalar k))
    (ho : w.AtRest (scalar other)) (hw : w.NotMerelyWiped (scalar k) (scalar other)) :
    Ens P t faulty crash (constantTimeEqual k other)
      (fun v _ => Answers faulty (w.Matching (scalar k) (scalar other)) v) w := by
  unfold X25519Key.constantTimeEqual
  generalize scalar k = x at hk hw ⊢
  generalize scalar other = y at ho hw ⊢
  cases x with
  | none => exact .refused (Or.inr fun ⟨bs, hbs, _⟩ => absurd hbs (by simp [World.contents]))
  | some x =>
    cases y with
    | none => exact .refused (Or.inr fun ⟨bs, _, hbs⟩ => absurd hbs (by simp [World.contents]))
    | some y =>
      have hx := hk x rfl
      have hy := ho y rfl
      dsimp only
      split
      next heq =>
        subst heq
        refine (ens_inUse hx).mono fun v w' hv => .of_iff ?_
        have hwiped : (w.obj x).view.wiped = true →
            (w.obj x).view.destroyed = true ∨ (w.obj x).view.sealed = true := hw x rfl rfl
        rw [hv, matching_some, refusal_eq_none]
        revert hwiped
        cases (w.obj x).view.destroyed <;> cases (w.obj x).view.sealed <;>
          cases (w.obj x).view.wiped <;> simp
      next hne => exact ens_compareOrdered compares_constantTimeCompare hx hy hne

/-- One buffer that has only been wiped is found equal to itself. -/
lemma X25519Key.notMerelyWiped_of_ens {k other : Option X25519Key} (hk : w.AtRest (scalar k))
    (hans : Ens P t faulty False (constantTimeEqual k other)
      (fun v _ => Answers faulty (w.Matching (scalar k) (scalar other)) v) w) :
    w.NotMerelyWiped (scalar k) (scalar other) := by
  intro b hb hb' hwiped
  rw [Option.mem_def] at hb hb'
  rw [X25519Key.constantTimeEqual, hb, hb'] at hans
  dsimp only at hans
  rw [if_pos rfl] at hans
  obtain ⟨v, _, hv, huse⟩ := hans.exists_common ⟨_, Obliging.easy faulty⟩ (ens_inUse (hk b hb))
  by_contra hlive
  rw [not_or, Bool.not_eq_true, Bool.not_eq_true] at hlive
  have hmatch := hv.1 (by rw [huse, hlive.1, hlive.2]; rfl)
  rw [matching_some, refusal_eq_none] at hmatch
  exact absurd (hmatch.1.2.1.symm.trans hwiped) Bool.false_ne_true

omit [DecidableEq T] in
lemma World.NotMerelyWiped.symm {x y : Option ℕ} (h : w.NotMerelyWiped x y) :
    w.NotMerelyWiped y x := fun b hy hx => h b hx hy

end Rules

/-- Two secrets are found equal just when both buffers can be read and hold the same bytes, and the
answer is the same with the operands swapped; a platform that may fail can also have them found
different.  For two keys it is so if and only if they do not have the same merely wiped buffer. -/
theorem constantTimeEqual_matching {T : Type} [DecidableEq T] (P : Platform) (t : T)
    (faulty : Bool) (w : World T) :
    (∀ s other : Secret, w.AtRest s.buf → w.AtRest other.buf →
      Ens P t faulty False (s.constantTimeEqual other)
        (fun v _ => Answers faulty (w.Matching s.buf other.buf) v) w ∧
      Ens P t faulty False (other.constantTimeEqual s)
        (fun v _ => Answers faulty (w.Matching s.buf other.buf) v) w) ∧
    ∀ k other : Option X25519Key,
      w.AtRest (X25519Key.scalar k) → w.AtRest (X25519Key.scalar other) →
      (Ens P t faulty False (X25519Key.constantTimeEqual k other)
        (fun v _ => Answers faulty
          (w.Matching (X25519Key.scalar k) (X25519Key.scalar other)) v) w ∧
      Ens P t faulty False (X25519Key.constantTimeEqual other k)
        (fun v _ => Answers faulty
          (w.Matching (X25519Key.scalar k) (X25519Key.scalar other)) v) w ↔
      w.NotMerelyWiped (X25519Key.scalar k) (X25519Key.scalar other)) := by
  refine ⟨fun s other hs ho => ⟨s.ens_constantTimeEqual other hs ho, ?_⟩, fun k other hk ho =>
    ⟨fun h => X25519Key.notMerelyWiped_of_ens hk h.1,
      fun hw => ⟨X25519Key.ens_constantTimeEqual k other hk ho hw, ?_⟩⟩⟩
  · rw [World.matching_comm]
    exact other.ens_constantTimeEqual s ho hs
  · rw [World.matching_comm]
    exact X25519Key.ens_constantTimeEqual other k ho hk hw.symm

/-- A live buffer of one byte. -/
def oneByte (v : UInt8) : Obj (Fin 1) :=
  { Obj.blank with
    state := { BufferState.zero with data := some 1, inner := true }
    region := ⟨[v], .readWrite, true⟩
    ghost := { (Obj.blank : Obj (Fin 1)).ghost with plain := [v] } }

lemma ready_oneByte (v : UInt8) : Ready (oneByte v) where
  mu := rfl
  openMu := rfl
  openers := rfl
  gone := rfl
  mapped _ := rfl
  readable _ _ := rfl
  writable _ _ _ := rfl
  len_le := Nat.le_refl 1
  plain _ := rfl

/-- Two buffers that hold the same byte. -/
def twoBuffers : World (Fin 1) :=
  ((World.initial (Fin 1)).setObj 0 (oneByte 7)).setObj 1 (oneByte 7)

/-- Two secrets, and two keys, with the same byte in different buffers. -/
theorem constantTimeEqual_matching_twoBuffers :
    Ens smallPages 0 false False (Secret.constantTimeEqual ⟨some 0⟩ ⟨some 1⟩)
      (fun v _ => v = true) twoBuffers ∧
    Ens smallPages 0 false False (X25519Key.constantTimeEqual (some ⟨some 1⟩) (some ⟨some 0⟩))
      (fun v _ => v = true) twoBuffers := by
  have hrest : ∀ b, b = 0 ∨ b = 1 → twoBuffers.AtRest (some b) := by
    rintro b (rfl | rfl) x hx <;> cases hx <;> exact ready_oneByte 7
  have hmatch : twoBuffers.Matching (some 0) (some 1) := ⟨[7], rfl, rfl⟩
  have h := constantTimeEqual_matching smallPages 0 false twoBuffers
  refine ⟨(h.1 ⟨some 0⟩ ⟨some 1⟩ (hrest 0 (Or.inl rfl)) (hrest 1 (Or.inr rfl))).1.mono
    fun v _ hv => hv.2 rfl hmatch, ?_⟩
  refine ((h.2 (some ⟨some 0⟩) (some ⟨some 1⟩) (hrest 0 (Or.inl rfl))
    (hrest 1 (Or.inr rfl))).mpr ?_).2.mono fun v _ hv => hv.2 rfl hmatch
  intro b h0 h1
  cases h0
  cases h1

/-- A key compared with itself after `WipeAllSecrets` is found equal, though its buffer cannot
be read any more. -/
theorem constantTimeEqual_wiped : ∃ n w,
    Prog.run (system (Fin 1) smallPages) 0 (fun _ => Choice.easy) 0 (do
      let made ← newBuffer smallPages [7] ⟨false, false⟩
      match made with
      | .error _ => pure false
      | .ok b => do
        let _ ← wipeAllInPlace
        X25519Key.constantTimeEqual (some ⟨some b⟩) (some ⟨some b⟩)) (World.initial (Fin 1)) =
      .done (true, n) w ∧
    (w.obj 0).view.refusal = some .errWiped ∧ ¬w.Matching (some 0) (some 0) :=
  ⟨_, _, rfl, rfl, World.not_matching_of_refusal rfl⟩

end Secmem.Process
