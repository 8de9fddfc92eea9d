import Mathlib.Logic.Function.Basic
import Mathlib.Tactic

/-!
# Calls that own resources

A call runs over a pool of resources.  It may request one, which the environment may refuse,
read and write the ones it holds, release them, and fail; a failure does not undo what was done
before it, so whoever fails has to release what it holds.  Resources are numbered by the request
that made them, and no number is used twice: that nothing is held past the last request is part
of what a pool is.

`Op.wp x p Q` says that the call `x` from the pool `p` ends in a result and a pool that `Q`
holds of, and the lemmas about it rewrite it call by call.  `Leaves base lo own` is the
postcondition of a call that keeps track of what it holds: after an error the pool holds `base`
and nothing else, and after success one resource more, the one `own` names.  The rules for
`orRelease` and `andRelease` are what an owner's two ways of letting go come to.
-/

namespace Secmem.Ownership

open Function

/-- The resources of contents `κ` in existence, and a log of events `τ`. -/
@[ext]
structure Holdings (κ τ : Type) where
  requests : ℕ
  held : ℕ → Option κ
  log : List τ
  fresh : ∀ n, requests ≤ n → held n = none

namespace Holdings

variable {κ τ : Type} (p : Holdings κ τ)

/-- A request was refused. -/
def refuse : Holdings κ τ :=
  ⟨p.requests + 1, p.held, p.log, fun n hn => p.fresh n (by omega)⟩

/-- A request was granted. -/
def grant (x : κ) : Holdings κ τ :=
  ⟨p.requests + 1, Function.update p.held p.requests (some x), p.log, fun n hn => by
    rw [Function.update_of_ne (by omega)]
    exact p.fresh n (by omega)⟩

def release (n : ℕ) : Holdings κ τ :=
  ⟨p.requests, Function.update p.held n none, p.log, fun m hm => by
    by_cases h : m = n
    · rw [h, Function.update_self]
    · rw [Function.update_of_ne h]
      exact p.fresh m hm⟩

/-- New contents for a resource that is held. -/
def write (n : ℕ) (x : κ) : Holdings κ τ :=
  ⟨p.requests, Function.update p.held n ((p.held n).map fun _ => x), p.log, fun m hm => by
    by_cases h : m = n
    · rw [h, Function.update_self, p.fresh n (h ▸ hm), Option.map_none]
    · rw [Function.update_of_ne h]
      exact p.fresh m hm⟩

def emit (t : τ) : Holdings κ τ := ⟨p.requests, p.held, p.log ++ [t], p.fresh⟩

lemma held_grant (x : κ) : (p.grant x).held p.requests = some x := by
  change update p.held p.requests (some x) p.requests = some x
  rw [update_self]

lemma write_grant (x y : κ) : (p.grant x).write p.requests y = p.grant y := by
  refine Holdings.ext rfl ?_ rfl
  change update (p.grant x).held p.requests _ = update p.held p.requests (some y)
  rw [held_grant]
  change update (update p.held p.requests (some x)) p.requests (some y) = _
  rw [update_idem]

/-- What is held was requested before. -/
lemma lt_requests {p : Holdings κ τ} {n : ℕ} {x : κ} (h : p.held n = some x) : n < p.requests := by
  by_contra hle
  rw [p.fresh n (by omega)] at h
  cases h

/-- A resource that comes and goes leaves its number used up. -/
lemma release_emit_grant (x : κ) (t : τ) :
    ((p.grant x).emit t).release p.requests = p.refuse.emit t := by
  refine Holdings.ext rfl ?_ rfl
  change update (update p.held p.requests (some x)) p.requests none = p.held
  rw [update_idem, ← p.fresh p.requests le_rfl, update_eq_self]

/-- No resource has been requested yet. -/
def empty : Holdings κ τ := ⟨0, fun _ => none, [], fun _ _ => rfl⟩

end Holdings

/-- A call: its result and what it makes of the pool.  Requests are never taken back, and what has
been logged stays logged. -/
structure Op (ε κ τ α : Type) where
  run : Holdings κ τ → Except ε α × Holdings κ τ
  grows : ∀ p, p.requests ≤ (run p).2.requests ∧ p.log <+: (run p).2.log

namespace Op

variable {ε κ τ α β : Type} {x : Op ε κ τ α}

def bind (x : Op ε κ τ α) (f : α → Op ε κ τ β) : Op ε κ τ β where
  run p :=
    match x.run p with
    | (.ok a, p) => (f a).run p
    | (.error e, p) => (.error e, p)
  grows p := by
    have hx := x.grows p
    split
    next a p' h =>
      rw [h] at hx
      have hf := (f a).grows p'
      exact ⟨hx.1.trans hf.1, hx.2.trans hf.2⟩
    next e p' h =>
      rw [h] at hx
      exact hx

instance : Monad (Op ε κ τ) where
  pure a := ⟨fun p => (.ok a, p), fun _ => ⟨le_rfl, List.prefix_rfl⟩⟩
  bind := bind

/-- A computation that does not touch the pool. -/
def lift (r : Except ε α) : Op ε κ τ α := ⟨fun p => (r, p), fun _ => ⟨le_rfl, List.prefix_rfl⟩⟩

def fail (e : ε) : Op ε κ τ α := lift (.error e)

/-- Asks for a resource; `refused n` is the environment's answer to the `n`-th request. -/
def request (refused : ℕ → Option ε) (x : κ) : Op ε κ τ ℕ where
  run p :=
    match refused p.requests with
    | some e => (.error e, p.refuse)
    | none => (.ok p.requests, p.grant x)
  grows p := by
    split
    · exact ⟨Nat.le_succ _, List.prefix_rfl⟩
    · exact ⟨Nat.le_succ _, List.prefix_rfl⟩

def release (n : ℕ) : Op ε κ τ Unit :=
  ⟨fun p => (.ok (), p.release n), fun _ => ⟨le_rfl, List.prefix_rfl⟩⟩

/-- The contents of a resource, or `gone`. -/
def read (gone : ε) (n : ℕ) : Op ε κ τ κ where
  run p :=
    match p.held n with
    | some x => (.ok x, p)
    | none => (.error gone, p)
  grows p := by
    split
    · exact ⟨le_rfl, List.prefix_rfl⟩
    · exact ⟨le_rfl, List.prefix_rfl⟩

def write (gone : ε) (n : ℕ) (x : κ) : Op ε κ τ Unit where
  run p :=
    match p.held n with
    | some _ => (.ok (), p.write n x)
    | none => (.error gone, p)
  grows p := by
    split
    · exact ⟨le_rfl, List.prefix_rfl⟩
    · exact ⟨le_rfl, List.prefix_rfl⟩

def emit (t : τ) : Op ε κ τ Unit :=
  ⟨fun p => (.ok (), p.emit t), fun _ => ⟨le_rfl, List.prefix_append _ _⟩⟩

/-- Replaces an error by another. -/
def mapError (f : ε → ε) (x : Op ε κ τ α) : Op ε κ τ α :=
  ⟨fun p => ((x.run p).1.mapError f, (x.run p).2), x.grows⟩

/-- Releases a resource if the call fails. -/
def orRelease (x : Op ε κ τ α) (n : ℕ) : Op ε κ τ α where
  run p :=
    match x.run p with
    | (.ok a, p) => (.ok a, p)
    | (.error e, p) => (.error e, p.release n)
  grows p := by
    have hx := x.grows p
    split
    next a p' h =>
      rw [h] at hx
      exact hx
    next e p' h =>
      rw [h] at hx
      exact hx

/-- Releases a resource when the call ends. -/
def andRelease (x : Op ε κ τ α) (n : ℕ) : Op ε κ τ α :=
  ⟨fun p => ((x.run p).1, (x.run p).2.release n), x.grows⟩

/-! ## What a call ends in -/

def wp (x : Op ε κ τ α) (p : Holdings κ τ) (Q : Except ε α → Holdings κ τ → Prop) : Prop :=
  Q (x.run p).1 (x.run p).2

section Rules

variable {p : Holdings κ τ}

lemma wp_mono {Q Q' : Except ε α → Holdings κ τ → Prop} (h : wp x p Q)
    (hQ : ∀ r p', Q r p' → Q' r p') : wp x p Q' :=
  hQ _ _ h

variable {Q : Except ε α → Holdings κ τ → Prop} {I : Holdings κ τ → Prop}

@[simp] lemma wp_pure {a : α} : wp (pure a : Op ε κ τ α) p Q ↔ Q (.ok a) p := Iff.rfl

@[simp] lemma wp_fail {e : ε} : wp (fail e) p Q ↔ Q (.error e) p := Iff.rfl

@[simp] lemma wp_lift {r : Except ε α} : wp (lift r) p Q ↔ Q r p := Iff.rfl

lemma wp_bind {x : Op ε κ τ β} {f : β → Op ε κ τ α} :
    wp (x >>= f) p Q ↔
      wp x p fun r p' => match r with
        | .ok b => wp (f b) p' Q
        | .error e => Q (.error e) p' := by
  change Q ((bind x f).run p).1 ((bind x f).run p).2 ↔ _
  simp only [wp, bind]
  cases x.run p with
  | mk r p' => cases r <;> rfl

lemma wp_mapError {f : ε → ε} :
    wp (mapError f x) p Q ↔
      wp x p fun r p' => match r with
        | .ok a => Q (.ok a) p'
        | .error e => Q (.error (f e)) p' := by
  simp only [wp, mapError]
  cases x.run p with
  | mk r p' => cases r <;> rfl

lemma wp_orRelease {n : ℕ} :
    wp (orRelease x n) p Q ↔
      wp x p fun r p' => match r with
        | .ok a => Q (.ok a) p'
        | .error e => Q (.error e) (p'.release n) := by
  simp only [wp, orRelease]
  cases x.run p with
  | mk r p' => cases r <;> rfl

@[simp] lemma wp_andRelease {x : Op ε κ τ α} {n : ℕ} :
    wp (andRelease x n) p Q ↔ wp x p fun r p' => Q r (p'.release n) := Iff.rfl

/-- What both halves of a sequence keep true of the pool. -/
lemma keeps_bind {x : Op ε κ τ β} {f : β → Op ε κ τ α}
    (hx : wp x p fun _ p' => I p') (hf : ∀ b p', I p' → wp (f b) p' fun _ p' => I p') :
    wp (x >>= f) p fun _ p' => I p' := by
  rw [wp_bind]
  refine wp_mono hx fun r p' hr => ?_
  cases r with
  | error e => exact hr
  | ok b => exact hf b p' hr

lemma keeps_mapError {g : ε → ε}
    (hx : wp x p fun _ p' => I p') : wp (mapError g x) p fun _ p' => I p' := by
  rw [wp_mapError]
  refine wp_mono hx fun r p' hr => ?_
  cases r with
  | error e => exact hr
  | ok a => exact hr

lemma keeps_lift {r : Except ε α} (h : I p) :
    wp (lift r) p fun _ p' => I p' := h

lemma wp_request {refused : ℕ → Option ε} {x : κ} {Q : Except ε ℕ → Holdings κ τ → Prop} :
    wp (request refused x) p Q ↔
      (∀ e, refused p.requests = some e → Q (.error e) p.refuse) ∧
        (refused p.requests = none → Q (.ok p.requests) (p.grant x)) := by
  simp only [wp, request]
  cases refused p.requests with
  | none => simp
  | some e => simp

@[simp] lemma wp_release {n : ℕ} {Q : Except ε Unit → Holdings κ τ → Prop} :
    wp (release n) p Q ↔ Q (.ok ()) (p.release n) := Iff.rfl

@[simp] lemma wp_emit {t : τ} {Q : Except ε Unit → Holdings κ τ → Prop} :
    wp (emit t) p Q ↔ Q (.ok ()) (p.emit t) := Iff.rfl

lemma wp_read {gone : ε} {n : ℕ} {Q : Except ε κ → Holdings κ τ → Prop} {x : κ}
    (h : p.held n = some x) : wp (read gone n) p Q ↔ Q (.ok x) p := by
  simp only [wp, read, h]

lemma wp_write {gone : ε} {n : ℕ} {y : κ} {Q : Except ε Unit → Holdings κ τ → Prop} {x : κ}
    (h : p.held n = some x) : wp (write gone n y) p Q ↔ Q (.ok ()) (p.write n y) := by
  simp only [wp, write, h]

end Rules

/-! ## What a call fails with -/

/-- Every error of the call is one of `S`. -/
def Raises (S : ε → Prop) (x : Op ε κ τ α) : Prop := ∀ p e, (x.run p).1 = .error e → S e

section Raises

variable {S : ε → Prop}

lemma Raises.wp (h : Raises S x) {p : Holdings κ τ}
    {Q : Except ε α → Holdings κ τ → Prop} (hok : ∀ a p', Q (.ok a) p')
    (herror : ∀ e p', S e → Q (.error e) p') : x.wp p Q := by
  unfold Op.wp
  cases hr : (x.run p).1 with
  | ok a => exact hok a _
  | error e => exact herror e _ (h p e hr)

lemma raises_of_wp
    (h : ∀ p, x.wp p fun r _ => ∀ e, r = .error e → S e) : Raises S x := h

lemma Raises.mono {T : ε → Prop} (h : Raises S x) (hST : ∀ e, S e → T e) :
    Raises T x := fun p e he => hST e (h p e he)

@[simp] lemma raises_pure {a : α} : Raises S (pure a : Op ε κ τ α) := fun _ _ h => by cases h

lemma raises_lift {r : Except ε α} :
    Raises S (lift r : Op ε κ τ α) ↔ ∀ e, r = .error e → S e :=
  ⟨fun h => h Holdings.empty, fun h _ => h⟩

@[simp] lemma raises_fail {e : ε} : Raises S (fail e : Op ε κ τ α) ↔ S e :=
  raises_lift.trans ⟨fun h => h e rfl, fun h _ he => by cases he; exact h⟩

/-- If every error is one of `S`, so are those of a call. -/
lemma raises_of_forall (h : ∀ e, S e) (x : Op ε κ τ α) : Raises S x := fun _ e _ => h e

@[simp] lemma raises_release {n : ℕ} : Raises S (release n : Op ε κ τ Unit) :=
  fun _ _ h => by cases h

@[simp] lemma raises_emit {t : τ} : Raises S (emit t : Op ε κ τ Unit) := fun _ _ h => by cases h

lemma raises_bind {f : α → Op ε κ τ β} (hx : Raises S x)
    (hf : ∀ a, Raises S (f a)) : Raises S (x >>= f) := by
  refine raises_of_wp fun p => ?_
  rw [wp_bind]
  refine hx.wp (fun a p' => hf a p') fun e p' he e' he' => ?_
  cases he'
  exact he

lemma raises_mapError {f : ε → ε} (h : Raises (fun e => S (f e)) x) :
    Raises S (x.mapError f) := by
  refine raises_of_wp fun p => ?_
  rw [wp_mapError]
  refine h.wp (fun a p' e he => by cases he) fun e p' he e' he' => ?_
  cases he'
  exact he

lemma raises_orRelease (h : Raises S x) (n : ℕ) : Raises S (x.orRelease n) := by
  refine raises_of_wp fun p => ?_
  rw [wp_orRelease]
  refine h.wp (fun a p' e he => by cases he) fun e p' he e' he' => ?_
  cases he'
  exact he

lemma raises_andRelease (h : Raises S x) (n : ℕ) :
    Raises S (x.andRelease n) := fun p => h p

lemma raises_read {gone : ε} (h : S gone) (n : ℕ) : Raises S (read gone n : Op ε κ τ κ) := by
  intro p e he
  simp only [read] at he
  split at he
  · cases he
  · cases he
    exact h

lemma raises_write {gone : ε} (h : S gone) (n : ℕ) (x : κ) :
    Raises S (write gone n x : Op ε κ τ Unit) := by
  intro p e he
  simp only [write] at he
  split at he
  · cases he
  · cases he
    exact h

lemma raises_request {refused : ℕ → Option ε} {x : κ} (h : ∀ n e, refused n = some e → S e) :
    Raises S (request refused x : Op ε κ τ ℕ) := by
  intro p e he
  simp only [request] at he
  split at he
  next e' hr =>
    cases he
    exact h _ e hr
  · cases he

end Raises

end Op

/-! ## Keeping track -/

section Tracking

variable {ε κ τ α β : Type} {base : ℕ → Option κ} {lo n : ℕ} {own : α → ℕ} {c : κ}
  {p : Holdings κ τ}

/-- The pool holds `base` and nothing else. -/
structure Same (base : ℕ → Option κ) (lo : ℕ) (p : Holdings κ τ) : Prop where
  since : lo ≤ p.requests
  held : p.held = base

/-- The pool holds `base` and, besides, the resource `n` with contents `c`, which was requested
at `lo` or later. -/
structure Holds (base : ℕ → Option κ) (lo n : ℕ) (c : κ) (p : Holdings κ τ) : Prop where
  since : lo ≤ p.requests
  after : lo ≤ n
  free : base n = none
  held : p.held = Function.update base n (some c)

/-- As `Holds`, whatever the contents. -/
def Owning (base : ℕ → Option κ) (lo n : ℕ) (p : Holdings κ τ) : Prop := ∃ c, Holds base lo n c p

/-- What a call leaves: nothing besides `base` after an error, one resource after success. -/
def Leaves (base : ℕ → Option κ) (lo : ℕ) (own : α → ℕ) (r : Except ε α) (p : Holdings κ τ) :
    Prop :=
  match r with
  | .error _ => Same base lo p
  | .ok a => Owning base lo (own a) p

lemma Same.refl (p : Holdings κ τ) : Same p.held p.requests p := ⟨le_rfl, rfl⟩

lemma Holds.read (h : Holds base lo n c p) : p.held n = some c := by
  rw [h.held, update_self]

/-- What is held may be counted among what was there before. -/
lemma Holds.same (h : Holds base lo n c p) : Same (update base n (some c)) lo p :=
  ⟨h.since, h.held⟩

lemma Holds.release (h : Holds base lo n c p) : Same base lo (p.release n) := by
  refine ⟨h.since, ?_⟩
  change update p.held n none = base
  rw [h.held, update_idem, ← h.free, update_eq_self]

lemma Owning.release (h : Owning base lo n p) : Same base lo (p.release n) :=
  h.choose_spec.release

lemma Holds.write (h : Holds base lo n c p) (d : κ) : Holds base lo n d (p.write n d) := by
  refine ⟨h.since, h.after, h.free, ?_⟩
  change update p.held n _ = _
  rw [h.read, h.held, update_idem, Option.map_some]

lemma Same.grant (h : Same base lo p) (x : κ) : Holds base lo p.requests x (p.grant x) := by
  refine ⟨Nat.le_succ_of_le h.since, h.since, ?_, ?_⟩
  · rw [← h.held]
    exact p.fresh _ le_rfl
  · rw [← h.held]
    rfl

lemma Same.refuse (h : Same base lo p) : Same base lo p.refuse :=
  ⟨Nat.le_succ_of_le h.since, h.held⟩

lemma Same.emit (h : Same base lo p) (t : τ) : Same base lo (p.emit t) := ⟨h.since, h.held⟩

/-- Letting go of one of two resources leaves the other. -/
lemma Holds.release_other {m : ℕ} (hn : base n = none) (hlo : lo ≤ m)
    (h : Owning (update base n (some c)) lo m p) : Owning base lo m (p.release n) := by
  obtain ⟨d, hd⟩ := h
  have hne : m ≠ n := by
    intro heq
    have hfree := hd.free
    rw [heq, update_self] at hfree
    cases hfree
  refine ⟨d, hd.since, hlo, ?_, ?_⟩
  · rw [← hd.free, update_of_ne hne]
  · change update p.held n none = _
    rw [hd.held, update_comm hne, update_idem, ← hn, update_eq_self]

end Tracking

/-! ## Rules for calls that keep track -/

namespace Op

variable {ε κ τ α β : Type} {base : ℕ → Option κ} {lo n : ℕ} {own : α → ℕ} {own' : β → ℕ}
  {x : Op ε κ τ α}
  {c : κ} {p : Holdings κ τ}

lemma leaves_request {refused : ℕ → Option ε} {x : κ} (h : Same base lo p) :
    (request refused x).wp p (Leaves base lo id) := by
  rw [wp_request]
  exact ⟨fun _ _ => h.refuse, fun _ => ⟨x, h.grant x⟩⟩

lemma leaves_mapError {f : ε → ε} (h : x.wp p (Leaves base lo own)) :
    (x.mapError f).wp p (Leaves base lo own) := by
  rw [wp_mapError]
  refine wp_mono h fun r p' hr => ?_
  cases r with
  | error e => exact hr
  | ok a => exact hr

/-- After a call that keeps track, its result is owned. -/
lemma leaves_bind {f : α → Op ε κ τ β} (hx : x.wp p (Leaves base lo own))
    (hf : ∀ a p', Owning base lo (own a) p' → (f a).wp p' (Leaves base lo own')) :
    (x >>= f).wp p (Leaves base lo own') := by
  rw [wp_bind]
  refine wp_mono hx fun r p' hr => ?_
  cases r with
  | error e => exact hr
  | ok a => exact hf a p' hr

lemma leaves_lift_bind {r : Except ε α} {f : α → Op ε κ τ β} (h : Same base lo p)
    (hf : ∀ a, (f a).wp p (Leaves base lo own')) : (lift r >>= f).wp p (Leaves base lo own') := by
  rw [wp_bind, wp_lift]
  cases r with
  | error e => exact h
  | ok a => exact hf a

/-- After a step on an owned resource that is let go of if the step fails. -/
lemma leaves_step {f : α → Op ε κ τ β}
    (hx : x.wp p fun _ p' => Owning base lo n p')
    (hf : ∀ a p', Owning base lo n p' → (f a).wp p' (Leaves base lo own')) :
    (x.orRelease n >>= f).wp p (Leaves base lo own') := by
  rw [wp_bind, wp_orRelease]
  refine wp_mono hx fun r p' hr => ?_
  cases r with
  | error e => exact hr.release
  | ok a => exact hf a p' hr

/-- A resource that passes to the result, or is let go of after an error. -/
lemma leaves_orRelease
    (h : x.wp p fun r p' => Owning base lo n p' ∧ ∀ a, r = .ok a → own a = n) :
    (x.orRelease n).wp p (Leaves base lo own) := by
  rw [wp_orRelease]
  refine wp_mono h fun r p' hr => ?_
  cases r with
  | error e => exact hr.1.release
  | ok a =>
    change Owning base lo (own a) p'
    rw [hr.2 a rfl]
    exact hr.1

/-- A resource that is let go of whatever happens. -/
lemma leaves_andRelease (hn : lo ≤ n) (hfree : base n = none)
    (h : x.wp p (Leaves (update base n (some c)) lo own)) :
    (x.andRelease n).wp p (Leaves base lo own) := by
  rw [wp_andRelease]
  refine wp_mono h fun r p' hr => ?_
  cases r with
  | error e => exact Holds.release ⟨hr.since, hn, hfree, hr.held⟩
  | ok a => exact Holds.release_other hfree hr.choose_spec.after hr

lemma same_andRelease (hn : lo ≤ n) (hfree : base n = none)
    (h : x.wp p fun _ p' => Same (update base n (some c)) lo p') :
    (x.andRelease n).wp p fun _ p' => Same base lo p' := by
  rw [wp_andRelease]
  exact wp_mono h fun r p' hr => Holds.release ⟨hr.since, hn, hfree, hr.held⟩

end Op

end Secmem.Ownership
