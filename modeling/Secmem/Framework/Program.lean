import Secmem.Framework.Interleaving
import Mathlib.Logic.Function.Basic

/-!
# Programs over atomic actions

A small imperative language, independent of what it is used for.  A `Prog` is a tree of atomic
actions drawn from a signature: an action `i` has a type of results `R i`, and the program
continues according to the result; `fork` starts another program by name.  What an action does
is not part of the tree: a `System` interprets it as a transition of a shared state, subject to
a `Choice` that resolves whatever the action leaves open (a system call's success, the order of
a map's iteration).

A program runs in two ways.  `Prog.run` runs it alone, with the choices taken from a stream.
A `Pool` runs any number of programs at once, one action at a time, in whatever order the
moves prescribe.
-/

namespace Secmem

/-- What one action, or one program, comes to: a result and a state, a fault that ends the
process, or nothing yet because the action is blocked. -/
inductive Outcome (σ α : Type)
  | done (a : α) (s : σ)
  | fault
  | blocked

namespace Outcome

variable {σ α β : Type}

/-- Sequential composition of outcomes. -/
def andThen : Outcome σ α → (α → σ → Outcome σ β) → Outcome σ β
  | .done a s, f => f a s
  | .fault, _ => .fault
  | .blocked, _ => .blocked

/-- An outcome on a part of the state, as one on the whole. -/
def within {τ : Type} : Outcome σ α → (σ → τ) → Outcome τ α
  | .done a s, f => .done a (f s)
  | .fault, _ => .fault
  | .blocked, _ => .blocked

@[simp] lemma within_done {τ : Type} (a : α) (s : σ) (f : σ → τ) :
    (Outcome.done a s).within f = .done a (f s) := rfl

@[simp] lemma within_fault {τ : Type} (f : σ → τ) :
    (Outcome.fault : Outcome σ α).within f = .fault := rfl

@[simp] lemma within_blocked {τ : Type} (f : σ → τ) :
    (Outcome.blocked : Outcome σ α).within f = .blocked := rfl

@[simp] lemma andThen_done (a : α) (s : σ) (f : α → σ → Outcome σ β) :
    (Outcome.done a s).andThen f = f a s := rfl

lemma andThen_eq_done {o : Outcome σ α} {f : α → σ → Outcome σ β} {b : β} {s : σ}
    (h : o.andThen f = .done b s) : ∃ a s', o = .done a s' ∧ f a s' = .done b s := by
  cases o with
  | done a s' => exact ⟨a, s', rfl, h⟩
  | fault => cases h
  | blocked => cases h

@[simp] lemma andThen_fault (f : α → σ → Outcome σ β) :
    (Outcome.fault : Outcome σ α).andThen f = .fault := rfl

@[simp] lemma andThen_blocked (f : α → σ → Outcome σ β) :
    (Outcome.blocked : Outcome σ α).andThen f = .blocked := rfl

end Outcome

/-- Programs over the actions `A` with results `R`, forking programs named by `C`. -/
inductive Prog (A : Type) (R : A → Type) (C : Type) (α : Type) : Type
  | ret (a : α)
  | act (i : A) (k : R i → Prog A R C α)
  | fork (c : C) (k : Prog A R C α)

namespace Prog

variable {A : Type} {R : A → Type} {C : Type} {α β : Type}

def bind : Prog A R C α → (α → Prog A R C β) → Prog A R C β
  | .ret a, f => f a
  | .act i k, f => .act i fun r => (k r).bind f
  | .fork c k, f => .fork c (k.bind f)

instance : Monad (Prog A R C) where
  pure := .ret
  bind := .bind

/-- The program that performs one action. -/
def perform (i : A) : Prog A R C (R i) := .act i .ret

/-- The program that starts another one. -/
def go (c : C) : Prog A R C Unit := .fork c (.ret ())

/-- The program, if the condition holds. -/
def when (c : Prop) [Decidable c] (p : Prog A R C Unit) : Prog A R C Unit :=
  if c then p else .ret ()

/-- From the state `m` of an automaton the program performs only actions that the automaton has a
next state for, forks nothing, and returns in a state that `post` allows. -/
def Follows {M : Type} (δ : M → A → Option M) : Prog A R C α → (α → M → Prop) → M → Prop
  | .ret a, post, m => post a m
  | .act i k, post, m => ∃ m', δ m i = some m' ∧ ∀ r, (k r).Follows δ post m'
  | .fork _ _, _, _ => False

lemma pure_eq (a : α) : (pure a : Prog A R C α) = .ret a := rfl

lemma ret_bind (a : α) (f : α → Prog A R C β) : (Prog.ret a >>= f) = f a := rfl

lemma act_bind (i : A) (k : R i → Prog A R C α) (f : α → Prog A R C β) :
    (Prog.act i k >>= f) = .act i fun r => k r >>= f := rfl

lemma fork_bind (c : C) (k : Prog A R C α) (f : α → Prog A R C β) :
    (Prog.fork c k >>= f) = .fork c (k >>= f) := rfl

lemma perform_bind (i : A) (f : R i → Prog A R C β) :
    (perform i >>= f) = .act i f := rfl

section Follows

variable {M : Type} {δ : M → A → Option M} {m : M} {post : α → M → Prop}

@[simp] lemma follows_pure (a : α) :
    (pure a : Prog A R C α).Follows δ post m ↔ post a m := Iff.rfl

@[simp] lemma follows_perform {i : A} {post : R i → M → Prop} :
    (perform i : Prog A R C (R i)).Follows δ post m ↔ ∃ m', δ m i = some m' ∧ ∀ r, post r m' :=
  Iff.rfl

@[simp] lemma follows_bind {p : Prog A R C β} {f : β → Prog A R C α} :
    (p >>= f).Follows δ post m ↔ p.Follows δ (fun b m => (f b).Follows δ post m) m := by
  induction p generalizing m with
  | ret b => exact Iff.rfl
  | act i k ih => exact exists_congr fun m' => and_congr_right fun _ => forall_congr' fun r => ih r
  | fork c k => exact Iff.rfl

@[simp] lemma follows_ite {c : Prop} [Decidable c] {p q : Prog A R C α} :
    (if c then p else q).Follows δ post m ↔
      (c → p.Follows δ post m) ∧ (¬c → q.Follows δ post m) := by
  split <;> simp [*]

@[simp] lemma follows_when {c : Prop} [Decidable c] {p : Prog A R C Unit}
    {post : Unit → M → Prop} :
    (when c p).Follows δ post m ↔ (c → p.Follows δ post m) ∧ (¬c → post () m) := follows_ite

end Follows

end Prog

/-- An interpretation of the signature: what an action of thread `t` does to the shared state,
and which program each name stands for. -/
structure System (A : Type) (R : A → Type) (C T Choice σ : Type) where
  exec : T → (i : A) → Choice → σ → Outcome σ (R i)
  code : C → Prog A R C Unit

section Run

variable {A : Type} {R : A → Type} {C T Choice σ α β : Type}

/-- Runs a program alone as thread `t`, the `n`-th action taking the `n`-th choice; the result
carries the number of the next choice.  A forked program never gets to run. -/
def Prog.run (S : System A R C T Choice σ) (t : T) (pick : ℕ → Choice) :
    ℕ → Prog A R C α → σ → Outcome σ (α × ℕ)
  | n, .ret a, s => .done (a, n) s
  | n, .act i k, s => (S.exec t i (pick n) s).andThen fun r s' => (k r).run S t pick (n + 1) s'
  | n, .fork _ k, s => k.run S t pick n s

variable {S : System A R C T Choice σ} {t : T} {pick : ℕ → Choice}

@[simp] lemma Prog.run_ret (n : ℕ) (a : α) (s : σ) :
    (Prog.ret a : Prog A R C α).run S t pick n s = .done (a, n) s := rfl

@[simp] lemma Prog.run_act (n : ℕ) (i : A) (k : R i → Prog A R C α) (s : σ) :
    (Prog.act i k).run S t pick n s =
      (S.exec t i (pick n) s).andThen fun r s' => (k r).run S t pick (n + 1) s' := rfl

lemma Prog.run_bind (p : Prog A R C α) (f : α → Prog A R C β) (n : ℕ) (s : σ) :
    (p >>= f).run S t pick n s =
      (p.run S t pick n s).andThen fun r s' => (f r.1).run S t pick r.2 s' := by
  induction p generalizing n s with
  | ret a => rfl
  | act i k ih =>
    rw [Prog.act_bind, Prog.run_act, Prog.run_act]
    cases S.exec t i (pick n) s with
    | done r s' => exact ih r (n + 1) s'
    | fault => rfl
    | blocked => rfl
  | fork c k ih => exact ih n s

end Run

/-! ## Pools -/

/-- The shared state and what is left of every thread's program.  A thread that has nothing
left is idle. -/
structure Pool (A : Type) (R : A → Type) (C T σ : Type) where
  state : σ
  thread : T → Prog A R C Unit

/-- One move of a pool: an idle thread begins a program, a thread performs its next action, or
a thread starts another program on an idle thread. -/
inductive Move (C T Choice : Type)
  | start (t : T) (c : C)
  | step (t : T) (c : Choice)
  | fork (t u : T)

namespace Pool

variable {A : Type} {R : A → Type} {C T Choice σ : Type} [DecidableEq T]

/-- Performs a move; `none` if the pool cannot make it.  A thread may begin only the programs
`api` admits. -/
def move (S : System A R C T Choice σ) (api : C → Bool) (p : Pool A R C T σ) :
    Move C T Choice → Option (Pool A R C T σ)
  | .start t c =>
    match p.thread t with
    | .ret _ => if api c = true then some ⟨p.state, Function.update p.thread t (S.code c)⟩ else none
    | _ => none
  | .step t c =>
    match p.thread t with
    | .act i k =>
      match S.exec t i c p.state with
      | .done r s => some ⟨s, Function.update p.thread t (k r)⟩
      | _ => none
    | _ => none
  | .fork t u =>
    match p.thread t, p.thread u with
    | .fork c k, .ret _ =>
      some ⟨p.state, Function.update (Function.update p.thread t k) u (S.code c)⟩
    | _, _ => none

/-- The pool after a list of moves. -/
def moves (S : System A R C T Choice σ) (api : C → Bool) (p : Pool A R C T σ)
    (ms : List (Move C T Choice)) : Option (Pool A R C T σ) :=
  ms.foldlM (fun p m => p.move S api m) p

/-- The pools reached from an initial state, in which every thread is idle. -/
def Run (S : System A R C T Choice σ) (api : C → Bool) (init : σ → Prop) :
    Pool A R C T σ → Prop :=
  Reachable (fun p => init p.state ∧ ∀ t, p.thread t = .ret ())
    fun p p' => ∃ m, p.move S api m = some p'

/-- A list of moves from a reachable pool leads to a reachable pool. -/
lemma Run.moves {S : System A R C T Choice σ} {api : C → Bool} {init : σ → Prop}
    {p p' : Pool A R C T σ} {ms : List (Move C T Choice)} (h : Run S api init p)
    (hms : p.moves S api ms = some p') : Run S api init p' := by
  induction ms generalizing p with
  | nil => exact Option.some.inj hms ▸ h
  | cons m ms ih =>
    simp only [Pool.moves, List.foldlM_cons, Option.bind_eq_bind, Option.bind_eq_some_iff] at hms
    obtain ⟨p₁, hm, hrest⟩ := hms
    exact ih (h.tail ⟨m, hm⟩) hrest

/-- What is computed of the pool that some moves lead to, and what holds of it as reachable. -/
lemma Run.exists_moves {S : System A R C T Choice σ} {api : C → Bool} {init : σ → Prop}
    {p : Pool A R C T σ} {ms : List (Move C T Choice)} {P Q : Pool A R C T σ → Prop}
    (h : Run S api init p) (hP : ∃ p', p.moves S api ms = some p' ∧ P p')
    (hQ : ∀ p', Run S api init p' → P p' → Q p') :
    ∃ p', p.moves S api ms = some p' ∧ Q p' := by
  obtain ⟨p', hms, hp'⟩ := hP
  exact ⟨p', hms, hQ p' (h.moves hms) hp'⟩

/-- What a move can be: the inversion of `move`. -/
lemma move_cases {S : System A R C T Choice σ} {api : C → Bool} {p p' : Pool A R C T σ}
    {m : Move C T Choice} (h : p.move S api m = some p') :
    (∃ t c, api c = true ∧ p' = ⟨p.state, Function.update p.thread t (S.code c)⟩ ∧
      ∃ a, p.thread t = .ret a) ∨
    (∃ t c i k r s, p.thread t = .act i k ∧ S.exec t i c p.state = .done r s ∧
      p' = ⟨s, Function.update p.thread t (k r)⟩) ∨
    (∃ t u c k, t ≠ u ∧ p.thread t = .fork c k ∧
      p' = ⟨p.state, Function.update (Function.update p.thread t k) u (S.code c)⟩ ∧
      ∃ a, p.thread u = .ret a) := by
  cases m with
  | start t c =>
    simp only [move] at h
    split at h
    next a hret =>
      split at h <;> cases h
      next hapi => exact .inl ⟨t, c, hapi, rfl, a, hret⟩
    next => cases h
  | step t c =>
    simp only [move] at h
    split at h
    next i k hact =>
      split at h <;> cases h
      next r s hexec => exact .inr (.inl ⟨t, c, i, k, r, s, hact, hexec, rfl⟩)
    next => cases h
  | fork t u =>
    simp only [move] at h
    split at h <;> cases h
    next c k a hfork hret =>
      refine .inr (.inr ⟨t, u, c, k, ?_, hfork, rfl, a, hret⟩)
      rintro rfl
      rw [hfork] at hret
      cases hret

section Threads

variable {S : System A R C T Choice σ} {api : C → Bool} {init : σ → Prop} {p : Pool A R C T σ}

/-- The invariant rule of pools: `I` is about the shared state, and `J t` about it and what is left
of the program of thread `t`. -/
lemma Run.threads {I : σ → Prop} {J : T → σ → Prog A R C Unit → Prop}
    (hinit : ∀ s, init s → I s ∧ ∀ t, J t s (.ret ()))
    (hstart : ∀ {t s c a}, I s → api c = true → J t s (.ret a) → J t s (S.code c))
    (hstep : ∀ {t i k c s r s'}, I s → J t s (.act i k) → S.exec t i c s = .done r s' →
      I s' ∧ J t s' (k r) ∧ ∀ u, u ≠ t → ∀ q, J u s q → J u s' q)
    (hfork : ∀ {t u s c k a}, I s → J t s (.fork c k) → J u s (.ret a) →
      J t s k ∧ J u s (S.code c))
    (h : Run S api init p) : I p.state ∧ ∀ t, J t p.state (p.thread t) := by
  refine Reachable.invariant (I := fun p => I p.state ∧ ∀ t, J t p.state (p.thread t)) ?_ ?_ h
  · rintro p ⟨hp, hidle⟩
    refine (hinit _ hp).imp_right fun hJ t => ?_
    rw [hidle t]
    exact hJ t
  · rintro p p' ⟨hI, hJ⟩ ⟨m, hm⟩
    rcases move_cases hm with ⟨t, c, hc, rfl, a, hret⟩ | ⟨t, c, i, k, r, s, hact, he, rfl⟩ |
      ⟨t, u, c, k, -, hfk, rfl, a, hret⟩
    · exact ⟨hI, (Function.forall_update_iff p.thread (J · p.state)).mpr
        ⟨hstart hI hc (hret ▸ hJ t), fun v _ => hJ v⟩⟩
    · obtain ⟨hI', hmine, hothers⟩ := hstep hI (hact ▸ hJ t) he
      exact ⟨hI', (Function.forall_update_iff p.thread (J · s)).mpr
        ⟨hmine, fun v hv => hothers v hv _ (hJ v)⟩⟩
    · obtain ⟨hmine, htheirs⟩ := hfork hI (hfk ▸ hJ t) (hret ▸ hJ u)
      have hothers := (Function.forall_update_iff p.thread (J · p.state)).mpr
        ⟨hmine, fun v _ => hJ v⟩
      exact ⟨hI, (Function.forall_update_iff _ (J · p.state)).mpr
        ⟨htheirs, fun v _ => hothers v⟩⟩

/-- What is left of a thread's program follows the automaton in every run, from a state that `K`
relates to the shared one.  A step moves the automaton of the thread that makes it; for the others
it must leave `K` as it is. -/
lemma Run.follows {M : Type} {δ : M → A → Option M} {idle : M} {K : T → σ → M → Prop}
    (hcode : ∀ c, api c = true → (S.code c).Follows δ (fun _ m => m = idle) idle)
    (hinit : ∀ s, init s → ∀ t, K t s idle)
    (hstep : ∀ {t i c s r s' m m'}, K t s m → δ m i = some m' → S.exec t i c s = .done r s' →
      K t s' m' ∧ ∀ u, u ≠ t → ∀ n, K u s n → K u s' n)
    (h : Run S api init p) (t : T) :
    ∃ m, K t p.state m ∧ (p.thread t).Follows δ (fun _ m => m = idle) m := by
  refine (h.threads (I := fun _ => True) (J := fun t s q =>
    ∃ m, K t s m ∧ q.Follows δ (fun _ m => m = idle) m) ?_ ?_ ?_ ?_).2 t
  · exact fun s hs => ⟨trivial, fun t => ⟨idle, hinit s hs t, rfl⟩⟩
  · rintro t s c a - hc ⟨m, hK, rfl⟩
    exact ⟨m, hK, hcode c hc⟩
  · rintro t i k c s r s' - ⟨m, hK, m', hnext, hk⟩ he
    obtain ⟨hmine, hothers⟩ := hstep hK hnext he
    refine ⟨trivial, ⟨m', hmine, hk r⟩, ?_⟩
    rintro u hu q ⟨n, hn, hq⟩
    exact ⟨n, hothers u hu n hn, hq⟩
  · rintro t u s c k a - ⟨m, -, hm⟩
    exact hm.elim

end Threads

end Pool

end Secmem
