import Secmem.Framework.Program

/-!
# A thread that goes round and round

A `Loop` is one thread that performs a program over and over, as long as the program returns
true, beside an environment whose events may strike between any two of its actions.  A state
keeps the trace of all that has happened, newest first, so that safety is a property of the
traces of reachable states.

The thread's own part of a trace determines where it stands (`Run.reaches`), whatever the
environment has done.  A `FairRun` is an infinite run in which the thread is not passed over
for ever, and `FairRun.eventually` is the rule for what must come about in it.
-/

namespace Secmem

/-- A thread that repeats `round` beside an environment. -/
structure Loop (A : Type) (R : A → Type) (E Choice σ : Type) where
  exec : (i : A) → Choice → σ → Outcome σ (R i)
  env : E → σ → Option σ
  round : Prog A R Empty Bool

namespace Loop

variable {A : Type} {R : A → Type} {E Choice σ : Type}

/-- An entry of a trace: an action of the thread with its result, or an event. -/
inductive Entry (A : Type) (R : A → Type) (E : Type)
  | own (i : A) (r : R i)
  | env (e : E)

/-- The shared state, what is left of the present round, and the trace.  A thread that has
nothing left has ended. -/
structure State (A : Type) (R : A → Type) (E σ : Type) where
  shared : σ
  rest : Option (Prog A R Empty Bool)
  trace : List (Entry A R E)

/-- One move: the thread performs its next action, or an event strikes. -/
inductive Move (E Choice : Type)
  | own (c : Choice)
  | env (e : E)

/-- The actions in a trace. -/
def own (tr : List (Entry A R E)) : List (Σ i, R i) :=
  tr.filterMap fun
    | .own i r => some ⟨i, r⟩
    | .env _ => none

@[simp] lemma own_nil : own ([] : List (Entry A R E)) = [] := rfl

@[simp] lemma own_cons_own (i : A) (r : R i) (tr : List (Entry A R E)) :
    own (.own i r :: tr) = ⟨i, r⟩ :: own tr := rfl

@[simp] lemma own_cons_env (e : E) (tr : List (Entry A R E)) : own (.env e :: tr) = own tr := rfl

lemma own_append (tr tr' : List (Entry A R E)) : own (tr ++ tr') = own tr ++ own tr' :=
  List.filterMap_append

variable (L : Loop A R E Choice σ)

/-- What the thread goes on with: the rest of the round, another round, or nothing. -/
def resume : Prog A R Empty Bool → Option (Prog A R Empty Bool)
  | .ret true => some L.round
  | .ret false => none
  | p => some p

/-- Performs a move, if it can be made; `ok` says which events may strike. -/
def move (ok : State A R E σ → E → Bool) (s : State A R E σ) :
    Move E Choice → Option (State A R E σ)
  | .own c =>
    match s.rest with
    | some (.act i k) =>
      match L.exec i c s.shared with
      | .done r w => some ⟨w, L.resume (k r), .own i r :: s.trace⟩
      | _ => none
    | _ => none
  | .env e =>
    if ok s e = true then (L.env e s.shared).map fun w => ⟨w, s.rest, .env e :: s.trace⟩
    else none

/-- The state after a list of moves. -/
def moves (ok : State A R E σ → E → Bool) (s : State A R E σ) (ms : List (Move E Choice)) :
    Option (State A R E σ) :=
  ms.foldlM (L.move ok) s

def start (w : σ) : State A R E σ := ⟨w, some L.round, []⟩

/-- The states reached from another one. -/
def Later (ok : State A R E σ → E → Bool) : State A R E σ → State A R E σ → Prop :=
  Relation.ReflTransGen fun s s' => ∃ m, L.move ok s m = some s'

/-- The states reached from the start. -/
def Run (ok : State A R E σ → E → Bool) (w : σ) (s : State A R E σ) : Prop :=
  L.Later ok (L.start w) s

/-- The thread can act. -/
def Ready (ok : State A R E σ → E → Bool) (s : State A R E σ) : Prop :=
  ∃ c s', L.move ok s (.own c) = some s'

variable {L} {ok : State A R E σ → E → Bool} {w : σ} {s s' : State A R E σ}

/-- What a move can be. -/
lemma move_cases {m : Move E Choice} (h : L.move ok s m = some s') :
    (∃ i k c r v, m = .own c ∧ s.rest = some (.act i k) ∧ L.exec i c s.shared = .done r v ∧
      s' = ⟨v, L.resume (k r), .own i r :: s.trace⟩) ∨
    ∃ e v, m = .env e ∧ ok s e = true ∧ L.env e s.shared = some v ∧
      s' = ⟨v, s.rest, .env e :: s.trace⟩ := by
  cases m with
  | own c =>
    simp only [move] at h
    split at h
    next i k hrest =>
      split at h
      next r v hexec =>
        cases h
        exact Or.inl ⟨i, k, c, r, v, rfl, hrest, hexec, rfl⟩
      next => cases h
    next => cases h
  | env e =>
    simp only [move, Option.ite_none_right_eq_some, Option.map_eq_some_iff] at h
    obtain ⟨hok, v, hv, rfl⟩ := h
    exact Or.inr ⟨e, v, rfl, hok, hv, rfl⟩

lemma ready_of_exec {i : A} {k : R i → Prog A R Empty Bool} {c : Choice} {r : R i} {v : σ}
    (hrest : s.rest = some (.act i k)) (h : L.exec i c s.shared = .done r v) : L.Ready ok s := by
  refine ⟨c, ⟨v, L.resume (k r), .own i r :: s.trace⟩, ?_⟩
  simp only [move, hrest, h]

lemma not_ready_of_blocked {i : A} {k : R i → Prog A R Empty Bool}
    (hrest : s.rest = some (.act i k)) (h : ∀ c, L.exec i c s.shared = .blocked) :
    ¬L.Ready ok s := by
  rintro ⟨c, s', hm⟩
  simp only [move, hrest, h] at hm
  cases hm

lemma moves_append (ms ms' : List (Move E Choice)) :
    L.moves ok s (ms ++ ms') = (L.moves ok s ms).bind fun s' => L.moves ok s' ms' :=
  List.foldlM_append

lemma moves_append_eq_some {ms ms' : List (Move E Choice)}
    (h : L.moves ok s (ms ++ ms') = some s') :
    ∃ s₁, L.moves ok s ms = some s₁ ∧ L.moves ok s₁ ms' = some s' := by
  rwa [moves_append, Option.bind_eq_some_iff] at h

lemma Later.moves {ms : List (Move E Choice)} (h : L.Later ok s s')
    {s'' : State A R E σ} (hms : L.moves ok s' ms = some s'') : L.Later ok s s'' := by
  induction ms generalizing s' with
  | nil => exact Option.some.inj hms ▸ h
  | cons m ms ih =>
    simp only [Loop.moves, List.foldlM_cons, Option.bind_eq_bind, Option.bind_eq_some_iff] at hms
    obtain ⟨s₁, hm, hrest⟩ := hms
    exact ih (h.tail ⟨m, hm⟩) hrest

/-- What holds at the start and is kept by every move holds in every state reached. -/
lemma Run.invariant {I : State A R E σ → Prop} (h : L.Run ok w s) (hstart : I (L.start w))
    (hmove : ∀ s s' m, I s → L.move ok s m = some s' → I s') : I s := by
  induction h with
  | refl => exact hstart
  | tail _ hm ih =>
    obtain ⟨m, hm⟩ := hm
    exact hmove _ _ _ ih hm

/-! ## Where the thread stands -/

variable (L) in
/-- After these actions, newest first, the thread stands at this program. -/
inductive Reaches : List (Σ i, R i) → Option (Prog A R Empty Bool) → Prop
  | start : Reaches [] (some L.round)
  | act {h : List (Σ i, R i)} {i : A} {k : R i → Prog A R Empty Bool} (r : R i)
      (hp : Reaches h (some (.act i k))) : Reaches (⟨i, r⟩ :: h) (L.resume (k r))

/-- The thread stands where its own actions have led it. -/
lemma Run.reaches (h : L.Run ok w s) : L.Reaches (own s.trace) s.rest := by
  refine Run.invariant (I := fun s => L.Reaches (own s.trace) s.rest) h .start
    fun s s' m ih hm => ?_
  rcases move_cases hm with ⟨i, k, c, r, v, -, hrest, -, rfl⟩ | ⟨e, v, -, -, -, rfl⟩
  · rw [hrest] at ih
    exact .act r ih
  · exact ih

/-- A thread whose round begins with an action always has an action to perform. -/
lemma Reaches.exists_act {h : List (Σ i, R i)} {p : Prog A R Empty Bool}
    (hround : ∃ i k, L.round = .act i k) (hp : L.Reaches h (some p)) : ∃ i k, p = .act i k := by
  generalize hq : some p = q at hp
  cases hp with
  | start => exact Option.some.inj hq ▸ hround
  | @act h i k r _ =>
    cases hkr : k r with
    | ret b =>
      rw [hkr] at hq
      cases b with
      | true => exact Option.some.inj hq ▸ hround
      | false => cases hq
    | act j l =>
      rw [hkr] at hq
      exact ⟨j, l, Option.some.inj hq⟩
    | fork c _ => exact c.elim

section Conforms

variable {α β : Type} (duty : A → List (Σ i, R i) → Prop)

/-- From these actions on, the program performs each further one with its duty done, and
returns with `Q`. -/
def Conforms : Prog A R Empty α → (α → List (Σ i, R i) → Prop) → List (Σ i, R i) → Prop
  | .ret b, Q, h => Q b h
  | .act i k, Q, h => duty i h ∧ ∀ r, Conforms (k r) Q (⟨i, r⟩ :: h)
  | .fork _ _, _, _ => False

variable {duty} {h : List (Σ i, R i)} {p : Option (Prog A R Empty Bool)}

@[simp] lemma conforms_pure (a : α) (Q : α → List (Σ i, R i) → Prop) :
    Conforms duty (pure a) Q h ↔ Q a h := Iff.rfl

@[simp] lemma conforms_perform (i : A) (Q : R i → List (Σ i, R i) → Prop) :
    Conforms duty (Prog.perform i) Q h ↔ duty i h ∧ ∀ r, Q r (⟨i, r⟩ :: h) := Iff.rfl

@[simp] lemma conforms_bind (q : Prog A R Empty α) (f : α → Prog A R Empty β)
    (Q : β → List (Σ i, R i) → Prop) :
    Conforms duty (q >>= f) Q h ↔ Conforms duty q (fun a => Conforms duty (f a) Q) h := by
  induction q generalizing h with
  | ret a => exact Iff.rfl
  | act i k ih => exact and_congr_right fun _ => forall_congr' fun r => ih r
  | fork c _ => exact c.elim

variable {Q : Bool → List (Σ i, R i) → Prop}

/-- The rule for loops: `Q true` at the start and after every round. -/
lemma Reaches.conforms (hround : ∀ h, Q true h → Conforms duty L.round Q h) (hstart : Q true [])
    (hp : L.Reaches h p) : p.elim (Q false h) fun p => Conforms duty p Q h := by
  induction hp with
  | start => exact hround [] hstart
  | @act h i k r _ ih =>
    have hk : Conforms duty (k r) Q (⟨i, r⟩ :: h) := ih.2 r
    cases hkr : k r with
    | ret b =>
      rw [hkr] at hk
      cases b with
      | true => exact hround _ hk
      | false => exact hk
    | act j l =>
      rw [hkr] at hk
      exact hk
    | fork c _ => exact c.elim

/-- Whatever has been done, its duty was done before. -/
lemma Reaches.duty_done (hround : ∀ h, Q true h → Conforms duty L.round Q h)
    (hstart : Q true []) (hp : L.Reaches h p) {later earlier : List (Σ i, R i)} {i : A} {r : R i}
    (heq : h = later ++ ⟨i, r⟩ :: earlier) : duty i earlier := by
  induction hp generalizing later with
  | start => exact absurd heq.symm (by simp)
  | @act h j k q hp ih =>
    cases later with
    | nil =>
      obtain ⟨hx, rfl⟩ := List.cons.inj heq
      cases hx
      exact (hp.conforms hround hstart).1
    | cons x later =>
      obtain ⟨-, rfl⟩ := List.cons.inj heq
      exact ih rfl

end Conforms

/-! ## Fair runs -/

variable (L) in
/-- An infinite run.  At any time nothing at all may happen, but a thread that can act from some
time on does act. -/
structure FairRun (ok : State A R E σ → E → Bool) (w : σ) where
  state : ℕ → State A R E σ
  start : state 0 = L.start w
  step : ∀ n, state (n + 1) = state n ∨ ∃ m, L.move ok (state n) m = some (state (n + 1))
  fair : ∀ n, (∀ m, n ≤ m → L.Ready ok (state m)) →
    ∃ m, n ≤ m ∧ ∃ c, L.move ok (state m) (.own c) = some (state (m + 1))

namespace FairRun

lemma later (r : L.FairRun ok w) {n m : ℕ} (h : n ≤ m) :
    L.Later ok (r.state n) (r.state m) := by
  induction m, h using Nat.le_induction with
  | base => exact .refl
  | succ m _ ih =>
    rcases r.step m with hsame | hm
    · rwa [hsame]
    · exact ih.tail hm

lemma run (r : L.FairRun ok w) (n : ℕ) : L.Run ok w (r.state n) := by
  have := r.later (Nat.zero_le n)
  rwa [r.start] at this

/-- A list of moves, after which the thread cannot act and nothing happens any more. -/
def ofMoves (ms : List (Move E Choice))
    (hms : ∃ s, L.moves ok (L.start w) ms = some s ∧ ¬L.Ready ok s) : L.FairRun ok w where
  state n := (L.moves ok (L.start w) (ms.take n)).getD (L.start w)
  start := rfl
  step n := by
    obtain ⟨s, hms, -⟩ := hms
    rcases Nat.lt_or_ge n ms.length with hn | hn
    · obtain ⟨s₁, h₁, h₂⟩ := moves_append_eq_some (by rwa [List.take_append_drop] :
        L.moves ok (L.start w) (ms.take n ++ ms.drop n) = some s)
      rw [List.drop_eq_getElem_cons hn, ← List.singleton_append] at h₂
      obtain ⟨s₂, h₃, -⟩ := moves_append_eq_some h₂
      have htake : L.moves ok (L.start w) (ms.take (n + 1)) = some s₂ := by
        rw [← List.take_concat_get' ms n hn, moves_append, h₁]
        exact h₃
      rw [htake, h₁]
      refine Or.inr ⟨ms[n], ?_⟩
      simpa [Loop.moves] using h₃
    · rw [List.take_of_length_le hn, List.take_of_length_le (Nat.le_succ_of_le hn)]
      exact Or.inl rfl
  fair n hready := by
    obtain ⟨s, hms, hs⟩ := hms
    have h := hready (max n ms.length) (Nat.le_max_left _ _)
    rw [List.take_of_length_le (Nat.le_max_right _ _), hms] at h
    exact absurd h hs

/-- The goal is reached: until then the thread can act, its actions bring the goal nearer, and
events do not move it further away. -/
lemma eventually (r : L.FairRun ok w) {P : ℕ → State A R E σ → Prop}
    {G : State A R E σ → Prop} (hready : ∀ k s, P k s → G s ∨ L.Ready ok s)
    (hown : ∀ k s c s', P k s → L.move ok s (.own c) = some s' → G s' ∨ ∃ j < k, P j s')
    (henv : ∀ k s e s', P k s → L.move ok s (.env e) = some s' → G s' ∨ ∃ j ≤ k, P j s')
    {n k : ℕ} (h : P k (r.state n)) : ∃ m, n ≤ m ∧ G (r.state m) := by
  induction k using Nat.strong_induction_on generalizing n with
  | _ k ih =>
    by_contra hnone
    -- as long as the bound has not gone down, it stays
    have hstay : ∀ m, n ≤ m → P k (r.state m) := by
      intro m hm
      induction m, hm using Nat.le_induction with
      | base => exact h
      | succ m hm ihm =>
        have hle : n ≤ m + 1 := Nat.le_succ_of_le hm
        have hless : ∀ j < k, ¬P j (r.state (m + 1)) := by
          intro j hj hP
          obtain ⟨m', hm', hG⟩ := ih j hj hP
          exact hnone ⟨m', hle.trans hm', hG⟩
        have hnot : ¬G (r.state (m + 1)) := fun hG => hnone ⟨m + 1, hle, hG⟩
        rcases r.step m with hsame | ⟨mv, hmv⟩
        · rwa [hsame]
        · cases mv with
          | own c =>
            obtain ⟨j, hj, hP⟩ := (hown k _ c _ ihm hmv).resolve_left hnot
            exact absurd hP (hless j hj)
          | env e =>
            obtain ⟨j, hj, hP⟩ := (henv k _ e _ ihm hmv).resolve_left hnot
            rcases Nat.lt_or_eq_of_le hj with hlt | rfl
            · exact absurd hP (hless j hlt)
            · exact hP
    obtain ⟨m, hm, c, hmv⟩ := r.fair n fun m hm =>
      (hready k _ (hstay m hm)).resolve_left fun hG => hnone ⟨m, hm, hG⟩
    rcases hown k _ c _ (hstay m hm) hmv with hG | ⟨j, hj, hP⟩
    · exact hnone ⟨m + 1, Nat.le_succ_of_le hm, hG⟩
    · obtain ⟨m', hm', hG⟩ := ih j hj hP
      exact hnone ⟨m', (Nat.le_succ_of_le hm).trans hm', hG⟩

end FairRun

end Loop

end Secmem
