import Secmem.Framework.Program

/-!
# Rely–guarantee reasoning about pools

A `Discipline` says how the threads of a pool get along.  `Inv` holds of the shared state at
all times; `Rely t` bounds what the threads other than `t` may do to it; `Safe t i` is what
thread `t` must know before it performs the action `i`.  The one obligation, `keeps`, is that a
safe action preserves the invariant and stays within what the other threads rely on.

`wp` is the weakest precondition of a program under a discipline: interference may strike
before every action.  `Triple` packages it for stable preconditions, with one rule for each
construct, and `Discipline.sound` turns triples about the programs of a system into facts about
every reachable pool: the invariant holds, and whatever action a thread is about to perform is
safe.
-/

namespace Secmem

open Function

/-! ## Tokens -/

section Tokens

variable {ι T : Type} {t u : T}

lemma ne_some_of_ne {o : Option T} (h : o = some t) (hu : u ≠ t) : o ≠ some u := by
  rintro rfl
  exact hu (Option.some.inj h)

/-- What one thread does to an entry that is not another's, the other does not see. -/
lemma update_eq_some_iff [DecidableEq ι] {f : ι → Option T} {i : ι} {v : Option T}
    (hi : f i ≠ some u) (hv : v ≠ some u) (j : ι) : update f i v j = some u ↔ f j = some u := by
  by_cases h : j = i
  · subst h
    rw [update_self]
    exact ⟨fun h => absurd h hv, fun h => absurd h hi⟩
  · rw [update_of_ne h]

end Tokens

/-! ## Disciplines -/

section Discipline

variable {A : Type} {R : A → Type} {C T Choice σ : Type}

/-- The terms on which the threads of a pool share its state. -/
structure Discipline (S : System A R C T Choice σ) where
  Inv : σ → Prop
  Rely : T → σ → σ → Prop
  Safe : T → A → σ → Prop
  rely_refl : ∀ t s, Rely t s s
  rely_trans : ∀ {t s₁ s₂ s₃}, Rely t s₁ s₂ → Rely t s₂ s₃ → Rely t s₁ s₃
  keeps : ∀ {t i c s r s'}, Inv s → Safe t i s → S.exec t i c s = .done r s' →
    Inv s' ∧ ∀ u, u ≠ t → Rely u s s'

variable {S : System A R C T Choice σ} {α β : Type}

namespace Discipline

variable (D : Discipline S)

/-- From `s`, under interference, thread `t` runs the program performing only safe actions and
forking only programs whose precondition holds, and if it returns the postcondition holds. -/
def wp (Pre : C → σ → Prop) (t : T) : Prog A R C α → (α → σ → Prop) → σ → Prop
  | .ret a, Q, s => Q a s
  | .act i k, Q, s => ∀ s₁, D.Rely t s s₁ → D.Inv s₁ → D.Safe t i s₁ ∧
      ∀ c r s₂, S.exec t i c s₁ = .done r s₂ → wp Pre t (k r) Q s₂
  | .fork c k, Q, s => ∀ s₁, D.Rely t s s₁ → D.Inv s₁ → Pre c s₁ ∧ wp Pre t k Q s₁

variable {D} {Pre : C → σ → Prop} {t : T}

lemma wp_mono {p : Prog A R C α} {Q Q' : α → σ → Prop} (hQ : ∀ a s, Q a s → Q' a s) {s : σ}
    (h : D.wp Pre t p Q s) : D.wp Pre t p Q' s := by
  induction p generalizing s with
  | ret a => exact hQ a s h
  | act i k ih =>
    intro s₁ hr hi
    obtain ⟨hsafe, hk⟩ := h s₁ hr hi
    exact ⟨hsafe, fun c r s₂ he => ih r (hk c r s₂ he)⟩
  | fork c k ih =>
    intro s₁ hr hi
    obtain ⟨hpre, hk⟩ := h s₁ hr hi
    exact ⟨hpre, ih hk⟩

lemma wp_bind {p : Prog A R C α} {f : α → Prog A R C β} {Q : β → σ → Prop} {s : σ}
    (h : D.wp Pre t p (fun a s => D.wp Pre t (f a) Q s) s) : D.wp Pre t (p >>= f) Q s := by
  induction p generalizing s with
  | ret a => exact h
  | act i k ih =>
    intro s₁ hr hi
    obtain ⟨hsafe, hk⟩ := h s₁ hr hi
    exact ⟨hsafe, fun c r s₂ he => ih r (hk c r s₂ he)⟩
  | fork c k ih =>
    intro s₁ hr hi
    obtain ⟨hpre, hk⟩ := h s₁ hr hi
    exact ⟨hpre, ih hk⟩

/-- A program that starts under the invariant returns under it. -/
lemma wp_inv {p : Prog A R C α} {Q : α → σ → Prop} {s : σ} (hinv : D.Inv s)
    (h : D.wp Pre t p Q s) : D.wp Pre t p (fun a s => D.Inv s ∧ Q a s) s := by
  induction p generalizing s with
  | ret a => exact ⟨hinv, h⟩
  | act i k ih =>
    intro s₁ hr hi
    obtain ⟨hsafe, hk⟩ := h s₁ hr hi
    exact ⟨hsafe, fun c r s₂ he => ih r (D.keeps hi hsafe he).1 (hk c r s₂ he)⟩
  | fork c k ih =>
    intro s₁ hr hi
    obtain ⟨hpre, hk⟩ := h s₁ hr hi
    exact ⟨hpre, ih hi hk⟩

variable (D Pre t)

/-- An assertion of thread `t` that the other threads cannot invalidate. -/
def Stable (P : σ → Prop) : Prop :=
  ∀ s s', D.Inv s' → D.Rely t s s' → P s → P s'

/-- The program runs from every state that satisfies the invariant and the precondition. -/
def Triple (P : σ → Prop) (p : Prog A R C α) (Q : α → σ → Prop) : Prop :=
  ∀ s, D.Inv s → P s → D.wp Pre t p Q s

variable {D Pre t} {P P' : σ → Prop} {p : Prog A R C α} {Q Q' : α → σ → Prop}

lemma Triple.ret {a : α} (h : ∀ s, D.Inv s → P s → Q a s) :
    D.Triple Pre t P (.ret a) Q := h

/-- A program that returns with nothing to establish. -/
lemma Triple.done {a : α} : D.Triple Pre t P (.ret a) fun _ _ => True := fun _ _ _ => trivial

/-- The rule of an action: under a stable precondition that makes it safe, the rest of the
program starts from what the action establishes. -/
lemma Triple.act {i : A} {k : R i → Prog A R C α}
    (P' : R i → σ → Prop) (hstable : D.Stable t P) (hsafe : ∀ s, D.Inv s → P s → D.Safe t i s)
    (hpost : ∀ s c r s', D.Inv s → P s → S.exec t i c s = .done r s' → D.Inv s' → P' r s')
    (hrest : ∀ r, D.Triple Pre t (P' r) (k r) Q) : D.Triple Pre t P (.act i k) Q := by
  intro s hinv hP s₁ hrely hinv₁
  have hP₁ := hstable s s₁ hinv₁ hrely hP
  have hs := hsafe s₁ hinv₁ hP₁
  refine ⟨hs, fun c r s₂ he => ?_⟩
  have hinv₂ := (D.keeps hinv₁ hs he).1
  exact hrest r s₂ hinv₂ (hpost s₁ c r s₂ hinv₁ hP₁ he hinv₂)

/-- The rule of an action in a sequence of statements. -/
lemma Triple.perform {i : A} {f : R i → Prog A R C α}
    (P' : R i → σ → Prop) (hstable : D.Stable t P) (hsafe : ∀ s, D.Inv s → P s → D.Safe t i s)
    (hpost : ∀ s c r s', D.Inv s → P s → S.exec t i c s = .done r s' → D.Inv s' → P' r s')
    (hrest : ∀ r, D.Triple Pre t (P' r) (f r) Q) :
    D.Triple Pre t P (Prog.perform i >>= f) Q :=
  Triple.act P' hstable hsafe hpost hrest

/-- The rule of an action whose effect the rest of the program does not rely on. -/
lemma Triple.forget {i : A} {f : R i → Prog A R C α} (hstable : D.Stable t P)
    (hsafe : ∀ s, D.Inv s → P s → D.Safe t i s)
    (hrest : ∀ r, D.Triple Pre t (fun _ => True) (f r) Q) :
    D.Triple Pre t P (Prog.perform i >>= f) Q :=
  Triple.act (fun _ _ => True) hstable hsafe (fun _ _ _ _ _ _ _ _ => trivial) hrest

/-- The rule of an action that changes nothing. -/
lemma Triple.look {i : A} {f : R i → Prog A R C α} (hstable : D.Stable t P)
    (hsafe : ∀ s, D.Inv s → P s → D.Safe t i s)
    (hsame : ∀ s c r s', S.exec t i c s = .done r s' → s' = s)
    (hrest : ∀ r, D.Triple Pre t P (f r) Q) : D.Triple Pre t P (Prog.perform i >>= f) Q :=
  Triple.act (fun _ => P) hstable hsafe (fun s c r s' _ hP he _ => hsame s c r s' he ▸ hP) hrest

/-- The rule of an action at the end of a program. -/
lemma Triple.last {i : A} {Q : R i → σ → Prop} (hstable : D.Stable t P)
    (hsafe : ∀ s, D.Inv s → P s → D.Safe t i s)
    (hpost : ∀ s c r s', D.Inv s → P s → S.exec t i c s = .done r s' → D.Inv s' → Q r s') :
    D.Triple Pre t P (Prog.perform i) Q :=
  Triple.act (fun r s => Q r s) hstable hsafe hpost fun _ => Triple.ret fun _ _ h => h

/-- An existential precondition can be opened. -/
lemma Triple.exists {ι : Sort*} {P : ι → σ → Prop}
    (h : ∀ x, D.Triple Pre t (P x) p Q) : D.Triple Pre t (fun s => ∃ x, P x s) p Q :=
  fun s hinv ⟨x, hx⟩ => h x s hinv hx

/-- The part of a precondition that does not mention the state is a hypothesis. -/
lemma Triple.given {φ : Prop}
    (h : φ → D.Triple Pre t P p Q) : D.Triple Pre t (fun s => φ ∧ P s) p Q :=
  fun s hinv hs => h hs.1 s hinv hs.2

/-- What the invariant and the precondition imply about values is a hypothesis. -/
lemma Triple.because {φ : Prop}
    (hφ : ∀ s, D.Inv s → P s → φ) (h : φ → D.Triple Pre t P p Q) : D.Triple Pre t P p Q :=
  fun s hinv hs => h (hφ s hinv hs) s hinv hs

/-- Sequential composition, through an intermediate assertion. -/
lemma Triple.seq {f : α → Prog A R C β} {M : α → σ → Prop}
    {Q : β → σ → Prop} (hp : D.Triple Pre t P p M)
    (hf : ∀ a, D.Triple Pre t (M a) (f a) Q) : D.Triple Pre t P (p >>= f) Q :=
  fun s hinv hP =>
    wp_bind (wp_mono (fun a s h => hf a s h.1 h.2) (wp_inv hinv (hp s hinv hP)))

lemma Triple.pre (h : D.Triple Pre t P p Q) (hP : ∀ s, D.Inv s → P' s → P s) :
    D.Triple Pre t P' p Q :=
  fun s hinv hs => h s hinv (hP s hinv hs)

lemma Triple.post (h : D.Triple Pre t P p Q) (hQ : ∀ a s, Q a s → Q' a s) :
    D.Triple Pre t P p Q' :=
  fun s hinv hs => wp_mono hQ (h s hinv hs)

lemma Stable.and (h : D.Stable t P) (h' : D.Stable t P') :
    D.Stable t fun s => P s ∧ P' s :=
  fun s s' hinv hr hs => ⟨h s s' hinv hr hs.1, h' s s' hinv hr hs.2⟩

lemma Stable.const (p : Prop) : D.Stable t fun _ => p :=
  fun _ _ _ _ h => h

/-! ## Soundness -/

variable [DecidableEq T]

/-- What is true of a pool whose threads all keep to the discipline; `Idle t` is what thread `t`
leaves behind when it has nothing left to do. -/
def Keeps (D : Discipline S) (Pre : C → σ → Prop) (Idle : T → σ → Prop)
    (p : Pool A R C T σ) : Prop :=
  D.Inv p.state ∧
    ∀ t, ∃ s, D.Rely t s p.state ∧ D.wp Pre t (p.thread t) (fun _ s => Idle t s) s

/-- Every program meets its triple when a thread starts it, and the thread ends idle. -/
structure Outlined (D : Discipline S) (Pre : C → σ → Prop) (Idle : T → σ → Prop)
    (api : C → Bool) : Prop where
  idle : ∀ t, D.Stable t (Idle t)
  code : ∀ t c, D.Triple Pre t (fun s => Idle t s ∧ Pre c s) (S.code c) fun _ s => Idle t s
  api : ∀ c s, api c = true → D.Inv s → Pre c s

section Keeps

variable {Idle : T → σ → Prop} {api : C → Bool} {p p' : Pool A R C T σ}

omit [DecidableEq T] in
lemma Keeps.safe {t : T} {i : A} {k : R i → Prog A R C Unit} (hk : Keeps D Pre Idle p)
    (hact : p.thread t = .act i k) : D.Safe t i p.state := by
  obtain ⟨s, hrely, hwp⟩ := hk.2 t
  rw [hact] at hwp
  exact (hwp p.state hrely hk.1).1

omit [DecidableEq T] in
/-- A thread that has nothing left to do is idle. -/
lemma Keeps.idle {t : T} {a : Unit} (hout : Outlined D Pre Idle api) (hk : Keeps D Pre Idle p)
    (hret : p.thread t = .ret a) : Idle t p.state := by
  obtain ⟨s, hrely, hwp⟩ := hk.2 t
  rw [hret] at hwp
  exact hout.idle t s p.state hk.1 hrely hwp

/-- Every reachable pool keeps to the discipline. -/
lemma Outlined.keeps {init : σ → Prop} (hout : Outlined D Pre Idle api)
    (hinit : ∀ s, init s → D.Inv s ∧ ∀ t, Idle t s) (h : Pool.Run S api init p) :
    Keeps D Pre Idle p := by
  refine h.threads (J := fun t s' q =>
    ∃ s, D.Rely t s s' ∧ D.wp Pre t q (fun _ s => Idle t s) s) ?_ ?_ ?_ ?_
  · exact fun s hs => (hinit s hs).imp_right fun hidle t => ⟨s, D.rely_refl _ _, hidle t⟩
  · rintro t s c a hinv hc ⟨s₀, hrely, hidle⟩
    exact ⟨s, D.rely_refl _ _, hout.code t c s hinv
      ⟨hout.idle t s₀ s hinv hrely hidle, hout.api c s hc hinv⟩⟩
  · rintro t i k c s r s' hinv ⟨s₀, hrely, hwp⟩ he
    obtain ⟨hsafe, hk⟩ := hwp s hrely hinv
    obtain ⟨hinv', hguar⟩ := D.keeps hinv hsafe he
    refine ⟨hinv', ⟨s', D.rely_refl _ _, hk c r s' he⟩, ?_⟩
    rintro u hu q ⟨s₁, hr₁, hw₁⟩
    exact ⟨s₁, D.rely_trans hr₁ (hguar u hu), hw₁⟩
  · rintro t u s c k a hinv ⟨s₀, hrely, hwp⟩ ⟨s₁, hrely₁, hidle⟩
    obtain ⟨hpre, hk⟩ := hwp s hrely hinv
    exact ⟨⟨s, D.rely_refl _ _, hk⟩, s, D.rely_refl _ _, hout.code u c s hinv
      ⟨hout.idle u s₁ s hinv hrely₁ hidle, hpre⟩⟩

omit [DecidableEq T] in
/-- The triples of a system whose threads leave nothing behind. -/
lemma outlined (hcode : ∀ t c, D.Triple Pre t (Pre c) (S.code c) fun _ _ => True)
    (hapi : ∀ c s, api c = true → D.Inv s → Pre c s) :
    Outlined D Pre (fun _ _ => True) api where
  idle _ := Stable.const True
  code t c := (hcode t c).pre fun _ _ h => h.2
  api := hapi

end Keeps

/-- Soundness: if every program of the system meets its triple, every reachable pool satisfies
the invariant, and every action a thread is about to perform is safe. -/
lemma sound {api : C → Bool} {init : σ → Prop} {p : Pool A R C T σ}
    (hcode : ∀ t c, D.Triple Pre t (Pre c) (S.code c) fun _ _ => True)
    (hapi : ∀ c s, api c = true → D.Inv s → Pre c s) (hinit : ∀ s, init s → D.Inv s)
    (h : Pool.Run S api init p) :
    D.Inv p.state ∧ ∀ t i k, p.thread t = .act i k → D.Safe t i p.state := by
  have hk := (outlined hcode hapi).keeps (fun s hs => ⟨hinit s hs, fun _ => trivial⟩) h
  exact ⟨hk.1, fun t i k hact => hk.safe hact⟩

/-- A further invariant of the runs whose programs follow an automaton: each action that it allows
keeps it, where the discipline holds and the action is safe. -/
lemma invariant {api : C → Bool} {init : σ → Prop} {p : Pool A R C T σ} {I : σ → Prop}
    {M : Type} {δ : M → A → Option M} {idle : M}
    (hcode : ∀ t c, D.Triple Pre t (Pre c) (S.code c) fun _ _ => True)
    (hapi : ∀ c s, api c = true → D.Inv s → Pre c s) (hinit : ∀ s, init s → D.Inv s ∧ I s)
    (hfollows : ∀ c, api c = true → (S.code c).Follows δ (fun _ m => m = idle) idle)
    (hstep : ∀ {t i c s r s' m m'}, D.Inv s → D.Safe t i s → δ m i = some m' → I s →
      S.exec t i c s = .done r s' → I s')
    (h : Pool.Run S api init p) : I p.state := by
  refine (Reachable.invariant (I := fun p => Pool.Run S api init p ∧ I p.state) ?_ ?_ h).2
  · exact fun p hp => ⟨.start hp, (hinit _ hp.1).2⟩
  · rintro p p' ⟨hrun, hI⟩ ⟨m, hm⟩
    refine ⟨hrun.tail ⟨m, hm⟩, ?_⟩
    rcases Pool.move_cases hm with ⟨t, c, -, rfl, -⟩ | ⟨t, c, i, k, r, s, hact, hexec, rfl⟩ |
      ⟨t, u, c, k, -, -, rfl, -⟩
    · exact hI
    · obtain ⟨hinv, hsafe⟩ := sound hcode hapi (fun s hs => (hinit s hs).1) hrun
      obtain ⟨m, -, hm⟩ := hrun.follows (K := fun _ _ _ => True) hfollows (fun _ _ _ => trivial)
        (fun _ _ _ => ⟨trivial, fun _ _ _ _ => trivial⟩) t
      rw [hact] at hm
      obtain ⟨m', hnext, -⟩ := hm
      exact hstep hinv (hsafe t i k hact) hnext hI hexec
    · exact hI

end Discipline

end Discipline

end Secmem
