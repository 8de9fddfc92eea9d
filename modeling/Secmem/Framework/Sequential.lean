import Secmem.Framework.Program

/-!
# Programs run alone

`Prog.Ensures` is the weakest precondition of a program that one thread runs with nobody else
about: whatever the choices that `ok` admits, the program does not block, it returns under the
postcondition, and if an access faults then `crash` holds.  With `crash` false this is total
correctness.

`Prog.run_of_ensures` carries a judgement over to `Prog.run` with any stream of choices.
-/

namespace Secmem

variable {A : Type} {R : A → Type} {C T Choice σ α β : Type}

/-- What is required of an outcome: a result must satisfy `Q`, a fault is allowed if `crash`
holds, and there must not be a block. -/
def Outcome.Post (crash : Prop) (Q : α → σ → Prop) : Outcome σ α → Prop
  | .done a s => Q a s
  | .fault => crash
  | .blocked => False

@[simp] lemma Outcome.post_done (crash : Prop) (Q : α → σ → Prop) (a : α) (s : σ) :
    (Outcome.done a s).Post crash Q ↔ Q a s := Iff.rfl

namespace Prog

/-- From the given state, thread `t` runs the program alone to the postcondition. -/
def Ensures (S : System A R C T Choice σ) (t : T) (ok : Choice → Prop) (crash : Prop) :
    Prog A R C α → (α → σ → Prop) → σ → Prop
  | .ret a, Q, s => Q a s
  | .act i k, Q, s => ∀ c, ok c →
      (S.exec t i c s).Post crash fun r s' => (k r).Ensures S t ok crash Q s'
  | .fork _ _, _, _ => False

variable {S : System A R C T Choice σ} {t : T} {ok : Choice → Prop} {crash : Prop}

@[simp] lemma ensures_ret (a : α) (Q : α → σ → Prop) (s : σ) :
    (Prog.ret a : Prog A R C α).Ensures S t ok crash Q s ↔ Q a s := Iff.rfl

lemma Ensures.mono {p : Prog A R C α} {Q Q' : α → σ → Prop} {s : σ}
    (h : p.Ensures S t ok crash Q s) (hQ : ∀ a s, Q a s → Q' a s) :
    p.Ensures S t ok crash Q' s := by
  induction p generalizing s with
  | ret a => exact hQ a s h
  | act i k ih =>
    intro c hc
    have hstep := h c hc
    cases hexec : S.exec t i c s with
    | done r s' =>
      rw [hexec] at hstep
      exact ih r hstep
    | fault =>
      rw [hexec] at hstep
      exact hstep
    | blocked =>
      rw [hexec] at hstep
      exact hstep
  | fork c k _ => exact h

/-- Two postconditions of one program have an outcome in common. -/
lemma Ensures.exists_common {p : Prog A R C α} {Q Q' : α → σ → Prop} {s : σ} (hok : ∃ c, ok c)
    (h : p.Ensures S t ok False Q s) (h' : p.Ensures S t ok False Q' s) :
    ∃ a s', Q a s' ∧ Q' a s' := by
  induction p generalizing s with
  | ret a => exact ⟨a, s, h, h'⟩
  | act i k ih =>
    obtain ⟨c, hc⟩ := hok
    have hstep := h c hc
    have hstep' := h' c hc
    cases hexec : S.exec t i c s with
    | done r s' =>
      rw [hexec] at hstep hstep'
      exact ih r hstep hstep'
    | fault =>
      rw [hexec] at hstep
      exact hstep.elim
    | blocked =>
      rw [hexec] at hstep
      exact hstep.elim
  | fork _ _ => exact h.elim

lemma ensures_bind (p : Prog A R C α) (f : α → Prog A R C β) (Q : β → σ → Prop)
    (s : σ) :
    (p >>= f).Ensures S t ok crash Q s ↔
      p.Ensures S t ok crash (fun a s' => (f a).Ensures S t ok crash Q s') s := by
  induction p generalizing s with
  | ret a => exact Iff.rfl
  | act i k ih =>
    refine forall_congr' fun c => forall_congr' fun _ => ?_
    cases S.exec t i c s with
    | done r s' => exact ih r s'
    | fault => exact Iff.rfl
    | blocked => exact Iff.rfl
  | fork c k _ => exact Iff.rfl

lemma ensures_map (p : Prog A R C α) (f : α → β) (Q : β → σ → Prop) (s : σ) :
    (f <$> p).Ensures S t ok crash Q s ↔
      p.Ensures S t ok crash (fun a s' => Q (f a) s') s :=
  ensures_bind p (fun a => .ret (f a)) Q s

/-- What a judgement says about the run with a given stream of choices. -/
lemma run_of_ensures {p : Prog A R C α} {Q : α → σ → Prop} {s : σ}
    (h : p.Ensures S t ok crash Q s) {pick : ℕ → Choice} (hpick : ∀ n, ok (pick n)) (n : ℕ) :
    (∃ a n' s', p.run S t pick n s = .done (a, n') s' ∧ Q a s') ∨
      p.run S t pick n s = .fault ∧ crash := by
  induction p generalizing s n with
  | ret a => exact Or.inl ⟨a, n, s, rfl, h⟩
  | act i k ih =>
    have hstep := h (pick n) (hpick n)
    rw [run_act]
    cases hexec : S.exec t i (pick n) s with
    | done r s' =>
      rw [hexec] at hstep
      exact ih r hstep (n + 1)
    | fault =>
      rw [hexec] at hstep
      exact Or.inr ⟨rfl, hstep⟩
    | blocked =>
      rw [hexec] at hstep
      exact hstep.elim
  | fork c k _ => exact h.elim

end Prog

end Secmem
