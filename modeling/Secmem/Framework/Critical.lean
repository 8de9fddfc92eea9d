import Secmem.Framework.Program

/-!
# Critical sections

A mutex as programs use it, whatever it guards.  Each action has a `Use` of the mutex, and a program
that follows the automaton `mutex` takes it only while it does not have it, gives it back before it
ends, and while it has it performs only actions that never wait.  In a system of such programs
nobody waits for the mutex in vain: the thread that has it gives it back by steps of its own
(`Guards.gives_back`).
-/

namespace Secmem

/-- What an action has to do with a mutex: it takes it, gives it back, or leaves it alone.  One that
leaves it alone is brief if it never waits, and it may be barred altogether. -/
inductive Use
  | takes
  | gives
  | brief
  | other
  | barred

section Mutex

variable {A : Type} {R : A → Type} {C T Choice σ : Type} {S : System A R C T Choice σ}
  {use : A → Use} {owner : σ → Option T} {api : C → Bool} {init : σ → Prop}
  {p : Pool A R C T σ} {t : T}

/-- Whether a program has the mutex after an action, from whether it has it before. -/
def mutex (use : A → Use) (held : Bool) (i : A) : Option Bool :=
  match use i, held with
  | .takes, false => some true
  | .gives, true => some false
  | .brief, _ => some held
  | .other, false => some false
  | _, _ => none

/-- The programs of the system follow the automaton, and its actions do to the mutex, whose `owner`
is part of the state, what their use of it says. -/
structure Guards (S : System A R C T Choice σ) (use : A → Use) (owner : σ → Option T) : Prop where
  code c : (S.code c).Follows (mutex use) (fun _ held => held = false) false
  takes {t i c s r s'} : use i = .takes → S.exec t i c s = .done r s' →
    owner s = none ∧ owner s' = some t
  gives {t i c s r s'} : use i = .gives → S.exec t i c s = .done r s' → owner s' = none
  leaves {t i c s r s'} : use i = .brief ∨ use i = .other → S.exec t i c s = .done r s' →
    owner s' = owner s
  ready {i} : use i = .gives ∨ use i = .brief → ∀ t s, ∃ c r s', S.exec t i c s = .done r s'

namespace Guards

/-- A step leaves the mutex to its thread as the automaton says, and to the others as it was. -/
lemma step (hg : Guards S use owner) {i : A} {c : Choice} {s s' : σ} {r : R i} {held held' : Bool}
    (hheld : held = true ↔ owner s = some t) (hnext : mutex use held i = some held')
    (he : S.exec t i c s = .done r s') :
    (held' = true ↔ owner s' = some t) ∧
      ∀ u, u ≠ t → ∀ n : Bool, (n = true ↔ owner s = some u) → (n = true ↔ owner s' = some u) := by
  cases huse : use i <;> cases held <;> simp only [mutex, huse] at hnext <;> cases hnext
  case takes =>
    obtain ⟨hfree, hmine⟩ := hg.takes huse he
    simp [hfree, hmine, eq_comm]
  case gives =>
    rw [hg.gives huse he, hheld.mp rfl]
    simp [eq_comm]
  all_goals
    rw [hg.leaves (by simp [huse]) he]
    exact ⟨hheld, fun _ _ _ h => h⟩

variable [DecidableEq T]

/-- In every run the thread that has the mutex gives it back by steps of its own. -/
lemma gives_back (hg : Guards S use owner) (hinit : ∀ s, init s → owner s = none)
    (h : Pool.Run S api init p) (ht : owner p.state = some t) :
    ∃ cs : List Choice, ∃ p', p.moves S api (cs.map (.step t)) = some p' ∧
      owner p'.state = none := by
  obtain ⟨held, hheld, hq⟩ := h.follows (K := fun t s held => held = true ↔ owner s = some t)
    (fun c _ => hg.code c) (fun s hs t => by simp [hinit s hs]) hg.step t
  obtain rfl := hheld.mpr ht
  generalize hthread : p.thread t = q at hq
  clear h hheld
  -- by induction on what is left of the holder's program
  induction q generalizing p with
  | ret _ => cases hq
  | fork _ _ _ => exact hq.elim
  | act i k ih =>
    obtain ⟨held, hnext, hk⟩ := hq
    -- the two uses that the automaton allows it
    cases huse : use i <;> simp only [mutex, huse] at hnext <;> cases hnext
    · obtain ⟨c, r, s', he⟩ := hg.ready (.inl huse) t p.state
      refine ⟨[c], ⟨s', Function.update p.thread t (k r)⟩, ?_, hg.gives huse he⟩
      simp [Pool.moves, Pool.move, hthread, he]
    · obtain ⟨c, r, s', he⟩ := hg.ready (.inr huse) t p.state
      obtain ⟨cs, p', hms, hfree⟩ := ih r (p := ⟨s', Function.update p.thread t (k r)⟩)
        ((hg.leaves (.inl huse) he).trans ht) (Function.update_self ..) (hk r)
      refine ⟨c :: cs, p', ?_, hfree⟩
      simpa [Pool.moves, Pool.move, hthread, he] using hms

end Guards

end Mutex

end Secmem
