import Mathlib.Data.List.Basic
import Mathlib.Tactic.Lemma

/-!
# Reader-writer locks, abstractly

What the users of a reader-writer lock reason about: who holds it exclusively and who shares
it.  The exclusion is part of the type, so that no operation has to re-establish it.
-/

namespace Secmem

/-- A reader-writer lock: its exclusive holder, or the threads that share it. -/
structure RWLock (T : Type) where
  writer : Option T
  readers : List T
  excl : writer ≠ none → readers = []

namespace RWLock

variable {T : Type}

/-- The lock nobody holds. -/
def free : RWLock T := ⟨none, [], fun h => (h rfl).elim⟩

/-- Shares the lock with `t`; refused while it is held exclusively. -/
def rLock (l : RWLock T) (t : T) : Option (RWLock T) :=
  if l.writer = none then some ⟨none, t :: l.readers, fun h => (h rfl).elim⟩ else none

/-- Gives the lock to `t` exclusively; refused while anybody holds it. -/
def lock (l : RWLock T) (t : T) : Option (RWLock T) :=
  if l.writer = none ∧ l.readers = [] then some ⟨some t, [], fun _ => rfl⟩ else none

def unlock (l : RWLock T) : RWLock T := ⟨none, l.readers, fun h => (h rfl).elim⟩

variable [DecidableEq T]

def rUnlock (l : RWLock T) (t : T) : RWLock T :=
  ⟨l.writer, l.readers.erase t, fun h => by rw [l.excl h]; rfl⟩

omit [DecidableEq T] in
lemma rLock_eq {l l' : RWLock T} {t : T} (h : l.rLock t = some l') :
    l.writer = none ∧ l'.writer = none ∧ l'.readers = t :: l.readers := by
  unfold rLock at h
  split at h <;> cases h
  next hw => exact ⟨hw, rfl, rfl⟩

omit [DecidableEq T] in
lemma lock_eq {l l' : RWLock T} {t : T} (h : l.lock t = some l') :
    l.writer = none ∧ l.readers = [] ∧ l'.writer = some t ∧ l'.readers = [] := by
  unfold lock at h
  split at h <;> cases h
  next hw => exact ⟨hw.1, hw.2, rfl, rfl⟩

omit [DecidableEq T] in
lemma not_reader_of_writer {l : RWLock T} {t u : T} (h : l.writer = some t) :
    u ∉ l.readers := by
  rw [l.excl (by rw [h]; exact Option.some_ne_none t)]
  exact List.not_mem_nil

end RWLock

end Secmem
