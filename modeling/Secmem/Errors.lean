import Mathlib.Data.Nat.Notation
import Mathlib.Tactic.Lemma

/-!
# Errors

The sentinels of `errors.go`, with their texts, and the ways the package builds errors from
them: `errors.New`, `fmt.Errorf` with one or two `%w` verbs, and `errors.Join`.  `GoErr.is` is
`errors.Is` against a sentinel; note that `ErrWiped` wraps `ErrDestroyed`.
-/

namespace Secmem

/-- The error values that callers compare against: the package's, and `io`'s two. -/
inductive Sentinel
  | errDestroyed
  | errWiped
  | errSealed
  | errReadOnly
  | errArenaFull
  | errSlotReleased
  | errNoSecureMemory
  | errIntegrity
  | errCanaryViolation
  | errWipeSkipped
  | errJanitorKeyCollision
  | eof
  | unexpectedEOF
  deriving DecidableEq, Repr

def Sentinel.text : Sentinel → String
  | errDestroyed => "secmem: secure memory has been destroyed"
  | errWiped => "secmem: buffer was emergency-wiped by WipeAllSecrets and cannot be reused: " ++
      "secmem: secure memory has been destroyed"
  | errSealed => "secmem: secure buffer is sealed"
  | errReadOnly => "secmem: secure buffer is read-only — call ReadWrite before mutating"
  | errArenaFull => "secmem: secure arena is full — no free slots"
  | errSlotReleased => "secmem: arena slot has been released"
  | errNoSecureMemory => "secmem: no lockable off-heap memory on this platform — refusing the " ++
      "unprotected heap (opt in with WithInsecureFallback)"
  | errIntegrity => "secmem: integrity failure — the sealed contents changed while dormant; " ++
      "buffer stays sealed"
  | errCanaryViolation => "secmem: canary violation — memory adjacent to a secret was " ++
      "overwritten (out-of-bounds write bug in this process)"
  | errWipeSkipped => "secmem: janitor: write access could not be restored; region left as it " ++
      "was, unwiped"
  | errJanitorKeyCollision => "secmem: janitor key space exhausted (registration identity " ++
      "collision)"
  | eof => "EOF"
  | unexpectedEOF => "unexpected EOF"

/-- `errors.Is` between sentinels: equal, or the one wraps the other. -/
def Sentinel.is (e target : Sentinel) : Bool :=
  e = target || (e = .errWiped && target = .errDestroyed)

/-- The errors the package returns.  `os n` stands for an error of the platform or of a
caller's callback, about which nothing is known but its identity. -/
inductive GoErr
  | sentinel (e : Sentinel)
  | os (n : ℕ)
  | new (text : String)
  | wrap (before : String) (e : GoErr)
  | wrapTwo (before : String) (e₁ : GoErr) (between : String) (e₂ : GoErr) (after : String)
  | join (e₁ e₂ : GoErr)
  deriving DecidableEq, Repr

namespace GoErr

/-- `errors.Is` against a sentinel. -/
def is : GoErr → Sentinel → Bool
  | sentinel e, t => e.is t
  | os _, _ => false
  | new _, _ => false
  | wrap _ e, t => e.is t
  | wrapTwo _ e₁ _ e₂ _, t => e₁.is t || e₂.is t
  | join e₁ e₂, t => e₁.is t || e₂.is t

/-- `Error()`. -/
def text : GoErr → String
  | sentinel e => e.text
  | os n => "errno " ++ toString n
  | new t => t
  | wrap b e => b ++ e.text
  | wrapTwo b e₁ m e₂ a => b ++ e₁.text ++ m ++ e₂.text ++ a
  | join e₁ e₂ => e₁.text ++ "\n" ++ e₂.text

/-- `errors.Join` of two possibly nil errors. -/
def joinOpt : Option GoErr → Option GoErr → Option GoErr
  | none, e => e
  | e, none => e
  | some e₁, some e₂ => some (join e₁ e₂)

instance : Coe Sentinel GoErr := ⟨sentinel⟩

@[simp] lemma joinOpt_none (e : Option GoErr) : joinOpt e none = e := by
  cases e <;> rfl

@[simp] lemma none_joinOpt (e : Option GoErr) : joinOpt none e = e := rfl

end GoErr

end Secmem
