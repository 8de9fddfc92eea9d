import Mathlib.Data.Nat.Notation
import Mathlib.Data.UInt
import Mathlib.Tactic.Lemma

/-!
# Page protection and bytes

The three protections the package asks for, and reading and writing the bytes of a mapping.
-/

namespace Secmem

/-- `mprotectSecretMem`'s argument: `PROT_NONE`, `PROT_READ`, `PROT_READ|PROT_WRITE`. -/
inductive Prot
  | none
  | read
  | readWrite
  deriving DecidableEq, Repr

namespace Prot

def readable : Prot → Bool
  | none => false
  | _ => true

def writable : Prot → Bool
  | readWrite => true
  | _ => false

lemma eq_readWrite {p : Prot} (h : p.writable = true) : p = readWrite := by
  cases p <;> first | rfl | cases h

end Prot

/-- `secureWipeSlice` on a whole region. -/
def wipeBytes (b : List UInt8) : List UInt8 := List.replicate b.length 0

@[simp] lemma length_wipeBytes (b : List UInt8) : (wipeBytes b).length = b.length :=
  List.length_replicate

lemma getElem?_wipeBytes {b : List UInt8} {a : ℕ} (h : a < b.length) :
    (wipeBytes b)[a]? = some 0 := by
  rw [wipeBytes, List.getElem?_replicate, if_pos h]

end Secmem
