import Secmem.Framework.Utf8
import Mathlib.Tactic

/-!
# Writing into a slice

A writer fills a slice of fixed length from the front.  Go has two ways to put bytes there:
`copy`, which writes as much as fits, and the encoders and index assignments that need all of
their room and panic without it.  A run of writes for which the slice has room leaves the
concatenation of what they write, and that is `run_of_room`.
-/

namespace Secmem.SliceWriter

/-- One write. -/
inductive Write
  | copy (p : Bytes)
  | fixed (p : Bytes)
  deriving DecidableEq, Repr

namespace Write

def content : Write → Bytes
  | copy p => p
  | fixed p => p

end Write

/-- The bytes a run of writes amounts to. -/
def contents (ws : List Write) : Bytes := ws.flatMap Write.content

@[simp] lemma contents_nil : contents [] = [] := rfl

@[simp] lemma contents_cons (x : Write) (ws : List Write) :
    contents (x :: ws) = x.content ++ contents ws := rfl

@[simp] lemma contents_append (ws ws' : List Write) :
    contents (ws ++ ws') = contents ws ++ contents ws' := List.flatMap_append

/-- A slice, and how much of it has been written. -/
structure Writer where
  b : Bytes
  n : ℕ
  deriving DecidableEq, Repr

namespace Writer

/-- Writes `p`, as far as it fits, at the writer's place. -/
def copyAt (w : Writer) (p : Bytes) : Writer :=
  ⟨w.b.take w.n ++ p.take (w.b.length - w.n) ++ w.b.drop (w.n + p.length),
    w.n + min p.length (w.b.length - w.n)⟩

/-- One write; nothing where Go panics. -/
def put (w : Writer) : Write → Option Writer
  | .copy p => if w.b.length < w.n then none else some (w.copyAt p)
  | .fixed p => if w.b.length < w.n + p.length then none else some (w.copyAt p)

def run (w : Writer) (ws : List Write) : Option Writer := ws.foldlM put w

variable {rest : Bytes}

lemma copyAt_of_room (out : Bytes) {p : Bytes} (h : p.length ≤ rest.length) :
    copyAt ⟨out ++ rest, out.length⟩ p =
      ⟨(out ++ p) ++ rest.drop p.length, (out ++ p).length⟩ := by
  have hroom : out.length + rest.length - out.length = rest.length := by omega
  have hdrop : (out ++ rest).drop (out.length + p.length) = rest.drop p.length := by
    rw [List.drop_append, List.drop_eq_nil_of_le (by omega), List.nil_append]
    congr 1
    omega
  simp only [copyAt, hdrop, List.length_append, hroom, List.take_left, List.take_of_length_le h,
    min_eq_left h]

lemma put_of_room (out : Bytes) {x : Write} (h : x.content.length ≤ rest.length) :
    put ⟨out ++ rest, out.length⟩ x =
      some ⟨(out ++ x.content) ++ rest.drop x.content.length, (out ++ x.content).length⟩ := by
  cases x with
  | copy p =>
    rw [put, if_neg (by simp)]
    exact congrArg some (copyAt_of_room out h)
  | fixed p =>
    have hp : p.length ≤ rest.length := h
    rw [put, if_neg]
    · exact congrArg some (copyAt_of_room out h)
    · change ¬ (out ++ rest).length < out.length + p.length
      rw [List.length_append]
      omega

/-- A run of writes that has room writes all of it. -/
lemma run_of_room (out : Bytes) {ws : List Write} (h : (contents ws).length ≤ rest.length) :
    run ⟨out ++ rest, out.length⟩ ws =
      some ⟨(out ++ contents ws) ++ rest.drop (contents ws).length,
        (out ++ contents ws).length⟩ := by
  induction ws generalizing out rest with
  | nil => simp [run, contents]
  | cons x ws ih =>
    have hcons : contents (x :: ws) = x.content ++ contents ws := rfl
    rw [hcons, List.length_append] at h
    have hrest : (contents ws).length ≤ (rest.drop x.content.length).length := by
      rw [List.length_drop]
      omega
    have hstep : run ⟨out ++ rest, out.length⟩ (x :: ws) =
        run ⟨(out ++ x.content) ++ rest.drop x.content.length, (out ++ x.content).length⟩ ws := by
      rw [run, List.foldlM_cons, put_of_room out (by omega)]
      rfl
    rw [hstep, ih (out ++ x.content) hrest, hcons, List.drop_drop, List.append_assoc out,
      ← List.length_append]

/-- A slice of exactly the right length is filled. -/
lemma run_fill {b : Bytes} {ws : List Write} (h : (contents ws).length = b.length) :
    run ⟨b, 0⟩ ws = some ⟨contents ws, b.length⟩ := by
  have hrun := run_of_room [] h.le
  rw [List.nil_append, List.nil_append, h, List.drop_length, List.append_nil] at hrun
  exact hrun

end Writer

end Secmem.SliceWriter
