import Secmem.Framework.Utf8
import Mathlib.Tactic

/-!
# Streams that hold back their last block

A hash that treats the last block of its message differently must not process a full block until
more input arrives.  `Held` describes where such a stream stands: the blocks before the last one
have been processed, and the last one, possibly full, is waiting.  How the input was cut into pieces
does not show in it, which is `Held.eq`.
-/

namespace Secmem

variable {σ : Type} {size : ℕ} {step : σ → Bytes → σ} {s s₀ : σ} {msg last p : Bytes}

/-- The first `n` blocks of a string, one after the other. -/
def runBlocks (size : ℕ) (step : σ → Bytes → σ) : (n : ℕ) → σ → Bytes → σ
  | 0, s, _ => s
  | n + 1, s, bs => runBlocks size step n (step s (bs.take size)) (bs.drop size)

/-- What stands after the blocks does not matter. -/
lemma runBlocks_append {n : ℕ} {bs : Bytes} (h : n * size ≤ bs.length) (s : σ) (cs : Bytes) :
    runBlocks size step n s (bs ++ cs) = runBlocks size step n s bs := by
  induction n generalizing s bs with
  | zero => rfl
  | succ n ih =>
    rw [Nat.succ_mul] at h
    rw [runBlocks, runBlocks, List.take_append_of_le_length (by omega),
      List.drop_append_of_le_length (by omega), ih (by rw [List.length_drop]; omega)]

lemma runBlocks_succ {n : ℕ} {bs : Bytes} (h : bs.length = n * size) (s : σ) {b : Bytes}
    (hb : b.length = size) :
    runBlocks size step (n + 1) s (bs ++ b) = step (runBlocks size step n s bs) b := by
  induction n generalizing s bs with
  | zero =>
    rw [Nat.zero_mul] at h
    rw [List.length_eq_zero_iff.mp h, List.nil_append, runBlocks, runBlocks, runBlocks,
      List.take_of_length_le hb.le]
  | succ n ih =>
    rw [Nat.succ_mul] at h
    rw [runBlocks, List.take_append_of_le_length (by omega),
      List.drop_append_of_le_length (by omega), ih (by rw [List.length_drop]; omega)]
    rfl

/-- The stream has taken `msg`: all but the last block has been processed from `s₀` to `s`, and the
last block waits. -/
def Held (size : ℕ) (step : σ → Bytes → σ) (s₀ : σ) (msg : Bytes) (s : σ) (last : Bytes) : Prop :=
  ∃ n front, msg = front ++ last ∧ front.length = n * size ∧ s = runBlocks size step n s₀ front ∧
    last.length ≤ size ∧ (last = [] → front = [])

lemma Held.start (size : ℕ) (step : σ → Bytes → σ) (s₀ : σ) : Held size step s₀ [] s₀ [] :=
  ⟨0, [], rfl, by simp, rfl, by simp, fun _ => rfl⟩

lemma Held.length_le (h : Held size step s₀ msg s last) : last.length ≤ size := by
  obtain ⟨n, front, -, -, -, hlen, -⟩ := h
  exact hlen

/-- Input that fits the block that waits. -/
lemma Held.append (h : Held size step s₀ msg s last) (hp : last.length + p.length ≤ size) :
    Held size step s₀ (msg ++ p) s (last ++ p) := by
  obtain ⟨n, front, rfl, hfront, hs, -, hnil⟩ := h
  refine ⟨n, front, List.append_assoc _ _ _, hfront, hs, by rwa [List.length_append], ?_⟩
  intro h
  exact hnil (List.append_eq_nil_iff.mp h).1

/-- More input when the block that waits is full. -/
lemma Held.next (h : Held size step s₀ msg s last) (hfull : last.length = size) (hp : p ≠ [])
    (hlen : p.length ≤ size) : Held size step s₀ (msg ++ p) (step s last) p := by
  obtain ⟨n, front, rfl, hfront, rfl, -, -⟩ := h
  refine ⟨n + 1, front ++ last, rfl, ?_, ?_, hlen, fun h => absurd h hp⟩
  · rw [List.length_append, hfront, hfull, Nat.succ_mul]
  · rw [runBlocks_succ hfront _ hfull]

/-- Every message can be taken. -/
lemma Held.exists (size : ℕ) (step : σ → Bytes → σ) (s₀ : σ) (msg : Bytes) (hsize : 0 < size) :
    ∃ s last, Held size step s₀ msg s last := by
  obtain ⟨k, hk⟩ : ∃ k, k = (msg.length - 1) / size := ⟨_, rfl⟩
  have hle : k * size ≤ msg.length - 1 := hk ▸ Nat.div_mul_le_self _ _
  have hlt : msg.length - 1 < k * size + size := hk ▸ Nat.lt_div_mul_add hsize
  refine ⟨_, msg.drop (k * size), k, msg.take (k * size), (List.take_append_drop _ _).symm,
    List.length_take_of_le (by omega), rfl, by rw [List.length_drop]; omega, fun hnil => ?_⟩
  have hlen := congrArg List.length hnil
  rw [List.length_drop, List.length_nil] at hlen
  exact List.eq_nil_of_length_eq_zero (by rw [List.length_take]; omega)

/-- Where the stream stands depends on what it has taken only. -/
lemma Held.eq (h : Held size step s₀ msg s last) (hsize : 0 < size) :
    s = runBlocks size step ((msg.length - 1) / size) s₀ msg ∧
      last = msg.drop ((msg.length - 1) / size * size) := by
  obtain ⟨n, front, rfl, hfront, rfl, hlen, hnil⟩ := h
  have hn : ((front ++ last).length - 1) / size = n := by
    rw [List.length_append, hfront]
    rcases List.eq_nil_or_concat last with rfl | ⟨t, b, rfl⟩
    · rw [hnil rfl, List.length_nil] at hfront
      have : n = 0 := by
        rcases Nat.mul_eq_zero.mp hfront.symm with h | h <;> omega
      subst this
      simp
    · rw [List.length_concat] at hlen ⊢
      rw [← Nat.add_assoc, Nat.add_sub_cancel]
      exact Nat.div_eq_of_lt_le (by omega) (by rw [Nat.succ_mul]; omega)
  rw [hn]
  exact ⟨(runBlocks_append hfront.ge _ _).symm, by rw [List.drop_left' hfront]⟩

end Secmem
