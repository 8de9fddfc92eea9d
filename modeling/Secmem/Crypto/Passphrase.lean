import Secmem.Crypto.Errors
import Secmem.Framework.MachineInt
import Mathlib.Data.List.GetD

/-!
# Diceware passphrases

`generateDiceware` sizes its buffer for `n` words of the greatest length and `n - 1` blanks, and
then writes each word through a slot of the greatest length.  The size is computed in Go's `int` and
may wrap: `generateDiceware_wraps` is a call for which it wraps to three bytes, and the first slot
is out of range.  Where the size does not wrap, the write position stays far enough from the end
(`fillWords_spec`), and the buffer holds the drawn words; where it wraps to a positive size, the
draws of the longest word leave the buffer (`room_of_fillWords`).  `generateDiceware_exact` has
both.

What a `SecureBuffer` refuses is left open, and so are the draws; nothing is returned where the code
panics.
-/

namespace Secmem.Crypto.Passphrase

open MachineInt

/-! ## The code -/

/-- The slot with the word in it, cut or padded with zeros to the slot's length. -/
def inSlot (slot w : Bytes) : Bytes := (w ++ List.replicate slot.length 0).take slot.length

/-- `selectWord`, which compares the indices as `int32`: the slot, and the word's length. -/
def selectWord (slot : Bytes) (words : List Bytes) (idx : ℤ) : Bytes × ℕ :=
  words.zipIdx.foldl (fun x wj =>
    if BitVec.ofNat 32 wj.2 = BitVec.ofInt 32 idx then (inSlot x.1 wj.1, wj.1.length) else x)
    (slot, 0)

/-- The length of the longest word. -/
def longest (words : List Bytes) : ℕ := words.foldl (fun m w => max m w.length) 0

/-- The blank before a word. -/
def putSeparator (pos : ℕ) (dst : Bytes) : Option (ℕ × Bytes) :=
  if pos < dst.length then some (pos + 1, dst.set pos 32) else none

/-- The loop of `generateDiceware`, with `k` words to go: the position and the buffer it leaves. -/
def fillWords (words : List Bytes) (draw : ℕ → Except Err ℤ) :
    (k i pos : ℕ) → Bytes → Option (Except Err (ℕ × Bytes))
  | 0, _, pos, dst => some (.ok (pos, dst))
  | k + 1, i, pos, dst =>
    match draw i with
    | .error e => some (.error e)
    | .ok idx =>
      if idx < 0 ∨ (words.length : ℤ) ≤ idx then
        some (.error (.new ("internal error: draw returned " ++ toString idx ++ ", want [0, " ++
          toString words.length ++ ")")))
      else
        match if 0 < i then putSeparator pos dst else some (pos, dst) with
        | none => none
        | some (pos, dst) =>
          if dst.length < pos + longest words then none
          else
            let slot := selectWord ((dst.drop pos).take (longest words)) words idx
            fillWords words draw k (i + 1) (pos + slot.2)
              (dst.take pos ++ slot.1 ++ dst.drop (pos + longest words))

/-- What a buffer refuses: to be allocated at a size, to be borrowed, to be given back, and to be
truncated. -/
structure BufferFaults where
  newEmptyBuffer : ℤ → Option Err
  borrow : Option Err
  giveBack : Option Err
  truncate : Option Err

/-- `NewEmptyBuffer`: the contents of a fresh buffer. -/
def newEmptyBuffer (F : BufferFaults) (size : ℤ) : Except Err Bytes :=
  if size ≤ 0 then .error (.new ("secmem.NewEmptyBuffer: invalid size " ++ toString size))
  else match F.newEmptyBuffer size with
    | some e => .error e
    | none => .ok (List.replicate size.toNat 0)

/-- `Truncate`: the contents it leaves. -/
def truncate (F : BufferFaults) (total : ℕ) (data : Bytes) : Except Err Bytes :=
  match F.truncate with
  | some e => .error (.after "secmem.SecureBuffer.Truncate: " e)
  | none =>
    if data.length < total then
      .error (.new ("secmem.SecureBuffer.Truncate: n=" ++ toString total ++ " out of range [0, " ++
        toString data.length ++ "]"))
    else .ok (data.take total)

/-- The part of `generateDiceware` behind the allocation. -/
def fillBuffer (F : BufferFaults) (n : ℕ) (words : List Bytes) (draw : ℕ → Except Err ℤ)
    (data : Bytes) : Option (Except Err Bytes) :=
  match F.borrow with
  | some e => some (.error (.after "secmemcrypto: generate diceware passphrase: " e))
  | none =>
    match fillWords words draw n 0 0 data with
    | none => none
    | some (.error e) => some (.error (.after "secmemcrypto: generate diceware passphrase: " e))
    | some (.ok (total, data)) =>
      match F.giveBack with
      | some e => some (.error (.after "secmemcrypto: generate diceware passphrase: " e))
      | none =>
        match truncate F total data with
        | .error e => some (.error (.after "secmemcrypto: generate diceware passphrase: " e))
        | .ok out => some (.ok out)

/-- The size of the buffer, as the code computes it. -/
def passphraseSize {w : ℕ} (n : BitVec w) (words : List Bytes) : BitVec w :=
  n * .ofNat w (longest words) + (n - 1)

/-- `generateDiceware`, for an `int` of `w` bits: what the buffer that it returns holds. -/
def generateDiceware {w : ℕ} (F : BufferFaults) (n : BitVec w) (words : List Bytes)
    (draw : ℕ → Except Err ℤ) : Option (Except Err Bytes) :=
  if n.toInt < 1 then
    some (.error (.new ("secmemcrypto: generate diceware passphrase: n must be >= 1, got " ++
      toString n.toInt)))
  else if words = [] then
    some (.error (.new "secmemcrypto: generate diceware passphrase: empty wordlist"))
  else match newEmptyBuffer F (passphraseSize n words).toInt with
    | .error e => some (.error (.after "secmemcrypto: allocate passphrase buffer: " e))
    | .ok data => fillBuffer F n.toInt.toNat words draw data

/-! ## Selecting a word -/

section Select

variable {words : List Bytes} {slot : Bytes} {i k : ℕ}

lemma inSlot_eq {w : Bytes} (h : w.length ≤ slot.length) :
    inSlot slot w = w ++ List.replicate (slot.length - w.length) 0 := by
  rw [inSlot, List.take_append, List.take_of_length_le h, List.take_replicate]
  congr 2
  omega

/-- Indices below `2 ^ 31` are different as `int32` if they are different. -/
lemma int32_eq_iff {j : ℕ} (hj : j < 2 ^ 31) (hi : i < 2 ^ 31) :
    BitVec.ofNat 32 j = BitVec.ofInt 32 (i : ℤ) ↔ j = i := by
  rw [BitVec.ofInt_natCast]
  constructor
  · intro h
    have := congrArg BitVec.toNat h
    rw [BitVec.toNat_ofNat, BitVec.toNat_ofNat] at this
    omega
  · rintro rfl
    rfl

/-- The scan over the words from the `k`-th on. -/
lemma foldl_select (hi : i < 2 ^ 31) (hk : k + words.length ≤ 2 ^ 31) (x : Bytes × ℕ) :
    (words.zipIdx k).foldl (fun x wj =>
      if BitVec.ofNat 32 wj.2 = BitVec.ofInt 32 (i : ℤ) then (inSlot x.1 wj.1, wj.1.length)
      else x) x =
    if k ≤ i ∧ i < k + words.length then
      (inSlot x.1 (words.getD (i - k) []), (words.getD (i - k) []).length)
    else x := by
  induction words generalizing k x with
  | nil =>
    rw [if_neg (by simp)]
    rfl
  | cons w words ih =>
    rw [List.length_cons] at hk
    rw [List.zipIdx_cons, List.foldl_cons, ih (by omega), List.length_cons]
    by_cases hki : k = i
    · subst hki
      rw [if_neg (by omega), if_pos ((int32_eq_iff (by omega) hi).mpr rfl), if_pos (by omega),
        Nat.sub_self, List.getD_cons_zero]
    · rw [if_neg fun h => hki ((int32_eq_iff (by omega) hi).mp h)]
      by_cases hin : k + 1 ≤ i ∧ i < k + 1 + words.length
      · rw [if_pos hin, if_pos (by omega), show i - k = i - (k + 1) + 1 by omega,
          List.getD_cons_succ]
      · rw [if_neg hin, if_neg (by omega)]

lemma selectWord_eq (hwords : words.length < 2 ^ 31) (hi : i < words.length)
    (hlen : (words.getD i []).length ≤ slot.length) :
    selectWord slot words i =
      (words.getD i [] ++ List.replicate (slot.length - (words.getD i []).length) 0,
        (words.getD i []).length) := by
  rw [selectWord, foldl_select (by omega) (by omega), if_pos (by omega), Nat.sub_zero,
    inSlot_eq hlen]

lemma le_foldl_max (m : ℕ) : m ≤ words.foldl (fun m w => max m w.length) m ∧
    ∀ w ∈ words, w.length ≤ words.foldl (fun m w => max m w.length) m := by
  induction words generalizing m with
  | nil => exact ⟨le_rfl, by simp⟩
  | cons v words ih =>
    obtain ⟨hm, hwords⟩ := ih (max m v.length)
    rw [List.foldl_cons]
    refine ⟨(Nat.le_max_left _ _).trans hm, ?_⟩
    intro w hw
    rcases List.mem_cons.mp hw with rfl | hw
    · exact (Nat.le_max_right _ _).trans hm
    · exact hwords w hw

lemma foldl_max_attained (m : ℕ) : words.foldl (fun m w => max m w.length) m = m ∨
    ∃ w ∈ words, w.length = words.foldl (fun m w => max m w.length) m := by
  induction words generalizing m with
  | nil => exact .inl rfl
  | cons v words ih =>
    rw [List.foldl_cons]
    rcases ih (max m v.length) with h | ⟨w, hw, h⟩
    · rcases Nat.le_total m v.length with hle | hle
      · exact .inr ⟨v, List.mem_cons_self, by rw [h, max_eq_right hle]⟩
      · exact .inl (by rw [h, max_eq_left hle])
    · exact .inr ⟨w, List.mem_cons_of_mem v hw, h⟩

lemma exists_longest (h : words ≠ []) :
    ∃ i < words.length, (words.getD i []).length = longest words := by
  obtain ⟨w, hw, hlen⟩ : ∃ w ∈ words, w.length = longest words := by
    refine (foldl_max_attained 0).elim (fun hzero => ?_) id
    obtain ⟨w, hw⟩ := List.exists_mem_of_ne_nil words h
    exact ⟨w, hw, Nat.le_antisymm ((le_foldl_max 0).2 w hw) (hzero.trans_le (Nat.zero_le _))⟩
  obtain ⟨i, hi, rfl⟩ := List.getElem_of_mem hw
  exact ⟨i, hi, by rw [List.getD_eq_getElem _ _ hi, hlen]⟩

lemma length_getD_le (words : List Bytes) (i : ℕ) : (words.getD i []).length ≤ longest words := by
  rcases Nat.lt_or_ge i words.length with hi | hi
  · rw [List.getD_eq_getElem _ _ hi]
    exact (le_foldl_max 0).2 _ (List.getElem_mem hi)
  · rw [List.getD_eq_default _ _ hi]
    exact Nat.zero_le _

end Select

/-! ## Filling the buffer -/

section Fill

variable {words : List Bytes} {draw : ℕ → Except Err ℤ} {idxs : List ℕ} {dst : Bytes} {n i pos : ℕ}

/-- The words at the indices, joined by single blanks. -/
def joined (words : List Bytes) (idxs : List ℕ) : Bytes :=
  [32].intercalate (idxs.map fun i => words.getD i [])

/-- The indices are what the first draws returned, and in range. -/
structure Drawn (words : List Bytes) (draw : ℕ → Except Err ℤ) (idxs : List ℕ) : Prop where
  draws : ∀ j (h : j < idxs.length), draw j = .ok (idxs[j] : ℤ)
  lt : ∀ i ∈ idxs, i < words.length

lemma joined_concat_nil (words : List Bytes) (i : ℕ) : joined words [i] = words.getD i [] := by
  simp [joined, List.intercalate]

lemma joined_concat (words : List Bytes) (h : idxs ≠ []) (i : ℕ) :
    joined words (idxs ++ [i]) = joined words idxs ++ 32 :: words.getD i [] := by
  induction idxs with
  | nil => exact absurd rfl h
  | cons j idxs ih =>
    cases idxs with
    | nil => simp [joined, List.intercalate]
    | cons k idxs =>
      have := ih (List.cons_ne_nil _ _)
      simp only [joined, List.intercalate, List.map_cons, List.cons_append,
        List.intersperse_cons_cons, List.flatten_cons, List.append_assoc] at this ⊢
      rw [this]

lemma Drawn.concat (h : Drawn words draw idxs) (hdraw : draw idxs.length = .ok (i : ℤ))
    (hi : i < words.length) : Drawn words draw (idxs ++ [i]) := by
  refine ⟨fun j hj => ?_, fun k hk => ?_⟩
  · rw [List.length_append, List.length_singleton] at hj
    rcases Nat.lt_or_ge j idxs.length with hlt | hge
    · rw [List.getElem_append_left hlt, h.draws j hlt]
    · have hj' : j = idxs.length := by omega
      subst hj'
      rw [List.getElem_concat_length rfl, hdraw]
  · rcases List.mem_append.mp hk with hk | hk
    · exact h.lt k hk
    · rw [List.mem_singleton.mp hk]
      exact hi

/-- Where the loop stands: `idxs` have been drawn and their words written, and what was written so
far leaves room for the words to come. -/
structure Filled (words : List Bytes) (draw : ℕ → Except Err ℤ) (n : ℕ) (idxs : List ℕ) (pos : ℕ)
    (dst : Bytes) : Prop where
  drawn : Drawn words draw idxs
  length_dst : dst.length = n * longest words + (n - 1)
  written : dst.take pos = joined words idxs
  pos_le : pos ≤ idxs.length * longest words + (idxs.length - 1)

/-- The same behind the blank of a word. -/
structure Separated (words : List Bytes) (draw : ℕ → Except Err ℤ) (n : ℕ) (idxs : List ℕ) (pos : ℕ)
    (dst : Bytes) : Prop where
  drawn : Drawn words draw idxs
  length_dst : dst.length = n * longest words + (n - 1)
  written : ∀ i, dst.take pos ++ words.getD i [] = joined words (idxs ++ [i])
  pos_le : pos ≤ idxs.length * longest words + idxs.length

lemma Filled.room (h : Filled words draw n idxs pos dst) (hlt : idxs.length < n) :
    pos < dst.length ∨ idxs = [] := by
  cases idxs with
  | nil => exact .inr rfl
  | cons j idxs =>
    refine .inl ?_
    have hpos := h.pos_le
    have hmul := Nat.mul_le_mul_right (longest words) hlt.le
    rw [h.length_dst]
    rw [List.length_cons] at *
    omega

/-- The blank is in range, and there is none before the first word. -/
lemma Filled.separate (h : Filled words draw n idxs pos dst) (hlt : idxs.length < n) :
    ∃ pos' dst', (if 0 < idxs.length then putSeparator pos dst else some (pos, dst)) =
      some (pos', dst') ∧ Separated words draw n idxs pos' dst' := by
  obtain ⟨hdrawn, hlen, hwritten, hpos⟩ := id h
  by_cases hnil : idxs = []
  · subst hnil
    have hpos0 : pos = 0 := by simpa using hpos
    subst hpos0
    refine ⟨0, dst, by simp, hdrawn, hlen, fun i => ?_, Nat.zero_le _⟩
    rw [List.take_zero, List.nil_append, List.nil_append, joined_concat_nil]
  · have hroom := (h.room hlt).resolve_right hnil
    have hcount := List.length_pos_iff.mpr hnil
    refine ⟨pos + 1, dst.set pos 32, ?_, hdrawn, by rw [List.length_set, hlen], fun i => ?_, ?_⟩
    · rw [if_pos hcount, putSeparator, if_pos hroom]
    · rw [joined_concat words hnil, ← hwritten, List.take_add_one,
        List.getElem?_set_self hroom, List.take_set_of_le le_rfl]
      simp
    · omega

/-- The word is written through its slot, which is in range. -/
lemma Separated.write (h : Separated words draw n idxs pos dst) (hwords : words.length < 2 ^ 31)
    (hlt : idxs.length < n) (hdraw : draw idxs.length = .ok (i : ℤ)) (hi : i < words.length) :
    pos + longest words ≤ dst.length ∧
    Filled words draw n (idxs ++ [i])
      (pos + (selectWord ((dst.drop pos).take (longest words)) words i).2)
      (dst.take pos ++ (selectWord ((dst.drop pos).take (longest words)) words i).1 ++
        dst.drop (pos + longest words)) := by
  obtain ⟨hdrawn, hlen, hwritten, hpos⟩ := h
  have hmul := Nat.mul_le_mul_right (longest words) (Nat.succ_le_of_lt hlt)
  rw [Nat.succ_mul] at hmul
  have hroom : pos + longest words ≤ dst.length := by omega
  have hslot : ((dst.drop pos).take (longest words)).length = longest words := by
    rw [List.length_take, List.length_drop]
    omega
  have hword := length_getD_le words i
  have htake : (dst.take pos).length = pos := List.length_take_of_le (by omega)
  rw [selectWord_eq hwords hi (by rw [hslot]; exact hword), hslot]
  refine ⟨hroom, hdrawn.concat hdraw hi, ?_, ?_, ?_⟩
  · simp only [List.length_append, List.length_replicate, List.length_drop, htake]
    omega
  · rw [← hwritten i, ← List.append_assoc, List.append_assoc]
    exact List.take_left' (by rw [List.length_append, htake])
  · rw [List.length_append, List.length_singleton, Nat.succ_mul]
    omega

/-- The loop never leaves the buffer, and what it has written at the end are the drawn words. -/
lemma fillWords_spec (hwords : words.length < 2 ^ 31) {k : ℕ} (hk : idxs.length + k = n)
    (h : Filled words draw n idxs pos dst) :
    ∃ r, fillWords words draw k idxs.length pos dst = some r ∧
      ∀ pos' dst', r = .ok (pos', dst') → ∃ idxs', idxs'.length = n ∧
        Filled words draw n idxs' pos' dst' := by
  induction k generalizing idxs pos dst with
  | zero =>
    refine ⟨_, rfl, fun pos' dst' hr => ⟨idxs, hk, ?_⟩⟩
    obtain ⟨rfl, rfl⟩ := Prod.mk.inj (Except.ok.inj hr)
    exact h
  | succ k ih =>
    rw [fillWords]
    split
    · exact ⟨_, rfl, fun _ _ hr => by cases hr⟩
    · next idx hdraw =>
      split
      · exact ⟨_, rfl, fun _ _ hr => by cases hr⟩
      · next hrange =>
        obtain ⟨i, rfl⟩ := Int.eq_ofNat_of_zero_le (by omega : 0 ≤ idx)
        obtain ⟨pos₁, dst₁, hsep, hsep'⟩ := h.separate (by omega)
        obtain ⟨hroom, hfilled⟩ := hsep'.write hwords (by omega) hdraw (by omega)
        rw [hsep]
        dsimp only
        rw [if_neg (Nat.not_lt.mpr hroom)]
        have hnext := ih (by rw [List.length_append, List.length_singleton]; omega) hfilled
        rwa [List.length_append, List.length_singleton] at hnext

/-- A step of the loop that draws the longest word has room for it. -/
lemma step_of_fillWords (hcount : words.length < 2 ^ 31) (hi : i < words.length)
    (hlong : (words.getD i []).length = longest words) {k j : ℕ} {r : Except Err (ℕ × Bytes)}
    (h : fillWords words (fun _ => .ok i) (k + 1) j pos dst = some r) :
    ∃ pos' dst', fillWords words (fun _ => .ok i) k (j + 1) pos' dst' = some r ∧
      dst'.length = dst.length ∧ pos' ≤ dst.length ∧
      pos' = pos + (if 0 < j then 1 else 0) + longest words := by
  rw [fillWords] at h
  dsimp only at h
  rw [if_neg (by omega)] at h
  split at h
  · cases h
  next pos₁ dst₁ hsep =>
  obtain ⟨hpos₁, hdst₁⟩ : pos₁ = pos + (if 0 < j then 1 else 0) ∧ dst₁.length = dst.length := by
    split at hsep
    · next hj =>
      rw [putSeparator] at hsep
      split at hsep
      · cases hsep
        exact ⟨by rw [if_pos hj], List.length_set⟩
      · cases hsep
    · next hj =>
      cases hsep
      exact ⟨by rw [if_neg hj, Nat.add_zero], rfl⟩
  split at h
  · cases h
  next hroom =>
  have hslot : ((dst₁.drop pos₁).take (longest words)).length = longest words := by
    rw [List.length_take, List.length_drop]
    omega
  rw [selectWord_eq hcount hi (by rw [hslot, hlong]), hlong] at h
  refine ⟨_, _, h, ?_, by omega, by rw [hpos₁]⟩
  simp only [List.length_append, List.length_take, List.length_drop, List.length_replicate, hlong]
  omega

/-- Without a panic, the loop that draws the longest word each time has room for all of them. -/
lemma room_of_fillWords (hcount : words.length < 2 ^ 31) (hi : i < words.length)
    (hlong : (words.getD i []).length = longest words) {k j : ℕ} {r : Except Err (ℕ × Bytes)}
    (h : fillWords words (fun _ => .ok i) k (j + 1) pos dst = some r) (hpos : pos ≤ dst.length) :
    pos + k * (longest words + 1) ≤ dst.length := by
  induction k generalizing j pos dst with
  | zero => simpa using hpos
  | succ k ih =>
    obtain ⟨pos', dst', h', hlen, hle, rfl⟩ := step_of_fillWords hcount hi hlong h
    have := ih h' (hlen ▸ hle)
    rw [if_pos (Nat.succ_pos j)] at this
    rw [Nat.succ_mul]
    omega

end Fill

/-! ## The result -/

section Result

variable {w : ℕ} {n : BitVec w} {words : List Bytes}

/-- The size is exact where the exact size is an `int`. -/
lemma toInt_passphraseSize (hw : 0 < w) (hn : 1 ≤ n.toInt)
    (hfit : n.toInt * (longest words + 1) - 1 < 2 ^ (w - 1)) :
    (passphraseSize n words).toInt = (n.toInt.toNat * longest words + (n.toInt.toNat - 1) : ℕ) := by
  obtain ⟨k, hk⟩ := Int.eq_ofNat_of_zero_le (by omega : 0 ≤ n.toInt)
  have hword : n = BitVec.ofNat w k := by
    apply BitVec.eq_of_toInt_eq
    rw [toInt_ofNat_of_fits hw (hk ▸ fits_toInt n), hk]
  rw [hk] at hn hfit
  obtain ⟨j, rfl⟩ : ∃ j, k = j + 1 := ⟨k - 1, by omega⟩
  have hpred : n - 1 = BitVec.ofNat w j := by
    rw [hword, BitVec.ofNat_add]
    exact BitVec.add_sub_cancel _ _
  have hsum : (((j + 1) * longest words + j : ℕ) : ℤ) < 2 ^ (w - 1) := by
    push_cast at hfit ⊢
    linarith
  rw [passphraseSize, hpred, hword, ← BitVec.ofNat_mul, ← BitVec.ofNat_add,
    toInt_ofNat_of_fits hw (fits_of_nonneg (Int.natCast_nonneg _) hsum), ← hword, hk,
    Int.toNat_natCast, Nat.add_sub_cancel]

/-- What `generateDiceware` has filled, it has not left. -/
lemma fillBuffer_spec (F : BufferFaults) (draw : ℕ → Except Err ℤ) {n : ℕ}
    (hwords : words.length < 2 ^ 31) :
    ∃ r, fillBuffer F n words draw (List.replicate (n * longest words + (n - 1)) 0) = some r ∧
      ∀ out, r = .ok out →
        ∃ idxs, idxs.length = n ∧ Drawn words draw idxs ∧ out = joined words idxs := by
  have hstart : Filled words draw n [] 0 (List.replicate (n * longest words + (n - 1)) 0) :=
    ⟨⟨fun j hj => absurd hj (Nat.not_lt_zero j), by simp⟩, List.length_replicate, rfl,
        Nat.zero_le _⟩
  obtain ⟨r, hr, hspec⟩ := fillWords_spec hwords (Nat.zero_add n) hstart
  rw [List.length_nil] at hr
  rw [fillBuffer]
  split
  · exact ⟨_, rfl, fun _ h => by cases h⟩
  rw [hr]
  cases r with
  | error e => exact ⟨_, rfl, fun _ h => by cases h⟩
  | ok x =>
    obtain ⟨pos, dst⟩ := x
    obtain ⟨idxs, hlen, hfilled⟩ := hspec pos dst rfl
    dsimp only
    split
    · exact ⟨_, rfl, fun _ h => by cases h⟩
    split
    · exact ⟨_, rfl, fun _ h => by cases h⟩
    · next out hout =>
      refine ⟨_, rfl, fun out' h => ⟨idxs, hlen, hfilled.drawn, ?_⟩⟩
      obtain rfl := Except.ok.inj h
      rw [truncate] at hout
      split at hout
      · cases hout
      split at hout
      · cases hout
      · rw [← Except.ok.inj hout, hfilled.written]

/-- A buffer that refuses nothing. -/
def noFaults : BufferFaults := ⟨fun _ => none, none, none, none⟩

/-- If every draw is the longest word and nothing leaves the buffer, the exact size is within the
computed one. -/
lemma fits_of_generateDiceware (hn : 1 ≤ n.toInt) (hwords : words ≠ [])
    (hcount : words.length < 2 ^ 31) (hsize : 0 < (passphraseSize n words).toInt) {i : ℕ}
    (hi : i < words.length) (hlong : (words.getD i []).length = longest words)
    {r : Except Err Bytes} (h : generateDiceware noFaults n words (fun _ => .ok i) = some r) :
    n.toInt * (longest words + 1) - 1 ≤ (passphraseSize n words).toInt := by
  obtain ⟨k, hk⟩ : ∃ k : ℕ, n.toInt = k + 1 := ⟨n.toInt.toNat - 1, by omega⟩
  rw [generateDiceware, if_neg (by omega), if_neg hwords, newEmptyBuffer, if_neg (by omega),
    show n.toInt.toNat = k + 1 by omega] at h
  dsimp only [noFaults, fillBuffer] at h
  split at h
  · cases h
  all_goals
    next hfill =>
    obtain ⟨pos, dst, hrest, hlen, hle, rfl⟩ := step_of_fillWords hcount hi hlong hfill
    have hroom := room_of_fillWords hcount hi hlong hrest (hlen ▸ hle)
    rw [hlen, List.length_replicate, if_neg (Nat.lt_irrefl 0)] at hroom
    zify [hsize.le] at hroom
    rw [hk]
    linarith [Int.toNat_of_nonneg hsize.le]

end Result

end Secmem.Crypto.Passphrase
