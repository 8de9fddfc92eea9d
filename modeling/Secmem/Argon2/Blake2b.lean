import Secmem.Framework.BlockStream
import Secmem.Framework.LittleEndian

/-!
# BLAKE2b and the hash `H0`

`internal/argon2` computes BLAKE2b in two ways: `checkSum` over a message that lies in one piece,
and `initHash` over nine pieces that are never put together, through one block that `h0Absorb`
fills.  The block is compressed only when more input arrives, so the last block is still there for
the finalisation; `Held` says so for every way in which the pieces fall on block boundaries, and
`initHash_checkSum` concludes that the two ways agree.

Slices that would be read past their end are panics, and a function that may panic returns an
`Option`.
-/

namespace Secmem.Argon2

open LittleEndian

/-! ## The compression function -/

def iv : Vector UInt64 8 := #v[
  0x6a09e667f3bcc908, 0xbb67ae8584caa73b, 0x3c6ef372fe94f82b, 0xa54ff53a5f1d36f1,
  0x510e527fade682d1, 0x9b05688c2b3e6c1f, 0x1f83d9abfb41bd6b, 0x5be0cd19137e2179]

def precomputed : List (List (Fin 16)) := [
  [0, 2, 4, 6, 1, 3, 5, 7, 8, 10, 12, 14, 9, 11, 13, 15],
  [14, 4, 9, 13, 10, 8, 15, 6, 1, 0, 11, 5, 12, 2, 7, 3],
  [11, 12, 5, 15, 8, 0, 2, 13, 10, 3, 7, 9, 14, 6, 1, 4],
  [7, 3, 13, 11, 9, 1, 12, 14, 2, 5, 4, 15, 6, 10, 0, 8],
  [9, 5, 2, 10, 0, 7, 4, 15, 14, 11, 6, 3, 1, 12, 8, 13],
  [2, 6, 0, 8, 12, 10, 11, 3, 4, 7, 15, 1, 13, 5, 14, 9],
  [12, 1, 14, 4, 5, 15, 13, 10, 0, 6, 9, 8, 7, 3, 2, 11],
  [13, 7, 12, 3, 11, 14, 1, 9, 5, 15, 8, 2, 0, 4, 6, 10],
  [6, 14, 11, 0, 15, 9, 3, 8, 12, 13, 1, 10, 2, 7, 4, 5],
  [10, 8, 7, 1, 2, 4, 6, 5, 15, 9, 3, 13, 11, 14, 12, 0],
  [0, 2, 4, 6, 1, 3, 5, 7, 8, 10, 12, 14, 9, 11, 13, 15],
  [14, 4, 9, 13, 10, 8, 15, 6, 1, 0, 11, 5, 12, 2, 7, 3]]

/-- `bits.RotateLeft64(x, -k)`. -/
def rotateRight64 (x k : UInt64) : UInt64 := (x >>> k) ||| (x <<< (64 - k))

/-- The seven statements that mix one message word into four working variables. -/
def mix (v : Vector UInt64 16) (w : UInt64) (a b c d : Fin 16) (r q : UInt64) : Vector UInt64 16 :=
  let v := v.set a (v[a] + w)
  let v := v.set a (v[a] + v[b])
  let v := v.set d (v[d] ^^^ v[a])
  let v := v.set d (rotateRight64 v[d] r)
  let v := v.set c (v[c] + v[d])
  let v := v.set b (v[b] ^^^ v[c])
  v.set b (rotateRight64 v[b] q)

def columns : List (Fin 16 × Fin 16 × Fin 16 × Fin 16) :=
  [(0, 4, 8, 12), (1, 5, 9, 13), (2, 6, 10, 14), (3, 7, 11, 15)]

def diagonals : List (Fin 16 × Fin 16 × Fin 16 × Fin 16) :=
  [(0, 5, 10, 15), (1, 6, 11, 12), (2, 7, 8, 13), (3, 4, 9, 14)]

/-- Four of the mixings, over four entries of the schedule. -/
def mixFour (m v : Vector UInt64 16) (s : List (Fin 16)) (r q : UInt64)
    (quads : List (Fin 16 × Fin 16 × Fin 16 × Fin 16)) : Vector UInt64 16 :=
  (s.zip quads).foldl (fun v x => mix v m[x.1] x.2.1 x.2.2.1 x.2.2.2.1 x.2.2.2.2 r q) v

/-- One pass of the loop over `precomputed`. -/
def mixRound (m v : Vector UInt64 16) (s : List (Fin 16)) : Vector UInt64 16 :=
  let v := mixFour m v (s.take 4) 32 24 columns
  let v := mixFour m v ((s.drop 4).take 4) 16 63 columns
  let v := mixFour m v ((s.drop 8).take 4) 32 24 diagonals
  mixFour m v ((s.drop 12).take 4) 16 63 diagonals

/-- A chaining value and the byte counter. -/
structure Chain where
  h : Vector UInt64 8
  c0 : UInt64
  c1 : UInt64

/-- One pass of the loop of `hashBlocksGeneric`: it takes one block. -/
@[irreducible] def compress (flag : UInt64) (x : Chain) (block : Bytes) : Chain :=
  let c0 := x.c0 + 128
  let c1 := if c0 < 128 then x.c1 + 1 else x.c1
  let w := iv.set 4 (iv[4] ^^^ c0)
  let w := w.set 5 (w[5] ^^^ c1)
  let w := w.set 6 (w[6] ^^^ flag)
  let m : Vector UInt64 16 := Vector.ofFn fun j => word64 (block.drop (8 * j))
  let v := precomputed.foldl (fun v s => mixRound m v s) (x.h ++ w)
  ⟨Vector.ofFn fun i : Fin 8 => x.h[i] ^^^ (v.get (i.castAdd 8) ^^^ v.get (i.natAdd 8)), c0, c1⟩

/-- `hashBlocksGeneric`, which panics in the last block if it is not a whole one. -/
def hashBlocksGeneric (x : Chain) (flag : UInt64) (blocks : Bytes) : Option Chain :=
  if blocks.length % 128 = 0 then
    some (runBlocks 128 (compress flag) (blocks.length / 128) x blocks)
  else none

/-! ## The one-shot digest -/

/-- The chaining value that begins a digest of `hashSize` bytes, with no key, fanout 1 and depth
1. -/
def startChain (hashSize : ℕ) : Chain :=
  ⟨iv.set 0 (iv[0] ^^^ (UInt64.ofNat hashSize ||| (1 : UInt64) <<< 16 ||| (1 : UInt64) <<< 24)), 0,
      0⟩

/-- The ending that `checkSum` and `initHash` have in common: the counter goes back by the padding
of the last block, which is then compressed with the finalisation flag. -/
def finalise (x : Chain) (fill : ℕ) (block : Bytes) : Option Chain :=
  let remaining := UInt64.ofNat (128 - fill)
  let c1 := if x.c0 < remaining then x.c1 - 1 else x.c1
  hashBlocksGeneric ⟨x.h, x.c0 - remaining, c1⟩ 0xFFFFFFFFFFFFFFFF block

/-- The words of `h[:k]` with the lowest byte first. -/
def chainBytes (h : Vector UInt64 8) (k : ℕ) : Bytes := (h.toList.take k).flatMap putWord64

/-- Where `checkSum` cuts its input: a last block is left, be it a full one. -/
def checkSumCut (length : ℕ) : ℕ :=
  let n := length - length % 128
  if length = n then n - 128 else n

/-- The blocks before the last one, and what is left. -/
def checkSumHead (x : Chain) (data : Bytes) : Option (Chain × Bytes) :=
  if 128 < data.length then do
    let n := checkSumCut data.length
    let x ← hashBlocksGeneric x 0 (data.take n)
    pure (x, data.drop n)
  else pure (x, data)

/-- `checkSum`: what `sum` holds afterwards. -/
def checkSum (sum : Bytes) (hashSize : ℕ) (data : Bytes) : Option Bytes := do
  let (x, data) ← checkSumHead (startChain hashSize) data
  let block := data.take 128 ++ List.replicate (128 - data.length) 0
  let x ← finalise x (min 128 data.length) block
  if 8 < (hashSize + 7) / 8 then none
  else
    let out := chainBytes x.h ((hashSize + 7) / 8)
    pure (out ++ sum.drop out.length)

/-! ## The streamed digest -/

/-- The part of a `Workspace` that `initHash` works on. -/
structure H0Workspace where
  threads : UInt32
  requested : UInt32
  h0Chain : Vector UInt64 8
  h0Block : Bytes
  h0 : Bytes
  length_h0Block : h0Block.length = 128
  length_h0 : h0.length = 72

/-- `copy(block[fill:], p)`: what `block` holds afterwards. -/
def copyAt (block : Bytes) (fill : ℕ) (p : Bytes) : Bytes :=
  block.take fill ++ p.take (block.length - fill) ++ block.drop (fill + p.length)

/-- The state of the stream: the chaining value and the counter, the block and how much of it is
filled. -/
structure Stream where
  x : Chain
  block : Bytes
  fill : ℕ

/-- `h0Absorb`, for at most `fuel` passes of its loop. -/
def h0Absorb : (fuel : ℕ) → Stream → Bytes → Option Stream
  | _, st, [] => some st
  | 0, _, _ :: _ => none
  | fuel + 1, st, b :: p => do
    let st ←
      if st.fill = st.block.length then do
        let x ← hashBlocksGeneric st.x 0 st.block
        pure { st with x, fill := 0 }
      else pure st
    let n := min (st.block.length - st.fill) (b :: p).length
    h0Absorb fuel ⟨st.x, copyAt st.block st.fill (b :: p), st.fill + n⟩ ((b :: p).drop n)

inductive Mode
  | modeD
  | modeI
  | modeID
  deriving DecidableEq

/-- The type codes, which are hashed. -/
def Mode.code : Mode → UInt32
  | modeD => 0
  | modeI => 1
  | modeID => 2

def version : UInt32 := 0x13

def params (ws : H0Workspace) (time keyLen : UInt32) (mode : Mode) : Bytes :=
  putWord32 ws.threads ++ putWord32 keyLen ++ putWord32 ws.requested ++ putWord32 time ++
    putWord32 version ++ putWord32 mode.code

/-- The loop of `initHash` over the four inputs, each behind its length. -/
def absorbParts : Stream → List Bytes → Option Stream
  | st, [] => some st
  | st, part :: parts => do
    let pre := putWord32 (UInt32.ofNat part.length)
    let st ← h0Absorb pre.length st pre
    let st ← h0Absorb part.length st part
    absorbParts st parts

/-- What `initHash` leaves in the workspace. -/
structure H0Result where
  h0 : Bytes
  h0Block : Bytes
  h0Chain : Vector UInt64 8

/-- `initHash`. -/
def initHash (ws : H0Workspace) (password salt key data : Bytes) (time keyLen : UInt32)
    (mode : Mode) : Option H0Result := do
  let p := params ws time keyLen mode
  let st ← h0Absorb p.length ⟨startChain 64, ws.h0Block, 0⟩ p
  let st ← absorbParts st [password, salt, key, data]
  let block := st.block.take st.fill ++ List.replicate (128 - st.fill) 0
  let x ← finalise st.x st.fill block
  let out := chainBytes x.h 8
  -- the block and the chaining value are wiped
  pure ⟨out ++ ws.h0.drop out.length, List.replicate 128 0, Vector.replicate 8 0⟩

/-! ## The two ways agree -/

variable {msg p block data : Bytes} {st : Stream}

lemma hashBlocksGeneric_block (x : Chain) (flag : UInt64) (h : block.length = 128) :
    hashBlocksGeneric x flag block = some (compress flag x block) := by
  rw [hashBlocksGeneric, h, if_pos (by norm_num)]
  simp only [Nat.reduceDiv, runBlocks, List.take_of_length_le h.le]

@[simp] lemma length_copyAt (block : Bytes) (fill : ℕ) (p : Bytes) :
    (copyAt block fill p).length = block.length := by
  simp only [copyAt, List.length_append, List.length_take, List.length_drop]
  omega

lemma take_copyAt {fill n : ℕ} (h : fill ≤ block.length)
    (hn : n = min (block.length - fill) p.length) :
    (copyAt block fill p).take (fill + n) = block.take fill ++ p.take n := by
  have htake : p.take (block.length - fill) = p.take n := by
    rw [hn, List.take_eq_take_iff]
    omega
  rw [copyAt, htake]
  refine List.take_left' ?_
  simp only [List.length_append, List.length_take]
  omega

lemma length_chainBytes (h : Vector UInt64 8) {k : ℕ} (hk : k ≤ 8) :
    (chainBytes h k).length = 8 * k := by
  have hword : (fun w => (putWord64 w).length) = fun _ => 8 := funext length_putWord64
  rw [chainBytes, List.length_flatMap, hword, List.map_const', List.sum_replicate,
    List.length_take, Vector.length_toList, Nat.min_eq_left hk, smul_eq_mul, Nat.mul_comm]

/-- The stream has taken `msg`. -/
structure Absorbed (msg : Bytes) (st : Stream) : Prop where
  length_block : st.block.length = 128
  fill_le : st.fill ≤ 128
  held : Held 128 (compress 0) (startChain 64) msg st.x (st.block.take st.fill)

/-- Whatever the pieces before were, `h0Absorb` takes the next one and returns. -/
lemma h0Absorb_absorbed {fuel : ℕ} (hp : p.length ≤ fuel) (h : Absorbed msg st) :
    ∃ st', h0Absorb fuel st p = some st' ∧ Absorbed (msg ++ p) st' := by
  induction fuel generalizing st p msg with
  | zero =>
    rw [List.length_eq_zero_iff.mp (Nat.le_zero.mp hp), List.append_nil]
    exact ⟨st, by rw [h0Absorb], h⟩
  | succ fuel ih =>
    cases p with
    | nil => exact ⟨st, by rw [h0Absorb], by rwa [List.append_nil]⟩
    | cons b p =>
      obtain ⟨q, hq⟩ : ∃ q, q = b :: p := ⟨_, rfl⟩
      have hpos : 0 < q.length := by simp [hq]
      rw [h0Absorb, ← hq]
      rw [← hq] at hp
      obtain ⟨x, block, fill⟩ := st
      obtain ⟨hblock, hfill, hheld⟩ := h
      dsimp only at hblock hfill hheld
      -- one pass takes what fits the block and leaves the rest for the next pass
      have next : ∀ {y k n}, k ≤ 128 → n = min (128 - k) q.length → 0 < n →
          Held 128 (compress 0) (startChain 64) (msg ++ q.take n) y (block.take k ++ q.take n) →
          ∃ st', h0Absorb fuel ⟨y, copyAt block k q, k + n⟩ (q.drop n) = some st' ∧
            Absorbed (msg ++ q) st' := by
        intro y k n hk hn hn0 hy
        have hrest : (q.drop n).length ≤ fuel := by
          rw [List.length_drop]
          omega
        have hstep : Absorbed (msg ++ q.take n) ⟨y, copyAt block k q, k + n⟩ := by
          refine ⟨by simpa using hblock, by dsimp only; omega, ?_⟩
          rwa [take_copyAt (by omega) (by rwa [hblock])]
        have := ih hrest hstep
        rwa [List.append_assoc, List.take_append_drop] at this
      by_cases hfull : fill = 128
      · subst hfull
        rw [List.take_of_length_le hblock.le] at hheld
        simp only [hblock, if_true, hashBlocksGeneric_block x 0 hblock, Option.bind_eq_bind,
          Option.bind_some, Option.pure_def]
        refine next (Nat.zero_le _) rfl (by omega) ?_
        rw [List.take_zero, List.nil_append]
        refine hheld.next hblock ?_ (by rw [List.length_take]; omega)
        exact List.ne_nil_of_length_pos (by rw [List.length_take]; omega)
      · simp only [hblock, hfull, if_false, Option.bind_eq_bind, Option.bind_some, Option.pure_def]
        refine next hfill rfl (by omega) (hheld.append ?_)
        simp only [List.length_take]
        omega

/-- The message that the four inputs make, each behind its length. -/
def framed (parts : List Bytes) : Bytes := parts.flatMap fun part => toLE 4 part.length ++ part

lemma absorbParts_absorbed (parts : List Bytes) (h : Absorbed msg st) :
    ∃ st', absorbParts st parts = some st' ∧ Absorbed (msg ++ framed parts) st' := by
  induction parts generalizing st msg with
  | nil => exact ⟨st, rfl, by rwa [framed, List.flatMap_nil, List.append_nil]⟩
  | cons part parts ih =>
    obtain ⟨st₁, hrun₁, h₁⟩ :=
      h0Absorb_absorbed (p := putWord32 (UInt32.ofNat part.length)) le_rfl h
    obtain ⟨st₂, hrun₂, h₂⟩ := h0Absorb_absorbed (p := part) le_rfl h₁
    obtain ⟨st', hrun, h'⟩ := ih h₂
    refine ⟨st', ?_, ?_⟩
    · simp only [absorbParts, hrun₁, hrun₂, Option.bind_eq_bind, Option.bind_some, hrun]
    · rw [putWord32_ofNat] at h'
      simpa only [framed, List.flatMap_cons, List.append_assoc] using h'

lemma checkSumCut_eq {n : ℕ} (h : 128 < n) : checkSumCut n = (n - 1) / 128 * 128 := by
  simp only [checkSumCut]
  split <;> omega

/-- `checkSum` cuts its input where a stream that holds back its last block stands at the end. -/
lemma checkSumHead_eq {x₀ x : Chain} {last : Bytes} (h : Held 128 (compress 0) x₀ data x last) :
    checkSumHead x₀ data = some (x, last) := by
  obtain ⟨hx, hlast⟩ := h.eq (by norm_num)
  rw [checkSumHead]
  split
  · next hlen =>
    obtain ⟨k, hk⟩ : ∃ k, k = (data.length - 1) / 128 := ⟨_, rfl⟩
    rw [← hk] at hx hlast
    have hlength : (data.take (k * 128)).length = k * 128 := List.length_take_of_le (by omega)
    have hrun : runBlocks 128 (compress 0) k x₀ data =
        runBlocks 128 (compress 0) k x₀ (data.take (k * 128)) := by
      rw [← runBlocks_append hlength.ge x₀ (data.drop (k * 128)), List.take_append_drop]
    simp only [checkSumCut_eq hlen, ← hk, hashBlocksGeneric, hlength, Nat.mul_mod_left, if_true,
      Nat.mul_div_cancel _ (show 0 < 128 by norm_num), Option.bind_eq_bind, Option.bind_some,
      Option.pure_def]
    rw [← hrun, ← hx, ← hlast]
  · next hlen =>
    have hk : (data.length - 1) / 128 = 0 := by omega
    rw [hk] at hx hlast
    rw [hx, hlast, runBlocks, Nat.zero_mul, List.drop_zero]
    rfl

lemma checkSum_eq (sum : Bytes) {hashSize : ℕ} (hsize : hashSize ≤ 64) {x : Chain} {last : Bytes}
    (h : Held 128 (compress 0) (startChain hashSize) data x last) :
    checkSum sum hashSize data =
      (finalise x last.length (last ++ List.replicate (128 - last.length) 0)).map fun x =>
        chainBytes x.h ((hashSize + 7) / 8) ++
          sum.drop (chainBytes x.h ((hashSize + 7) / 8)).length := by
  have hlast := h.length_le
  have hwords : ¬ 8 < (hashSize + 7) / 8 := by omega
  simp only [checkSum, checkSumHead_eq h, Option.bind_eq_bind, Option.bind_some,
    List.take_of_length_le hlast,
    Nat.min_eq_right hlast, hwords, if_false, Option.pure_def]
  cases finalise x last.length (last ++ List.replicate (128 - last.length) 0) <;> rfl

lemma checkSum_returns {sum : Bytes} (hsum : sum.length = 64) {hashSize : ℕ} (hsize : hashSize ≤ 64)
    (data : Bytes) : ∃ digest, checkSum sum hashSize data = some digest ∧ digest.length = 64 := by
  obtain ⟨x, last, h⟩ := Held.exists 128 (compress 0) (startChain hashSize) data (by norm_num)
  have hlast := h.length_le
  have hfill : (last ++ List.replicate (128 - last.length) 0).length = 128 := by
    rw [List.length_append, List.length_replicate, Nat.add_sub_of_le hlast]
  rw [checkSum_eq sum hsize h, finalise, hashBlocksGeneric_block _ _ hfill]
  refine ⟨_, rfl, ?_⟩
  rw [List.length_append, List.length_drop, length_chainBytes _ (by omega)]
  omega

/-- The streamed hash of the parameters and the four inputs is the one-shot digest of their
concatenation, wherever the pieces fall on block boundaries; the rest of `h0` stays, and the block
and the chaining value are wiped. -/
theorem initHash_checkSum (ws : H0Workspace) (password salt key data : Bytes)
    (time keyLen : UInt32) (mode : Mode) {sum : Bytes} (hsum : sum.length = 64) :
    ∃ digest,
      checkSum sum 64 (params ws time keyLen mode ++
        toLE 4 password.length ++ password ++ toLE 4 salt.length ++ salt ++
        toLE 4 key.length ++ key ++ toLE 4 data.length ++ data) = some digest ∧
      digest.length = 64 ∧
      initHash ws password salt key data time keyLen mode =
        some ⟨digest ++ ws.h0.drop 64, List.replicate 128 0, Vector.replicate 8 0⟩ := by
  have hstart : Absorbed [] ⟨startChain 64, ws.h0Block, 0⟩ :=
    ⟨ws.length_h0Block, Nat.zero_le _, Held.start _ _ _⟩
  obtain ⟨st₁, hrun₁, h₁⟩ :=
    h0Absorb_absorbed (p := params ws time keyLen mode) le_rfl hstart
  obtain ⟨st, hrun, hst⟩ := absorbParts_absorbed [password, salt, key, data] h₁
  have hmsg : params ws time keyLen mode ++
      toLE 4 password.length ++ password ++ toLE 4 salt.length ++ salt ++
      toLE 4 key.length ++ key ++ toLE 4 data.length ++ data =
        [] ++ params ws time keyLen mode ++ framed [password, salt, key, data] := by
    simp only [framed, List.flatMap_cons, List.flatMap_nil, List.append_assoc, List.append_nil,
      List.nil_append]
  have hfill : (st.block.take st.fill).length = st.fill := by
    rw [List.length_take, hst.length_block, Nat.min_eq_left hst.fill_le]
  have hlast : (st.block.take st.fill ++ List.replicate (128 - st.fill) 0).length = 128 := by
    rw [List.length_append, hfill, List.length_replicate, Nat.add_sub_of_le hst.fill_le]
  obtain ⟨x, hx⟩ : ∃ x, finalise st.x st.fill
      (st.block.take st.fill ++ List.replicate (128 - st.fill) 0) = some x :=
    ⟨_, hashBlocksGeneric_block _ _ hlast⟩
  have hout : (chainBytes x.h 8).length = 64 := length_chainBytes x.h le_rfl
  refine ⟨chainBytes x.h 8, ?_, hout, ?_⟩
  · rw [hmsg, checkSum_eq sum le_rfl hst.held, hfill, hx, Option.map_some]
    simp only [Nat.reduceAdd, Nat.reduceDiv, hout, List.drop_eq_nil_of_le hsum.le, List.append_nil]
  · simp only [initHash, hrun₁, hrun, hx, hout, Option.bind_eq_bind, Option.bind_some,
      Option.pure_def]

/-- A password that ends with the block, and empty inputs behind it. -/
theorem initHash_checkSum_boundary :
    ∃ digest,
      checkSum (List.replicate 64 0) 64
        (params ⟨1, 64, Vector.replicate 8 0, List.replicate 128 7, List.replicate 72 0, rfl, rfl⟩
          3 32 .modeID ++ toLE 4 100 ++ List.replicate 100 5 ++ toLE 4 0 ++ [] ++ toLE 4 0 ++ [] ++
          toLE 4 0 ++ []) = some digest ∧
      digest.length = 64 ∧
      initHash
        ⟨1, 64, Vector.replicate 8 0, List.replicate 128 7, List.replicate 72 0, rfl, rfl⟩
        (List.replicate 100 5) [] [] [] 3 32 .modeID =
        some ⟨digest ++ List.replicate 8 0, List.replicate 128 0, Vector.replicate 8 0⟩ :=
  initHash_checkSum
    ⟨1, 64, Vector.replicate 8 0, List.replicate 128 7, List.replicate 72 0, rfl, rfl⟩
    (List.replicate 100 5) [] [] [] 3 32 .modeID List.length_replicate

end Secmem.Argon2
