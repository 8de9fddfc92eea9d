import Secmem.Framework.ByteMemory
import Secmem.Framework.KeyStream
import Secmem.Framework.LittleEndian
import Mathlib.Data.List.DropRight
import Mathlib.Data.List.Defs

/-!
# ChaCha20-Poly1305 as OpenSSH applies it to key files

`openssh_chacha.go` writes the cipher out: the original ChaCha20, with a 64-bit counter and a 64-bit
nonce, whose block 0 gives the key of the authenticator and whose blocks from 1 on encrypt.  The
state of the block function, the keystream block and the keys are local arrays, hence values here;
input and output are slices and may be the same one.

The reference is the cipher as its author describes it: a square of words, rounds on its columns and
on its diagonals, every quarter of a round at once.  `chachaBlock_eq` says that the code, which goes
through an array of sixteen words one quarter after another, computes that;
`opensshChaChaOpen_exact` says what opening returns and writes, whatever function the authenticator
`poly1305.Sum` is.
-/

namespace Secmem.InPlace

open ByteStrings LittleEndian MemProg ByteMem

/-! ## The block function of the code -/

def chachaBlockSize : ℕ := 64

def chachaKeyLen : ℕ := 32

local instance neZero_words : NeZero 16 := ⟨by decide⟩

abbrev ChachaWords := Fin 16 → UInt32

/-- `bits.RotateLeft32`, for `k` below 32. -/
def rotateLeft32 (w : UInt32) (k : UInt32) : UInt32 := w <<< k ||| w >>> (32 - k)

/-- `x[a] += x[b]`. -/
def addWord (x : ChachaWords) (a b : Fin 16) : ChachaWords := Function.update x a (x a + x b)

/-- `x[d] = bits.RotateLeft32(x[d]^x[a], k)`. -/
def mixWord (x : ChachaWords) (d a : Fin 16) (k : UInt32) : ChachaWords :=
  Function.update x d (rotateLeft32 (x d ^^^ x a) k)

def chachaQR (x : ChachaWords) (a b c d : Fin 16) : ChachaWords :=
  let x := addWord x a b
  let x := mixWord x d a 16
  let x := addWord x c d
  let x := mixWord x b c 12
  let x := addWord x a b
  let x := mixWord x d a 8
  let x := addWord x c d
  mixWord x b c 7

/-- A pass of the loop: a column round and a diagonal round. -/
def chachaPass (x : ChachaWords) : ChachaWords :=
  let x := chachaQR x 0 4 8 12
  let x := chachaQR x 1 5 9 13
  let x := chachaQR x 2 6 10 14
  let x := chachaQR x 3 7 11 15
  let x := chachaQR x 0 5 10 15
  let x := chachaQR x 1 6 11 12
  let x := chachaQR x 2 7 8 13
  chachaQR x 3 4 9 14

variable (key nonce : Bytes)

/-- The array `s` of `chachaBlock`. -/
def chachaStart (counter : UInt64) : ChachaWords := fun i =>
  if i.val < 4 then [0x61707865, 0x3320646e, 0x79622d32, 0x6b206574].getD i 0
  else if i.val < 12 then word32 (key.drop (4 * (i - 4)))
  else if i.val = 12 then counter.toUInt32
  else if i.val = 13 then (counter >>> 32).toUInt32
  else if i.val = 14 then word32 nonce
  else word32 (nonce.drop 4)

/-- The bytes of sixteen words. -/
def putWords (x : ChachaWords) : Bytes := (List.finRange 16).flatMap fun i => putWord32 (x i)

@[irreducible] def chachaBlock (counter : UInt64) : Bytes :=
  let s := chachaStart key nonce counter
  let x := chachaPass^[10] s
  putWords fun i => x i + s i

/-! ## The cipher of the reference -/

/-- A quarter of a round: what becomes of four words. -/
def quarterRound (a b c d : UInt32) : Fin 4 → UInt32 :=
  let a₁ := a + b
  let d₁ := rotateLeft32 (d ^^^ a₁) 16
  let c₁ := c + d₁
  let b₁ := rotateLeft32 (b ^^^ c₁) 12
  let a₂ := a₁ + b₁
  let d₂ := rotateLeft32 (d₁ ^^^ a₂) 8
  let c₂ := c₁ + d₂
  ![a₂, rotateLeft32 (b₁ ^^^ c₂) 7, c₂, d₂]

/-- Four rows of four words. -/
abbrev Square := Fin 4 → Fin 4 → UInt32

/-- Every column goes through a quarter of a round. -/
def columnRound (x : Square) : Square := fun row col =>
  quarterRound (x 0 col) (x 1 col) (x 2 col) (x 3 col) row

/-- Every diagonal goes through a quarter of a round; an entry is on the one that begins `row`
columns to its left in the first row. -/
def diagonalRound (x : Square) : Square := fun row col =>
  quarterRound (x 0 (col - row)) (x 1 (col - row + 1)) (x 2 (col - row + 2))
    (x 3 (col - row + 3)) row

/-- The words of a string of 64 bytes, row by row. -/
def square (s : Bytes) : Square := fun row col => word32 (s.drop (4 * (4 * row.val + col.val)))

/-- The bytes of a square, row by row. -/
def squareBytes (x : Square) : Bytes :=
  (List.finRange 4).flatMap fun row => (List.finRange 4).flatMap fun col => putWord32 (x row col)

/-- A block of ChaCha20: the constant, the key, the counter in eight bytes and the nonce go through
twenty rounds and are added to what comes out. -/
@[irreducible] def chacha20 (counter : ℕ) : Bytes :=
  let s := square (ascii "expand 32-byte k" ++ key ++ toLE 8 counter ++ nonce)
  squareBytes fun row col =>
    (fun x => diagonalRound (columnRound x))^[10] s row col + s row col

/-! ## They agree -/

section Rounds

variable {x : ChachaWords} {a b c d i : Fin 16} {k : UInt32}

lemma addWord_self : addWord x a b a = x a + x b := Function.update_self _ _ _

lemma addWord_of_ne (h : i ≠ a) : addWord x a b i = x i := Function.update_of_ne h _ _

lemma mixWord_self : mixWord x d a k d = rotateLeft32 (x d ^^^ x a) k := Function.update_self _ _ _

lemma mixWord_of_ne (h : i ≠ d) : mixWord x d a k i = x i := Function.update_of_ne h _ _

/-- On four different words the code's quarter of a round is that of the reference. -/
lemma chachaQR_apply (x : ChachaWords) (hab : a ≠ b) (hac : a ≠ c) (had : a ≠ d) (hbc : b ≠ c)
    (hbd : b ≠ d) (hcd : c ≠ d) (i : Fin 16) : chachaQR x a b c d i =
      if i = a then quarterRound (x a) (x b) (x c) (x d) 0
      else if i = b then quarterRound (x a) (x b) (x c) (x d) 1
      else if i = c then quarterRound (x a) (x b) (x c) (x d) 2
      else if i = d then quarterRound (x a) (x b) (x c) (x d) 3
      else x i := by
  unfold chachaQR
  split_ifs with ha hb hc hd
  · subst ha
    simp [addWord_self, addWord_of_ne, mixWord_self, mixWord_of_ne, quarterRound, *, Ne.symm]
  · subst hb
    simp [addWord_self, addWord_of_ne, mixWord_self, mixWord_of_ne, quarterRound, *, Ne.symm]
  · subst hc
    simp [addWord_self, addWord_of_ne, mixWord_self, mixWord_of_ne, quarterRound, *, Ne.symm]
  · subst hd
    simp [addWord_self, addWord_of_ne, mixWord_self, mixWord_of_ne, quarterRound, *, Ne.symm]
  · simp [addWord_of_ne, mixWord_of_ne, *]

/-- The array of words as a square. -/
def toSquare (x : ChachaWords) : Square := fun row col => x ⟨4 * row.val + col.val, by omega⟩

lemma toSquare_columns (x : ChachaWords) :
    toSquare (chachaQR (chachaQR (chachaQR (chachaQR x 0 4 8 12) 1 5 9 13) 2 6 10 14) 3 7 11 15) =
      columnRound (toSquare x) := by
  funext row col
  fin_cases row <;> fin_cases col <;> simp [toSquare, columnRound, chachaQR_apply]

lemma toSquare_diagonals (x : ChachaWords) :
    toSquare (chachaQR (chachaQR (chachaQR (chachaQR x 0 5 10 15) 1 6 11 12) 2 7 8 13) 3 4 9 14) =
      diagonalRound (toSquare x) := by
  funext row col
  fin_cases row <;> fin_cases col <;> simp [toSquare, diagonalRound, chachaQR_apply] <;> rfl

/-- The first four quarters of a pass are a round on the columns, the others one on the
diagonals. -/
lemma toSquare_chachaPass (x : ChachaWords) :
    toSquare (chachaPass x) = diagonalRound (columnRound (toSquare x)) := by
  rw [chachaPass, toSquare_diagonals, toSquare_columns]

lemma toSquare_iterate (n : ℕ) (x : ChachaWords) :
    toSquare (chachaPass^[n] x) = (fun x => diagonalRound (columnRound x))^[n] (toSquare x) := by
  have h : Function.Semiconj toSquare chachaPass fun x => diagonalRound (columnRound x) :=
    toSquare_chachaPass
  exact h.iterate_right n x

end Rounds

/-- Writing the words of an array one after the other goes through the square row by row. -/
lemma putWords_add (x y : ChachaWords) : (putWords fun i => x i + y i) =
    squareBytes fun row col => toSquare x row col + toSquare y row col := rfl

/-- The low word of the counter. -/
lemma toUInt32_ofNat (n : ℕ) : (UInt64.ofNat n).toUInt32 = UInt32.ofNat n := by
  apply UInt32.toNat_inj.mp
  rw [UInt64.toNat_toUInt32, UInt64.toNat_ofNat', UInt32.toNat_ofNat']
  omega

/-- The high word of the counter. -/
lemma toUInt32_shiftRight_ofNat (n : ℕ) :
    (UInt64.ofNat n >>> 32).toUInt32 = UInt32.ofNat (n / 256 ^ 4) := by
  apply UInt32.toNat_inj.mp
  rw [UInt64.toNat_toUInt32, UInt64.toNat_shiftRight, UInt64.toNat_ofNat', UInt32.toNat_ofNat',
    Nat.shiftRight_eq_div_pow]
  change n % 2 ^ 64 / 2 ^ 32 % 2 ^ 32 = n / 2 ^ 32 % 2 ^ 32
  omega

lemma chachaStart_of_lt (counter : UInt64) {i : Fin 16} (hi : i.val < 4) :
    chachaStart key nonce counter i = word32 ((ascii "expand 32-byte k").drop (4 * i.val)) := by
  rw [chachaStart, if_pos hi]
  generalize i.val = i at *
  interval_cases i <;> decide

/-- The words of the code's array are those of the constant, the key, the counter and the nonce. -/
lemma chachaStart_eq {key nonce : Bytes} (hkey : key.length = 32) (counter : ℕ) (i : Fin 16) :
    chachaStart key nonce (UInt64.ofNat counter) i =
      word32 ((ascii "expand 32-byte k" ++ (key ++ (toLE 4 counter ++
        (toLE 4 (counter / 256 ^ 4) ++ nonce)))).drop (4 * i.val)) := by
  have hconst : (ascii "expand 32-byte k").length = 16 := by decide
  by_cases h4 : i.val < 4
  · rw [chachaStart_of_lt key nonce _ h4, word32_drop_append (by omega)]
  obtain ⟨i, hi⟩ := i
  obtain ⟨j, rfl⟩ := Nat.exists_eq_add_of_le (Nat.not_lt.mp h4)
  rw [show 4 * (4 + j) = (ascii "expand 32-byte k").length + 4 * j by omega,
    List.drop_length_add_append, chachaStart, if_neg h4]
  dsimp only
  by_cases h12 : 4 + j < 12
  · rw [if_pos h12, word32_drop_append (by omega), Nat.add_sub_cancel_left]
  obtain ⟨l, rfl⟩ := Nat.exists_eq_add_of_le (show 8 ≤ j by omega)
  rw [if_neg h12, show 4 * (8 + l) = key.length + 4 * l by omega, List.drop_length_add_append]
  have hl : l < 4 := by omega
  interval_cases l
  · rw [if_pos rfl, Nat.mul_zero, List.drop_zero, word32_toLE, toUInt32_ofNat]
  · rw [if_neg (by decide), if_pos rfl, show 4 * 1 = (toLE 4 counter).length + 0 by simp,
      List.drop_length_add_append, List.drop_zero, word32_toLE, toUInt32_shiftRight_ofNat]
  · rw [if_neg (by decide), if_neg (by decide), if_pos rfl, ← List.append_assoc,
      List.drop_left' (by simp)]
  · rw [if_neg (by decide), if_neg (by decide), if_neg (by decide), ← List.append_assoc,
      show 4 * 3 = (toLE 4 counter ++ toLE 4 (counter / 256 ^ 4)).length + 4 by simp,
      List.drop_length_add_append]

/-- The code's block function is ChaCha20, with the counter modulo `2 ^ 64`. -/
lemma chachaBlock_eq {key : Bytes} (hkey : key.length = 32) (nonce : Bytes) (counter : ℕ) :
    chachaBlock key nonce (UInt64.ofNat counter) = chacha20 key nonce counter := by
  have hstart : toSquare (chachaStart key nonce (UInt64.ofNat counter)) =
      square (ascii "expand 32-byte k" ++ key ++ toLE 8 counter ++ nonce) := by
    funext row col
    rw [toSquare, chachaStart_eq hkey, square, show 8 = 4 + 4 from rfl, toLE_add 4 4 counter]
    simp only [List.append_assoc]
  unfold chachaBlock chacha20
  rw [← hstart]
  dsimp only
  rw [← toSquare_iterate, putWords_add]

lemma length_squareBytes (x : Square) : (squareBytes x).length = 64 := by
  simp [squareBytes, List.length_flatMap]

lemma length_chacha20 (counter : ℕ) : (chacha20 key nonce counter).length = 64 := by
  unfold chacha20
  exact length_squareBytes _

/-! ## Encryption -/

/-- `subtle.XORBytes(dst, x, y)` for an array `y`: panics where `dst` is too short or overlaps `x`
without beginning with it. -/
def xorBytes (dst x : Span) (y : Bytes) : MemProg ℕ := do
  let n := min x.len y.length
  if n = 0 then return 0
  if dst.len < n then fault
  else if dst.off ≠ x.off ∧ ¬(⟨dst.off, n⟩ : Span).Apart ⟨x.off, n⟩ then fault
  else do
    let bs ← contents ⟨x.off, n⟩
    put dst (xor bs (y.take n))

/-- A round of `chachaXOR`, for what is left of the input and of the output, and the counter. -/
def chachaRound (x : Span × Span × UInt64) : MemProg (Span × Span × UInt64) := do
  let (src, dst, counter) := x
  let ks := chachaBlock key nonce counter
  let n := min src.len chachaBlockSize
  let out ← slice dst 0 n
  let first ← slice src 0 n
  let _ ← xorBytes out first (ks.take n)
  let src ← slice src n src.len
  let dst ← slice dst n dst.len
  pure (src, dst, counter + 1)

def chachaXOR (counter : UInt64) (dst src : Span) : MemProg Unit := do
  let _ ← loop (fun x => decide (0 < x.1.len)) (chachaRound key nonce) src.len (src, dst, counter)

/-- `subtle.ConstantTimeCompare`, by its documentation. -/
def constantTimeCompare (x y : Bytes) : ℕ := if x = y then 1 else 0

/-- The nonce of a key file: its sequence number is zero. -/
def keyFileNonce : Bytes := List.replicate 8 0

/-- `opensshChaChaOpen`, over the function that `poly1305.Sum` computes of a key and a message. -/
def opensshChaChaOpen (poly1305 : Bytes → Bytes → Bytes) (dst src tag keyMaterial : Span) :
    MemProg Bool := do
  let half ← slice keyMaterial 0 chachaKeyLen
  let key ← contents half
  let block := chachaBlock key keyFileNonce 0
  let polyKey := block.take chachaKeyLen
  let msg ← contents src
  let want := poly1305 polyKey msg
  let tag ← contents tag
  if constantTimeCompare want tag ≠ 1 then return false
  chachaXOR key keyFileNonce 1 dst src
  return true

section Open

variable {key nonce : Bytes} {m : ByteMem} (poly1305 : Bytes → Bytes → Bytes)

lemma wp_xorBytes {dst x : Span} {y : Bytes} {n : ℕ} (hx : x.len = n) (hy : y.length = n)
    (hdst : n ≤ dst.len) (hsame : dst.off = x.off ∨ (⟨dst.off, n⟩ : Span).Apart ⟨x.off, n⟩) :
    wp (xorBytes dst x y) m fun _ m' => m' = m.write dst.off (xor (m.read x.off n) y) := by
  have hmin : min x.len y.length = n := by omega
  have hout : (xor (m.read x.off n) y).length = n := by rw [length_xor]; simp [hy]
  unfold xorBytes
  rw [hmin]
  by_cases hn : n = 0
  · subst hn
    rw [if_pos rfl, wp_pure, List.length_eq_zero_iff.mp hout, write_nil]
  · rw [if_neg hn, if_neg (by omega), if_neg (by tauto), wp_bind, wp_contents, wp_put,
      List.take_of_length_le hy.le]
    dsimp only [Span.bytes]
    rw [List.take_of_length_le (by omega)]

/-- What a round of encryption writes. -/
lemma wp_chachaRound {src dst : Span} {n k : ℕ} (hkey : key.length = 32) (hn : n = min src.len 64)
    (hdst : n ≤ dst.len) (hsame : dst.off = src.off ∨ (⟨dst.off, n⟩ : Span).Apart ⟨src.off, n⟩) :
    wp (chachaRound key nonce (src, dst, UInt64.ofNat k)) m fun x m' =>
      x = (⟨src.off + n, src.len - n⟩, ⟨dst.off + n, dst.len - n⟩, UInt64.ofNat (k + 1)) ∧
      m' = m.write dst.off (xor (m.read src.off n) ((chacha20 key nonce k).take n)) := by
  have hks : ((chacha20 key nonce k).take n).length = n := by
    rw [List.length_take, length_chacha20]
    omega
  unfold chachaRound chachaBlockSize
  dsimp only
  rw [← hn, chachaBlock_eq hkey, wp_bind, wp_slice (by omega) hdst, wp_bind,
    wp_slice (by omega) (by omega), wp_bind]
  refine wp_mono (wp_xorBytes (n := n) (by simp) hks (by simp) (by simpa using hsame)) ?_
  rintro _ m' rfl
  rw [wp_bind, wp_slice (by omega) le_rfl, wp_bind, wp_slice hdst le_rfl, wp_pure]
  refine ⟨?_, rfl⟩
  rw [UInt64.ofNat_add]
  rfl

/-- What a round of encryption has to find; the output so far goes on to be `target`. -/
structure ChachaInv (key nonce : Bytes) (target : Bytes) (dst src : Span) (m₀ : ByteMem)
    (x : Span × Span × UInt64) (m : ByteMem) : Prop where
  left : x.1.len ≤ src.len
  srcOff : x.1.off = src.off + (src.len - x.1.len)
  dstOff : x.2.1.off = dst.off + (src.len - x.1.len)
  dstLen : x.2.1.len = dst.len - (src.len - x.1.len)
  rest : ∃ k done, x.2.2 = UInt64.ofNat k ∧ done.length = src.len - x.1.len ∧
    m = m₀.write dst.off done ∧
    done ++ xor (m₀.read x.1.off x.1.len) (keystream 64 (chacha20 key nonce) k x.1.len) = target

lemma ChachaInv.step {target : Bytes} {dst src : Span} {m₀ : ByteMem} {x : Span × Span × UInt64}
    (hkey : key.length = 32) (hdst : src.len ≤ dst.len)
    (hsame : dst.off = src.off ∨ (⟨dst.off, src.len⟩ : Span).Apart src)
    (h : ChachaInv key nonce target dst src m₀ x m) (hpos : 0 < x.1.len) :
    wp (chachaRound key nonce x) m fun x' m' =>
      ChachaInv key nonce target dst src m₀ x' m' ∧ x'.1.len < x.1.len := by
  obtain ⟨xs, xd, counter⟩ := x
  obtain ⟨hleft, hsrcOff, hdstOff, hdstLen, ⟨k, done, hcounter, hdone, hm, htarget⟩⟩ := h
  dsimp only [Span.Apart] at *
  obtain ⟨n, hn⟩ : ∃ n, n = min xs.len 64 := ⟨_, rfl⟩
  rw [hcounter]
  refine wp_mono (wp_chachaRound hkey hn (by omega) (by dsimp only [Span.Apart]; omega)) ?_
  rintro _ m' ⟨rfl, rfl⟩
  -- What is left of the input has not been written to, also where the output is the same slice.
  have hin : m.read xs.off n = m₀.read xs.off n := by
    rw [hm, read_write_apart m₀ (by omega)]
  have hnext := xor_keystream_block (chacha20 key nonce) k (length_read m₀ xs.off xs.len)
    (length_chacha20 key nonce k) (by decide)
  rw [← hn, take_read m₀ _ (by omega), drop_read] at hnext
  refine ⟨⟨?_, ?_, ?_, ?_, ⟨k + 1, done ++ xor (m₀.read xs.off n) ((chacha20 key nonce k).take n),
    rfl, ?_, ?_, ?_⟩⟩, ?_⟩
  · dsimp only
    omega
  · dsimp only
    omega
  · dsimp only
    omega
  · dsimp only
    omega
  · rw [List.length_append, hdone, length_xor, length_read, List.length_take,
      length_chacha20]
    dsimp only
    omega
  · rw [hin, hm, write_append, hdone, ← hdstOff]
  · rw [List.append_assoc, ← hnext, htarget]
  · dsimp only
    omega

lemma wp_chachaXOR (hkey : key.length = 32) (nonce : Bytes) (k : ℕ) {dst src : Span}
    (hdst : src.len ≤ dst.len)
    (hsame : dst.off = src.off ∨ (⟨dst.off, src.len⟩ : Span).Apart src) :
    wp (chachaXOR key nonce (UInt64.ofNat k) dst src) m fun _ m' => m' = m.write dst.off
      (xor (src.bytes m) (keystream 64 (chacha20 key nonce) k src.len)) := by
  unfold chachaXOR
  rw [wp_bind]
  refine wp_loop (ChachaInv key nonce
      (xor (src.bytes m) (keystream 64 (chacha20 key nonce) k src.len)) dst src m)
    (fun x => x.1.len) ?_ le_rfl (fun x hx => of_decide_eq_true hx)
    (fun x m' hI hx => hI.step hkey hdst hsame (of_decide_eq_true hx)) fun x m' hI hx => ?_
  · exact ⟨le_rfl, by simp, by simp, by simp, k, [], rfl, by simp, by simp, rfl⟩
  · obtain ⟨j, done, -, -, hm', htarget⟩ := hI.rest
    have hzero : x.1.len = 0 := by simpa using hx
    rw [hzero, read_zero] at htarget
    rw [wp_pure, hm', ← htarget, ByteStrings.xor, List.zipWith_nil_left, List.append_nil]

/-- The authenticator of a key file's ciphertext. -/
def keyFileTag (key msg : Bytes) : Bytes :=
  poly1305 ((chacha20 key (List.replicate 8 0) 0).take 32) msg

/-- A key file's ciphertext combined with the keystream from block 1 on. -/
def keyFileXOR (key msg : Bytes) : Bytes :=
  xor msg (keystream 64 (chacha20 key (List.replicate 8 0)) 1 msg.length)

lemma length_keyFileXOR (key msg : Bytes) : (keyFileXOR key msg).length = msg.length := by
  simp [keyFileXOR, length_xor]

lemma keyFileXOR_keyFileXOR (key msg : Bytes) : keyFileXOR key (keyFileXOR key msg) = msg := by
  rw [keyFileXOR, length_keyFileXOR, keyFileXOR]
  exact xor_keystream_xor_keystream msg rfl

lemma constantTimeCompare_eq_one {x y : Bytes} : constantTimeCompare x y = 1 ↔ x = y := by
  simp [constantTimeCompare]

/-- The tag that the code computes. -/
lemma poly1305_chachaBlock {key : Bytes} (hkey : key.length = 32) (msg : Bytes) :
    poly1305 ((chachaBlock key keyFileNonce 0).take 32) msg = keyFileTag poly1305 key msg := by
  have hzero := chachaBlock_eq hkey keyFileNonce 0
  exact congrArg (fun block : Bytes => poly1305 (block.take 32) msg) hzero

lemma wp_opensshChaChaOpen {dst src : Span} (tag : Span) {keyMaterial : Span}
    (hkey : 32 ≤ keyMaterial.len) (hdst : src.len ≤ dst.len)
    (hsame : dst.off = src.off ∨ (⟨dst.off, src.len⟩ : Span).Apart src) :
    wp (opensshChaChaOpen poly1305 dst src tag keyMaterial) m fun ok m' =>
      (ok = true ∧ tag.bytes m = keyFileTag poly1305 (m.read keyMaterial.off 32) (src.bytes m) ∧
        m' = m.write dst.off (keyFileXOR (m.read keyMaterial.off 32) (src.bytes m))) ∨
      (ok = false ∧ tag.bytes m ≠ keyFileTag poly1305 (m.read keyMaterial.off 32) (src.bytes m) ∧
        m' = m) := by
  have hlen := length_read m keyMaterial.off 32
  have hwant := poly1305_chachaBlock poly1305 hlen (src.bytes m)
  have hxor := wp_chachaXOR (m := m) hlen keyFileNonce 1 hdst hsame
  unfold opensshChaChaOpen chachaKeyLen
  rw [wp_bind, wp_slice (by omega) hkey, wp_bind, wp_contents, wp_bind, wp_contents, wp_bind,
    wp_contents]
  split
  next hcmp =>
    rw [wp_pure]
    refine .inr ⟨rfl, fun htag => hcmp ?_, rfl⟩
    exact constantTimeCompare_eq_one.mpr (hwant.trans htag.symm)
  next hcmp =>
    rw [wp_bind]
    refine wp_mono hxor ?_
    rintro _ m' rfl
    rw [wp_pure, keyFileXOR, Span.length_bytes]
    refine .inl ⟨rfl, ?_, rfl⟩
    exact (constantTimeCompare_eq_one.mp (not_not.mp hcmp)).symm.trans hwant

/-- The code's block function is ChaCha20 with a 64-bit counter and a 64-bit nonce. Opening returns;
it reports success exactly if the tag is the authenticator of the ciphertext under the first 32
bytes of block 0, leaves the memory as it was if it reports failure, and otherwise writes the
ciphertext combined with the blocks from 1 on, and nothing else, whether the output is the
ciphertext's own slice or apart from it. So it inverts encryption followed by authentication. -/
theorem opensshChaChaOpen_exact (dst src tag keyMaterial : Span) (m : ByteMem)
    (hkey : keyMaterial.len = 64) (hdst : src.len ≤ dst.len)
    (hsame : dst.off = src.off ∨ (⟨dst.off, src.len⟩ : Span).Apart src) :
    (∀ (key nonce : Bytes) (counter : UInt64), key.length = 32 → nonce.length = 8 →
      chachaBlock key nonce counter = chacha20 key nonce counter.toNat) ∧
    let block := chacha20 ((keyMaterial.bytes m).take 32) (List.replicate 8 0)
    let auth := poly1305 ((block 0).take 32) (src.bytes m)
    ∃ ok m', (opensshChaChaOpen poly1305 dst src tag keyMaterial).run m = some (ok, m') ∧
      (ok = true ↔ tag.bytes m = auth) ∧
      (ok = false → m' = m) ∧
      (ok = true → m' = m.write dst.off (xor (src.bytes m) (keystream 64 block 1 src.len))) ∧
      ∀ p : Bytes, src.bytes m = xor p (keystream 64 block 1 p.length) → tag.bytes m = auth →
        ok = true ∧ m'.read dst.off src.len = p := by
  refine ⟨fun key nonce counter hlen _ => ?_, ?_⟩
  · have := chachaBlock_eq hlen nonce counter.toNat
    rwa [UInt64.ofNat_toNat] at this
  have hhalf : (keyMaterial.bytes m).take 32 = m.read keyMaterial.off 32 :=
    ByteMem.take_read m _ (by omega)
  rw [hhalf]
  intro block auth
  have hauth : auth = keyFileTag poly1305 (m.read keyMaterial.off 32) (src.bytes m) := rfl
  have hxor : xor (src.bytes m) (keystream 64 block 1 src.len) =
      keyFileXOR (m.read keyMaterial.off 32) (src.bytes m) := by
    rw [keyFileXOR, Span.length_bytes]
  obtain ⟨ok, m', hrun, ⟨rfl, htag, hm'⟩ | ⟨rfl, htag, rfl⟩⟩ :=
    wp_opensshChaChaOpen poly1305 (m := m) tag (show 32 ≤ keyMaterial.len by omega) hdst hsame
  · refine ⟨true, m', hrun, iff_of_true rfl (hauth ▸ htag), nofun, fun _ => hxor ▸ hm', ?_⟩
    intro p hp _
    have hp' : src.bytes m = keyFileXOR (m.read keyMaterial.off 32) p := hp
    refine ⟨rfl, ?_⟩
    rw [hm', ByteMem.read_write_self m dst.off (by rw [length_keyFileXOR, Span.length_bytes]), hp',
      keyFileXOR_keyFileXOR]
  · refine ⟨false, m', hrun, iff_of_false nofun (hauth ▸ htag), fun _ => rfl, nofun, ?_⟩
    intro p _ h
    exact absurd (h.trans hauth) htag

end Open

/-- Poly1305, by its description: the 16-byte pieces of the message, each with a one after it, are
the coefficients of a polynomial that is evaluated at the clamped first half of the key, and the
second half is added. -/
@[irreducible] def polynomialMAC (key msg : Bytes) : Bytes :=
  let r := ofLE (key.take 16) &&& 0x0ffffffc0ffffffc0ffffffc0fffffff
  let acc := (msg.toChunks 16).foldl (fun a c => (a + ofLE (c ++ [1])) * r % (2 ^ 130 - 5)) 0
  toLE 16 (acc + ofLE ((key.drop 16).take 16))

/-- Three bytes opened in place, under a key of zeros and with the tag that belongs to them. -/
theorem opensshChaChaOpen_exact_in_place :
    ∃ m', (opensshChaChaOpen polynomialMAC ⟨64, 3⟩ ⟨64, 3⟩ ⟨67, 16⟩ ⟨0, 64⟩).run
        (ByteMem.write (fun _ => 0) 67
          (keyFileTag polynomialMAC (List.replicate 32 0) (List.replicate 3 0))) = some (true, m') ∧
      m'.read 64 3 = (keyFileXOR (List.replicate 32 0) (List.replicate 3 0)) := by
  set tag := keyFileTag polynomialMAC (List.replicate 32 0) (List.replicate 3 0) with htag
  have hlen : tag.length = 16 := by
    rw [htag, keyFileTag, polynomialMAC]
    exact length_toLE 16 _
  have hbefore : ∀ a n, a + n ≤ 67 →
      (ByteMem.write (fun _ => 0) 67 tag).read a n = List.replicate n 0 := fun a n h => by
    rw [ByteMem.read_write_apart _ (.inl h)]
    exact ByteMem.read_eq_replicate_iff.mpr fun _ _ => rfl
  obtain ⟨-, ok, m', hrun, hok, -, hout, -⟩ := opensshChaChaOpen_exact polynomialMAC ⟨64, 3⟩
    ⟨64, 3⟩ ⟨67, 16⟩ ⟨0, 64⟩ (ByteMem.write (fun _ => 0) 67 tag) rfl le_rfl (.inl rfl)
  have hkey : (((⟨0, 64⟩ : Span).bytes (ByteMem.write (fun _ => 0) 67 tag)).take 32) =
      List.replicate 32 0 := by
    rw [Span.bytes, ByteMem.take_read _ _ (by decide), hbefore 0 32 (by decide)]
  have hsrc : (⟨64, 3⟩ : Span).bytes (ByteMem.write (fun _ => 0) 67 tag) = List.replicate 3 0 :=
    hbefore 64 3 (by decide)
  have htrue : ok = true := by
    rw [hok, hkey, hsrc]
    exact ByteMem.read_write_self _ _ hlen
  rw [hkey, hsrc] at hout
  rw [htrue] at hrun
  refine ⟨m', hrun, ?_⟩
  rw [hout htrue]
  exact ByteMem.read_write_self _ _ (length_keyFileXOR _ _)

end Secmem.InPlace
