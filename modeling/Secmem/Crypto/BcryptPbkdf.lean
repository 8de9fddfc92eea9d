import Secmem.Crypto.Errors
import Secmem.Framework.ByteStrings
import Secmem.Framework.Fuel
import Secmem.Framework.MachineInt
import Mathlib.Data.List.GetD

/-!
# `internal/bcryptpbkdf`

`Derive` works in a workspace of the caller's: the Blowfish schedule is keyed in place, digests and
blocks are fields, and the salt with its counter stands in a reserve of 64 bytes, or on the heap
where the reserve is too small.  The bytes of the blocks are interleaved as they are written, those
past the end of the output left out.

The tables of Blowfish and SHA-512 are parameters.  The loop over the rounds counts in Go's `int`
and tests `i <= rounds`, so for the greatest `int` it has no end (`derive_endless`).  For every
other count the output is that of the definition, which reads nothing of the workspace
(`derive_interleaves`).
-/

namespace Secmem.Crypto.BcryptPbkdf

open MachineInt ByteStrings

/-! ## Blowfish -/

structure Cipher where
  p : Vector UInt32 18
  s0 : Vector UInt32 256
  s1 : Vector UInt32 256
  s2 : Vector UInt32 256
  s3 : Vector UInt32 256

/-- The tables of a `Cipher`. -/
inductive Table
  | p
  | s0
  | s1
  | s2
  | s3

/-- Half the length of a table: the number of pairs in it. -/
def Table.pairs : Table → ℕ
  | p => 9
  | _ => 128

namespace Cipher

/-- A word of a table is assigned. -/
def put (c : Cipher) (t : Table) (i : ℕ) (x : UInt32) : Cipher :=
  match t with
  | .p => { c with p := c.p.setIfInBounds i x }
  | .s0 => { c with s0 := c.s0.setIfInBounds i x }
  | .s1 => { c with s1 := c.s1.setIfInBounds i x }
  | .s2 => { c with s2 := c.s2.setIfInBounds i x }
  | .s3 => { c with s3 := c.s3.setIfInBounds i x }

/-- What a half of the block contributes to the other in a round. -/
def mix (c : Cipher) (x : UInt32) : UInt32 :=
  ((c.s0.get (x >>> 24).toUInt8.toFin + c.s1.get (x >>> 16).toUInt8.toFin) ^^^
    c.s2.get (x >>> 8).toUInt8.toFin) + c.s3.get x.toUInt8.toFin

/-- Two of the sixteen rounds of `encryptBlock`. -/
def tworounds (c : Cipher) (x : UInt32 × UInt32) (i : Fin 8) : UInt32 × UInt32 :=
  let xr := x.2 ^^^ (c.mix x.1 ^^^ c.p.get ⟨2 * i + 1, by omega⟩)
  (x.1 ^^^ (c.mix xr ^^^ c.p.get ⟨2 * i + 2, by omega⟩), xr)

def encryptBlock (c : Cipher) (l r : UInt32) : UInt32 × UInt32 :=
  let x := (List.finRange 8).foldl c.tworounds (l ^^^ c.p.get 0, r)
  (x.2 ^^^ c.p.get 17, x.1)

end Cipher

section Schedule

variable {n m : ℕ} [NeZero n] [NeZero m]

/-- `getNextWord`: the word at a position that runs in a circle, and the position behind it. -/
def getNextWord (b : Vector UInt8 n) (pos : Fin n) : UInt32 × Fin n :=
  (List.range 4).foldl (fun x _ => (x.1 <<< 8 ||| (b.get x.2).toUInt32, x.2 + 1)) (0, pos)

/-- The first loop of both expansions: the key goes into the table `p`. -/
def foldKey (key : Vector UInt8 n) (c : Cipher) : Cipher :=
  ((List.finRange 18).foldl (fun (x : Cipher × Fin n) (i : Fin 18) =>
    let d := getNextWord key x.2
    (x.1.put .p i (x.1.p.get i ^^^ d.1), d.2)) (c, 0)).1

/-- The block that is encrypted over and over, with the position in the salt and the schedule. -/
structure Expansion (σ : Type) where
  pos : σ
  block : UInt32 × UInt32
  cipher : Cipher

/-- The loop that fills a table: `fold` puts the salt into the block before it is encrypted. -/
def fillTable {σ : Type} (fold : σ → UInt32 × UInt32 → σ × (UInt32 × UInt32)) (e : Expansion σ)
    (t : Table) : Expansion σ :=
  (List.range t.pairs).foldl (fun e i =>
    let s := fold e.pos e.block
    let x := e.cipher.encryptBlock s.2.1 s.2.2
    ⟨s.1, x, (e.cipher.put t (2 * i) x.1).put t (2 * i + 1) x.2⟩) e

/-- The loops of both expansions behind the first. -/
def fillTables {σ : Type} (fold : σ → UInt32 × UInt32 → σ × (UInt32 × UInt32)) (pos : σ)
    (c : Cipher) : Cipher :=
  ([Table.p, .s0, .s1, .s2, .s3].foldl (fillTable fold) ⟨pos, (0, 0), c⟩).cipher

def expandKey (key : Vector UInt8 n) (c : Cipher) : Cipher :=
  fillTables (fun _ x => ((), x)) () (foldKey key c)

def expandKeyWithSalt (key : Vector UInt8 n) (salt : Vector UInt8 m) (c : Cipher) : Cipher :=
  fillTables (fun pos x =>
    let a := getNextWord salt pos
    let b := getNextWord salt a.2
    (b.2, (x.1 ^^^ a.1, x.2 ^^^ b.1))) 0 (foldKey key c)

/-- `initCipher`, from the tables `T` of the package. -/
def initCipher (T c : Cipher) : Cipher :=
  { c with p := T.p, s0 := T.s0, s1 := T.s1, s2 := T.s2, s3 := T.s3 }

/-- `initSaltedCipher`, of a key and a salt that are not empty. -/
def initSaltedCipher (T c : Cipher) (key : Vector UInt8 n) (salt : Vector UInt8 m) : Cipher :=
  expandKeyWithSalt key salt (initCipher T c)

end Schedule

/-! ## `bcryptHash` -/

abbrev Digest := Vector UInt8 64

abbrev Block := Vector UInt8 32

def byteAt (x : Block) (k : ℕ) : UInt8 := x[k]?.getD 0

/-- Four bytes as a big-endian word. -/
def wordAt (x : Block) (k : ℕ) : UInt32 :=
  (byteAt x k).toUInt32 <<< 24 ||| (byteAt x (k + 1)).toUInt32 <<< 16 |||
    (byteAt x (k + 2)).toUInt32 <<< 8 ||| (byteAt x (k + 3)).toUInt32

def wordBytes (x : UInt32) : Bytes :=
  [(x >>> 24).toUInt8, (x >>> 16).toUInt8, (x >>> 8).toUInt8, x.toUInt8]

/-- `Encrypt` of the eight bytes from `8 * i` on, in place. -/
def encryptAt (c : Cipher) (out : Block) (i : ℕ) : Block :=
  let x := c.encryptBlock (wordAt out (8 * i)) (wordAt out (8 * i + 4))
  Vector.ofFn fun k =>
    if 8 * i ≤ k ∧ k < 8 * i + 8 then (wordBytes x.1 ++ wordBytes x.2).getD (k - 8 * i) 0
    else out.get k

def magic : Bytes := ascii "OxychromaticBlowfishSwatDynamite"

/-- `copy` of the magic text over a block. -/
def copyMagic (out : Block) : Block := Vector.ofFn fun k => magic.getD k (out.get k)

/-- The bytes of every word turned round. -/
def swapBytes (out : Block) : Block :=
  Vector.ofFn fun k : Fin 32 => byteAt out (4 * (k / 4) + (3 - k % 4))

/-- The schedule that `bcryptHash` leaves. -/
def keySchedule (T c : Cipher) (shapass shasalt : Digest) : Cipher :=
  (List.range 64).foldl (fun c _ => expandKey shapass (expandKey shasalt c))
    (initSaltedCipher T c shapass shasalt)

/-- The encryptions of `bcryptHash`: each eighth of the block, 64 times. -/
def encryptMagic (c : Cipher) (out : Block) : Block :=
  (List.range 4).foldl (fun out i => (List.range 64).foldl (fun out _ => encryptAt c out i) out) out

/-- `bcryptHash`: the block it leaves. -/
def bcryptHash (T : Cipher) (out : Block) (shapass shasalt : Digest) (c : Cipher) : Block :=
  swapBytes (encryptMagic (keySchedule T c shapass shasalt) (copyMagic out))

/-! ## `Derive` -/

def blockSize : ℕ := 32

def saltReserve : ℕ := 64

structure Workspace where
  c : Cipher
  shapass : Digest
  shasalt : Digest
  tmp : Block
  out : Block
  saltIn : Vector UInt8 64

/-- The workspace, the heap buffer for the salt where there is one, and the output, with the places
of it that have been written, in order. -/
structure State where
  ws : Workspace
  spill : Option Bytes
  out : Bytes
  written : List ℕ

/-- The contents of the buffer that is in use for the salt. -/
def State.saltIn (s : State) : Bytes := s.spill.getD s.ws.saltIn.toList

/-- Bytes from a place on are overwritten. -/
def overwrite (pos : ℕ) (bs buf : Bytes) : Bytes :=
  buf.take pos ++ bs ++ buf.drop (pos + bs.length)

/-- A write to the buffer that is in use for the salt. -/
def State.putSalt (s : State) (pos : ℕ) (bs : Bytes) : State :=
  match s.spill with
  | some buf => { s with spill := some (overwrite pos bs buf) }
  | none =>
    let buf := overwrite pos bs s.ws.saltIn.toList
    { s with ws := { s.ws with saltIn := Vector.ofFn fun k => buf.getD k 0 } }

/-- The four bytes of the counter. -/
def counter (block : ℕ) : Bytes :=
  [UInt8.ofNat (block >>> 24), UInt8.ofNat (block >>> 16), UInt8.ofNat (block >>> 8),
    UInt8.ofNat block]

/-- A byte of a block is written into its place, if that is below the end of the output. -/
def emitByte (numBlocks block : ℕ) (s : State) (i : ℕ) : State :=
  let idx := i * numBlocks + (block - 1)
  if idx < s.out.length then
    { s with out := s.out.set idx (byteAt s.ws.out i), written := s.written ++ [idx] }
  else s

/-- The bytes of a block, one after the other. -/
def emit (numBlocks block : ℕ) (s : State) : State :=
  (List.range blockSize).foldl (emitByte numBlocks block) s

section Derive

variable (sum512 : Bytes → Digest) (T : Cipher) {w : ℕ} (rounds : BitVec w)

/-- The digest of the salt and the hash with it. -/
def rehash (shasalt : Digest) (ws : Workspace) : Workspace :=
  { ws with
    shasalt := shasalt
    tmp := bcryptHash T ws.tmp ws.shapass shasalt ws.c
    c := keySchedule T ws.c ws.shapass shasalt }

/-- The body of the loop over the rounds. -/
def round (ws : Workspace) : Workspace :=
  let ws := rehash T (sum512 ws.tmp.toList) ws
  { ws with out := ws.out.zipWith (· ^^^ ·) ws.tmp }

/-- The loop over the rounds from `i` on, at most `n` times. -/
def roundLoop : ℕ → BitVec w → Workspace → Option Workspace
  | 0, _, _ => none
  | n + 1, i, ws =>
    if i.toInt ≤ rounds.toInt then roundLoop n (i + 1) (round sum512 T ws) else some ws

/-- The first hash of a block, with the counter behind the salt. -/
def firstRound (saltLen block : ℕ) (s : State) : State :=
  let s := s.putSalt saltLen (counter block)
  let ws := rehash T (sum512 (s.saltIn.take (saltLen + 4))) s.ws
  { s with ws := { ws with out := ws.tmp } }

/-- The body of the loop over the blocks. -/
def deriveBlock (n saltLen numBlocks : ℕ) (s : State) (block : ℕ) : Option State :=
  let s := firstRound sum512 T saltLen block s
  (roundLoop sum512 T rounds n 2 s.ws).map fun ws => emit numBlocks block { s with ws := ws }

/-- `derive`, which panics where the buffer for the salt is too short. -/
def deriveChecked (n : ℕ) (password salt : Bytes) (s : State) : Option State :=
  if s.saltIn.length < salt.length + 4 then none
  else
    let numBlocks := (s.out.length + blockSize - 1) / blockSize
    let s := { s with ws := { s.ws with shapass := sum512 password } }
    (List.range' 1 numBlocks).foldlM (deriveBlock sum512 T rounds n salt.length numBlocks)
      (s.putSalt 0 salt)

def maxKeyLen : ℕ := 1024

def maxSaltLen : ℕ := 2 ^ 20

/-- `Check`. -/
def check (keyLen : ℕ) (password salt : Bytes) (rounds : ℤ) : Except Err Unit := do
  demand (1 ≤ rounds) ((Err.of .errRounds).then_ (": got " ++ toString rounds))
  demand (password ≠ []) (.of .errPassword)
  demand (salt ≠ [] ∧ salt.length ≤ maxSaltLen)
    ((Err.of .errSalt).then_ (": " ++ toString salt.length ++ " bytes, want 1 to " ++
      toString maxSaltLen))
  demand (keyLen ≠ 0) (.of .errOutput)
  demand (keyLen ≤ maxKeyLen)
    ((Err.of .errKeyLen).then_ (": " ++ toString keyLen ++ " bytes, want at most " ++
      toString maxKeyLen))

/-- `Derive`, with at most `n` rounds for a block. -/
def derive (n : ℕ) (out password salt : Bytes) (ws : Workspace) : Option (Except Err State) :=
  match check out.length password salt rounds.toInt with
  | .error e => some (.error e)
  | .ok _ =>
    let spill := if saltReserve < salt.length + 4 then
      some (List.replicate (salt.length + 4) 0) else none
    (deriveChecked sum512 T rounds n password salt ⟨ws, spill, out, []⟩).map .ok

end Derive

/-! ## The definition of `bcrypt_pbkdf` -/

section Definition

variable (sum512 : Bytes → Digest) (T : Cipher)

/-- `bcryptHash` from the start. -/
def hashed (shapass shasalt : Digest) : Block :=
  bcryptHash T (Vector.replicate 32 0) shapass shasalt T

variable (password salt : Bytes)

/-- The hash of each round of a block, from zero. -/
def roundHash (block : ℕ) : ℕ → Block
  | 0 => hashed T (sum512 password) (sum512 (salt ++ counter block))
  | i + 1 => hashed T (sum512 password) (sum512 (roundHash block i).toList)

/-- A block: its first rounds, each added to those before. -/
def blockOf (block : ℕ) : (more : ℕ) → Block
  | 0 => roundHash sum512 T password salt block 0
  | more + 1 =>
    (blockOf block more).zipWith (· ^^^ ·) (roundHash sum512 T password salt block (more + 1))

/-- The places of one block in the output. -/
def placesOf (numBlocks keyLen block : ℕ) : List ℕ :=
  ((List.range blockSize).map fun i => i * numBlocks + (block - 1)).filter (· < keyLen)

end Definition

/-! ## The rounds -/

section Rounds

variable {sum512 : Bytes → Digest} {T : Cipher} {password salt : Bytes} {ws : Workspace}
  {block k : ℕ}

lemma copyMagic_eq (out out' : Block) : copyMagic out = copyMagic out' := by
  have hlen : magic.length = 32 := by decide
  unfold copyMagic
  congr 1
  funext k
  rw [List.getD_eq_getElem _ _ (by omega), List.getD_eq_getElem _ _ (by omega)]

/-- `bcryptHash` depends on neither the block nor the schedule it is given. -/
lemma bcryptHash_eq (out : Block) (shapass shasalt : Digest) (c : Cipher) :
    bcryptHash T out shapass shasalt c = hashed T shapass shasalt := by
  have hschedule : keySchedule T c shapass shasalt = keySchedule T T shapass shasalt := rfl
  rw [hashed, bcryptHash, bcryptHash, hschedule, copyMagic_eq out (Vector.replicate 32 0)]

lemma rehash_eq (shasalt : Digest) (ws : Workspace) :
    rehash T shasalt ws = ⟨keySchedule T ws.c ws.shapass shasalt, ws.shapass, shasalt,
      hashed T ws.shapass shasalt, ws.out, ws.saltIn⟩ := by
  rw [rehash, bcryptHash_eq]

/-- Where the loop over the rounds stands after `k` of them. -/
structure Mixed (sum512 : Bytes → Digest) (T : Cipher) (password salt : Bytes) (block k : ℕ)
    (ws : Workspace) : Prop where
  shapass : ws.shapass = sum512 password
  tmp : ws.tmp = roundHash sum512 T password salt block k
  out : ws.out = blockOf sum512 T password salt block k

lemma Mixed.round (h : Mixed sum512 T password salt block k ws) :
    Mixed sum512 T password salt block (k + 1) (round sum512 T ws) := by
  have htmp : hashed T ws.shapass (sum512 ws.tmp.toList) =
      roundHash sum512 T password salt block (k + 1) := by
    rw [h.shapass, h.tmp, roundHash]
  rw [BcryptPbkdf.round, rehash_eq]
  refine ⟨h.shapass, htmp, ?_⟩
  rw [blockOf, ← htmp, ← h.out]

variable {w : ℕ} {rounds i : BitVec w}

/-- The counter stays below the greatest `int`, so the loop ends behind the last round. -/
lemma Mixed.roundLoop (hw : 3 ≤ w) (hrounds : rounds.toInt < 2 ^ (w - 1) - 1) {m : ℕ}
    (hi : i.toInt + m = rounds.toInt + 1) (h : Mixed sum512 T password salt block k ws) :
    Ends (fun n => roundLoop sum512 T rounds n i ws) fun ws' =>
      ws'.saltIn = ws.saltIn ∧ Mixed sum512 T password salt block (k + m) ws' := by
  have hsalt : ∀ ws : Workspace, (BcryptPbkdf.round sum512 T ws).saltIn = ws.saltIn := by
    intro ws
    rw [BcryptPbkdf.round, rehash_eq]
  induction m generalizing i k ws with
  | zero =>
    refine Ends.succ ?_
    simp only [BcryptPbkdf.roundLoop, if_neg (show ¬ i.toInt ≤ rounds.toInt by omega)]
    exact ends_pure ⟨rfl, h⟩
  | succ m ih =>
    refine Ends.succ ?_
    simp only [BcryptPbkdf.roundLoop, if_pos (show i.toInt ≤ rounds.toInt by omega)]
    have hone : (1 : BitVec w).toInt = 1 := by
      have := toInt_ofNat_of_fits (w := w) (by omega) (n := 1)
        (fits_of_nonneg (by omega) (lt_of_lt_of_le (by norm_num : (1 : ℤ) < 2 ^ 1)
          (pow_le_pow_right₀ (by norm_num) (by omega))))
      simpa using this
    have hsucc : (i + 1).toInt = i.toInt + 1 :=
      toInt_add_of_fits (by omega) rfl hone ⟨by have := i.le_toInt; omega, by omega⟩
    have hnext := ih (i := i + 1) (by rw [hsucc]; omega) h.round
    rw [show k + (m + 1) = k + 1 + m by omega]
    exact hnext.mono fun ws' hws' => ⟨hws'.1.trans (hsalt ws), hws'.2⟩

end Rounds

/-! ## The salt and its counter -/

section Salt

variable {s : State} {pos : ℕ} {bs buf : Bytes}

lemma length_overwrite (h : pos + bs.length ≤ buf.length) :
    (overwrite pos bs buf).length = buf.length := by
  simp only [overwrite, List.length_append, List.length_take, List.length_drop]
  omega

/-- What stands before and in the bytes written. -/
lemma take_overwrite (h : pos ≤ buf.length) :
    (overwrite pos bs buf).take (pos + bs.length) = buf.take pos ++ bs := by
  have hlen : (buf.take pos ++ bs).length = pos + bs.length := by
    rw [List.length_append, List.length_take_of_le h]
  rw [overwrite, ← hlen, List.take_left]

lemma toList_ofFn_getD {n : ℕ} {buf : Bytes} (h : buf.length = n) :
    (Vector.ofFn fun k : Fin n => buf.getD k 0).toList = buf := by
  subst h
  refine List.ext_getElem (by simp) fun k hk hk' => ?_
  simp

/-- The reserve and the heap buffer are written alike. -/
lemma saltIn_putSalt (h : pos + bs.length ≤ s.saltIn.length) :
    (s.putSalt pos bs).saltIn = overwrite pos bs s.saltIn := by
  obtain ⟨ws, spill, out, written⟩ := s
  cases spill with
  | some buf => rfl
  | none =>
    have hlen : (overwrite pos bs ws.saltIn.toList).length = 64 :=
      (length_overwrite h).trans Vector.length_toList
    exact toList_ofFn_getD hlen

lemma putSalt_out (s : State) (pos : ℕ) (bs : Bytes) : (s.putSalt pos bs).out = s.out ∧
    (s.putSalt pos bs).written = s.written ∧
    (s.putSalt pos bs).ws.shapass = s.ws.shapass := by
  obtain ⟨ws, spill, out, written⟩ := s
  cases spill <;> simp [State.putSalt]

/-- The buffer in use for the salt has it, and room for the counter. -/
structure Salted (salt : Bytes) (s : State) : Prop where
  room : salt.length + 4 ≤ s.saltIn.length
  salt : s.saltIn.take salt.length = salt

variable {salt : Bytes}

lemma salted_putSalt (h : salt.length + 4 ≤ s.saltIn.length) : Salted salt (s.putSalt 0 salt) := by
  have hroom : 0 + salt.length ≤ s.saltIn.length := by omega
  have htake : (overwrite 0 salt s.saltIn).take (0 + salt.length) = s.saltIn.take 0 ++ salt :=
    take_overwrite (Nat.zero_le _)
  refine ⟨?_, ?_⟩
  · rw [saltIn_putSalt hroom, length_overwrite hroom]
    exact h
  · rw [saltIn_putSalt hroom]
    simpa using htake

lemma Salted.putSalt (h : Salted salt s) (block : ℕ) :
    Salted salt (s.putSalt salt.length (counter block)) ∧
      (s.putSalt salt.length (counter block)).saltIn.take (salt.length + 4) =
        salt ++ counter block := by
  have hroom : salt.length + (counter block).length ≤ s.saltIn.length := h.room
  have hput := saltIn_putSalt hroom
  have htake : (overwrite salt.length (counter block) s.saltIn).take
      (salt.length + (counter block).length) = s.saltIn.take salt.length ++ counter block :=
    take_overwrite ((Nat.le_add_right _ _).trans hroom)
  rw [h.salt, show (counter block).length = 4 from rfl] at htake
  refine ⟨⟨?_, ?_⟩, ?_⟩
  · rw [hput, length_overwrite hroom]
    exact h.room
  · have hsalt := congrArg (List.take salt.length) htake
    rw [List.take_take, Nat.min_eq_left (Nat.le_add_right _ _), List.take_left] at hsalt
    rw [hput, hsalt]
  · rw [hput, htake]

end Salt

/-! ## The output -/

section Output

variable {s : State} {numBlocks block m : ℕ}

/-- What the first `m` bytes of a block change. -/
structure EmittedFirst (numBlocks block m : ℕ) (s s' : State) : Prop where
  ws : s'.ws = s.ws
  spill : s'.spill = s.spill
  length : s'.out.length = s.out.length
  written : s'.written = s.written ++
    ((List.range m).map fun i => i * numBlocks + (block - 1)).filter (· < s.out.length)
  bytes : ∀ k < s.out.length, s'.out[k]? =
    if k % numBlocks = block - 1 ∧ k / numBlocks < m then some (byteAt s.ws.out (k / numBlocks))
    else s.out[k]?

lemma emittedFirst (h : 1 ≤ block) (h' : block ≤ numBlocks) :
    EmittedFirst numBlocks block m s ((List.range m).foldl (emitByte numBlocks block) s) := by
  induction m with
  | zero => exact ⟨rfl, rfl, rfl, by simp, fun k hk => by simp⟩
  | succ m ih =>
    have hpos : 0 < numBlocks := by omega
    -- The places of the block are the multiples of `numBlocks`, shifted.
    have hplace : ∀ k, k = m * numBlocks + (block - 1) ↔
        k % numBlocks = block - 1 ∧ k / numBlocks = m := by
      intro k
      constructor
      · rintro rfl
        rw [Nat.add_comm, Nat.add_mul_mod_self_right, Nat.mod_eq_of_lt (by omega),
          Nat.add_mul_div_right _ _ hpos, Nat.div_eq_of_lt (by omega)]
        exact ⟨rfl, by omega⟩
      · rintro ⟨hmod, hdiv⟩
        rw [← hmod, ← hdiv, Nat.mul_comm]
        exact (Nat.div_add_mod k numBlocks).symm
    rw [List.range_succ, List.foldl_append, List.foldl_cons, List.foldl_nil]
    obtain ⟨s', hs'⟩ : ∃ s', s' = (List.range m).foldl (emitByte numBlocks block) s := ⟨_, rfl⟩
    rw [← hs'] at ih ⊢
    unfold emitByte
    rw [ih.length, ih.ws]
    by_cases hidx : m * numBlocks + (block - 1) < s.out.length
    · rw [if_pos hidx]
      refine ⟨rfl, ih.spill, ?_, ?_, fun k hk => ?_⟩
      · rw [List.length_set, ih.length]
      · simp only [ih.written, List.range_succ, List.map_append, List.filter_append, List.map_cons,
          List.map_nil, List.filter_cons, List.filter_nil, decide_eq_true hidx, if_true,
          List.append_assoc]
      · rw [List.getElem?_set, ih.length]
        by_cases hk' : m * numBlocks + (block - 1) = k
        · obtain ⟨hmod, hdiv⟩ := (hplace k).mp hk'.symm
          rw [if_pos hk', if_pos hidx, if_pos ⟨hmod, by omega⟩, hdiv]
        · rw [if_neg hk', ih.bytes k hk]
          have hne : ¬ (k % numBlocks = block - 1 ∧ k / numBlocks = m) := fun h =>
            hk' ((hplace k).mpr h).symm
          refine if_congr ?_ rfl rfl
          constructor
          · rintro ⟨hmod, hdiv⟩
            exact ⟨hmod, by omega⟩
          · rintro ⟨hmod, hdiv⟩
            exact ⟨hmod, by omega⟩
    · rw [if_neg hidx]
      refine ⟨ih.ws, ih.spill, ih.length, ?_, fun k hk => ?_⟩
      · simp only [ih.written, List.range_succ, List.map_append, List.filter_append, List.map_cons,
          List.map_nil, List.filter_cons, List.filter_nil, decide_eq_false hidx,
          Bool.false_eq_true, if_false, List.append_nil]
      · rw [ih.bytes k hk]
        have hne : ¬ (k % numBlocks = block - 1 ∧ k / numBlocks = m) := fun h =>
          hidx (((hplace k).mpr h) ▸ hk)
        refine if_congr ?_ rfl rfl
        constructor
        · rintro ⟨hmod, hdiv⟩
          exact ⟨hmod, by omega⟩
        · rintro ⟨hmod, hdiv⟩
          exact ⟨hmod, by omega⟩

end Output

/-! ## The blocks -/

section Blocks

variable {sum512 : Bytes → Digest} {T : Cipher} {password salt : Bytes} {s : State}
  {numBlocks keyLen more b : ℕ}

/-- Where the loop over the blocks stands after the first `b` of them. -/
structure Emitted (sum512 : Bytes → Digest) (T : Cipher) (password salt : Bytes)
    (numBlocks keyLen more b : ℕ) (s : State) : Prop where
  shapass : s.ws.shapass = sum512 password
  salted : Salted salt s
  length : s.out.length = keyLen
  written : s.written = (List.range b).flatMap fun j => placesOf numBlocks keyLen (j + 1)
  bytes : ∀ k < keyLen, k % numBlocks < b → s.out[k]? =
    some (byteAt (blockOf sum512 T password salt (k % numBlocks + 1) more) (k / numBlocks))

/-- The first hash of a block is that of the salt and the counter. -/
lemma Emitted.firstRound (h : Emitted sum512 T password salt numBlocks keyLen more b s)
    (block : ℕ) :
    Emitted sum512 T password salt numBlocks keyLen more b
        (firstRound sum512 T salt.length block s) ∧
      Mixed sum512 T password salt block 0 (firstRound sum512 T salt.length block s).ws := by
  obtain ⟨hsalted, htake⟩ := h.salted.putSalt block
  obtain ⟨hout, hwritten, hshapass⟩ := putSalt_out s salt.length (counter block)
  obtain ⟨s', hs'⟩ : ∃ s', s' = s.putSalt salt.length (counter block) := ⟨_, rfl⟩
  unfold BcryptPbkdf.firstRound
  rw [← hs'] at hsalted htake hout hwritten hshapass ⊢
  dsimp only
  rw [htake, rehash_eq, hshapass, h.shapass]
  have hsaltIn : ∀ c sp ss tmp out, State.saltIn ⟨⟨c, sp, ss, tmp, out, s'.ws.saltIn⟩, s'.spill,
      s'.out, s'.written⟩ = s'.saltIn := fun _ _ _ _ _ => rfl
  refine ⟨⟨rfl, ⟨?_, ?_⟩, hout ▸ h.length, hwritten ▸ h.written, fun k hk hb => ?_⟩, rfl, ?_, ?_⟩
  · rw [hsaltIn]
    exact hsalted.room
  · rw [hsaltIn]
    exact hsalted.salt
  · rw [← h.bytes k hk hb, ← hout]
  · rw [roundHash]
  · rw [blockOf, roundHash]

lemma Emitted.emit (h : Emitted sum512 T password salt numBlocks keyLen more b s)
    (hb : b < numBlocks) (hkeyLen : keyLen ≤ blockSize * numBlocks)
    (hout : s.ws.out = blockOf sum512 T password salt (b + 1) more) :
    Emitted sum512 T password salt numBlocks keyLen more (b + 1) (emit numBlocks (b + 1) s) := by
  have hfirst : EmittedFirst numBlocks (b + 1) blockSize s (BcryptPbkdf.emit numBlocks (b + 1) s) :=
    emittedFirst (by omega) (by omega)
  obtain ⟨s', hs'⟩ : ∃ s', s' = BcryptPbkdf.emit numBlocks (b + 1) s := ⟨_, rfl⟩
  rw [← hs'] at hfirst ⊢
  have hsaltIn : s'.saltIn = s.saltIn := by rw [State.saltIn, State.saltIn, hfirst.ws, hfirst.spill]
  refine ⟨hfirst.ws ▸ h.shapass, ⟨hsaltIn ▸ h.salted.room, hsaltIn ▸ h.salted.salt⟩,
    hfirst.length.trans h.length, ?_, fun k hk hmod => ?_⟩
  · rw [hfirst.written, h.written, h.length, List.range_succ, List.flatMap_append,
      List.flatMap_cons, List.flatMap_nil, List.append_nil, placesOf]
  · have hdiv : k / numBlocks < blockSize :=
      Nat.div_lt_of_lt_mul (by rw [Nat.mul_comm]; omega)
    rw [hfirst.bytes k (h.length ▸ hk)]
    by_cases hthis : k % numBlocks = b
    · rw [if_pos ⟨by omega, hdiv⟩, hout, hthis]
    · rw [if_neg (fun hc => hthis (by omega))]
      exact h.bytes k hk (by omega)

variable {w : ℕ} {rounds : BitVec w}

lemma Emitted.deriveBlock (hw : 3 ≤ w) (hmax : rounds.toInt < 2 ^ (w - 1) - 1)
    (hmore : rounds.toInt = more + 1) (h : Emitted sum512 T password salt numBlocks keyLen more b s)
    (hb : b < numBlocks) (hkeyLen : keyLen ≤ blockSize * numBlocks) :
    Ends (fun n => deriveBlock sum512 T rounds n salt.length numBlocks s (b + 1))
      (Emitted sum512 T password salt numBlocks keyLen more (b + 1)) := by
  obtain ⟨hfirst, hmixed⟩ := h.firstRound (b + 1)
  have htwo : (2 : BitVec w).toInt = 2 := by
    have := toInt_ofNat_of_fits (w := w) (by omega) (n := 2)
      (fits_of_nonneg (by omega) (lt_of_lt_of_le (by norm_num : (2 : ℤ) < 2 ^ 2)
        (pow_le_pow_right₀ (by norm_num) (by omega))))
    simpa using this
  have hloop := hmixed.roundLoop hw hmax (i := 2) (m := more) (by rw [htwo]; omega)
  refine hloop.map fun ws' ⟨hsalt, hmixed'⟩ => ?_
  obtain ⟨s', hs'⟩ : ∃ s', s' = BcryptPbkdf.firstRound sum512 T salt.length (b + 1) s := ⟨_, rfl⟩
  rw [← hs'] at hfirst hsalt ⊢
  have hsaltIn : State.saltIn { s' with ws := ws' } = s'.saltIn := by
    rw [State.saltIn, State.saltIn, hsalt]
  rw [Nat.zero_add] at hmixed'
  exact Emitted.emit ⟨hmixed'.shapass, ⟨hsaltIn ▸ hfirst.salted.room, hsaltIn ▸ hfirst.salted.salt⟩,
    hfirst.length, hfirst.written, hfirst.bytes⟩ hb hkeyLen hmixed'.out

/-- `derive`, whichever buffer has the salt. -/
lemma ends_deriveChecked (hw : 3 ≤ w) (hmax : rounds.toInt < 2 ^ (w - 1) - 1)
    (hmore : rounds.toInt = more + 1) (hroom : salt.length + 4 ≤ s.saltIn.length)
    (hwritten : s.written = []) (hnumBlocks : numBlocks = (s.out.length + 31) / 32) :
    Ends (fun n => deriveChecked sum512 T rounds n password salt s)
      (Emitted sum512 T password salt numBlocks s.out.length more numBlocks) := by
  have hkeyLen : s.out.length ≤ blockSize * numBlocks := by
    unfold blockSize
    omega
  obtain ⟨s₀, hs₀⟩ : ∃ s₀, s₀ =
      State.putSalt { s with ws := { s.ws with shapass := sum512 password } } 0 salt := ⟨_, rfl⟩
  have hstart : Emitted sum512 T password salt numBlocks s.out.length more 0 s₀ := by
    obtain ⟨hout, hwritten', hshapass⟩ := putSalt_out
      { s with ws := { s.ws with shapass := sum512 password } } 0 salt
    have hsalted : Salted salt (State.putSalt
        { s with ws := { s.ws with shapass := sum512 password } } 0 salt) := salted_putSalt hroom
    rw [← hs₀] at hout hwritten' hshapass hsalted
    exact ⟨hshapass, hsalted, congrArg List.length hout, hwritten'.trans hwritten, fun k _ hk =>
      absurd hk (Nat.not_lt_zero _)⟩
  -- The blocks one after the other.
  have hblocks : ∀ b ≤ numBlocks, Ends (fun n => (List.range' 1 b).foldlM
      (BcryptPbkdf.deriveBlock sum512 T rounds n salt.length numBlocks) s₀)
      (Emitted sum512 T password salt numBlocks s.out.length more b) := by
    intro b hb
    induction b with
    | zero => exact ends_pure hstart
    | succ b ih =>
      simp only [List.range'_1_concat, List.foldlM_append, List.foldlM_cons, List.foldlM_nil,
        bind_pure]
      refine (ih (by omega)).bind fun s hs => ?_
      rw [Nat.add_comm 1 b]
      exact hs.deriveBlock hw hmax hmore hb hkeyLen
  simp only [deriveChecked, if_neg (Nat.not_lt.mpr hroom), ← hs₀]
  have := hblocks numBlocks le_rfl
  rw [hnumBlocks] at this ⊢
  exact this

/-- A place belongs to one block: the remainder says to which, and the quotient to which byte. -/
lemma mem_placesOf {k j : ℕ} (hj : j < numBlocks) :
    k ∈ placesOf numBlocks keyLen (j + 1) ↔
      k < keyLen ∧ k % numBlocks = j ∧ k / numBlocks < blockSize := by
  have hpos : 0 < numBlocks := by omega
  simp only [placesOf, List.mem_filter, List.mem_map, List.mem_range, decide_eq_true_eq,
    Nat.add_sub_cancel]
  constructor
  · rintro ⟨⟨i, hi, rfl⟩, hk⟩
    rw [Nat.add_comm, Nat.add_mul_mod_self_right, Nat.mod_eq_of_lt hj,
      Nat.add_mul_div_right _ _ hpos, Nat.div_eq_of_lt hj, Nat.zero_add]
    exact ⟨by omega, rfl, hi⟩
  · rintro ⟨hk, rfl, hdiv⟩
    refine ⟨⟨k / numBlocks, hdiv, ?_⟩, hk⟩
    rw [Nat.mul_comm]
    exact Nat.div_add_mod k numBlocks

/-- The blocks together write every place below the end once. -/
lemma perm_places (hpos : 0 < numBlocks) (hkeyLen : keyLen ≤ blockSize * numBlocks) :
    ((List.range numBlocks).flatMap fun j => placesOf numBlocks keyLen (j + 1)).Perm
      (List.range keyLen) := by
  have hnodup :
      ((List.range numBlocks).flatMap fun j => placesOf numBlocks keyLen (j + 1)).Nodup := by
    refine List.nodup_flatMap.mpr ⟨fun j hj => ?_, ?_⟩
    · refine List.Nodup.filter _ (List.Nodup.map (fun i i' h => ?_) List.nodup_range)
      exact Nat.eq_of_mul_eq_mul_right hpos (Nat.add_right_cancel h)
    · refine List.Pairwise.imp_of_mem (fun {i j} hi hj hne => ?_) List.nodup_range
      intro k hk hk'
      have hmod := ((mem_placesOf (List.mem_range.mp hi)).mp hk).2.1
      have hmod' := ((mem_placesOf (List.mem_range.mp hj)).mp hk').2.1
      exact hne (hmod.symm.trans hmod')
  refine (List.perm_ext_iff_of_nodup hnodup List.nodup_range).mpr fun k => ?_
  rw [List.mem_flatMap, List.mem_range]
  constructor
  · rintro ⟨j, hj, hk⟩
    exact ((mem_placesOf (List.mem_range.mp hj)).mp hk).1
  · intro hk
    have hmod := Nat.mod_lt k hpos
    refine ⟨k % numBlocks, List.mem_range.mpr hmod, (mem_placesOf hmod).mpr ⟨hk, rfl, ?_⟩⟩
    exact Nat.div_lt_of_lt_mul (by rw [Nat.mul_comm]; omega)

end Blocks

/-! ## The result -/

section Result

variable {w : ℕ} {rounds : BitVec w} {sum512 : Bytes → Digest} {T : Cipher} {out password salt :
    Bytes}

lemma check_eq_ok {keyLen : ℕ} {count : ℤ} (hkey : 1 ≤ keyLen) (hkey' : keyLen ≤ maxKeyLen)
    (hpass : password ≠ []) (hsalt : 1 ≤ salt.length) (hsalt' : salt.length ≤ maxSaltLen)
    (hrounds : 1 ≤ count) : check keyLen password salt count = .ok () := by
  have hsalt'' : salt ≠ [] := List.ne_nil_of_length_pos hsalt
  simp only [check, demand, if_pos hrounds, if_pos hpass, if_pos (And.intro hsalt'' hsalt'),
    if_pos (Nat.one_le_iff_ne_zero.mp hkey), if_pos hkey']
  rfl

/-- With the greatest `int` the counter wraps before the test can fail. -/
lemma roundLoop_maxInt (hmax : 2 ^ (w - 1) - 1 ≤ rounds.toInt) (n : ℕ) (i : BitVec w)
    (ws : Workspace) : roundLoop sum512 T rounds n i ws = none := by
  induction n generalizing i ws with
  | zero => rfl
  | succ n ih =>
    have hle : i.toInt ≤ rounds.toInt := by
      have := BitVec.toInt_lt (x := i)
      omega
    rw [roundLoop, if_pos hle]
    exact ih _ _

/-- Then no block is ever finished. -/
lemma deriveChecked_maxInt (hmax : 2 ^ (w - 1) - 1 ≤ rounds.toInt) {s : State}
    (hout : 1 ≤ s.out.length) (n : ℕ) : deriveChecked sum512 T rounds n password salt s = none := by
  obtain ⟨more, hmore⟩ : ∃ more, (s.out.length + blockSize - 1) / blockSize = more + 1 :=
    Nat.exists_eq_succ_of_ne_zero (Nat.div_pos (by omega) (by decide)).ne'
  simp only [deriveChecked, hmore, List.range'_succ, List.foldlM_cons]
  split
  · rfl
  · rw [deriveBlock, roundLoop_maxInt hmax, Option.map_none]
    rfl

/-- **The output of `Derive`.**  Let `B` be the number of blocks.  With the blocks interleaved in a
buffer of `32 * B` bytes, `Derive` returns the bytes of the buffer up to the length of the output,
each written once, whatever the workspace held and wherever the salt stood, if and only if the
number of rounds is not the greatest `int`. -/
theorem derive_interleaves (hw : 3 ≤ w) (sum512 : Bytes → Digest) (T : Cipher)
    (hkey : 1 ≤ out.length) (hkey' : out.length ≤ maxKeyLen) (hpass : password ≠ [])
    (hsalt : 1 ≤ salt.length) (hsalt' : salt.length ≤ maxSaltLen) (hrounds : 1 ≤ rounds.toInt)
    {B : ℕ} (hB : B = (out.length + 31) / 32) :
    ∃ buffer : Bytes, buffer.length = 32 * B ∧
      (∀ b, 1 ≤ b → b ≤ B → ∀ i < 32, buffer[i * B + (b - 1)]? =
        some (byteAt (blockOf sum512 T password salt b (rounds.toInt.toNat - 1)) i)) ∧
      (∀ k < out.length, buffer[k]? = some (byteAt
        (blockOf sum512 T password salt (k % B + 1) (rounds.toInt.toNat - 1)) (k / B))) ∧
      (∀ ws, Ends (fun n => derive sum512 T rounds n out password salt ws) (fun r => ∃ s,
        r = .ok s ∧ s.out = buffer.take out.length ∧ s.written.Perm (List.range out.length)) ↔
          rounds.toInt < 2 ^ (w - 1) - 1) ∧
      ∀ ws spill, salt.length + 4 ≤ (State.saltIn ⟨ws, spill, out, []⟩).length →
        (Ends (fun n => deriveChecked sum512 T rounds n password salt ⟨ws, spill, out, []⟩)
          (fun s => s.out = buffer.take out.length ∧ s.written.Perm (List.range out.length)) ↔
            rounds.toInt < 2 ^ (w - 1) - 1) := by
  obtain ⟨more, hmore⟩ : ∃ more : ℕ, rounds.toInt = more + 1 :=
    ⟨rounds.toInt.toNat - 1, by omega⟩
  have htoNat : rounds.toInt.toNat - 1 = more := by omega
  rw [htoNat]
  have hpos : 0 < B := by omega
  have hkeyLen : out.length ≤ blockSize * B := by
    unfold blockSize
    omega
  obtain ⟨buffer, hbuffer⟩ : ∃ buffer, buffer = (List.range (32 * B)).map fun k =>
      byteAt (blockOf sum512 T password salt (k % B + 1) more) (k / B) := ⟨_, rfl⟩
  have hget : ∀ k < 32 * B, buffer[k]? =
      some (byteAt (blockOf sum512 T password salt (k % B + 1) more) (k / B)) := by
    intro k hk
    rw [hbuffer, List.getElem?_map, List.getElem?_range hk, Option.map_some]
  have hlength : buffer.length = 32 * B := by rw [hbuffer, List.length_map, List.length_range]
  -- What the loop over the blocks leaves is the buffer, cut.
  have hresult : ∀ s, Emitted sum512 T password salt B out.length more B s →
      s.out = buffer.take out.length ∧ s.written.Perm (List.range out.length) := by
    intro s hs
    refine ⟨List.ext_getElem? fun k => ?_, hs.written ▸ perm_places hpos hkeyLen⟩
    by_cases hk : k < out.length
    · rw [hs.bytes k hk (Nat.mod_lt k hpos), List.getElem?_take_of_lt hk,
        hget k (lt_of_lt_of_le hk hkeyLen)]
    · rw [List.getElem?_eq_none (by rw [hs.length]; omega),
        List.getElem?_eq_none (by rw [List.length_take]; omega)]
  have hendless (hmax : ¬ rounds.toInt < 2 ^ (w - 1) - 1) (ws spill) (n : ℕ) :
      deriveChecked sum512 T rounds n password salt ⟨ws, spill, out, []⟩ = none :=
    deriveChecked_maxInt (Int.not_lt.mp hmax) hkey n
  have hchecked : ∀ ws spill, salt.length + 4 ≤ (State.saltIn ⟨ws, spill, out, []⟩).length →
      (Ends (fun n => deriveChecked sum512 T rounds n password salt ⟨ws, spill, out, []⟩) (fun s =>
        s.out = buffer.take out.length ∧ s.written.Perm (List.range out.length)) ↔
          rounds.toInt < 2 ^ (w - 1) - 1) := by
    refine fun ws spill hroom => ⟨fun ⟨s, _, n, hn⟩ => ?_, fun hmax =>
      (ends_deriveChecked hw hmax hmore hroom rfl hB).mono hresult⟩
    by_contra hmax
    exact Option.some_ne_none s ((hn n le_rfl).symm.trans (hendless hmax ws spill n))
  refine ⟨buffer, hlength, fun b hb hb' i hi => ?_, fun k hk => hget k (lt_of_lt_of_le hk hkeyLen),
    fun ws => ?_, hchecked⟩
  · have hplace : i * B + (b - 1) < 32 * B := by
      have := Nat.mul_le_mul_right B (show i + 1 ≤ 32 by omega)
      rw [Nat.succ_mul] at this
      omega
    rw [hget _ hplace, Nat.add_comm (i * B), Nat.add_mul_mod_self_right, Nat.mod_eq_of_lt
      (by omega),
      Nat.add_mul_div_right _ _ hpos, Nat.div_eq_of_lt (by omega), Nat.zero_add,
      Nat.sub_add_cancel hb]
  · simp only [derive, check_eq_ok hkey hkey' hpass hsalt hsalt' hrounds]
    refine ⟨fun ⟨r, _, n, hn⟩ => ?_, fun hmax => ((hchecked ws _ ?_).mpr hmax).map
      fun s hs => ⟨s, rfl, hs⟩⟩
    · by_contra hmax
      have hnone := hn n le_rfl
      simp only [hendless hmax, Option.map_none] at hnone
      exact Option.some_ne_none r hnone.symm
    by_cases hspill : saltReserve < salt.length + 4
    · rw [if_pos hspill]
      exact (List.length_replicate ..).ge
    · rw [if_neg hspill]
      exact (Nat.not_lt.mp hspill).trans Vector.length_toList.ge

/-- A stand-in for SHA-512, and tables and a workspace of zeros. -/
def zeroDigest : Bytes → Digest := fun _ => .replicate 64 0

def zeroTables : Cipher :=
  ⟨.replicate 18 0, .replicate 256 0, .replicate 256 0, .replicate 256 0, .replicate 256 0⟩

def zeroWorkspace : Workspace :=
  ⟨zeroTables, .replicate 64 0, .replicate 64 0, .replicate 32 0, .replicate 32 0, .replicate 64 0⟩

/-- A derivation of 48 bytes in two blocks, with three rounds on a machine of 64 bits. -/
theorem derive_interleaves_two :
    ∃ buffer : Bytes, buffer.length = 32 * 2 ∧
      ∀ ws, Ends (fun n => derive zeroDigest zeroTables (3 : BitVec 64) n (List.replicate 48 0)
          (ascii "password") (ascii "salt") ws) fun r => ∃ s, r = .ok s ∧
        s.out = buffer.take (List.replicate 48 (0 : UInt8)).length ∧
          s.written.Perm (List.range (List.replicate 48 (0 : UInt8)).length) := by
  obtain ⟨buffer, hlength, -, -, hends, -⟩ :=
    derive_interleaves (by decide : 3 ≤ 64) zeroDigest zeroTables
      (by decide : 1 ≤ (List.replicate 48 (0 : UInt8)).length) (by decide)
      (by decide : ascii "password" ≠ []) (by decide : 1 ≤ (ascii "salt").length) (by decide)
      (by decide : 1 ≤ (3 : BitVec 64).toInt) (by decide : 2 = _)
  exact ⟨buffer, hlength, fun ws => (hends ws).mpr (by decide)⟩

/-- `math.MaxInt64` rounds: `Derive` accepts them and never returns. -/
theorem derive_endless :
    check (List.replicate 32 (0 : UInt8)).length (ascii "password") (ascii "salt")
      (BitVec.intMax 64).toInt = .ok () ∧
    ¬∃ n r, derive zeroDigest zeroTables (BitVec.intMax 64) n (List.replicate 32 0)
      (ascii "password") (ascii "salt") zeroWorkspace = some r := by
  have hcheck : check (List.replicate 32 (0 : UInt8)).length (ascii "password") (ascii "salt")
      (BitVec.intMax 64).toInt = .ok () := by
    refine check_eq_ok (by decide) (by decide) (by decide) (by decide) (by decide) (by decide)
  refine ⟨hcheck, ?_⟩
  rintro ⟨n, r, hr⟩
  refine Option.some_ne_none r (hr.symm.trans ?_)
  simp only [derive, hcheck]
  rw [deriveChecked_maxInt (by decide) (by decide), Option.map_none]

end Result

end Secmem.Crypto.BcryptPbkdf
