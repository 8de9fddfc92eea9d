import Secmem.Framework.ByteMemory
import Secmem.Framework.KeyStream

/-!
# HMAC and HKDF, in place

`hmac_inplace.go` computes HMAC as two one-shot hashes over a scratch region that holds the padded
key and the message, then the other padded key and the inner digest; HKDF runs it over a region that
also holds the pseudorandom key and the running block.  The destination of an HMAC may be one of the
parts of its message, and in HKDF it is.

The hashes are functions with the right output length.  Everything is stated for memory as a whole:
`wp_hmacInPlace` says what the memory is after an HMAC, so that its callers need no frame of their
own.
-/

namespace Secmem.InPlace

open ByteStrings MemProg ByteMem

/-! ## Hashes -/

/-- `inPlaceHash`, without its zero value. -/
inductive InPlaceHash
  | hashSHA224
  | hashSHA256
  | hashSHA384
  | hashSHA512
  | hashSHA512_224
  | hashSHA512_256
  | hashSHA3_224
  | hashSHA3_256
  | hashSHA3_384
  | hashSHA3_512
  | hashSHA1
  deriving DecidableEq, Repr

namespace InPlaceHash

def size : InPlaceHash → ℕ
  | hashSHA1 => 20
  | hashSHA224 | hashSHA512_224 | hashSHA3_224 => 28
  | hashSHA256 | hashSHA512_256 | hashSHA3_256 => 32
  | hashSHA384 | hashSHA3_384 => 48
  | hashSHA512 | hashSHA3_512 => 64

def block : InPlaceHash → ℕ
  | hashSHA1 | hashSHA224 | hashSHA256 => 64
  | hashSHA384 | hashSHA512 | hashSHA512_224 | hashSHA512_256 => 128
  | hashSHA3_224 => 144
  | hashSHA3_256 => 136
  | hashSHA3_384 => 104
  | hashSHA3_512 => 72

variable (h : InPlaceHash)

lemma size_pos : 0 < h.size := by cases h <;> decide

lemma size_le_block : h.size ≤ h.block := by cases h <;> decide

lemma size_le : h.size ≤ 64 := by cases h <;> decide

end InPlaceHash

/-- The one-shot functions of the standard library. -/
structure Digests where
  digest : InPlaceHash → Bytes → Bytes
  length_digest : ∀ h bs, (digest h bs).length = h.size

def maxHashSize : ℕ := 64

def hmacStackRegion : ℕ := 1536

/-! ## The constructions -/

variable (D : Digests) (h : InPlaceHash)

/-- The key as a block: hashed if it is longer, and filled up with zeros. -/
def hmacBlock (key : Bytes) : Bytes :=
  let k := if h.block < key.length then D.digest h key else key
  k ++ List.replicate (h.block - k.length) 0

/-- HMAC, of RFC 2104. -/
def hmac (key msg : Bytes) : Bytes :=
  let k := hmacBlock D h key
  D.digest h (k.map (· ^^^ 0x5c) ++ D.digest h (k.map (· ^^^ 0x36) ++ msg))

/-- `T(i)` of RFC 5869. -/
def hkdfT (D : Digests) (h : InPlaceHash) (prk info : Bytes) : ℕ → Bytes
  | 0 => []
  | i + 1 => hmac D h prk (hkdfT D h prk info i ++ info ++ [UInt8.ofNat (i + 1)])

/-- HKDF, of RFC 5869, with `n` bytes of output; a salt that is not given is a block of zeros. -/
def hkdf (secret salt info : Bytes) (n : ℕ) : Bytes :=
  let prk := hmac D h (if salt = [] then List.replicate h.size 0 else salt) secret
  ((List.range' 1 ((n + h.size - 1) / h.size)).flatMap (hkdfT D h prk info)).take n

/-! ## The code -/

/-- Where bytes are read from: a slice, or an array of the running function. -/
inductive Source
  | mem (s : Span)
  | val (bs : Bytes)

namespace Source

def len : Source → ℕ
  | mem s => s.len
  | val bs => bs.length

def bytes (m : ByteMem) : Source → Bytes
  | mem s => s.bytes m
  | val bs => bs

def load : Source → MemProg Bytes
  | mem s => contents s
  | val bs => pure bs

/-- The slice, if it is one, is apart from `t`. -/
def ApartFrom (t : Span) : Source → Prop
  | mem s => s.Apart t
  | val _ => True

@[simp] lemma length_bytes (x : Source) (m : ByteMem) : (x.bytes m).length = x.len := by
  cases x with
  | mem s => exact s.length_bytes m
  | val bs => rfl

@[simp] lemma wp_load {m : ByteMem} (x : Source) (Q : Bytes → ByteMem → Prop) :
    wp x.load m Q ↔ Q (x.bytes m) m := by
  cases x with
  | mem s => exact wp_contents Q
  | val bs => exact wp_pure bs Q

lemma bytes_write {x : Source} {t : Span} (h : x.ApartFrom t) (m : ByteMem) {a : ℕ} {bs : Bytes}
    (ha : t.off ≤ a) (hbs : a + bs.length ≤ t.off + t.len) :
    x.bytes (m.write a bs) = x.bytes m := by
  cases x with
  | mem s =>
    have honly : OnlyIn [t] m (m.write a bs) :=
      (OnlyIn.refl _ m).write List.mem_cons_self ha hbs
    exact honly.read_one h
  | val _ => rfl

lemma ApartFrom.mono {x : Source} {t t' : Span} (h : x.ApartFrom t) (hoff : t.off ≤ t'.off)
    (hend : t'.off + t'.len ≤ t.off + t.len) : x.ApartFrom t' := by
  cases x with
  | mem s => exact Span.Apart.mono h hoff hend
  | val _ => trivial

end Source

def hmacScratchSize (msgLen : ℕ) : ℕ := h.block + max msgLen h.size

lemma hmacScratchSize_mono {n k : ℕ} (hnk : n ≤ k) : hmacScratchSize h n ≤ hmacScratchSize h k :=
  Nat.add_le_add_left (max_le_max hnk le_rfl) _

/-- `for _, p := range parts { n += copy(scratch[n:], p) }`. -/
def copyParts (scratch : Span) : ℕ → List Source → MemProg ℕ
  | n, [] => pure n
  | n, p :: parts => do
    let rest ← slice scratch n scratch.len
    let bs ← p.load
    let k ← put rest bs
    copyParts scratch (n + k) parts

/-- `clear(pad); copy(pad, key); for i := range pad { pad[i] ^= x }`. -/
def layPad (pad : Span) (key : Source) (x : UInt8) : MemProg Unit := do
  wipe pad
  let bs ← key.load
  let _ ← put pad bs
  updateEach pad (· ^^^ x)

def hmacInPlace (dst scratch : Span) (key : Source) (parts : List Source) : MemProg Unit := do
  let total := (parts.map Source.len).sum
  if scratch.len < hmacScratchSize h total then fault
  else do
    let keyBytes ← key.load
    let key := if h.block < key.len then Source.val (D.digest h keyBytes) else key
    let pad ← slice scratch 0 h.block
    let n ← copyParts scratch h.block parts
    layPad pad key 0x36
    let msg ← slice scratch 0 n
    let bs ← contents msg
    let inner := D.digest h bs
    layPad pad key 0x5c
    let rest ← slice scratch h.block scratch.len
    let _ ← put rest inner
    let out ← slice dst 0 h.size
    let msg ← slice scratch 0 (h.block + h.size)
    let bs ← contents msg
    let _ ← put out (D.digest h bs)
    let used ← slice scratch 0 (max n (h.block + h.size))
    wipe used

section Hmac

variable {D : Digests} {h : InPlaceHash} {m : ByteMem}

@[simp] lemma length_hmac (D : Digests) (h : InPlaceHash) (key msg : Bytes) :
    (hmac D h key msg).length = h.size :=
  D.length_digest h _

lemma wp_copyParts {scratch : Span} {n : ℕ} {parts : List Source}
    (hapart : ∀ p ∈ parts, p.ApartFrom scratch)
    (hlen : n + (parts.map Source.len).sum ≤ scratch.len) (Q : ℕ → ByteMem → Prop) :
    wp (copyParts scratch n parts) m Q ↔
      Q (n + (parts.map Source.len).sum)
        (m.write (scratch.off + n) (parts.flatMap (Source.bytes m))) := by
  induction parts generalizing n m with
  | nil => simp [copyParts]
  | cons p parts ih =>
    rw [List.map_cons, List.sum_cons] at hlen
    have hrest : ∀ q ∈ parts, q.ApartFrom scratch := fun q hq =>
      hapart q (List.mem_cons_of_mem _ hq)
    have hsame : parts.flatMap (Source.bytes (m.write (scratch.off + n) (p.bytes m))) =
        parts.flatMap (Source.bytes m) := by
      rw [List.flatMap_def, List.flatMap_def]
      congr 1
      refine List.map_congr_left fun q hq => ?_
      refine Source.bytes_write (hrest q hq) m (by omega) ?_
      rw [Source.length_bytes]
      omega
    rw [copyParts, wp_bind, wp_slice (by omega) le_rfl, wp_bind, Source.wp_load, wp_bind, wp_put]
    dsimp only
    rw [Source.length_bytes, Nat.min_eq_right (by omega),
      List.take_of_length_le (by rw [Source.length_bytes]; omega), ih hrest (by omega), hsame,
      List.map_cons, List.sum_cons, List.flatMap_cons, write_append, Source.length_bytes,
      Nat.add_assoc, Nat.add_assoc]

/-- The pad is the key, filled up with zeros, combined with the constant. -/
lemma wp_layPad (pad : Span) {key : Source} {x : UInt8} (hlen : key.len ≤ pad.len)
    (hapart : key.ApartFrom pad) (Q : Unit → ByteMem → Prop) :
    wp (layPad pad key x) m Q ↔ Q () (m.write pad.off
      ((key.bytes m ++ List.replicate (pad.len - key.len) 0).map (· ^^^ x))) := by
  have hsame : key.bytes (m.write pad.off (List.replicate pad.len 0)) = key.bytes m :=
    Source.bytes_write hapart m le_rfl (by simp)
  have hsplit : List.replicate pad.len (0 : UInt8) =
      List.replicate key.len 0 ++ List.replicate (pad.len - key.len) 0 := by
    rw [List.replicate_append_replicate, Nat.add_sub_cancel' hlen]
  -- The key goes over the first zeros.
  have hkey : (m.write pad.off (List.replicate pad.len 0)).write pad.off (key.bytes m) =
      m.write pad.off (key.bytes m ++ List.replicate (pad.len - key.len) 0) := by
    rw [hsplit, write_append, write_append, write_comm _ (by simp),
      write_write _ _ (by simp), List.length_replicate, Source.length_bytes]
  have hpadLen : (key.bytes m ++ List.replicate (pad.len - key.len) 0).length = pad.len := by
    simp only [List.length_append, Source.length_bytes, List.length_replicate]
    omega
  rw [layPad, wp_bind, wp_wipe, wp_bind, Source.wp_load, wp_bind, wp_put, hsame,
    List.take_of_length_le (by rw [Source.length_bytes]; exact hlen), hkey, wp_updateEach,
    Span.bytes, read_write_self _ _ hpadLen, write_write _ _ (by simp)]

/-- What is left in memory by an HMAC: the authenticator, and zeros in the part of the scratch that
it used. -/
def afterHmac (m : ByteMem) (h : InPlaceHash) (dst scratch : Span) (total : ℕ) (mac : Bytes) :
    ByteMem :=
  (m.write dst.off mac).write scratch.off (List.replicate (hmacScratchSize h total) 0)

/-- The key that is laid down: short enough for a block, apart from the scratch, and the block of
the construction once it is filled up. -/
lemma exists_hmacBlock (D : Digests) (h : InPlaceHash) {key : Source} {t : Span} (m : ByteMem)
    (hkey : key.ApartFrom t) : ∃ key' : Source,
      (if h.block < key.len then Source.val (D.digest h (key.bytes m)) else key) = key' ∧
      key'.len ≤ h.block ∧ key'.ApartFrom t ∧
      key'.bytes m ++ List.replicate (h.block - key'.len) 0 = hmacBlock D h (key.bytes m) := by
  refine ⟨_, rfl, ?_⟩
  unfold hmacBlock
  rw [Source.length_bytes]
  split
  next hlong =>
    have hlen := D.length_digest h (key.bytes m)
    refine ⟨?_, trivial, ?_⟩
    · exact hlen.trans_le h.size_le_block
    · rfl
  next hshort =>
    refine ⟨Nat.not_lt.mp hshort, hkey, ?_⟩
    dsimp only
    rw [Source.length_bytes]

lemma length_hmacBlock (D : Digests) (h : InPlaceHash) (key : Bytes) :
    (hmacBlock D h key).length = h.block := by
  have hsize := h.size_le_block
  have hdigest := D.length_digest h key
  unfold hmacBlock
  rw [List.length_append, List.length_replicate]
  split <;> omega

/-- HMAC, for any key and any parts, of which the destination may be one, with a scratch that is
apart and large enough, whatever it holds. -/
lemma wp_hmacInPlace {dst scratch : Span} (key : Source) (parts : List Source) {total : ℕ}
    (htotal : (parts.map Source.len).sum = total)
    (hscratch : hmacScratchSize h total ≤ scratch.len) (hdst : h.size ≤ dst.len)
    (hkey : key.ApartFrom scratch) (hparts : ∀ p ∈ parts, p.ApartFrom scratch)
    (hout : (⟨dst.off, h.size⟩ : Span).Apart scratch) (Q : Unit → ByteMem → Prop) :
    wp (hmacInPlace D h dst scratch key parts) m Q ↔ Q () (afterHmac m h dst scratch total
      (hmac D h (key.bytes m) (parts.flatMap (Source.bytes m)))) := by
  obtain ⟨key', hkey', hkeyLen, hkeyApart, hkeyBlock⟩ := exists_hmacBlock D h m hkey
  have hblock := length_hmacBlock D h (key.bytes m)
  set msg := parts.flatMap (Source.bytes m) with hmsg
  have hmsgLen : msg.length = total := by
    rw [hmsg, List.length_flatMap, ← htotal]
    congr 1
    exact List.map_congr_left fun p _ => p.length_bytes m
  set k := hmacBlock D h (key.bytes m) with hk
  have hbound : h.block + total ≤ scratch.len ∧ h.block + h.size ≤ scratch.len := by
    unfold hmacScratchSize at hscratch
    omega
  have hout' : dst.off + h.size ≤ scratch.off ∨ scratch.off + scratch.len ≤ dst.off := by
    have := h.size_pos
    dsimp only [Span.Apart] at hout
    omega
  set ipad := k.map (· ^^^ 0x36) with hipad
  set opad := k.map (· ^^^ 0x5c) with hopad
  have hipadLen : ipad.length = h.block := by rw [hipad, List.length_map, hblock]
  have hopadLen : opad.length = h.block := by rw [hopad, List.length_map, hblock]
  set inner := D.digest h (ipad ++ msg) with hinner
  have hinnerLen : inner.length = h.size := D.length_digest h _
  have hmac : hmac D h (key.bytes m) msg = D.digest h (opad ++ inner) := rfl
  -- Laying a pad down is not disturbed by what the scratch already holds.
  have hpad {a : ℕ} {bs : Bytes} (ha : scratch.off ≤ a)
      (hend : a + bs.length ≤ scratch.off + scratch.len) (x : UInt8) (Q : Unit → ByteMem → Prop) :
      wp (layPad ⟨scratch.off, h.block⟩ key' x) (m.write a bs) Q ↔
        Q () ((m.write a bs).write scratch.off (k.map (· ^^^ x))) := by
    rw [wp_layPad ⟨scratch.off, h.block⟩ hkeyLen (hkeyApart.mono le_rfl (by dsimp only; omega)),
      Source.bytes_write hkeyApart m ha hend, hkeyBlock]
  unfold hmacInPlace
  rw [htotal, if_neg (by omega), wp_bind, Source.wp_load, hkey', wp_bind,
    wp_slice (by omega) (by omega), wp_bind, wp_copyParts hparts (by omega), htotal, ← hmsg]
  dsimp only [Nat.add_zero, Nat.sub_zero]
  rw [wp_bind, hpad (by omega) (by omega), ← hipad, ← hipadLen, write_write_before,
    hipadLen,
    wp_bind, wp_slice (by omega) hbound.1, wp_bind, wp_contents]
  dsimp only [Nat.add_zero, Nat.sub_zero, Span.bytes]
  rw [read_write_self m _ (by rw [List.length_append]; omega), ← hinner, wp_bind,
    hpad le_rfl (by rw [List.length_append]; omega), ← hopad, wp_bind,
    wp_slice (by omega) le_rfl, wp_bind, wp_put]
  dsimp only
  rw [List.take_of_length_le (by omega), ← hopadLen, ← write_append, hopadLen, wp_bind,
    wp_slice (by omega) hdst, wp_bind, wp_slice (by omega) hbound.2, wp_bind, wp_contents]
  dsimp only [Nat.add_zero, Nat.sub_zero, Span.bytes]
  rw [read_write_self _ _ (by rw [List.length_append]; omega), wp_bind, wp_put, ← hmac,
    List.take_of_length_le (length_hmac D h _ _).le, wp_bind, wp_slice (by omega) (by omega),
    wp_wipe]
  dsimp only [Nat.add_zero, Nat.sub_zero]
  -- The last write covers every write to the scratch, and the destination is elsewhere.
  have hused : max (h.block + total) (h.block + h.size) = hmacScratchSize h total :=
    Nat.add_max_add_left _ _ _
  rw [hused, afterHmac, write_comm _ (by rw [length_hmac, List.length_replicate]; omega),
    write_write _ _ (by rw [List.length_append, List.length_replicate]; omega),
    write_write _ _ (by rw [List.length_append, List.length_replicate]; omega),
    write_comm _ (by rw [length_hmac, List.length_replicate]; omega)]

end Hmac

/-! ## HKDF -/

/-- A round of the loop of `hkdfCompute`, for the offset, the counter and the previous block. -/
def hkdfRound (dst t scratch prk info : Span) (x : ℕ × UInt8 × Span)
    : MemProg (ℕ × UInt8 × Span) := do
  let (off, ctr, prev) := x
  let ctr := ctr + 1
  hmacInPlace D h t scratch (.mem prk) [.mem prev, .mem info, .val [ctr]]
  let rest ← slice dst off dst.len
  let _ ← copy rest t
  pure (off + h.size, ctr, t)

/-- The loop of `hkdfCompute`, with its variables at the end. -/
def hkdfExpand (dst t scratch prk info : Span) : MemProg (ℕ × UInt8 × Span) := do
  let prev ← slice t 0 0
  loop (fun x => decide (x.1 < dst.len)) (hkdfRound D h dst t scratch prk info) dst.len (0, 0, prev)

def hkdfCompute (dst region secret salt info : Span) : MemProg Unit := do
  let prk ← slice region 0 h.size
  let t ← slice region maxHashSize (maxHashSize + h.size)
  let scratch ← slice region (2 * maxHashSize) region.len
  hmacInPlace D h prk scratch (.mem salt) [.mem secret]
  let _ ← hkdfExpand D h dst t scratch prk info
  wipe region

/-- The size of the region of `hkdfInPlace`. -/
def hkdfRegionSize (secretLen infoLen : ℕ) : ℕ :=
  2 * maxHashSize + h.block + max secretLen (h.size + infoLen + 1)

/-- How `hmacIntoInPlace` and `hkdfInPlace` come by a region of `n` bytes: the running function's
array, which starts as zeros, if it is large enough, and otherwise a locked buffer, which is
destroyed afterwards. `newEmptyBuffer` hands out locked memory or fails; reports whether there was
no error. -/
def inRegion (newEmptyBuffer : ℕ → Option Span) (stack : Span) (n : ℕ) (f : Span → MemProg Unit) :
    MemProg Bool :=
  if n ≤ hmacStackRegion then do
    wipe stack
    let region ← slice stack 0 n
    f region
    return true
  else match newEmptyBuffer n with
    | none => pure false
    | some region => do
      f region
      wipe region
      return true

def hkdfInPlace (newEmptyBuffer : ℕ → Option Span) (stack : Span) (h : InPlaceHash)
    (dst secret salt info : Span) : MemProg Bool :=
  inRegion newEmptyBuffer stack (hkdfRegionSize h secret.len info.len) fun region =>
    hkdfCompute D h dst region secret salt info

section Hkdf

variable {D : Digests} {h : InPlaceHash} {m : ByteMem}

lemma onlyIn_afterHmac (dst : Span) {scratch : Span} {total : ℕ} {mac : Bytes}
    (hmac : mac.length = h.size)
    (hscratch : hmacScratchSize h total ≤ scratch.len) :
    OnlyIn [⟨dst.off, h.size⟩, scratch] m (afterHmac m h dst scratch total mac) := by
  refine ((OnlyIn.refl _ m).write (s := ⟨dst.off, h.size⟩) (by simp) le_rfl ?_).write
    (s := scratch) (by simp) le_rfl ?_
  · rw [hmac]
  · rw [List.length_replicate]
    omega

lemma read_afterHmac (dst : Span) {scratch : Span} {total : ℕ} {mac : Bytes}
    (hmac : mac.length = h.size)
    (hscratch : hmacScratchSize h total ≤ scratch.len)
    (hout : (⟨dst.off, h.size⟩ : Span).Apart scratch) :
    (afterHmac m h dst scratch total mac).read dst.off h.size = mac := by
  have := h.size_pos
  dsimp only [Span.Apart] at hout
  unfold hmacScratchSize at hscratch
  rw [afterHmac, hmacScratchSize, read_write_apart _ (by rw [List.length_replicate]; omega),
    read_write_self _ _ hmac]

/-- What a round writes: the next block, and as much of it as the output has room for. -/
lemma wp_hkdfRound {dst t scratch prk info prev : Span} {off : ℕ} {ctr : UInt8}
    (hoff : off < dst.len) (ht : t.len = h.size) (hprev : prev.len ≤ h.size)
    (hscratch : hmacScratchSize h (h.size + info.len + 1) ≤ scratch.len)
    (hprkApart : prk.Apart scratch) (hprevApart : prev.Apart scratch)
    (hinfoApart : info.Apart scratch) (htApart : t.Apart scratch) (hdst : t.Apart dst) :
    wp (hkdfRound D h dst t scratch prk info (off, ctr, prev)) m fun x m' =>
      x = (off + h.size, ctr + 1, t) ∧
      m'.read t.off h.size = hmac D h (prk.bytes m) (prev.bytes m ++ info.bytes m ++ [ctr + 1]) ∧
      m'.read (dst.off + off) (min (dst.len - off) h.size) =
        (hmac D h (prk.bytes m) (prev.bytes m ++ info.bytes m ++ [ctr + 1])).take
          (min (dst.len - off) h.size) ∧
      OnlyIn [⟨dst.off + off, min (dst.len - off) h.size⟩, t, scratch] m m' := by
  set mac := hmac D h (prk.bytes m) (prev.bytes m ++ info.bytes m ++ [ctr + 1]) with hmacDef
  have hlen : mac.length = h.size := length_hmac D h _ _
  have hsize : hmacScratchSize h (prev.len + (info.len + 1)) ≤ scratch.len :=
    (hmacScratchSize_mono h (by omega)).trans hscratch
  have hmsg : [Source.mem prev, .mem info, .val [ctr + 1]].flatMap (Source.bytes m) =
      prev.bytes m ++ info.bytes m ++ [ctr + 1] := by simp [Source.bytes]
  have hout : (⟨t.off, h.size⟩ : Span).Apart scratch := by rwa [← ht]
  have honly := onlyIn_afterHmac (m := m) t hlen hsize
  have hread := read_afterHmac (m := m) t hlen hsize hout
  unfold hkdfRound
  rw [wp_bind, wp_hmacInPlace (.mem prk) _ (by simp [Source.len]) hsize ht.ge hprkApart
    (by simp [Source.ApartFrom, hprevApart, hinfoApart]) hout, hmsg]
  change wp _ (afterHmac m h t scratch (prev.len + (info.len + 1)) mac) _
  generalize afterHmac m h t scratch (prev.len + (info.len + 1)) mac = m₁ at *
  rw [wp_bind, wp_slice hoff.le le_rfl, wp_bind, wp_copy, wp_pure]
  dsimp only [Span.bytes]
  rw [ht, hread]
  have htake : mac.take (dst.len - off) = mac.take (min (dst.len - off) h.size) := by
    rw [← hlen, ← List.take_eq_take_min]
  have htakeLen : (mac.take (min (dst.len - off) h.size)).length = min (dst.len - off) h.size := by
    rw [List.length_take, hlen]
    omega
  have := h.size_pos
  rw [htake]
  refine ⟨rfl, ?_, ?_, ?_⟩
  · rw [read_write_apart _ (by omega), hread]
  · exact read_write_self _ _ htakeLen
  · have hmono : OnlyIn [⟨dst.off + off, min (dst.len - off) h.size⟩, t, scratch] m m₁ :=
      (honly.widen (t := t) le_rfl (by rw [ht])).subset (List.subset_cons_self _ _)
    exact hmono.write List.mem_cons_self le_rfl (by rw [htakeLen])

lemma length_hkdfT (D : Digests) (h : InPlaceHash) (prk info : Bytes) (i : ℕ) :
    (hkdfT D h prk info (i + 1)).length = h.size :=
  length_hmac D h _ _

/-- What a round has to find after `j` rounds; the output so far goes on to be `target`. -/
structure HkdfInv (D : Digests) (h : InPlaceHash) (target key : Bytes)
    (dst t scratch prk info : Span) (m₀ : ByteMem) (j : ℕ) (x : ℕ × UInt8 × Span) (m : ByteMem) :
    Prop where
  off : x.1 = j * h.size
  started : j = 0 ∨ (j - 1) * h.size < dst.len
  ctr : x.2.1 = UInt8.ofNat j
  prevOff : x.2.2.off = t.off
  prevLen : x.2.2.len ≤ h.size
  prev : x.2.2.bytes m = hkdfT D h key (info.bytes m₀) j
  prk : prk.bytes m = key
  out : m.read dst.off (min x.1 dst.len) ++ keystream h.size (hkdfT D h key (info.bytes m₀)) (j + 1)
    (dst.len - min x.1 dst.len) = target
  only : ByteMem.OnlyIn [dst, t, scratch] m₀ m

/-- The slices of an expansion. -/
structure HkdfSlices (h : InPlaceHash) (dst t scratch prk info : Span) : Prop where
  tLen : t.len = h.size
  scratchLen : hmacScratchSize h (h.size + info.len + 1) ≤ scratch.len
  prkScratch : prk.Apart scratch
  prkT : prk.Apart t
  prkDst : prk.Apart dst
  tScratch : t.Apart scratch
  tDst : t.Apart dst
  scratchDst : scratch.Apart dst
  infoScratch : info.Apart scratch
  infoT : info.Apart t
  infoDst : info.Apart dst

lemma HkdfInv.step {target key : Bytes} {dst t scratch prk info : Span} {m₀ : ByteMem} {j : ℕ}
    {x : ℕ × UInt8 × Span} (S : HkdfSlices h dst t scratch prk info)
    (hI : HkdfInv D h target key dst t scratch prk info m₀ j x m) (hlt : x.1 < dst.len) :
    wp (hkdfRound D h dst t scratch prk info x) m fun x' m' =>
      HkdfInv D h target key dst t scratch prk info m₀ (j + 1) x' m' ∧ x'.1 = x.1 + h.size := by
  obtain ⟨off, ctr, prev⟩ := x
  obtain ⟨hoff, hstarted, hctr, hprevOff, hprevLen, hprev, hprk, hout, honly⟩ := hI
  dsimp only at *
  have hpos := h.size_pos
  have hinfo : info.bytes m = info.bytes m₀ := honly.bytes (by
    simpa using ⟨S.infoDst, S.infoT, S.infoScratch⟩)
  have hprevApart : prev.Apart scratch := by
    have hapart := S.tScratch
    have hlen := S.tLen
    omega
  refine wp_mono (wp_hkdfRound hlt S.tLen hprevLen S.scratchLen S.prkScratch hprevApart
    S.infoScratch S.tScratch S.tDst) ?_
  rintro _ m' ⟨rfl, hblock, hwritten, honly'⟩
  have hnext : hmac D h (prk.bytes m) (prev.bytes m ++ info.bytes m ++ [ctr + 1]) =
      hkdfT D h key (info.bytes m₀) (j + 1) := by
    rw [hprk, hprev, hinfo, hctr, hkdfT, UInt8.ofNat_add]
    rfl
  rw [hnext] at hblock hwritten
  obtain ⟨n, hn⟩ : ∃ n, n = min (dst.len - off) h.size := ⟨_, rfl⟩
  rw [← hn] at hwritten honly'
  have hend : off + n ≤ dst.len ∧ n ≤ h.size := by omega
  have hkept {u : Span} (hdst : u.off + u.len ≤ dst.off + off ∨ u.Apart dst) (ht : u.Apart t)
      (hscratch : u.Apart scratch) : u.bytes m' = u.bytes m := by
    refine honly'.bytes ?_
    simp only [List.forall_mem_cons, List.not_mem_nil, false_implies, implies_true, and_true]
    refine ⟨?_, ht, hscratch⟩
    dsimp only [Span.Apart] at hdst ⊢
    omega
  have hdone : m'.read dst.off off = m.read dst.off off := by
    have ht := S.tDst
    have hscratch := S.scratchDst
    exact hkept (u := ⟨dst.off, off⟩) (.inl le_rfl) (by dsimp only [Span.Apart]; omega)
      (by dsimp only [Span.Apart]; omega)
  refine ⟨⟨?_, ?_, ?_, rfl, S.tLen.le, ?_, ?_, ?_, ?_⟩, rfl⟩
  · dsimp only
    rw [hoff, Nat.succ_mul]
  · exact .inr (by rwa [Nat.add_sub_cancel, ← hoff])
  · dsimp only
    rw [hctr, UInt8.ofNat_add]
    rfl
  · change m'.read t.off t.len = _
    rw [S.tLen, hblock]
  · rw [hkept (.inr S.prkDst) S.prkT S.prkScratch, hprk]
  · have hmin : min off dst.len = off := by omega
    have hmin' : min (off + h.size) dst.len = off + n := by omega
    have hstream := keystream_block (n := dst.len - off) (hkdfT D h key (info.bytes m₀)) (j + 1)
      (length_hkdfT D h _ _ j) hpos
    rw [← hn] at hstream
    rw [hmin, hstream, ← List.append_assoc] at hout
    rw [hmin', read_add, hdone, hwritten, ← Nat.sub_sub, hout]
  · exact honly.trans (honly'.widen (by dsimp only; omega) (by dsimp only; omega))

/-- The loop returns with the output, having counted its rounds without wrapping. -/
lemma wp_hkdfExpand {dst t scratch prk info : Span} (S : HkdfSlices h dst t scratch prk info)
    (hdst : dst.len ≤ 255 * h.size) :
    wp (hkdfExpand D h dst t scratch prk info) m fun x m' =>
      x.2.1.toNat = (dst.len + h.size - 1) / h.size ∧
      m'.read dst.off dst.len =
        keystream h.size (hkdfT D h (prk.bytes m) (info.bytes m)) 1 dst.len ∧
      OnlyIn [dst, t, scratch] m m' := by
  have hpos := h.size_pos
  set target := keystream h.size (hkdfT D h (prk.bytes m) (info.bytes m)) 1 dst.len with htarget
  unfold hkdfExpand
  rw [wp_bind, wp_slice le_rfl (by omega)]
  refine wp_loop
    (fun x m' => ∃ j, HkdfInv D h target (prk.bytes m) dst t scratch prk info m j x m')
    (fun x => dst.len - x.1) ⟨0, ?_⟩ (by simp) (fun x hx => ?_) (fun x m' hI hx => ?_)
    fun x m' hI hx => ?_
  · refine ⟨by simp, .inl rfl, rfl, by simp, by simp, rfl, rfl, ?_, OnlyIn.refl _ m⟩
    simp [htarget]
  · have := of_decide_eq_true hx
    omega
  · obtain ⟨j, hI⟩ := hI
    have hlt := of_decide_eq_true hx
    refine wp_mono (hI.step S hlt) ?_
    rintro x' m'' ⟨hI', hoff⟩
    exact ⟨⟨j + 1, hI'⟩, by omega⟩
  · obtain ⟨j, hI⟩ := hI
    have hle : dst.len ≤ x.1 := by simpa using hx
    have hout := hI.out
    rw [Nat.min_eq_right hle, Nat.sub_self, keystream_zero, List.append_nil] at hout
    have hoff := hI.off
    have hrounds : (dst.len + h.size - 1) / h.size = j := by
      rcases hI.started with rfl | hstarted
      · rw [Nat.zero_mul] at hoff
        exact Nat.div_eq_of_lt (by omega)
      · rw [Nat.sub_one_mul] at hstarted
        refine Nat.div_eq_of_lt_le (by omega) ?_
        rw [Nat.succ_mul]
        omega
    have hj : j ≤ 255 := by
      rw [← hrounds, Nat.div_le_iff_le_mul_add_pred hpos, Nat.mul_comm]
      omega
    refine ⟨?_, hout, hI.only⟩
    rw [hI.ctr, hrounds, UInt8.toNat_ofNat', Nat.mod_eq_of_lt (by omega)]

/-- An absent salt is as good as zeros: both fill up to a block of zeros. -/
lemma hmac_zeros (D : Digests) (h : InPlaceHash) (msg : Bytes) :
    hmac D h (List.replicate h.size 0) msg = hmac D h [] msg := by
  have hsize := h.size_le_block
  have hblock : hmacBlock D h (List.replicate h.size 0) = hmacBlock D h [] := by
    unfold hmacBlock
    dsimp only
    rw [List.length_replicate, if_neg (by omega), if_neg (by simp), List.length_replicate,
      List.replicate_append_replicate, Nat.add_sub_cancel' hsize, List.length_nil, Nat.sub_zero,
      List.nil_append]
  rw [hmac, hmac, hblock]

/-- The output of HKDF as a stream of blocks. -/
lemma hkdf_eq_keystream (D : Digests) (h : InPlaceHash) (secret salt info : Bytes) (n : ℕ) :
    hkdf D h secret salt info n =
      keystream h.size (hkdfT D h (hmac D h salt secret) info) 1 n := by
  have hpos := h.size_pos
  have hsalt : hmac D h (if salt = [] then List.replicate h.size 0 else salt) secret =
      hmac D h salt secret := by
    split
    next hnil => rw [hmac_zeros, hnil]
    next => rfl
  have hcover : n ≤ (n + h.size - 1) / h.size * h.size := by
    have := Nat.lt_div_mul_add (a := n + h.size - 1) hpos
    omega
  unfold hkdf
  rw [hsalt]
  refine take_flatMap_block (fun i _ => ?_) hpos hcover
  rw [Nat.add_comm]
  exact length_hkdfT D h _ _ i

/-- The region is large enough for every HMAC. -/
lemma hmacScratchSize_le_hkdfRegionSize (h : InPlaceHash) (secretLen infoLen : ℕ) :
    2 * maxHashSize + hmacScratchSize h secretLen ≤ hkdfRegionSize h secretLen infoLen ∧
      2 * maxHashSize + hmacScratchSize h (h.size + infoLen + 1) ≤
        hkdfRegionSize h secretLen infoLen := by
  unfold hkdfRegionSize hmacScratchSize
  omega

/-- The slices that `hkdfCompute` takes of its region. -/
lemma hkdfSlices_region {dst region secret info : Span}
    (hregion : region.len = hkdfRegionSize h secret.len info.len) (hdst : dst.Apart region)
    (hinfo : info.Apart region) (hinfoDst : info.Apart dst) :
    HkdfSlices h dst ⟨region.off + 64, h.size⟩ ⟨region.off + 128, region.len - 128⟩
      ⟨region.off, h.size⟩ info := by
  have hsize := h.size_le
  have hlen := (hmacScratchSize_le_hkdfRegionSize h secret.len info.len).2
  rw [← hregion, maxHashSize] at hlen
  have hin {s : Span} (hs : s.Apart region) : s.Apart ⟨region.off, h.size⟩ ∧
      s.Apart ⟨region.off + 64, h.size⟩ ∧ s.Apart ⟨region.off + 128, region.len - 128⟩ :=
    ⟨hs.mono le_rfl (by dsimp only; omega), hs.mono (by dsimp only; omega) (by dsimp only; omega),
      hs.mono (by dsimp only; omega) (by dsimp only; omega)⟩
  exact
    { tLen := rfl
      scratchLen := by dsimp only; omega
      prkScratch := .inr (.inr (.inl (by dsimp only; omega)))
      prkT := .inr (.inr (.inl (by dsimp only; omega)))
      prkDst := (hin hdst).1.symm
      tScratch := .inr (.inr (.inl (by dsimp only; omega)))
      tDst := (hin hdst).2.1.symm
      scratchDst := (hin hdst).2.2.symm
      infoScratch := (hin hinfo).2.2
      infoT := (hin hinfo).2.1
      infoDst := hinfoDst }

/-- HKDF in a region of the size that `hkdfInPlace` gives it. -/
lemma wp_hkdfCompute {dst region secret salt info : Span} (hdst : dst.len ≤ 255 * h.size)
    (hregion : region.len = hkdfRegionSize h secret.len info.len) (hdstApart : dst.Apart region)
    (hsecret : secret.Apart region) (hsalt : salt.Apart region) (hinfo : info.Apart region)
    (hinfoDst : info.Apart dst) :
    wp (hkdfCompute D h dst region secret salt info) m fun _ m' =>
      m'.read dst.off dst.len =
        hkdf D h (secret.bytes m) (salt.bytes m) (info.bytes m) dst.len ∧
      m'.read region.off region.len = List.replicate region.len 0 ∧
      OnlyIn [dst, region] m m' := by
  have hsize := h.size_le
  have hsecretLen := (hmacScratchSize_le_hkdfRegionSize h secret.len info.len).1
  have S := hkdfSlices_region hregion hdstApart hinfo hinfoDst
  rw [← hregion, maxHashSize] at hsecretLen
  obtain ⟨prk, hprk⟩ : ∃ s : Span, s = ⟨region.off, h.size⟩ := ⟨_, rfl⟩
  obtain ⟨t, ht⟩ : ∃ s : Span, s = ⟨region.off + 64, h.size⟩ := ⟨_, rfl⟩
  obtain ⟨scratch, hscratch⟩ : ∃ s : Span, s = ⟨region.off + 128, region.len - 128⟩ := ⟨_, rfl⟩
  rw [← hprk, ← ht, ← hscratch] at S
  have hprkIn : prk.off = region.off ∧ prk.len = h.size := by rw [hprk]; exact ⟨rfl, rfl⟩
  have htIn : t.off = region.off + 64 ∧ t.len = h.size := by rw [ht]; exact ⟨rfl, rfl⟩
  have hscratchIn : scratch.off = region.off + 128 ∧ scratch.len = region.len - 128 := by
    rw [hscratch]
    exact ⟨rfl, rfl⟩
  have hin {s : Span} (hs : s.Apart region) : s.Apart prk ∧ s.Apart scratch :=
    ⟨hs.mono (by omega) (by omega), hs.mono (by omega) (by omega)⟩
  have hscratchLen : hmacScratchSize h secret.len ≤ scratch.len := by omega
  have hprkOut : (⟨prk.off, h.size⟩ : Span).Apart scratch := by
    rw [← hprkIn.2]
    exact S.prkScratch
  obtain ⟨key, hkey⟩ : ∃ key, key = hmac D h (salt.bytes m) (secret.bytes m) := ⟨_, rfl⟩
  have hkeyLen : key.length = h.size := by rw [hkey, length_hmac]
  have hstart (Q : Unit → ByteMem → Prop) :
      wp (hmacInPlace D h prk scratch (.mem salt) [.mem secret]) m Q ↔
        Q () (afterHmac m h prk scratch secret.len key) := by
    rw [wp_hmacInPlace (.mem salt) [.mem secret] (by simp [Source.len]) hscratchLen hprkIn.2.ge
      (hin hsalt).2 (by simpa [Source.ApartFrom] using (hin hsecret).2) hprkOut, hkey]
    simp [Source.bytes]
  have hkeyRead := read_afterHmac (m := m) prk hkeyLen hscratchLen hprkOut
  have honly := onlyIn_afterHmac (m := m) prk hkeyLen hscratchLen
  generalize afterHmac m h prk scratch secret.len key = m₁ at *
  have hinfoKept : info.bytes m₁ = info.bytes m := by
    refine honly.bytes ?_
    simpa using ⟨hprkIn.2 ▸ (hin hinfo).1, (hin hinfo).2⟩
  have hkeyKept : prk.bytes m₁ = key := by rw [Span.bytes, hprkIn.2, hkeyRead]
  unfold hkdfCompute maxHashSize
  rw [wp_bind, wp_slice (by omega) (by omega), wp_bind, wp_slice (by omega) (by omega), wp_bind,
    wp_slice (by omega) le_rfl]
  simp only [Nat.add_sub_cancel_left, Nat.add_zero, Nat.sub_zero, Nat.reduceMul]
  rw [← hprk, ← ht, ← hscratch, wp_bind, hstart, wp_bind]
  refine wp_mono (wp_hkdfExpand S hdst) ?_
  rintro _ m' ⟨-, hout, honly'⟩
  rw [hinfoKept, hkeyKept, hkey] at hout
  rw [wp_wipe]
  refine ⟨?_, read_write_self _ _ (by simp), ?_⟩
  · have hkept : OnlyIn [region] m' (m'.write region.off (List.replicate region.len 0)) :=
      (OnlyIn.refl _ m').write List.mem_cons_self le_rfl (by simp)
    rw [hkept.read_one hdstApart, hout, hkdf_eq_keystream]
  · have hfirst : OnlyIn [dst, region] m m₁ := by
      refine honly.mono ?_
      simp only [List.forall_mem_cons, List.not_mem_nil, false_implies, implies_true, and_true]
      exact ⟨.inr ⟨region, by simp, by omega, by omega⟩, .inr ⟨region, by simp, by omega, by omega⟩⟩
    have hsecond : OnlyIn [dst, region] m₁ m' := by
      refine honly'.mono ?_
      simp only [List.forall_mem_cons, List.not_mem_nil, false_implies, implies_true, and_true]
      exact ⟨.inr ⟨dst, by simp, le_rfl, le_rfl⟩, .inr ⟨region, by simp, by omega, by omega⟩,
        .inr ⟨region, by simp, by omega, by omega⟩⟩
    exact (hfirst.trans hsecond).write (s := region) (by simp) le_rfl (by simp)

/-- The memory that is used for a region of `n` bytes, where it can be allocated. -/
def Workspace (newEmptyBuffer : ℕ → Option Span) (stack : Span) (n : ℕ) (work : Span) : Prop :=
  (n ≤ hmacStackRegion ∧ work = stack ∧ stack.len = hmacStackRegion) ∨
    (hmacStackRegion < n ∧ newEmptyBuffer n = some work ∧ work.len = n)

/-- What `f` writes with any region in the workspace, whatever else is in there, is written in
either case, and the workspace ends as zeros. -/
lemma wp_inRegion {newEmptyBuffer : ℕ → Option Span} {stack work : Span} (out : Span) {n : ℕ}
    {f : Span → MemProg Unit} {bs : Bytes} (hwork : Workspace newEmptyBuffer stack n work)
    (hout : out.Apart work)
    (hf : ∀ region m₁, region.len = n → work.off ≤ region.off →
      region.off + region.len ≤ work.off + work.len → OnlyIn [work] m m₁ →
      wp (f region) m₁ fun _ m' => out.bytes m' = bs ∧
        region.bytes m' = List.replicate region.len 0 ∧ OnlyIn [out, region] m₁ m') :
    wp (inRegion newEmptyBuffer stack n f) m fun ok m' => ok = true ∧ out.bytes m' = bs ∧
      work.bytes m' = List.replicate work.len 0 ∧ OnlyIn [out, work] m m' := by
  unfold inRegion
  rcases hwork with ⟨hn, rfl, hlen⟩ | ⟨hn, hbuf, hlen⟩
  · have hzero : OnlyIn [work] m (m.write work.off (List.replicate work.len 0)) :=
      (OnlyIn.refl _ m).write List.mem_cons_self le_rfl (by simp)
    rw [if_pos hn, wp_bind, wp_wipe, wp_bind, wp_slice (by omega) (by omega), wp_bind]
    refine wp_mono (hf ⟨work.off, n⟩ _ rfl le_rfl (by dsimp only; omega) hzero) ?_
    rintro _ m' ⟨hbs, hregion, honly⟩
    rw [wp_pure]
    refine ⟨rfl, hbs, ?_, ?_⟩
    · -- The rest of the array still holds the zeros that it started with.
      have hrest : m'.read (work.off + n) (work.len - n) = List.replicate (work.len - n) 0 := by
        rw [honly.read_two (by dsimp only [Span.Apart] at hout; omega) (by dsimp only; omega),
          ← drop_read, read_write_self _ _ (by simp), List.drop_replicate]
      dsimp only [Span.bytes] at hregion ⊢
      rw [show work.len = n + (work.len - n) by omega, read_add, hregion, hrest,
        List.replicate_append_replicate]
    · exact (hzero.mono (by simp)).trans (honly.widen_snd le_rfl (by dsimp only; omega))
  · rw [if_neg (by omega), hbuf]
    rw [wp_bind]
    refine wp_mono (hf work m hlen le_rfl le_rfl (OnlyIn.refl _ m)) ?_
    rintro _ m' ⟨hbs, -, honly⟩
    have hzero : OnlyIn [work] m' (m'.write work.off (List.replicate work.len 0)) :=
      (OnlyIn.refl _ m').write List.mem_cons_self le_rfl (by simp)
    rw [wp_bind, wp_wipe, wp_pure]
    refine ⟨rfl, (hzero.read_one hout).trans hbs, read_write_self _ _ (by simp), ?_⟩
    exact honly.trans (hzero.mono (by simp))

/-- A slice that is apart from the workspace is as it was before the region was set up. -/
lemma bytes_of_onlyIn_work {s work : Span} {m₁ : ByteMem} (hs : s.Apart work)
    (honly : OnlyIn [work] m m₁) : s.bytes m₁ = s.bytes m :=
  honly.bytes (by simpa using hs)

lemma wp_hkdfInPlace {newEmptyBuffer : ℕ → Option Span} {stack work dst secret salt info : Span}
    (hwork : Workspace newEmptyBuffer stack (hkdfRegionSize h secret.len info.len) work)
    (hdst : dst.len ≤ 255 * h.size) (hdstApart : dst.Apart work) (hsecret : secret.Apart work)
    (hsalt : salt.Apart work) (hinfo : info.Apart work) (hinfoDst : info.Apart dst) :
    wp (hkdfInPlace D newEmptyBuffer stack h dst secret salt info) m fun ok m' =>
      ok = true ∧
      dst.bytes m' = hkdf D h (secret.bytes m) (salt.bytes m) (info.bytes m) dst.len ∧
      work.bytes m' = List.replicate work.len 0 ∧ OnlyIn [dst, work] m m' := by
  refine wp_inRegion dst hwork hdstApart fun region m₁ hlen hoff hend honly => ?_
  rw [← bytes_of_onlyIn_work hsecret honly, ← bytes_of_onlyIn_work hsalt honly,
    ← bytes_of_onlyIn_work hinfo honly]
  exact wp_hkdfCompute hdst hlen (hdstApart.mono hoff hend) (hsecret.mono hoff hend)
    (hsalt.mono hoff hend) (hinfo.mono hoff hend) hinfoDst

/-- For every hash: HMAC over any key and any parts, one of which may be the destination, with a
scratch that is apart, large enough and holds anything, returns and writes the authenticator of the
parts put together, wiping what it used of the scratch; HKDF with at most 255 blocks of output, in
the running function's array or in a locked buffer, returns without error, writes the output and
nothing else but its workspace, which ends as zeros; its region has room for every HMAC; and the
counter of its loop ends as the number of rounds, so it never wraps. -/
theorem hkdfInPlace_exact (D : Digests) (h : InPlaceHash) :
    (∀ (m : ByteMem) (dst scratch : Span) (key : Source) (parts : List Source),
      hmacScratchSize h (parts.map Source.len).sum ≤ scratch.len → h.size ≤ dst.len →
      key.ApartFrom scratch → (∀ p ∈ parts, p.ApartFrom scratch) →
      (⟨dst.off, h.size⟩ : Span).Apart scratch →
      ∃ m', (hmacInPlace D h dst scratch key parts).run m = some ((), m') ∧
        m'.read dst.off h.size = hmac D h (key.bytes m) (parts.flatMap (Source.bytes m)) ∧
        m'.read scratch.off (hmacScratchSize h (parts.map Source.len).sum) =
          List.replicate (hmacScratchSize h (parts.map Source.len).sum) 0 ∧
        ByteMem.OnlyIn [⟨dst.off, h.size⟩, scratch] m m') ∧
    (∀ (newEmptyBuffer : ℕ → Option Span) (m : ByteMem) (stack work dst secret salt info : Span),
      Workspace newEmptyBuffer stack (hkdfRegionSize h secret.len info.len) work →
      dst.len ≤ 255 * h.size → dst.Apart work → secret.Apart work → salt.Apart work →
      info.Apart work → info.Apart dst →
      ∃ m', (hkdfInPlace D newEmptyBuffer stack h dst secret salt info).run m = some (true, m') ∧
        dst.bytes m' = hkdf D h (secret.bytes m) (salt.bytes m) (info.bytes m) dst.len ∧
        work.bytes m' = List.replicate work.len 0 ∧ ByteMem.OnlyIn [dst, work] m m') ∧
    (∀ secretLen infoLen : ℕ,
      2 * maxHashSize + hmacScratchSize h secretLen ≤ hkdfRegionSize h secretLen infoLen ∧
      ∀ prevLen ≤ h.size, 2 * maxHashSize + hmacScratchSize h (prevLen + infoLen + 1) ≤
        hkdfRegionSize h secretLen infoLen) ∧
    ∀ (m : ByteMem) (dst region secret info : Span),
      region.len = hkdfRegionSize h secret.len info.len → dst.len ≤ 255 * h.size →
      dst.Apart region → info.Apart region → info.Apart dst →
      ∃ x m', (hkdfExpand D h dst ⟨region.off + maxHashSize, h.size⟩
          ⟨region.off + 2 * maxHashSize, region.len - 2 * maxHashSize⟩ ⟨region.off, h.size⟩
          info).run m = some (x, m') ∧ x.2.1.toNat = (dst.len + h.size - 1) / h.size := by
  refine ⟨?_, ?_, ?_, ?_⟩
  · intro m dst scratch key parts hscratch hdst hkey hparts hout
    have hlen := length_hmac D h (key.bytes m) (parts.flatMap (Source.bytes m))
    refine ⟨_, run_of_wp ((wp_hmacInPlace key parts rfl hscratch hdst hkey hparts hout _).mpr rfl),
      read_afterHmac dst hlen hscratch hout, ?_, onlyIn_afterHmac dst hlen hscratch⟩
    exact ByteMem.read_write_self _ _ (List.length_replicate ..)
  · intro newEmptyBuffer m stack work dst secret salt info hwork hdst hdstApart hsecret hsalt hinfo
      hinfoDst
    obtain ⟨ok, m', hrun, rfl, hout, hzero, honly⟩ :=
      wp_hkdfInPlace (D := D) (m := m) hwork hdst hdstApart hsecret hsalt hinfo hinfoDst
    exact ⟨m', hrun, hout, hzero, honly⟩
  · intro secretLen infoLen
    obtain ⟨hsecret, hinfo⟩ := hmacScratchSize_le_hkdfRegionSize h secretLen infoLen
    refine ⟨hsecret, fun prevLen hprev => le_trans ?_ hinfo⟩
    exact Nat.add_le_add_left (hmacScratchSize_mono h (by omega)) _
  · intro m dst region secret info hregion hdst hdstApart hinfo hinfoDst
    obtain ⟨x, m', hrun, hctr, -⟩ :=
      wp_hkdfExpand (D := D) (m := m) (hkdfSlices_region hregion hdstApart hinfo hinfoDst) hdst
    exact ⟨x, m', hrun, hctr⟩

/-- Seventy bytes of output with a digest that is constant: a secret of five bytes fits the running
function's array, one of 2000 bytes takes a locked buffer; and an HMAC over its own destination. -/
theorem hkdfInPlace_exact_both_regions :
    let D : Digests := ⟨fun h _ => List.replicate h.size 7, fun _ _ => List.length_replicate ..⟩
    (∃ m', (hkdfInPlace D (fun _ => none) ⟨3000, 1536⟩ .hashSHA256 ⟨0, 70⟩ ⟨100, 5⟩ ⟨200, 0⟩
        ⟨300, 9⟩).run (fun _ => 0) = some (true, m') ∧
      (⟨3000, 1536⟩ : Span).bytes m' = List.replicate 1536 0) ∧
    (∃ m', (hkdfInPlace D (fun n => some ⟨5000, n⟩) ⟨3000, 1536⟩ .hashSHA256 ⟨0, 70⟩ ⟨100, 2000⟩
        ⟨2200, 3⟩ ⟨2300, 9⟩).run (fun _ => 0) = some (true, m') ∧
      (⟨5000, 2192⟩ : Span).bytes m' = List.replicate 2192 0) ∧
    ∃ m', (hmacInPlace D .hashSHA256 ⟨0, 32⟩ ⟨100, 200⟩ (.mem ⟨40, 8⟩)
        [.mem ⟨0, 32⟩, .val [1]]).run (fun _ => 0) = some ((), m') ∧
      m'.read 0 32 = List.replicate 32 7 := by
  intro D
  obtain ⟨hhmac, hhkdf, -⟩ := hkdfInPlace_exact D .hashSHA256
  refine ⟨?_, ?_, ?_⟩
  · obtain ⟨m', hrun, -, hzero, -⟩ := hhkdf (fun _ => none) (fun _ => 0) ⟨3000, 1536⟩ ⟨3000, 1536⟩
      ⟨0, 70⟩ ⟨100, 5⟩ ⟨200, 0⟩ ⟨300, 9⟩ (.inl ⟨by decide, rfl, rfl⟩) (by decide) (by decide)
      (by decide) (by decide) (by decide) (by decide)
    exact ⟨m', hrun, hzero⟩
  · obtain ⟨m', hrun, -, hzero, -⟩ := hhkdf (fun n => some ⟨5000, n⟩) (fun _ => 0) ⟨3000, 1536⟩
      ⟨5000, 2192⟩ ⟨0, 70⟩ ⟨100, 2000⟩ ⟨2200, 3⟩ ⟨2300, 9⟩ (.inr ⟨by decide, rfl, rfl⟩) (by decide)
      (by decide) (by decide) (by decide) (by decide) (by decide)
    exact ⟨m', hrun, hzero⟩
  · obtain ⟨m', hrun, hmac, -⟩ := hhmac (fun _ => 0) ⟨0, 32⟩ ⟨100, 200⟩ (.mem ⟨40, 8⟩)
      [.mem ⟨0, 32⟩, .val [1]] (by decide) (by decide) (show Span.Apart _ _ by decide)
      (by simp [Source.ApartFrom, Span.Apart]) (by decide)
    exact ⟨m', hrun, hmac⟩

end Hkdf

end Secmem.InPlace
