import Secmem.InPlace.Hmac

/-!
# PBKDF2, in place

`pbkdf2_inplace.go` keeps everything in one region: the running block, the current digest, the
password if it had to be hashed, two messages that begin with the padded keys, and the scratch of
the HMAC that each output block starts with.  The padded keys are laid down once; every further
iteration is two hashes over the two messages, with no HMAC call.

So the proof has to say which parts of the region survive what.  The pads are written once, over a
region of zeros, and are then only read (`Pads`); the digest and the running block are what an
iteration changes (`wp_pbkdf2Iterate`); and the scratch lies behind all of them.
-/

namespace Secmem.InPlace

open ByteStrings MemProg ByteMem

/-! ## The construction -/

/-- The digest `U` of RFC 8018 after `j` further iterations, for output block `i`. -/
def pbkdf2U (D : Digests) (h : InPlaceHash) (password salt : Bytes) (i : ℕ) : ℕ → Bytes
  | 0 => hmac D h password (salt ++ putUint32 i)
  | j + 1 => hmac D h password (pbkdf2U D h password salt i j)

/-- The first `j + 1` digests combined. -/
def pbkdf2Sum (D : Digests) (h : InPlaceHash) (password salt : Bytes) (i : ℕ) : ℕ → Bytes
  | 0 => pbkdf2U D h password salt i 0
  | j + 1 => xor (pbkdf2Sum D h password salt i j) (pbkdf2U D h password salt i (j + 1))

variable (D : Digests) (h : InPlaceHash)

/-- PBKDF2 with HMAC, of RFC 8018: `n` bytes of output blocks `1, 2, …`, each the combination of
`iter` digests. -/
def pbkdf2 (password salt : Bytes) (iter n : ℕ) : Bytes :=
  ((List.range' 1 ((n + h.size - 1) / h.size)).flatMap fun i =>
    pbkdf2Sum D h password salt i (iter - 1)).take n

/-! ## The code -/

def pbkdf2RegionSize (saltLen : ℕ) : ℕ :=
  3 * maxHashSize + 2 * (h.block + maxHashSize) + h.block + max (saltLen + 4) h.size

/-- `for i := range block { ipad[i] ^= 0x36; opad[i] ^= 0x5c }`. -/
def xorPads (block : ℕ) (ipad opad : Span) : MemProg Unit :=
  forRange block fun i => do
    let b ← load ipad i
    store ipad i (b ^^^ 0x36)
    let b ← load opad i
    store opad i (b ^^^ 0x5c)

/-- The padded keys, in front of the two messages. -/
def pbkdf2Pads (block : ℕ) (ipad opad password : Span) : MemProg Unit := do
  let _ ← copy ipad password
  let _ ← copy opad password
  xorPads block ipad opad

/-- The password, or its digest if it is longer than a block. -/
def pbkdf2Password (hashed password : Span) : MemProg Span :=
  if h.block < password.len then do
    let bs ← contents password
    let _ ← put hashed (D.digest h bs)
    pure hashed
  else pure password

/-- A further iteration. -/
def pbkdf2Iterate (t u inMsg outMsg : Span) : MemProg Unit := do
  let rest ← slice inMsg h.block inMsg.len
  let _ ← copy rest u
  let bs ← contents inMsg
  let out ← slice outMsg h.block outMsg.len
  let _ ← put out (D.digest h bs)
  let bs ← contents outMsg
  let _ ← put u (D.digest h bs)
  zipEach t.len t t u (· ^^^ ·)

/-- The first digest of output block `i`, which the running block starts with. -/
def pbkdf2First (t u scratch password salt : Span) (i : UInt32) : MemProg Unit := do
  hmacInPlace D h u scratch (.mem password) [.mem salt, .val (putUint32 i.toNat)]
  let _ ← copy t u

/-- An output block, for the offset and the block's index. -/
def pbkdf2Block (dst t u inMsg outMsg scratch password salt : Span) (iter : ℕ) (x : ℕ × UInt32)
    : MemProg (ℕ × UInt32) := do
  let (off, i) := x
  pbkdf2First D h t u scratch password salt i
  forRange (iter - 1) fun _ => pbkdf2Iterate D h t u inMsg outMsg
  let rest ← slice dst off dst.len
  let n ← copy rest t
  pure (off + n, i + 1)

def pbkdf2Run (dst region password salt : Span) (iter : ℕ) : MemProg Unit := do
  let t ← slice region 0 h.size
  let u ← slice region maxHashSize (maxHashSize + h.size)
  let hashed ← slice region (2 * maxHashSize) (2 * maxHashSize + h.size)
  let inStart := 3 * maxHashSize
  let outStart := 3 * maxHashSize + h.block + maxHashSize
  let inMsg ← slice region inStart (inStart + h.block + h.size)
  let outMsg ← slice region outStart (outStart + h.block + h.size)
  let scratch ← slice region (outStart + h.block + maxHashSize) region.len
  let password ← pbkdf2Password D h hashed password
  let ipad ← slice inMsg 0 h.block
  let opad ← slice outMsg 0 h.block
  pbkdf2Pads h.block ipad opad password
  let _ ← loop (fun x => decide (x.1 < dst.len))
    (pbkdf2Block D h dst t u inMsg outMsg scratch password salt iter) dst.len (0, 1)

def pbkdf2Compute (dst region password salt : Span) (iter : ℕ) : MemProg Unit := do
  pbkdf2Run D h dst region password salt iter
  wipe region

/-! ## Pads and iterations -/

section Pbkdf2

variable {D : Digests} {h : InPlaceHash} {m : ByteMem}

lemma wp_xorPads {block : ℕ} {ipad opad : Span} (hipad : block ≤ ipad.len)
    (hopad : block ≤ opad.len)
    (hapart : ipad.off + block ≤ opad.off) (Q : Unit → ByteMem → Prop) :
    wp (xorPads block ipad opad) m Q ↔
      Q () ((m.write ipad.off ((m.read ipad.off block).map (· ^^^ 0x36))).write opad.off
        ((m.read opad.off block).map (· ^^^ 0x5c))) := by
  refine wp_of_run (run_of_wp ?_)
  refine wp_forRange (fun i m' => m' = (m.write ipad.off ((m.read ipad.off i).map
    (· ^^^ 0x36))).write
    opad.off ((m.read opad.off i).map (· ^^^ 0x5c))) (by simp) ?_ fun _ h => h
  rintro i hi _ rfl
  set P := (m.read ipad.off i).map (· ^^^ 0x36) with hP
  set O := (m.read opad.off i).map (· ^^^ 0x5c) with hO
  have hPlen : P.length = i := by simp [hP]
  have hOlen : O.length = i := by simp [hO]
  have hloadI : (m.write ipad.off P).write opad.off O (ipad.off + i) = m (ipad.off + i) := by
    rw [write_of_lt (by omega), write_of_ge (by omega)]
  have hloadO : ((m.write ipad.off P).write opad.off O).write (ipad.off + i)
      [m (ipad.off + i) ^^^ 0x36] (opad.off + i) = m (opad.off + i) := by
    rw [write_of_ge (by simp; omega), write_of_ge (by omega),
      write_of_ge (by omega)]
  rw [wp_bind, wp_load (by omega), wp_bind, wp_store (by omega), wp_bind, wp_load (by omega),
    wp_store (by omega), hloadI, hloadO, read_succ, read_succ, List.map_append,
    List.map_append, ← hP, ← hO, write_append, write_append, hPlen, hOlen]
  simp only [List.map_cons, List.map_nil]
  rw [write_comm (m.write ipad.off P) (by simp; omega)]

/-- A short write over zeros. -/
lemma read_write_zeros {a n : ℕ} {bs : Bytes} (hlen : bs.length ≤ n)
    (hzero : m.read a n = List.replicate n 0) :
    (m.write a bs).read a n = bs ++ List.replicate (n - bs.length) 0 := by
  have hrest := congrArg (List.drop bs.length) hzero
  rw [drop_read, List.drop_replicate] at hrest
  obtain ⟨k, rfl⟩ := Nat.exists_eq_add_of_le hlen
  rw [Nat.add_sub_cancel_left] at hrest ⊢
  rw [read_add, read_write_self _ _ rfl, read_write_apart _ (.inr le_rfl),
    hrest]

/-- Over zeros, the padded keys are the key filled up with zeros and combined with the constants. -/
lemma wp_pbkdf2Pads {block : ℕ} (ipad opad : Span) {key : Span} {k : Bytes}
    (hipad : ipad.len = block)
    (hopad : opad.len = block) (hkey : key.len ≤ block) (hapart : ipad.off + block ≤ opad.off)
    (hkeyApart : key.Apart ipad) (hzeroI : m.read ipad.off block = List.replicate block 0)
    (hzeroO : m.read opad.off block = List.replicate block 0)
    (hk : key.bytes m ++ List.replicate (block - key.len) 0 = k) (Q : Unit → ByteMem → Prop) :
    wp (pbkdf2Pads block ipad opad key) m Q ↔
      Q () ((m.write ipad.off (k.map (· ^^^ 0x36))).write opad.off (k.map (· ^^^ 0x5c))) := by
  have hkeyLen := key.length_bytes m
  have hkLen : k.length = block := by
    simp only [← hk, List.length_append, hkeyLen, List.length_replicate]
    omega
  have hsame : key.bytes (m.write ipad.off (key.bytes m)) = key.bytes m := by
    have honly : OnlyIn [ipad] m (m.write ipad.off (key.bytes m)) :=
      (OnlyIn.refl _ m).write List.mem_cons_self le_rfl (by omega)
    exact honly.read_one hkeyApart
  have hreadI : ((m.write ipad.off (key.bytes m)).write opad.off
      (key.bytes m)).read ipad.off block =
      k := by
    rw [read_write_apart _ (by omega), read_write_zeros (by omega) hzeroI, hkeyLen, hk]
  have hreadO : ((m.write ipad.off (key.bytes m)).write opad.off
      (key.bytes m)).read opad.off block =
      k := by
    rw [read_write_zeros (by omega) (by rw [read_write_apart _ (by omega), hzeroO]),
      hkeyLen,
      hk]
  unfold pbkdf2Pads
  rw [wp_bind, wp_copy, wp_bind, wp_copy, List.take_of_length_le (by omega), hsame,
    List.take_of_length_le (by omega), wp_xorPads hipad.ge hopad.ge hapart, hreadI, hreadO,
    write_comm (m.write ipad.off (key.bytes m)) (by rw [List.length_map]; omega),
    write_write _ _ (by rw [List.length_map]; omega),
    write_write _ _ (by rw [List.length_map]; omega)]

/-- Where the two padded keys are, in a region that begins at `R`. -/
structure Pads (R block : ℕ) (ipad opad : Bytes) (m : ByteMem) : Prop where
  inner : m.read (R + 192) block = ipad
  outer : m.read (R + (256 + block)) block = opad

/-- An iteration replaces the digest by its HMAC and combines it with the running block; apart from
these it writes behind the two padded keys only. -/
lemma wp_pbkdf2Iterate {R : ℕ} {ipad opad : Bytes} (hpads : Pads R h.block ipad opad m) :
    wp (pbkdf2Iterate D h ⟨R, h.size⟩ ⟨R + 64, h.size⟩ ⟨R + 192, h.block + h.size⟩
      ⟨R + (256 + h.block), h.block + h.size⟩) m fun _ m' =>
      let u := D.digest h (opad ++ D.digest h (ipad ++ m.read (R + 64) h.size))
      m'.read (R + 64) h.size = u ∧ m'.read R h.size = xor (m.read R h.size) u ∧
      Pads R h.block ipad opad m' ∧
      OnlyIn [⟨R, 128⟩, ⟨R + 192, 2 * (h.block + 64)⟩] m m' := by
  have hsize := h.size_le
  have hblock := h.size_le_block
  obtain ⟨hin, hout⟩ := hpads
  obtain ⟨u, hu⟩ : ∃ u, u = m.read (R + 64) h.size := ⟨_, rfl⟩
  obtain ⟨inner, hinner⟩ : ∃ inner, inner = D.digest h (ipad ++ u) := ⟨_, rfl⟩
  obtain ⟨u', hu'⟩ : ∃ u', u' = D.digest h (opad ++ inner) := ⟨_, rfl⟩
  have huLen : u.length = h.size := by rw [hu, length_read]
  have hinnerLen : inner.length = h.size := by rw [hinner, D.length_digest]
  have huLen' : u'.length = h.size := by rw [hu', D.length_digest]
  rw [← hu, ← hinner, ← hu']
  unfold pbkdf2Iterate
  rw [wp_bind, wp_slice (Nat.le_add_right _ _) le_rfl, wp_bind, wp_copy]
  simp only [Nat.add_sub_cancel_left]
  dsimp only [Span.bytes]
  rw [← hu, List.take_of_length_le huLen.le, wp_bind, wp_contents]
  dsimp only [Span.bytes]
  rw [read_add, read_write_apart m (by omega), hin,
    read_write_self m _ huLen, ← hinner, wp_bind,
    wp_slice (Nat.le_add_right _ _) le_rfl, wp_bind, wp_put]
  simp only [Nat.add_sub_cancel_left]
  rw [List.take_of_length_le hinnerLen.le, wp_bind, wp_contents]
  dsimp only [Span.bytes]
  rw [read_add, read_write_apart _ (by omega), read_write_apart _ (by omega), hout,
    read_write_self _ _ hinnerLen, ← hu', wp_bind, wp_put]
  rw [List.take_of_length_le huLen'.le,
    wp_zipEach (n := h.size) (d := ⟨R, h.size⟩) (x := ⟨R, h.size⟩) (y := ⟨R + 64, h.size⟩) le_rfl
      le_rfl le_rfl (.inl rfl) (.inl (by dsimp only; omega))]
  have ht : (((m.write (R + 192 + h.block) u).write (R + (256 + h.block) + h.block) inner).write
      (R + 64) u').read R h.size = m.read R h.size := by
    rw [read_write_apart _ (by omega), read_write_apart _ (by omega),
      read_write_apart _ (by omega)]
  rw [read_write_self _ _ huLen', ht]
  obtain ⟨t', ht'⟩ : ∃ t', t' = xor (m.read R h.size) u' := ⟨_, rfl⟩
  have htLen' : t'.length = h.size := by
    rw [ht', length_xor, length_read, huLen', min_self]
  rw [← ht']
  simp only [show List.zipWith (· ^^^ ·) (m.read R h.size) u' = t' from ht'.symm]
  refine ⟨?_, read_write_self _ _ htLen', ⟨?_, ?_⟩, ?_⟩
  · rw [read_write_apart _ (by omega), read_write_self _ _ huLen']
  · rw [read_write_apart _ (by omega), read_write_apart _ (by omega),
      read_write_apart _ (by omega), read_write_apart _ (by omega), hin]
  · rw [read_write_apart _ (by omega), read_write_apart _ (by omega),
      read_write_apart _ (by omega), read_write_apart _ (by omega), hout]
  · refine ((((OnlyIn.refl _ m).write (s := ⟨R + 192, 2 * (h.block + 64)⟩) (by simp) ?_
      ?_).write (s := ⟨R + 192, 2 * (h.block + 64)⟩) (by simp) ?_ ?_).write (s := ⟨R, 128⟩)
      (by simp) ?_ ?_).write (s := ⟨R, 128⟩) (by simp) ?_ ?_ <;> dsimp only <;> omega

/-- HMAC depends on its key through the key's block only. -/
lemma hmac_of_hmacBlock {key key' : Bytes} (hkey : hmacBlock D h key = hmacBlock D h key')
    (msg : Bytes) : hmac D h key msg = hmac D h key' msg := by
  rw [hmac, hmac, hkey]

@[simp] lemma length_pbkdf2U (D : Digests) (h : InPlaceHash) (password salt : Bytes) (i j : ℕ) :
    (pbkdf2U D h password salt i j).length = h.size := by
  cases j with
  | zero => exact length_hmac D h _ _
  | succ j => exact length_hmac D h _ _

@[simp] lemma length_pbkdf2Sum (D : Digests) (h : InPlaceHash) (password salt : Bytes) (i j : ℕ) :
    (pbkdf2Sum D h password salt i j).length = h.size := by
  induction j with
  | zero => exact length_pbkdf2U D h _ _ _ _
  | succ j ih => rw [pbkdf2Sum, length_xor, ih, length_pbkdf2U, min_self]

/-- The four bytes of an index are those of its remainder. -/
lemma putUint32_ofNat (i : ℕ) : putUint32 (UInt32.ofNat i).toNat = putUint32 i := by
  have hbyte (k : ℕ) (hk : k ≤ 24) :
      UInt8.ofNat ((UInt32.ofNat i).toNat / 2 ^ k) = UInt8.ofNat (i / 2 ^ k) := by
    apply UInt8.toNat_inj.mp
    rw [UInt8.toNat_ofNat', UInt8.toNat_ofNat', UInt32.toNat_ofNat']
    interval_cases k <;> omega
  have hlast := hbyte 0 (by decide)
  rw [pow_zero, Nat.div_one, Nat.div_one] at hlast
  rw [putUint32, putUint32, hbyte 24 le_rfl, hbyte 16 (by decide), hbyte 8 (by decide), hlast]

/-- What the code for an output block finds: the padded keys of the password, a slice to key HMAC
with, and enough room behind the messages. -/
structure BlockReady (D : Digests) (h : InPlaceHash) (R L : ℕ) (key salt : Span) (password : Bytes)
    (m : ByteMem) : Prop where
  pads : Pads R h.block ((hmacBlock D h password).map (· ^^^ 0x36))
    ((hmacBlock D h password).map (· ^^^ 0x5c)) m
  keyBlock : hmacBlock D h (key.bytes m) = hmacBlock D h password
  room : 320 + 2 * h.block + hmacScratchSize h (salt.len + 4) ≤ L
  keyApart : key.Apart ⟨R + (320 + 2 * h.block), L - (320 + 2 * h.block)⟩
  saltApart : salt.Apart ⟨R + (320 + 2 * h.block), L - (320 + 2 * h.block)⟩

/-- The first digest leaves the padded keys alone. -/
lemma wp_pbkdf2First {R L : ℕ} (i : ℕ) {key salt : Span} {password : Bytes}
    (hready : BlockReady D h R L key salt password m) :
    wp (pbkdf2First D h ⟨R, h.size⟩ ⟨R + 64, h.size⟩
        ⟨R + (320 + 2 * h.block), L - (320 + 2 * h.block)⟩ key salt (UInt32.ofNat i)) m fun _ m' =>
      m'.read (R + 64) h.size = pbkdf2U D h password (salt.bytes m) i 0 ∧
      m'.read R h.size = pbkdf2Sum D h password (salt.bytes m) i 0 ∧
      Pads R h.block ((hmacBlock D h password).map (· ^^^ 0x36))
        ((hmacBlock D h password).map (· ^^^ 0x5c)) m' ∧
      OnlyIn [⟨R, 128⟩, ⟨R + 192, L - 192⟩] m m' := by
  have hsize := h.size_le
  obtain ⟨⟨hin, hout⟩, hkey, hroom, hkeyApart, hsaltApart⟩ := hready
  obtain ⟨scratch, hscratch⟩ : ∃ s : Span,
    s = ⟨R + (320 + 2 * h.block), L - (320 + 2 * h.block)⟩ := ⟨_, rfl⟩
  have hscratchIn : scratch.off = R + (320 + 2 * h.block) ∧
      scratch.len = L - (320 + 2 * h.block) := by
    rw [hscratch]
    exact ⟨rfl, rfl⟩
  rw [← hscratch] at hkeyApart hsaltApart ⊢
  obtain ⟨mac, hmacEq⟩ : ∃ mac, mac = pbkdf2U D h password (salt.bytes m) i 0 := ⟨_, rfl⟩
  have hlen : mac.length = h.size := by rw [hmacEq, length_pbkdf2U]
  have hapart : (⟨R + 64, h.size⟩ : Span).Apart scratch := .inr (.inr (.inl (by dsimp only; omega)))
  have hscratchLen : hmacScratchSize h (salt.len + 4) ≤ scratch.len := by omega
  have hmsg : hmac D h ((Source.mem key).bytes m)
      ([Source.mem salt, .val (putUint32 (UInt32.ofNat i).toNat)].flatMap (Source.bytes m)) =
        mac := by
    rw [hmacEq, pbkdf2U, ← hmac_of_hmacBlock hkey, putUint32_ofNat]
    simp [Source.bytes]
  have honly := onlyIn_afterHmac (m := m) ⟨R + 64, h.size⟩ hlen hscratchLen
  have hread := read_afterHmac (m := m) ⟨R + 64, h.size⟩ hlen hscratchLen hapart
  rw [pbkdf2Sum, ← hmacEq]
  unfold pbkdf2First
  rw [wp_bind, wp_hmacInPlace (.mem key) _ (by simp [Source.len]) hscratchLen le_rfl hkeyApart
    (by simpa [Source.ApartFrom] using hsaltApart) hapart, hmsg]
  generalize afterHmac m h ⟨R + 64, h.size⟩ scratch (salt.len + 4) mac = m₁ at *
  rw [wp_bind, wp_copy, wp_pure]
  dsimp only [Span.bytes]
  rw [hread, List.take_of_length_le hlen.le]
  refine ⟨?_, read_write_self _ _ hlen, ⟨?_, ?_⟩, ?_⟩
  · rw [read_write_apart _ (by omega), hread]
  · rw [read_write_apart _ (by omega),
      honly.read_two (by dsimp only; omega) (by omega), hin]
  · rw [read_write_apart _ (by omega),
      honly.read_two (by dsimp only; omega) (by omega), hout]
  · have hmono : OnlyIn [⟨R, 128⟩, ⟨R + 192, L - 192⟩] _ _ :=
      (honly.widen (by dsimp only; omega) (by dsimp only; omega)).widen_snd
        (by dsimp only; omega) (by dsimp only; omega)
    exact hmono.write (s := ⟨R, 128⟩) (by simp) le_rfl (by dsimp only; omega)

/-- An output block: it writes as much of the combined digests as there is room for, and in the
region nothing of the padded keys or of the hashed password. -/
lemma wp_pbkdf2Block {R L iter off : ℕ} (i : ℕ) {dst key salt : Span} {password : Bytes}
    (hready : BlockReady D h R L key salt password m) (hoff : off < dst.len)
    (hdst : dst.Apart ⟨R, L⟩) :
    wp (pbkdf2Block D h dst ⟨R, h.size⟩ ⟨R + 64, h.size⟩ ⟨R + 192, h.block + h.size⟩
        ⟨R + (256 + h.block), h.block + h.size⟩
        ⟨R + (320 + 2 * h.block), L - (320 + 2 * h.block)⟩ key salt iter (off, UInt32.ofNat i)) m
      fun x m' =>
      x = (off + min (dst.len - off) h.size, UInt32.ofNat (i + 1)) ∧
      m'.read (dst.off + off) (min (dst.len - off) h.size) =
        (pbkdf2Sum D h password (salt.bytes m) i (iter - 1)).take (min (dst.len - off) h.size) ∧
      Pads R h.block ((hmacBlock D h password).map (· ^^^ 0x36))
        ((hmacBlock D h password).map (· ^^^ 0x5c)) m' ∧
      OnlyIn
        [⟨dst.off + off, min (dst.len - off) h.size⟩, ⟨R, 128⟩, ⟨R + 192, L - 192⟩] m m' := by
  have hsize := h.size_le
  have hroom := hready.room
  unfold pbkdf2Block
  rw [wp_bind]
  refine wp_mono (wp_pbkdf2First i hready) ?_
  rintro _ m₁ ⟨hu, ht, hpads, honly⟩
  rw [wp_bind]
  refine wp_forRange (fun j m' => m'.read (R + 64) h.size = pbkdf2U D h password
    (salt.bytes m) i j ∧
      m'.read R h.size = pbkdf2Sum D h password (salt.bytes m) i j ∧
      Pads R h.block ((hmacBlock D h password).map (· ^^^ 0x36))
        ((hmacBlock D h password).map (· ^^^ 0x5c)) m' ∧
      OnlyIn [⟨R, 128⟩, ⟨R + 192, L - 192⟩] m m') ⟨hu, ht, hpads, honly⟩ ?_ ?_
  · rintro j - m' ⟨hu, ht, hpads, honly⟩
    refine wp_mono (wp_pbkdf2Iterate hpads) ?_
    rintro _ m'' ⟨hu', ht', hpads', honly'⟩
    rw [hu] at hu'
    rw [hu, ht] at ht'
    refine ⟨hu', ht', hpads', honly.trans (honly'.widen_snd le_rfl ?_)⟩
    dsimp only
    omega
  · rintro m' ⟨-, ht, hpads, honly⟩
    obtain ⟨T, hT⟩ : ∃ T, T = pbkdf2Sum D h password (salt.bytes m) i (iter - 1) := ⟨_, rfl⟩
    rw [← hT] at ht
    rw [← hT]
    have hTlen : T.length = h.size := by rw [hT, length_pbkdf2Sum]
    obtain ⟨n, hn⟩ : ∃ n, n = min (dst.len - off) h.size := ⟨_, rfl⟩
    have htake : T.take (dst.len - off) = T.take n := by
      rw [hn, ← hTlen, ← List.take_eq_take_min]
    have htakeLen : (T.take n).length = n := by
      rw [List.length_take, hTlen]
      omega
    rw [wp_bind, wp_slice hoff.le le_rfl, wp_bind, wp_copy, wp_pure]
    dsimp only [Span.bytes]
    rw [ht, htake, ← hn]
    have hend : dst.off + off + n ≤ R ∨ R + L ≤ dst.off + off := by
      dsimp only [Span.Apart] at hdst
      omega
    refine ⟨?_, read_write_self _ _ htakeLen, ⟨?_, ?_⟩, ?_⟩
    · rw [UInt32.ofNat_add]
      rfl
    · rw [read_write_apart _ (by omega), hpads.inner]
    · rw [read_write_apart _ (by omega), hpads.outer]
    · exact (honly.subset (by simp)).write List.mem_cons_self le_rfl (by dsimp only; omega)

/-- What the loop finds before output block `k`; the output so far goes on to be `target`. -/
structure Pbkdf2Inv (D : Digests) (h : InPlaceHash) (R L iter : ℕ) (dst key salt : Span)
    (password salted target : Bytes) (m₀ : ByteMem) (x : ℕ × UInt32) (m : ByteMem) : Prop where
  ready : BlockReady D h R L key salt password m
  salt : salt.bytes m = salted
  off : x.1 ≤ dst.len
  rest : ∃ k, x.2 = UInt32.ofNat k ∧ m.read dst.off x.1 ++ keystream h.size
    (fun i => pbkdf2Sum D h password salted i (iter - 1)) k (dst.len - x.1) = target
  only : ByteMem.OnlyIn [dst, ⟨R, 128⟩, ⟨R + 192, L - 192⟩] m₀ m

/-- What the outer loop needs of the slices: key and salt are apart from what it writes. -/
structure Pbkdf2Slices (R L : ℕ) (dst key salt : Span) : Prop where
  dstApart : dst.Apart ⟨R, L⟩
  keyApart : key.Apart dst ∧ key.Apart ⟨R, 128⟩ ∧ key.Apart ⟨R + 192, L - 192⟩
  saltApart : salt.Apart dst ∧ salt.Apart ⟨R, 128⟩ ∧ salt.Apart ⟨R + 192, L - 192⟩

lemma Pbkdf2Inv.step {R L iter : ℕ} {dst key salt : Span} {password salted target : Bytes}
    {m₀ : ByteMem} {x : ℕ × UInt32} (S : Pbkdf2Slices R L dst key salt)
    (hI : Pbkdf2Inv D h R L iter dst key salt password salted target m₀ x m) (hlt : x.1 < dst.len) :
    wp (pbkdf2Block D h dst ⟨R, h.size⟩ ⟨R + 64, h.size⟩ ⟨R + 192, h.block + h.size⟩
        ⟨R + (256 + h.block), h.block + h.size⟩
        ⟨R + (320 + 2 * h.block), L - (320 + 2 * h.block)⟩ key salt iter x) m
      fun x' m' => Pbkdf2Inv D h R L iter dst key salt password salted target m₀ x' m' ∧
        x.1 < x'.1 := by
  obtain ⟨off, i⟩ := x
  obtain ⟨hready, hsalt, hoff, ⟨k, hk, htarget⟩, honly⟩ := hI
  dsimp only at *
  have hpos := h.size_pos
  rw [hk]
  refine wp_mono (wp_pbkdf2Block k hready hlt S.dstApart) ?_
  rintro _ m' ⟨rfl, hout, hpads, honly'⟩
  rw [hsalt] at hout
  obtain ⟨n, hn⟩ : ∃ n, n = min (dst.len - off) h.size := ⟨_, rfl⟩
  rw [← hn] at hout honly' ⊢
  have hmono : OnlyIn [dst, ⟨R, 128⟩, ⟨R + 192, L - 192⟩] m m' :=
    honly'.widen (by dsimp only; omega) (by dsimp only; omega)
  have hkept {s : Span} (hs : s.Apart dst ∧ s.Apart ⟨R, 128⟩ ∧ s.Apart ⟨R + 192, L - 192⟩) :
      s.bytes m' = s.bytes m :=
    hmono.bytes (by simpa using hs)
  have hdone : m'.read dst.off off = m.read dst.off off := by
    have hdst := S.dstApart
    have hroom := hready.room
    refine honly'.read ?_
    simp only [List.forall_mem_cons, List.not_mem_nil, false_implies, implies_true, and_true]
    dsimp only [Span.Apart] at hdst
    refine ⟨?_, ?_, ?_⟩ <;> omega
  refine ⟨⟨⟨hpads, ?_, hready.room, hready.keyApart, hready.saltApart⟩, ?_, ?_, ⟨k + 1, rfl, ?_⟩,
    honly.trans hmono⟩, ?_⟩
  · rw [hkept S.keyApart, hready.keyBlock]
  · rw [hkept S.saltApart, hsalt]
  · dsimp only
    omega
  · have hstream := keystream_block (n := dst.len - off)
      (fun i => pbkdf2Sum D h password salted i (iter - 1)) k (length_pbkdf2Sum D h _ _ _ _) hpos
    rw [← hn] at hstream
    rw [hstream, ← List.append_assoc] at htarget
    rw [read_add, hdone, hout, ← Nat.sub_sub, htarget]
  · dsimp only
    omega

/-- A key that fits a block is only filled up. -/
lemma hmacBlock_of_le {key : Bytes} (hkey : key.length ≤ h.block) :
    hmacBlock D h key = key ++ List.replicate (h.block - key.length) 0 := by
  unfold hmacBlock
  rw [if_neg (by omega)]

/-- The slice that HMAC is keyed with: the password or its digest, with the same block, in memory
that has changed at most where the digest goes. -/
lemma wp_pbkdf2Password {hashed password : Span} (hhashed : hashed.len = h.size) :
    wp (pbkdf2Password D h hashed password) m fun key m' =>
      (key = password ∨ key = hashed) ∧ key.len ≤ h.block ∧
      hmacBlock D h (key.bytes m') = hmacBlock D h (password.bytes m) ∧
      OnlyIn [hashed] m m' := by
  have hsize := h.size_le_block
  unfold pbkdf2Password
  split
  next hlong =>
    have hlen := D.length_digest h (password.bytes m)
    rw [wp_bind, wp_contents, wp_bind, wp_put, wp_pure, List.take_of_length_le (by omega)]
    refine ⟨.inr rfl, by omega, ?_, ?_⟩
    · rw [Span.bytes, read_write_self _ _ (by omega), hmacBlock_of_le (by omega), hmacBlock,
        Span.length_bytes, if_pos hlong]
    · exact (OnlyIn.refl _ m).write List.mem_cons_self le_rfl (by omega)
  next hshort =>
    rw [wp_pure]
    exact ⟨.inl rfl, Nat.not_lt.mp hshort, rfl, OnlyIn.refl _ m⟩

lemma pbkdf2_eq_keystream (D : Digests) (h : InPlaceHash) (password salt : Bytes) (iter n : ℕ) :
    pbkdf2 D h password salt iter n =
      keystream h.size (fun i => pbkdf2Sum D h password salt i (iter - 1)) 1 n := by
  have hpos := h.size_pos
  have hcover : n ≤ (n + h.size - 1) / h.size * h.size := by
    have := Nat.lt_div_mul_add (a := n + h.size - 1) hpos
    omega
  exact take_flatMap_block (fun i _ => length_pbkdf2Sum D h _ _ _ _) hpos hcover

section

variable {dst region password salt : Span} (iter : ℕ)
  (hregion : pbkdf2RegionSize h salt.len ≤ region.len)
  (hzero : region.bytes m = List.replicate region.len 0) (hdst : dst.Apart region)
  (hpassword : password.Apart region) (hsalt : salt.Apart region)
  (hpasswordDst : password.Apart dst) (hsaltDst : salt.Apart dst)
include hregion hzero hdst hpassword hsalt hpasswordDst hsaltDst

/-- The derivation, without the final wipe. -/
lemma wp_pbkdf2Run :
    wp (pbkdf2Run D h dst region password salt iter) m fun _ m' =>
      dst.bytes m' = pbkdf2 D h (password.bytes m) (salt.bytes m) iter dst.len ∧
      OnlyIn [dst, region] m m' := by
  have hsize := h.size_le
  have hroom : 320 + 2 * h.block + hmacScratchSize h (salt.len + 4) ≤ region.len := by
    refine le_trans (le_of_eq ?_) hregion
    unfold pbkdf2RegionSize hmacScratchSize maxHashSize
    ring
  obtain ⟨R, L⟩ := region
  dsimp only [Span.bytes] at hzero hroom
  have hzeroAt {a n : ℕ} (ha : R ≤ a) (hend : a + n ≤ R + L) : m.read a n = List.replicate n 0 := by
    obtain ⟨d, rfl⟩ := Nat.exists_eq_add_of_le ha
    have := congrArg (fun l => (l.drop d).take n) hzero
    rwa [drop_read, take_read _ _ (by omega), List.drop_replicate,
      List.take_replicate, Nat.min_eq_left (by omega)] at this
  have hscratch : h.block + h.size ≤ hmacScratchSize h (salt.len + 4) :=
    Nat.add_le_add_left (le_max_right _ _) _
  obtain ⟨hashed, hhashed⟩ : ∃ s : Span, s = ⟨R + 128, h.size⟩ := ⟨_, rfl⟩
  have hhashedIn : hashed.off = R + 128 ∧ hashed.len = h.size := by
    rw [hhashed]
    exact ⟨rfl, rfl⟩
  unfold pbkdf2Run maxHashSize
  rw [wp_bind, wp_slice_eq R h.size rfl (by omega) (by dsimp only; omega), wp_bind,
    wp_slice_eq (R + 64) h.size rfl rfl (by dsimp only; omega), wp_bind,
    wp_slice_eq (R + 128) h.size rfl rfl (by dsimp only; omega), wp_bind,
    wp_slice_eq (R + 192) (h.block + h.size) rfl (by omega) (by dsimp only; omega), wp_bind,
    wp_slice_eq (R + (256 + h.block)) (h.block + h.size) (by dsimp only; omega) (by omega)
      (by dsimp only; omega), wp_bind,
    wp_slice_eq (R + (320 + 2 * h.block)) (L - (320 + 2 * h.block)) (by dsimp only; omega)
      (by dsimp only; omega) le_rfl, ← hhashed, wp_bind]
  refine wp_mono (wp_pbkdf2Password hhashedIn.2) ?_
  rintro key m₁ ⟨hkeyIs, hkeyLen, hkeyBlock, honly₁⟩
  rw [wp_bind, wp_slice_eq (R + 192) h.block rfl (by omega) (by dsimp only; omega), wp_bind,
    wp_slice_eq (R + (256 + h.block)) h.block rfl (by omega) (by dsimp only; omega), wp_bind]
  -- The hashed password is in front of the messages, the password is not in the region at all.
  have hkeyApart {s : Span} (hs : R + 192 ≤ s.off) (hend : s.off + s.len ≤ R + L) :
      key.Apart s := by
    rcases hkeyIs with rfl | rfl
    · exact hpassword.mono (by dsimp only; omega) hend
    · exact .inr (.inr (.inl (by omega)))
  have hkeyFront : key.Apart ⟨R, 128⟩ := by
    rcases hkeyIs with rfl | rfl
    · exact hpassword.mono le_rfl (by dsimp only; omega)
    · exact .inr (.inr (.inr (by dsimp only; omega)))
  have hkeyDst : key.Apart dst := by
    rcases hkeyIs with rfl | rfl
    · exact hpasswordDst
    · exact (hdst.mono (by dsimp only; omega) (by dsimp only; omega)).symm
  have hzero₁ {a : ℕ} (ha : R + 192 ≤ a) (hend : a + h.block ≤ R + L) :
      m₁.read a h.block = List.replicate h.block 0 := by
    rw [honly₁.read_one (by omega), hzeroAt (by omega) hend]
  obtain ⟨K, hK⟩ : ∃ K, K = hmacBlock D h (password.bytes m) := ⟨_, rfl⟩
  have hkey : key.bytes m₁ ++ List.replicate (h.block - key.len) 0 = K := by
    rw [hK, ← hkeyBlock, hmacBlock_of_le (by rwa [Span.length_bytes]), Span.length_bytes]
  have hKlen : K.length = h.block := by rw [hK, length_hmacBlock]
  rw [wp_pbkdf2Pads ⟨R + 192, h.block⟩ ⟨R + (256 + h.block), h.block⟩ rfl rfl hkeyLen
    (by dsimp only; omega) (hkeyApart le_rfl (by dsimp only; omega))
    (hzero₁ le_rfl (by dsimp only; omega)) (hzero₁ (by dsimp only; omega) (by dsimp only; omega))
    hkey]
  obtain ⟨m₂, hm₂⟩ : ∃ m₂, m₂ = (m₁.write (R + 192) (K.map (· ^^^ 0x36))).write
    (R + (256 + h.block)) (K.map (· ^^^ 0x5c)) := ⟨_, rfl⟩
  have honly₂ : OnlyIn [⟨R + 192, 2 * h.block + 64⟩] m₁ m₂ := by
    rw [hm₂]
    refine
      ((OnlyIn.refl _ m₁).write List.mem_cons_self ?_ ?_).write List.mem_cons_self ?_ ?_
      <;> simp only [List.length_map] <;> omega
  have hpads : Pads R h.block (K.map (· ^^^ 0x36)) (K.map (· ^^^ 0x5c)) m₂ := by
    refine ⟨?_, ?_⟩
    · rw [hm₂, read_write_apart _ (by omega), read_write_self _ _ (by simpa)]
    · rw [hm₂, read_write_self _ _ (by simpa)]
  rw [← hm₂]
  have honlyR : OnlyIn [⟨R, L⟩] m m₂ := by
    refine (honly₁.widen ?_ ?_).trans (honly₂.widen ?_ ?_) <;> dsimp only <;> omega
  have hready : BlockReady D h R L key salt (password.bytes m) m₂ := by
    refine ⟨hK ▸ hpads, ?_, hroom, hkeyApart (by dsimp only; omega) (by dsimp only; omega),
      hsalt.mono (by dsimp only; omega) (by dsimp only; omega)⟩
    have hsame : key.bytes m₂ = key.bytes m₁ :=
      honly₂.read_one (hkeyApart (s := ⟨R + 192, 2 * h.block + 64⟩) le_rfl (by dsimp only; omega))
    rw [hsame, hkeyBlock]
  have hsalted : salt.bytes m₂ = salt.bytes m := honlyR.read_one hsalt
  have S : Pbkdf2Slices R L dst key salt :=
    { dstApart := hdst
      keyApart := ⟨hkeyDst, hkeyFront, hkeyApart le_rfl (by dsimp only; omega)⟩
      saltApart := ⟨hsaltDst, hsalt.mono le_rfl (by dsimp only; omega),
        hsalt.mono (by dsimp only; omega) (by dsimp only; omega)⟩ }
  rw [wp_bind]
  refine wp_loop (Pbkdf2Inv D h R L iter dst key salt (password.bytes m) (salt.bytes m)
      (pbkdf2 D h (password.bytes m) (salt.bytes m) iter dst.len) m₂) (fun x => dst.len - x.1) ?_
    (Nat.sub_le _ _) (fun x hx => ?_) (fun x m' hI hx => ?_) fun x m' hI hx => ?_
  · refine ⟨hready, hsalted, Nat.zero_le _, ⟨1, rfl, ?_⟩, OnlyIn.refl _ m₂⟩
    rw [pbkdf2_eq_keystream, read_zero, List.nil_append, Nat.sub_zero]
  · have := of_decide_eq_true hx
    omega
  · have hlt := of_decide_eq_true hx
    refine wp_mono (hI.step S hlt) fun x' m'' h => ⟨h.1, ?_⟩
    have := h.2
    omega
  · obtain ⟨k, -, htarget⟩ := hI.rest
    have hle : dst.len ≤ x.1 := by simpa using hx
    have hdone : x.1 = dst.len := le_antisymm hI.off hle
    rw [hdone, Nat.sub_self, keystream_zero, List.append_nil] at htarget
    rw [wp_pure]
    refine ⟨htarget, (honlyR.mono (by simp)).trans (hI.only.mono ?_)⟩
    simp only [List.forall_mem_cons, List.not_mem_nil, false_implies, implies_true, and_true]
    exact ⟨.inr ⟨dst, by simp, le_rfl, le_rfl⟩,
      .inr ⟨⟨R, L⟩, by simp, le_rfl, by dsimp only; omega⟩,
      .inr ⟨⟨R, L⟩, by simp, by dsimp only; omega, by dsimp only; omega⟩⟩

lemma wp_pbkdf2Compute :
    wp (pbkdf2Compute D h dst region password salt iter) m fun _ m' =>
      dst.bytes m' = pbkdf2 D h (password.bytes m) (salt.bytes m) iter dst.len ∧
      region.bytes m' = List.replicate region.len 0 ∧ OnlyIn [dst, region] m m' := by
  unfold pbkdf2Compute
  rw [wp_bind]
  refine wp_mono (wp_pbkdf2Run iter hregion hzero hdst hpassword hsalt hpasswordDst hsaltDst) ?_
  rintro _ m' ⟨hout, honly⟩
  have hwiped : OnlyIn [region] m' (m'.write region.off (List.replicate region.len 0)) :=
    (OnlyIn.refl _ m').write List.mem_cons_self le_rfl (by simp)
  rw [wp_wipe]
  exact ⟨(hwiped.read_one hdst).trans hout, read_write_self _ _ (by simp),
    honly.trans (hwiped.mono (by simp))⟩

end

/-- For every hash, password, salt, number of iterations and length of output, with a region of
zeros that is large enough: the derivation returns, writes PBKDF2's output and nothing outside its
region and the output, and leaves the region zero. Beyond the lengths that RFC 8018 allows, the
index of an output block goes on modulo `2 ^ 32`. -/
theorem pbkdf2Compute_exact (D : Digests) (h : InPlaceHash) (m : ByteMem)
    (dst region password salt : Span) (iter : ℕ)
    (hregion : pbkdf2RegionSize h salt.len ≤ region.len)
    (hzero : region.bytes m = List.replicate region.len 0) (hdst : dst.Apart region)
    (hpassword : password.Apart region) (hsalt : salt.Apart region)
    (hpasswordDst : password.Apart dst) (hsaltDst : salt.Apart dst) :
    ∃ m', (pbkdf2Compute D h dst region password salt iter).run m = some ((), m') ∧
      dst.bytes m' = pbkdf2 D h (password.bytes m) (salt.bytes m) iter dst.len ∧
      region.bytes m' = List.replicate region.len 0 ∧ ByteMem.OnlyIn [dst, region] m m' := by
  obtain ⟨_, m', hrun, hout, hwiped, honly⟩ := wp_pbkdf2Compute (D := D) iter hregion hzero hdst
    hpassword hsalt hpasswordDst hsaltDst
  exact ⟨m', hrun, hout, hwiped, honly⟩

/-- Fifty bytes, over three output blocks, from a password that is longer than a block. -/
theorem pbkdf2Compute_exact_long_password :
    ∃ m', (pbkdf2Compute ⟨fun h bs => (bs ++ List.replicate h.size 5).take h.size,
        by simp⟩ .hashSHA1
        ⟨0, 50⟩ ⟨1000, 700⟩ ⟨100, 65⟩ ⟨200, 8⟩ 1000).run (fun a => if a < 1000 then 1 else 0) =
          some ((), m') ∧
      (⟨1000, 700⟩ : Span).bytes m' = List.replicate 700 0 := by
  obtain ⟨m', hrun, -, hzero, -⟩ := pbkdf2Compute_exact
    ⟨fun h bs => (bs ++ List.replicate h.size 5).take h.size, by simp⟩ .hashSHA1
    (fun a => if a < 1000 then 1 else 0) ⟨0, 50⟩ ⟨1000, 700⟩ ⟨100, 65⟩ ⟨200, 8⟩ 1000 (by decide)
    (ByteMem.read_eq_replicate_iff.mpr fun i _ => if_neg (by dsimp only; omega))
    (by decide) (by decide)
    (by decide) (by decide) (by decide)
  exact ⟨m', hrun, hzero⟩

end Pbkdf2

end Secmem.InPlace
