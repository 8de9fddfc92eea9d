import Secmem.Framework.ByteMemory
import Secmem.Framework.DerEncoding
import Secmem.Framework.KeyStream

/-!
# Counter mode and cipher block chaining, in place

`openssh_cipher.go`: the two modes are written out over a block cipher and work in slices that the
caller hands in, among them the scratch that holds the counter and the keystream, or the chaining
block.  Input and output of the counter mode may be the same slice.

The block cipher is any function on blocks of 16 bytes.  `ctrXOR_keystream` says what counter mode
writes, and where; `cbcDecrypt_pkcs7Unpad` that decryption and the check of the padding undo the
encryption of a padded message.
-/

namespace Secmem.InPlace

open ByteStrings Der MemProg ByteMem

/-- A function on blocks of 16 bytes. -/
structure BlockFn where
  fn : Bytes → Bytes
  length_fn : ∀ b, b.length = 16 → (fn b).length = 16

def opensshAESBlock : ℕ := 16

/-- The scratch that either mode needs. -/
def cipherScratch : ℕ := 2 * opensshAESBlock

/-- `Block.Encrypt` and `Block.Decrypt`: the first block of `s`, into `d`. -/
def cryptBlock (E : BlockFn) (d s : Span) : MemProg Unit := do
  let s ← slice s 0 opensshAESBlock
  let d ← slice d 0 opensshAESBlock
  let b ← contents s
  let _ ← put d (E.fn b)

/-! ## Either mode -/

section Mode

variable {R : Bytes → Bytes → Bytes → Prop} {target : Bytes} {iv dst src scratch : Span}
  {m m₀ : ByteMem} {round : Span × Span → MemProg (Span × Span)}

/-- What is left of the input and of the output, of which as much has been used. -/
structure Left (dst src : Span) (x : Span × Span) : Prop where
  le : x.1.len ≤ src.len
  srcOff : x.1.off = src.off + (src.len - x.1.len)
  dstOff : x.2.off = dst.off + (src.len - x.1.len)
  dstLen : x.2.len = dst.len - (src.len - x.1.len)

/-- What a round has to find: the output so far goes on to be `target` with what `R` says becomes
of the block in the scratch and of the input that is left. -/
structure ModeInv (R : Bytes → Bytes → Bytes → Prop) (target : Bytes) (dst src scratch : Span)
    (m₀ : ByteMem) (x : Span × Span) (m : ByteMem) : Prop extends Left dst src x where
  rest : ∃ out, R (m.read scratch.off 16) (x.1.bytes m) out ∧
    m.read dst.off (src.len - x.1.len) ++ out = target
  only : OnlyIn [⟨dst.off, src.len⟩, ⟨scratch.off, 32⟩] m₀ m

/-- A round writes a piece of the output and the scratch. -/
def Round (R : Bytes → Bytes → Bytes → Prop) (scratch : Span) (m : ByteMem) (out : Bytes)
    (x x' : Span × Span) (m' : ByteMem) : Prop :=
  ∃ n out', (0 < n ∧ n ≤ x.1.len) ∧
    x' = (⟨x.1.off + n, x.1.len - n⟩, ⟨x.2.off + n, x.2.len - n⟩) ∧
    out = m'.read x.2.off n ++ out' ∧
    R (m'.read scratch.off 16) (m.read (x.1.off + n) (x.1.len - n)) out' ∧
    OnlyIn [⟨x.2.off, n⟩, ⟨scratch.off, 32⟩] m m'

variable (hdst : src.len ≤ dst.len)
  (hsame : dst.off = src.off ∨ dst.off + src.len ≤ src.off ∨ src.off + src.len ≤ dst.off)
  (hsrcApart : src.Apart ⟨scratch.off, 32⟩)
  (hdstApart : (⟨dst.off, src.len⟩ : Span).Apart ⟨scratch.off, 32⟩)
  (hround : ∀ {x m out}, Left dst src x → 0 < x.1.len →
    R (m.read scratch.off 16) (x.1.bytes m) out → wp (round x) m (Round R scratch m out x))

include hdst hsame hsrcApart hdstApart hround

lemma ModeInv.step {x : Span × Span} (h : ModeInv R target dst src scratch m₀ x m)
    (hpos : 0 < x.1.len) : wp (round x) m fun x' m' =>
      ModeInv R target dst src scratch m₀ x' m' ∧ x'.1.len < x.1.len := by
  obtain ⟨out, hrest, htarget⟩ := h.rest
  refine wp_mono (hround h.toLeft hpos hrest) ?_
  rintro _ m' ⟨n, out', hn, rfl, rfl, hrest', honly⟩
  obtain ⟨⟨hleft, hsrcOff, hdstOff, hdstLen⟩, -, hbefore⟩ := h
  obtain ⟨xs, xd⟩ := x
  dsimp only [Span.Apart] at *
  have hdone : src.len - (xs.len - n) = src.len - xs.len + n := by omega
  have hkept : m'.read dst.off (src.len - xs.len) = m.read dst.off (src.len - xs.len) :=
    honly.read_two (by dsimp only; omega) (by dsimp only; omega)
  have hafter : m'.read (xs.off + n) (xs.len - n) = m.read (xs.off + n) (xs.len - n) :=
    honly.read_two (by dsimp only; omega) (by dsimp only; omega)
  refine ⟨⟨⟨?_, ?_, ?_, ?_⟩, ⟨out', (congrArg (R _ · out') hafter).mpr hrest', ?_⟩, ?_⟩, ?_⟩
  · exact (Nat.sub_le _ _).trans hleft
  · dsimp only
    rw [hdone, hsrcOff, Nat.add_assoc]
  · dsimp only
    rw [hdone, hdstOff, Nat.add_assoc]
  · dsimp only
    rw [hdone, hdstLen, Nat.sub_sub]
  · rw [hdone, read_add, ← hdstOff, hkept, List.append_assoc]
    exact htarget
  · exact hbefore.trans (honly.widen (by dsimp only; omega) (by dsimp only; omega))
  · omega

/-- Either mode, from the IV in the scratch to the wipe of it. -/
lemma wp_mode (hiv : iv.len = 16) (hscratch : 32 ≤ scratch.len)
    (hstart : R (iv.bytes m) (src.bytes m) target)
    (hend : ∀ {c out}, R c [] out → out = []) :
    wp (do
      let _ ← copy ⟨scratch.off, 16⟩ iv
      let _ ← loop (fun x => decide (0 < x.1.len)) round src.len (src, dst)
      let used ← slice scratch 0 cipherScratch
      wipe used) m fun _ m' =>
        m'.read dst.off src.len = target ∧ m'.read scratch.off 32 = List.replicate 32 0 ∧
        OnlyIn [⟨dst.off, src.len⟩, ⟨scratch.off, 32⟩] m m' := by
  have hivLen : (iv.bytes m).length = 16 := by rw [Span.length_bytes, hiv]
  rw [wp_bind, wp_copy, wp_bind, List.take_of_length_le hivLen.le]
  refine wp_loop (ModeInv R target dst src scratch m) (fun x => x.1.len) ?_ le_rfl
    (fun x hx => of_decide_eq_true hx)
    (fun x m' hI hx => hI.step hdst hsame hsrcApart hdstApart hround (of_decide_eq_true hx))
    fun x m' hI hx => ?_
  · have honly : OnlyIn [⟨scratch.off, 32⟩] m (m.write scratch.off (iv.bytes m)) :=
      (OnlyIn.refl _ m).write List.mem_cons_self le_rfl (by dsimp only; omega)
    have hin : (m.write scratch.off (iv.bytes m)).read src.off src.len = src.bytes m :=
      honly.read_one hsrcApart
    refine ⟨⟨le_rfl, by simp, by simp, by simp⟩, ⟨target, ?_, by simp⟩, honly.subset (by simp)⟩
    rw [read_write_self m _ hivLen]
    exact (congrArg (R _ · target) hin).mpr hstart
  · obtain ⟨out, hrest, htarget⟩ := hI.rest
    have hzero : x.1.len = 0 := by simpa using hx
    rw [Span.bytes, hzero, read_zero] at hrest
    rw [hzero, Nat.sub_zero, hend hrest, List.append_nil] at htarget
    rw [cipherScratch, opensshAESBlock, wp_bind, wp_slice (by omega) (by omega), wp_wipe]
    dsimp only [Nat.add_zero, Nat.sub_zero, Nat.mul_one]
    have honly : OnlyIn [⟨scratch.off, 32⟩] m'
        (m'.write scratch.off (List.replicate (2 * 16) 0)) :=
      (OnlyIn.refl _ m').write List.mem_cons_self le_rfl (by simp)
    refine ⟨?_, read_write_self m' _ (by simp), hI.only.trans (honly.subset (by simp))⟩
    rw [honly.read_one hdstApart, htarget]

end Mode

/-! ## Counter mode -/

/-- Adds one to the big-endian number in the first `i` bytes: from the last byte on, until one does
not become zero. -/
def increment (ctr : Span) : ℕ → MemProg Unit
  | 0 => pure ()
  | i + 1 => do
    let b ← load ctr i
    store ctr i (b + 1)
    if b + 1 ≠ 0 then pure () else increment ctr i

/-- A round of `ctrXOR`, for what is left of the input and of the output. -/
def ctrRound (E : BlockFn) (ctr ks : Span) (x : Span × Span) : MemProg (Span × Span) := do
  let (src, dst) := x
  cryptBlock E ks ctr
  let n := min src.len ks.len
  zipEach n dst src ks (· ^^^ ·)
  increment ctr ctr.len
  let src ← slice src n src.len
  let dst ← slice dst n dst.len
  pure (src, dst)

def ctrXOR (E : BlockFn) (iv dst src scratch : Span) : MemProg Unit := do
  let ctr ← slice scratch 0 opensshAESBlock
  let ks ← slice scratch opensshAESBlock cipherScratch
  let _ ← copy ctr iv
  let _ ← loop (fun x => decide (0 < x.1.len)) (ctrRound E ctr ks) src.len (src, dst)
  let used ← slice scratch 0 cipherScratch
  wipe used

/-- The block that counter mode encrypts for block `k` of its input. -/
def counterBlock (iv : Bytes) (k : ℕ) : Bytes := toBE 16 ((unsigned iv + k) % 2 ^ 128)

/-- What counter mode makes of an input. -/
def ctrText (E : BlockFn) (iv src : Bytes) : Bytes :=
  xor src (keystream 16 (fun k => E.fn (counterBlock iv k)) 0 src.length)

@[simp] lemma length_ctrText (E : BlockFn) (iv src : Bytes) :
    (ctrText E iv src).length = src.length := by
  simp [ctrText, length_xor]

/-- Counter mode undoes itself. -/
lemma ctrText_ctrText (E : BlockFn) (iv src : Bytes) : ctrText E iv (ctrText E iv src) = src := by
  rw [ctrText, length_ctrText]
  exact xor_keystream_xor_keystream _ rfl

section Counter

variable {E : BlockFn} {m : ByteMem}

lemma wp_cryptBlock {d s : Span} (hd : 16 ≤ d.len) (hs : 16 ≤ s.len)
    (Q : Unit → ByteMem → Prop) :
    wp (cryptBlock E d s) m Q ↔ Q () (m.write d.off (E.fn (m.read s.off 16))) := by
  have hlen : (E.fn (m.read s.off 16)).length = 16 := E.length_fn _ (by simp)
  rw [cryptBlock, opensshAESBlock, wp_bind, wp_slice (Nat.zero_le _) hs, wp_bind,
    wp_slice (Nat.zero_le _) hd, wp_bind, wp_contents, wp_bind, wp_put, wp_pure]
  simp only [Span.bytes, Nat.add_zero, Nat.sub_zero]
  rw [List.take_of_length_le hlen.le]

/-- The loop over the counter's bytes adds one. -/
lemma wp_increment {ctr : Span} {i : ℕ} (hi : i ≤ ctr.len) (Q : Unit → ByteMem → Prop) :
    wp (increment ctr i) m Q ↔
      Q () (m.write ctr.off (toBE i (unsigned (m.read ctr.off i) + 1))) := by
  induction i generalizing m with
  | zero => simp [increment, toBE]
  | succ i ih =>
    have hb := (m (ctr.off + i)).toNat_lt
    rw [increment, wp_bind, wp_load (by omega), wp_bind, wp_store (by omega), read_succ,
      unsigned_concat, toBE, write_append, length_toBE]
    split
    next hne =>
      -- no carry: the bytes before this one stay
      have hlt : (m (ctr.off + i)).toNat + 1 < 256 := by
        by_contra hge
        refine hne ?_
        apply UInt8.toNat_inj.mp
        rw [UInt8.toNat_add]
        simp only [UInt8.toNat_one, UInt8.toNat_zero]
        omega
      rw [wp_pure]
      have hdiv : (unsigned (m.read ctr.off i) * 256 + (m (ctr.off + i)).toNat + 1) / 256 =
          unsigned (m.read ctr.off i) := by omega
      have hlast : UInt8.ofNat (unsigned (m.read ctr.off i) * 256 + (m (ctr.off + i)).toNat + 1) =
          m (ctr.off + i) + 1 := by
        apply UInt8.toNat_inj.mp
        rw [UInt8.toNat_ofNat', UInt8.toNat_add]
        simp only [UInt8.toNat_one]
        omega
      have hsame : toBE i (unsigned (m.read ctr.off i)) = m.read ctr.off i := by
        have := toBE_unsigned (m.read ctr.off i)
        rwa [length_read] at this
      rw [hdiv, hlast, hsame, write_read]
    next hzero =>
      have hmax : (m (ctr.off + i)).toNat = 255 := by
        have := congrArg UInt8.toNat (not_not.mp hzero)
        rw [UInt8.toNat_add] at this
        simp only [UInt8.toNat_one, UInt8.toNat_zero] at this
        omega
      rw [ih (by omega), read_write_apart _ (.inl le_rfl),
        write_comm _ (.inr (by rw [length_toBE])), not_not.mp hzero]
      have hdiv : (unsigned (m.read ctr.off i) * 256 + (m (ctr.off + i)).toNat + 1) / 256 =
          unsigned (m.read ctr.off i) + 1 := by omega
      have hlast : UInt8.ofNat (unsigned (m.read ctr.off i) * 256 + (m (ctr.off + i)).toNat + 1) =
          0 := by
        apply UInt8.toNat_inj.mp
        rw [UInt8.toNat_ofNat']
        simp only [UInt8.toNat_zero]
        omega
      rw [hdiv, hlast]

lemma length_counterBlock (iv : Bytes) (k : ℕ) : (counterBlock iv k).length = 16 :=
  length_toBE _ _

lemma counterBlock_succ (iv : Bytes) (k : ℕ) :
    toBE 16 (unsigned (counterBlock iv k) + 1) = counterBlock iv (k + 1) := by
  have hpow : (256 : ℕ) ^ 16 = 2 ^ 128 := by norm_num
  rw [counterBlock, counterBlock, unsigned_toBE, ← toBE_mod, hpow, Nat.mod_mod, Nat.mod_add_mod,
    ← Nat.add_assoc]

/-- What a round writes: a piece of output, the next counter, and the scratch. -/
lemma wp_ctrRound {iv : Bytes} {k a n : ℕ} {src dst : Span}
    (hctr : m.read a 16 = counterBlock iv k) (hn : n = min src.len 16) (hdst : n ≤ dst.len)
    (hsame : dst.off = src.off ∨ dst.off + n ≤ src.off ∨ src.off + n ≤ dst.off)
    (hsrcApart : src.off + n ≤ a ∨ a + 32 ≤ src.off)
    (hdstApart : dst.off + n ≤ a ∨ a + 32 ≤ dst.off) :
    wp (ctrRound E ⟨a, 16⟩ ⟨a + 16, 16⟩ (src, dst)) m fun x m' =>
      x = (⟨src.off + n, src.len - n⟩, ⟨dst.off + n, dst.len - n⟩) ∧
      m'.read a 16 = counterBlock iv (k + 1) ∧
      m'.read dst.off n = xor (m.read src.off n) ((E.fn (counterBlock iv k)).take n) ∧
      OnlyIn [⟨dst.off, n⟩, ⟨a, 32⟩] m m' := by
  have hn₁ : n ≤ 16 := hn ▸ Nat.min_le_right _ _
  have hn₂ : n ≤ src.len := hn ▸ Nat.min_le_left _ _
  have hks : (E.fn (counterBlock iv k)).length = 16 := E.length_fn _ (length_counterBlock iv k)
  unfold ctrRound
  dsimp only
  rw [← hn, wp_bind, wp_cryptBlock le_rfl le_rfl]
  rw [hctr, wp_bind, wp_zipEach hdst hn₂ hn₁ hsame (by dsimp only; omega), wp_bind,
    wp_increment le_rfl, wp_bind, wp_slice hn₂ le_rfl, wp_bind, wp_slice hdst le_rfl, wp_pure]
  dsimp only
  -- the block written to the scratch, the piece of output, and the next counter
  set m₁ := m.write (a + 16) (E.fn (counterBlock iv k)) with hm₁
  have hin : m₁.read src.off n = m.read src.off n := read_write_apart m (by omega)
  have hkey : m₁.read (a + 16) n = (E.fn (counterBlock iv k)).take n := by
    rw [← take_read _ _ hn₁, hm₁, read_write_self _ _ hks]
  rw [hin, hkey]
  set piece := List.zipWith (· ^^^ ·) (m.read src.off n) ((E.fn (counterBlock iv k)).take n)
    with hpiece
  have hlen : piece.length = n := by
    rw [hpiece, List.length_zipWith, length_read, List.length_take, hks]
    omega
  set m₂ := m₁.write dst.off piece with hm₂
  have hctr₂ : m₂.read a 16 = counterBlock iv k := by
    rw [hm₂, read_write_apart m₁ (by omega), hm₁, read_write_apart m (by omega),
      hctr]
  have hnext := length_counterBlock iv (k + 1)
  rw [hctr₂, counterBlock_succ]
  refine ⟨rfl, read_write_self m₂ _ hnext, ?_, ?_⟩
  · rw [read_write_apart m₂ (by omega), hm₂, read_write_self m₁ _ hlen]
    rfl
  · refine (((OnlyIn.refl _ m).write (s := ⟨a, 32⟩) (by simp) ?_ ?_).write
      (s := ⟨dst.off, n⟩) (by simp) ?_ ?_).write (s := ⟨a, 32⟩) (by simp) ?_ ?_ <;>
      dsimp only <;> omega

/-- Counter mode writes its input, combined with the encryptions of the successive counter values,
to the output slice, and leaves its scratch zero; it touches nothing else. -/
lemma wp_ctrXOR (iv dst src scratch : Span) (hiv : iv.len = 16) (hdst : src.len ≤ dst.len)
    (hscratch : 32 ≤ scratch.len)
    (hsame : dst.off = src.off ∨ dst.off + src.len ≤ src.off ∨ src.off + src.len ≤ dst.off)
    (hsrcApart : src.Apart ⟨scratch.off, 32⟩)
    (hdstApart : (⟨dst.off, src.len⟩ : Span).Apart ⟨scratch.off, 32⟩) :
    wp (ctrXOR E iv dst src scratch) m fun _ m' =>
      m'.read dst.off src.len = ctrText E (iv.bytes m) (src.bytes m) ∧
      m'.read scratch.off 32 = List.replicate 32 0 ∧
      OnlyIn [⟨dst.off, src.len⟩, ⟨scratch.off, 32⟩] m m' := by
  have hivLen : (iv.bytes m).length = 16 := by rw [Span.length_bytes, hiv]
  have hfirst : counterBlock (iv.bytes m) 0 = iv.bytes m := by
    have hpow : (256 : ℕ) ^ 16 = 2 ^ 128 := by norm_num
    have := toBE_unsigned (iv.bytes m)
    rwa [hivLen, ← toBE_mod, hpow] at this
  unfold ctrXOR cipherScratch opensshAESBlock
  rw [wp_bind, wp_slice (by omega) (by omega), wp_bind, wp_slice (by omega) (by omega)]
  dsimp only [Nat.add_zero, Nat.sub_zero]
  -- the scratch has a counter, and the rest of the input is combined with the blocks from there on
  refine wp_mode (R := fun c input out => ∃ k, c = counterBlock (iv.bytes m) k ∧ out =
      xor input (keystream 16 (fun k => E.fn (counterBlock (iv.bytes m) k)) k input.length))
    hdst hsame hsrcApart hdstApart (fun {x m' out} hx hpos hrest => ?_) hiv hscratch
    ⟨0, hfirst.symm, rfl⟩ (fun ⟨_, _, hout⟩ => hout)
  obtain ⟨k, hctr, rfl⟩ := hrest
  obtain ⟨hleft, hsrcOff, hdstOff, hdstLen⟩ := hx
  obtain ⟨xs, xd⟩ := x
  dsimp only [Span.Apart] at *
  obtain ⟨n, hn⟩ : ∃ n, n = min xs.len 16 := ⟨_, rfl⟩
  refine wp_mono (wp_ctrRound hctr hn (by omega) (by omega) (by omega) (by omega)) ?_
  rintro _ m'' ⟨rfl, hctr', hout, honly⟩
  have hks := E.length_fn _ (length_counterBlock (iv.bytes m) k)
  refine ⟨n, _, ⟨by omega, hn ▸ Nat.min_le_left _ _⟩, rfl, ?_, ⟨k + 1, hctr', rfl⟩, honly⟩
  rw [Span.length_bytes, length_read, xor_keystream_block
    (fun k => E.fn (counterBlock (iv.bytes m) k)) k (Span.length_bytes _ _) hks (by decide), ← hn,
    Span.bytes, take_read m' _ (by omega), drop_read, hout]

/-- For every block function, IV and input, counter mode runs to its end.  It writes to `dst`, which
is the input slice or apart from it, the input combined byte by byte with the encryptions of the
counter values that start at the IV and wrap at `2 ^ 128`; it leaves its scratch zero and touches
nothing else.  Applying it to its output, with the same IV, restores the input. -/
theorem ctrXOR_keystream (E : BlockFn) (iv dst src scratch : Span) (m : ByteMem)
    (hiv : iv.len = 16) (hdst : src.len ≤ dst.len) (hscratch : 32 ≤ scratch.len)
    (hsame : dst.off = src.off ∨ dst.off + src.len ≤ src.off ∨ src.off + src.len ≤ dst.off)
    (hsrcApart : src.Apart ⟨scratch.off, 32⟩)
    (hdstApart : (⟨dst.off, src.len⟩ : Span).Apart ⟨scratch.off, 32⟩) :
    ∃ m', (ctrXOR E iv dst src scratch).run m = some ((), m') ∧
      (∀ i < src.len, m' (dst.off + i) = m (src.off + i) ^^^
        (E.fn (toBE 16 ((unsigned (iv.bytes m) + i / 16) % 2 ^ 128))).getD (i % 16) 0) ∧
      m'.read scratch.off 32 = List.replicate 32 0 ∧
      ByteMem.OnlyIn [⟨dst.off, src.len⟩, ⟨scratch.off, 32⟩] m m' ∧
      ∀ iv' out : Span, iv'.len = 16 → iv'.bytes m' = iv.bytes m → src.len ≤ out.len →
        (out.off = dst.off ∨ out.off + src.len ≤ dst.off ∨ dst.off + src.len ≤ out.off) →
        (⟨out.off, src.len⟩ : Span).Apart ⟨scratch.off, 32⟩ →
        ∃ m'', (ctrXOR E iv' out ⟨dst.off, src.len⟩ scratch).run m' = some ((), m'') ∧
          m''.read out.off src.len = src.bytes m := by
  obtain ⟨_, m', hrun, hout, hzero, honly⟩ :=
    wp_ctrXOR (E := E) (m := m) iv dst src scratch hiv hdst hscratch hsame hsrcApart hdstApart
  refine ⟨m', hrun, fun i hi => ?_, hzero, honly, fun iv' out hiv' hbytes hlen hsame' hapart => ?_⟩
  · have hbyte := congrArg (·[i]?) hout
    simp only [ByteMem.getElem?_read hi, ctrText, length_read, ByteStrings.xor,
      List.getElem?_zipWith, Span.bytes, keystream, List.getElem?_map, List.getElem?_range hi,
          Option.map_some, Option.some.injEq,
      Nat.zero_add] at hbyte
    exact hbyte
  · obtain ⟨_, m'', hrun', hout', -, -⟩ :=
      wp_ctrXOR (E := E) (m := m') iv' out ⟨dst.off, src.len⟩ scratch hiv' hlen hscratch hsame'
        hdstApart hapart
    refine ⟨m'', hrun', ?_⟩
    have hagain : m''.read out.off src.len = ctrText E (iv.bytes m) (m'.read dst.off src.len) :=
      hbytes ▸ hout'
    rw [hagain, hout, ctrText_ctrText]

/-- Forty bytes encrypted in place under a counter that is about to wrap, by a block function that
changes nothing. -/
theorem ctrXOR_keystream_wraps :
    ∃ m', (ctrXOR ⟨id, fun _ h => h⟩ ⟨0, 16⟩ ⟨16, 40⟩ ⟨16, 40⟩ ⟨56, 32⟩).run
        (fun a => if a < 16 then 255 else UInt8.ofNat a) = some ((), m') ∧
      m' 16 = 16 ^^^ 255 ∧ m' 32 = 32 ∧ m' 55 = 55 ∧ m'.read 56 32 = List.replicate 32 0 := by
  obtain ⟨m', hrun, hout, hzero, -⟩ := ctrXOR_keystream ⟨id, fun _ h => h⟩ ⟨0, 16⟩ ⟨16, 40⟩
    ⟨16, 40⟩ ⟨56, 32⟩ (fun a => if a < 16 then 255 else UInt8.ofNat a) rfl le_rfl le_rfl (.inl rfl)
    (by decide) (by decide)
  have hiv : unsigned ((⟨0, 16⟩ : Span).bytes fun a => if a < 16 then 255 else UInt8.ofNat a) =
      2 ^ 128 - 1 := by decide
  simp only [hiv, id] at hout
  refine ⟨m', hrun, ?_, ?_, ?_, hzero⟩
  · rw [show 16 = 16 + 0 from rfl, hout 0 (by decide)]
    decide
  · rw [show 32 = 16 + 16 from rfl, hout 16 (by decide)]
    decide
  · rw [show 55 = 16 + 39 from rfl, hout 39 (by decide)]
    decide

end Counter

/-! ## Cipher block chaining -/

/-- A round of `cbcDecrypt`, for what is left of the input and of the output. -/
def cbcRound (D : BlockFn) (prev : Span) (x : Span × Span) : MemProg (Span × Span) := do
  let (src, dst) := x
  let first ← slice src 0 opensshAESBlock
  let out ← slice dst 0 opensshAESBlock
  cryptBlock D out first
  zipEach prev.len dst dst prev (· ^^^ ·)
  let first ← slice src 0 opensshAESBlock
  let _ ← copy prev first
  let src ← slice src opensshAESBlock src.len
  let dst ← slice dst opensshAESBlock dst.len
  pure (src, dst)

def cbcDecrypt (D : BlockFn) (iv dst src scratch : Span) : MemProg Unit :=
  if src.len % 16 ≠ 0 ∨ dst.len < src.len then fault
  else do
    let prev ← slice scratch 0 opensshAESBlock
    let _ ← copy prev iv
    let _ ← loop (fun x => decide (0 < x.1.len)) (cbcRound D prev) src.len (src, dst)
    let used ← slice scratch 0 cipherScratch
    wipe used

/-- Encryption with cipher block chaining, `n` blocks. -/
def cbcEncrypt (E : BlockFn) : (n : ℕ) → (iv p : Bytes) → Bytes
  | 0, _, _ => []
  | n + 1, iv, p =>
    let c := E.fn (xor (p.take 16) iv)
    c ++ cbcEncrypt E n c (p.drop 16)

/-- The message and its padding: as many bytes as fill the last block, at least one, each the number
of them. -/
def pkcs7Pad (msg : Bytes) : Bytes :=
  msg ++ List.replicate (16 - msg.length % 16) (UInt8.ofNat (16 - msg.length % 16))

/-- The plaintext of `n` blocks. -/
def cbcPlain (D : BlockFn) : (n : ℕ) → (prev c : Bytes) → Bytes
  | 0, _, _ => []
  | n + 1, prev, c => xor (D.fn (c.take 16)) prev ++ cbcPlain D n (c.take 16) (c.drop 16)

section Chaining

variable {E D : BlockFn} {m : ByteMem}

lemma length_cbcEncrypt {n : ℕ} {iv p : Bytes} (hiv : iv.length = 16) (hp : p.length = 16 * n) :
    (cbcEncrypt E n iv p).length = 16 * n := by
  induction n generalizing iv p with
  | zero => rfl
  | succ n ih =>
    have hblock : (E.fn (xor (p.take 16) iv)).length = 16 :=
      E.length_fn _ (by rw [length_xor, List.length_take]; omega)
    rw [cbcEncrypt, List.length_append, hblock, ih hblock (by rw [List.length_drop]; omega)]
    ring

lemma length_cbcPlain {n : ℕ} {prev c : Bytes} (hprev : prev.length = 16)
    (hc : c.length = 16 * n) : (cbcPlain D n prev c).length = 16 * n := by
  induction n generalizing prev c with
  | zero => rfl
  | succ n ih =>
    have hblock : (c.take 16).length = 16 := by
      rw [List.length_take]
      omega
    rw [cbcPlain, List.length_append, length_xor, D.length_fn _ hblock, hprev, min_self,
      ih hblock (by rw [List.length_drop]; omega)]
    ring

/-- Decryption inverts encryption. -/
lemma cbcPlain_cbcEncrypt (hinv : ∀ b : Bytes, b.length = 16 → D.fn (E.fn b) = b) {n : ℕ}
    {iv p : Bytes} (hiv : iv.length = 16) (hp : p.length = 16 * n) :
    cbcPlain D n iv (cbcEncrypt E n iv p) = p := by
  induction n generalizing iv p with
  | zero =>
    rw [List.length_eq_zero_iff.mp hp]
    rfl
  | succ n ih =>
    have hin : (xor (p.take 16) iv).length = 16 := by
      rw [length_xor, List.length_take]
      omega
    have hblock := E.length_fn _ hin
    rw [cbcEncrypt, cbcPlain, List.take_left' hblock, List.drop_left' hblock, hinv _ hin,
      xor_xor_cancel (by rw [List.length_take]; omega),
      ih hblock (by rw [List.length_drop]; omega), List.take_append_drop]

/-- What a round of decryption writes: a block of output, and the chaining block. -/
lemma wp_cbcRound {a : ℕ} {src dst : Span} (hsrc : 16 ≤ src.len) (hdst : 16 ≤ dst.len)
    (hsame : dst.off + 16 ≤ src.off ∨ src.off + 16 ≤ dst.off)
    (hsrcApart : src.off + 16 ≤ a ∨ a + 16 ≤ src.off)
    (hdstApart : dst.off + 16 ≤ a ∨ a + 16 ≤ dst.off) :
    wp (cbcRound D ⟨a, 16⟩ (src, dst)) m fun x m' =>
      x = (⟨src.off + 16, src.len - 16⟩, ⟨dst.off + 16, dst.len - 16⟩) ∧
      m'.read a 16 = m.read src.off 16 ∧
      m'.read dst.off 16 = xor (D.fn (m.read src.off 16)) (m.read a 16) ∧
      OnlyIn [⟨dst.off, 16⟩, ⟨a, 32⟩] m m' := by
  have hblock : (D.fn (m.read src.off 16)).length = 16 := D.length_fn _ (by simp)
  unfold cbcRound opensshAESBlock
  rw [wp_bind, wp_slice (by omega) hsrc, wp_bind, wp_slice (by omega) hdst, wp_bind,
    wp_cryptBlock le_rfl le_rfl]
  dsimp only [Nat.add_zero, Nat.sub_zero]
  rw [wp_bind, wp_zipEach hdst hdst le_rfl (.inl rfl) hdstApart]
  dsimp only
  rw [read_write_self _ _ hblock, read_write_apart m (by omega),
    write_write _ _ (by simp [hblock]), wp_bind, wp_slice (by omega) hsrc, wp_bind,
    wp_copy, wp_bind, wp_slice hsrc le_rfl, wp_bind, wp_slice hdst le_rfl, wp_pure]
  dsimp only [Span.bytes, Nat.add_zero, Nat.sub_zero]
  set out := List.zipWith (· ^^^ ·) (D.fn (m.read src.off 16)) (m.read a 16) with hout
  have hlen : out.length = 16 := by simp [hout, hblock]
  rw [read_write_apart m (by omega), take_read _ _ le_rfl]
  refine ⟨rfl, read_write_self _ _ (by simp), ?_, ?_⟩
  · rw [read_write_apart _ (by simp; omega), read_write_self _ _ hlen]
    rfl
  · refine ((OnlyIn.refl _ m).write (s := ⟨dst.off, 16⟩) (by simp) ?_ ?_).write
      (s := ⟨a, 32⟩) (by simp) ?_ ?_ <;> simp [hlen]

lemma wp_cbcDecrypt (iv dst src scratch : Span) {n : ℕ} (hiv : iv.len = 16)
    (hsrc : src.len = 16 * n) (hdst : src.len ≤ dst.len) (hscratch : 32 ≤ scratch.len)
    (hsame : (⟨dst.off, src.len⟩ : Span).Apart src) (hsrcApart : src.Apart ⟨scratch.off, 32⟩)
    (hdstApart : (⟨dst.off, src.len⟩ : Span).Apart ⟨scratch.off, 32⟩) :
    wp (cbcDecrypt D iv dst src scratch) m fun _ m' =>
      m'.read dst.off src.len = cbcPlain D n (iv.bytes m) (src.bytes m) ∧
      m'.read scratch.off 32 = List.replicate 32 0 ∧
      OnlyIn [⟨dst.off, src.len⟩, ⟨scratch.off, 32⟩] m m' := by
  unfold cbcDecrypt opensshAESBlock
  rw [if_neg (by omega), wp_bind, wp_slice (by omega) (by omega)]
  dsimp only [Nat.add_zero, Nat.sub_zero, Span.Apart] at hsame ⊢
  -- the scratch has the block before, and whole blocks are left
  refine wp_mode (R := fun prev input out => ∃ n, input.length = 16 * n ∧
      out = cbcPlain D n prev input) hdst (by omega) hsrcApart hdstApart
    (fun {x m' out} hx hpos hrest => ?_) hiv hscratch
    ⟨n, (Span.length_bytes _ _).trans hsrc, rfl⟩ (fun ⟨k, hk, hout⟩ => ?_)
  · obtain ⟨k, hk, rfl⟩ := hrest
    obtain ⟨hleft, hsrcOff, hdstOff, hdstLen⟩ := hx
    obtain ⟨xs, xd⟩ := x
    rw [Span.length_bytes] at hk
    dsimp only [Span.Apart] at *
    cases k with
    | zero => omega
    | succ k =>
    refine wp_mono (wp_cbcRound (by omega) (by omega) (by omega) (by omega) (by omega)) ?_
    rintro _ m'' ⟨rfl, hprev, hout, honly⟩
    refine ⟨16, _, ⟨by decide, ?_⟩, rfl, ?_, ⟨k, ?_, rfl⟩, honly⟩
    · dsimp only
      omega
    · rw [cbcPlain, Span.bytes, take_read m' _ (by omega), drop_read, hout, hprev]
    · rw [length_read]
      dsimp only
      omega
  · obtain rfl : k = 0 := by simpa using hk.symm
    exact hout

end Chaining

/-! ## Padding -/

/-- `subtle.ConstantTimeLessOrEq`, by its documentation. -/
def constantTimeLessOrEq (x y : ℕ) : ℕ := if x ≤ y then 1 else 0

/-- `subtle.ConstantTimeByteEq`, by its documentation. -/
def constantTimeByteEq (x y : UInt8) : ℕ := if x = y then 1 else 0

/-- `p[n-i]`, which panics unless `1 ≤ i ≤ n`. -/
def fromEnd (p : Bytes) (i : ℕ) : Option UInt8 :=
  if i ≤ p.length then p[p.length - i]? else none

/-- What an iteration of the check makes of `good`. -/
def padRound (p : Bytes) (padByte : UInt8) (good i : ℕ) : Option ℕ := do
  let claimed := constantTimeLessOrEq i padByte.toNat
  let b ← fromEnd p i
  return good &&& (constantTimeByteEq b padByte ||| (claimed ^^^ 1))

/-- `pkcs7Unpad`; `none` where it panics. -/
def pkcs7Unpad (p : Bytes) : Option (ℕ × Bool) := do
  let padByte ← fromEnd p 1
  let pad := padByte.toNat
  let start := constantTimeLessOrEq 1 pad &&& constantTimeLessOrEq pad opensshAESBlock
  let good ← (List.range' 1 opensshAESBlock).foldlM (padRound p padByte) start
  if good ≠ 1 then return (0, false)
  return (p.length - pad, true)

section Padding

variable {p : Bytes} {padByte : UInt8}

/-- A round keeps a bit: whether every claimed byte so far is the pad byte. -/
lemma padRound_ite {P : Prop} [Decidable P] {i : ℕ} (hi : 1 ≤ i) (hn : i ≤ p.length) :
    padRound p padByte (if P then 1 else 0) i =
      some (if P ∧ (i ≤ padByte.toNat → p[p.length - i]? = some padByte) then 1 else 0) := by
  obtain ⟨b, hb⟩ : ∃ b, p[p.length - i]? = some b :=
    ⟨_, List.getElem?_eq_getElem (by omega)⟩
  simp only [padRound, fromEnd, if_pos hn, hb, Option.bind_eq_bind, Option.bind_some,
    Option.pure_def, Option.some.injEq, constantTimeLessOrEq, constantTimeByteEq]
  by_cases hP : P <;> by_cases hbyte : b = padByte <;> by_cases hclaimed : i ≤ padByte.toNat <;>
    simp [hP, hbyte, hclaimed]

lemma foldlM_padRound (p : Bytes) (padByte : UInt8) (P : Prop) [Decidable P] {k : ℕ}
    (hk : k ≤ p.length) :
    (List.range' 1 k).foldlM (padRound p padByte) (if P then 1 else 0) =
      some (if P ∧ ∀ i < k, i + 1 ≤ padByte.toNat → p[p.length - (i + 1)]? = some padByte
        then 1 else 0) := by
  induction k with
  | zero => simp
  | succ k ih =>
    rw [List.range'_1_concat, List.foldlM_append, ih (by omega), Option.bind_eq_bind,
      Option.bind_some, List.foldlM_cons, Nat.add_comm 1 k, padRound_ite (by omega) hk]
    simp only [Nat.forall_lt_succ_right, and_assoc]
    rfl

/-- `p` ends in as many bytes as its last byte says, at least one and no more than a block, all
equal to it. -/
def Padded (p : Bytes) (padByte : UInt8) : Prop :=
  1 ≤ padByte.toNat ∧ padByte.toNat ≤ 16 ∧
    p.drop (p.length - padByte.toNat) = List.replicate padByte.toNat padByte

/-- What the rounds look at, as the end of the string. -/
lemma padded_iff (hlen : 16 ≤ p.length) :
    Padded p padByte ↔ (1 ≤ padByte.toNat ∧ padByte.toNat ≤ 16) ∧
      ∀ i < 16, i + 1 ≤ padByte.toNat → p[p.length - (i + 1)]? = some padByte := by
  rw [Padded, ← and_assoc]
  refine and_congr_right fun ⟨hpos, hpad⟩ => ?_
  generalize padByte.toNat = pad at *
  constructor
  · intro h i _ hi
    have hget : (p.drop (p.length - pad))[pad - (i + 1)]? =
        (List.replicate pad padByte)[pad - (i + 1)]? := by rw [h]
    rw [List.getElem?_drop, List.getElem?_replicate, if_pos (by omega)] at hget
    rwa [show p.length - pad + (pad - (i + 1)) = p.length - (i + 1) by omega] at hget
  · intro h
    refine List.eq_replicate_iff.mpr ⟨by rw [List.length_drop]; omega, fun b hb => ?_⟩
    obtain ⟨j, hj⟩ := List.mem_iff_getElem?.mp hb
    have hlt : j < pad := by
      have := (List.getElem?_eq_some_iff.mp hj).1
      rw [List.length_drop] at this
      omega
    have hget := h (pad - (j + 1)) (by omega) (by omega)
    rw [show p.length - (pad - (j + 1) + 1) = p.length - pad + j by omega, ← List.getElem?_drop, hj]
      at hget
    exact Option.some.inj hget

/-- What the check returns. -/
lemma pkcs7Unpad_eq (hlen : 16 ≤ p.length) (hlast : fromEnd p 1 = some padByte) :
    (Padded p padByte → pkcs7Unpad p = some (p.length - padByte.toNat, true)) ∧
      (¬Padded p padByte → pkcs7Unpad p = some (0, false)) := by
  have hstart : constantTimeLessOrEq 1 padByte.toNat &&&
      constantTimeLessOrEq padByte.toNat opensshAESBlock =
        if 1 ≤ padByte.toNat ∧ padByte.toNat ≤ 16 then 1 else 0 := by
    unfold constantTimeLessOrEq opensshAESBlock
    by_cases h : 1 ≤ padByte.toNat <;> by_cases h' : padByte.toNat ≤ 16 <;> simp [h, h']
  have hfold := foldlM_padRound p padByte (1 ≤ padByte.toNat ∧ padByte.toNat ≤ 16) hlen
  rw [padded_iff hlen]
  unfold pkcs7Unpad
  rw [hlast, Option.bind_eq_bind, Option.bind_some]
  dsimp only
  rw [hstart, show opensshAESBlock = 16 from rfl, hfold]
  constructor <;> intro h
  · rw [if_pos h]
    rfl
  · rw [if_neg h]
    rfl

lemma exists_fromEnd (hlen : 16 ≤ p.length) : ∃ b, fromEnd p 1 = some b := by
  rw [fromEnd, if_pos (by omega)]
  exact ⟨_, List.getElem?_eq_getElem (by omega)⟩

/-- A block is refused or shortened. -/
lemma pkcs7Unpad_cases (hlen : 16 ≤ p.length) :
    pkcs7Unpad p = some (0, false) ∨ ∃ n ≤ p.length, pkcs7Unpad p = some (n, true) := by
  obtain ⟨padByte, hlast⟩ := exists_fromEnd hlen
  obtain ⟨haccept, hreject⟩ := pkcs7Unpad_eq hlen hlast
  by_cases h : Padded p padByte
  · exact .inr ⟨_, Nat.sub_le _ _, haccept h⟩
  · exact .inl (hreject h)

lemma length_pkcs7Pad (msg : Bytes) :
    (pkcs7Pad msg).length = 16 * (msg.length / 16 + 1) := by
  rw [pkcs7Pad, List.length_append, List.length_replicate]
  omega

lemma toNat_ofNat_pad (n : ℕ) : (UInt8.ofNat (16 - n % 16)).toNat = 16 - n % 16 := by
  rw [UInt8.toNat_ofNat']
  omega

lemma fromEnd_pkcs7Pad (msg : Bytes) :
    fromEnd (pkcs7Pad msg) 1 = some (UInt8.ofNat (16 - msg.length % 16)) := by
  have hlen := length_pkcs7Pad msg
  rw [fromEnd, if_pos (by omega), hlen, pkcs7Pad, List.getElem?_append_right (by omega),
    List.getElem?_replicate, if_pos (by omega)]

/-- A padded message is accepted with its own pad byte. -/
lemma padded_pkcs7Pad (msg : Bytes) :
    Padded (pkcs7Pad msg) (UInt8.ofNat (16 - msg.length % 16)) := by
  have hlen := length_pkcs7Pad msg
  rw [Padded, toNat_ofNat_pad, hlen]
  refine ⟨by omega, by omega, ?_⟩
  rw [pkcs7Pad, List.drop_left' (by omega)]

/-- Whatever is accepted is a message and its padding. -/
lemma Padded.exists_msg (hpad : Padded p padByte) (hlen : 16 ≤ p.length) (hmul : 16 ∣ p.length) :
    p = pkcs7Pad (p.take (p.length - padByte.toNat)) := by
  obtain ⟨hpos, hle, hdrop⟩ := hpad
  have hk : 16 - (p.length - padByte.toNat) % 16 = padByte.toNat := by omega
  rw [pkcs7Pad, List.length_take, Nat.min_eq_left (by omega), hk, UInt8.ofNat_toNat, ← hdrop,
    List.take_append_drop]

lemma pkcs7Unpad_pkcs7Pad (msg : Bytes) : pkcs7Unpad (pkcs7Pad msg) = some (msg.length, true) := by
  have hlen := length_pkcs7Pad msg
  rw [(pkcs7Unpad_eq (by omega) (fromEnd_pkcs7Pad msg)).1 (padded_pkcs7Pad msg), toNat_ofNat_pad,
    hlen]
  congr 2
  omega

end Padding

/-- Decryption, with the inverse of a block function, of a padded message encrypted by chaining
returns, and the check of the padding then finds the message's length and the message in front of
it; nothing but the output and the scratch is written, and the scratch ends zero. Of any non-empty
string of whole blocks the check accepts exactly the padded messages, and reports the message's
length. -/
theorem cbcDecrypt_pkcs7Unpad (E D : BlockFn)
    (hinv : ∀ b : Bytes, b.length = 16 → D.fn (E.fn b) = b) :
    (∀ (m : ByteMem) (iv dst src scratch : Span) (msg : Bytes), iv.len = 16 →
      src.bytes m = cbcEncrypt E (msg.length / 16 + 1) (iv.bytes m) (pkcs7Pad msg) →
      src.len ≤ dst.len → cipherScratch ≤ scratch.len → (⟨dst.off, src.len⟩ : Span).Apart src →
      src.Apart ⟨scratch.off, cipherScratch⟩ →
      (⟨dst.off, src.len⟩ : Span).Apart ⟨scratch.off, cipherScratch⟩ →
      ∃ m', (cbcDecrypt D iv dst src scratch).run m = some ((), m') ∧
        pkcs7Unpad (m'.read dst.off src.len) = some (msg.length, true) ∧
        m'.read dst.off msg.length = msg ∧
        m'.read scratch.off cipherScratch = List.replicate cipherScratch 0 ∧
        ByteMem.OnlyIn [⟨dst.off, src.len⟩, ⟨scratch.off, cipherScratch⟩] m m') ∧
    ∀ p : Bytes, p ≠ [] → 16 ∣ p.length → ∃ n ok, pkcs7Unpad p = some (n, ok) ∧
      (ok = true ↔ ∃ msg, p = pkcs7Pad msg) ∧ ∀ msg, p = pkcs7Pad msg → n = msg.length := by
  refine ⟨?_, ?_⟩
  · intro m iv dst src scratch msg hiv hct hdst hscratch hsame hsrcApart hdstApart
    have hpadLen := length_pkcs7Pad msg
    have hivLen : (iv.bytes m).length = 16 := by rw [Span.length_bytes, hiv]
    have hsrc : src.len = 16 * (msg.length / 16 + 1) := by
      rw [← Span.length_bytes src m, hct, length_cbcEncrypt hivLen hpadLen]
    obtain ⟨⟨⟩, m', hrun, hout, hzero, honly⟩ :=
      wp_cbcDecrypt (D := D) (m := m) iv dst src scratch hiv hsrc hdst hscratch hsame hsrcApart
        hdstApart
    rw [hct, cbcPlain_cbcEncrypt hinv hivLen hpadLen] at hout
    refine ⟨m', hrun, ?_, ?_, hzero, honly⟩
    · rw [hout, pkcs7Unpad_pkcs7Pad]
    · rw [← ByteMem.take_read m' dst.off (show msg.length ≤ src.len by omega), hout, pkcs7Pad,
        List.take_left]
  · intro p hp hmul
    have hlen : 16 ≤ p.length := Nat.le_of_dvd (List.length_pos_iff.mpr hp) hmul
    obtain ⟨padByte, hlast⟩ := exists_fromEnd hlen
    have hmsg : ∀ msg, p = pkcs7Pad msg → pkcs7Unpad p = some (msg.length, true) := by
      rintro msg rfl
      exact pkcs7Unpad_pkcs7Pad msg
    by_cases hpad : Padded p padByte
    · have haccept := (pkcs7Unpad_eq hlen hlast).1 hpad
      refine ⟨_, _, haccept, iff_of_true rfl ⟨_, hpad.exists_msg hlen hmul⟩, fun msg h => ?_⟩
      have := haccept.symm.trans (hmsg msg h)
      simpa using this
    · have hreject := (pkcs7Unpad_eq hlen hlast).2 hpad
      have hnone : ∀ msg, p ≠ pkcs7Pad msg := by
        intro msg h
        have := hreject.symm.trans (hmsg msg h)
        simp at this
      exact ⟨_, _, hreject, iff_of_false Bool.false_ne_true fun ⟨msg, h⟩ => hnone msg h,
        fun msg h => absurd h (hnone msg)⟩

/-- A message of three bytes, with blocks reversed for encryption and for decryption, and a block of
sixteen pad bytes too many. -/
theorem cbcDecrypt_pkcs7Unpad_reverse :
    (∃ m', (cbcDecrypt ⟨List.reverse, by simp⟩ ⟨0, 16⟩ ⟨32, 16⟩ ⟨16, 16⟩ ⟨48, 32⟩).run
        (ByteMem.write (fun _ => 0) 16 (pkcs7Pad [1, 2, 3]).reverse) = some ((), m') ∧
      pkcs7Unpad (m'.read 32 16) = some (3, true) ∧ m'.read 32 3 = [1, 2, 3]) ∧
    ∃ n ok, pkcs7Unpad (List.replicate 32 17) = some (n, ok) ∧
      (ok = true ↔ ∃ msg, List.replicate 32 17 = pkcs7Pad msg) := by
  obtain ⟨hrun, hpad⟩ := cbcDecrypt_pkcs7Unpad ⟨List.reverse, by simp⟩ ⟨List.reverse, by simp⟩
    (fun b _ => List.reverse_reverse b)
  constructor
  · obtain ⟨m', hm', hunpad, hmsg, -⟩ :=
      hrun (ByteMem.write (fun _ => 0) 16 (pkcs7Pad [1, 2, 3]).reverse) ⟨0, 16⟩ ⟨32, 16⟩ ⟨16, 16⟩
        ⟨48, 32⟩ [1, 2, 3] rfl (by decide) le_rfl le_rfl (by decide) (by decide) (by decide)
    exact ⟨m', hm', hunpad, hmsg⟩
  · obtain ⟨n, ok, h, hok, -⟩ := hpad (List.replicate 32 17) (by decide) (by decide)
    exact ⟨n, ok, h, hok⟩

end Secmem.InPlace
