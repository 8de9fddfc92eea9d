import Secmem.Argon2.Blake2b
import Secmem.Framework.ByteMemory

/-!
# The variable-length hash `H'`

`blake2bHash` assembles its input in `hashIn`, chains digests in `hashState` and writes 32 bytes of
each to the output, until at most one digest is left to write.  The specification counts the digests
beforehand; the loop looks at the length that is left.  That both stop at the same place is the
arithmetic of `rounds_eq`, and `blake2bHash_exact` is the result.

BLAKE2b itself is a parameter: `Computes` says that the one-shot functions and `checkSum` compute it
at their digest sizes.
-/

namespace Secmem.Argon2

open LittleEndian MemProg ByteMem

/-! ## The code -/

/-- The one-shot functions of `x/crypto/blake2b`, which return arrays. -/
structure OneShots where
  sum512 : Bytes → Bytes
  sum384 : Bytes → Bytes
  sum256 : Bytes → Bytes
  length_sum512 : ∀ data, (sum512 data).length = 64
  length_sum384 : ∀ data, (sum384 data).length = 48
  length_sum256 : ∀ data, (sum256 data).length = 32

variable (O : OneShots) (B : ℕ → Bytes → Bytes)

/-- The array `sum` of `sumTo`, for a digest of `n` bytes. -/
def sumOf (n : ℕ) (data : Bytes) : Option Bytes :=
  if n = 64 then some (O.sum512 data)
  else if n = 48 then some (O.sum384 data ++ List.replicate 16 0)
  else if n = 32 then some (O.sum256 data ++ List.replicate 32 0)
  else if n < 1 ∨ 64 < n then none
  else checkSum (List.replicate 64 0) n data

def sumTo (out inp : Span) : MemProg Unit := do
  let data ← contents inp
  match sumOf O out.len data with
  | none => fault
  | some sum =>
    let _ ← put out (sum.take out.len)

/-- One pass of the loop of `blake2bHash`: what is left of `out`. -/
def chainRound (hashState out : Span) : MemProg Span := do
  let v ← contents hashState
  let _ ← put hashState (O.sum512 v)
  let half ← slice hashState 0 32
  let _ ← copy out half
  slice out 32 out.len

/-- The part of `blake2bHash` for outputs of more than one digest. -/
def longHash (hashState out msg : Span) : MemProg Unit := do
  let v ← contents msg
  let _ ← put hashState (O.sum512 v)
  wipe msg
  let half ← slice hashState 0 32
  let _ ← copy out half
  let out ← slice out 32 out.len
  let out ← loop (fun out => decide (64 < out.len)) (chainRound O hashState) out.len out
  sumTo O out hashState
  wipe hashState

def blake2bHash (hashIn hashState out inp : Span) : MemProg Unit := do
  if hashIn.len - 4 < inp.len then fault
  let pre ← slice hashIn 0 4
  let _ ← put pre (putWord32 (UInt32.ofNat out.len))
  let rest ← slice hashIn 4 hashIn.len
  let n ← copy rest inp
  let msg ← slice hashIn 0 (4 + n)
  if out.len ≤ 64 then
    sumTo O out msg
    wipe msg
  else
    longHash O hashState out msg

/-! ## The specification -/

/-- `V_i`, where `V_0` stands for the message. -/
def chained (B : ℕ → Bytes → Bytes) (msg : Bytes) : ℕ → Bytes
  | 0 => msg
  | i + 1 => B 64 (chained B msg i)

/-- 32 bytes of each of `V_1` to `V_r`. -/
def halves (msg : Bytes) (r : ℕ) : Bytes :=
  (List.range r).flatMap fun i => (chained B msg (i + 1)).take 32

/-- The variable-length hash of RFC 9106, for a digest `B n` of `n` bytes. -/
def hPrime (length : ℕ) (inp : Bytes) : Bytes :=
  let msg := toLE 4 length ++ inp
  if length ≤ 64 then B length msg
  else
    let r := (length + 31) / 32 - 2
    halves B msg r ++ B (length - 32 * r) (chained B msg r)

/-- The functions the code calls compute `B` at their digest sizes. -/
structure Computes (O : OneShots) (B : ℕ → Bytes → Bytes) : Prop where
  sum512 : ∀ data, O.sum512 data = B 64 data
  sum384 : ∀ data, O.sum384 data = B 48 data
  sum256 : ∀ data, O.sum256 data = B 32 data
  checkSum : ∀ n data, 1 ≤ n → n ≤ 64 →
    (checkSum (List.replicate 64 0) n data).map (·.take n) = some (B n data)

section

variable {O : OneShots} {B : ℕ → Bytes → Bytes} {m : ByteMem} {msg data : Bytes} {n i : ℕ}

lemma Computes.length (h : Computes O B) (hn : 1 ≤ n) (hn' : n ≤ 64) (data : Bytes) :
    (B n data).length = n := by
  obtain ⟨digest, hdigest, hlen⟩ := checkSum_returns
    (List.length_replicate (n := 64) (a := 0)) hn' data
  have := h.checkSum n data hn hn'
  rw [hdigest, Option.map_some, Option.some_inj] at this
  rw [← this, List.length_take_of_le (by omega)]

/-- Whatever function a digest size goes to, the array begins with the digest. -/
lemma Computes.sumOf (h : Computes O B) (hn : 1 ≤ n) (hn' : n ≤ 64) (data : Bytes) :
    ∃ sum, sumOf O n data = some sum ∧ sum.take n = B n data := by
  have hlen := h.length hn hn' data
  unfold Argon2.sumOf
  split
  · next hsize =>
    subst hsize
    exact ⟨_, rfl, by rw [h.sum512, List.take_of_length_le hlen.le]⟩
  split
  · next hsize =>
    subst hsize
    exact ⟨_, rfl, by rw [h.sum384, List.take_left' hlen]⟩
  split
  · next hsize =>
    subst hsize
    exact ⟨_, rfl, by rw [h.sum256, List.take_left' hlen]⟩
  rw [if_neg (by omega)]
  exact Option.map_eq_some_iff.mp (h.checkSum n data hn hn')

lemma wp_sumTo (h : Computes O B) {out inp : Span} (hn : 1 ≤ out.len) (hn' : out.len ≤ 64)
    (Q : Unit → ByteMem → Prop) :
    wp (sumTo O out inp) m Q ↔ Q () (m.write out.off (B out.len (inp.bytes m))) := by
  obtain ⟨sum, hsum, htake⟩ := h.sumOf hn hn' (inp.bytes m)
  rw [sumTo, wp_bind, wp_contents, hsum]
  simp only [wp_bind, wp_put, wp_pure, htake,
    List.take_of_length_le (h.length hn hn' (inp.bytes m)).le]

lemma length_chained (h : Computes O B) (msg : Bytes) (i : ℕ) :
    (chained B msg (i + 1)).length = 64 :=
  h.length (by norm_num) le_rfl _

lemma halves_succ (B : ℕ → Bytes → Bytes) (msg : Bytes) (r : ℕ) :
    halves B msg (r + 1) = halves B msg r ++ (chained B msg (r + 1)).take 32 := by
  simp [halves, List.range_succ]

/-- The loop stops where the specification does. -/
lemma rounds_eq (hlo : 32 * i + 32 < n) (hhi : n ≤ 32 * i + 64) : (n + 31) / 32 - 2 = i := by
  omega

lemma read_half (a : ℕ) {v : Bytes} (hv : v.length = 64) :
    (m.write a v).read a 32 = v.take 32 := by
  rw [← take_read _ _ (show 32 ≤ 64 by norm_num), read_write_self _ _ hv]

/-! ## The loop -/

/-- The `i` digests before this point are written, and the last of them is in `hashState`. -/
structure Chaining (B : ℕ → Bytes → Bytes) (hashState out : Span) (msg : Bytes) (m₀ : ByteMem)
    (i : ℕ) (left : Span) (m : ByteMem) : Prop where
  left_eq : left = ⟨out.off + 32 * i, out.len - 32 * i⟩
  lower : 32 * i + 32 < out.len
  written : m.read out.off (32 * i) = halves B msg i
  state : hashState.bytes m = chained B msg i
  only : ByteMem.OnlyIn [out, hashState] m₀ m

variable {hashState out left : Span} {m₀ : ByteMem}

/-- From a digest in `hashState` to the next one and its first half in the output. -/
lemma wp_chainRound (h : Computes O B) (hlen : hashState.len = 64) (hapart : out.Apart hashState)
    (hI : Chaining B hashState out msg m₀ i left m) (hmore : 64 < left.len) :
    wp (chainRound O hashState left) m fun left' m' =>
      Chaining B hashState out msg m₀ (i + 1) left' m' ∧ left'.len < left.len := by
  obtain ⟨rfl, hlower, hwritten, hstate, honly⟩ := hI
  dsimp only at hmore
  obtain ⟨v, hv⟩ : ∃ v, v = chained B msg (i + 1) := ⟨_, rfl⟩
  have hvlen : v.length = 64 := hv ▸ length_chained h msg i
  have hhalf : (v.take 32).length = 32 := List.length_take_of_le (by omega)
  have hsum : O.sum512 (chained B msg i) = v := by rw [h.sum512, hv, chained]
  have hread := read_half (m := m) hashState.off hvlen
  unfold chainRound
  rw [wp_bind, wp_contents, hstate, hsum, wp_bind, wp_put, List.take_of_length_le (by omega),
    wp_bind, wp_slice_eq hashState.off 32 rfl rfl (by omega), wp_bind, wp_copy,
    wp_slice_eq (out.off + 32 * (i + 1)) (out.len - 32 * (i + 1)) (by dsimp only; omega)
      (by dsimp only; omega) le_rfl]
  dsimp only [Span.bytes]
  rw [hread, List.take_of_length_le (by omega)]
  refine ⟨⟨rfl, by omega, ?_, ?_, ?_⟩, by omega⟩
  · rw [halves_succ, ← hv, ← hwritten, Nat.mul_succ, read_add,
      read_write_self _ _ hhalf, read_write_apart _ (.inl le_rfl),
      read_write_apart _ (by omega)]
  · rw [Span.bytes, read_write_apart _ (by omega), hlen,
      read_write_self _ _ hvlen, hv]
  · refine (honly.write (s := hashState) (by simp) le_rfl (by omega)).write (s := out) (by simp)
      (by omega) (by omega)

/-- Before the loop: the first digest is in `hashState`, its first half in the output, and the
message is wiped. -/
lemma chaining_start (h : Computes O B) {span : Span} (hlen : hashState.len = 64)
    (hlong : 64 < out.len) (hout : out.Apart hashState) (hspan : hashState.Apart span) {v : Bytes}
    (hv : v = B 64 msg) :
    Chaining B hashState out msg
      ((m.write hashState.off v).write span.off (List.replicate span.len 0)) 1
      ⟨out.off + 32, out.len - 32⟩
      (((m.write hashState.off v).write span.off (List.replicate span.len 0)).write out.off
        (v.take 32)) := by
  have hvlen : v.length = 64 := hv ▸ h.length (by norm_num) le_rfl _
  have hhalf : (v.take 32).length = 32 := List.length_take_of_le (by omega)
  refine ⟨rfl, by omega, ?_, ?_, ?_⟩
  · rw [halves_succ, chained, chained, ← hv, Nat.mul_one, read_write_self _ _ hhalf]
    rfl
  · have hwipe : OnlyIn [span] (m.write hashState.off v)
        ((m.write hashState.off v).write span.off (List.replicate span.len 0)) :=
      (OnlyIn.refl _ _).write List.mem_cons_self le_rfl (by simp)
    rw [Span.bytes, read_write_apart _ (by omega), hwipe.read_one hspan, hlen,
      read_write_self _ _ hvlen, hv]
    rfl
  · exact (OnlyIn.refl _ _).write List.mem_cons_self le_rfl (by omega)

/-- After the loop the last digest fills the output exactly. -/
lemma Chaining.last (h : Computes O B) (hlen : hashState.len = 64) (hout : out.Apart hashState)
    (hI : Chaining B hashState out msg m₀ i left m) (hstop : left.len ≤ 64) :
    let m' := (m.write left.off (B left.len (hashState.bytes m))).write hashState.off
      (List.replicate hashState.len 0)
    out.bytes m' = halves B msg ((out.len + 31) / 32 - 2) ++
        B (out.len - 32 * ((out.len + 31) / 32 - 2)) (chained B msg ((out.len + 31) / 32 - 2)) ∧
      hashState.bytes m' = List.replicate hashState.len 0 ∧
      OnlyIn [out, hashState] m₀ m' := by
  obtain ⟨rfl, hlower, hwritten, hstate, honly⟩ := hI
  dsimp only at hstop ⊢
  obtain ⟨k, hk⟩ : ∃ k, k = out.len - 32 * i := ⟨_, rfl⟩
  have houtLen : out.len = 32 * i + k := by omega
  have hlastLen : (B k (chained B msg i)).length = k := h.length (by omega) (by omega) _
  rw [rounds_eq hlower (by omega), hstate, ← hk]
  refine ⟨?_, read_write_self _ _ List.length_replicate, ?_⟩
  · rw [Span.bytes, read_write_apart _ (by rw [List.length_replicate]; omega), houtLen,
      read_add, read_write_apart _ (.inl le_rfl), hwritten,
      read_write_self _ _ hlastLen]
  · refine (honly.write (s := out) (by simp) (by omega) (by omega)).write (s := hashState) (by simp)
      le_rfl (by rw [List.length_replicate])

lemma wp_longHash (h : Computes O B) {span : Span} (hlen : hashState.len = 64)
    (hlong : 64 < out.len) (hout : out.Apart hashState) (hspan : hashState.Apart span)
    (hspanOut : span.Apart out) :
    wp (longHash O hashState out span) m fun _ m' =>
      out.bytes m' = halves B (span.bytes m) ((out.len + 31) / 32 - 2) ++
        B (out.len - 32 * ((out.len + 31) / 32 - 2))
          (chained B (span.bytes m) ((out.len + 31) / 32 - 2)) ∧
      span.bytes m' = List.replicate span.len 0 ∧
      hashState.bytes m' = List.replicate 64 0 ∧
      OnlyIn [out, span, hashState] m m' := by
  obtain ⟨v, hv⟩ : ∃ v, v = B 64 (span.bytes m) := ⟨_, rfl⟩
  have hvlen : v.length = 64 := hv ▸ h.length (by norm_num) le_rfl _
  have hstart := chaining_start (m := m) h hlen hlong hout hspan hv
  have hfirst : OnlyIn [out, span, hashState] m
      ((m.write hashState.off v).write span.off (List.replicate span.len 0)) :=
    ((OnlyIn.refl _ _).write (s := hashState) (by simp) le_rfl (by omega)).write (s := span)
      (by simp) le_rfl (by simp)
  have hwiped : span.bytes ((m.write hashState.off v).write span.off (List.replicate span.len 0)) =
      List.replicate span.len 0 := read_write_self _ _ List.length_replicate
  have hhalf : (⟨hashState.off, 32⟩ : Span).bytes
      ((m.write hashState.off v).write span.off (List.replicate span.len 0)) = v.take 32 := by
    have hwipe : OnlyIn [span] (m.write hashState.off v)
        ((m.write hashState.off v).write span.off (List.replicate span.len 0)) :=
      (OnlyIn.refl _ _).write List.mem_cons_self le_rfl (by simp)
    rw [Span.bytes, hwipe.read_one (by dsimp only; omega)]
    exact read_half hashState.off hvlen
  generalize hm₁ : (m.write hashState.off v).write span.off (List.replicate span.len 0) = m₁
    at hstart hfirst hwiped hhalf
  unfold longHash
  rw [wp_bind, wp_contents, h.sum512, ← hv, wp_bind, wp_put, List.take_of_length_le (by omega),
    wp_bind, wp_wipe, hm₁, wp_bind, wp_slice_eq hashState.off 32 rfl rfl (by omega), wp_bind,
    wp_copy, hhalf, List.take_of_length_le (by rw [List.length_take]; omega), wp_bind,
    wp_slice_eq (out.off + 32) (out.len - 32) rfl (by omega) le_rfl, wp_bind]
  refine wp_loop (fun left m' => ∃ i, Chaining B hashState out (span.bytes m) m₁ i left m')
    (fun left => left.len) ⟨1, hstart⟩ le_rfl (fun left hc => ?_) (fun left m' hI hc => ?_)
    fun left m' hI hc => ?_
  · have := of_decide_eq_true hc
    omega
  · obtain ⟨i, hI⟩ := hI
    refine wp_mono (wp_chainRound h hlen hout hI (of_decide_eq_true hc)) ?_
    exact fun left' m'' hnext => ⟨⟨i + 1, hnext.1⟩, hnext.2⟩
  · obtain ⟨i, hI⟩ := hI
    have hstop := of_decide_eq_false hc
    have hlower := hI.lower
    have hleft : left.len = out.len - 32 * i := by rw [hI.left_eq]
    obtain ⟨hbytes, hstate, honly⟩ := hI.last h hlen hout (by omega)
    rw [wp_bind, wp_sumTo h (by omega) (by omega), wp_wipe]
    refine ⟨hbytes, ?_, by rw [hstate, hlen], hfirst.trans (honly.subset (by simp))⟩
    rw [← hwiped]
    exact honly.read_two hspanOut hspan.symm

/-- The length prefix and the input, as `hashIn` holds them when they are hashed. -/
lemma read_assembled (hashIn inp : Span) (n : ℕ) :
    ((m.write hashIn.off (toLE 4 n)).write (hashIn.off + 4) (inp.bytes m)).read hashIn.off
      (4 + inp.len) = toLE 4 n ++ inp.bytes m := by
  rw [read_add, read_write_self _ _ (Span.length_bytes inp m),
    read_write_apart _ (.inl le_rfl), read_write_self _ _ (length_toLE 4 n)]

/-- `blake2bHash` writes the variable-length hash of its input and nothing else but the buffers it
uses, and these it leaves zero. -/
theorem blake2bHash_exact (h : Computes O B) {hashIn hashState out inp : Span}
    (hIn : hashIn.len = 1028) (hState : hashState.len = 64) (hpos : 1 ≤ out.len)
    (hinp : inp.len ≤ 1024) (hinpApart : inp.Apart hashIn) (houtIn : out.Apart hashIn)
    (houtState : out.Apart hashState) (hbuffers : hashState.Apart hashIn) (m : ByteMem) :
    wp (blake2bHash O hashIn hashState out inp) m fun _ m' =>
      out.bytes m' = hPrime B out.len (inp.bytes m) ∧
      m'.read hashIn.off (4 + inp.len) = List.replicate (4 + inp.len) 0 ∧
      (64 < out.len → hashState.bytes m' = List.replicate 64 0) ∧
      ByteMem.OnlyIn (out :: ⟨hashIn.off, 4 + inp.len⟩ :: if 64 < out.len then [hashState] else [])
        m m' := by
  obtain ⟨span, hspan⟩ : ∃ s : Span, s = ⟨hashIn.off, 4 + inp.len⟩ := ⟨_, rfl⟩
  have hoff : span.off = hashIn.off := by rw [hspan]
  have hlen : span.len = 4 + inp.len := by rw [hspan]
  have hinpBytes := inp.length_bytes m
  have hsame : inp.bytes (m.write hashIn.off (toLE 4 out.len)) = inp.bytes m := by
    have honly : ByteMem.OnlyIn [hashIn] m (m.write hashIn.off (toLE 4 out.len)) :=
      (ByteMem.OnlyIn.refl _ m).write List.mem_cons_self le_rfl (by rw [length_toLE]; omega)
    exact honly.read_one hinpApart
  have hmsg : span.bytes ((m.write hashIn.off (toLE 4 out.len)).write (hashIn.off + 4)
      (inp.bytes m)) = toLE 4 out.len ++ inp.bytes m := by
    rw [Span.bytes, hoff, hlen]
    exact read_assembled hashIn inp out.len
  have hfirst : ByteMem.OnlyIn [span] m ((m.write hashIn.off (toLE 4 out.len)).write
      (hashIn.off + 4) (inp.bytes m)) :=
    ((ByteMem.OnlyIn.refl _ m).write List.mem_cons_self (by omega)
      (by rw [length_toLE]; omega)).write List.mem_cons_self (by omega) (by omega)
  have hmin : min (hashIn.len - 4) inp.len = inp.len := by omega
  unfold blake2bHash
  rw [if_neg (by omega), wp_bind, wp_slice_eq hashIn.off 4 rfl rfl (by omega),
    wp_bind, wp_put, putWord32_ofNat, List.take_of_length_le (length_toLE 4 _).le, wp_bind,
    wp_slice_eq (hashIn.off + 4) (hashIn.len - 4) rfl (by omega) le_rfl, wp_bind, wp_copy, hsame,
    List.take_of_length_le (by dsimp only; omega), hmin, wp_bind,
    wp_slice_eq hashIn.off (4 + inp.len) rfl (Nat.zero_add _) (by omega), ← hspan]
  generalize (m.write hashIn.off (toLE 4 out.len)).write (hashIn.off + 4) (inp.bytes m) = m₁
    at hmsg hfirst ⊢
  rw [← hoff, ← hlen, hPrime]
  dsimp only
  split
  · next hshort =>
    have hbytesLen := h.length hpos hshort (toLE 4 out.len ++ inp.bytes m)
    rw [wp_bind, wp_sumTo h hpos hshort, wp_wipe, hmsg, if_neg (by omega)]
    refine ⟨?_, ByteMem.read_write_self _ _ List.length_replicate, fun hlong => by omega, ?_⟩
    · rw [Span.bytes, ByteMem.read_write_apart _ (by rw [List.length_replicate]; omega),
        ByteMem.read_write_self _ _ hbytesLen]
    · exact (((hfirst.subset (by simp)).write (s := out) (by simp) le_rfl (by omega)).write
        (s := span) (by simp) le_rfl (by simp))
  · next hlong =>
    refine wp_mono (wp_longHash h hState (by omega) houtState (by omega) (by omega)) ?_
    rintro _ m' ⟨hbytes, hzero, hstate, honly⟩
    rw [hmsg] at hbytes
    rw [if_pos (by omega)]
    exact ⟨hbytes, hzero, fun _ => hstate, (hfirst.subset (by simp)).trans honly⟩

end

/-- The digest of `n` bytes that `checkSum` computes. -/
def portableDigest (n : ℕ) (data : Bytes) : Bytes :=
  ((checkSum (List.replicate 64 0) n data).getD []).take n

lemma length_portableDigest {n : ℕ} (hn : n ≤ 64) (data : Bytes) :
    (portableDigest n data).length = n := by
  obtain ⟨digest, hdigest, hlen⟩ :=
    checkSum_returns (List.length_replicate (n := 64) (a := 0)) hn data
  rw [portableDigest, hdigest, Option.getD_some, List.length_take_of_le (by omega)]

/-- The one-shot functions, by the portable code. -/
def portable : OneShots where
  sum512 := portableDigest 64
  sum384 := portableDigest 48
  sum256 := portableDigest 32
  length_sum512 := length_portableDigest le_rfl
  length_sum384 := length_portableDigest (by norm_num)
  length_sum256 := length_portableDigest (by norm_num)

lemma portable_computes : Computes portable portableDigest where
  sum512 _ := rfl
  sum384 _ := rfl
  sum256 _ := rfl
  checkSum n data _ hn := by
    obtain ⟨digest, hdigest, -⟩ :=
      checkSum_returns (List.length_replicate (n := 64) (a := 0)) hn data
    rw [portableDigest, hdigest, Option.map_some, Option.getD_some]

/-- A tag of 129 bytes, which takes three chained digests and 33 bytes of a fourth. -/
theorem blake2bHash_exact_tag :
    wp (blake2bHash portable ⟨0, 1028⟩ ⟨1028, 64⟩ ⟨2000, 129⟩ ⟨3000, 1024⟩) (fun _ => 7)
      fun _ m' =>
        (⟨2000, 129⟩ : Span).bytes m' =
          hPrime portableDigest 129 ((⟨3000, 1024⟩ : Span).bytes fun _ => 7) ∧
        m'.read 0 (4 + 1024) = List.replicate (4 + 1024) 0 ∧
        (64 < 129 → (⟨1028, 64⟩ : Span).bytes m' = List.replicate 64 0) ∧
        ByteMem.OnlyIn (⟨2000, 129⟩ :: ⟨0, 4 + 1024⟩ :: if 64 < 129 then [⟨1028, 64⟩] else [])
          (fun _ => 7) m' :=
  blake2bHash_exact portable_computes rfl rfl (by decide) le_rfl (by decide) (by decide) (by decide)
    (by decide) fun _ => 7

end Secmem.Argon2
