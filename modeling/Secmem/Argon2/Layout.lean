import Secmem.Argon2.Blake2b
import Secmem.Crypto.Errors
import Secmem.Framework.ByteMemory
import Secmem.Framework.MachineInt

/-!
# The workspace of a derivation

`validateArgon2` and `NewArgon2Workspace` bound the memory that a caller asks for; `WorkspaceSize`
and `Bind` work with the adjusted memory and add the scratch space of the lanes and a fixed part, in
Go's `int` of either width.  The slack of 1 MiB in the bound covers what is added, for every number
of threads (`workspaceBytes_lt`), so the size is exact and `Bind` cuts the region into consecutive
views without remainder (`bind_tiles`).
-/

namespace Secmem.Argon2

open Crypto MachineInt

/-! ## Admission -/

/-- `math.MaxInt`, for an `int` of `w` bits. -/
def maxInt (w : ℕ) : ℕ := 2 ^ (w - 1) - 1

/-- What `validateArgon2` asks of the output buffer. -/
structure OutputBuffer where
  destroyed : Bool
  len : ℕ

structure Params where
  mode : UInt8
  time : UInt32
  memory : UInt32
  threads : UInt8
  secret : Bytes
  data : Bytes

def modeOf (mode : UInt8) : Option Mode :=
  if mode = 0 then some .modeID else if mode = 1 then some .modeI
  else if mode = 2 then some .modeD else none

/-- The first input that is too long. -/
def tooLong (password salt : Bytes) (p : Params) : Option (String × Bytes) :=
  [("password", password), ("salt", salt), ("secret", p.secret), ("data", p.data)].find? fun x =>
    decide (2 ^ 32 - 1 < x.2.length)

/-- Whether the memory exceeds the address space. -/
def exceedsAddressSpace (w : ℕ) (memory : UInt32) : Prop :=
  maxInt w - 2 ^ 20 < memory.toNat * 1024

instance (w : ℕ) (memory : UInt32) : Decidable (exceedsAddressSpace w memory) :=
  inferInstanceAs (Decidable (_ < _))

def validateArgon2 (w : ℕ) (password salt : Bytes) (p : Params) (out : Option OutputBuffer) :
    Except Err Mode :=
  match out with
  | none => .error (.new "secmemcrypto: nil output buffer")
  | some out =>
    if out.destroyed = true then
      .error (.after "secmemcrypto: argon2 derive: " (.of (.core .errDestroyed)))
    else if p.time < 1 then
      .error (.new ("secmemcrypto: argon2 derive: time (passes) must be >= 1, got " ++
        toString p.time.toNat))
    else if p.threads < 1 then
      .error (.new ("secmemcrypto: argon2 derive: threads (parallelism) must be >= 1, got " ++
        toString p.threads.toNat))
    else match modeOf p.mode with
      | none =>
        .error (.new ("secmemcrypto: argon2 derive: unknown mode " ++ toString p.mode.toNat))
      | some mode =>
        if out.len = 0 then .error (.new "secmemcrypto: empty output buffer")
        else if 2 ^ 32 - 1 < out.len then
          .error (.new ("secmemcrypto: output too large: " ++ toString out.len))
        else match tooLong password salt p with
          | some (name, b) =>
            .error (.new ("secmemcrypto: argon2 derive: " ++ name ++ " too long: " ++
              toString b.length ++ " bytes"))
          | none =>
            if exceedsAddressSpace w p.memory then
              .error (.new ("secmemcrypto: argon2 derive: memory " ++ toString p.memory.toNat ++
                " KiB exceeds the address space"))
            else .ok mode

/-! ## Sizes -/

def adjustMemory (memory : UInt32) (threads : UInt8) : UInt32 :=
  let p := threads.toUInt32
  let memory := memory / (4 * p) * (4 * p)
  if memory < 2 * 4 * p then 2 * 4 * p else memory

/-- `unsafe.Sizeof(laneScratch{})`: three blocks. -/
def laneScratchSize : ℕ := 3 * 1024

def h0ChainSize : ℕ := 8 * 8

def h0Length : ℕ := 64 + 8

def fixedScratch : ℕ := h0ChainSize + h0Length + 1024 + (4 + 1024) + 64 + 128

/-- `WorkspaceSize`, in an `int` of `w` bits. -/
def workspaceSize (w : ℕ) (memory : UInt32) (threads : UInt8) : BitVec w :=
  .ofNat w (adjustMemory memory threads).toNat * .ofNat w 1024 +
    .ofNat w threads.toNat * .ofNat w laneScratchSize + .ofNat w fixedScratch

/-- What `NewArgon2Workspace` keeps; the size is the length of its buffer. -/
structure Workspace (w : ℕ) where
  size : BitVec w
  memory : UInt32
  threads : UInt8

/-- `NewArgon2Workspace`; `newEmptyBuffer` says why a buffer of that size cannot be had. -/
def newArgon2Workspace {w : ℕ} (newEmptyBuffer : BitVec w → Option Err) (memory : UInt32)
    (threads : UInt8) : Except Err (Workspace w) :=
  if threads < 1 then
    .error (.new ("secmemcrypto: argon2 workspace: threads (parallelism) must be >= 1, got " ++
      toString threads.toNat))
  else if exceedsAddressSpace w memory then
    .error (.new ("secmemcrypto: argon2 workspace: memory " ++ toString memory.toNat ++
      " KiB exceeds the address space"))
  else match newEmptyBuffer (workspaceSize w memory threads) with
    | some e => .error (.after "secmemcrypto: argon2 workspace: " e)
    | none => .ok ⟨workspaceSize w memory threads, memory, threads⟩

/-- The memory and the threads that one of the two admits. -/
def Admitted (w : ℕ) (memory : UInt32) (threads : UInt8) : Prop :=
  (∃ password salt p out mode, p.memory = memory ∧ p.threads = threads ∧
    validateArgon2 w password salt p out = .ok mode) ∨
  ∃ (newEmptyBuffer : BitVec w → Option Err) (ws : Workspace w),
    newArgon2Workspace newEmptyBuffer memory threads = .ok ws

/-! ## Views -/

structure Views where
  mem : Span
  b : Span
  lanes : Span
  h0Chain : Span
  h0 : Span
  block0 : Span
  hashIn : Span
  hashState : Span
  h0Block : Span
  deriving DecidableEq, Repr

/-- The views into `mem`, in their order. -/
def Views.spans (v : Views) : List Span :=
  [v.b, v.lanes, v.h0Chain, v.h0, v.block0, v.hashIn, v.hashState, v.h0Block]

section Bind

variable {w : ℕ}

/-- A view of `n` bytes through `&mem[off]`. -/
def viewAt (mem : Span) (off : BitVec w) (n : ℕ) : Option Span :=
  if 0 ≤ off.toInt ∧ off.toInt < mem.len then some ⟨mem.off + off.toInt.toNat, n⟩ else none

/-- `mem[off : off+n]`. -/
def viewSlice (mem : Span) (off : BitVec w) (n : ℕ) : Option Span :=
  let stop := off + .ofNat w n
  if 0 ≤ off.toInt ∧ off.toInt ≤ stop.toInt ∧ stop.toInt ≤ mem.len then
    some ⟨mem.off + off.toInt.toNat, (stop.toInt - off.toInt).toNat⟩
  else none

end Bind

/-- The views that `Bind` takes, one after the other. -/
def bindViews (w : ℕ) (mem : Span) (memory : UInt32) (threads : UInt8) : Option Views := do
  let adjusted := adjustMemory memory threads
  let whole ← viewSlice mem (0 : BitVec w) (workspaceSize w memory threads).toInt.toNat
  let off : BitVec w := 0
  let b ← viewAt mem off (adjusted.toNat * 1024)
  let off := off + .ofNat w adjusted.toNat * .ofNat w 1024
  let lanes ← viewAt mem off (threads.toNat * laneScratchSize)
  let off := off + .ofNat w threads.toNat * .ofNat w laneScratchSize
  let h0Chain ← viewAt mem off h0ChainSize
  let off := off + .ofNat w h0ChainSize
  let h0 ← viewSlice mem off h0Length
  let off := off + .ofNat w h0Length
  let block0 ← viewSlice mem off 1024
  let off := off + .ofNat w 1024
  let hashIn ← viewSlice mem off (4 + 1024)
  let off := off + .ofNat w (4 + 1024)
  let hashState ← viewSlice mem off 64
  let off := off + .ofNat w 64
  let h0Block ← viewSlice mem off 128
  pure ⟨whole, b, lanes, h0Chain, h0, block0, hashIn, hashState, h0Block⟩

/-- `Bind`, of a region at an address. -/
def bind (w : ℕ) (mem : Span) (memory : UInt32) (threads : UInt8) : Option Views :=
  if threads < 1 then none
  else if (mem.len : ℤ) < (workspaceSize w memory threads).toInt then none
  else match viewAt mem (0 : BitVec w) 1 with
    | none => none
    | some first => if first.off % 8 ≠ 0 then none else bindViews w mem memory threads

/-! ## The arithmetic -/

section Arithmetic

variable {w : ℕ} {memory : UInt32} {threads : UInt8}

/-- Nothing in `adjustMemory` wraps. -/
lemma toNat_adjustMemory (memory : UInt32) (threads : UInt8) :
    (adjustMemory memory threads).toNat =
      max (memory.toNat / (4 * threads.toNat) * (4 * threads.toNat)) (8 * threads.toNat) := by
  have ht := threads.toNat_lt
  have hm := memory.toNat_lt
  have hfour : (4 * threads.toUInt32).toNat = 4 * threads.toNat := by
    rw [UInt32.toNat_mul, UInt8.toNat_toUInt32, show (4 : UInt32).toNat = 4 from rfl]
    exact Nat.mod_eq_of_lt (by omega)
  have height : (2 * 4 * threads.toUInt32).toNat = 8 * threads.toNat := by
    rw [UInt32.toNat_mul, UInt8.toNat_toUInt32, show (2 * 4 : UInt32).toNat = 8 from rfl]
    exact Nat.mod_eq_of_lt (by omega)
  have hround : (memory / (4 * threads.toUInt32) * (4 * threads.toUInt32)).toNat =
      memory.toNat / (4 * threads.toNat) * (4 * threads.toNat) := by
    rw [UInt32.toNat_mul, UInt32.toNat_div, hfour]
    exact Nat.mod_eq_of_lt ((Nat.div_mul_le_self _ _).trans_lt hm)
  rw [adjustMemory]
  split
  · next hlt =>
    rw [UInt32.lt_iff_toNat_lt, hround, height] at hlt
    rw [height, Nat.max_eq_right hlt.le]
  · next hlt =>
    rw [UInt32.lt_iff_toNat_lt, hround, height] at hlt
    rw [hround, Nat.max_eq_left (Nat.not_lt.mp hlt)]

/-- The bytes that the workspace needs. -/
def workspaceBytes (memory : UInt32) (threads : UInt8) : ℕ :=
  (adjustMemory memory threads).toNat * 1024 + threads.toNat * laneScratchSize + fixedScratch

lemma workspaceSize_eq (w : ℕ) (memory : UInt32) (threads : UInt8) :
    workspaceSize w memory threads = .ofNat w (workspaceBytes memory threads) := by
  simp only [workspaceSize, workspaceBytes, BitVec.ofNat_add, BitVec.ofNat_mul]

/-- What is admitted has at least one thread and leaves 1 MiB of the address space. -/
lemma Admitted.bounds (h : Admitted w memory threads) :
    1 ≤ threads.toNat ∧ memory.toNat * 1024 ≤ maxInt w - 2 ^ 20 := by
  have hthreads : ∀ {t : UInt8}, ¬t < 1 → 1 ≤ t.toNat := by
    intro t ht
    rw [UInt8.lt_iff_toNat_lt] at ht
    exact Nat.not_lt.mp ht
  have hspace : ∀ {m : UInt32}, ¬exceedsAddressSpace w m → m.toNat * 1024 ≤ maxInt w - 2 ^ 20 := by
    intro m hm
    unfold exceedsAddressSpace at hm
    omega
  rcases h with ⟨password, salt, p, out, mode, rfl, rfl, h⟩ | ⟨newEmptyBuffer, ws, h⟩
  · cases out with
    | none => cases h
    | some out =>
      rw [validateArgon2] at h
      split at h
      · cases h
      split at h
      · cases h
      split at h
      · cases h
      next ht =>
      split at h
      · cases h
      split at h
      · cases h
      split at h
      · cases h
      split at h
      · cases h
      split at h
      · cases h
      · next hm => exact ⟨hthreads ht, hspace hm⟩
  · rw [newArgon2Workspace] at h
    split at h
    · cases h
    next ht =>
    split at h
    · cases h
    · next hm => exact ⟨hthreads ht, hspace hm⟩

lemma fixedScratch_eq : fixedScratch = 2380 := rfl

lemma laneScratchSize_eq : laneScratchSize = 3072 := rfl

/-- The slack covers the lanes, the fixed part and the least amount of memory. -/
lemma workspaceBytes_lt (hw : w = 32 ∨ w = 64) (h : Admitted w memory threads) :
    workspaceBytes memory threads < 2 ^ (w - 1) := by
  obtain ⟨-, hmemory⟩ := h.bounds
  have ht := threads.toNat_lt
  have hround : memory.toNat / (4 * threads.toNat) * (4 * threads.toNat) ≤ memory.toNat :=
    Nat.div_mul_le_self _ _
  rw [workspaceBytes, toNat_adjustMemory, fixedScratch_eq, laneScratchSize_eq]
  rcases hw with rfl | rfl
  · have : maxInt 32 = 2 ^ 31 - 1 := rfl
    omega
  · have : maxInt 64 = 2 ^ 63 - 1 := rfl
    omega

/-- A word that was computed from numbers whose exact result fits. -/
lemma toInt_ofNat_of_lt (hw : 0 < w) {n : ℕ} (h : n < 2 ^ (w - 1)) :
    (BitVec.ofNat w n).toInt = n :=
  toInt_ofNat_of_fits hw (fits_of_nonneg (Int.natCast_nonneg n) (by exact_mod_cast h))

variable {mem : Span} {off n : ℕ}

lemma viewAt_eq (hw : 0 < w) (hfit : mem.len < 2 ^ (w - 1)) (h : off < mem.len) :
    viewAt mem (BitVec.ofNat w off) n = some ⟨mem.off + off, n⟩ := by
  have hoff := toInt_ofNat_of_lt hw (h.trans hfit)
  rw [viewAt, hoff, if_pos (by omega), Int.toNat_natCast]

lemma viewSlice_eq (hw : 0 < w) (hfit : mem.len < 2 ^ (w - 1)) (h : off + n ≤ mem.len) :
    viewSlice mem (BitVec.ofNat w off) n = some ⟨mem.off + off, n⟩ := by
  have hoff : (BitVec.ofNat w off).toInt = off := toInt_ofNat_of_lt hw (by omega)
  have hstop : (BitVec.ofNat w off + BitVec.ofNat w n).toInt = (off + n : ℕ) := by
    rw [← BitVec.ofNat_add]
    exact toInt_ofNat_of_lt hw (by omega)
  rw [viewSlice, hoff, hstop, if_pos (by omega), Int.toNat_natCast]
  congr 2
  omega

/-- The sizes of the views, in their order. -/
def viewSizes (memory : UInt32) (threads : UInt8) : List ℕ :=
  [(adjustMemory memory threads).toNat * 1024, threads.toNat * laneScratchSize, h0ChainSize,
    h0Length, 1024, 4 + 1024, 64, 128]

lemma sum_viewSizes (memory : UInt32) (threads : UInt8) :
    (viewSizes memory threads).sum = workspaceBytes memory threads := by
  rw [viewSizes, workspaceBytes, fixedScratch_eq, h0ChainSize, h0Length]
  simp only [List.sum_cons, List.sum_nil]
  omega

/-- `Bind` cuts a region of the right size into consecutive views. -/
lemma bind_tiles (hw : 0 < w) {base : ℕ} (halign : base % 8 = 0) (hthreads : 1 ≤ threads.toNat)
    (hfit : workspaceBytes memory threads < 2 ^ (w - 1)) :
    ∃ v, bind w ⟨base, workspaceBytes memory threads⟩ memory threads = some v ∧
      v.mem = ⟨base, workspaceBytes memory threads⟩ ∧
      v.spans = Span.tiles base (viewSizes memory threads) := by
  obtain ⟨A, hA⟩ : ∃ A, A = (adjustMemory memory threads).toNat * 1024 := ⟨_, rfl⟩
  obtain ⟨L, hL⟩ : ∃ L, L = threads.toNat * laneScratchSize := ⟨_, rfl⟩
  have hsize : workspaceBytes memory threads = A + L + 2380 := by
    rw [hA, hL]
    rfl
  have hthreads' : ¬threads < 1 := by
    rw [UInt8.lt_iff_toNat_lt]
    exact Nat.not_lt.mpr hthreads
  have hneed := toInt_ofNat_of_lt hw hfit
  have hzero : (0 : BitVec w) = BitVec.ofNat w 0 := rfl
  have hAw : BitVec.ofNat w (adjustMemory memory threads).toNat * BitVec.ofNat w 1024 =
      BitVec.ofNat w A := by rw [hA, BitVec.ofNat_mul]
  have hLw : BitVec.ofNat w threads.toNat * BitVec.ofNat w laneScratchSize = BitVec.ofNat w L := by
    rw [hL, BitVec.ofNat_mul]
  generalize hmem : (⟨base, workspaceBytes memory threads⟩ : Span) = mem
  have hlen : mem.len = A + L + 2380 := by rw [← hmem, ← hsize]
  have hoff : mem.off = base := by rw [← hmem]
  have hfit' : mem.len < 2 ^ (w - 1) := by
    rw [← hmem]
    exact hfit
  refine ⟨⟨mem, ⟨base, A⟩, ⟨base + A, L⟩, ⟨base + (A + L), 64⟩, ⟨base + (A + L + 64), 72⟩,
    ⟨base + (A + L + 136), 1024⟩, ⟨base + (A + L + 1160), 1028⟩, ⟨base + (A + L + 2188), 64⟩,
    ⟨base + (A + L + 2252), 128⟩⟩, ?_, rfl, ?_⟩
  · have hwhole : mem = ⟨mem.off + 0, workspaceBytes memory threads⟩ := by
      rw [← hmem]
      rfl
    rw [bind, if_neg hthreads', workspaceSize_eq, hneed, if_neg (by omega), hzero,
      viewAt_eq hw hfit' (by omega)]
    dsimp only
    rw [if_neg (by omega), bindViews]
    simp only [workspaceSize_eq, hneed, hzero, hAw, hLw, ← BitVec.ofNat_add, Nat.zero_add,
      Int.toNat_natCast, ← hA, ← hL, Option.bind_eq_bind, h0ChainSize, h0Length]
    rw [viewSlice_eq hw hfit' (by omega), Option.bind_some, viewAt_eq hw hfit' (by omega),
      Option.bind_some, viewAt_eq hw hfit' (by omega), Option.bind_some,
      viewAt_eq hw hfit' (by omega), Option.bind_some, viewSlice_eq hw hfit' (by omega),
      Option.bind_some, viewSlice_eq hw hfit' (by omega), Option.bind_some,
      viewSlice_eq hw hfit' (by omega), Option.bind_some, viewSlice_eq hw hfit' (by omega),
      Option.bind_some, viewSlice_eq hw hfit' (by omega), Option.bind_some, ← hwhole, hoff]
    rfl
  · simp only [Views.spans, viewSizes, Span.tiles, ← hA, ← hL, h0ChainSize, h0Length, Nat.reduceAdd,
      Nat.reduceMul, Nat.add_assoc]

end Arithmetic

/-- Whatever is admitted has a workspace whose size is exact, whose memory is adjusted as the
algorithm wants it, and whose views fill the region without overlap, words where words may be. -/
theorem workspace_layout {w : ℕ} (hw : w = 32 ∨ w = 64) {memory : UInt32} {threads : UInt8}
    (h : Admitted w memory threads) {base : ℕ} (halign : base % 8 = 0) :
    (workspaceSize w memory threads).toInt = (workspaceBytes memory threads : ℕ) ∧
    (adjustMemory memory threads).toNat =
      max (memory.toNat / (4 * threads.toNat) * (4 * threads.toNat)) (8 * threads.toNat) ∧
    4 * threads.toNat ∣ (adjustMemory memory threads).toNat ∧
    8 * threads.toNat ≤ (adjustMemory memory threads).toNat ∧
    ∃ v, bind w ⟨base, workspaceBytes memory threads⟩ memory threads = some v ∧
      v.spans.map Span.len = viewSizes memory threads ∧
      v.spans.Pairwise Span.Apart ∧
      (∀ s ∈ v.spans,
        base ≤ s.off ∧ s.off + s.len ≤ base + workspaceBytes memory threads) ∧
      (∀ x, base ≤ x → x < base + workspaceBytes memory threads →
        ∃ s ∈ v.spans, s.off ≤ x ∧ x < s.off + s.len) ∧
      v.b.off % 8 = 0 ∧ v.lanes.off % 8 = 0 ∧ v.h0Chain.off % 8 = 0 := by
  have hwpos : 0 < w := by omega
  have hfit := workspaceBytes_lt hw h
  have hadjusted := toNat_adjustMemory memory threads
  obtain ⟨v, hbind, -, hspans⟩ := bind_tiles hwpos halign h.bounds.1 hfit
  refine ⟨?_, hadjusted, ?_, ?_, v, hbind, ?_, ?_, ?_, ?_, ?_⟩
  · rw [workspaceSize_eq]
    exact toInt_ofNat_of_lt hwpos hfit
  · rw [hadjusted]
    rcases le_total (memory.toNat / (4 * threads.toNat) * (4 * threads.toNat))
      (8 * threads.toNat) with hle | hle
    · rw [Nat.max_eq_right hle]
      exact ⟨2, by omega⟩
    · rw [Nat.max_eq_left hle]
      exact Nat.dvd_mul_left _ _
  · rw [hadjusted]
    exact Nat.le_max_right _ _
  · rw [hspans]
    rfl
  · rw [hspans]
    exact Span.pairwise_apart_tiles _ _
  · intro s hs
    rw [hspans] at hs
    rw [← sum_viewSizes]
    exact Span.within_of_mem_tiles hs
  · intro x hlo hhi
    rw [← sum_viewSizes] at hhi
    rw [hspans]
    exact Span.exists_mem_tiles hlo hhi
  · simp only [Views.spans, viewSizes, Span.tiles, List.cons.injEq] at hspans
    obtain ⟨hb, hlanes, hchain, -⟩ := hspans
    rw [hb, hlanes, hchain, laneScratchSize_eq]
    dsimp only
    omega

/-- 64 MiB and four lanes. -/
theorem workspace_layout_default :
    (workspaceSize 64 65536 4).toInt = (workspaceBytes 65536 4 : ℕ) ∧
    (adjustMemory 65536 4).toNat =
      max ((65536 : UInt32).toNat / (4 * (4 : UInt8).toNat) * (4 * (4 : UInt8).toNat))
        (8 * (4 : UInt8).toNat) ∧
    4 * (4 : UInt8).toNat ∣ (adjustMemory 65536 4).toNat ∧
    8 * (4 : UInt8).toNat ≤ (adjustMemory 65536 4).toNat ∧
    ∃ v, bind 64 ⟨4096, workspaceBytes 65536 4⟩ 65536 4 = some v ∧
      v.spans.map Span.len = viewSizes 65536 4 ∧
      v.spans.Pairwise Span.Apart ∧
      (∀ s ∈ v.spans, 4096 ≤ s.off ∧ s.off + s.len ≤ 4096 + workspaceBytes 65536 4) ∧
      (∀ x, 4096 ≤ x → x < 4096 + workspaceBytes 65536 4 →
        ∃ s ∈ v.spans, s.off ≤ x ∧ x < s.off + s.len) ∧
      v.b.off % 8 = 0 ∧ v.lanes.off % 8 = 0 ∧ v.h0Chain.off % 8 = 0 := by
  have hadmitted : Admitted 64 65536 4 := by
    refine .inr ⟨fun _ => none, ⟨workspaceSize 64 65536 4, 65536, 4⟩, ?_⟩
    rw [newArgon2Workspace, if_neg (by decide), if_neg (by decide)]
  exact workspace_layout (.inr rfl) hadmitted (by decide)

end Secmem.Argon2
