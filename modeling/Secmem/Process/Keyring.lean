import Secmem.Process.Registry

/-!
# `sealauth.go`

The process's prekey and the tags taken under it.  The prekey is an object like any other: it is
allocated on the first tag, registered with the janitor, and replaced once a pass has wiped it.

`sealComputeTag` binds the buffer's identity, the nonce, the length and the bytes as the source
does; the hash and the keyed function are the platform's.
-/

namespace Secmem.Process

def sealPrekeyLen : ℕ := 16384

/-- The label `secmem/seal/v1/mac`. -/
def sealLabelMac : List UInt8 :=
  [115, 101, 99, 109, 101, 109, 47, 115, 101, 97, 108, 47, 118, 49, 47, 109, 97, 99]

/-- `binary.BigEndian.PutUint64`. -/
def be64 (n : ℕ) : List UInt8 := (List.range 8).map fun i => UInt8.ofNat (n / 256 ^ (7 - i))

def sealComputeTag (P : Platform) (prekey : List UInt8) (id : ℕ) (nonce data : List UInt8) :
    List UInt8 :=
  P.prf (P.sum512 prekey)
    (sealLabelMac ++ be64 id ++ nonce ++ be64 data.length ++ P.sum512 data)

/-! ## The prekey -/

/-- A failure after the allocation and before the registration: the region is given back. -/
def discard {α : Type} (b : ℕ) (e : GoErr) : ProcProg (Except GoErr α) := do
  upon b .wipe
  let _ ← upon b .free
  pure (.error e)

/-- A failure after the registration. -/
def abandon {α : Type} (key : ℕ) (e : GoErr) : ProcProg (Except GoErr α) := do
  let _ ← release key false
  pure (.error (.wrap "secmem: seal prekey: " e))

/-- Fills a prekey that has just been registered.  It is protected after its lock has been
released again. -/
def fillPrekey (q key : ℕ) : ProcProg (Except GoErr ℕ) := do
  let err ← locked q (upon q .fillRandom)
  match err with
  | some e => abandon key e
  | none => do
    let err : Option GoErr ← upon q (.mprotect .read)
    match err with
    | some e => abandon key e
    | none => do
      perform (.installKeyring q key)
      pure (.ok q)

/-- The registration of a prekey. -/
def prekeyEntry (q : ℕ) : Entry := ⟨q, q, .empty, none, some q⟩

/-- `initLocked` once there is no prekey. -/
def newPrekey : ProcProg (Except GoErr ℕ) := do
  let area : Except GoErr (ℕ × ℕ) ← perform (.alloc .prekey sealPrekeyLen)
  match area with
  | .error e => pure (.error (.wrap "secmem: seal prekey: " e))
  | .ok (q, innerLen) =>
    if sealPrekeyLen ≠ innerLen then
      discard q (.new "secmem: seal prekey: allocation is not page-exact")
    else do
    let registered ← register (prekeyEntry q)
    match registered with
    | .error e => discard q (.wrap "secmem: seal prekey: " e)
    | .ok key => fillPrekey q key

/-- `initLocked`: a wiped predecessor's mapping is reclaimed first. -/
def initLocked (k : Keyring) : ProcProg (Except GoErr ℕ) := do
  Prog.when (k.current ≠ none) (do
    let _ ← release k.key false
    perform .clearKeyring)
  newPrekey

/-- The prekey to use, with the keyring's mutex held: the current one, or a new one if there is
none or it has been wiped. -/
def currentPrekey : ProcProg (Except GoErr ℕ) := do
  let k : Keyring ← perform .readKeyring
  match k.current with
  | none => initLocked k
  | some q => do
    let wiped : Bool ← upon q .loadWiped
    if wiped = true then initLocked k else pure (.ok q)

/-- The end of `withPrekey`: runs `fn` with the prekey under its shared lock, unless the prekey
has been wiped meanwhile. -/
def lendPrekey {α : Type} (fn : ℕ → ℕ → ProcProg (Except GoErr α)) (q gen : ℕ) :
    ProcProg (Except GoErr α) :=
  rLocked q do
    let wiped : Bool ← upon q .loadWiped
    if wiped = true then pure (.error (Sentinel.errWiped : GoErr)) else do
    upon q (.lent gen)
    fn q gen

/-- `withPrekey`: runs `fn` with the live prekey. -/
def withPrekey {α : Type} (fn : ℕ → ℕ → ProcProg (Except GoErr α)) :
    ProcProg (Except GoErr α) := do
  perform .keyringLock
  let current ← currentPrekey
  match current with
  | .error e => do
    perform .keyringUnlock
    pure (.error e)
  | .ok q => do
    let k : Keyring ← perform .readKeyring
    perform .keyringUnlock
    lendPrekey fn q k.gen

/-! ## Tags -/

/-- The tag of the buffer's bytes as they are now. -/
def computeTag (P : Platform) (b q : ℕ) : ProcProg (List UInt8) := do
  let prekey : List UInt8 ← upon q .readInner
  let s : BufferState ← upon b .load
  let data : List UInt8 ← upon b .readInner
  pure (sealComputeTag P prekey s.janitorKey s.sealNonce data)

def sealAuthenticate (P : Platform) (b : ℕ) : ProcProg (Option GoErr) := do
  let drawn : List UInt8 × Option GoErr ← perform .randNonce
  upon b (.store fun s => { s with sealNonce := drawn.1 })
  match drawn.2 with
  | some e => pure (some e)
  | none => do
    let r ← withPrekey fun q gen => do
      upon b (.store fun s => { s with sealGen := gen })
      let tag ← computeTag P b q
      upon b (.storeTag tag)
      pure (.ok ())
    match r with
    | .error e => pure (some e)
    | .ok _ => do
      upon b (.store fun s => { s with sealTagged := true })
      pure none

def sealVerify (P : Platform) (b : ℕ) : ProcProg (Option GoErr) := do
  let r ← withPrekey fun q gen => do
    let s : BufferState ← upon b .load
    if gen ≠ s.sealGen then do
      upon b .staleGeneration
      pure (.error (Sentinel.errWiped : GoErr))
    else do
      let want ← computeTag P b q
      pure (.ok want)
  match r with
  | .error e => pure (some e)
  | .ok want => do
    let s : BufferState ← upon b .load
    if want = s.sealTag then pure none else pure (some Sentinel.errIntegrity)

end Secmem.Process
