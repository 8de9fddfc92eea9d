import Secmem.Canary
import Secmem.Errors
import Secmem.Framework.Program
import Secmem.Framework.RWLock
import Secmem.Memory

/-!
# The process: regions, the registry and the keyring

The state that `securebuf.go`, `closedatrest.go`, `sealauth.go` and `registry.go` share: any
number of guarded regions with their owners (buffers, arenas and the seal prekeys), the
emergency janitor's two sets of registrations, and the process-wide keyring.

A region is named by the number of its allocation, and the pointers of the source become that
number: a registration that points at a region, a lock and two flags carries the names of the
objects these belong to.  A region is never named again after it is freed, whatever the
platform does with the addresses.

Every access to a shared word, every call to the platform and every stretch under the
registry's or the keyring's mutex is one action, and so is one copy, wipe or comparison of
bytes.  An access to bytes faults unless the pages are mapped and allow it.  The fields that a
buffer's lock guards are read together and written one statement at a time.

Each object carries a `Ghost`, which no action reads for its result, except that a collected or
unfinished object has no users.
-/

namespace Secmem.Process

/-! ## The platform -/

/-- The seal cipher of a platform that has one (`CryptProtectMemory`).  It need not repeat: a
call draws on the first argument. -/
structure SealCipher where
  encrypt : ℕ → List UInt8 → List UInt8
  decrypt : List UInt8 → List UInt8
  decrypt_encrypt : ∀ r b, decrypt (encrypt r b) = b
  length_encrypt : ∀ r b, (encrypt r b).length = b.length

/-- What does not change while the process runs.  `prf` is HMAC-SHA-512 cut to the length of a
tag; nothing is assumed of it or of the hash `sum512` except where a theorem says so. -/
structure Platform where
  pageSize : ℕ
  pageSize_pos : 0 < pageSize
  sealCipher : Option SealCipher
  sum512 : List UInt8 → List UInt8
  prf : List UInt8 → List UInt8 → List UInt8
  pattern : ℕ → UInt8

/-- The size of the secret area of an allocation: whole pages. -/
def Platform.rounded (P : Platform) (size : ℕ) : ℕ :=
  (size + P.pageSize - 1) / P.pageSize * P.pageSize

lemma Platform.le_rounded (P : Platform) (n : ℕ) : n ≤ P.rounded n := by
  have hdiv := Nat.div_add_mod (n + P.pageSize - 1) P.pageSize
  have hmod := Nat.mod_lt (n + P.pageSize - 1) P.pageSize_pos
  have hcomm := Nat.mul_comm ((n + P.pageSize - 1) / P.pageSize) P.pageSize
  unfold Platform.rounded
  omega

/-- How an action's freedom is resolved: whether the platform obliges, what `rand.Read` draws,
what the cipher draws, and in which order the two maps of the registry are iterated. -/
structure Choice where
  os : Option ℕ
  draw : ℕ → UInt8
  seed : ℕ
  order : List ℕ × List ℕ

/-! ## Owners and registrations -/

inductive Kind
  | buffer
  | arena
  | prekey
  deriving DecidableEq, Repr

/-- The constructor options that matter here. -/
structure Config where
  unauthenticatedSeal : Bool
  closedAtRest : Bool
  deriving DecidableEq, Repr

/-- The fields of a `bufferState` that its lock guards, and those that never change once the
constructor has returned.  `data` is the length of the slice, `inner` whether `region.inner`
is non-nil, `cleanup` whether the garbage-collection fallback is in place.  An arena uses the
first four and `readOnly`. -/
structure BufferState where
  data : Option ℕ
  inner : Bool
  cleanup : Bool
  janitorKey : ℕ
  sealed : Bool
  readOnly : Bool
  sealAuth : Bool
  sealTagged : Bool
  sealGen : ℕ
  sealNonce : List UInt8
  sealTag : List UInt8
  closedAtRest : Bool
  deriving DecidableEq, Repr

/-- The state of an object that has no owner yet. -/
def BufferState.zero : BufferState :=
  ⟨none, false, false, 0, false, false, false, false, 0, [], [], false⟩

/-- The mapping itself. -/
structure Region where
  inner : List UInt8
  prot : Prot
  mapped : Bool
  deriving DecidableEq, Repr

/-- `janitorRegion`: the objects whose region, lock and flags the registration points at. -/
structure Entry where
  region : ℕ
  mu : ℕ
  canary : CanaryLayout
  sealCipher : Option ℕ
  wiped : Option ℕ
  deriving DecidableEq, Repr

/-- What `moveToWipedIf` keeps: the layout and the cipher flag are dropped. -/
def Entry.retained (e : Entry) : Entry := { e with canary := .empty, sealCipher := none }

/-- A registration all of whose pointers belong to `x`. -/
structure Entry.Names (e : Entry) (x : ℕ) : Prop where
  region : e.region = x
  mu : e.mu = x
  wiped : e.wiped = some x
  sealCipher : e.sealCipher = none ∨ e.sealCipher = some x

lemma Entry.Names.retained {e : Entry} {x : ℕ} (h : e.Names x) : e.retained.Names x :=
  ⟨h.region, h.mu, h.wiped, Or.inl rfl⟩

/-! ## Ghosts -/

/-- Who can still call the methods of an object: its constructor has not returned, it has users
at work, or the collector found it unreachable. -/
inductive Reach (T : Type)
  | building (t : T)
  | held (users : ℕ)
  | collected

/-- Where the registration of a region is. -/
inductive Filing (T : Type)
  | absent
  | unfiled (t : T)
  | live (key : ℕ)
  | wiped (key : ℕ)
  | taken (t : T)
  | freed
  deriving DecidableEq

/-- What a wipe pass found when it took a region: the registration and the set it was in, the
bytes and flags, and how the attempt to restore write access went. -/
structure Found where
  entry : Entry
  live : Bool
  inner : List UInt8
  sealCipher : Bool
  wiped : Bool
  restore : Option GoErr
  deriving DecidableEq, Repr

/-- The ghosts of an object.  `users` are the threads in a call through its handle, `collector`
the one that runs its garbage-collection fallback, and `opens` those whose `open` has been
counted and not yet uncounted.  `wiping` is the thread that restored write access and has not
wiped yet; `frees` counts the calls that gave the mapping back; `late` records a protection
changed by a thread that did not hold the lock, after the owner was marked wiped; `skipped`
records that a pass gave the region up; `swept` that the region has been wiped whole, and
`filled` that a prekey was drawn into it; `issued` is the generation a prekey was installed as;
`plain` is the plaintext last stored; `rest` is what the package itself last put into the region
or took a tag of. -/
structure Ghost (T : Type) where
  reach : Reach T
  users : List T
  collector : Option T
  opens : List T
  filing : Filing T
  frees : ℕ
  wiping : Option T
  late : Bool
  found : Found
  skipped : Bool
  swept : Bool
  filled : Bool
  issued : Option ℕ
  plain : List UInt8
  rest : List UInt8

/-! ## Objects and the world -/

structure Obj (T : Type) where
  kind : Kind
  mu : RWLock T
  wiped : Bool
  sealCipher : Bool
  state : BufferState
  openMu : Option T
  openers : ℤ
  region : Region
  ghost : Ghost T

/-- The prekey in use, as the object that has the keyring's region, lock and flag. -/
structure Keyring where
  current : Option ℕ
  key : ℕ
  gen : ℕ
  deriving DecidableEq, Repr

/-- One call of `wipeAllInPlace`: the error it accumulates and its wait group.  The keys of its
snapshot with the regions they named, what its passes found, and the errors joined so far are
ghosts. -/
structure Sweep where
  errs : Option GoErr
  pending : ℕ
  keys : List (ℕ × ℕ)
  handled : List (ℕ × Option Found)
  joined : List GoErr
  returned : Bool

/-- What a constructor was called for: the bytes of `NewBuffer`, the size of `NewEmptyBuffer`,
or the reader and size of `NewBufferFromReader`. -/
inductive Construction
  | bytes (raw : List UInt8)
  | zeros (size : ℤ)
  | read (r : List (List UInt8 × Option GoErr)) (size : ℤ)
  | slots
  deriving Inhabited

/-- The slice that the caller of a constructor hands over. -/
def Construction.source : Construction → List UInt8
  | .bytes raw => raw
  | _ => []

/-- `prekeys` are the bytes of each generation as it was installed; `making` is the constructor
call a thread last began, and `source` the slice it was given, as it is now.  These are
ghosts. -/
structure World (T : Type) where
  allocated : ℕ
  obj : ℕ → Obj T
  nextJanitorKey : ℕ
  regions : ℕ → Option Entry
  wiped : ℕ → Option Entry
  keyringMu : Option T
  keyring : Keyring
  sweeps : ℕ
  sweep : ℕ → Sweep
  prekeys : List (List UInt8)
  making : T → Construction
  source : T → List UInt8

section Update

variable {T : Type}

def World.setObj (w : World T) (b : ℕ) (o : Obj T) : World T :=
  { w with obj := Function.update w.obj b o }

namespace World

@[simp] lemma obj_setObj (w : World T) (b : ℕ) (o : Obj T) : (w.setObj b o).obj b = o :=
  Function.update_self _ _ _

lemma obj_setObj_of_ne (w : World T) {b x : ℕ} (o : Obj T) (h : x ≠ b) :
    (w.setObj b o).obj x = w.obj x :=
  Function.update_of_ne h _ _

@[simp] lemma setObj_setObj (w : World T) (b : ℕ) (o o' : Obj T) :
    (w.setObj b o).setObj b o' = w.setObj b o' := by
  simp only [setObj, Function.update_idem]

@[simp] lemma setObj_obj (w : World T) (b : ℕ) : w.setObj b (w.obj b) = w := by
  simp only [setObj, Function.update_eq_self]

end World

/-- Records where the registration of `b` went. -/
def Obj.refile (o : Obj T) (f : Filing T) : Obj T :=
  { o with ghost := { o.ghost with filing := f } }

/-- An object before its allocation. -/
def Obj.blank : Obj T where
  kind := .buffer
  mu := .free
  wiped := false
  sealCipher := false
  state := .zero
  openMu := none
  openers := 0
  region := ⟨[], .none, false⟩
  ghost :=
    { reach := .collected
      users := []
      collector := none
      opens := []
      filing := .absent
      frees := 0
      wiping := none
      late := false
      found := ⟨⟨0, 0, .empty, none, none⟩, false, [], false, false, none⟩
      skipped := false
      swept := false
      filled := false
      issued := none
      plain := []
      rest := [] }

/-- What an allocation of `size` bytes by thread `t` returns: a zeroed area, readable and
writable. -/
def Obj.fresh (P : Platform) (t : T) (kind : Kind) (size : ℕ) : Obj T :=
  let zeros := List.replicate (P.rounded size) 0
  { Obj.blank with
    kind := kind
    region := ⟨zeros, .readWrite, true⟩
    ghost := { (Obj.blank : Obj T).ghost with
      reach := .building t
      filing := .unfiled t
      plain := zeros
      rest := zeros } }

/-- The registrations in a set, by key, in the order `order` if that is one. -/
def World.keysOf (w : World T) (set : ℕ → Option Entry) (order : List ℕ) : List ℕ :=
  let keys := (List.range (w.nextJanitorKey + 1)).filter fun k => (set k).isSome
  if order.Perm keys then order else keys

end Update

/-! ## Actions on one object -/

inductive ObjAct
  -- its lock and its atomic flags
  | rLock
  | rUnlock
  | lock
  | tryLock
  | unlock
  | loadWiped
  | storeWiped
  | loadSealCipher
  | storeSealCipher (v : Bool)
  -- the fields its lock guards
  | load
  | store (f : BufferState → BufferState)
  | storeTag (tag : List UInt8)
  -- the count of openers
  | openMuLock
  | openMuUnlock
  | readOpeners
  | writeOpeners (n : ℤ)
  -- the platform
  | mprotect (p : Prot)
  | restoreWriteAccess
  | relock
  | sealEncrypt
  | sealDecrypt
  | madviseBeforeFree
  | free
  -- the bytes
  | innerLen
  | readInner
  | read (lo n : ℕ)
  | write (lo : ℕ) (bs : List UInt8)
  | arm (c : CanaryLayout)
  | intact (c : CanaryLayout)
  | fillRandom
  | wipe
  -- ghosts
  | use (k : Kind)
  | unuse
  | publish
  | collect
  | staleGeneration
  | opens (err : Option GoErr)
  | closes (err : Option GoErr)
  | lent (gen : ℕ)

@[reducible] def ObjRes : ObjAct → Type
  | .tryLock | .loadWiped | .loadSealCipher | .intact _ => Bool
  | .load => BufferState
  | .readOpeners => ℤ
  | .mprotect _ | .restoreWriteAccess | .relock | .sealDecrypt | .madviseBeforeFree | .free
  | .arm _ | .fillRandom => Option GoErr
  | .sealEncrypt => Except GoErr Bool
  | .innerLen => ℕ
  | .readInner | .read _ _ => List UInt8
  | _ => Unit

def cryptProtectMemoryBlockSize : ℕ := 16

/-- `sealCipherLen`: the cipher takes whole blocks, and its length is 32 bits wide. -/
def sealCipherLen (n : ℕ) : Option GoErr :=
  if n % cryptProtectMemoryBlockSize ≠ 0 then
    some (.new s!"secmem: seal cipher: area {n} bytes is not a multiple of {16}")
  else if 2 ^ 32 - 1 < n then
    some (.new (s!"secmem: seal cipher: area {n} bytes exceeds the {4294967295}-byte limit of " ++
      "one cipher call"))
  else none

/-- The bytes of a region with `bs` written at `lo`. -/
def writeAt (inner : List UInt8) (lo : ℕ) (bs : List UInt8) : List UInt8 :=
  inner.take lo ++ bs ++ inner.drop (lo + bs.length)

section Exec

variable {T : Type} [DecidableEq T]

/-- An access to pages: it faults unless they are mapped with the access allowed. -/
def Obj.guarded {α : Type} (o : Obj T) (allowed : Prot → Bool) (r : Outcome (Obj T) α) :
    Outcome (Obj T) α :=
  if o.region.mapped = true ∧ allowed o.region.prot = true then r else .fault

/-- The package itself changes the bytes of the region. -/
def Obj.setInner (o : Obj T) (inner : List UInt8) : Obj T :=
  { o with
    region := { o.region with inner := inner }
    ghost := { o.ghost with rest := inner } }

/-- As `setInner`, where the new bytes are a prekey's. -/
def Obj.setFilled (o : Obj T) (inner : List UInt8) : Obj T :=
  { o with
    region := { o.region with inner := inner }
    ghost := { o.ghost with rest := inner, filled := true } }

/-- As `setInner`, where the new bytes are what the region stores. -/
def Obj.setPlain (o : Obj T) (inner plain : List UInt8) : Obj T :=
  { o with
    region := { o.region with inner := inner }
    ghost := { o.ghost with rest := inner, plain := plain } }

def Obj.setProt (o : Obj T) (p : Prot) : Obj T := { o with region := { o.region with prot := p } }

/-- Whether `t` holds the lock, shared or exclusively. -/
def holds (l : RWLock T) (t : T) : Bool := l.writer = some t || t ∈ l.readers

def execObj (P : Platform) (t : T) (a : ObjAct) (c : Choice) (o : Obj T) :
    Outcome (Obj T) (ObjRes a) :=
  match a with
  | .rLock =>
    match o.mu.rLock t with
    | some mu => .done () { o with mu := mu }
    | none => .blocked
  | .rUnlock => .done () { o with mu := o.mu.rUnlock t }
  | .lock =>
    match o.mu.lock t with
    | some mu => .done () { o with mu := mu }
    | none => .blocked
  -- a lock that is free can be refused: a writer may be waiting for it
  | .tryLock =>
    match c.os, o.mu.lock t with
    | none, some mu => .done true { o with mu := mu }
    | _, _ => .done false o
  | .unlock => .done () { o with mu := o.mu.unlock }
  | .loadWiped => .done o.wiped o
  | .storeWiped => .done () { o with wiped := true }
  | .loadSealCipher => .done o.sealCipher o
  | .storeSealCipher v => .done () { o with sealCipher := v }
  | .load => .done o.state o
  | .store f => .done () { o with state := f o.state }
  | .storeTag tag => .done () { o with
      state := { o.state with sealTag := tag }
      ghost := { o.ghost with rest := o.region.inner } }
  | .openMuLock => if o.openMu = none then .done () { o with openMu := some t } else .blocked
  | .openMuUnlock => .done () { o with openMu := none }
  | .readOpeners => .done o.openers o
  | .writeOpeners n => .done () { o with
      openers := n
      ghost := { o.ghost with
        opens := if o.openers < n then t :: o.ghost.opens else o.ghost.opens.erase t } }
  | .mprotect p =>
    match c.os with
    | some n => .done (some (.os n)) o
    | none => .done none { o.setProt p with
        ghost := { o.ghost with late := o.ghost.late || (o.wiped && !holds o.mu t) } }
  | .restoreWriteAccess =>
    match c.os with
    | some n => .done (some (.os n)) { o with
        ghost := { o.ghost with found := { o.ghost.found with restore := some (.os n) } } }
    | none => .done none { o.setProt .readWrite with
        ghost := { o.ghost with
          wiping := some t, found := { o.ghost.found with restore := none } } }
  | .relock => .done (c.os.map .os) o
  | .sealEncrypt =>
    match P.sealCipher, sealCipherLen o.region.inner.length, c.os with
    | none, _, _ => .done (.ok false) o
    | some _, some e, _ => .done (.error e) o
    | some _, none, some n => .done (.error (.wrap "secmem: CryptProtectMemory: " (.os n))) o
    | some cipher, none, none => o.guarded Prot.writable
        (.done (.ok true) (o.setInner (cipher.encrypt c.seed o.region.inner)))
  | .sealDecrypt =>
    match P.sealCipher, sealCipherLen o.region.inner.length, c.os with
    | none, _, _ => .done none o
    | some _, some e, _ => .done (some e) o
    | some _, none, some n => .done (some (.wrap "secmem: CryptUnprotectMemory: " (.os n))) o
    | some cipher, none, none => o.guarded Prot.writable
        (.done none (o.setInner (cipher.decrypt o.region.inner)))
  | .madviseBeforeFree => .done (c.os.map .os) o
  -- `freeSecretMem` and `retireSecretMem`: either way the range is given back
  | .free => .done (c.os.map .os) { o with
      region := { o.region with mapped := c.os.isSome }
      ghost := { o.ghost with filing := .freed, frees := o.ghost.frees + 1 } }
  | .innerLen => .done o.region.inner.length o
  | .readInner => o.guarded Prot.readable (.done o.region.inner o)
  | .read lo n =>
    if n = 0 then .done [] o
    else o.guarded Prot.readable (.done ((o.region.inner.drop lo).take n) o)
  | .write lo bs =>
    if bs = [] then .done () o
    else if o.region.inner.length < lo + bs.length then .fault
    else o.guarded Prot.writable
      (.done () (o.setPlain (writeAt o.region.inner lo bs) (writeAt o.ghost.plain lo bs)))
  | .arm layout =>
    match c.os with
    | some n => .done (some (.os n)) o
    | none => o.guarded Prot.writable
        (.done none (o.setPlain (layout.arm P.pattern o.region.inner)
          (layout.arm P.pattern o.ghost.plain)))
  | .intact layout =>
    o.guarded Prot.readable (.done (layout.intact P.pattern o.region.inner) o)
  | .fillRandom => o.guarded Prot.writable
      (.done (c.os.map .os) (o.setFilled ((List.range o.region.inner.length).map c.draw)))
  | .wipe => o.guarded Prot.writable
      (.done () { o.setPlain (wipeBytes o.region.inner) (wipeBytes o.ghost.plain) with
        ghost := { o.ghost with
          wiping := none
          swept := true
          rest := wipeBytes o.region.inner
          plain := wipeBytes o.ghost.plain } })
  | .use k =>
    match o.ghost.reach with
    | .held n =>
      if o.kind = k then .done () { o with
          ghost := { o.ghost with reach := .held (n + 1), users := t :: o.ghost.users } }
      else .blocked
    | _ => .blocked
  | .unuse =>
    match o.ghost.reach with
    | .held n => .done () { o with
        ghost := { o.ghost with reach := .held (n - 1), users := o.ghost.users.erase t } }
    | _ => .done () o
  | .publish => .done () { o with ghost := { o.ghost with reach := .held 0 } }
  | .collect =>
    match o.ghost.reach with
    | .held 0 =>
      if o.state.cleanup = true then
        .done () { o with ghost := { o.ghost with reach := .collected, collector := some t } }
      else .blocked
    | _ => .blocked
  | .staleGeneration | .opens _ | .closes _ | .lent _ => .done () o

/-! ## Actions on the world -/

inductive Act
  | on (b : ℕ) (a : ObjAct)
  | alloc (kind : Kind) (size : ℕ)
  -- the registry
  | mintKey
  | file (key : ℕ) (e : Entry)
  | take (key : ℕ)
  | takeWiped (key : ℕ)
  | peekAny (key : ℕ)
  | takeAnyIf (key mu : ℕ)
  | moveToWipedIf (key mu : ℕ)
  | returnToLive (key : ℕ) (e : Entry)
  | snapshot
  -- the keyring
  | keyringLock
  | keyringUnlock
  | readKeyring
  | clearKeyring
  | installKeyring (q key : ℕ)
  | randNonce
  -- the variables of a sweep
  | joinErr (c : ℕ) (e : GoErr)
  | readErrs (c : ℕ)
  | wgAdd (c n : ℕ)
  | wgDone (c : ℕ)
  | wgWait (c : ℕ)
  -- the source of a constructor
  | wipeSource
  -- ghosts
  | handled (c : Option ℕ) (key : ℕ) (b : Option ℕ)
  | sweepReturns (c : ℕ)
  | begins (m : Construction)
  | constructed (r : Except GoErr ℕ)

@[reducible] def Res : Act → Type
  | .on _ a => ObjRes a
  | .alloc _ _ => Except GoErr (ℕ × ℕ)
  | .mintKey => ℕ
  | .file _ _ => Option GoErr
  | .take _ | .takeWiped _ | .peekAny _ | .takeAnyIf _ _ => Option Entry
  | .moveToWipedIf _ _ => Option (Entry × Bool)
  | .snapshot => ℕ × List ℕ
  | .readKeyring => Keyring
  | .randNonce => List UInt8 × Option GoErr
  | .readErrs _ => Option GoErr
  | _ => Unit

def sealNonceLen : ℕ := 16

/-- The entry leaves the registry with thread `t`, which is going to free its region. -/
def World.takenBy (w : World T) (t : T) (e : Entry) : World T :=
  w.setObj e.region ((w.obj e.region).refile (.taken t))

/-- A pass takes the region that `e` names: it is filed in the wiped set, and what was found is
noted. -/
def World.movedBy (w : World T) (key : ℕ) (e : Entry) (live : Bool) : World T :=
  let o := w.obj e.region
  w.setObj e.region { o with
    ghost := { o.ghost with
      filing := .wiped key
      found := ⟨e, live, o.region.inner, o.sealCipher, o.wiped, none⟩ } }

/-- The registration a key names, in either set. -/
def World.lookup (w : World T) (key : ℕ) : Option Entry := (w.regions key).or (w.wiped key)

/-- The next identity: a 64-bit counter. -/
def World.mint (w : World T) : ℕ := (w.nextJanitorKey + 1) % 2 ^ 64

def World.setSweep (w : World T) (c : ℕ) (f : Sweep → Sweep) : World T :=
  { w with sweep := Function.update w.sweep c (f (w.sweep c)) }

/-- What a sweep notes about one key, and that the region was skipped if it was. -/
def World.note (w : World T) (c : Option ℕ) (key : ℕ) : Option ℕ → World T
  | none => c.elim w fun c => w.setSweep c fun s =>
      { s with handled := s.handled ++ [(key, none)] }
  | some b =>
    let o := w.obj b
    let w' := w.setObj b { o with
      ghost := { o.ghost with skipped := o.ghost.skipped || o.ghost.found.restore.isSome } }
    c.elim w' fun c => w'.setSweep c fun s =>
      { s with handled := s.handled ++ [(key, some o.ghost.found)] }

def exec (P : Platform) (t : T) (i : Act) (c : Choice) (w : World T) :
    Outcome (World T) (Res i) :=
  match i with
  | .on b a => (execObj P t a c (w.obj b)).within (w.setObj b)
  | .alloc kind size =>
    match c.os with
    | some n => .done (.error (.os n)) w
    | none => .done (.ok (w.allocated, P.rounded size))
        { w.setObj w.allocated (.fresh P t kind size) with allocated := w.allocated + 1 }
  | .mintKey => .done w.mint { w with nextJanitorKey := w.nextJanitorKey + 1 }
  | .file key e =>
    if key = 0 ∨ (w.regions key).isSome = true ∨ (w.wiped key).isSome = true then
      .done (some Sentinel.errJanitorKeyCollision) w
    else .done none
      { w.setObj e.region ((w.obj e.region).refile (.live key)) with
        regions := Function.update w.regions key (some e) }
  | .take key =>
    match w.regions key with
    | some e => .done (some e)
        { w.takenBy t e with regions := Function.update w.regions key none }
    | none => .done none w
  | .takeWiped key =>
    match w.wiped key with
    | some e => .done (some e)
        { w.takenBy t e with wiped := Function.update w.wiped key none }
    | none => .done none w
  | .peekAny key => .done (w.lookup key) w
  | .takeAnyIf key mu =>
    match w.regions key, w.wiped key with
    | some e, _ =>
      if e.mu ≠ mu then .done none w
      else .done (some e)
        { w.takenBy t e with regions := Function.update w.regions key none }
    | none, some e =>
      if e.mu ≠ mu then .done none w
      else .done (some e)
        { w.takenBy t e with wiped := Function.update w.wiped key none }
    | none, none => .done none w
  | .moveToWipedIf key mu =>
    match w.regions key, w.wiped key with
    | some e, _ =>
      if e.mu ≠ mu then .done none w
      else .done (some (e, true))
        { w.movedBy key e true with
          regions := Function.update w.regions key none
          wiped := Function.update w.wiped key (some e.retained) }
    | none, some e =>
      if e.mu ≠ mu then .done none w
      else .done (some (e, false)) (w.movedBy key e false)
    | none, none => .done none w
  | .returnToLive key e =>
    match w.wiped key with
    | some filed =>
      if filed.mu = e.mu then .done ()
        { w.setObj e.region ((w.obj e.region).refile (.live key)) with
          wiped := Function.update w.wiped key none
          regions := Function.update w.regions key (some e) }
      else .done () w
    | none => .done () w
  | .snapshot =>
    let keys := w.keysOf w.regions c.order.1 ++ w.keysOf w.wiped c.order.2
    .done (w.sweeps, keys)
      { w with
        sweeps := w.sweeps + 1
        sweep := Function.update w.sweep w.sweeps
          ⟨none, 0, keys.map fun k => (k, ((w.lookup k).map Entry.region).getD 0), [], [],
            false⟩ }
  | .keyringLock =>
    if w.keyringMu = none then .done () { w with keyringMu := some t } else .blocked
  | .keyringUnlock => .done () { w with keyringMu := none }
  | .readKeyring => .done w.keyring w
  | .clearKeyring => .done () { w with keyring := { w.keyring with current := none, key := 0 } }
  | .installKeyring q key =>
    let o := w.obj q
    .done () { w.setObj q { o with
        ghost := { o.ghost with reach := .held 0, issued := some (w.keyring.gen + 1) } } with
      keyring := ⟨some q, key, w.keyring.gen + 1⟩
      prekeys := w.prekeys ++ [o.region.inner] }
  | .randNonce => .done ((List.range sealNonceLen).map c.draw, c.os.map .os) w
  | .joinErr c e => .done () (w.setSweep c fun s =>
      { s with errs := GoErr.joinOpt s.errs (some e), joined := s.joined ++ [e] })
  | .readErrs c => .done (w.sweep c).errs w
  | .wgAdd c n => .done () (w.setSweep c fun s => { s with pending := s.pending + n })
  | .wgDone c => .done () (w.setSweep c fun s => { s with pending := s.pending - 1 })
  | .wgWait c => if (w.sweep c).pending = 0 then .done () w else .blocked
  | .handled c key b => .done () (w.note c key b)
  | .sweepReturns c => .done () (w.setSweep c fun s => { s with returned := true })
  | .wipeSource => .done () { w with
      source := Function.update w.source t (wipeBytes (w.source t)) }
  | .begins m => .done () { w with
      making := Function.update w.making t m
      source := Function.update w.source t m.source }
  | .constructed _ => .done () w

end Exec

/-- The world before anything is allocated. -/
def World.initial (T : Type) : World T where
  allocated := 0
  obj := fun _ => .blank
  nextJanitorKey := 0
  regions := fun _ => none
  wiped := fun _ => none
  keyringMu := none
  keyring := ⟨none, 0, 0⟩
  sweeps := 0
  sweep := fun _ => ⟨none, 0, [], [], [], false⟩
  prekeys := []
  making := fun _ => default
  source := fun _ => []

end Secmem.Process
