import Secmem.Crypto.Encrypted

/-!
# Marshalling

`marshal_openssh.go` and the writer of `openssh_wire.go`: an Ed25519 signer rendered as an
OpenSSH private key file, with or without a passphrase.  The sizes are computed before anything
is written, and every write goes into a slice of exactly that size; `headerWrites`,
`blockWrites` and `pemWrites` list the writes in the order of the source.
-/

namespace Secmem.Crypto

open Ownership ByteStrings SliceWriter

/-! ## Layout -/

/-- `OpenSSHKDFRounds`. -/
def opensshRounds : ℤ := 16

/-- `sshStrLen`. -/
def sshStrLen (n : ℕ) : ℕ := 4 + n

def ed25519PublicKeySize : ℕ := 32
def ed25519PrivateKeySize : ℕ := 64

/-- `sshWriter.uint32` and `sshWriter.length`. -/
def putWord (n : ℕ) : Write := .fixed (putUint32 n)

/-- `sshWriter.str` and `sshWriter.strs`. -/
def putStr (p : Bytes) : List Write := [putWord p.length, .copy p]

/-- What decides the layout of a container: the names in its header, its KDF options, and the
size of the blocks that the private block is padded to. -/
structure Layout where
  cipherName : Bytes
  kdfName : Bytes
  kdfOpts : Bytes
  blockSize : ℕ
  deriving DecidableEq, Repr

/-- The layout of an unencrypted file. -/
def plainLayout : Layout := ⟨opensshCipherNone, opensshKDFNone, [], opensshNoneBlock⟩

/-- string salt | uint32 rounds. -/
def kdfOptions (salt : Bytes) (rounds : ℕ) : Bytes :=
  putUint32 opensshSaltLen ++ salt ++ putUint32 rounds

/-- The layout of an encrypted file. -/
def encryptedLayout (salt : Bytes) (rounds : ℕ) : Layout :=
  ⟨opensshCipherCTR, opensshKDFBcrypt, kdfOptions salt rounds, opensshAESBlock⟩

namespace Layout

variable (f : Layout) (commentLen : ℕ)

def pubBlobLen : ℕ := sshStrLen opensshKeyEd25519.length + sshStrLen ed25519PublicKeySize

/-- The length of the private block before it is padded. -/
def privLen : ℕ :=
  4 + 4 + sshStrLen opensshKeyEd25519.length + sshStrLen ed25519PublicKeySize +
    sshStrLen ed25519PrivateKeySize + sshStrLen commentLen

def padLen : ℕ := (f.blockSize - privLen commentLen % f.blockSize) % f.blockSize

def privPadded : ℕ := privLen commentLen + f.padLen commentLen

/-- The size of the container. -/
def total : ℕ :=
  opensshMagic.length + sshStrLen f.cipherName.length + sshStrLen f.kdfName.length +
    sshStrLen f.kdfOpts.length + 4 + sshStrLen pubBlobLen + sshStrLen (f.privPadded commentLen)

end Layout

/-! ## The container -/

/-- The writes up to the private block. -/
def headerWrites (f : Layout) (pubKey comment : Bytes) : List Write :=
  [.copy opensshMagic] ++ putStr f.cipherName ++ putStr f.kdfName ++ putStr f.kdfOpts ++
    [putWord 1, putWord Layout.pubBlobLen] ++ putStr opensshKeyEd25519 ++ putStr pubKey ++
    [putWord (f.privPadded comment.length)]

/-- The bytes 1, 2, … of the padding. -/
def padWrites (n : ℕ) : List Write := (List.range n).map fun i => .fixed [UInt8.ofNat (i + 1)]

/-- The writes of the private block. -/
def blockWrites (f : Layout) (check pubKey seed comment : Bytes) : List Write :=
  [.copy check, .copy check] ++ putStr opensshKeyEd25519 ++ putStr pubKey ++
    [putWord ed25519PrivateKeySize, .copy seed, .copy pubKey] ++ putStr comment ++
    padWrites (f.padLen comment.length)

/-- Writes the container into a slice; the second result is where the private block starts. -/
def writeContainer (f : Layout) (check pubKey seed comment c : Bytes) : Except Err (Bytes × ℕ) := do
  let w ← require errPanic (Writer.run ⟨c, 0⟩ (headerWrites f pubKey comment))
  let start := w.n
  let w ← require errPanic (w.run (blockWrites f check pubKey seed comment))
  demand (w.n = f.total comment.length) (.new "internal: container layout mismatch")
  .ok (w.b, start)

/-! ## PEM armour -/

/-- `pemLen`. -/
def pemLen (typ : Bytes) (n : ℕ) : ℕ :=
  let enc := Base64.encodedLen n
  let lines := (enc + 63) / 64
  pemBegin.length + typ.length + pemDashes.length + 1 + enc + lines + pemEnd.length + typ.length +
    pemDashes.length + 1

/-- The lines of the body, 48 bytes each; `fuel` bounds their number. -/
def pemLines : (fuel : ℕ) → (src : Bytes) → List Write
  | 0, _ => []
  | fuel + 1, src =>
    if src = [] then []
    else .fixed (Base64.encode (src.take 48)) :: .fixed [10] :: pemLines fuel (src.drop 48)

def pemWrites (typ src : Bytes) : List Write :=
  [.copy pemBegin, .copy typ, .copy pemDashes, .fixed [10]] ++ pemLines src.length src ++
    [.copy pemEnd, .copy typ, .copy pemDashes, .fixed [10]]

/-- `pemEncode`, with the layout check of its caller. -/
def pemEncode (dst typ src : Bytes) : Except Err Bytes := do
  let w ← require errPanic (Writer.run ⟨dst, 0⟩ (pemWrites typ src))
  demand (w.n = dst.length) (.new "internal: PEM layout mismatch")
  .ok w.b

/-! ## Marshalling -/

/-- A draw of `rand.Read`: bytes, or the text of its error. -/
abbrev Draw (n : ℕ) := Except String { b : Bytes // b.length = n }

variable (E : Env)

/-- The bytes of a draw. -/
def drawn {n : ℕ} (what : String) (d : Draw n) : Except Err Bytes :=
  match d with
  | .ok b => .ok b.val
  | .error text => .error (.new (what ++ ": " ++ text))

/-- The part of `marshalOpenSSH` that fills the container: writes it, and encrypts the private
block in place if there is a passphrase. -/
def fillContainer (f : Layout) (seedBuf cont : Buf) (pubKey check comment passphrase salt : Bytes)
    (rounds : ℕ) : Call Unit := do
  let seed ← borrow seedBuf
  let c ← borrow cont
  let (c, start) ← Op.lift (writeContainer f check pubKey seed comment c)
  store cont c
  if passphrase = [] then return ()
  else do
    let block := (c.drop start).take (f.privPadded comment.length)
    let block ← opensshCrypt E block [] passphrase salt rounds .aes256CTR false
    store cont (overlay c block start)

/-- The part of `marshalOpenSSH` that turns a container into a file. -/
def armour (cont : Buf) (total : ℕ) : Call Buf := do
  let out ← (newEmptyBuffer E (pemLen opensshPEMType total)).mapError
    (Err.after "allocate openssh private key buffer: ")
  (do
    let c ← borrow cont
    let o ← borrow out
    let o ← Op.lift (pemEncode o opensshPEMType c)
    store out o).orRelease out
  return out

variable (seedBuf : Buf) (pubKey comment passphrase : Bytes)

/-- `marshalOpenSSH`, with the salt and the check integer it draws. -/
def marshalOpenSSH (rounds : ℤ) (salt : Draw opensshSaltLen) (check : Draw 4) : Call Buf := do
  Op.lift (demand (passphrase = [] ∨ (1 ≤ rounds ∧ rounds ≤ opensshMaxRounds))
    (.new ("rounds must be between 1 and " ++ toString opensshMaxRounds ++ ", got " ++
      toString rounds)))
  let salt ← Op.lift (if passphrase = [] then .ok [] else drawn "salt" salt)
  let f := if passphrase = [] then plainLayout else encryptedLayout salt rounds.toNat
  let check ← Op.lift (drawn "check bytes" check)
  let cont ← (newEmptyBuffer E (f.total comment.length)).mapError
    (Err.after "allocate container buffer: ")
  (do
    fillContainer E f seedBuf cont pubKey check comment passphrase salt rounds.toNat
    armour E cont (f.total comment.length)).andRelease cont

/-- What the exported functions say before an error. -/
def marshalling (x : Call Buf) : Call Buf :=
  x.mapError (Err.after "secmemcrypto: marshal openssh private key: ")

/-- `MarshalOpenSSHPrivateKey`. -/
def marshalOpenSSHPrivateKey (pubKey comment : Bytes) (salt : Draw opensshSaltLen) (check : Draw 4)
    : Call Buf :=
  marshalling (marshalOpenSSH E seedBuf pubKey comment [] opensshRounds salt check)

/-- `MarshalOpenSSHPrivateKeyWithPassphraseParams`. -/
def marshalOpenSSHPrivateKeyWithPassphraseParams (rounds : ℤ) (salt : Draw opensshSaltLen)
    (check : Draw 4) : Call Buf :=
  if passphrase = [] then
    .fail (.new ("secmemcrypto: marshal openssh private key: empty passphrase (use " ++
      "MarshalOpenSSHPrivateKey for an unencrypted file)"))
  else marshalling (marshalOpenSSH E seedBuf pubKey comment passphrase rounds salt check)

/-- `MarshalOpenSSHPrivateKeyWithPassphrase`. -/
def marshalOpenSSHPrivateKeyWithPassphrase (salt : Draw opensshSaltLen) (check : Draw 4)
    : Call Buf :=
  marshalOpenSSHPrivateKeyWithPassphraseParams E seedBuf pubKey comment passphrase opensshRounds
    salt check

end Secmem.Crypto
