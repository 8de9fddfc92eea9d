import Secmem.Framework.SliceWriter
import Secmem.Crypto.ModReduce

/-!
# The OpenSSH container

`openssh_wire.go` and `parse_openssh.go`: the names and ciphers of the container, its reader, the
private block, and the PKCS#1 structure that is assembled for an RSA key because the container
leaves two of its integers out.

`parseOpenSSHPrivateBlock` is shared with the protected form of the container.  What it returns
is a signer or, for RSA, the buffer of the assembled structure, for the caller to make a signer
of once it has let go of the container.
-/

namespace Secmem.Crypto

open Ownership ByteStrings SliceWriter

/-! ## Names and ciphers -/

def opensshMagic : Bytes := ascii "openssh-key-v1" ++ [0]
def opensshPEMType : Bytes := ascii "OPENSSH PRIVATE KEY"
def opensshCipherNone : Bytes := ascii "none"
def opensshCipherCTR : Bytes := ascii "aes256-ctr"
def opensshCipherCBC : Bytes := ascii "aes256-cbc"
def opensshCipher128C : Bytes := ascii "aes128-ctr"
def opensshCipher192C : Bytes := ascii "aes192-ctr"
def opensshCipher128B : Bytes := ascii "aes128-cbc"
def opensshCipher192B : Bytes := ascii "aes192-cbc"
def opensshCipherChaCha : Bytes := ascii "chacha20-poly1305@openssh.com"
def opensshKDFNone : Bytes := ascii "none"
def opensshKDFBcrypt : Bytes := ascii "bcrypt"
def opensshSaltLen : ℕ := 16
def opensshMaxRounds : ℕ := 2048
def opensshNoneBlock : ℕ := 8
def opensshKeyEd25519 : Bytes := ascii "ssh-ed25519"
def chachaOpenSSHKeyLen : ℕ := 64
def chachaTagLen : ℕ := 16

/-- The supported private-block ciphers; an unsupported one is the absence of a value. -/
inductive OpensshCipher
  | aes128CTR
  | aes192CTR
  | aes256CTR
  | aes128CBC
  | aes192CBC
  | aes256CBC
  | chaCha20Poly1305
  deriving DecidableEq, Repr

namespace OpensshCipher

def keyLen : OpensshCipher → ℕ
  | aes128CTR | aes128CBC => 16
  | aes192CTR | aes192CBC => 24
  | aes256CTR | aes256CBC => 32
  | chaCha20Poly1305 => chachaOpenSSHKeyLen

def ivLen : OpensshCipher → ℕ
  | chaCha20Poly1305 => 0
  | _ => opensshAESBlock

def blockLen : OpensshCipher → ℕ
  | chaCha20Poly1305 => opensshNoneBlock
  | _ => opensshAESBlock

def tagLen : OpensshCipher → ℕ
  | chaCha20Poly1305 => chachaTagLen
  | _ => 0

def cbc : OpensshCipher → Bool
  | aes128CBC | aes192CBC | aes256CBC => true
  | _ => false

end OpensshCipher

/-- `opensshCipherByName`. -/
def opensshCipherByName (name : Bytes) : Option OpensshCipher :=
  if name = opensshCipherCTR then some .aes256CTR
  else if name = opensshCipherCBC then some .aes256CBC
  else if name = opensshCipher128C then some .aes128CTR
  else if name = opensshCipher192C then some .aes192CTR
  else if name = opensshCipher128B then some .aes128CBC
  else if name = opensshCipher192B then some .aes192CBC
  else if name = opensshCipherChaCha then some .chaCha20Poly1305
  else none

/-! ## The reader -/

/-- `sshReader.str`: a string with its length before it. -/
def sshStr (s : Bytes) : Option (Bytes × Bytes) :=
  match uint32 s with
  | some (n, s) => if s.length < n then none else some (s.take n, s.drop n)
  | none => none

/-- `opensshHeader`. -/
structure OpensshHeader where
  cipher : Bytes
  kdf : Bytes
  kdfOpts : Bytes
  numKeys : ℕ
  pubBlob : Bytes
  privBlock : Bytes
  rest : Bytes
  deriving DecidableEq, Repr

/-- The fields of the container, before anything is made of them. -/
def readOpenSSHFields (s : Bytes) : Option OpensshHeader := do
  let (cipher, s) ← sshStr s
  let (kdf, s) ← sshStr s
  let (kdfOpts, s) ← sshStr s
  let (numKeys, s) ← uint32 s
  let (pubBlob, s) ← sshStr s
  let (privBlock, s) ← sshStr s
  some ⟨cipher, kdf, kdfOpts, numKeys, pubBlob, privBlock, s⟩

/-- `readOpenSSHHeader`. -/
def readOpenSSHHeader (b : Bytes) : Except Err OpensshHeader := do
  demand (opensshMagic.isPrefixOf b = true) errMalformed
  let h ← require errMalformed (readOpenSSHFields (b.drop opensshMagic.length))
  demand (h.cipher = opensshCipherNone ↔ h.kdf = opensshKDFNone)
    (errMalformed.then_ ": OpenSSH cipher and KDF disagree about encryption")
  demand (h.kdf = opensshKDFNone → h.kdfOpts = [])
    (errMalformed.then_ ": KDF options with KDF none")
  .ok h

/-- `checkOpenSSHPadding`. -/
def checkOpenSSHPadding (pad : Bytes) (blockSize : ℕ) : Except Err Unit := do
  demand (pad.length < blockSize) (errMalformed.then_ ": bad padding")
  demand (∀ x ∈ pad.zipIdx, x.1.toNat = x.2 + 1) (errMalformed.then_ ": bad padding")

variable [Der.Cryptobyte] (E : Env) (o : Options)

/-! ## Signers from a seed or a scalar -/

/-- `ecdsaPubMatches`. -/
def ecdsaPubMatches (curve : Curve) (derived pub : Bytes) : Bool :=
  match pub with
  | [] => false
  | b :: x =>
    if b = 0x04 then pub == derived
    else if b = 0x02 ∨ b = 0x03 then
      let size := scalarSize curve
      pub.length == 1 + size && derived.length == 1 + 2 * size &&
        x == (derived.drop 1).take size && b - 0x02 == derived.getLastD 0 &&& 1
    else false

/-- The public key a signer was built with agrees with the file's, if the file has one. -/
def Signer.matches_ (s : Signer) (pub : Option Bytes) : Bool :=
  match pub with
  | none => true
  | some pub => match s with
    | .ed25519 _ pubKey => pub == pubKey
    | .ecdsa curve _ pubBytes => ecdsaPubMatches curve pubBytes pub
    | .rsa _ _ => true

def errPubMismatch : Err := errMalformed.then_ ": public key does not match private key"

/-- Returns the signer, or destroys it if the file names another public key. -/
def checkPub (s : Signer) (pub : Option Bytes) : Call Signer :=
  if s.matches_ pub = true then return s
  else do
    Op.release s.buf
    .fail errPubMismatch

/-- `ecdsaFromScalar`. -/
def ecdsaFromScalar (d : Bytes) (curve : Curve) (pub : Option Bytes) : Call Signer := do
  let d := stripZeros d
  let size := scalarSize curve
  Op.lift (demand (d ≠ [] ∧ d.length ≤ size) (errMalformed.then_ ": scalar out of range"))
  let out ← (newEmptyBuffer E size).mapError (Err.after "allocate scalar buffer: ")
  (copyIn out d (size - d.length)).orRelease out
  let s ← (newECDSASigner E o curve out).orRelease out
  checkPub s pub

/-- `ed25519FromSeed`. -/
def ed25519FromSeed (seed : Bytes) (pub : Option Bytes) : Call Signer := do
  Op.lift (demand (seed.length = 32)
    ((Err.of .errBadSeedLength).then_ (": got " ++ toString seed.length ++ ", want 32")))
  let out ← (newEmptyBuffer E seed.length).mapError (Err.after "allocate seed buffer: ")
  (copyIn out seed 0).orRelease out
  let s ← (newEd25519Signer E out).orRelease out
  checkPub s pub

/-! ## The PKCS#1 structure of an RSA key -/

/-- `derLengthOctets`: the length is shifted out, octet by octet. -/
def derLengthOctets (n : ℕ) : ℕ := if n = 0 then 0 else derLengthOctets (n / 256) + 1

/-- `derLengthLen`. -/
def derLengthLen (n : ℕ) : ℕ := if n < 0x80 then 1 else 1 + derLengthOctets n

/-- `derInt.contentLen`, for a stripped magnitude. -/
def derContentLen (raw : Bytes) : ℕ :=
  match raw with
  | [] => 1
  | b :: _ => if b &&& 0x80 ≠ 0 then raw.length + 1 else raw.length

/-- `derInt.encodedLen`. -/
def derEncodedLen (raw : Bytes) : ℕ := 1 + derLengthLen (derContentLen raw) + derContentLen raw

/-- `derWriter.putByte`. -/
def putByte (v : UInt8) : Write := .fixed [v]

/-- `derWriter.putLength`. -/
def putLength (n : ℕ) : List Write :=
  if n < 0x80 then [putByte (UInt8.ofNat n)]
  else putByte (0x80 ||| UInt8.ofNat (derLengthOctets n)) ::
    (List.range (derLengthOctets n)).reverse.map fun i => putByte (UInt8.ofNat (n >>> (8 * i)))

/-- `derWriter.putInteger`. -/
def putInteger (raw : Bytes) : List Write :=
  putByte 0x02 :: putLength (derContentLen raw) ++
    match raw with
    | [] => [putByte 0]
    | b :: _ => if b &&& 0x80 ≠ 0 then [putByte 0, .copy raw] else [.copy raw]

/-- The integers of the structure, or what is wrong with those of the file. -/
def pkcs1Fields (n e d p q iqmp : Bytes) : Except Err (List Bytes) := do
  let n := stripZeros n
  let e := stripZeros e
  let d := stripZeros d
  let p := stripZeros p
  let q := stripZeros q
  let iqmp := stripZeros iqmp
  demand (n ≠ [] ∧ e ≠ [] ∧ d ≠ [] ∧ p ≠ [] ∧ q ≠ [] ∧ iqmp ≠ []) errMalformed
  checkRSAIntegers n e d p q [iqmp]
  -- the stack arrays are sliced to the lengths of the primes
  demand (p.length ≤ rsaMaxPrimeBits / 8 ∧ q.length ≤ rsaMaxPrimeBits / 8) errPanic
  let pm1 ← require errMalformed (decrementBE p)
  let qm1 ← require errMalformed (decrementBE q)
  demand (stripZeros pm1 ≠ [] ∧ stripZeros qm1 ≠ []) errMalformed
  let dp ← require errMalformed (reduceMod d pm1)
  let dq ← require errMalformed (reduceMod d qm1)
  .ok [[], n, e, d, p, q, stripZeros dp, stripZeros dq, iqmp]

/-- The length of the contents. -/
def pkcs1Content (fields : List Bytes) : ℕ := (fields.map derEncodedLen).sum

/-- The size the buffer is asked for. -/
def pkcs1Total (fields : List Bytes) : ℕ :=
  1 + derLengthLen (pkcs1Content fields) + pkcs1Content fields

/-- The writes into it. -/
def pkcs1Writes (fields : List Bytes) : List Write :=
  putByte 0x30 :: putLength (pkcs1Content fields) ++ fields.flatMap putInteger

/-- `pkcs1DER`. -/
def pkcs1DER (n e d p q iqmp : Bytes) : Call Buf := do
  let fields ← Op.lift (pkcs1Fields n e d p q iqmp)
  let out ← (newEmptyBuffer E (pkcs1Total fields)).mapError
    (Err.after "allocate RSA key buffer: ")
  (do
    let dst ← borrow out
    let w ← Op.lift (require errPanic (Writer.run ⟨dst, 0⟩ (pkcs1Writes fields)))
    store out w.b
    Op.lift (demand (w.n = dst.length)
      (errMalformed.then_ ": internal DER size mismatch"))).orRelease out
  return out

/-! ## The private block -/

/-- A signer, or the structure to make an RSA signer of. -/
inductive Opened
  | signer (s : Signer)
  | der (blob : Buf)
  deriving DecidableEq, Repr

def Opened.buf : Opened → Buf
  | signer s => s.buf
  | der b => b

def errBlocksDisagree : Err := errMalformed.then_ ": public and private key blocks disagree"

/-- The key types the private-block parser handles, with the curve for ECDSA. -/
inductive KeyType
  | ed25519
  | ecdsa (curve : Curve) (curveName : Bytes)
  | rsa
  deriving DecidableEq, Repr

/-- The key type a name stands for. -/
def keyTypeByName (name : Bytes) : Option KeyType :=
  if name = ascii "ssh-ed25519" then some .ed25519
  else if name = ascii "ecdsa-sha2-nistp256" then some (.ecdsa .p256 (ascii "nistp256"))
  else if name = ascii "ecdsa-sha2-nistp384" then some (.ecdsa .p384 (ascii "nistp384"))
  else if name = ascii "ecdsa-sha2-nistp521" then some (.ecdsa .p521 (ascii "nistp521"))
  else if name = ascii "ssh-rsa" then some .rsa
  else none

def errKeyType (name : Bytes) : Err :=
  errUnsupportedKey.then_ (": OpenSSH key type " ++ labelForError name)

/-- The private block's key type, with what follows it there and in the public block. -/
def readBlockType (privBlock pubBlob : Bytes) : Except Err (KeyType × Bytes × Bytes) := do
  let (check1, p) ← require errMalformed (uint32 privBlock)
  let (check2, p) ← require errMalformed (uint32 p)
  demand (check1 = check2) errCheckMismatch
  let (keyType, p) ← require errMalformed (sshStr p)
  let (pubType, pub) ← require errBlocksDisagree (sshStr pubBlob)
  demand (pubType = keyType) errBlocksDisagree
  let t ← require (errKeyType keyType) (keyTypeByName keyType)
  .ok (t, p, pub)

/-- string pub(32) | string priv(64 = seed || pub) | string comment | pad, and the public key of
the public block: the seed and the key. -/
def readEd25519 (p pub : Bytes) (blockSize : ℕ) : Except Err (Bytes × Bytes) := do
  let (pk, p) ← require errMalformed (sshStr p)
  let (sk, p) ← require errMalformed (sshStr p)
  let (_, p) ← require errMalformed (sshStr p)
  demand (pk.length = 32 ∧ sk.length = 64) errMalformed
  checkOpenSSHPadding p blockSize
  let (pubKey, _) ← require errBlocksDisagree (sshStr pub)
  demand (pubKey = pk ∧ sk.drop 32 = pk) errBlocksDisagree
  .ok (sk.take 32, pk)

/-- string curve | string Q | mpint d | string comment | pad, and the public block's curve and
point: the scalar and the point. -/
def readECDSA (name p pub : Bytes) (blockSize : ℕ) : Except Err (Bytes × Bytes) := do
  let (curveName, p) ← require errMalformed (sshStr p)
  let (q, p) ← require errMalformed (sshStr p)
  let (d, p) ← require errMalformed (sshStr p)
  let (_, p) ← require errMalformed (sshStr p)
  checkOpenSSHPadding p blockSize
  demand (curveName = name) errMalformed
  let (pubCurve, pub) ← require errBlocksDisagree (sshStr pub)
  let (pubQ, _) ← require errBlocksDisagree (sshStr pub)
  demand (pubCurve = curveName ∧ pubQ = q) errBlocksDisagree
  .ok (d, q)

/-- The integers of an RSA key. -/
structure RSAFields where
  n : Bytes
  e : Bytes
  d : Bytes
  iqmp : Bytes
  prime1 : Bytes
  prime2 : Bytes

/-- mpint n | mpint e | mpint d | mpint iqmp | mpint p | mpint q | string comment | pad, and the
public block's e and n. -/
def readRSA (p pub : Bytes) (blockSize : ℕ) : Except Err RSAFields := do
  let (n, p) ← require errMalformed (sshStr p)
  let (e, p) ← require errMalformed (sshStr p)
  let (d, p) ← require errMalformed (sshStr p)
  let (iqmp, p) ← require errMalformed (sshStr p)
  let (prime1, p) ← require errMalformed (sshStr p)
  let (prime2, p) ← require errMalformed (sshStr p)
  let (_, p) ← require errMalformed (sshStr p)
  checkOpenSSHPadding p blockSize
  let (pubE, pub) ← require errBlocksDisagree (sshStr pub)
  let (pubN, _) ← require errBlocksDisagree (sshStr pub)
  demand (stripZeros pubE = stripZeros e ∧ stripZeros pubN = stripZeros n) errBlocksDisagree
  .ok ⟨n, e, d, iqmp, prime1, prime2⟩

/-- `parseOpenSSHPrivateBlock`. -/
def parseOpenSSHPrivateBlock (privBlock pubBlob : Bytes) (blockSize : ℕ) : Call Opened := do
  let (t, p, pub) ← Op.lift (readBlockType privBlock pubBlob)
  match t with
  | .ed25519 => do
    let (seed, pk) ← Op.lift (readEd25519 p pub blockSize)
    let s ← ed25519FromSeed E seed (some pk)
    return .signer s
  | .ecdsa curve name => do
    let (d, q) ← Op.lift (readECDSA name p pub blockSize)
    let s ← ecdsaFromScalar E o d curve (some q)
    return .signer s
  | .rsa => do
    let f ← Op.lift (readRSA p pub blockSize)
    let der ← pkcs1DER E f.n f.e f.d f.prime1 f.prime2 f.iqmp
    return .der der

/-- What an opened container comes to. -/
def Opened.finish : Opened → Call Signer
  | .signer s => return s
  | .der blob => rsaFromDER E o blob

/-- The checks of `parseOpenSSH` before the private block is read. -/
def admitPlain (b : Bytes) : Except Err OpensshHeader := do
  let h ← readOpenSSHHeader b
  demand (h.cipher = opensshCipherNone) errEncryptedKey
  demand (h.rest = []) (errMalformed.then_ ": trailing bytes after the OpenSSH container")
  demand (h.numKeys = 1)
    (errUnsupportedKey.then_ (": OpenSSH file holds " ++ toString h.numKeys ++ " keys, want 1"))
  demand (h.privBlock ≠ [] ∧ h.privBlock.length % opensshNoneBlock = 0)
    (errMalformed.then_ ": private block is not a multiple of the cipher block size")
  .ok h

/-- `parseOpenSSH`. -/
def parseOpenSSH (blob : Buf) : Call Signer := do
  let opened ← (do
    let b ← borrow blob
    let h ← Op.lift (admitPlain b)
    parseOpenSSHPrivateBlock E o h.privBlock h.pubBlob opensshNoneBlock).andRelease blob
  opened.finish E o

end Secmem.Crypto
