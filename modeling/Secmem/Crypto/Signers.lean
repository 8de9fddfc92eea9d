import Secmem.Framework.Ownership
import Secmem.InPlace.Modes
import Secmem.Crypto.Errors

/-!
# Buffers and signers

What the parsers of `secmem-crypto` work with: calls that allocate secure buffers, any of which
the host may refuse, the three kinds of signer, and the constructors that turn a buffer into one.
A signer owns its buffer; a constructor that fails leaves the buffer with its caller.

The size rule of `rsabounds.go` is here because the RSA constructor applies it before it hands a
key to the standard library.
-/

namespace Secmem.Crypto

open Ownership Der

export InPlace (BlockFn opensshAESBlock cipherScratch ctrText cbcPlain pkcs7Unpad)

variable [Cryptobyte]

/-! ## The environment -/

/-- The curves with a signer. -/
inductive Curve
  | p224
  | p256
  | p384
  | p521
  deriving DecidableEq, Repr

/-- `scalarSize`. -/
def scalarSize : Curve → ℕ
  | .p224 => 28
  | .p256 => 32
  | .p384 => 48
  | .p521 => 66

/-- The one-shot hashes that a PBES2 file can name. -/
inductive InPlaceHash
  | hashSHA1
  | hashSHA224
  | hashSHA256
  | hashSHA384
  | hashSHA512
  | hashSHA512_224
  | hashSHA512_256
  deriving DecidableEq, Repr

/-- The functions that the parsers call, and the host's answers: `refuses n` is the error of the
`n`-th allocation, if it fails.  Some are of the standard library.  `bcrypt`, `pbkdf2`, `scrypt` and
`chachaOpen` are the package's own and modelled elsewhere (`BcryptPbkdf`, `InPlace.Pbkdf2`,
`ScryptParams`, `InPlace.ChaCha`); of them the parsers need only how long the result is. -/
structure Env where
  refuses : ℕ → Option Err
  heapTransientsAllowed : Bool
  ed25519Public : (seed : Bytes) → { b : Bytes // b.length = 32 }
  /-- `ecdsa.ParseRawPrivateKey` and the encoding of its public key; an error is a text. -/
  ecdsaPublic : Curve → (scalar : Bytes) → Except String Bytes
  /-- `x509.ParsePKCS1PrivateKey`, with the public half of what it returns. -/
  parsePKCS1PrivateKey : (pkcs1 : Bytes) → Except String Bytes
  /-- `wipeRSAFIPSKey` and `wipeAESBlock`, where the toolchain's layout is not the expected one. -/
  wipeRSA : Option String
  wipeAES : Option String
  bcrypt : (password salt : Bytes) → (rounds n : ℕ) → { b : Bytes // b.length = n }
  pbkdf2 : InPlaceHash → (password salt : Bytes) → (iter n : ℕ) → { b : Bytes // b.length = n }
  scrypt : (password salt : Bytes) → (cost r p n : ℕ) → { b : Bytes // b.length = n }
  aesEncrypt : (key : Bytes) → BlockFn
  aesDecrypt : (key : Bytes) → BlockFn
  /-- The plaintext, if the authenticator verifies. -/
  chachaOpen : (src tag key : Bytes) → Option { b : Bytes // b.length = src.length }

/-- What a call is seen to do besides what it returns: run a key derivation. -/
inductive Event
  | derive
  deriving DecidableEq, Repr

abbrev Call := Op Err Bytes Event

/-- A `*secmem.SecureBuffer`. -/
abbrev Buf := ℕ

/-! ## Options -/

inductive Opt
  | allowHeapTransients
  | nil
  deriving DecidableEq, Repr

/-- `options`, without the buffer options, which only reach the allocator. -/
structure Options where
  allowHeapTransients : Bool := false
  deriving DecidableEq, Repr

/-- `resolveOptions`. -/
def resolveOptions (opts : List Opt) : Options :=
  opts.foldl (fun o opt => match opt with
    | .allowHeapTransients => { o with allowHeapTransients := true }
    | .nil => o) {}

variable (E : Env) (o : Options)

/-- `checkHeapTransients`. -/
def checkHeapTransients (op : String) : Except Err Unit :=
  demand (o.allowHeapTransients = true ∨ E.heapTransientsAllowed = true)
    (((Err.of .errHeapTransients).after (op ++ ": ")).then_
      (" (build with GOEXPERIMENT=runtimesecret on linux/amd64 or linux/arm64, keep the key in " ++
        "an HSM or KMS, or pass AllowHeapTransients to accept the residual)"))

/-! ## Buffers -/

/-- `newEmptyBuffer`. -/
def newEmptyBuffer (size : ℕ) : Call Buf :=
  if size = 0 then .fail (.new "secmem.NewEmptyBuffer: invalid size 0")
  else .request E.refuses (List.replicate size 0)

/-- The contents in a borrow: `WithBytesErr`. -/
def borrow (b : Buf) : Call Bytes := .read errDestroyed b

/-- What a callback has written into a buffer by the time its borrow ends. -/
def store (b : Buf) (contents : Bytes) : Call Unit := .write errDestroyed b contents

/-- `src` over `dst` from `off` on, as far as it fits. -/
def overlay (dst src : Bytes) (off : ℕ) : Bytes :=
  dst.take off ++ src.take (dst.length - off) ++ dst.drop (off + src.length)

/-- `CopyIn`. -/
def copyIn (b : Buf) (src : Bytes) (off : ℕ) : Call Unit := do
  let dst ← borrow b
  if dst.length ≤ off then
    .fail (.new ("secmem.SecureBuffer.CopyIn: dstOffset " ++ toString off ++ " out of range [0, " ++
      toString dst.length ++ ")"))
  else store b (overlay dst src off)

/-- `Truncate`. -/
def truncate (b : Buf) (n : ℕ) : Call Unit := do
  let data ← Op.read (errDestroyed.after "secmem.SecureBuffer.Truncate: ") b
  if data.length < n then
    .fail (.new ("secmem.SecureBuffer.Truncate: n=" ++ toString n ++ " out of range [0, " ++
      toString data.length ++ "]"))
  else store b (data.take n)

/-! ## Signers -/

inductive Signer
  | ed25519 (seedBuf : Buf) (pubKey : Bytes)
  | ecdsa (curve : Curve) (scalarBuf : Buf) (pubBytes : Bytes)
  | rsa (derBuf : Buf) (pub : Bytes)
  deriving DecidableEq, Repr

/-- The buffer a signer owns. -/
def Signer.buf : Signer → Buf
  | ed25519 b _ => b
  | ecdsa _ b _ => b
  | rsa b _ => b

/-- `deriveEd25519PublicKey`. -/
def deriveEd25519PublicKey (seed : Bytes) : Except Err Bytes := do
  demand (seed.length = 32)
    ((Err.of .errBadSeedLength).then_ (": got " ++ toString seed.length ++ ", want 32"))
  .ok (E.ed25519Public seed).val

/-- `newEd25519Signer`. -/
def newEd25519Signer (seedBuf : Buf) : Call Signer := do
  let seed ← Op.read (errDestroyed.after "secmemcrypto: new signer: ") seedBuf
  Op.lift (demand (seed.length = 32)
    ((Err.of .errBadSeedLength).then_ (": got " ++ toString seed.length ++ ", want 32")))
  let pub ← (Op.lift (deriveEd25519PublicKey E seed)).mapError
    (Err.after "secmemcrypto: derive public key: ")
  return .ed25519 seedBuf pub

/-- `newECDSASigner`. -/
def newECDSASigner (curve : Curve) (scalarBuf : Buf) : Call Signer := do
  Op.lift (checkHeapTransients E o "secmemcrypto: new ecdsa signer")
  let scalar ← Op.read (errDestroyed.after "secmemcrypto: new ecdsa signer: ") scalarBuf
  Op.lift (demand (scalar.length = scalarSize curve)
    ((Err.of .errBadScalarLength).then_ (": got " ++ toString scalar.length ++ ", want " ++
      toString (scalarSize curve))))
  match E.ecdsaPublic curve scalar with
  | .error text => .fail (.new ("secmemcrypto: new ecdsa signer: " ++ text))
  | .ok pubBytes => return .ecdsa curve scalarBuf pubBytes

/-! ## RSA sizes -/

def rsaMaxModulusBits : ℕ := 16384
def rsaMaxPrimeBits : ℕ := 8192
def rsaMaxExponentBits : ℕ := 24
def rsaMaxOtherPrimes : ℕ := 3

/-- `stripZeros`. -/
def stripZeros (b : Bytes) : Bytes := b.dropWhile (· == 0)

/-- `bitLen`; the length is below `2 ^ 28` where an `int` has 32 bits, so that the bits can be
counted in one. -/
def bitLen : Bytes → ℕ
  | [] => 0
  | b :: s => s.length * 8 + Nat.size b.toNat

/-- `checkRSAIntegers`, on integers as long as `bitLen` can count. -/
def checkRSAIntegers (n e d p q : Bytes) (crt : List Bytes) : Except Err Unit := do
  demand (bitLen n ≤ rsaMaxModulusBits) (errMalformed.then_ ": RSA modulus too large")
  demand (bitLen d ≤ rsaMaxModulusBits) (errMalformed.then_ ": RSA private exponent too large")
  demand (bitLen p ≤ rsaMaxPrimeBits ∧ bitLen q ≤ rsaMaxPrimeBits)
    (errMalformed.then_ ": RSA prime too large")
  demand (bitLen e ≤ rsaMaxExponentBits ∧ 2 ≤ bitLen e ∧ (e.getLastD 0).toNat % 2 = 1)
    (errMalformed.then_ ": RSA public exponent")
  demand (∀ v ∈ crt, bitLen v ≤ rsaMaxPrimeBits) (errMalformed.then_ ": RSA CRT value too large")

/-- The contents of the OBJECT IDENTIFIER of `rsaEncryption`. -/
def oidRSADER : Bytes := [0x2a, 0x86, 0x48, 0x86, 0xf7, 0x0d, 0x01, 0x01, 0x01]

/-- `locatePKCS1`; nothing for a `PrivateKeyInfo` of another algorithm. -/
def locatePKCS1 (der : Bytes) : Except Err (Option Bytes) := do
  let (seq, _) ← require errNotRSADER (readASN1 SEQUENCE der)
  let (_, seq) ← require errNotRSADER (readASN1 INTEGER seq)
  if peekASN1Tag INTEGER seq = true then .ok (some der)
  else if peekASN1Tag SEQUENCE seq = true then do
    let (alg, seq) ← require errNotRSADER (readASN1 SEQUENCE seq)
    let (oid, _) ← require errNotRSADER (readASN1 OBJECT_IDENTIFIER alg)
    let (priv, _) ← require errNotRSADER (readASN1 OCTET_STRING seq)
    .ok (if oid = oidRSADER then some priv else none)
  else .error errNotRSADER

/-- The INTEGERs at the front, at most `k` of them, as magnitudes. -/
def readIntegers : ℕ → Bytes → Except Err (List Bytes × Bytes)
  | 0, s => .ok ([], s)
  | k + 1, s =>
    if peekASN1Tag INTEGER s = true then do
      let (v, s) ← require errMalformed (readASN1 INTEGER s)
      let (vs, s) ← readIntegers k s
      .ok (stripZeros v :: vs, s)
    else .ok ([], s)

/-- One entry of `otherPrimeInfos`: prime, exponent, coefficient. -/
def checkPrimeInfo : ℕ → Bytes → Except Err Unit
  | 0, info => demand (info = []) errMalformed
  | k + 1, info => do
    let (v, info) ← require errMalformed (readASN1 INTEGER info)
    demand (bitLen (stripZeros v) ≤ rsaMaxPrimeBits) (errMalformed.then_ ": RSA prime too large")
    checkPrimeInfo k info

/-- The `otherPrimeInfos` of a multi-prime key, of which `k` more are admitted. -/
def checkOtherPrimes : ℕ → Bytes → Except Err Unit
  | 0, others => demand (others = [])
      (errMalformed.then_ (": RSA key with more than " ++ toString (2 + rsaMaxOtherPrimes) ++
        " primes"))
  | k + 1, others =>
    if others = [] then .ok ()
    else do
      let (info, others) ← require errMalformed (readASN1 SEQUENCE others)
      checkPrimeInfo 3 info
      checkOtherPrimes k others

/-- `checkPKCS1Size`. -/
def checkPKCS1Size (pkcs1 : Bytes) : Except Err Unit := do
  let (seq, _) ← require errNotRSADER (readASN1 SEQUENCE pkcs1)
  let (_, seq) ← require errNotRSADER (readASN1 INTEGER seq)
  let (ints, seq) ← readIntegers 8 seq
  match ints with
  | n :: e :: d :: p :: q :: crt => do
    checkRSAIntegers n e d p q crt
    if seq = [] then .ok ()
    else do
      let (others, seq) ← require errMalformed (readASN1 SEQUENCE seq)
      demand (seq = []) errMalformed
      checkOtherPrimes rsaMaxOtherPrimes others
  | _ => .error (errMalformed.then_ ": RSA key without its five defining integers")

/-- `rejectNonRSAPKCS8`. -/
def rejectNonRSAPKCS8 (der : Bytes) : Err :=
  let oid : Except Err Bytes := do
    let (seq, _) ← require errNotRSADER (readASN1 SEQUENCE der)
    let (_, seq) ← require errNotRSADER (readASN1 INTEGER seq)
    let (alg, _) ← require errNotRSADER (readASN1 SEQUENCE seq)
    let (oid, _) ← require errNotRSADER (readASN1 OBJECT_IDENTIFIER alg)
    .ok oid
  match oid with
  | .error e => e
  | .ok oid =>
    if oid = [0x2a, 0x86, 0x48, 0xce, 0x3d, 0x02, 0x01] then
      .new ("secmemcrypto: PKCS#8 DER holds an ECDSA key, not RSA (store its raw scalar in a " ++
        "SecureBuffer and use NewECDSASigner)")
    else if oid = [0x2b, 0x65, 0x70] then
      .new ("secmemcrypto: PKCS#8 DER holds an Ed25519 key, not RSA (store its seed in a " ++
        "SecureBuffer and use NewEd25519Signer)")
    else if oid = [0x2b, 0x65, 0x6e] ∨ oid = [0x2b, 0x65, 0x6f] then
      .new ("secmemcrypto: PKCS#8 DER holds an ECDH (X25519/X448) key, not RSA (store its " ++
        "scalar in a SecureBuffer and use X25519Key)")
    else .new "secmemcrypto: PKCS#8 DER holds a key of another algorithm, not RSA"

/-- What `newRSASigner` reads off its buffer: the public key, once the sizes are in order and the
standard library has accepted the structure. -/
def rsaPublic (der : Bytes) : Except Err Bytes := do
  match ← locatePKCS1 der with
  | none => .error (rejectNonRSAPKCS8 der)
  | some pkcs1 => do
    checkPKCS1Size pkcs1
    match E.parsePKCS1PrivateKey pkcs1 with
    | .error text => .error (.new ("secmemcrypto: parse PKCS#1: " ++ text))
    | .ok pub => do
      -- the structure is a slice of its buffer, so only an empty one has no place in it
      let lost := Err.new "secmemcrypto: internal: RSA key not located inside its buffer"
      match E.wipeRSA with
      | some text => .error (if pkcs1 = [] then lost.join (.new text) else .new text)
      | none => if pkcs1 = [] then .error lost else .ok pub

/-- `newRSASigner`. -/
def newRSASigner (derBuf : Buf) : Call Signer := do
  Op.lift (checkHeapTransients E o "secmemcrypto: new rsa signer")
  let der ← Op.read (errDestroyed.after "secmemcrypto: new rsa signer: ") derBuf
  let pub ← (Op.lift (rsaPublic E der)).mapError (Err.after "secmemcrypto: new rsa signer: ")
  return .rsa derBuf pub

/-- `rsaFromDER`. -/
def rsaFromDER (blob : Buf) : Call Signer := (newRSASigner E o blob).orRelease blob

end Secmem.Crypto
