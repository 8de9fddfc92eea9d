import Secmem.Framework.Base64
import Secmem.Crypto.OpenSSH

/-!
# `ParsePrivateKey`

The unprotected containers: PEM armour, bare DER and the OpenSSH container, and the DER
structures in them.  A file is told apart by its first bytes: the OpenSSH magic, a DER SEQUENCE
that spans the input exactly, and otherwise a PEM block anywhere in the text.

Each parser takes over the buffer it is given and lets go of it on every path, but for RSA, where
the buffer becomes the signer's.
-/

namespace Secmem.Crypto

open Ownership Der ByteStrings

variable [Cryptobyte]

/-! ## PEM -/

def pemBegin : Bytes := ascii "-----BEGIN "
def pemEnd : Bytes := ascii "-----END "
def pemDashes : Bytes := ascii "-----"

/-- `splitLine`. -/
def splitLine (b : Bytes) : Option (Bytes × Bytes) :=
  (cut [10] b).map fun x => (trimCR x.1, x.2)

/-- The headers of a PEM block: whether one of them means encryption, how many there are, and
the body.  At most `fuel` lines are read. -/
def pemHeaders : ℕ → (encrypted : Bool) → (headers : ℕ) → Bytes → Except Err (Bool × ℕ × Bytes)
  | 0, _, _, _ => .error (errMalformed.then_ ": truncated PEM block")
  | fuel + 1, encrypted, headers, rest =>
    match splitLine rest with
    | none => .error (errMalformed.then_ ": truncated PEM block")
    | some (line, after) =>
      match cut [58] line with
      | some (name, _) =>
        let name := trimSpace name
        let enc := equalFold name (ascii "Proc-Type") || equalFold name (ascii "DEK-Info")
        pemHeaders fuel (encrypted || enc) (headers + 1) after
      | none =>
        .ok (encrypted, headers, if 0 < headers ∧ trimSpace line = [] then after else rest)

/-- `pemBlock`. -/
def pemBlock (data : Bytes) : Except Err (Bytes × Bytes) := do
  let (_, rest) ← require (errMalformed.then_ ": no PEM block") (cut pemBegin data)
  let (typ, rest) ← require (errMalformed.then_ ": unterminated PEM header") (cut pemDashes rest)
  let (_, rest) ← require (errMalformed.then_ ": truncated PEM block") (splitLine rest)
  let (encrypted, headers, rest) ← pemHeaders (rest.length + 1) false 0 rest
  demand (encrypted = false) (errEncryptedKey.and errLegacyPEM)
  demand (headers = 0) (errUnsupportedKey.then_ ": PEM headers")
  let (body, footer) ← require (errMalformed.then_ ": no PEM footer") (cut pemEnd rest)
  demand ((typ ++ pemDashes).isPrefixOf footer = true)
    (errMalformed.then_ ": PEM footer does not match header")
  .ok (typ, body)

variable (E : Env) (o : Options)

/-- What `decodePEMBody` makes of a failure after the allocation. -/
def malformedBody (e : Err) : Err := if e.Is .errMalformed then e else errMalformed.and e

/-- `decodePEMBody`. -/
def decodePEMBody (body : Bytes) : Call Buf := do
  let body := trimSpace body
  let n := Base64.decodedLen body.length
  let empty := errMalformed.then_ ": empty PEM body"
  Op.lift (demand (n ≠ 0) empty)
  let blob ← (newEmptyBuffer E n).mapError (Err.after "allocate key buffer: ")
  ((do
    let dst ← borrow blob
    match Base64.decode body with
    | .error off => .fail (.new ("illegal base64 data at input byte " ++ toString off))
    | .ok out => do
      store blob (overlay dst out 0)
      Op.lift (demand (out.length ≠ 0) empty)
      truncate blob out.length).mapError malformedBody).orRelease blob
  return blob

/-- `copyToBuffer`. -/
def copyToBuffer (data : Bytes) : Call Buf := do
  let blob ← (newEmptyBuffer E data.length).mapError (Err.after "allocate key buffer: ")
  (copyIn blob data 0).orRelease blob
  return blob

/-! ## Object identifiers -/

def oidRSA : ObjectIdentifier := [1, 2, 840, 113549, 1, 1, 1]
def oidECPublicKey : ObjectIdentifier := [1, 2, 840, 10045, 2, 1]
def oidEd25519 : ObjectIdentifier := [1, 3, 101, 112]
def oidX25519 : ObjectIdentifier := [1, 3, 101, 110]
def oidP224 : ObjectIdentifier := [1, 3, 132, 0, 33]
def oidP256 : ObjectIdentifier := [1, 2, 840, 10045, 3, 1, 7]
def oidP384 : ObjectIdentifier := [1, 3, 132, 0, 34]
def oidP521 : ObjectIdentifier := [1, 3, 132, 0, 35]
def oidPBES2 : ObjectIdentifier := [1, 2, 840, 113549, 1, 5, 13]
def oidDESEDE3CBC : ObjectIdentifier := [1, 2, 840, 113549, 3, 7]
def oidRC2CBC : ObjectIdentifier := [1, 2, 840, 113549, 3, 2]
def oidDESCBC : ObjectIdentifier := [1, 3, 14, 3, 2, 7]
def oidPBES1Arc : ObjectIdentifier := [1, 2, 840, 113549, 1, 5]
def oidPKCS12PBEArc : ObjectIdentifier := [1, 2, 840, 113549, 1, 12, 1]

/-- `curveFromOID`. -/
def curveFromOID (oid : ObjectIdentifier) : Option Curve :=
  if oid = oidP256 then some .p256
  else if oid = oidP384 then some .p384
  else if oid = oidP521 then some .p521
  else if oid = oidP224 then some .p224
  else none

/-- The last arc of an identifier one below `arc`. -/
def below (arc oid : ObjectIdentifier) : Option ℕ :=
  if oid.length = arc.length + 1 ∧ oid.take arc.length = arc then oid[arc.length]? else none

/-- `oidIsRetiredPBE`. -/
def oidIsRetiredPBE (oid : ObjectIdentifier) : Bool :=
  match below oidPBES1Arc oid with
  | some last => [1, 3, 4, 6, 10, 11].contains last
  | none => match below oidPKCS12PBEArc oid with
    | some last => 1 ≤ last && last ≤ 6
    | none => false

/-- The ciphers of PBES2 that are refused for good. -/
def oidIsRetiredCipher (oid : ObjectIdentifier) : Bool :=
  oid == oidDESEDE3CBC || oid == oidRC2CBC || oid == oidDESCBC

/-! ## Encrypted structures, as the plain entry point sees them -/

/-- The algorithm an `EncryptedPrivateKeyInfo` names, with its parameters. -/
def encryptionAlgorithm (der : Bytes) : Option (ObjectIdentifier × Bytes) := do
  let (seq, _) ← readASN1 SEQUENCE der
  let (alg, _) ← readASN1 SEQUENCE seq
  readASN1ObjectIdentifier alg

/-- The cipher of PBES2 parameters. -/
def encryptionScheme (alg : Bytes) : Option ObjectIdentifier := do
  let (params, _) ← readASN1 SEQUENCE alg
  let (_, params) ← readASN1 SEQUENCE params
  let (scheme, _) ← readASN1 SEQUENCE params
  let (oid, _) ← readASN1ObjectIdentifier scheme
  some oid

/-- `encryptedPKCS8Error`. -/
def encryptedPKCS8Error (der : Bytes) : Err :=
  match encryptionAlgorithm der with
  | none => errEncryptedKey
  | some (oid, alg) =>
    if oidIsRetiredPBE oid = true then errEncryptedKey.and errRetiredPBE
    else if oid ≠ oidPBES2 then errEncryptedKey
    else match encryptionScheme alg with
      | none => errEncryptedKey
      | some oid =>
        if oidIsRetiredCipher oid = true then errEncryptedKey.and errRetiredPBES2Cipher
        else errEncryptedKey

/-- `isEncryptedPrivateKeyInfo`. -/
def isEncryptedPrivateKeyInfo (der : Bytes) : Bool :=
  ((do
    let (seq, _) ← readASN1 SEQUENCE der
    let (alg, seq) ← readASN1 SEQUENCE seq
    let _ ← readASN1 OBJECT_IDENTIFIER alg
    let (_, seq) ← readASN1 OCTET_STRING seq
    if seq = [] then some () else none : Option Unit)).isSome

/-! ## SEC 1 -/

/-- The fields of an `ECPrivateKey`. -/
structure SEC1 where
  scalar : Bytes
  curve : Curve
  pub : Option Bytes
  deriving DecidableEq, Repr

/-- The curve of an `ECPrivateKey`: the one its parameters name, which must be the enclosing
structure's if there is one. -/
def sec1Curve (params : Option Bytes) (curve : Option Curve) : Except Err Curve :=
  match params with
  | none => require (errUnsupportedKey.then_ ": EC key names no curve") curve
  | some params => do
    let (curveOID, _) ← require (errUnsupportedKey.then_ ": EC parameters are not a named curve")
      (readASN1ObjectIdentifier params)
    let named ← require (errUnsupportedKey.then_ (": EC curve " ++ oidForError curveOID))
      (curveFromOID curveOID)
    demand (curve = none ∨ curve = some named)
      (errMalformed.then_ ": curve in PKCS#8 header disagrees with SEC 1 parameters")
    .ok named

/-- The part of `ecdsaFromSEC1` that reads. -/
def readSEC1 (der : Bytes) (curve : Option Curve) : Except Err SEC1 := do
  let (seq, rest) ← require errMalformed (readASN1 SEQUENCE der)
  demand (rest = []) errMalformed
  let (version, seq) ← require errMalformed (readASN1Integer seq)
  demand (version = 1) errMalformed
  let (d, seq) ← require errMalformed (readASN1 OCTET_STRING seq)
  let (params, seq) ← require errMalformed
    (readOptionalASN1 (constructed (contextSpecific 0)) seq)
  let curve ← sec1Curve params curve
  let (pubWrap, seq) ← require errMalformed
    (readOptionalASN1 (constructed (contextSpecific 1)) seq)
  let innerPub ← match pubWrap with
    | none => .ok none
    | some wrap => do
      let (pub, _) ← require errMalformed (readASN1BitStringAsBytes wrap)
      .ok (some pub)
  demand (seq = []) errMalformed
  .ok ⟨d, curve, innerPub⟩

/-- `ecdsaFromSEC1`. -/
def ecdsaFromSEC1 (der : Bytes) (curve : Option Curve) (outerPub : Option Bytes) :
    Call Signer := do
  let k ← Op.lift (readSEC1 der curve)
  let s ← ecdsaFromScalar E o k.scalar k.curve k.pub
  checkPub s outerPub

/-- `parseSEC1`. -/
def parseSEC1 (blob : Buf) : Call Signer :=
  (do
    let der ← borrow blob
    ecdsaFromSEC1 E o der none none).andRelease blob

/-! ## PKCS#8 -/

/-- The fields of a `PrivateKeyInfo`. -/
structure PrivateKeyInfo where
  oid : ObjectIdentifier
  /-- What follows the identifier in the algorithm. -/
  alg : Bytes
  priv : Bytes
  pub : Option Bytes
  deriving DecidableEq, Repr

/-- The part of `parsePKCS8` that reads. -/
def readPKCS8 (der : Bytes) : Except Err PrivateKeyInfo := do
  let (seq, rest) ← require errMalformed (readASN1 SEQUENCE der)
  demand (rest = []) errMalformed
  let (version, seq) ← require errMalformed (readASN1Integer seq)
  demand (0 ≤ version ∧ version ≤ 1) errMalformed
  let (alg, seq) ← require errMalformed (readASN1 SEQUENCE seq)
  let (oid, alg) ← require errMalformed (readASN1ObjectIdentifier alg)
  let (priv, seq) ← require errMalformed (readASN1 OCTET_STRING seq)
  let seq ← require errMalformed (skipOptionalASN1 (constructed (contextSpecific 0)) seq)
  let (pubBits, seq) ← require errMalformed (readOptionalASN1 (contextSpecific 1) seq)
  let pub ← match pubBits with
    | none => .ok none
    | some bits => do
      demand (version = 1) errMalformed
      match bits with
      | 0 :: pub => .ok (some pub)
      | _ => .error errMalformed
  demand (seq = []) errMalformed
  .ok ⟨oid, alg, priv, pub⟩

/-- The seed of an Ed25519 `PrivateKeyInfo`: an OCTET STRING once more. -/
def readSeed (priv : Bytes) : Except Err Bytes := do
  let (seed, rest) ← require errMalformed (readASN1 OCTET_STRING priv)
  demand (rest = []) errMalformed
  .ok seed

/-- The curve an EC `PrivateKeyInfo` names. -/
def readNamedCurve (alg : Bytes) : Except Err Curve := do
  let (curveOID, _) ← require (errUnsupportedKey.then_ ": EC key without a named curve")
    (readASN1ObjectIdentifier alg)
  require (errUnsupportedKey.then_ (": EC curve " ++ oidForError curveOID))
    (curveFromOID curveOID)

/-- The signer of a `PrivateKeyInfo`; none for RSA, whose signer keeps the structure. -/
def openPKCS8 (k : PrivateKeyInfo) : Call (Option Signer) :=
  if k.oid = oidRSA then return none
  else if k.oid = oidECPublicKey then do
    let curve ← Op.lift (readNamedCurve k.alg)
    let s ← ecdsaFromSEC1 E o k.priv (some curve) k.pub
    return some s
  else if k.oid = oidEd25519 then do
    let seed ← Op.lift (readSeed k.priv)
    let s ← ed25519FromSeed E seed k.pub
    return some s
  else if k.oid = oidX25519 then
    .fail (errUnsupportedKey.then_
      ": X25519 is an agreement key, not a signer (use NewX25519Key)")
  else .fail (errUnsupportedKey.then_ (": PKCS#8 algorithm " ++ oidForError k.oid))

/-- `parsePKCS8`. -/
def parsePKCS8 (blob : Buf) : Call Signer := do
  let s ← (do
    let der ← borrow blob
    let k ← Op.lift (readPKCS8 der)
    openPKCS8 E o k).orRelease blob
  match s with
  | none => rsaFromDER E o blob
  | some s => do
    Op.release blob
    return s

/-! ## Bare DER -/

/-- `looksLikeDER`. -/
def looksLikeDER (data : Bytes) : Bool :=
  match data with
  | 0x30 :: _ :: _ => match readASN1Element SEQUENCE data with
    | some (_, rest) => rest == []
    | none => false
  | _ => false

/-- The element after the version, by which `parseDER` tells the structures apart. -/
def derShape (der : Bytes) : Except Err Tag := do
  let (seq, _) ← require errMalformed (readASN1 SEQUENCE der)
  if peekASN1Tag SEQUENCE seq = true then
    if isEncryptedPrivateKeyInfo der = true then .error (encryptedPKCS8Error der)
    else .error (errUnsupportedKey.then_ ": DER structure is not a private key")
  else do
    let (_, seq) ← require errMalformed (readASN1Integer seq)
    let (e, _) ← require errMalformed (readElement seq)
    .ok e.tag

/-- `parseDER`. -/
def parseDER (blob : Buf) : Call Signer := do
  let next ← (do
    let der ← borrow blob
    Op.lift (derShape der)).orRelease blob
  if next = SEQUENCE then parsePKCS8 E o blob
  else if next = OCTET_STRING then parseSEC1 E o blob
  else if next = INTEGER then rsaFromDER E o blob
  else do
    Op.release blob
    .fail (errMalformed.then_ ": unrecognised DER structure")

/-! ## Entry point -/

def errNotAnyContainer : Err := errMalformed.then_ ": not PEM, OpenSSH, or DER"

def errPEMType (typ : Bytes) : Err :=
  errUnsupportedKey.then_ (": PEM block type " ++ labelForError typ)

/-- The parser for a PEM block of a type. -/
def parsePEM (typ : Bytes) (blob : Buf) : Call Signer :=
  if typ = opensshPEMType then parseOpenSSH E o blob
  else if typ = ascii "PRIVATE KEY" then parsePKCS8 E o blob
  else if typ = ascii "EC PRIVATE KEY" then parseSEC1 E o blob
  else if typ = ascii "RSA PRIVATE KEY" then rsaFromDER E o blob
  else if typ = ascii "ENCRYPTED PRIVATE KEY" then
    (do
      let der ← borrow blob
      .fail (encryptedPKCS8Error der)).andRelease blob
  else do
    Op.release blob
    .fail (errPEMType typ)

/-- `parsePrivateKey`. -/
def parsePrivateKey (data : Bytes) : Call Signer :=
  if opensshMagic.isPrefixOf data = true then do
    let blob ← copyToBuffer E data
    parseOpenSSH E o blob
  else if looksLikeDER data = true then do
    let blob ← copyToBuffer E data
    parseDER E o blob
  else if contains data pemBegin = true then do
    let (typ, body) ← Op.lift (pemBlock data)
    let blob ← decodePEMBody E body
    parsePEM E o typ blob
  else .fail errNotAnyContainer

/-- `ParsePrivateKey`. -/
def parsePrivateKeyCall (data : Bytes) (opts : List Opt) : Call Signer :=
  if data = [] then .fail (.new "secmemcrypto: parse private key: empty input")
  else (parsePrivateKey E (resolveOptions opts) data).mapError
    (Err.after "secmemcrypto: parse private key: ")

end Secmem.Crypto
