import Secmem.Crypto.BcryptPbkdf
import Secmem.Crypto.Pbes2

/-!
# `ParsePrivateKeyWithPassphrase`

`parse_encrypted.go`, with `opensshCrypt` of `marshal_openssh.go`: the protected containers.  What
can be decided without the passphrase is decided before the key derivation; `admitEncrypted` is
that part for an OpenSSH container, as `readPBES2` is for PKCS#8.
-/

namespace Secmem.Crypto

open Ownership Der ByteStrings

variable [Cryptobyte] (E : Env) (o : Options)

/-! ## The OpenSSH ciphers -/

/-- The size of the workspace of `bcryptpbkdf`: the Blowfish schedule, two digests, two blocks
and the reserve for the salt. -/
def bcryptWorkspace : ℕ := 4168 + 2 * 64 + 2 * 32 + 64

/-- The scratch buffer of `opensshCrypt`. -/
def scratchSize : ℕ := bcryptWorkspace + (chachaOpenSSHKeyLen + 16) + cipherScratch

/-- `opensshCrypt`: the result of the cipher under the key and the IV that the passphrase gives. -/
def opensshCrypt (src tag passphrase salt : Bytes) (rounds : ℕ) (mode : OpensshCipher)
    (decrypt : Bool) : Call Bytes :=
  withScratch E scratchSize do
    Op.lift (BcryptPbkdf.check (mode.keyLen + mode.ivLen) passphrase salt rounds)
    Op.emit .derive
    let kiv := (E.bcrypt passphrase salt rounds (mode.keyLen + mode.ivLen)).val
    if mode = .chaCha20Poly1305 then
      if decrypt = false then
        .fail (errUnsupportedKey.then_ ": chacha20-poly1305 for encryption")
      else match E.chachaOpen src tag kiv with
        | none => .fail (.of .incorrectPassword)
        | some plain => return plain.val
    else do
      let key := kiv.take mode.keyLen
      let iv := kiv.drop mode.keyLen
      Op.lift (checkAESKey key)
      if mode.cbc = true then
        if decrypt = false then
          let e := errUnsupportedKey.then_ ": CBC for encryption"
          .fail (match E.wipeAES with
            | some text => e.join (.new text)
            | none => e)
        else Op.lift (wipeAESBlock E (cbcPlain (E.aesDecrypt key) (src.length / 16) iv src))
      else Op.lift (wipeAESBlock E (ctrText (E.aesEncrypt key) iv src))

/-! ## The protected OpenSSH container -/

/-- `admitOpenSSHKeyType`. -/
def admitOpenSSHKeyType (pubBlob : Bytes) : Except Err Unit := do
  let (keyType, _) ← require (errMalformed.then_ ": public key block") (sshStr pubBlob)
  match keyTypeByName keyType with
  | some .ed25519 => .ok ()
  | some (.ecdsa _ _) => checkHeapTransients E o "secmemcrypto: new ecdsa signer"
  | some .rsa => checkHeapTransients E o "secmemcrypto: new rsa signer"
  | none => .error (errKeyType keyType)

/-- What is to be decrypted, once everything about it has been checked. -/
structure Sealed where
  mode : OpensshCipher
  salt : Bytes
  rounds : ℕ
  pubBlob : Bytes
  privBlock : Bytes
  tag : Bytes
  deriving DecidableEq, Repr

/-- string salt | uint32 rounds. -/
def readKDFOpts (kdfOpts : Bytes) : Except Err (Bytes × ℕ) := do
  let bad := errMalformed.then_ ": bcrypt KDF options"
  let (salt, rest) ← require bad (sshStr kdfOpts)
  let (rounds, rest) ← require bad (uint32 rest)
  demand (rest = [] ∧ salt ≠ [] ∧ rounds ≠ 0) bad
  demand (salt.length ≤ BcryptPbkdf.maxSaltLen)
    (errMalformed.then_ (": bcrypt KDF salt of " ++ toString salt.length ++ " bytes exceeds " ++
      toString BcryptPbkdf.maxSaltLen))
  demand (rounds ≤ opensshMaxRounds)
    (errUnsupportedKey.then_ (": bcrypt KDF rounds " ++ toString rounds ++
      " exceed the maximum " ++ toString opensshMaxRounds ++ " this parser will run"))
  .ok (salt, rounds)

/-- The checks of `parseOpenSSHEncrypted` before the key derivation. -/
def admitEncrypted (b : Bytes) : Except Err Sealed := do
  let h ← readOpenSSHHeader b
  demand (h.cipher ≠ opensshCipherNone) errNotEncrypted
  demand (h.kdf = opensshKDFBcrypt)
    (errUnsupportedKey.then_ (": OpenSSH KDF " ++ labelForError h.kdf))
  let mode ← require (errUnsupportedKey.then_ (": OpenSSH cipher " ++ labelForError h.cipher))
    (opensshCipherByName h.cipher)
  demand (h.rest.length = mode.tagLen)
    (errMalformed.then_ (": " ++ toString h.rest.length ++ " bytes follow the encrypted block, " ++
      "want " ++ toString mode.tagLen ++ " for this cipher's authenticator"))
  demand (h.numKeys = 1)
    (errUnsupportedKey.then_ (": OpenSSH file holds " ++ toString h.numKeys ++ " keys, want 1"))
  let (salt, rounds) ← readKDFOpts h.kdfOpts
  demand (h.privBlock ≠ [] ∧ h.privBlock.length % mode.blockLen = 0)
    (errMalformed.then_ ": encrypted block is not a multiple of the cipher block size")
  admitOpenSSHKeyType E o h.pubBlob
  .ok ⟨mode, salt, rounds, h.pubBlob, h.privBlock, h.rest⟩

/-- What is reported for a failure of the cipher: the authenticator's is the passphrase's. -/
def cryptVerdict (e : Err) : Err := if e.Is .incorrectPassword then errOpenSSHDecrypt else e

/-- The decryption of a private block and its parse, in a buffer for the plaintext. -/
def openSealed (c : Sealed) (passphrase : Bytes) : Call Opened := do
  let plain ← (newEmptyBuffer E c.privBlock.length).mapError (Err.after "allocate key buffer: ")
  (do
    let p ← (opensshCrypt E c.privBlock c.tag passphrase c.salt c.rounds c.mode true).mapError
      cryptVerdict
    store plain p
    (parseOpenSSHPrivateBlock E o p c.pubBlob c.mode.blockLen).mapError
      fun _ => errOpenSSHDecrypt).andRelease plain

/-- `parseOpenSSHEncrypted`. -/
def parseOpenSSHEncrypted (blob : Buf) (passphrase : Bytes) : Call Signer := do
  let opened ← (do
    let b ← borrow blob
    let c ← Op.lift (admitEncrypted E o b)
    openSealed E o c passphrase).andRelease blob
  match opened with
  | .signer s => return s
  | .der blob => (rsaFromDER E o blob).mapError fun _ => errOpenSSHDecrypt

/-! ## Entry point -/

/-- `derIsEncrypted`. -/
def derIsEncrypted (data : Bytes) : Except Err Unit := do
  let (seq, _) ← require errMalformed (readASN1 SEQUENCE data)
  let (e, _) ← require errMalformed (readElement seq)
  if e.tag = INTEGER then .error errNotEncrypted
  else if e.tag = SEQUENCE then .ok ()
  else .error errMalformed

/-- The two containers that can be protected. -/
inductive Container
  | openSSH
  | pkcs8
  deriving DecidableEq, Repr

/-- The container of a PEM block, as `parseEncryptedPrivateKey` sees it. -/
def pemContainer (typ : Bytes) : Except Err Container :=
  if typ = opensshPEMType then .ok .openSSH
  else if typ = ascii "ENCRYPTED PRIVATE KEY" then .ok .pkcs8
  else if typ = ascii "PRIVATE KEY" ∨ typ = ascii "EC PRIVATE KEY" ∨ typ = ascii "RSA PRIVATE KEY"
    then .error errNotEncrypted
  else .error (errPEMType typ)

/-- The PEM block of a file, and its container. -/
def pemEncrypted (data : Bytes) : Except Err (Container × Bytes) :=
  match pemBlock data with
  | .error e =>
    if e.Is .errEncryptedKey then .error (errUnsupportedKey.and errLegacyPEM) else .error e
  | .ok (typ, body) => do
    let c ← pemContainer typ
    .ok (c, body)

/-- The first half of `parseEncryptedPrivateKey`: locates the container and puts it into a
buffer. -/
def locateEncrypted (data : Bytes) : Call (Container × Buf) :=
  if opensshMagic.isPrefixOf data = true then do
    let blob ← copyToBuffer E data
    return (.openSSH, blob)
  else if looksLikeDER data = true then do
    Op.lift (derIsEncrypted data)
    let blob ← copyToBuffer E data
    return (.pkcs8, blob)
  else if contains data pemBegin = true then do
    let (c, body) ← Op.lift (pemEncrypted data)
    let blob ← decodePEMBody E body
    return (c, blob)
  else .fail errNotAnyContainer

/-- The parser for a container. -/
def parseContainer (c : Container) (blob : Buf) (passphrase : Bytes) : Call Signer :=
  match c with
  | .openSSH => parseOpenSSHEncrypted E o blob passphrase
  | .pkcs8 => parsePKCS8Encrypted E o blob passphrase

/-- `parseEncryptedPrivateKey`. -/
def parseEncryptedPrivateKey (data passphrase : Bytes) : Call Signer := do
  let (c, blob) ← locateEncrypted E data
  parseContainer E o c blob passphrase

/-- `ParsePrivateKeyWithPassphrase`. -/
def parsePrivateKeyWithPassphrase (data passphrase : Bytes) (opts : List Opt) : Call Signer :=
  if data = [] then .fail (.new "secmemcrypto: parse private key: empty input")
  else if passphrase = [] then .fail (.new "secmemcrypto: parse private key: empty passphrase")
  else (parseEncryptedPrivateKey E (resolveOptions opts) data passphrase).mapError
    (Err.after "secmemcrypto: parse private key: ")

end Secmem.Crypto
