import Secmem.Framework.DerEncoding
import Secmem.Crypto.Marshal
import Secmem.Crypto.Granted

/-!
# A marshalled key parses back

What the marshaller writes is, layer by layer, what the parser reads: the private block, the
container around it, its base64 lines, and the PEM armour.  Each layer has one lemma for what is
written and one for what is read, and the file of a seed parses to a signer that holds that seed,
with the passphrase it was written under or without one.
-/

namespace Secmem.Crypto

open Ownership ByteStrings SliceWriter Holdings
open Op hiding bind

/-! ## Strings and words -/

/-- A string with its length before it. -/
def sshString (s : Bytes) : Bytes := putUint32 s.length ++ s

@[simp] lemma length_sshString (s : Bytes) : (sshString s).length = 4 + s.length := by
  rw [sshString, List.length_append, length_putUint32]

lemma sshStr_sshString {s : Bytes} (hs : s.length < 2 ^ 32) (r : Bytes) :
    sshStr (sshString s ++ r) = some (s, r) := by
  rw [sshString, List.append_assoc, sshStr, uint32_putUint32 hs]
  dsimp only
  rw [if_neg (by simp), List.take_left, List.drop_left]

@[simp] lemma contents_putStr (p : Bytes) : contents (putStr p) = sshString p := by
  simp [putStr, putWord, sshString, Write.content]

/-! ## The container -/

/-- The padding of a private block. -/
def padBytes (n : ℕ) : Bytes := (List.range n).map fun i => UInt8.ofNat (i + 1)

@[simp] lemma length_padBytes (n : ℕ) : (padBytes n).length = n := by simp [padBytes]

lemma contents_padWrites (n : ℕ) : contents (padWrites n) = padBytes n := by
  rw [contents, padWrites, padBytes, List.flatMap_map, List.map_eq_flatMap]
  rfl

/-- The public block. -/
def pubBlock (pubKey : Bytes) : Bytes := sshString opensshKeyEd25519 ++ sshString pubKey

/-- The private block. -/
def privBlock (check pubKey seed comment : Bytes) (padLen : ℕ) : Bytes :=
  check ++ (check ++ (sshString opensshKeyEd25519 ++ (sshString pubKey ++
    (sshString (seed ++ pubKey) ++ (sshString comment ++ padBytes padLen)))))

/-- The container, of its private block. -/
def container (f : Layout) (pubKey block : Bytes) : Bytes :=
  opensshMagic ++ (sshString f.cipherName ++ (sshString f.kdfName ++ (sshString f.kdfOpts ++
    (putUint32 1 ++ (sshString (pubBlock pubKey) ++ sshString block)))))

section Container

variable {f : Layout} {check pubKey seed comment : Bytes}

lemma length_privBlock (hcheck : check.length = 4) (hpub : pubKey.length = 32)
    (hseed : seed.length = 32) :
    (privBlock check pubKey seed comment (f.padLen comment.length)).length =
      f.privPadded comment.length := by
  simp [privBlock, Layout.privPadded, Layout.privLen, sshStrLen, ed25519PublicKeySize,
    ed25519PrivateKeySize, hcheck, hpub, hseed]
  omega

lemma length_pubBlock (hpub : pubKey.length = 32) :
    (pubBlock pubKey).length = Layout.pubBlobLen := by
  simp [pubBlock, Layout.pubBlobLen, sshStrLen, ed25519PublicKeySize, hpub]

lemma length_container (hpub : pubKey.length = 32) {block : Bytes}
    (hblock : block.length = f.privPadded comment.length) :
    (container f pubKey block).length = f.total comment.length := by
  simp [container, Layout.total, sshStrLen, length_pubBlock hpub, hblock]
  omega

lemma contents_blockWrites (hpub : pubKey.length = 32) (hseed : seed.length = 32) :
    contents (blockWrites f check pubKey seed comment) =
      privBlock check pubKey seed comment (f.padLen comment.length) := by
  have hkey : sshString (seed ++ pubKey) = putUint32 ed25519PrivateKeySize ++ (seed ++ pubKey) := by
    rw [sshString, List.length_append, hpub, hseed]
    rfl
  simp [blockWrites, privBlock, contents_padWrites, hkey, Write.content, putWord]

/-- The header and the private block make up the container. -/
lemma contents_headerWrites (hpub : pubKey.length = 32) {block : Bytes}
    (hblock : block.length = f.privPadded comment.length) :
    contents (headerWrites f pubKey comment) ++ block = container f pubKey block := by
  have hpubBlock : sshString (pubBlock pubKey) = putUint32 Layout.pubBlobLen ++
      (sshString opensshKeyEd25519 ++ sshString pubKey) := by
    rw [sshString, length_pubBlock hpub]
    rfl
  have hprivBlock : sshString block = putUint32 (f.privPadded comment.length) ++ block := by
    rw [sshString, hblock]
  simp [headerWrites, container, hpubBlock, hprivBlock, Write.content, putWord]

/-- Writing the container succeeds, its layout check included. -/
lemma writeContainer_eq (hcheck : check.length = 4) (hpub : pubKey.length = 32)
    (hseed : seed.length = 32) {c : Bytes} (hc : c.length = f.total comment.length) :
    writeContainer f check pubKey seed comment c =
      .ok (container f pubKey (privBlock check pubKey seed comment (f.padLen comment.length)),
        (contents (headerWrites f pubKey comment)).length) := by
  set block := privBlock check pubKey seed comment (f.padLen comment.length) with hblock
  have hlen : block.length = f.privPadded comment.length := length_privBlock hcheck hpub hseed
  have hcontainer := contents_headerWrites hpub hlen
  have htotal := length_container hpub hlen
  set header := contents (headerWrites f pubKey comment) with hheader
  have hsum : header.length + block.length = c.length := by
    rw [hc, ← htotal, ← hcontainer, List.length_append]
  have hrest : (c.drop header.length).length = block.length := by
    rw [List.length_drop]
    omega
  have hrun : Writer.run ⟨c, 0⟩ (headerWrites f pubKey comment) =
      some ⟨header ++ c.drop header.length, header.length⟩ := by
    have hroom : (contents (headerWrites f pubKey comment)).length ≤ c.length := by
      rw [← hheader]
      omega
    exact Writer.run_of_room [] hroom
  have hrun' : Writer.run ⟨header ++ c.drop header.length, header.length⟩
      (blockWrites f check pubKey seed comment) =
        some ⟨header ++ block, (header ++ block).length⟩ := by
    rw [Writer.run_of_room header (by rw [contents_blockWrites hpub hseed, ← hblock]; omega),
      contents_blockWrites hpub hseed, ← hblock, ← hrest, List.drop_length, List.append_nil]
  simp only [writeContainer, require, hrun, hrun', bind, Except.bind]
  rw [demand, if_pos (by rw [hcontainer, htotal]), hcontainer]

end Container

/-! ## Reading the container -/

section Reading

variable {f : Layout} {check pubKey seed comment : Bytes}

/-- What the reader makes of a container. -/
def headerOf (f : Layout) (pubKey block : Bytes) : OpensshHeader :=
  ⟨f.cipherName, f.kdfName, f.kdfOpts, 1, pubBlock pubKey, block, []⟩

lemma readOpenSSHFields_container {block : Bytes}
    (hlen : (container f pubKey block).length < 2 ^ 32) :
    readOpenSSHFields ((container f pubKey block).drop opensshMagic.length) =
      some (headerOf f pubKey block) := by
  simp only [container, List.length_append, length_sshString, length_putUint32] at hlen
  have hblock := sshStr_sshString (s := block) (by omega) []
  rw [List.append_nil] at hblock
  rw [container, List.drop_left]
  simp only [readOpenSSHFields, Option.bind_eq_bind]
  rw [sshStr_sshString (by omega), Option.bind_some, sshStr_sshString (by omega), Option.bind_some,
    sshStr_sshString (by omega), Option.bind_some, uint32_putUint32 (by omega), Option.bind_some,
    sshStr_sshString (by omega), Option.bind_some, hblock]
  rfl

lemma readOpenSSHHeader_container {block : Bytes}
    (hlen : (container f pubKey block).length < 2 ^ 32)
    (hnames : f.cipherName = opensshCipherNone ↔ f.kdfName = opensshKDFNone)
    (hopts : f.kdfName = opensshKDFNone → f.kdfOpts = []) :
    readOpenSSHHeader (container f pubKey block) = .ok (headerOf f pubKey block) := by
  have hmagic : opensshMagic.isPrefixOf (container f pubKey block) = true :=
    isPrefixOf_append opensshMagic _
  rw [readOpenSSHHeader, readOpenSSHFields_container hlen]
  simp only [bind_eq_ok, demand_eq_ok, require_eq_ok, Option.some.injEq, Except.ok.injEq]
  exact ⟨(), hmagic, _, rfl, (), hnames, (), hopts, rfl⟩

/-- The check integers agree and the key type is known. -/
lemma readBlockType_privBlock (hcheck : check.length = 4) {body : Bytes} :
    readBlockType (check ++ (check ++ (sshString opensshKeyEd25519 ++ body))) (pubBlock pubKey) =
      .ok (.ed25519, body, sshString pubKey) := by
  obtain ⟨v, hv⟩ : ∃ v, ∀ r, uint32 (check ++ r) = some (v, r) := by
    match check, hcheck with
    | [a, b, c, d], _ => exact ⟨_, fun r => rfl⟩
  have hname : opensshKeyEd25519.length < 2 ^ 32 := by decide
  simp only [readBlockType, pubBlock, bind_eq_ok, require_eq_ok, demand_eq_ok, Prod.exists]
  exact ⟨v, _, hv _, v, _, hv _, (), rfl, _, _, sshStr_sshString hname _, _, _,
    sshStr_sshString hname _, (), rfl, .ed25519, by decide, rfl⟩

lemma checkOpenSSHPadding_padBytes {n blockSize : ℕ} (hn : n < blockSize) (hsize : blockSize ≤ 16) :
    checkOpenSSHPadding (padBytes n) blockSize = .ok () := by
  simp only [checkOpenSSHPadding, bind_eq_ok, demand_eq_ok, length_padBytes]
  refine ⟨(), hn, fun x hx => ?_⟩
  rw [List.mem_zipIdx_iff_getElem?, padBytes, List.getElem?_map, Option.map_eq_some_iff] at hx
  obtain ⟨i, hi, hb⟩ := hx
  obtain ⟨hlt, hi⟩ := List.getElem?_eq_some_iff.mp hi
  rw [List.length_range] at hlt
  rw [List.getElem_range] at hi
  subst hi
  rw [← hb, UInt8.toNat_ofNat', Nat.mod_eq_of_lt (by omega)]

lemma readEd25519_privBlock (hpub : pubKey.length = 32) (hseed : seed.length = 32)
    (hcomment : comment.length < 2 ^ 32) {n blockSize : ℕ} (hn : n < blockSize)
    (hsize : blockSize ≤ 16) :
    readEd25519 (sshString pubKey ++ (sshString (seed ++ pubKey) ++ (sshString comment ++
      padBytes n))) (sshString pubKey) blockSize = .ok (seed, pubKey) := by
  have hlen : (seed ++ pubKey).length = 64 := by rw [List.length_append, hpub, hseed]
  have hown := sshStr_sshString (s := pubKey) (by omega) []
  rw [List.append_nil] at hown
  simp only [readEd25519, bind_eq_ok, require_eq_ok, demand_eq_ok, Prod.exists]
  refine ⟨_, _, sshStr_sshString (by omega) _, _, _, sshStr_sshString (by omega) _, _, _,
    sshStr_sshString hcomment _, (), ⟨hpub, hlen⟩, (), checkOpenSSHPadding_padBytes hn hsize, _, _,
    hown, (), ⟨rfl, ?_⟩, ?_⟩
  · rw [← hseed, List.drop_left]
  · rw [← hseed, List.take_left]

end Reading

/-! ## The signer -/

section Signer

variable {E : Env} {o : Options} {p : Holdings Bytes Event} {seed : Bytes}

/-- A seed becomes a signer that holds it. -/
lemma wp_ed25519FromSeed (hE : E.Grants) (hseed : seed.length = 32)
    {Q : Except Err Signer → Holdings Bytes Event → Prop} :
    (ed25519FromSeed E seed (some (E.ed25519Public seed).val)).wp p Q ↔
      Q (.ok (.ed25519 p.requests (E.ed25519Public seed).val)) (p.grant seed) := by
  have hne : seed ≠ [] := by
    rintro rfl
    cases hseed
  rw [ed25519FromSeed, wp_bind, wp_lift, demand, if_pos hseed]
  rw [wp_bind, wp_newEmptyBuffer hE (by omega)]
  dsimp only
  rw [wp_bind, wp_orRelease,
    wp_copyIn_full (held_grant p _) hne (by rw [List.length_replicate])]
  rw [write_grant, wp_bind, wp_orRelease, newEd25519Signer, wp_bind,
    wp_read (held_grant p seed)]
  dsimp only
  rw [wp_bind, wp_lift, demand, if_pos hseed]
  rw [wp_bind, wp_mapError, wp_lift, deriveEd25519PublicKey, demand, if_pos hseed]
  simp [checkPub, Signer.matches_, bind, Except.bind]

variable {check comment : Bytes} {n blockSize : ℕ}

lemma wp_parseOpenSSHPrivateBlock (hE : E.Grants) (hseed : seed.length = 32)
    (hcheck : check.length = 4) (hcomment : comment.length < 2 ^ 32) (hn : n < blockSize)
    (hsize : blockSize ≤ 16) {Q : Except Err Opened → Holdings Bytes Event → Prop} :
    (parseOpenSSHPrivateBlock E o
        (privBlock check (E.ed25519Public seed).val seed comment n)
        (pubBlock (E.ed25519Public seed).val) blockSize).wp p Q ↔
      Q (.ok (.signer (.ed25519 p.requests (E.ed25519Public seed).val))) (p.grant seed) := by
  rw [parseOpenSSHPrivateBlock, privBlock, wp_bind, wp_lift, readBlockType_privBlock hcheck]
  dsimp only
  rw [wp_bind, wp_lift, readEd25519_privBlock (E.ed25519Public seed).property hseed hcomment
    hn hsize]
  dsimp only
  rw [wp_bind, wp_ed25519FromSeed hE hseed]
  rfl

/-- The result is a signer that holds the seed. -/
def Signs (seed : Bytes) (r : Except Err Signer) (p : Holdings Bytes Event) : Prop :=
  ∃ b pub, r = .ok (.ed25519 b pub) ∧ p.held b = some seed

/-- Letting go of another buffer leaves the signer. -/
lemma signs_release {b blob : Buf} {pub : Bytes} (h : p.held b = some seed) (hne : b ≠ blob) :
    Signs seed (.ok (.ed25519 b pub)) (p.release blob) := by
  refine ⟨b, pub, rfl, ?_⟩
  change Function.update p.held blob none b = some seed
  rw [Function.update_of_ne hne, h]

end Signer

/-! ## Padding -/

section Padding

variable {f : Layout} (hsize : 0 < f.blockSize) (commentLen : ℕ)

include hsize

lemma padLen_lt : f.padLen commentLen < f.blockSize := Nat.mod_lt _ hsize

lemma privPadded_mod : f.privPadded commentLen % f.blockSize = 0 := by
  unfold Layout.privPadded Layout.padLen
  generalize Layout.privLen commentLen = n
  generalize f.blockSize = k at hsize ⊢
  have hlt : n % k < k := Nat.mod_lt n hsize
  have hdiv : k * (n / k) + n % k = n := Nat.div_add_mod n k
  by_cases hzero : n % k = 0
  · rw [hzero, Nat.sub_zero, Nat.mod_self, Nat.add_zero, hzero]
  · have hpad : (k - n % k) % k = k - n % k := Nat.mod_eq_of_lt (by omega)
    have hsum : n + (k - n % k) = k * (n / k + 1) := by
      rw [Nat.mul_add]
      omega
    rw [hpad, hsum, Nat.mul_mod_right]

end Padding

/-! ## Counter mode -/

section Counter

/-- A private block under the key and the IV that a passphrase gives. -/
def ctrBlock (E : Env) (passphrase salt : Bytes) (rounds : ℕ) (block : Bytes) : Bytes :=
  let mode := OpensshCipher.aes256CTR
  let kiv := (E.bcrypt passphrase salt rounds (mode.keyLen + mode.ivLen)).val
  ctrText (E.aesEncrypt (kiv.take mode.keyLen)) (kiv.drop mode.keyLen) block

variable {E : Env} {passphrase salt block : Bytes} {rounds : ℕ}

@[simp] lemma length_ctrBlock :
    (ctrBlock E passphrase salt rounds block).length = block.length := InPlace.length_ctrText ..

lemma ctrBlock_ctrBlock :
    ctrBlock E passphrase salt rounds (ctrBlock E passphrase salt rounds block) = block :=
  InPlace.ctrText_ctrText ..

lemma bcryptCheck_aes256CTR (hpass : passphrase ≠ []) (hsalt : salt.length = opensshSaltLen)
    (hrounds : 1 ≤ rounds) :
    BcryptPbkdf.check (OpensshCipher.keyLen .aes256CTR + OpensshCipher.ivLen .aes256CTR) passphrase
      salt rounds = .ok () :=
  BcryptPbkdf.check_eq_ok (by decide) (by decide) hpass (by rw [hsalt]; decide)
    (by rw [hsalt]; decide) (by exact_mod_cast hrounds)

/-- The cipher of the marshaller, in either direction. -/
lemma wp_opensshCrypt_ctr (hE : E.Grants) (hwipe : E.wipeAES = none) (hpass : passphrase ≠ [])
    (hsalt : salt.length = opensshSaltLen) (hrounds : 1 ≤ rounds) {decrypt : Bool}
    {p : Holdings Bytes Event} {Q : Except Err Bytes → Holdings Bytes Event → Prop} :
    (opensshCrypt E block [] passphrase salt rounds .aes256CTR decrypt).wp p Q ↔
      Q (.ok (ctrBlock E passphrase salt rounds block)) (p.refuse.emit .derive) :=
  wp_opensshCrypt hE hwipe (bcryptCheck_aes256CTR hpass hsalt hrounds)

end Counter

/-! ## Opening the containers -/

section Opening

variable {E : Env} {o : Options} {p : Holdings Bytes Event} {pubKey block : Bytes} {commentLen : ℕ}

/-- A private block is not empty, and a whole number of blocks. -/
lemma privPadded_ok {f : Layout} (hsize : 0 < f.blockSize)
    (hblock : block.length = f.privPadded commentLen) :
    block ≠ [] ∧ block.length % f.blockSize = 0 := by
  constructor
  · rw [← List.length_pos_iff, hblock, Layout.privPadded, Layout.privLen]
    omega
  · rw [hblock, privPadded_mod hsize]

lemma admitPlain_container (hblock : block.length = plainLayout.privPadded commentLen)
    (hlen : (container plainLayout pubKey block).length < 2 ^ 32) :
    admitPlain (container plainLayout pubKey block) = .ok (headerOf plainLayout pubKey block) := by
  have hheader := readOpenSSHHeader_container hlen (by decide) fun _ => rfl
  have hok : block ≠ [] ∧ block.length % opensshNoneBlock = 0 :=
    privPadded_ok (f := plainLayout) (by decide) hblock
  rw [admitPlain, hheader]
  simp only [bind_eq_ok, demand_eq_ok, Except.ok.injEq]
  exact ⟨_, rfl, (), rfl, (), rfl, (), rfl, (), hok, rfl⟩

lemma readKDFOpts_kdfOptions {salt : Bytes} {rounds : ℕ} (hsalt : salt.length = opensshSaltLen)
    (hrounds : 1 ≤ rounds ∧ rounds ≤ opensshMaxRounds) :
    readKDFOpts (kdfOptions salt rounds) = .ok (salt, rounds) := by
  have hopts : kdfOptions salt rounds = sshString salt ++ (putUint32 rounds ++ []) := by
    rw [kdfOptions, sshString, hsalt, List.append_nil]
  have hmax : opensshMaxRounds = 2048 := rfl
  have hlen : salt.length = 16 := hsalt
  have hne : salt ≠ [] := by
    rw [← List.length_pos_iff]
    omega
  have hbound : salt.length ≤ BcryptPbkdf.maxSaltLen := by
    rw [hlen]
    decide
  simp only [readKDFOpts, hopts, bind_eq_ok, require_eq_ok, demand_eq_ok, Prod.exists]
  exact ⟨salt, _, sshStr_sshString (by omega) _, rounds, [], uint32_putUint32 (by omega) _, (),
    ⟨rfl, hne, by omega⟩, (), hbound, (), hrounds.2, rfl⟩

lemma admitEncrypted_container {salt : Bytes} {rounds : ℕ} (hsalt : salt.length = opensshSaltLen)
    (hrounds : 1 ≤ rounds ∧ rounds ≤ opensshMaxRounds)
    (hblock : block.length = (encryptedLayout salt rounds).privPadded commentLen)
    (hlen : (container (encryptedLayout salt rounds) pubKey block).length < 2 ^ 32) :
    admitEncrypted E o (container (encryptedLayout salt rounds) pubKey block) =
      .ok ⟨.aes256CTR, salt, rounds, pubBlock pubKey, block, []⟩ := by
  have hciphers : ¬ opensshCipherCTR = opensshCipherNone := by decide
  have hkdfs : ¬ opensshKDFBcrypt = opensshKDFNone := by decide
  have hheader := readOpenSSHHeader_container (f := encryptedLayout salt rounds) hlen
    (iff_of_false hciphers hkdfs) fun h => absurd h hkdfs
  have hok : block ≠ [] ∧ block.length % OpensshCipher.blockLen .aes256CTR = 0 :=
    privPadded_ok (f := encryptedLayout salt rounds) (Nat.succ_pos 15) hblock
  have hmode : opensshCipherByName opensshCipherCTR = some .aes256CTR := by decide
  have htype : admitOpenSSHKeyType E o (pubBlock pubKey) = .ok () := by
    rw [admitOpenSSHKeyType, pubBlock, sshStr_sshString (by decide)]
    rfl
  rw [admitEncrypted, hheader]
  simp only [bind_eq_ok, demand_eq_ok, require_eq_ok, Prod.exists]
  exact ⟨_, rfl, (), hciphers, (), rfl, .aes256CTR, hmode, (), rfl, (), rfl, salt, rounds,
    readKDFOpts_kdfOptions hsalt hrounds, (), hok, (), htype, rfl⟩

variable [Der.Cryptobyte] {check seed comment : Bytes}

/-- The unencrypted container of a seed opens to a signer that holds it. -/
lemma signs_parseOpenSSH (hE : E.Grants) (hseed : seed.length = 32) (hcheck : check.length = 4)
    (hlen : plainLayout.total comment.length < 2 ^ 32) {blob : Buf}
    (hb : p.held blob = some (container plainLayout (E.ed25519Public seed).val
      (privBlock check (E.ed25519Public seed).val seed comment
        (plainLayout.padLen comment.length)))) :
    (parseOpenSSH E o blob).wp p (Signs seed) := by
  have hpub := (E.ed25519Public seed).property
  have hblock : (privBlock check (E.ed25519Public seed).val seed comment
      (plainLayout.padLen comment.length)).length = plainLayout.privPadded comment.length :=
    length_privBlock hcheck hpub hseed
  have hadmit := admitPlain_container hblock ((length_container hpub hblock).trans_lt hlen)
  have hcomment : comment.length < 2 ^ 32 := by
    simp only [Layout.total, Layout.privPadded, Layout.privLen, sshStrLen] at hlen
    omega
  have hpad : plainLayout.padLen comment.length < opensshNoneBlock :=
    padLen_lt (f := plainLayout) (by decide) _
  rw [parseOpenSSH, wp_bind, wp_andRelease, wp_bind, borrow, wp_read hb]
  dsimp only
  rw [wp_bind, wp_lift, hadmit]
  dsimp only [headerOf]
  rw [wp_parseOpenSSHPrivateBlock hE hseed hcheck hcomment hpad (by decide)]
  exact signs_release (held_grant p seed) (lt_requests hb).ne'

/-- The encrypted container of a seed opens, under its passphrase, to a signer that holds it. -/
lemma signs_parseOpenSSHEncrypted (hE : E.Grants) (hwipe : E.wipeAES = none)
    (hseed : seed.length = 32) (hcheck : check.length = 4) {salt passphrase : Bytes} {rounds : ℕ}
    (hsalt : salt.length = opensshSaltLen) (hrounds : 1 ≤ rounds ∧ rounds ≤ opensshMaxRounds)
    (hpass : passphrase ≠ []) (hlen : (encryptedLayout salt rounds).total comment.length < 2 ^ 32)
    {blob : Buf} (hb : p.held blob =
      some (container (encryptedLayout salt rounds) (E.ed25519Public seed).val
        (ctrBlock E passphrase salt rounds
          (privBlock check (E.ed25519Public seed).val seed comment
            ((encryptedLayout salt rounds).padLen comment.length))))) :
    (parseOpenSSHEncrypted E o blob passphrase).wp p (Signs seed) := by
  have hpub := (E.ed25519Public seed).property
  set block := privBlock check (E.ed25519Public seed).val seed comment
    ((encryptedLayout salt rounds).padLen comment.length) with hblock_def
  set sealed := ctrBlock E passphrase salt rounds block with hsealed
  have hblock : sealed.length = (encryptedLayout salt rounds).privPadded comment.length := by
    rw [hsealed, length_ctrBlock]
    exact length_privBlock hcheck hpub hseed
  have hadmit := admitEncrypted_container (E := E) (o := o) hsalt hrounds hblock
    ((length_container hpub hblock).trans_lt hlen)
  have hcomment : comment.length < 2 ^ 32 := by
    simp only [Layout.total, Layout.privPadded, Layout.privLen, sshStrLen] at hlen
    omega
  have hpad : (encryptedLayout salt rounds).padLen comment.length <
      OpensshCipher.blockLen .aes256CTR :=
    padLen_lt (f := encryptedLayout salt rounds) (Nat.succ_pos 15) _
  have hne : sealed.length ≠ 0 := by
    have h := (privPadded_ok (f := encryptedLayout salt rounds) (Nat.succ_pos 15) hblock).1
    simpa using h
  rw [parseOpenSSHEncrypted, wp_bind, wp_andRelease, wp_bind, borrow, wp_read hb]
  dsimp only
  rw [wp_bind, wp_lift, hadmit]
  dsimp only
  rw [openSealed, wp_bind, wp_newEmptyBuffer hE hne]
  dsimp only
  rw [wp_andRelease, wp_bind, wp_mapError,
    wp_opensshCrypt_ctr hE hwipe hpass hsalt hrounds.1, hsealed, ctrBlock_ctrBlock]
  set q := (p.grant (List.replicate sealed.length 0)).refuse.emit Event.derive
  have hplain : q.held p.requests = some _ := held_grant p _
  dsimp only
  rw [wp_bind, store, wp_write hplain]
  have hrequests : (q.write p.requests block).requests = p.requests + 2 := rfl
  generalize q.write p.requests block = q' at hrequests
  rw [wp_mapError, hblock_def,
    wp_parseOpenSSHPrivateBlock hE hseed hcheck hcomment hpad (by decide)]
  -- the signer's buffer is neither the plaintext's nor the container's
  have hlt := lt_requests hb
  refine ⟨_, _, rfl, ?_⟩
  change Function.update (Function.update (q'.grant seed).held p.requests none) blob none
    q'.requests = some seed
  rw [Function.update_of_ne (by omega), Function.update_of_ne (by omega), held_grant]

end Opening

/-! ## The armour -/

section Armour

variable {src : Bytes}

lemma contents_pemLines (fuel : ℕ) (src : Bytes) :
    contents (pemLines fuel src) = Base64.lines 48 fuel src := by
  induction fuel generalizing src with
  | zero => rfl
  | succ fuel ih =>
    rw [pemLines, Base64.lines]
    split
    · rfl
    · simp [ih, Write.content]

/-- The file of a container. -/
def pemFile (typ src : Bytes) : Bytes :=
  pemBegin ++ (typ ++ (pemDashes ++ ([10] ++ (Base64.lines 48 src.length src ++
    (pemEnd ++ (typ ++ (pemDashes ++ [10])))))))

lemma contents_pemWrites (typ src : Bytes) : contents (pemWrites typ src) = pemFile typ src := by
  simp [pemWrites, pemFile, contents_pemLines, Write.content]

lemma length_pemFile (typ src : Bytes) : (pemFile typ src).length = pemLen typ src.length := by
  simp only [pemFile, pemLen, List.length_append, List.length_singleton,
    Base64.length_lines le_rfl]
  omega

/-- The armour fills its slice, so that the layout check passes. -/
lemma pemEncode_eq {dst typ : Bytes} (hdst : dst.length = pemLen typ src.length) :
    pemEncode dst typ src = .ok (pemFile typ src) := by
  have hfill : (contents (pemWrites typ src)).length = dst.length := by
    rw [contents_pemWrites, length_pemFile, hdst]
  simp only [pemEncode, Writer.run_fill hfill, contents_pemWrites, bind_eq_ok, require_eq_ok,
    demand_eq_ok]
  exact ⟨_, rfl, (), rfl, rfl⟩

lemma wp_armour {E : Env} {p : Holdings Bytes Event} (hE : E.Grants) {cont : Buf}
    (hcont : p.held cont = some src) {Q : Except Err Buf → Holdings Bytes Event → Prop} :
    (armour E cont src.length).wp p Q ↔
      Q (.ok p.requests) (p.grant (pemFile opensshPEMType src)) := by
  have hpos : pemLen opensshPEMType src.length ≠ 0 := by
    rw [pemLen]
    omega
  have hother : cont ≠ p.requests := (lt_requests hcont).ne
  have hread : (p.grant (List.replicate (pemLen opensshPEMType src.length) 0)).held cont =
      some src := by
    change Function.update p.held p.requests _ cont = some src
    rw [Function.update_of_ne hother, hcont]
  rw [armour, wp_bind, wp_newEmptyBuffer hE hpos]
  dsimp only
  rw [wp_bind, wp_orRelease, wp_bind, borrow, wp_read hread]
  dsimp only
  rw [wp_bind, borrow, wp_read (held_grant p _)]
  dsimp only
  rw [wp_bind, wp_lift, pemEncode_eq (by rw [List.length_replicate])]
  dsimp only
  rw [store, wp_write (held_grant p _), write_grant]
  rfl

/-! ### Reading the armour -/

lemma solid_of_plain {c : UInt8} (h : Base64.Plain c) : solid c = true := by
  have hletters : ∀ n < 64, solid (Base64.letter n) = true := by decide
  obtain ⟨n, hn, rfl⟩ | rfl := h
  · exact hletters n hn
  · decide

/-- The encoder writes neither dashes nor colons nor line breaks. -/
lemma ne_of_plain {c : UInt8} (h : Base64.Plain c) : c ≠ 45 ∧ c ≠ 58 ∧ c ≠ 10 := by
  have hletters : ∀ n < 64, Base64.letter n ≠ 45 ∧ Base64.letter n ≠ 58 ∧
      Base64.letter n ≠ 10 := by decide
  obtain ⟨n, hn, rfl⟩ | rfl := h
  · exact hletters n hn
  · decide

/-- The body is decoded to what it was encoded from. -/
lemma decodedBody_lines (hsrc : src ≠ []) :
    decodedBody (Base64.lines 48 src.length src) = .ok src := by
  obtain ⟨t, ht, hframed, hdecode⟩ := Base64.decode_lines (w := 48) (by decide) (by decide) hsrc
    le_rfl
  obtain ⟨b, hb, hbplain⟩ := hframed.head
  obtain ⟨c, hc, hcplain⟩ := hframed.last
  obtain ⟨s, rfl⟩ : ∃ s, t = b :: s := List.head?_eq_some_iff.mp hb
  obtain ⟨s', hs'⟩ := List.getLast?_eq_some_iff.mp hc
  have htrim : trimSpace (Base64.lines 48 src.length src) = b :: s := by
    rw [ht]
    exact trimSpace_newline hs' (solid_of_plain hbplain) (solid_of_plain hcplain)
  have hdec : Base64.decode (b :: s) = .ok src := hdecode 0 []
  have hpos : src.length ≠ 0 := by simpa using hsrc
  have hlen : Base64.decodedLen (b :: s).length ≠ 0 := by
    have h := Base64.length_decode hdec
    omega
  simp only [decodedBody, htrim, hdec, bind_eq_ok, demand_eq_ok]
  exact ⟨(), hlen, (), hpos, trivial⟩

/-- No line of the body is a header. -/
lemma pemHeaders_lines (hsrc : src ≠ []) (fuel : ℕ) (r : Bytes) :
    pemHeaders (fuel + 1) false 0 (Base64.lines 48 src.length src ++ r) =
      .ok (false, 0, Base64.lines 48 src.length src ++ r) := by
  obtain ⟨n, hn⟩ : ∃ n, src.length = n + 1 := Nat.exists_eq_succ_of_ne_zero (by simpa using hsrc)
  set line := Base64.encode (src.take 48) with hline
  have hplain : ∀ c ∈ line, Base64.Plain c := Base64.encode_plain _
  have hlines : Base64.lines 48 src.length src ++ r =
      line ++ ([10] ++ (Base64.lines 48 n (src.drop 48) ++ r)) := by
    rw [hn, Base64.lines, if_neg hsrc]
    simp [hline]
  have hcut : cut [10] (Base64.lines 48 src.length src ++ r) =
      some (line, Base64.lines 48 n (src.drop 48) ++ r) := by
    rw [hlines]
    exact cut_of_head rfl (fun h => (ne_of_plain (hplain _ h)).2.2 rfl) _
  have hcolon : cut [58] (trimCR line) = none :=
    cut_eq_none fun h => (ne_of_plain (hplain _ (mem_of_mem_trimCR h))).2.1 rfl
  simp [pemHeaders, splitLine, hcut, hcolon]

lemma cut_pemBegin (r : Bytes) : cut pemBegin (pemBegin ++ r) = some ([], r) :=
  cut_of_head (c := 45) (s := []) (by decide) (by decide) r

lemma pemBlock_pemFile (hsrc : src ≠ []) :
    pemBlock (pemFile opensshPEMType src) =
      .ok (opensshPEMType, Base64.lines 48 src.length src) := by
  have hdash : (45 : UInt8) ∉ Base64.lines 48 src.length src := by
    intro h
    rcases Base64.lines_plain 48 _ _ _ h with hplain | heq
    · exact (ne_of_plain hplain).1 rfl
    · revert heq
      decide
  have hfooter : (opensshPEMType ++ pemDashes).isPrefixOf
      (opensshPEMType ++ (pemDashes ++ [10])) = true := by
    rw [← List.append_assoc]
    exact isPrefixOf_append _ _
  have htype : ∀ r, cut pemDashes (opensshPEMType ++ (pemDashes ++ r)) =
      some (opensshPEMType, r) := cut_of_head (c := 45) (by decide) (by decide)
  have hline : ∀ r, splitLine ([10] ++ r) = some ([], r) := fun r => by
    rw [splitLine]
    rfl
  have hend : ∀ r, cut pemEnd (Base64.lines 48 src.length src ++ (pemEnd ++ r)) =
      some (Base64.lines 48 src.length src, r) := cut_of_head (by decide) hdash
  simp only [pemBlock, pemFile, bind_eq_ok, require_eq_ok, demand_eq_ok, Prod.exists]
  exact ⟨[], _, cut_pemBegin _, opensshPEMType, _, htype _, [], _, hline _, false, 0, _,
    pemHeaders_lines hsrc _ _, (), rfl, (), rfl, _, _, hend _, (), hfooter, rfl⟩

variable [Der.Cryptobyte] {E : Env} {o : Options} {p : Holdings Bytes Event}

/-- The file is PEM armour and no bare container. -/
lemma pemFile_shape (src : Bytes) :
    opensshMagic.isPrefixOf (pemFile opensshPEMType src) = false ∧
      looksLikeDER (pemFile opensshPEMType src) = false ∧
      contains (pemFile opensshPEMType src) pemBegin = true ∧ pemFile opensshPEMType src ≠ [] := by
  have hbegin : pemBegin = 45 :: pemBegin.tail := by decide
  have hmagic : opensshMagic = 111 :: opensshMagic.tail := by decide
  obtain ⟨r, hr⟩ : ∃ r, pemFile opensshPEMType src = 45 :: r :=
    ⟨_, by rw [pemFile, hbegin, List.cons_append]⟩
  refine ⟨?_, ?_, ?_, ?_⟩
  · rw [hr, hmagic]
    rfl
  · rw [hr]
    rfl
  · rw [contains, pemFile, cut_pemBegin]
    rfl
  · rw [hr]
    exact nofun

lemma wp_parsePrivateKey_pemFile (hE : E.Grants) (hsrc : src ≠ [])
    {Q : Except Err Signer → Holdings Bytes Event → Prop}
    (h : (parseOpenSSH E o p.requests).wp (p.grant src) Q) :
    (parsePrivateKey E o (pemFile opensshPEMType src)).wp p Q := by
  obtain ⟨hmagic, hder, hcontains, -⟩ := pemFile_shape src
  rw [parsePrivateKey, if_neg (by simp [hmagic]), if_neg (by simp [hder]), if_pos hcontains,
    wp_bind, wp_lift, pemBlock_pemFile hsrc]
  dsimp only
  rw [wp_bind]
  refine wp_decodePEMBody hE (fun out hout => ?_) fun e p' he _ => ?_
  · obtain rfl : src = out := Except.ok.inj ((decodedBody_lines hsrc).symm.trans hout)
    dsimp only
    unfold parsePEM
    rw [if_pos rfl]
    exact h
  · rw [decodedBody_lines hsrc] at he
    cases he

lemma wp_parseEncryptedPrivateKey_pemFile (hE : E.Grants) (hsrc : src ≠ []) {passphrase : Bytes}
    {Q : Except Err Signer → Holdings Bytes Event → Prop}
    (h : (parseOpenSSHEncrypted E o p.requests passphrase).wp (p.grant src) Q) :
    (parseEncryptedPrivateKey E o (pemFile opensshPEMType src) passphrase).wp p Q := by
  obtain ⟨hmagic, hder, hcontains, -⟩ := pemFile_shape src
  have hpem : pemEncrypted (pemFile opensshPEMType src) =
      .ok (.openSSH, Base64.lines 48 src.length src) := by
    rw [pemEncrypted, pemBlock_pemFile hsrc]
    rfl
  rw [parseEncryptedPrivateKey, wp_bind, locateEncrypted, if_neg (by simp [hmagic]),
    if_neg (by simp [hder]), if_pos hcontains, wp_bind, wp_lift, hpem]
  dsimp only
  rw [wp_bind]
  refine wp_decodePEMBody hE (fun out hout => ?_) fun e p' he _ => ?_
  · obtain rfl : src = out := Except.ok.inj ((decodedBody_lines hsrc).symm.trans hout)
    exact h
  · rw [decodedBody_lines hsrc] at he
    cases he

end Armour

/-! ## The marshaller -/

section Marshalling

variable {E : Env} {p : Holdings Bytes Event} {f : Layout} {check pubKey seed comment salt : Bytes}
  {passphrase : Bytes} {rounds : ℕ}

/-- The private block is where the writer left it, and another of its length takes its place. -/
lemma block_container (hpub : pubKey.length = 32) {block block' : Bytes}
    (hblock : block.length = f.privPadded comment.length)
    (hblock' : block'.length = f.privPadded comment.length) :
    ((container f pubKey block).drop (contents (headerWrites f pubKey comment)).length).take
        (f.privPadded comment.length) = block ∧
      overlay (container f pubKey block) block'
        (contents (headerWrites f pubKey comment)).length = container f pubKey block' := by
  rw [← contents_headerWrites hpub hblock, ← contents_headerWrites hpub hblock', List.drop_left,
    ← hblock, List.take_length]
  refine ⟨rfl, ?_⟩
  have hroom : ∀ n : ℕ, n + block.length - n = block.length := fun n => by omega
  rw [overlay, List.take_left, List.length_append, hroom, hblock, ← hblock', List.take_length,
    List.drop_eq_nil_of_le, List.append_nil]
  rw [List.length_append]
  omega

/-- The block of the file: as it was written, or under the passphrase. -/
def fileBlock (E : Env) (passphrase salt : Bytes) (rounds : ℕ) (block : Bytes) : Bytes :=
  if passphrase = [] then block else ctrBlock E passphrase salt rounds block

lemma length_fileBlock (E : Env) (passphrase salt : Bytes) (rounds : ℕ) (block : Bytes) :
    (fileBlock E passphrase salt rounds block).length = block.length := by
  unfold fileBlock
  split
  · rfl
  · exact length_ctrBlock

/-- What the container's buffer holds in the end. -/
lemma wp_fillContainer (hE : E.Grants) (hcheck : check.length = 4)
    (hpub : pubKey.length = 32) (hseed : seed.length = 32) {seedBuf cont : Buf}
    (hseedBuf : p.held seedBuf = some seed) {c : Bytes} (hcont : p.held cont = some c)
    (hc : c.length = f.total comment.length)
    (hkdf : passphrase ≠ [] → E.wipeAES = none ∧ salt.length = opensshSaltLen ∧ 1 ≤ rounds) :
    (fillContainer E f seedBuf cont pubKey check comment passphrase salt rounds).wp p
      fun r p' => r = .ok () ∧ p'.held cont = some (container f pubKey (fileBlock E passphrase salt
        rounds (privBlock check pubKey seed comment (f.padLen comment.length)))) := by
  set block := privBlock check pubKey seed comment (f.padLen comment.length) with hblock_def
  have hblock : block.length = f.privPadded comment.length := length_privBlock hcheck hpub hseed
  have hwritten : (p.write cont (container f pubKey block)).held cont =
      some (container f pubKey block) := by
    change Function.update p.held cont _ cont = _
    rw [Function.update_self, hcont, Option.map_some]
  rw [fillContainer, wp_bind, borrow, wp_read hseedBuf]
  dsimp only
  rw [wp_bind, borrow, wp_read hcont]
  dsimp only
  rw [wp_bind, wp_lift, writeContainer_eq hcheck hpub hseed hc]
  dsimp only
  rw [wp_bind, store, wp_write hcont, ← hblock_def]
  by_cases hpass : passphrase = []
  · rw [if_pos hpass, fileBlock, if_pos hpass]
    exact ⟨rfl, hwritten⟩
  · obtain ⟨hwipe, hsalt, hrounds⟩ := hkdf hpass
    have hsealed : (ctrBlock E passphrase salt rounds block).length =
        f.privPadded comment.length := by rw [length_ctrBlock, hblock]
    obtain ⟨htake, hplace⟩ := block_container hpub hblock hsealed
    rw [if_neg hpass, fileBlock, if_neg hpass, htake, wp_bind,
      wp_opensshCrypt_ctr hE hwipe hpass hsalt hrounds]
    dsimp only
    rw [hplace, store, wp_write (show ((p.write cont (container f pubKey block)).refuse.emit
      Event.derive).held cont = some _ from hwritten)]
    refine ⟨rfl, ?_⟩
    change Function.update _ cont _ cont = _
    rw [Function.update_self]
    change Option.map _ ((p.write cont (container f pubKey block)).held cont) = _
    rw [hwritten, Option.map_some]

/-- The result is a buffer that holds the file of a container. -/
def Files (c : Bytes) (r : Except Err Buf) (p : Holdings Bytes Event) : Prop :=
  ∃ out, r = .ok out ∧ p.held out = some (pemFile opensshPEMType c)

/-- The container that `marshalOpenSSH` writes. -/
def marshalled (E : Env) (f : Layout) (check seed comment passphrase salt : Bytes) (rounds : ℕ) :
    Bytes :=
  let pubKey := (E.ed25519Public seed).val
  container f pubKey (fileBlock E passphrase salt rounds
    (privBlock check pubKey seed comment (f.padLen comment.length)))

lemma length_marshalled (hcheck : check.length = 4) (hseed : seed.length = 32) :
    (marshalled E f check seed comment passphrase salt rounds).length = f.total comment.length :=
  length_container (E.ed25519Public seed).property
    ((length_fileBlock E passphrase salt rounds _).trans
      (length_privBlock hcheck (E.ed25519Public seed).property hseed))

/-- The part of `marshalOpenSSH` after its draws leaves the file in a buffer of its own. -/
lemma files_marshalled (hE : E.Grants) (hcheck : check.length = 4) (hseed : seed.length = 32)
    {seedBuf : Buf} (hseedBuf : p.held seedBuf = some seed)
    (hkdf : passphrase ≠ [] → E.wipeAES = none ∧ salt.length = opensshSaltLen ∧ 1 ≤ rounds) :
    Op.wp (do
      let cont ← (newEmptyBuffer E (f.total comment.length)).mapError
        (Err.after "allocate container buffer: ")
      (do
        fillContainer E f seedBuf cont (E.ed25519Public seed).val check comment passphrase salt
          rounds
        armour E cont (f.total comment.length)).andRelease cont) p
      (Files (marshalled E f check seed comment passphrase salt rounds)) := by
  have hpos : f.total comment.length ≠ 0 := by
    rw [Layout.total]
    omega
  have hseedBuf' : (p.grant (List.replicate (f.total comment.length) 0)).held seedBuf =
      some seed := by
    change Function.update p.held p.requests _ seedBuf = _
    rw [Function.update_of_ne (lt_requests hseedBuf).ne, hseedBuf]
  rw [wp_bind, wp_newEmptyBuffer hE hpos]
  dsimp only
  rw [wp_andRelease, wp_bind]
  refine wp_mono (wp_fillContainer hE hcheck (E.ed25519Public seed).property hseed hseedBuf'
    (held_grant p _) List.length_replicate hkdf) ?_
  rintro r p' ⟨rfl, (hheld : p'.held p.requests =
    some (marshalled E f check seed comment passphrase salt rounds))⟩
  have hlen : (marshalled E f check seed comment passphrase salt rounds).length =
      f.total comment.length := length_marshalled hcheck hseed
  rw [← hlen, wp_armour hE hheld]
  refine ⟨_, rfl, ?_⟩
  change Function.update (p'.grant _).held p.requests none p'.requests = _
  rw [Function.update_of_ne (lt_requests hheld).ne', held_grant]

lemma files_marshalOpenSSHPrivateKey (hE : E.Grants) (hseed : seed.length = 32) {seedBuf : Buf}
    (hseedBuf : p.held seedBuf = some seed) (salt : Draw opensshSaltLen)
    (check : { b : Bytes // b.length = 4 }) :
    (marshalOpenSSHPrivateKey E seedBuf (E.ed25519Public seed).val comment salt (.ok check)).wp p
      (Files (marshalled E plainLayout check.val seed comment [] [] 16)) := by
  rw [marshalOpenSSHPrivateKey, marshalling, wp_mapError, marshalOpenSSH, wp_bind, wp_lift,
    demand, if_pos (Or.inl rfl)]
  rw [wp_bind, wp_lift, if_pos rfl]
  dsimp only
  rw [wp_bind, wp_lift, drawn]
  rw [if_pos rfl]
  refine wp_mono (files_marshalled hE check.property hseed hseedBuf
    fun h => absurd rfl h) fun r p' hr => ?_
  obtain ⟨out, rfl, hout⟩ := hr
  exact ⟨out, rfl, hout⟩

lemma files_marshalOpenSSHPrivateKeyWithPassphraseParams (hE : E.Grants) (hwipe : E.wipeAES = none)
    (hseed : seed.length = 32) {seedBuf : Buf} (hseedBuf : p.held seedBuf = some seed)
    (hpass : passphrase ≠ []) {rounds : ℤ} (hrounds : 1 ≤ rounds ∧ rounds ≤ opensshMaxRounds)
    (salt : { b : Bytes // b.length = opensshSaltLen }) (check : { b : Bytes // b.length = 4 }) :
    (marshalOpenSSHPrivateKeyWithPassphraseParams E seedBuf (E.ed25519Public seed).val comment
        passphrase rounds (.ok salt) (.ok check)).wp p
      (Files (marshalled E (encryptedLayout salt.val rounds.toNat) check.val seed comment passphrase
        salt.val rounds.toNat)) := by
  rw [marshalOpenSSHPrivateKeyWithPassphraseParams, if_neg hpass, marshalling, wp_mapError,
    marshalOpenSSH, wp_bind, wp_lift, demand, if_pos (Or.inr hrounds)]
  rw [wp_bind, wp_lift, if_neg hpass, drawn]
  dsimp only
  rw [wp_bind, wp_lift, drawn]
  rw [if_neg hpass]
  refine wp_mono (files_marshalled hE check.property hseed hseedBuf
    fun _ => ⟨hwipe, salt.property, by omega⟩) fun r p' hr => ?_
  obtain ⟨out, rfl, hout⟩ := hr
  exact ⟨out, rfl, hout⟩

end Marshalling

/-! ## The round trip -/

section RoundTrip

variable {E : Env} {seed : Bytes} {comment : Bytes} {check : Bytes} {f : Layout}

lemma marshalled_ne_nil {passphrase salt : Bytes} {rounds : ℕ} :
    marshalled E f check seed comment passphrase salt rounds ≠ [] := by
  have hmagic : opensshMagic ≠ [] := by decide
  exact List.append_ne_nil_of_left_ne_nil hmagic _

variable [Der.Cryptobyte]

lemma signs_parsePrivateKeyCall (hE : E.Grants) (hseed : seed.length = 32)
    (hcheck : check.length = 4) (hlen : plainLayout.total comment.length < 2 ^ 32) (rounds : ℕ)
    (opts : List Opt) (q : Holdings Bytes Event) :
    (parsePrivateKeyCall E (pemFile opensshPEMType
      (marshalled E plainLayout check seed comment [] [] rounds)) opts).wp q (Signs seed) := by
  rw [parsePrivateKeyCall, if_neg (pemFile_shape _).2.2.2, wp_mapError]
  refine wp_parsePrivateKey_pemFile hE marshalled_ne_nil ?_
  refine wp_mono (signs_parseOpenSSH hE hseed hcheck hlen (held_grant q _)) fun r q' hr => ?_
  obtain ⟨b, pub, rfl, hb⟩ := hr
  exact ⟨b, pub, rfl, hb⟩

lemma signs_parsePrivateKeyWithPassphrase (hE : E.Grants) (hwipe : E.wipeAES = none)
    (hseed : seed.length = 32) (hcheck : check.length = 4) {salt passphrase : Bytes} {rounds : ℕ}
    (hsalt : salt.length = opensshSaltLen) (hrounds : 1 ≤ rounds ∧ rounds ≤ opensshMaxRounds)
    (hpass : passphrase ≠ []) (hlen : (encryptedLayout salt rounds).total comment.length < 2 ^ 32)
    (opts : List Opt) (q : Holdings Bytes Event) :
    (parsePrivateKeyWithPassphrase E (pemFile opensshPEMType
      (marshalled E (encryptedLayout salt rounds) check seed comment passphrase salt rounds))
      passphrase opts).wp q (Signs seed) := by
  rw [parsePrivateKeyWithPassphrase, if_neg (pemFile_shape _).2.2.2, if_neg hpass, wp_mapError]
  refine wp_parseEncryptedPrivateKey_pemFile hE marshalled_ne_nil ?_
  have hheld : (q.grant (marshalled E (encryptedLayout salt rounds) check seed comment passphrase
      salt rounds)).held q.requests = some (container (encryptedLayout salt rounds)
        (E.ed25519Public seed).val (ctrBlock E passphrase salt rounds
          (privBlock check (E.ed25519Public seed).val seed comment
            ((encryptedLayout salt rounds).padLen comment.length)))) := by
    rw [held_grant, marshalled, fileBlock, if_neg hpass]
  refine wp_mono (signs_parseOpenSSHEncrypted hE hwipe hseed hcheck hsalt hrounds hpass hlen
    hheld) fun r q' hr => ?_
  obtain ⟨b, pub, rfl, hb⟩ := hr
  exact ⟨b, pub, rfl, hb⟩

/-- The result is a buffer with a file, and the call on that file gives a signer for the seed. -/
def RoundTrips (seed : Bytes) (parse : Bytes → Call Signer) (r : Except Err Buf)
    (p : Holdings Bytes Event) : Prop :=
  ∃ out file, r = .ok out ∧ p.held out = some file ∧ ∀ q, (parse file).wp q (Signs seed)

/-- Marshalling succeeds, and parsing what it wrote, with the same passphrase or without one,
returns a signer that holds the seed. -/
theorem marshal_roundTrips (hE : E.Grants) (hseed : seed.length = 32) (comment : Bytes)
    (salt : { b : Bytes // b.length = opensshSaltLen }) (check : { b : Bytes // b.length = 4 })
    (p : Holdings Bytes Event) (seedBuf : Buf) (hseedBuf : p.held seedBuf = some seed)
    (opts : List Opt) :
    let pubKey := (E.ed25519Public seed).val
    (plainLayout.total comment.length < 2 ^ 32 →
      (marshalOpenSSHPrivateKey E seedBuf pubKey comment (.ok salt) (.ok check)).wp p
        (RoundTrips seed fun file => parsePrivateKeyCall E file opts)) ∧
    ∀ (passphrase : Bytes) (rounds : ℤ), passphrase ≠ [] → 1 ≤ rounds ∧ rounds ≤ opensshMaxRounds →
      E.wipeAES = none →
      (encryptedLayout salt.val rounds.toNat).total comment.length < 2 ^ 32 →
      (marshalOpenSSHPrivateKeyWithPassphraseParams E seedBuf pubKey comment passphrase rounds
        (.ok salt) (.ok check)).wp p
        (RoundTrips seed fun file => parsePrivateKeyWithPassphrase E file passphrase opts) := by
  intro pubKey
  constructor
  · intro hlen
    refine Op.wp_mono (files_marshalOpenSSHPrivateKey hE hseed hseedBuf (.ok salt) check) ?_
    rintro r p' ⟨out, rfl, hout⟩
    exact ⟨out, _, rfl, hout,
      signs_parsePrivateKeyCall hE hseed check.property hlen 16 opts⟩
  · intro passphrase rounds hpass hrounds hwipe hlen
    have hnat : 1 ≤ rounds.toNat ∧ rounds.toNat ≤ opensshMaxRounds := by omega
    refine Op.wp_mono (files_marshalOpenSSHPrivateKeyWithPassphraseParams hE hwipe hseed hseedBuf
      hpass hrounds salt check) ?_
    rintro r p' ⟨out, rfl, hout⟩
    exact ⟨out, _, rfl, hout, signs_parsePrivateKeyWithPassphrase hE hwipe hseed check.property
      salt.property hnat hpass hlen opts⟩

end RoundTrip

/-- A pool with one buffer, the seed's. -/
def seedHoldings (seed : Bytes) : Holdings Bytes Event := Holdings.empty.grant seed

open Der.Cursor in
theorem marshal_roundTrips_zeroSeed :
    (marshalOpenSSHPrivateKeyWithPassphraseParams grantingEnv 0
        (grantingEnv.ed25519Public (List.replicate 32 0)).val (ascii "comment") [1] 16
        (.ok ⟨List.replicate 16 2, rfl⟩) (.ok ⟨[1, 2, 3, 4], rfl⟩)).wp
      (seedHoldings (List.replicate 32 0))
      (RoundTrips (List.replicate 32 0) fun file =>
        parsePrivateKeyWithPassphrase grantingEnv file [1] []) :=
  (marshal_roundTrips grants_grantingEnv rfl (ascii "comment") ⟨List.replicate 16 2, rfl⟩
    ⟨[1, 2, 3, 4], rfl⟩ (seedHoldings (List.replicate 32 0)) 0 rfl []).2 [1] 16 (by decide)
    (by decide) rfl (by decide)

end Secmem.Crypto
