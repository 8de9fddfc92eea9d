import Secmem.Framework.Base64
import Secmem.Framework.Utf8
import Secmem.Process.Abstract
import Mathlib.Logic.Function.Basic

/-!
# `httpauth/transport.go`

A transport that sets a credential header on the requests it is meant for.  The constructors
parse and check their options; `roundTrip` decides from the parsed entries what becomes of a
request, and reads the token only when the credential is to be set.

The decision is a loop over the entries that returns early.  `Admitted` and `Refused` say the
same without the loop, over the entries as the caller wrote them, and `roundTrip_follows_entries`
is that a transport keeps to them.
-/

namespace Secmem.HttpAuth

open Utf8 ByteStrings

/-! ## Go's library -/

/-- The tables of the package `unicode` outside ASCII: the lower case of a rune, and one of the
runes that `SimpleFold` leads to from it.  The runes for which either is in ASCII are not taken from
the tables. -/
structure CaseTables where
  lower : ℕ → ℕ
  fold : ℕ → ℕ
  le_lower : ∀ r, 0x80 ≤ lower r
  le_fold : ∀ r, 0x80 ≤ fold r

def lowerASCII (r : ℕ) : ℕ := if 65 ≤ r ∧ r ≤ 90 then r + 32 else r

variable (L : CaseTables)

/-- `unicode.ToLower`; the dotted `İ` and the Kelvin sign have a lower case in ASCII. -/
def CaseTables.toLowerRune (r : ℕ) : ℕ :=
  if r < 0x80 then lowerASCII r
  else if r = 0x130 then 105 else if r = 0x212A then 107 else L.lower r

/-- The runes that `unicode.SimpleFold` leads to from one another have one of them in common; the
long `ſ` and the Kelvin sign have a letter of ASCII. -/
def CaseTables.foldRune (r : ℕ) : ℕ :=
  if r < 0x80 then lowerASCII r
  else if r = 0x17F then 115 else if r = 0x212A then 107 else L.fold r

/-- `strings.ToLower`. -/
def CaseTables.toLower (s : Bytes) : Bytes :=
  (runes s).flatMap fun r => encodeRune (L.toLowerRune r.rune)

/-- `strings.EqualFold`. -/
def CaseTables.equalFold (s t : Bytes) : Bool :=
  (runes s).map (fun r => L.foldRune r.rune) == (runes t).map fun r => L.foldRune r.rune

/-- `unicode.IsSpace`. -/
def isSpace (r : ℕ) : Bool :=
  (9 ≤ r ∧ r ≤ 13) || r = 0x20 || r = 0x85 || r = 0xA0 || r = 0x1680 ||
    (0x2000 ≤ r ∧ r ≤ 0x200A) || r = 0x2028 || r = 0x2029 || r = 0x202F || r = 0x205F ||
    r = 0x3000

/-- `strings.TrimSuffix`. -/
def trimSuffix (s suffix : Bytes) : Bytes :=
  if suffix.isSuffixOf s = true then s.take (s.length - suffix.length) else s

/-- `strings.ContainsAny`, for ASCII characters. -/
def containsAny (s set : Bytes) : Bool := s.any fun b => set.contains b

/-- A byte of an RFC 7230 token. -/
def isTchar (b : UInt8) : Bool :=
  let c := b.toNat
  (97 ≤ c ∧ c ≤ 122) || (65 ≤ c ∧ c ≤ 90) || (48 ≤ c ∧ c ≤ 57) ||
    (ascii "!#$%&'*+-.^_\x60|~").contains b

/-- The loop of `textproto.CanonicalMIMEHeaderKey`: upper case at the beginning and behind a dash,
lower case elsewhere. -/
def canonicalFrom (upper : Bool) : Bytes → Bytes
  | [] => []
  | b :: s =>
    let c := if upper = true ∧ 97 ≤ b ∧ b ≤ 122 then b - 32
      else if upper = false ∧ 65 ≤ b ∧ b ≤ 90 then b + 32 else b
    c :: canonicalFrom (c == 45) s

/-- `textproto.CanonicalMIMEHeaderKey`, which leaves what is not a field name as it is. -/
def canonicalMIMEHeaderKey (s : Bytes) : Bytes :=
  if s.all isTchar = true then canonicalFrom true s else s

/-! ## Errors -/

/-- The details of `ErrInvalidConfig`. -/
inductive Detail
  | fieldName (header : Bytes)
  | headerText (value : Bytes)
  | contradictory
  | scheme (entry : Bytes)
  | emptyHost (entry : Bytes)
  | malformedHost (entry : Bytes)
  deriving DecidableEq, Repr

inductive Err
  | nilTransport
  | errNoToken
  | errNilRequest
  | errBasicUsername
  | errInsecureScheme
  | errNoHosts
  | errInvalidConfig (detail : Detail)
  | readingToken (e : GoErr)
  | tokenEmpty
  | tokenChanged (got n : ℕ)
  | base (n : ℕ)
  deriving DecidableEq, Repr

/-! ## Requests -/

/-- The parts of a `url.URL` that matter here. -/
structure URL where
  scheme : Bytes
  host : Bytes
  deriving DecidableEq, Repr

/-- A request: `body` stands for everything that is passed on as it is. -/
structure Request where
  url : Option URL
  header : Bytes → List Bytes
  body : ℕ

/-- A response, with the request it is for. -/
structure Response where
  request : Request
  body : ℕ

/-- `Header.Set`. -/
def Request.setHeader (r : Request) (name value : Bytes) : Request :=
  { r with header := Function.update r.header (canonicalMIMEHeaderKey name) [value] }

/-- A base transport. -/
abbrev RoundTripper := Request → Option Response × Option Err

/-! ## Construction -/

/-- `hostEntry`; the scheme is empty, `http` or `https`. -/
structure HostEntry where
  scheme : Bytes
  host : Bytes
  deriving DecidableEq, Repr

/-- The options of a constructor. -/
inductive Opt
  | withHosts (entries : List Bytes)
  | withAnyHost
  | withInsecureHTTP
  | withBase (rt : Option RoundTripper)
  | nil

structure Config where
  hosts : List Bytes
  anyHost : Bool
  insecure : Bool
  base : Option RoundTripper

def Opt.apply (c : Config) : Opt → Config
  | withHosts entries => { c with hosts := c.hosts ++ entries }
  | withAnyHost => { c with anyHost := true }
  | withInsecureHTTP => { c with insecure := true }
  | withBase rt => { c with base := rt }
  | nil => c

/-- The settings that a list of options comes to. -/
def config (opts : List Opt) : Config := opts.foldl Opt.apply ⟨[], false, false, none⟩

/-- A `Transport`.  Whether it has a token is a flag: what reading the token returns depends on
when it is read. -/
structure Transport where
  base : Option RoundTripper
  header : Bytes
  lead : Bytes
  token : Bool
  hosts : List HostEntry
  anyHost : Bool
  insecure : Bool
  basic : Bool
  basicUser : Bytes

def parseHostEntry (entry : Bytes) : Except Err HostEntry :=
  match cut (ascii "://") entry with
  | some (before, rest) =>
    let scheme := L.toLower before
    if scheme ≠ ascii "http" ∧ scheme ≠ ascii "https" then
      .error (.errInvalidConfig (.scheme entry))
    else host scheme rest
  | none => host [] entry
where
  /-- The host that follows the scheme. -/
  host (scheme rest : Bytes) : Except Err HostEntry :=
    let rest := trimSuffix rest (ascii "/")
    if rest = [] then .error (.errInvalidConfig (.emptyHost entry))
    else if containsAny rest (ascii "/?#@") = true ∨
        (runes rest).any (fun r => isSpace r.rune) = true then
      .error (.errInvalidConfig (.malformedHost entry))
    else .ok ⟨scheme, rest⟩

/-- The entries parsed, or the first error. -/
def parseHosts (L : CaseTables) : List Bytes → Except Err (List HostEntry)
  | [] => .ok []
  | raw :: raws =>
    match parseHostEntry L raw with
    | .error e => .error e
    | .ok e =>
      match parseHosts L raws with
      | .error e => .error e
      | .ok es => .ok (e :: es)

def build (t : Transport) (token : Bool) (opts : List Opt) : Except Err Transport :=
  if token = false then .error .errNoToken else
  let c := config opts
  if 0 < c.hosts.length ∧ c.anyHost = true then .error (.errInvalidConfig .contradictory)
  else if c.hosts.length = 0 ∧ c.anyHost = false then .error .errNoHosts
  else match parseHosts L c.hosts with
    | .error e => .error e
    | .ok hosts => .ok { t with
        token := token, base := c.base, hosts := hosts, anyHost := c.anyHost
        insecure := c.insecure }

def defaultHeader : Bytes := ascii "Authorization"

def validFieldName (name : Bytes) : Bool := !name.isEmpty && name.all isTchar

/-- The zero `Transport`. -/
def Transport.zero : Transport := ⟨none, [], [], false, [], false, false, false, []⟩

def newHeader (header lead : Bytes) (token : Bool) (opts : List Opt) : Except Err Transport :=
  let header := if header = [] then defaultHeader else header
  if validFieldName header = false then .error (.errInvalidConfig (.fieldName header))
  else if containsAny lead (ascii "\r\n\x00") = true then
    .error (.errInvalidConfig (.headerText lead))
  else build L { Transport.zero with header := header, lead := lead } token opts

def newBearer (token : Bool) (opts : List Opt) : Except Err Transport :=
  newHeader L defaultHeader (ascii "Bearer ") token opts

def newBasic (username : Bytes) (token : Bool) (opts : List Opt) : Except Err Transport :=
  if containsAny username (ascii ":") = true then .error .errBasicUsername
  else build L { Transport.zero with header := defaultHeader, basic := true, basicUser := username }
    token opts

/-! ## The credential -/

/-- The token, as it is when its length is read and when it is copied. -/
structure Token where
  atLen : Process.Abs
  atCopy : Process.Abs

/-- `CopyOut` of `n` bytes from the beginning. -/
def copyOut (a : Process.Abs) (n : ℕ) : Bytes × Option GoErr :=
  match (a.answer 0 (.copyOut n 0)).getD (a.reply true none (.copyOut n 0)) with
  | .bytes bs e => (bs, e)
  | _ => ([], none)

def copyToken (tok : Token) : Except Err Bytes :=
  let n := tok.atLen.len
  if n = 0 then
    match (copyOut tok.atCopy 0).2 with
    | some e =>
      if e.is .errDestroyed = true ∨ e.is .errSealed = true then .error (.readingToken e)
      else .error .tokenEmpty
    | none => .error .tokenEmpty
  else match copyOut tok.atCopy n with
    | (_, some e) => .error (.readingToken e)
    | (got, none) => if got.length ≠ n then .error (.tokenChanged got.length n) else .ok got

/-- The value of the header, around the token's bytes. -/
def Transport.value (t : Transport) (token : Bytes) : Bytes :=
  if t.basic = true then ascii "Basic " ++ Base64.encode (t.basicUser ++ ascii ":" ++ token)
  else t.lead ++ token

/-! ## A request's way -/

inductive Decision
  | inject
  | forward
  | refuse
  deriving DecidableEq, Repr

/-- The loop of `decide`; `matched` is whether an entry had the request's host. -/
def decideHosts (L : CaseTables) (insecure : Bool) (scheme host : Bytes) (matched : Bool) :
    List HostEntry → Decision
  | [] => if matched = true then .refuse else .forward
  | e :: es =>
    if L.equalFold host e.host = false then decideHosts L insecure scheme host matched es
    else if e.scheme = [] then
      if scheme = ascii "https" ∨ insecure = true then .inject
      else decideHosts L insecure scheme host true es
    else if e.scheme = scheme then .inject
    else decideHosts L insecure scheme host true es

def Transport.decide (t : Transport) (req : Request) : Decision :=
  let scheme := (req.url.map fun u => L.toLower u.scheme).getD []
  if t.anyHost = true then
    if scheme = ascii "https" ∨ t.insecure = true then .inject else .refuse
  else match req.url with
    | none => .forward
    | some u => decideHosts L t.insecure scheme u.host false t.hosts

/-- What came of a request: what the base transport was handed, the value that was set on it,
what was returned, and whether the body was closed here. -/
structure Trip where
  handed : Option Request
  set : Option Bytes
  response : Option Response
  err : Option Err
  closed : Bool

/-- A request that is not handed on. -/
def Trip.failed (e : Err) (closed : Bool) : Trip := ⟨none, none, none, some e, closed⟩

/-- `RoundTrip`; `fallback` is `http.DefaultTransport`. -/
def roundTrip (fallback : RoundTripper) (t : Option Transport) (tok : Token) (req : Option Request)
    : Trip :=
  match t, req with
  | none, _ => .failed .nilTransport true
  | some _, none => .failed .errNilRequest false
  | some t, some req =>
    if t.token = false then .failed .errNoToken true else
    let base := t.base.getD fallback
    match t.decide L req with
    | .forward => ⟨some req, none, (base req).1, (base req).2, false⟩
    | .refuse => .failed .errInsecureScheme true
    | .inject =>
      match copyToken tok with
      | .error e => .failed e true
      | .ok bs =>
        let value := t.value bs
        let clone := req.setHeader t.header value
        ⟨some clone, some value, (base clone).1.map fun r => { r with request := req },
          (base clone).2, false⟩

/-! ## The rule, without the loop -/

section Rule

/-- The letters of ASCII in lower case. -/
def lowered (s : Bytes) : Bytes := s.map fun b => UInt8.ofNat (lowerASCII b.toNat)

/-- The request is `https`. -/
def IsHttps (req : Request) : Prop :=
  ∃ u, req.url = some u ∧ lowered u.scheme = ascii "https"

/-- The entry `raw`, read as `e`, names the host of the request's URL `u`. -/
structure Names (raw : Bytes) (req : Request) (u : URL) (e : HostEntry) : Prop where
  parsed : parseHostEntry L raw = .ok e
  url : req.url = some u
  host : L.equalFold u.host e.host = true

/-- The credential belongs on the request. -/
def Admitted (c : Config) (req : Request) : Prop :=
  c.anyHost = true ∧ (IsHttps req ∨ c.insecure = true) ∨
    ∃ raw ∈ c.hosts, ∃ u e, Names L raw req u e ∧
      (e.scheme ≠ [] ∧ e.scheme = lowered u.scheme ∨
        e.scheme = [] ∧ (IsHttps req ∨ c.insecure = true))

/-- The credential is meant for the request's host, and must not go there this way. -/
def Refused (c : Config) (req : Request) : Prop :=
  (c.anyHost = true ∨ ∃ raw ∈ c.hosts, ∃ u e, Names L raw req u e) ∧ ¬ Admitted L c req

/-- The same settings, with the same entries in another order or number. -/
structure SameEntries (c c' : Config) : Prop where
  hosts : ∀ raw, raw ∈ c'.hosts ↔ raw ∈ c.hosts
  anyHost : c'.anyHost = c.anyHost
  insecure : c'.insecure = c.insecure
  base : c'.base = c.base

end Rule

/-- A token that is live and unsealed throughout, and keeps a length that is not zero. -/
structure Token.Steady (tok : Token) : Prop where
  atLen : tok.atLen.refusal = none
  atCopy : tok.atCopy.refusal = none
  length : tok.atCopy.bytes.length = tok.atLen.bytes.length
  nonempty : tok.atLen.bytes ≠ []

/-- The ways to make a transport. -/
inductive Maker
  | bearer
  | header (name lead : Bytes)
  | basic (username : Bytes)

/-- The field that carries the credential. -/
def Maker.field : Maker → Bytes
  | header name _ => canonicalMIMEHeaderKey (if name = [] then ascii "Authorization" else name)
  | _ => ascii "Authorization"

/-- The credential, for the bytes of the token. -/
def Maker.credential : Maker → Bytes → Bytes
  | bearer, token => ascii "Bearer " ++ token
  | header _ lead, token => lead ++ token
  | basic username, token => ascii "Basic " ++ Base64.encode (username ++ ascii ":" ++ token)

/-- The request with the credential on it: one field is the credential, all else is the caller's. -/
structure Carries (m : Maker) (token : Bytes) (req handed : Request) : Prop where
  credential : handed.header m.field = [m.credential token]
  fields : ∀ name ≠ m.field, handed.header name = req.header name
  url : handed.url = req.url
  body : handed.body = req.body

def Maker.make : Maker → Bool → List Opt → Except Err Transport
  | bearer => newBearer L
  | header name lead => newHeader L name lead
  | basic username => newBasic L username

variable {L : CaseTables} {opts : List Opt} {t : Transport} {token : Bool}

/-! ## Lower case -/

lemma lowerASCII_lt {r : ℕ} (h : r < 0x80) : lowerASCII r < 0x80 := by
  unfold lowerASCII
  split <;> omega

/-- A string whose lower case is in ASCII, without the two letters that other runes have as their
lower case, is in ASCII. -/
lemma ascii_of_toLower {s : Bytes} (h : ∀ b ∈ L.toLower s, b.toNat < 0x80 ∧ b ≠ 105 ∧ b ≠ 107) :
    ∀ b ∈ s, b.toNat < 0x80 := by
  refine ascii_of_runes fun r hr => ?_
  by_contra hge
  obtain ⟨b, hb, hbad⟩ : ∃ b ∈ encodeRune (L.toLowerRune r.rune),
      0x80 ≤ b.toNat ∨ b = 105 ∨ b = 107 := by
    simp only [CaseTables.toLowerRune, if_neg hge]
    split
    · exact ⟨105, by decide, .inr (.inl rfl)⟩
    split
    · exact ⟨107, by decide, .inr (.inr rfl)⟩
    · obtain ⟨b, hb, hle⟩ := exists_mem_encodeRune (L.le_lower r.rune)
      exact ⟨b, hb, .inl hle⟩
  obtain ⟨hlt, hi, hk⟩ := h b (List.mem_flatMap.mpr ⟨r, hr, hb⟩)
  rcases hbad with hle | rfl | rfl
  · omega
  · exact hi rfl
  · exact hk rfl

lemma toLower_ascii {s : Bytes} (h : ∀ b ∈ s, b.toNat < 0x80) : L.toLower s = lowered s := by
  have hrunes := runes_ascii h
  calc L.toLower s = ((runes s).map Rune.rune).flatMap fun r => encodeRune (L.toLowerRune r) := by
        rw [List.flatMap_map]
        rfl
    _ = s.flatMap fun b => encodeRune (L.toLowerRune b.toNat) := by rw [hrunes, List.flatMap_map]
    _ = s.flatMap fun b => [UInt8.ofNat (lowerASCII b.toNat)] := by
        refine List.flatMap_congr fun b hb => ?_
        rw [CaseTables.toLowerRune, if_pos (h b hb), encodeRune, if_pos (lowerASCII_lt (h b hb))]
    _ = lowered s := List.flatMap_pure_eq_map _ s

/-- The schemes of the entries are spelled in ASCII. -/
lemma toLower_eq_iff {s t : Bytes} (ht : t = ascii "http" ∨ t = ascii "https") :
    L.toLower s = t ↔ lowered s = t := by
  have hbytes : ∀ b ∈ t, b.toNat < 0x80 ∧ b ≠ 105 ∧ b ≠ 107 := by
    rcases ht with rfl | rfl <;> decide +kernel
  constructor
  · intro h
    rw [← toLower_ascii (ascii_of_toLower (h.symm ▸ hbytes)), h]
  · intro h
    rw [toLower_ascii fun b hb => ?_, h]
    have hmem : UInt8.ofNat (lowerASCII b.toNat) ∈ t := h ▸ List.mem_map_of_mem hb
    have hlt := (hbytes _ hmem).1
    rw [UInt8.toNat_ofNat', lowerASCII] at hlt
    have := b.toNat_lt
    split at hlt <;> omega

/-! ## The loop -/

section Loop

variable {insecure matched : Bool} {scheme host : Bytes} {es : List HostEntry}

lemma decideHosts_inject
    (h : ∃ e ∈ es, L.equalFold host e.host = true ∧
      (e.scheme ≠ [] ∧ e.scheme = scheme ∨
        e.scheme = [] ∧ (scheme = ascii "https" ∨ insecure = true))) :
    decideHosts L insecure scheme host matched es = .inject := by
  induction es generalizing matched with
  | nil => simp at h
  | cons e es ih =>
    obtain ⟨e', he', hfold, hscheme⟩ := h
    unfold decideHosts
    rcases List.mem_cons.mp he' with rfl | hmem
    · rw [if_neg (by simp [hfold])]
      rcases hscheme with ⟨hne, hsame⟩ | ⟨hnil, hcleared⟩
      · rw [if_neg hne, if_pos hsame]
      · rw [if_pos hnil, if_pos hcleared]
    · have hrest : ∀ m : Bool, decideHosts L insecure scheme host m es = .inject :=
        fun _ => ih ⟨e', hmem, hfold, hscheme⟩
      split
      · exact hrest matched
      · split
        · split
          · rfl
          · exact hrest true
        · split
          · rfl
          · exact hrest true

lemma decideHosts_refuse (hmatched : matched = true ∨ ∃ e ∈ es, L.equalFold host e.host = true)
    (h : ∀ e ∈ es, L.equalFold host e.host = true →
      ¬(e.scheme ≠ [] ∧ e.scheme = scheme ∨
        e.scheme = [] ∧ (scheme = ascii "https" ∨ insecure = true))) :
    decideHosts L insecure scheme host matched es = .refuse := by
  induction es generalizing matched with
  | nil =>
    obtain rfl : matched = true := by simpa using hmatched
    rfl
  | cons e es ih =>
    have hes := fun e' he' => h e' (List.mem_cons_of_mem e he')
    unfold decideHosts
    split
    next hfold =>
      refine ih (hmatched.imp_right fun hm => ?_) hes
      obtain ⟨e', he', hfold'⟩ := hm
      rcases List.mem_cons.mp he' with rfl | hmem
      · rw [hfold] at hfold'
        cases hfold'
      · exact ⟨e', hmem, hfold'⟩
    next hfold =>
      have hno := h e List.mem_cons_self (by simpa using hfold)
      have hrest : decideHosts L insecure scheme host true es = .refuse := ih (Or.inl rfl) hes
      split
      next hnil => rwa [if_neg fun hcleared => hno (Or.inr ⟨hnil, hcleared⟩)]
      next hne => rwa [if_neg fun hsame => hno (Or.inl ⟨hne, hsame⟩)]

lemma decideHosts_forward (h : ∀ e ∈ es, ¬ L.equalFold host e.host = true) :
    decideHosts L insecure scheme host false es = .forward := by
  induction es with
  | nil => rfl
  | cons e es ih =>
    unfold decideHosts
    rw [if_pos (by simpa using h e List.mem_cons_self)]
    exact ih fun e' he' => h e' (List.mem_cons_of_mem e he')

end Loop

/-! ## Construction -/

lemma mem_parseHosts {raws : List Bytes} {es : List HostEntry} (h : parseHosts L raws = .ok es)
    (e : HostEntry) : e ∈ es ↔ ∃ raw ∈ raws, parseHostEntry L raw = .ok e := by
  induction raws generalizing es with
  | nil =>
    obtain rfl : es = [] := by simpa [parseHosts, eq_comm] using h
    simp
  | cons raw raws ih =>
    unfold parseHosts at h
    cases hraw : parseHostEntry L raw with
    | error err =>
      rw [hraw] at h
      cases h
    | ok e₁ =>
      cases hrest : parseHosts L raws with
      | error err =>
        rw [hraw, hrest] at h
        cases h
      | ok es₁ =>
        rw [hraw, hrest] at h
        obtain rfl : e₁ :: es₁ = es := Except.ok.inj h
        simp [ih hrest, hraw, eq_comm]

/-- A list of entries is accepted if each of them is. -/
lemma parseHosts_isOk {raws : List Bytes} :
    (∃ es, parseHosts L raws = .ok es) ↔ ∀ raw ∈ raws, ∃ e, parseHostEntry L raw = .ok e := by
  induction raws with
  | nil => simp [parseHosts]
  | cons raw raws ih =>
    rw [List.forall_mem_cons, ← ih, parseHosts]
    cases parseHostEntry L raw with
    | error err => simp
    | ok e => cases parseHosts L raws <;> simp

/-- An entry's scheme is none, `http` or `https`. -/
lemma scheme_parseHostEntry {raw : Bytes} {e : HostEntry} (h : parseHostEntry L raw = .ok e) :
    e.scheme = [] ∨ e.scheme = ascii "http" ∨ e.scheme = ascii "https" := by
  have hhost : ∀ scheme rest, parseHostEntry.host raw scheme rest = .ok e →
      e.scheme = scheme := by
    intro scheme rest hok
    simp only [parseHostEntry.host] at hok
    split at hok
    · cases hok
    · split at hok
      · cases hok
      · exact congrArg HostEntry.scheme (Except.ok.inj hok).symm
  unfold parseHostEntry at h
  split at h
  next before rest hcut =>
    simp only at h
    split at h
    next => cases h
    next hscheme =>
      rw [hhost _ _ h]
      exact Or.inr (by simpa [or_iff_not_imp_left] using hscheme)
  next => exact Or.inl (hhost _ _ h)

/-- What a constructor has checked of its options. -/
structure Checked (L : CaseTables) (c : Config) (hosts : List HostEntry) : Prop where
  decided : c.hosts ≠ [] ↔ c.anyHost = false
  parsed : parseHosts L c.hosts = .ok hosts

lemma build_ok {t₀ t : Transport}
    (h : build L t₀ token opts = .ok t) :
    token = true ∧ ∃ hosts, Checked L (config opts) hosts ∧ t = { t₀ with
      token := true, base := (config opts).base, hosts := hosts
      anyHost := (config opts).anyHost, insecure := (config opts).insecure } := by
  unfold build at h
  split at h
  next => cases h
  next htoken =>
    have htoken : token = true := by simpa using htoken
    simp only at h
    split at h
    next => cases h
    next hboth =>
      split at h
      next => cases h
      next hneither =>
        cases hparse : parseHosts L (config opts).hosts with
        | error e =>
          rw [hparse] at h
          cases h
        | ok hosts =>
          rw [hparse] at h
          refine ⟨htoken, hosts, ⟨?_, hparse⟩, ?_⟩
          · rw [← List.length_pos_iff]
            cases hany : (config opts).anyHost with
            | true => simpa [hany] using hboth
            | false => simpa [hany, Nat.pos_iff_ne_zero] using hneither
          · rw [← Except.ok.inj h, htoken]

lemma build_of_checked {t₀ : Transport} {hosts : List HostEntry}
    (h : Checked L (config opts) hosts) : build L t₀ true opts = .ok { t₀ with
      token := true, base := (config opts).base, hosts := hosts
      anyHost := (config opts).anyHost, insecure := (config opts).insecure } := by
  have hdec := h.decided
  rw [← List.length_pos_iff] at hdec
  simp only [build, Bool.true_eq_false, if_false]
  rw [if_neg, if_neg, h.parsed]
  · rintro ⟨hzero, hany⟩
    exact absurd (hdec.mpr hany) (by omega)
  · rintro ⟨hpos, hany⟩
    rw [hdec.mp hpos] at hany
    cases hany

/-- Every constructor ends in `build`, which leaves the field and the credential as they are. -/
lemma make_eq_build {m : Maker} (h : m.make L token opts = .ok t) :
    ∃ t₀, build L t₀ token opts = .ok t ∧
      (∀ opts', m.make L token opts' = build L t₀ token opts') ∧
      canonicalMIMEHeaderKey t₀.header = m.field ∧ ∀ tok, t₀.value tok = m.credential tok := by
  have hheader : ∀ name lead, newHeader L name lead token opts = .ok t →
      ∃ t₀, build L t₀ token opts = .ok t ∧
        (∀ opts', newHeader L name lead token opts' = build L t₀ token opts') ∧
        t₀.header = (if name = [] then defaultHeader else name) ∧
          ∀ tok, t₀.value tok = lead ++ tok := by
    intro name lead hok
    simp only [newHeader] at hok ⊢
    generalize (if name = [] then defaultHeader else name) = field at hok ⊢
    split at hok
    next => cases hok
    next hname =>
      split at hok
      next => cases hok
      next hlead =>
        exact ⟨_, hok, fun opts' => by rw [if_neg hname, if_neg hlead], rfl, fun _ => rfl⟩
  cases m with
  | bearer =>
    obtain ⟨t₀, hbuild, hopts, hname, hvalue⟩ := hheader defaultHeader (ascii "Bearer ") h
    exact ⟨t₀, hbuild, hopts, by rw [hname]; decide, hvalue⟩
  | header name lead =>
    obtain ⟨t₀, hbuild, hopts, hname, hvalue⟩ := hheader name lead h
    exact ⟨t₀, hbuild, hopts, by rw [hname]; rfl, hvalue⟩
  | basic username =>
    simp only [Maker.make, newBasic] at h ⊢
    split at h
    next => cases h
    next huser =>
      refine ⟨_, h, fun opts' => by rw [if_neg huser], ?_, fun _ => rfl⟩
      exact (by decide : canonicalMIMEHeaderKey defaultHeader = ascii "Authorization")

/-- The field and the credential are the maker's. -/
lemma make_value {m : Maker} (h : m.make L token opts = .ok t) :
    canonicalMIMEHeaderKey t.header = m.field ∧ ∀ tok, t.value tok = m.credential tok := by
  obtain ⟨t₀, hbuild, -, hfield, hvalue⟩ := make_eq_build h
  obtain ⟨-, hosts, -, rfl⟩ := build_ok hbuild
  exact ⟨hfield, hvalue⟩

/-! ## The decision -/

section Decide

variable {c : Config} {hosts : List HostEntry} {t : Transport} {req : Request}

/-- A transport that has the settings `c`. -/
structure Configured (L : CaseTables) (c : Config) (t : Transport) : Prop where
  token : t.token = true
  base : t.base = c.base
  anyHost : t.anyHost = c.anyHost
  insecure : t.insecure = c.insecure
  decided : c.hosts ≠ [] ↔ c.anyHost = false
  hosts : ∀ e, e ∈ t.hosts ↔ ∃ raw ∈ c.hosts, parseHostEntry L raw = .ok e

lemma isHttps_iff {u : URL} (hu : req.url = some u) :
    IsHttps req ↔ L.toLower u.scheme = ascii "https" := by
  constructor
  · rintro ⟨u', hu', hs⟩
    rw [hu] at hu'
    rw [Option.some.inj hu', toLower_eq_iff (.inr rfl), hs]
  · exact fun hs => ⟨u, hu, (toLower_eq_iff (.inr rfl)).mp hs⟩

/-- Whether an entry that names the host lets the request carry the credential. -/
lemma admits_iff {raw : Bytes} {e : HostEntry} (he : parseHostEntry L raw = .ok e) {u : URL}
    (hu : req.url = some u) {insecure : Bool} :
    (e.scheme ≠ [] ∧ e.scheme = L.toLower u.scheme ∨
        e.scheme = [] ∧ (L.toLower u.scheme = ascii "https" ∨ insecure = true)) ↔
      (e.scheme ≠ [] ∧ e.scheme = lowered u.scheme ∨
        e.scheme = [] ∧ (IsHttps req ∨ insecure = true)) := by
  rw [isHttps_iff hu]
  refine or_congr_left (and_congr_right fun hne => ?_)
  rw [eq_comm, toLower_eq_iff ((scheme_parseHostEntry he).resolve_left hne), eq_comm]

/-- With the any-host option only the scheme counts. -/
lemma decide_anyHost (h : Configured L c t) (hany : c.anyHost = true) (req : Request) :
    (Admitted L c req → t.decide L req = .inject) ∧
      (¬ Admitted L c req → t.decide L req = .refuse) := by
  have hhosts : c.hosts = [] := by
    by_contra hne
    rw [h.decided.mp hne] at hany
    cases hany
  have hscheme : (req.url.map fun u => L.toLower u.scheme).getD [] = ascii "https" ↔
      IsHttps req := by
    cases hu : req.url with
    | none =>
      have hnil : ¬([] : Bytes) = ascii "https" := by decide
      refine ⟨fun h => absurd h hnil, fun hs => ?_⟩
      obtain ⟨u, hu', -⟩ := hs
      rw [hu] at hu'
      cases hu'
    | some u => exact (isHttps_iff hu).symm
  have hiff : Admitted L c req ↔ IsHttps req ∨ c.insecure = true := by
    simp [Admitted, hany, hhosts]
  unfold Transport.decide
  simp only [h.anyHost, hany, if_true, h.insecure]
  rw [hiff, ← hscheme]
  exact ⟨fun hcleared => if_pos hcleared, fun hno => if_neg hno⟩

/-- Without it the entries do. -/
lemma decide_entries (h : Configured L c t) (hany : c.anyHost = false) (req : Request) :
    (Admitted L c req → t.decide L req = .inject) ∧
      (Refused L c req → t.decide L req = .refuse) ∧
      ((¬ ∃ raw ∈ c.hosts, ∃ u e, Names L raw req u e) → t.decide L req = .forward) := by
  unfold Transport.decide
  simp only [h.anyHost, hany, Bool.false_eq_true, if_false]
  cases hu : req.url with
  | none =>
    have hno : ∀ raw u e, ¬ Names L raw req u e := by
      intro raw u e hn
      have := hn.url
      rw [hu] at this
      cases this
    have hadm : ¬ Admitted L c req := by
      rintro (⟨hany', -⟩ | ⟨raw, -, u, e, hn, -⟩)
      · rw [hany] at hany'
        cases hany'
      · exact hno raw u e hn
    refine ⟨fun ha => absurd ha hadm, fun hr => ?_, fun _ => rfl⟩
    rcases hr.1 with hany' | ⟨raw, -, u, e, hn⟩
    · rw [hany] at hany'
      cases hany'
    · exact absurd hn (hno raw u e)
  | some u =>
    simp only [Option.map_some, Option.getD_some, h.insecure]
    refine ⟨fun ha => decideHosts_inject ?_, fun hr => decideHosts_refuse ?_ ?_,
      fun hno => decideHosts_forward ?_⟩
    · rcases ha with ⟨hany', -⟩ | ⟨raw, hraw, u', e, hn, hscheme⟩
      · rw [hany] at hany'
        cases hany'
      · obtain rfl : u = u' := Option.some.inj (hu.symm.trans hn.url)
        exact ⟨e, (h.hosts e).mpr ⟨raw, hraw, hn.parsed⟩, hn.host,
          (admits_iff hn.parsed hu).mpr hscheme⟩
    · rcases hr.1 with hany' | ⟨raw, hraw, u', e, hn⟩
      · rw [hany] at hany'
        cases hany'
      · obtain rfl : u = u' := Option.some.inj (hu.symm.trans hn.url)
        exact Or.inr ⟨e, (h.hosts e).mpr ⟨raw, hraw, hn.parsed⟩, hn.host⟩
    · intro e he hfold hscheme
      obtain ⟨raw, hraw, hparsed⟩ := (h.hosts e).mp he
      exact hr.2 (Or.inr ⟨raw, hraw, u, e, ⟨hparsed, hu, hfold⟩,
        (admits_iff hparsed hu).mp hscheme⟩)
    · intro e he hfold
      obtain ⟨raw, hraw, hparsed⟩ := (h.hosts e).mp he
      exact hno ⟨raw, hraw, u, e, hparsed, hu, hfold⟩

/-- The decision is the rule's. -/
lemma decide_eq (h : Configured L c t) (req : Request) :
    (Admitted L c req → t.decide L req = .inject) ∧
      (Refused L c req → t.decide L req = .refuse) ∧
      (¬ Admitted L c req → ¬ Refused L c req → t.decide L req = .forward) := by
  cases hany : c.anyHost with
  | true =>
    obtain ⟨hinject, hrefuse⟩ := decide_anyHost h hany req
    exact ⟨hinject, fun hr => hrefuse hr.2, fun ha hr => absurd ⟨Or.inl hany, ha⟩ hr⟩
  | false =>
    obtain ⟨hinject, hrefuse, hforward⟩ := decide_entries h hany req
    exact ⟨hinject, hrefuse, fun ha hr => hforward fun hn => hr ⟨Or.inr hn, ha⟩⟩

lemma SameEntries.admitted {c' : Config} (h : SameEntries c c') (req : Request) :
    Admitted L c' req ↔ Admitted L c req := by
  simp only [Admitted, h.hosts, h.anyHost, h.insecure]

lemma SameEntries.refused {c' : Config} (h : SameEntries c c') (req : Request) :
    Refused L c' req ↔ Refused L c req := by
  simp only [Refused, h.hosts, h.anyHost, h.admitted req]

/-- The order and the number of the entries do not matter. -/
lemma decide_sameEntries {c' : Config} {t' : Transport} (h : Configured L c t)
    (h' : Configured L c' t') (hs : SameEntries c c') (req : Request) :
    t'.decide L req = t.decide L req := by
  obtain ⟨hi, hr, hf⟩ := decide_eq h req
  obtain ⟨hi', hr', hf'⟩ := decide_eq h' req
  rw [hs.admitted] at hi' hf'
  rw [hs.refused] at hr' hf'
  by_cases ha : Admitted L c req
  · rw [hi ha, hi' ha]
  · by_cases href : Refused L c req
    · rw [hr href, hr' href]
    · rw [hf ha href, hf' ha href]

end Decide

/-! ## The transport -/

/-- A steady token is read as it is. -/
lemma copyToken_steady {tok : Token} (h : tok.Steady) : copyToken tok = .ok tok.atCopy.bytes := by
  have hlen : ∀ a : Process.Abs, a.refusal = none → a.len = a.bytes.length := by
    intro a ha
    have hd : a.destroyed = false := by
      cases hd : a.destroyed with
      | false => rfl
      | true => simp [Process.Abs.refusal, hd] at ha
    simp [Process.Abs.len, hd]
  have hne : tok.atLen.bytes.length ≠ 0 := by
    rw [ne_eq, List.length_eq_zero_iff]
    exact h.nonempty
  have hcopy : copyOut tok.atCopy tok.atLen.bytes.length = (tok.atCopy.bytes, none) := by
    have hpos : ¬((0 : ℤ) < 0 ∨ (tok.atCopy.len : ℤ) ≤ 0) := by
      rw [hlen _ h.atCopy, h.length]
      omega
    simp only [copyOut, Process.Abs.answer, h.atCopy, Process.Abs.rangeError, if_neg hpos,
      Option.map_none, Option.getD_none, Process.Abs.reply, if_true, Int.toNat_zero, List.drop_zero]
    rw [← h.length, List.take_length]
  simp only [copyToken, hlen _ h.atLen, if_neg hne, hcopy]
  rw [if_neg (by rw [h.length]; simp)]

/-- A constructor's transport has the settings of its options. -/
lemma configured_of_make {m : Maker}
    (h : m.make L token opts = .ok t) : Configured L (config opts) t := by
  obtain ⟨t₀, hbuild, -⟩ := make_eq_build h
  obtain ⟨htoken, hosts, hc, rfl⟩ := build_ok hbuild
  exact ⟨rfl, rfl, rfl, rfl, hc.decided, mem_parseHosts hc.parsed⟩

/-- Another list of the same entries is accepted too, and gives a transport that differs from
the first only in its list. -/
lemma make_sameEntries {m : Maker} {opts opts' : List Opt}
    (h : m.make L token opts = .ok t) (hs : SameEntries (config opts) (config opts')) :
    ∃ t', m.make L token opts' = .ok t' ∧ t' = { t with hosts := t'.hosts } := by
  obtain ⟨t₀, hbuild, hmake, -⟩ := make_eq_build h
  obtain ⟨rfl, hosts, hc, rfl⟩ := build_ok hbuild
  obtain ⟨hosts', hparsed⟩ : ∃ es, parseHosts L (config opts').hosts = .ok es :=
    parseHosts_isOk.mpr fun raw hraw =>
      (parseHosts_isOk.mp ⟨hosts, hc.parsed⟩) raw ((hs.hosts raw).mp hraw)
  have hc' : Checked L (config opts') hosts' := by
    refine ⟨?_, hparsed⟩
    have hnil : (config opts').hosts = [] ↔ (config opts).hosts = [] := by
      simp only [List.eq_nil_iff_forall_not_mem, hs.hosts]
    rw [hs.anyHost, ← hc.decided, ne_eq, hnil]
  refine ⟨_, (hmake opts').trans (build_of_checked hc'), ?_⟩
  simp only [hs.base, hs.anyHost, hs.insecure]

/-- What comes of a request, for each decision. -/
lemma roundTrip_of_decide {c : Config} (ht : Configured L c t)
    (fallback : RoundTripper) {tok : Token} (htok : tok.Steady) (req : Request) :
    roundTrip L fallback (some t) tok (some req) =
      match t.decide L req with
      | .forward => ⟨some req, none, ((c.base.getD fallback) req).1,
          ((c.base.getD fallback) req).2, false⟩
      | .refuse => .failed .errInsecureScheme true
      | .inject =>
        let value := t.value tok.atCopy.bytes
        let clone := req.setHeader t.header value
        ⟨some clone, some value,
          ((c.base.getD fallback) clone).1.map fun r => { r with request := req },
          ((c.base.getD fallback) clone).2, false⟩ := by
  simp only [roundTrip, ht.token, Bool.true_eq_false, if_false, ht.base, copyToken_steady htok]

lemma carries_setHeader {m : Maker} (h : m.make L token opts = .ok t) (bs : Bytes)
    (req : Request) : Carries m bs req (req.setHeader t.header (m.credential bs)) := by
  rw [Request.setHeader, (make_value h).1]
  exact ⟨Function.update_self .., fun _ hne => Function.update_of_ne hne .., rfl, rfl⟩

end Secmem.HttpAuth
