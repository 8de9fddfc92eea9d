import Secmem.Process.Sealing

/-!
# The life of a buffer, alone

The methods that change the protection, the length or the existence of a buffer, and its
constructors, when one goroutine runs alone.
-/

namespace Secmem.Process

open World

variable {T : Type}

section Rules

variable {P : Platform} {t : T} {faulty : Bool} {crash : Prop} {w : World T}
  {b key : ℕ} {layout : CanaryLayout} {o : Obj T} {s : Sealing} {Q : Option GoErr → World T → Prop}

lemma lookup_names (h : Calm b key layout w) {e : Entry} (hlook : w.lookup key = some e) :
    e.Names b := by
  rcases lookup_eq_some hlook with hr | ⟨-, hw⟩
  · rw [h.live e hr]
    exact names_ownEntry b layout
  · rw [h.wiped e hw]
    exact (names_ownEntry b layout).retained

variable [DecidableEq T]

/-! ## Protection and length -/

lemma ens_setProtection (hi : Ready o) {name : String} {p : Prot} {ro : Bool}
    (hrefused : ∀ e, o.view.refusal = some e → Q (some (.wrap name e)) (w.setObj b o))
    (hfailed : faulty = true → o.view.refusal = none → ∀ e, Q (some e) (w.setObj b o))
    (hdone : o.view.refusal = none → Q none (w.setObj b
      { (if o.state.closedAtRest = true then o else o.setProt p) with
        state := { o.state with readOnly := ro } })) :
    Ens P t faulty crash (setProtection b name p ro) Q (w.setObj b o) := by
  refine ens_lockedObj hi.mu (ens_checked (ens_gate hi.noRegion_eq) ?_ ?_)
  · intro e he
    exact ⟨_, rfl, rfl, hi.mu ▸ hrefused e he⟩
  · intro hr
    have hwiped : o.wiped = false := (refusal_eq_none.mp hr).2.1
    simp only [ens_bind]
    cases hc : o.state.closedAtRest with
    | true =>
      have := hdone hr
      rw [hc, if_pos rfl] at this
      simp only [Bool.true_eq_false, if_false, ens_pure, ens_bind, ens_store, obj_setObj,
        setObj_setObj]
      refine ⟨_, rfl, rfl, ?_⟩
      rw [← hi.mu]
      exact this
    | false =>
      have := hdone hr
      rw [hc, if_neg Bool.false_ne_true] at this
      simp only [if_true]
      rw [ens_mprotect (Or.inl (by rw [obj_setObj]; exact hwiped))]
      simp only [ens_pure, ens_bind, ens_store, obj_setObj, setObj_setObj]
      refine ⟨⟨_, rfl, rfl, ?_⟩, fun hf n => ⟨_, rfl, rfl, hi.mu ▸ hfailed hf hr _⟩⟩
      rw [← hi.mu]
      exact this

/-- The buffer cut to `n` bytes. -/
def Obj.cut (o : Obj T) (n : ℕ) : Obj T := { o with state := { o.state with data := some n } }

lemma ens_truncate (hi : Ready o) {n : ℤ}
    (hrefused : ∀ e, o.view.mutationRefusal = some e →
      Q (some (.wrap "secmem.SecureBuffer.Truncate: " e)) (w.setObj b o))
    (hrange : o.view.mutationRefusal = none → n < 0 ∨ (o.state.len : ℤ) < n →
      Q (some (lengthOutOfRange n o.state.len)) (w.setObj b o))
    (hsame : o.view.mutationRefusal = none → n = o.state.len →
      Q none (w.setObj b (o.cut n.toNat)))
    (hcut : o.view.mutationRefusal = none → 0 ≤ n → n < o.state.len → ∀ used err o',
      Used faulty o (o.content.write n.toNat (List.replicate (o.state.len - n.toNat) 0))
        used err o' →
      Q (err.map (.wrap "secmem.SecureBuffer.Truncate: "))
        (w.setObj b (if err = none then o'.cut n.toNat else o'))) :
    Ens P t faulty crash (truncate b n) Q (w.setObj b o) := by
  refine ens_mutating hi hi.noRegion_eq hrefused fun hr hro hu => ?_
  have hm : o.view.mutationRefusal = none := mutationRefusal_eq_none.mpr ⟨hr, hro⟩
  by_cases hout : n < 0 ∨ (o.state.len : ℤ) < n
  · rw [if_pos hout, ens_pure]
    exact ⟨_, rfl, rfl, hi.mu ▸ hrange hm hout⟩
  · rw [if_neg hout, ens_bind, wipeTail]
    by_cases hzero : o.state.len - n.toNat = 0
    · rw [if_pos hzero]
      simp only [ens_pure, ens_bind, ens_store, obj_setObj, setObj_setObj]
      have := hsame hm (by omega)
      refine ⟨_, rfl, rfl, ?_⟩
      rw [← hi.mu]
      exact this
    · rw [if_neg hzero, ens_bind]
      have hin : n.toNat + (List.replicate (o.state.len - n.toNat) (0 : UInt8)).length ≤
          o.region.inner.length := by
        have hle := hi.len_le_inner hr
        rw [List.length_replicate]
        omega
      refine ens_whileOpen hu (r := ()) (fun Q₁ hQ₁ => ens_writeBody hu hro hin hQ₁)
        fun used err o' hu' => ?_
      have hQ := hcut hm (by omega) (by omega) used err _ (hu'.unlocked hi.mu)
      cases err with
      | some e =>
        exact ⟨o', rfl, hu'.mu_eq, hQ⟩
      | none =>
        simp only [ens_pure, ens_bind, ens_store, obj_setObj, setObj_setObj]
        exact ⟨_, rfl, hu'.mu_eq, hQ⟩

/-! ## Destroy -/

lemma ens_decryptForRelease (ho : o.region.mapped = true) (hrw : s.prot = .readWrite)
    {Q : Unit → World T → Prop}
    (hQ : ∀ s', s' = { s with cipher := s'.cipher, inner := s'.inner, rest := s'.rest } →
      Q () (w.setObj b (o.withSealing s'))) :
    Ens P t faulty crash (decryptForRelease b) Q (w.setObj b (o.withSealing s)) := by
  have hc : (o.withSealing s).sealCipher = s.cipher := rfl
  rw [decryptForRelease, ens_bind, ens_loadSealCipher, obj_setObj, hc, ens_when]
  split
  next hflag =>
    rw [ens_bind]
    refine ens_sealDecrypt (fun hnone => ?_) (fun hne hbad e => ?_) ?_ fun cipher hcipher hlen => ?_
    · simp only [ens_when, if_true, ens_storeSealCipher, obj_setObj, setObj_setObj]
      exact hQ { s with cipher := false } rfl
    · simp only [ens_when, reduceCtorEq, if_false]
      exact hQ s rfl
    · rw [obj_setObj]
      refine ⟨ho, ?_⟩
      have : (o.withSealing s).region.prot = s.prot := rfl
      rw [this, hrw]
      rfl
    · simp only [ens_when, if_true, ens_storeSealCipher, obj_setObj, setObj_setObj]
      exact hQ { s with
        cipher := false, inner := cipher.decrypt s.inner, rest := cipher.decrypt s.inner } rfl
  next => exact hQ s rfl

lemma ens_reportIntegrity {verify : Bool} (h : Calm b key layout w)
    (hreg : verify = true → w.lookup key ≠ none) (ho : o.region.mapped = true)
    (hrw : s.prot = .readWrite)
    (hQ : ∀ err w', Calm b key layout w' → Evolves key w w' →
      Q err (w'.setObj b (o.withSealing s))) :
    Ens P t faulty crash (reportIntegrity P b verify) Q (w.setObj b (o.withSealing s)) := by
  rw [reportIntegrity]
  split
  next hv =>
    rw [ens_bind]
    exact ens_sealVerify h (hreg hv) ho (by rw [hrw]; rfl)
      (fun w' hcalm hev _ => hQ none w' hcalm hev)
      (fun w' _ hcalm hev _ _ _ => hQ _ w' hcalm hev) fun _ _ w' hcalm hev => hQ _ w' hcalm hev
  next => exact hQ none w h (.refl _ _)

/-- What `destroySealed` does with a buffer whose pages are to be opened. -/
def openForRelease (P : Platform) (b : ℕ) (verify : Bool) : ProcProg (Option GoErr) := do
  let err : Option GoErr ← upon b (.mprotect .readWrite)
  match err with
  | some _ => pure none
  | none => do
    let _ ← upon b .relock
    let integrityErr ← reportIntegrity P b verify
    decryptForRelease b
    pure integrityErr

/-- What `Destroy` makes of a sealed buffer before it is released. -/
lemma ens_destroySealed (h : Calm b key layout w) (hreg : w.lookup key ≠ none)
    (hmu : o.mu = lockedBy t) (ho : o.region.mapped = true) {st : BufferState}
    (hQ : ∀ err w' s', Calm b key layout w' → Evolves key w w' →
      s' = { s with cipher := s'.cipher, inner := s'.inner, rest := s'.rest, prot := s'.prot } →
      Q err (w'.setObj b (o.withSealing s'))) :
    Ens P t faulty crash (destroySealed P b st) Q (w.setObj b (o.withSealing s)) := by
  -- once it is known whether a tag is to be verified
  have hgo : ∀ verify : Bool, Ens P t faulty crash (do
        let needed ← (if verify = true then pure true else upon b .loadSealCipher)
        if needed = false then pure none else openForRelease P b verify)
        Q (w.setObj b (o.withSealing s)) := by
    intro verify
    have hlift : Ens P t faulty crash (openForRelease P b verify) Q
        (w.setObj b (o.withSealing s)) := by
      have hheld : holds (o.withSealing s).mu t = true := by
        have : (o.withSealing s).mu = o.mu := rfl
        rw [this, hmu]
        exact holds_lockedBy t
      have hrest : Ens P t faulty crash (do
          let integrityErr ← reportIntegrity P b verify
          decryptForRelease b
          pure integrityErr) Q (w.setObj b (o.withSealing { s with prot := .readWrite })) := by
        rw [ens_bind]
        refine ens_reportIntegrity (s := { s with prot := .readWrite }) h (fun _ => hreg) ho rfl
          fun err w' hcalm hev => ?_
        rw [ens_bind]
        refine ens_decryptForRelease (s := { s with prot := .readWrite }) ho rfl fun s' hkept => ?_
        refine hQ err w' s' hcalm hev ?_
        rw [hkept]
      rw [openForRelease, ens_bind,
        ens_mprotect (Or.inr (by rw [obj_setObj]; exact hheld))]
      refine ⟨?_, fun _ n => hQ none w s h (.refl _ _) rfl⟩
      rw [obj_setObj, setObj_setObj]
      simp only
      rw [ens_bind, ens_relock]
      exact ⟨hrest, fun _ _ => hrest⟩
    rw [ens_bind]
    split
    next => exact hlift
    next =>
      rw [ens_loadSealCipher]
      split
      next => exact hQ none w s h (.refl _ _) rfl
      next => exact hlift
  rw [destroySealed, ens_bind, hasTag]
  split
  next =>
    rw [ens_bind, ens_loadWiped, obj_setObj, ens_pure]
    exact hgo _
  next => exact hgo false

/-- A buffer that has been destroyed. -/
structure Destroyed (o o' : Obj T) : Prop where
  mu : o'.mu = .free
  openMu : o'.openMu = o.openMu
  openers : o'.openers = o.openers
  wiped : o'.wiped = o.wiped
  state : o'.state = { o.state with cleanup := false, data := none, inner := false }

lemma ens_destroy (h : Calm b key layout w) (hi : Idle o) (hkey : o.state.janitorKey = key)
    (hreg : o.state.inner = true → w.lookup key ≠ none)
    (hgone : o.state.inner = false → Q none (w.setObj b o))
    (hdone : o.state.inner = true → ∀ err w' o', Calm b key layout w' → w'.lookup key = none →
      Destroyed o o' → Q err (w'.setObj b o')) :
    Ens P t faulty crash (destroy P b) Q (w.setObj b o) := by
  rw [destroy, ens_locked (by rw [obj_setObj]; exact hi.mu), obj_setObj,
    setObj_setObj, ens_bind, ens_load, obj_setObj]
  by_cases hg : o.state.inner = false
  · rw [if_pos hg, ens_pure, obj_setObj, setObj_setObj, unlock_lockedBy, ← hi.mu]
    exact hgone hg
  · have hlive : o.state.inner = true := by simpa using hg
    rw [if_neg hg, ens_bind, ens_store, obj_setObj, setObj_setObj, ens_bind]
    set o₁ : Obj T := { o with mu := lockedBy t, state := { o.state with cleanup := false } }
      with ho₁
    refine ens_destroySealed (o := o₁) (s := o.sealing) h (hreg hlive) rfl (hi.mapped hlive)
      fun err w₁ s' hcalm hev hkept => ?_
    rw [ens_bind, release, if_pos rfl, hkey]
    have hobj : (w₁.setObj b (o₁.withSealing s')).obj b = o₁.withSealing s' :=
      obj_setObj _ _ _
    have hlook : (w₁.setObj b (o₁.withSealing s')).lookup key = w.lookup key := by
      have h₁ : (w₁.setObj b (o₁.withSealing s')).lookup key = w₁.lookup key := rfl
      rw [h₁, World.lookup, hev.live, hev.wiped]
      rfl
    have hcalm' := hcalm.setObj (o₁.withSealing s')
    refine ens_releaseHeld (hcalm'.once key) (fun e he => ?_) (fun hnone => ?_)
      fun e rerr w₂ he hf hrefiled howner => ?_
    · have hn := lookup_names hcalm' he
      refine ⟨hn.region.symm ▸ hn, ?_⟩
      rw [hn.region, hobj]
      exact hi.mapped hlive
    · rw [hlook] at hnone
      exact absurd hnone (hreg hlive)
    · have hn := lookup_names hcalm' he
      rw [hn.region] at hf howner
      rw [hobj] at howner
      have hcalm₂ := hcalm'.refiled hf hrefiled (fun he => by cases he)
        (fun _ he => by cases he) fun _ he => by cases he
      simp only [ens_bind, ens_store, ens_pure, obj_setObj, setObj_setObj]
      refine hdone hlive _ w₂ _ hcalm₂ (by rw [World.lookup, hrefiled.live, hrefiled.wiped]; rfl)
        ⟨?_, howner.openMu, howner.openers, howner.wiped, ?_⟩
      · rw [howner.mu]
        rfl
      · rw [howner.state, hkept]
        rfl

end Rules

/-! ## Constructors -/

/-- How a buffer is made. -/
inductive Ctor
  | newBuffer (raw : List UInt8) (cfg : Config)
  | newEmptyBuffer (size : ℤ) (cfg : Config)

namespace Ctor

def run (P : Platform) : Ctor → ProcProg (Except GoErr ℕ)
  | newBuffer raw cfg => Process.newBuffer P raw cfg
  | newEmptyBuffer size cfg => Process.newEmptyBuffer P size cfg

def cfg : Ctor → Config
  | newBuffer _ cfg => cfg
  | newEmptyBuffer _ cfg => cfg

def size : Ctor → ℕ
  | newBuffer raw _ => raw.length
  | newEmptyBuffer size _ => size.toNat

/-- Why the constructor refuses its arguments. -/
def refusal : Ctor → Option GoErr
  | newBuffer raw _ => if raw = [] then some (.new "secmem.NewBuffer: empty input") else none
  | newEmptyBuffer size _ =>
    if size ≤ 0 then some (.new s!"secmem.NewEmptyBuffer: invalid size {size}") else none

def layout (P : Platform) (c : Ctor) : CanaryLayout := bufferCanary c.size (P.rounded c.size)

/-- What the region holds in the end. -/
def contents (P : Platform) (c : Ctor) : List UInt8 :=
  let armed := (c.layout P).arm P.pattern (List.replicate (P.rounded c.size) 0)
  match c with
  | newBuffer raw _ => writeAt armed 0 raw
  | newEmptyBuffer _ _ => armed

end Ctor

/-- A region of a buffer, allocated and filled with `plain`, that nobody has used yet. -/
structure Fresh (plain : List UInt8) (p : Prot) (o : Obj T) : Prop where
  kind : o.kind = .buffer
  mu : o.mu = .free
  wiped : o.wiped = false
  sealCipher : o.sealCipher = false
  openMu : o.openMu = none
  openers : o.openers = 0
  region : o.region = ⟨plain, p, true⟩
  plain : o.ghost.plain = plain

/-- The state that a constructor leaves in its buffer. -/
def BufferState.born (size : ℕ) (cfg : Config) : BufferState :=
  { BufferState.new size cfg with
    janitorKey := 1, cleanup := true, closedAtRest := cfg.closedAtRest }

/-- A buffer that its constructor has made. -/
structure Born (plain : List UInt8) (size : ℕ) (cfg : Config) (o : Obj T) : Prop extends
    Fresh plain (restProtection (.born size cfg)) o where
  state : o.state = .born size cfg

/-- The world with one object, registered under the first key. -/
def World.single (o : Obj T) (layout : CanaryLayout) : World T :=
  { (World.initial T).grown o with
    nextJanitorKey := 1
    regions := Function.update (fun _ => none) 1 (some (ownEntry 0 layout)) }

namespace World

variable (o o' : Obj T) (layout : CanaryLayout)

@[simp] lemma obj_single : (single o layout).obj 0 = o := (World.initial T).obj_grown o

@[simp] lemma setObj_single : (single o layout).setObj 0 o' = single o' layout := by
  simp [single, setObj, grown, World.initial, Function.update_idem]

lemma lookup_single : (single o layout).lookup 1 = some (ownEntry 0 layout) := rfl

lemma calm_single : Calm 0 1 layout (single o layout) where
  allocated := Nat.zero_lt_one
  once k _ := rfl
  live e he := (Option.some.inj he).symm
  wiped e he := by cases he
  other k e hk hlook := by
    have hnone : (single o layout).regions k = none := by
      simp only [single, Function.update_of_ne hk]
    rw [World.lookup, hnone] at hlook
    cases hlook
  prekey q k hpre := by cases hpre
  keyringMu := rfl
  readable q hq := by cases hq

end World

section Construct

variable {P : Platform} {t : T} {faulty : Bool} {crash : Prop} {layout : CanaryLayout}
  {Q : Option GoErr → World T → Prop} {o : Obj T} {cfg : Config} {plain : List UInt8}

/-- An unused buffer is ready for its first user. -/
lemma Fresh.ready {p : Prot} (h : Fresh plain p o)
    (hlen : o.state.len ≤ plain.length) (hgone : o.state.inner = !o.state.data.isNone)
    (hr : o.state.closedAtRest = false → p.readable = true)
    (hw : o.state.closedAtRest = false → o.state.readOnly = false → p.writable = true) :
    Ready o where
  mu := h.mu
  openMu := h.openMu
  openers := h.openers
  gone := hgone
  mapped _ := by rw [h.region]
  readable _ hc := by
    rw [h.region]
    exact hr hc
  writable _ hc hro := by
    rw [h.region]
    exact hw hc hro
  len_le := by
    rw [h.plain]
    exact hlen
  plain _ := by rw [h.plain, h.region]

lemma Born.ready {size : ℕ}
    (h : Born plain size cfg o) (hlen : size ≤ plain.length) : Ready o := by
  refine h.toFresh.ready ?_ ?_ ?_ ?_
  · rw [h.state]
    exact hlen
  · rw [h.state]
    rfl
  · rw [h.state]
    intro hc
    have hc' : cfg.closedAtRest = false := hc
    simp [restProtection, BufferState.born, hc', BufferState.new, BufferState.zero, Prot.readable]
  · rw [h.state]
    intro hc _
    have hc' : cfg.closedAtRest = false := hc
    simp [restProtection, BufferState.born, hc', BufferState.new, BufferState.zero, Prot.writable]

/-- The first use of a buffer leaves it as its constructor does. -/
lemma Born.rested {plain plain' r : List UInt8} {size : ℕ}
    {c : Content} (h : Born plain size cfg o) (hc : c = ⟨plain', plain', r⟩) :
    Born plain' size cfg (o.withContent c).rested := by
  subst hc
  have hprot : restProtection (.born size cfg) =
      if o.state.closedAtRest = true then .none else restProtection (.born size cfg) := by
    rw [h.state]
    split
    next hc => simp only [restProtection, hc, if_true]
    next => rfl
  unfold Obj.rested
  split
  next hc =>
    refine ⟨⟨h.kind, h.mu, h.wiped, h.sealCipher, h.openMu, h.openers, ?_, rfl⟩, h.state⟩
    have hc' : o.state.closedAtRest = true := hc
    rw [hprot, if_pos hc']
    simp only [Obj.setProt, Obj.withContent, h.region]
  next hc =>
    refine ⟨⟨h.kind, h.mu, h.wiped, h.sealCipher, h.openMu, h.openers, ?_, rfl⟩, h.state⟩
    simp only [Obj.withContent, h.region]

variable [DecidableEq T]

/-- The allocation and the canary. -/
lemma ens_allocArmed {name : String} {size : ℕ} {layout : ℕ → CanaryLayout}
    {Q : Except GoErr (ℕ × ℕ) → World T → Prop}
    (hbad : faulty = true → ∀ e w', Q (.error e) w')
    (hok : ∀ o, Fresh ((layout (P.rounded size)).arm P.pattern
        (List.replicate (P.rounded size) 0)) .readWrite o →
      Q (.ok (0, P.rounded size)) ((World.initial T).grown o)) :
    Ens P t faulty crash (allocArmed .buffer name size layout) Q (World.initial T) := by
  rw [allocArmed, ens_bind, ens_alloc]
  refine ⟨?_, fun hf n => hbad hf _ _⟩
  have h0 : (World.initial T).allocated = 0 := rfl
  rw [h0]
  simp only [ens_bind]
  rw [ens_act]
  intro c hc
  have hobj : ((World.initial T).grown (Obj.fresh P t .buffer size)).obj 0 =
      Obj.fresh P t .buffer size := (World.initial T).obj_grown _
  simp only [exec, hobj, execObj]
  cases hos : c.os with
  | some n =>
    have hf : faulty = true := hc.resolve_right (by rw [hos]; exact Option.some_ne_none n)
    simp only [Outcome.within_done, Outcome.post_done, ens_bind, ens_free, ens_pure]
    exact ⟨hbad hf _ _, fun _ _ => hbad hf _ _⟩
  | none =>
    have hfresh : (Obj.fresh P t .buffer size).region.mapped = true ∧
        Prot.writable (Obj.fresh P t .buffer size).region.prot = true := ⟨rfl, rfl⟩
    have hset := (World.initial T).setObj_grown (Obj.fresh P t .buffer size)
      ((Obj.fresh P t .buffer size).setPlain
        ((layout (P.rounded size)).arm P.pattern (List.replicate (P.rounded size) 0))
        ((layout (P.rounded size)).arm P.pattern (List.replicate (P.rounded size) 0)))
    rw [h0] at hset
    refine (congrArg (Q _) hset).mpr (hok _ ⟨rfl, rfl, rfl, rfl, rfl, rfl, rfl, rfl⟩)

/-- A failed constructor destroys what it has made. -/
lemma ens_destroySingle (hi : Idle o) (hkey : o.state.janitorKey = 1)
    (hQ : ∀ err w', Q err w') :
    Ens P t faulty crash (destroy P 0) Q (World.single o layout) := by
  rw [← setObj_single o o]
  refine ens_destroy (calm_single o layout) hi hkey (fun _ => ?_) (fun _ => hQ _ _)
    fun _ _ _ _ _ _ _ => hQ _ _
  rw [lookup_single]
  exact Option.some_ne_none _

lemma ens_newSecureBuffer {size innerLen : ℕ}
    (ho : Fresh plain .readWrite o) (hlen : size ≤ plain.length)
    {Q : Except GoErr ℕ → World T → Prop} (hbad : faulty = true → ∀ e w', Q (.error e) w')
    (hok : ∀ o', Born plain size cfg o' →
      Q (.ok 0) (World.single o' (bufferCanary size innerLen))) :
    Ens P t faulty crash (newSecureBuffer P 0 size innerLen cfg) Q
      ((World.initial T).grown o) := by
  have hobj : ((World.initial T).grown o).obj 0 = o := (World.initial T).obj_grown o
  have hset : ∀ o', ((World.initial T).grown o).setObj 0 o' = (World.initial T).grown o' :=
    fun o' => (World.initial T).setObj_grown o o'
  rw [newSecureBuffer, ens_bind, ens_store, hobj, hset, ens_bind]
  refine ens_register (fun hocc => ?_) fun _ => ?_
  · rcases hocc with hzero | hlive | hwiped
    · cases hzero
    · cases hlive
    · cases hwiped
  · set o₁ : Obj T := { o with state := .new size cfg } with ho₁
    have hworld : ({ ((World.initial T).grown o₁).setObj 0
          ((((World.initial T).grown o₁).obj 0).refile (.live 1)) with
        nextJanitorKey := 1
        regions := Function.update (fun _ => none) 1
          (some (bufferEntry 0 size innerLen)) } : World T) =
        World.single (o₁.refile (.live 1)) (bufferCanary size innerLen) := by
      have hset₁ := (World.initial T).setObj_grown o₁ (o₁.refile (.live 1))
      have hobj₁ := (World.initial T).obj_grown o₁
      have h0 : (World.initial T).allocated = 0 := rfl
      rw [h0] at hset₁ hobj₁
      rw [hobj₁, hset₁]
      rfl
    refine hworld.symm ▸ ?_
    simp only [ens_bind, ens_store, obj_single, setObj_single]
    split
    next hc =>
      -- a closed-at-rest buffer is protected before it is told so
      rw [bornClosed, ens_bind,
        ens_mprotect (Or.inl (by rw [obj_single]; exact ho.wiped))]
      rw [obj_single, setObj_single]
      refine ⟨?_, fun hf n => ?_⟩
      · simp only [ens_bind, ens_store, ens_pure, obj_single, setObj_single]
        refine hok _ ⟨⟨ho.kind, ho.mu, ho.wiped, ho.sealCipher, ho.openMu, ho.openers, ?_,
          ho.plain⟩, ?_⟩
        · simp only [Obj.setProt, Obj.refile, ho₁, ho.region]
          simp [restProtection, BufferState.born, hc]
        · simp only [BufferState.born, hc]
          rfl
      · simp only [ens_bind]
        refine ens_destroySingle ?_ rfl fun _ _ => hbad hf _ _
        refine Ready.toIdle (Fresh.ready (p := .readWrite) ⟨ho.kind, ho.mu, ho.wiped,
          ho.sealCipher, ho.openMu, ho.openers, ho.region, ho.plain⟩ ?_ ?_ ?_ ?_)
        · exact hlen
        · rfl
        · exact fun _ => rfl
        · exact fun _ _ => rfl
    next hc =>
      have hc' : cfg.closedAtRest = false := by simpa using hc
      rw [ens_pure]
      refine hok _ ⟨⟨ho.kind, ho.mu, ho.wiped, ho.sealCipher, ho.openMu, ho.openers, ?_,
        ho.plain⟩, ?_⟩
      · simp only [Obj.refile, ho₁, ho.region]
        simp [restProtection, BufferState.born, BufferState.new, BufferState.zero, hc']
      · simp only [BufferState.born, hc']
        rfl

/-- The caller's bytes go into a buffer that was just made. -/
lemma ens_fillInitial {plain raw : List UInt8}
    (ho : Born plain raw.length cfg o) (hraw : raw ≠ []) (hlen : raw.length ≤ plain.length)
    (hbad : faulty = true → ∀ e w', Q (some e) w')
    (hok : ∀ o', Born (writeAt plain 0 raw) raw.length cfg o' →
      Q none (World.single o' layout)) :
    Ens P t faulty crash (fillInitial P 0 raw) Q (World.single o layout) := by
  have hready := ho.ready hlen
  have hview : o.view.refusal = none := by
    refine refusal_eq_none.mpr ⟨?_, ho.wiped, ?_⟩
    · simp only [Obj.view, ho.state]
      rfl
    · simp only [Obj.view, ho.state]
      rfl
  have hro : o.state.readOnly = false := by rw [ho.state]; rfl
  have hu := hready.usable hview (holds_lockedBy t)
  rw [fillInitial, ens_bind, copyInitial, ← setObj_single o o]
  refine ens_lockedObj ho.mu ?_
  rw [ens_bind, ens_loadWiped, obj_setObj]
  rw [if_neg (by rw [ho.wiped]; exact Bool.false_ne_true), ens_bind]
  have hin : 0 + raw.length ≤ ({ o with mu := lockedBy t } : Obj T).region.inner.length := by
    simp only [ho.region]
    omega
  refine ens_whileOpen hu (r := ()) (fun Q₁ hQ₁ => ens_writeBody hu hro hin hQ₁)
    fun used err o' hu' => ⟨o', rfl, hu'.mu_eq, ?_⟩
  have hfree := hu'.unlocked ho.mu
  rw [setObj_single]
  beta_reduce
  generalize ({ o' with mu := .free } : Obj T) = o'' at hfree
  cases hfree with
  | done =>
    rw [ens_pure]
    refine hok _ (ho.rested (r := writeAt plain 0 raw) ?_)
    simp only [Content.write, if_neg hraw, Obj.content, ho.region, ho.plain]
  | notOpened e p hf hc =>
    rw [ens_bind]
    refine ens_destroySingle ((Used.notOpened (c := o.content) e p hf hc).idle hready.toIdle) ?_
      fun _ _ => hbad hf _ _
    simp only [Obj.setProt, ho.state]
    rfl
  | notClosed e p hf hc hlen' =>
    rw [ens_bind]
    refine ens_destroySingle ((Used.notClosed e p hf hc hlen').idle hready.toIdle) ?_
      fun _ _ => hbad hf _ _
    simp only [Obj.setProt, Obj.withContent, ho.state]
    rfl

/-- A constructor refuses its arguments, fails with the platform, or makes its buffer. -/
lemma ens_ctor (c : Ctor) {Q : Except GoErr ℕ → World T → Prop}
    (hrefused : ∀ e, c.refusal = some e → Q (.error e) (World.initial T))
    (hbad : faulty = true → ∀ e w', Q (.error e) w')
    (hok : c.refusal = none → ∀ o, Born (c.contents P) c.size c.cfg o →
      Q (.ok 0) (World.single o (c.layout P))) :
    Ens P t faulty crash (c.run P) Q (World.initial T) := by
  have hlen : ∀ n, n ≤ ((bufferCanary n (P.rounded n)).arm P.pattern
      (List.replicate (P.rounded n) 0)).length := by
    intro n
    rw [CanaryLayout.length_arm, List.length_replicate]
    exact P.le_rounded n
  cases c with
  | newBuffer raw cfg =>
    simp only [Ctor.run, newBuffer]
    by_cases hraw : raw = []
    · rw [if_pos hraw, ens_pure]
      exact hrefused _ (if_pos hraw)
    · rw [if_neg hraw, ens_bind]
      refine ens_allocArmed (fun hf e w' => hbad hf e w') fun o ho => ?_
      simp only [ens_bind]
      refine ens_newSecureBuffer ho (hlen _) (fun hf e w' => hbad hf e w') fun o₁ ho₁ => ?_
      simp only [ens_bind]
      exact ens_fillInitial ho₁ hraw (hlen _) (fun hf e w' => hbad hf _ w')
        fun o₂ ho₂ => hok (if_neg hraw) o₂ ho₂
  | newEmptyBuffer size cfg =>
    simp only [Ctor.run, newEmptyBuffer]
    by_cases hsize : size ≤ 0
    · rw [if_pos hsize, ens_pure]
      exact hrefused _ (if_pos hsize)
    · rw [if_neg hsize, ens_bind]
      refine ens_allocArmed (fun hf e w' => hbad hf e w') fun o ho => ?_
      exact ens_newSecureBuffer ho (hlen _) (fun hf e w' => hbad hf e w')
        fun o₁ ho₁ => hok (if_neg hsize) o₁ ho₁

end Construct

end Secmem.Process
