import Secmem.Process.Comparing
import Secmem.Process.Histories

/-!
# After `Destroy`, and after a wipe

Whatever a goroutine does with a buffer before it destroys it, emergency wipes included, afterwards
every method says that the buffer is destroyed, and this stays so (`destroyed_for_good`).
`IsSealed` is the exception: `Destroy` does not touch the flag, so a buffer that was sealed goes on
saying so (`destroyed_sealed`).  A buffer that was wiped stays zero and closed (`wiped_for_good`).
-/

namespace Secmem.Process

variable {T : Type}

/-! ## Emergency wipes -/

/-- The second pass of `wipeAllInPlace`, whose goroutines run in turn while the caller waits. -/
def sweepInTurn (c : ℕ) : List ℕ → ProcProg Unit
  | [] => pure ()
  | key :: keys => do
    let err ← wipeInPlace (some c) key
    joinErr c err
    sweepInTurn c keys

/-- `wipeAllInPlace` with nobody else about. -/
def wipeAllAlone : ProcProg (Option GoErr) := do
  let snap : ℕ × List ℕ ← perform .snapshot
  let deferred ← firstPass snap.1 snap.2
  sweepInTurn snap.1 deferred
  let errs : Option GoErr ← perform (.readErrs snap.1)
  perform (.sweepReturns snap.1)
  pure errs

/-- A wiped buffer: as many zeros. -/
def Abs.purged (a : Abs) : Abs :=
  { a with bytes := List.replicate a.bytes.length 0, wiped := true }

/-- What a wipe may do to a buffer. -/
def Abs.Swept (a a' : Abs) : Prop := a' = a ∨ a.destroyed = false ∧ a' = a.purged

lemma Abs.Swept.trans {a a' a'' : Abs} (h : a.Swept a') (h' : a'.Swept a'') : a.Swept a'' := by
  rcases h with rfl | ⟨hd, rfl⟩
  · exact h'
  · rcases h' with rfl | ⟨-, rfl⟩
    · exact .inr ⟨hd, rfl⟩
    · exact .inr ⟨hd, by simp [Abs.purged]⟩

def Kept (b : ℕ) (w w' : World T) : Prop := (w.obj b).view.Swept (w'.obj b).view

lemma Kept.of_obj {b : ℕ} {w w' : World T} (h : w'.obj b = w.obj b) : Kept b w w' := by
  rw [Kept, h]
  exact .inl rfl

section Sweeps

variable {P : Platform} {b key k : ℕ} {layout : CanaryLayout} {w w' : World T} {e : Entry}
  {faulty : Bool} {err : Option GoErr}

lemma Calm.wiped_retained (h : Calm b key layout w) (hw : w.wiped k = some e) :
    e.retained = e := by
  by_cases hk : k = key
  · subst hk
    rw [h.wiped e hw]
    rfl
  · have hlive : w.regions k = none := by
      cases hr : w.regions k with
      | none => rfl
      | some e' => rw [h.once k (by rw [hr]; rfl)] at hw; cases hw
    rw [(h.other k e hk (by rw [World.lookup, hlive, hw]; rfl)).2]
    rfl

/-- Whatever is registered can be swept. -/
lemma Sound.sweepable (h : Sound P b key layout w) (k : ℕ) : Sweepable w k where
  once := h.calm.once k
  retained _ := h.calm.wiped_retained
  names e hlook := by
    by_cases hk : k = key
    · subst hk
      have hn := lookup_names h.calm hlook
      rwa [hn.region]
    · rw [(h.calm.other k e hk hlook).2]
      exact names_prekeyEntry _
  mapped e hlook := by
    by_cases hk : k = key
    · subst hk
      rw [(lookup_names h.calm hlook).region]
      exact h.idle.mapped (h.registered.mp (by rw [hlook]; exact Option.some_ne_none _))
    · exact (h.calm.prekey _ _ (h.calm.other k e hk hlook).1).2.2.2.2
  mu e hlook := by
    by_cases hk : k = key
    · subst hk
      rw [(lookup_names h.calm hlook).region]
      exact h.idle.mu
    · exact (h.calm.prekey _ _ (h.calm.other k e hk hlook).1).2.2.2.1

/-- The registration of the prekey has moved, and the prekey may have been wiped. -/
lemma Calm.refiledPrekey {live wiped : Option Entry} {q : ℕ} (h : Calm b key layout w)
    (hpre : w.keyring.pre = some (q, k)) (hf : Frame q w w') (hr : Refiled k live wiped w w')
    (hlook : live.or wiped = some (prekeyEntry q)) (honce : live.isSome = true → wiped = none)
    (hmu : (w'.obj q).mu = .free) (hmapped : (w'.obj q).region.mapped = true)
    (hreadable : (w'.obj q).region.prot.readable = true) : Calm b key layout w' := by
  obtain ⟨hk, hqb, hq, -, -⟩ := h.prekey q k hpre
  have hkey := hr.other key hk.symm
  refine ⟨⟨?_, fun k' hk' => ?_, ?_, ?_, fun k' e hk' hlook' => ?_, fun q' k' hpre' => ?_⟩, ?_,
    fun q' hq' => ?_⟩
  · rw [hf.allocated]
    exact h.allocated
  · by_cases hkk : k' = k
    · subst hkk
      rw [hr.live] at hk'
      rw [hr.wiped]
      exact honce hk'
    · rw [(hr.other k' hkk).1] at hk'
      rw [(hr.other k' hkk).2]
      exact h.once k' hk'
  · rw [hkey.1]
    exact h.live
  · rw [hkey.2]
    exact h.wiped
  · rw [hf.keyring]
    by_cases hkk : k' = k
    · subst hkk
      rw [World.lookup, hr.live, hr.wiped, hlook] at hlook'
      obtain rfl := Option.some.inj hlook'
      exact ⟨hpre, rfl⟩
    · rw [World.lookup, (hr.other k' hkk).1, (hr.other k' hkk).2] at hlook'
      exact h.other k' e hk' hlook'
  · rw [hf.keyring, hpre] at hpre'
    obtain ⟨rfl, rfl⟩ := Prod.mk.inj (Option.some.inj hpre')
    rw [hf.allocated]
    exact ⟨hk, hqb, hq, hmu, hmapped⟩
  · exact hf.keyringMu.trans h.keyringMu
  · rw [hf.keyring] at hq'
    rw [Keyring.pre, hq'] at hpre
    obtain ⟨rfl, -⟩ := Prod.mk.inj (Option.some.inj hpre)
    exact hreadable

/-- A pass over the prekey. -/
lemma Sound.passedPrekey (h : Sound P b key layout w) (hk : k ≠ key)
    (hlook : w.lookup k = some e) (hp : Passed P faulty k e w err w') :
    Sound P b key layout w' ∧ Kept b w w' := by
  obtain ⟨hpre, he⟩ := h.calm.other k e hk hlook
  obtain ⟨-, hqb, -, hmu, hmapped⟩ := h.calm.prekey _ _ hpre
  obtain ⟨hcalm, hobj, hlookup⟩ : Calm b key layout w' ∧ w'.obj b = w.obj b ∧
      w'.lookup key = w.lookup key := by
    cases hp with
    | swept hf hr hs =>
      refine ⟨h.calm.refiledPrekey hpre hf hr ?_ nofun (hs.mu.trans hmu) ?_ ?_,
        hf.obj b hqb.symm, ?_⟩
      · rw [he]
        rfl
      · rw [hs.region]
        exact hmapped
      · rw [hs.region]
        rfl
      · rw [World.lookup, World.lookup, (hr.other key hk.symm).1, (hr.other key hk.symm).2]
    | skipped _ _ hf hr hs =>
      refine ⟨h.calm.refiledPrekey hpre hf hr ?_ (h.calm.once k) (hs.mu.trans hmu) ?_ ?_,
        hf.obj b hqb.symm, ?_⟩
      · rw [← he]
        exact hlook
      · rw [hs.region]
        exact hmapped
      · rw [hs.region]
        refine h.calm.readable _ ?_
        rw [Keyring.pre] at hpre
        obtain ⟨q, hq, hqk⟩ := Option.map_eq_some_iff.mp hpre
        rw [hq, ← (Prod.mk.inj hqk).1]
      · rw [World.lookup, World.lookup, (hr.other key hk.symm).1, (hr.other key hk.symm).2]
  refine ⟨⟨hcalm, ?_, ?_, ?_, ?_, ?_, ?_⟩, .of_obj hobj⟩
  · rw [hobj]
    exact h.idle
  · rw [hobj]
    exact h.janitorKey
  · rw [hobj, hlookup]
    exact h.registered
  · rw [hobj]
    exact h.coded
  · rw [hobj]
    exact h.len_le
  · rw [hobj]
    exact h.purged

/-- A pass over the buffer. -/
lemma Sound.passedOwn (h : Sound P b key layout w) (hlook : w.lookup key = some e)
    (hp : Passed P faulty key e w err w') :
    Sound P b key layout w' ∧ Kept b w w' := by
  have hn := lookup_names h.calm hlook
  have hinner : (w.obj b).state.inner = true :=
    h.registered.mp (by rw [hlook]; exact Option.some_ne_none _)
  cases hp with
  | swept hf hr hs =>
    rw [hn.region] at hf hs
    have hwiped : (w'.obj b).view.wiped = true := hs.wiped
    refine ⟨⟨h.calm.refiled hf hr nofun nofun fun e' he' => ?_, ?_, ?_, ?_, fun hr' => ?_, ?_,
      fun _ => ?_⟩, .inr ⟨?_, ?_⟩⟩
    · obtain rfl := Option.some.inj he'
      rcases lookup_eq_some hlook with hl | ⟨-, hw⟩
      · rw [h.calm.live e hl]
      · rw [h.calm.wiped_retained hw]
        exact h.calm.wiped e hw
    · have hno : (w'.obj b).view.refusal ≠ none := fun hr' => by
        rw [(refusal_eq_none.mp hr').2.1] at hwiped
        cases hwiped
      refine ⟨hs.mu.trans h.idle.mu, hs.openMu.trans h.idle.openMu,
        hs.openers.trans h.idle.openers, ?_, fun _ => ?_, fun hr' => absurd hr' hno,
        fun hr' => absurd hr' hno⟩
      · rw [hs.state]
        exact h.idle.gone
      · rw [hs.region]
        exact h.idle.mapped hinner
    · rw [hs.state]
      exact h.janitorKey
    · rw [hs.state, World.lookup, hr.live, hr.wiped]
      simp [hinner]
    · rw [(sealRefusal_eq_none.mp hr').2] at hwiped
      cases hwiped
    · rw [hs.state, hs.plain, length_wipeBytes]
      exact h.len_le
    · rw [hs.region]
      exact fun x => List.eq_of_mem_replicate
    · rw [← Bool.not_eq_true, h.destroyed, hinner]
      decide
    · simp [Obj.view, Abs.purged, hs.state, hs.plain, hs.wiped, wipeBytes]
  | skipped _ _ hf hr hs =>
    rw [hn.region] at hf hs
    have hlookup : w'.lookup key = w.lookup key := by
      rw [World.lookup, World.lookup, hr.live, hr.wiped]
    have hview : (w'.obj b).view = (w.obj b).view := by
      simp only [Obj.view, hs.state, hs.wiped, hs.plain]
    have hsealing : (w'.obj b).sealing = (w.obj b).sealing := by
      simp only [Obj.sealing, hs.state, hs.sealCipher, hs.region, hs.rest]
    refine ⟨⟨h.calm.refiled hf hr (h.calm.once key) h.calm.live h.calm.wiped, ?_, ?_, ?_, ?_, ?_,
      ?_⟩, .inl hview⟩
    · refine ⟨hs.mu.trans h.idle.mu, hs.openMu.trans h.idle.openMu,
        hs.openers.trans h.idle.openers, ?_, ?_, ?_, ?_⟩
      · rw [hs.state]
        exact h.idle.gone
      · rw [hs.state, hs.region]
        exact h.idle.mapped
      · rw [hview, hs.state, hs.region]
        exact h.idle.readable
      · rw [hview, hs.state, hs.region]
        exact h.idle.writable
    · rw [hs.state]
      exact h.janitorKey
    · rw [hs.state, hlookup]
      exact h.registered
    · rw [hview, hs.plain, hsealing]
      exact h.coded
    · rw [hs.state, hs.plain]
      exact h.len_le
    · rw [hview, hs.region]
      exact h.purged

lemma Sound.passed (h : Sound P b key layout w) (hlook : w.lookup k = some e)
    (hp : Passed P faulty k e w err w') : Sound P b key layout w' ∧ Kept b w w' := by
  by_cases hk : k = key
  · subst hk
    exact h.passedOwn hlook hp
  · exact h.passedPrekey hk hlook hp

/-- The variables of a sweep are not the buffer's business. -/
lemma Sound.noted (h : Sound P b key layout w) (n : ℕ) (s : ℕ → Sweep) :
    Sound P b key layout { w with sweeps := n, sweep := s } :=
  { h with calm := { h.calm with } }

variable [DecidableEq T] {t : T} {crash : Prop}

/-- A part of a sweep: it may wipe the buffer, and does nothing else to it. -/
def Sweeping (P : Platform) (b key : ℕ) (layout : CanaryLayout) (t : T) (faulty : Bool)
    (crash : Prop) {α : Type} (p : ProcProg α) : Prop :=
  ∀ ⦃w : World T⦄ ⦃Q : α → World T → Prop⦄, Sound P b key layout w →
    (∀ r w', Sound P b key layout w' → Kept b w w' → Q r w') → Ens P t faulty crash p Q w

namespace Sweeping

variable {α β : Type} {c : ℕ}

lemma pure (r : α) : Sweeping P b key layout t faulty crash (pure r) :=
  fun _ _ h hQ => hQ r _ h (.of_obj rfl)

lemma bind {p : ProcProg α} {f : α → ProcProg β}
    (hp : Sweeping P b key layout t faulty crash p)
    (hf : ∀ r, Sweeping P b key layout t faulty crash (f r)) :
    Sweeping P b key layout t faulty crash (p >>= f) := by
  intro w Q h hQ
  rw [ens_bind]
  refine hp h fun r w₁ h₁ hk₁ => hf r h₁ fun r' w₂ h₂ hk₂ => ?_
  exact hQ r' w₂ h₂ (hk₁.trans hk₂)

lemma joinErr (err : Option GoErr) :
    Sweeping P b key layout t faulty crash (joinErr c err) := by
  intro w Q h hQ
  cases err with
  | none => exact hQ () w h (.of_obj rfl)
  | some e =>
    rw [Process.joinErr, ens_sure fun _ => rfl]
    exact hQ () _ (h.noted _ _) (.of_obj rfl)

lemma firstPass (keys : List ℕ) :
    Sweeping P b key layout t faulty crash (firstPass c keys) := by
  induction keys with
  | nil => exact .pure []
  | cons k keys ih =>
    refine .bind (fun w Q h hQ => ?_)
      fun r => .bind (.joinErr r.2) fun _ => .bind ih fun deferred => .pure _
    refine ens_tryWipeInPlace (h.sweepable k) (hQ _ _ h (.of_obj rfl)) (fun _ s => ?_)
      fun e err w' hlook hp => ?_
    · exact hQ _ _ (h.noted _ s) (.of_obj rfl)
    · exact hQ _ w' (h.passed hlook hp).1 (h.passed hlook hp).2

lemma sweepInTurn (keys : List ℕ) :
    Sweeping P b key layout t faulty crash (sweepInTurn c keys) := by
  induction keys with
  | nil => exact .pure ()
  | cons k keys ih =>
    refine .bind (fun w Q h hQ => ?_) fun err => .bind (.joinErr err) fun _ => ih
    refine ens_wipeInPlace (h.sweepable k) (fun _ s => ?_) fun e err w' hlook hp => ?_
    · exact hQ _ _ (h.noted _ s) (.of_obj rfl)
    · exact hQ _ w' (h.passed hlook hp).1 (h.passed hlook hp).2

lemma wipeAllAlone : Sweeping P b key layout t faulty crash wipeAllAlone := by
  intro w Q h hQ
  simp only [Process.wipeAllAlone, ens_bind, ens_pure]
  rw [ens_act]
  intro c _
  refine firstPass _ (h.noted _ _) fun deferred w₁ h₁ hk₁ => ?_
  refine sweepInTurn deferred h₁ fun _ w₂ h₂ hk₂ => ?_
  rw [ens_sure fun _ => rfl, ens_sure fun _ => rfl]
  exact hQ _ _ (h₂.noted _ _) (hk₁.trans hk₂)

end Sweeping

end Sweeps

/-! ## Histories with wipes -/

inductive Op
  | method (m : Method)
  | wipeAllSecrets

def Op.run (P : Platform) (b : ℕ) : Op → ProcProg Reply
  | .method m => runMethod P b m
  | .wipeAllSecrets => .err <$> wipeAllAlone

def performAll (P : Platform) (b : ℕ) : List Op → ProcProg (List Reply)
  | [] => pure []
  | op :: ops => do
    let r ← op.run P b
    let rs ← performAll P b ops
    pure (r :: rs)

/-- A buffer that is destroyed at some point: what `IsSealed` says before, and the replies of all
later calls. -/
def Ctor.lifeAndDeath (P : Platform) (c : Ctor) (before after : List Op) :
    ProcProg (Option (Reply × List Reply)) := do
  let made ← c.run P
  match made with
  | .error _ => pure none
  | .ok b => do
    let _ ← performAll P b before
    let sealed ← runMethod P b .isSealed
    let _ ← runMethod P b .destroy
    let replies ← performAll P b after
    pure (some (sealed, replies))

/-- What a call says of a destroyed buffer. -/
def Op.GoneReply (sealed : Bool) : Op → Reply → Prop
  | .method m, r => m.GoneReply sealed r
  | .wipeAllSecrets, _ => True

/-- A call whose callback may write. -/
def Op.Careless : Op → Prop
  | .method m => m.Careless
  | .wipeAllSecrets => False

/-- What a call says of a buffer that was wiped. -/
def Op.ShutReply : Op → Reply → Prop
  | .method m, r => m.ShutReply .errWiped r
  | .wipeAllSecrets, _ => True

/-- What a call does, according to the abstract buffer. -/
def Op.Step (faulty : Bool) (a : Abs) : Op → Reply → Abs → Prop
  | .method m, r, a' => a.Step faulty m r a'
  | .wipeAllSecrets, _, a' => a.Swept a'

namespace Op.Step

variable {faulty : Bool} {a a' : Abs} {op : Op} {r : Reply}

lemma gone (h : op.Step faulty a r a') (hd : a.destroyed = true) :
    a' = a ∧ op.GoneReply a.sealed r := by
  cases op with
  | method m => exact Abs.Step.gone h hd
  | wipeAllSecrets =>
    exact ⟨h.resolve_right fun hp => absurd (hd.symm.trans hp.1) (by decide), trivial⟩

lemma shut (h : op.Step faulty a r a') (he : a.sealRefusal = some .errWiped)
    (hop : op ≠ .method .destroy) : a'.sealRefusal = some .errWiped ∧ op.ShutReply r := by
  cases op with
  | method m =>
    obtain ⟨rfl, hr⟩ := Abs.Step.shut h he fun hm => hop (congrArg Op.method hm)
    exact ⟨he, hr⟩
  | wipeAllSecrets =>
    rcases h with rfl | ⟨hd, rfl⟩
    · exact ⟨he, trivial⟩
    · exact ⟨sealRefusal_eq_wiped.mpr ⟨hd, rfl⟩, trivial⟩

/-- What cannot be used any more stays so. -/
lemma stays (h : op.Step faulty a r a') (he : a.sealRefusal ≠ none) : a'.sealRefusal ≠ none := by
  obtain ⟨e, he'⟩ := Option.ne_none_iff_exists'.mp he
  intro hr
  obtain ⟨hd, hw⟩ := sealRefusal_eq_none.mp hr
  cases op with
  | method m =>
    have h : a.Step faulty m r a' := h
    by_cases hm : m = .destroy
    · subst hm
      exact absurd (h.destroyed.1.symm.trans hd) (by decide)
    · exact he ((h.shut he' hm).1 ▸ hr)
  | wipeAllSecrets =>
    rcases h with rfl | ⟨-, rfl⟩
    · exact he hr
    · cases hw

end Op.Step

/-- A history, according to the abstract buffer. -/
inductive Abs.Runs (faulty : Bool) : Abs → List Op → List Reply → Abs → Prop
  | nil (a : Abs) : Runs faulty a [] [] a
  | cons {a a' a'' : Abs} {op : Op} {ops : List Op} {r : Reply} {rs : List Reply}
      (hstep : op.Step faulty a r a') (hrun : Runs faulty a' ops rs a'') :
      Runs faulty a (op :: ops) (r :: rs) a''

lemma Abs.Runs.gone {faulty : Bool} {a a' : Abs} {ops : List Op} {rs : List Reply}
    (h : a.Runs faulty ops rs a') (hd : a.destroyed = true) :
    List.Forall₂ (Op.GoneReply a.sealed) ops rs := by
  induction h with
  | nil => exact .nil
  | cons hstep _ ih =>
    obtain ⟨rfl, hr⟩ := hstep.gone hd
    exact .cons hr (ih hd)

lemma Abs.Runs.shut {faulty : Bool} {a a' : Abs} {ops : List Op} {rs : List Reply}
    (h : a.Runs faulty ops rs a') (he : a.sealRefusal = some .errWiped)
    (hops : .method .destroy ∉ ops) :
    a'.sealRefusal = some .errWiped ∧ List.Forall₂ Op.ShutReply ops rs := by
  induction h with
  | nil => exact ⟨he, .nil⟩
  | cons hstep _ ih =>
    rw [List.mem_cons, not_or] at hops
    obtain ⟨he', hr⟩ := hstep.shut he (Ne.symm hops.1)
    exact (ih he' hops.2).imp_right (.cons hr)

section Histories

variable [DecidableEq T] {P : Platform} {t : T} {faulty : Bool} {crash : Prop} {w : World T}
  {b key : ℕ} {layout : CanaryLayout} {Q : List Reply → World T → Prop}

lemma ens_op (h : Sound P b key layout w) (op : Op)
    (hcrash : (w.obj b).view.refusal = none → op.Careless → crash) {Q : Reply → World T → Prop}
    (hQ : ∀ r w', Sound P b key layout w' →
      op.Step faulty (w.obj b).view r (w'.obj b).view → Q r w') :
    Ens P t faulty crash (op.run P b) Q w := by
  cases op with
  | method m =>
    refine ens_method h m (fun hr => ?_) fun r w' h' hstep => hQ r w' h' hstep.step
    by_cases hcare : m.Careless
    · exact .inl (hcrash hr hcare)
    · exact .inr (keepsContract_of_careful _ hcare)
  | wipeAllSecrets => exact (ens_map ..).mpr (Sweeping.wipeAllAlone h fun err => hQ _)

/-- A history does what the abstract buffer does.  A callback gets to run only before a wipe and
before `Destroy`. -/
lemma ens_performAll (h : Sound P b key layout w) (ops : List Op)
    (hcrash : (w.obj b).view.sealRefusal = none → ∀ op ∈ ops, op.Careless → crash)
    (hQ : ∀ rs w', Sound P b key layout w' →
      Abs.Runs faulty (w.obj b).view ops rs (w'.obj b).view → Q rs w') :
    Ens P t faulty crash (performAll P b ops) Q w := by
  induction ops generalizing w Q with
  | nil => exact hQ [] w h (.nil _)
  | cons op ops ih =>
    simp only [performAll, ens_bind, ens_pure]
    refine ens_op h op (fun hr => hcrash (sealRefusal_of_refusal hr) op (by simp))
      fun r w₁ h₁ hstep => ih h₁ (fun hr op' hop => ?_) fun rs w₂ h₂ hrun => ?_
    · exact hcrash (not_not.mp fun hne => hstep.stays hne hr) op' (List.mem_cons_of_mem _ hop)
    · exact hQ _ w₂ h₂ (.cons hstep hrun)

/-- `Destroy`, and what comes after. -/
lemma ens_lifeAndDeath (c : Ctor) (before after : List Op)
    (hcrash : ∀ op ∈ before, op.Careless → crash) :
    Ens P t faulty crash (c.lifeAndDeath P before after) (fun r _ => ∀ sealed replies,
      r = some (sealed, replies) → ∃ flag, sealed = .flag flag ∧
        List.Forall₂ (Op.GoneReply flag) after replies) (World.initial T) := by
  simp only [Ctor.lifeAndDeath, ens_bind]
  refine ens_ctor c (fun e _ => nofun) (fun _ e w' => nofun) fun _ o ho => ?_
  simp only [ens_bind, ens_pure]
  refine ens_performAll (ho.sound c.size_le_contents _) before (fun _ => hcrash) fun _ w h _ => ?_
  refine ens_own (b := 0) (does_isSealed h.ready fun r o' hstep => ?_)
  obtain ⟨rfl, rfl⟩ := hstep
  rw [World.setObj_obj]
  refine ens_method h .destroy (fun _ => .inr rfl) fun r w₁ h₁ hstep => ?_
  obtain ⟨hgone, hsealed⟩ := hstep.step.destroyed
  refine ens_performAll h₁ after (fun hr => ?_) fun replies w₂ _ hrun => ?_
  · rw [(refusal_of_destroyed hgone).2] at hr
    cases hr
  · rintro _ _ ⟨⟩
    exact ⟨_, rfl, hsealed ▸ hrun.gone hgone⟩

end Histories

/-- Whatever was done with a buffer, and whatever failed, after `Destroy` it is destroyed for good:
`IsDestroyed` says so, `Len` and `MappedLen` are 0, `Destroy` returns nil, and every other method
returns an error that wraps `ErrDestroyed`, in every later sequence of calls.  `IsSealed` says what
it said before.  A process that does not get there has died of a callback that wrote before. -/
theorem destroyed_for_good [DecidableEq T] (P : Platform) (t : T) (c : Ctor)
    (before after : List Op) (pick : ℕ → Choice) :
    (c.lifeAndDeath P before after).run (system T P) t pick 0 (World.initial T) = .fault ∧
        (∃ op ∈ before, op.Careless) ∨
      ∃ r n w, (c.lifeAndDeath P before after).run (system T P) t pick 0 (World.initial T) =
          .done (r, n) w ∧
        ∀ sealed replies, r = some (sealed, replies) → ∃ flag, sealed = .flag flag ∧
          List.Forall₂ (Op.GoneReply flag) after replies := by
  have hlife : Ens P t true (∃ op ∈ before, op.Careless) (c.lifeAndDeath P before after) _
      (World.initial T) := ens_lifeAndDeath c before after fun op hop hc => ⟨op, hop, hc⟩
  rcases Prog.run_of_ensures hlife (fun n => .inl rfl) 0 with ⟨r, n, w, hrun, hgone⟩ | hfault
  · exact .inr ⟨r, n, w, hrun, hgone⟩
  · exact .inl hfault

/-- A buffer that is destroyed while it is sealed is sealed ever after. -/
theorem destroyed_sealed : ∃ n w,
    (Ctor.lifeAndDeath smallPages (.newBuffer [7] ⟨true, false⟩) [.method .seal]
        [.method .isDestroyed, .method .isSealed]).run (system (Fin 1) smallPages) 0
      (fun _ => Choice.easy) 0 (World.initial (Fin 1)) =
      .done (some (.flag true, [.flag true, .flag true]), n) w :=
  ⟨_, _, rfl⟩

/-- A buffer, what was done with it, and the replies. -/
def Ctor.history (P : Platform) (c : Ctor) (ops : List Op) :
    ProcProg (Option (ℕ × List Reply)) := do
  let made ← c.run P
  match made with
  | .error _ => pure none
  | .ok b => do
    let replies ← performAll P b ops
    pure (some (b, replies))

/-- The abstract buffer that a constructor makes. -/
def Ctor.fresh (c : Ctor) : Abs where
  bytes := match c with
    | newBuffer raw _ => raw
    | newEmptyBuffer size _ => List.replicate size.toNat 0
  sealed := false
  readOnly := false
  wiped := false
  destroyed := false

/-- The canary begins where the buffer ends. -/
lemma Ctor.take_contents (P : Platform) (c : Ctor) :
    (c.contents P).take c.size = c.fresh.bytes := by
  cases c with
  | newBuffer raw cfg => simp [contents, size, fresh, writeAt]
  | newEmptyBuffer n cfg =>
    refine List.ext_getElem? fun i => ?_
    rw [contents, List.getElem?_take]
    split
    next hi =>
      have hzone : ∀ z ∈ (bufferCanary n.toNat (P.rounded n.toNat)).zones, n.toNat ≤ z.1 := by
        intro z hz
        unfold bufferCanary at hz
        split at hz
        · cases hz
        · rcases CanaryLayout.mem_zones hz with ⟨i, hi, -⟩ | ⟨rfl, -⟩
          · cases hi
          · exact le_rfl
      have hi : i < n.toNat := hi
      have := P.le_rounded n.toNat
      rw [layout, size, CanaryLayout.getElem?_arm fun z hz h => by have := hzone z hz; omega]
      simp [fresh, hi, hi.trans_le this]
    next hi => simpa [fresh, size] using hi

lemma Born.view {P : Platform} {c : Ctor} {o : Obj T} (h : Born (c.contents P) c.size c.cfg o) :
    o.view = c.fresh := by
  have hbytes : o.view.bytes = c.fresh.bytes := by
    rw [← c.take_contents P, Obj.view, h.state, h.plain]
    rfl
  rw [Obj.view, h.wiped, h.state] at hbytes ⊢
  exact congrArg (Abs.mk · false false false false) hbytes

lemma ens_history [DecidableEq T] {P : Platform} {t : T} {faulty : Bool} {crash : Prop} (c : Ctor)
    (ops : List Op) (hcrash : ∀ op ∈ ops, op.Careless → crash) :
    Ens P t faulty crash (c.history P ops) (fun made w => ∀ b rs, made = some (b, rs) →
      Sound P b 1 (c.layout P) w ∧ c.fresh.Runs faulty ops rs (w.obj b).view)
      (World.initial T) := by
  simp only [Ctor.history, ens_bind]
  refine ens_ctor c (fun e _ => nofun) (fun _ e w' => nofun) fun _ o ho => ?_
  simp only [ens_bind, ens_pure]
  refine ens_performAll (ho.sound c.size_le_contents _) ops (fun _ => hcrash) fun _ w h hrun => ?_
  rintro _ _ ⟨⟩
  rw [World.obj_single, ho.view] at hrun
  exact ⟨h, hrun⟩

/-- Every history of a buffer is one of the abstract buffer: the calls give the same replies and
leave the same bytes and flags.  On a platform that works no access fails that the abstract buffer
would allow.  While the buffer can be read, its region holds the bytes.  A process that does not get
there has died of a callback that wrote. -/
theorem history_refines [DecidableEq T] (P : Platform) (t : T) (c : Ctor) (ops : List Op)
    (faulty : Bool) (pick : ℕ → Choice) (hpick : ∀ n, Obliging faulty (pick n)) :
    (c.history P ops).run (system T P) t pick 0 (World.initial T) = .fault ∧
        (∃ op ∈ ops, op.Careless) ∨
      ∃ made n w, (c.history P ops).run (system T P) t pick 0 (World.initial T) =
          .done (made, n) w ∧
        ∀ b replies, made = some (b, replies) →
          c.fresh.Runs faulty ops replies (w.obj b).view ∧ ((w.obj b).view.refusal = none →
            (w.obj b).region.inner.take (w.obj b).state.len = (w.obj b).view.bytes) := by
  have hlife : Ens P t faulty (∃ op ∈ ops, op.Careless) (c.history P ops) _ (World.initial T) :=
    ens_history c ops fun op hop hc => ⟨op, hop, hc⟩
  rcases Prog.run_of_ensures hlife hpick 0 with ⟨made, n, w, hrun, hs⟩ | hfault
  · refine .inr ⟨made, n, w, hrun, fun b rs hmade => ?_⟩
    obtain ⟨h, hruns⟩ := hs b rs hmade
    refine ⟨hruns, fun hr => ?_⟩
    rw [(h.unsealed hr).2.2]
    rfl
  · exact .inl hfault

/-- A byte is set and the buffer sealed, on a platform that works. -/
theorem history_refines_setByteAt : ∃ made n w,
    (Ctor.history smallPages (.newBuffer [7, 8] ⟨true, false⟩)
        [.method (.setByteAt 0 9), .method .seal]).run (system (Fin 1) smallPages) 0
      (fun _ => Choice.easy) 0 (World.initial (Fin 1)) = .done (made, n) w ∧
      ∀ b replies, made = some (b, replies) →
        Abs.Runs false ⟨[7, 8], false, false, false, false⟩
          [.method (.setByteAt 0 9), .method .seal] replies (w.obj b).view := by
  rcases history_refines smallPages (0 : Fin 1) (.newBuffer [7, 8] ⟨true, false⟩)
    [.method (.setByteAt 0 9), .method .seal] false (fun _ => .easy) fun _ => .easy false with
    ⟨-, op, hop, hc⟩ | ⟨made, n, w, hrun, h⟩
  · rcases List.mem_pair.mp hop with rfl | rfl <;> exact hc.elim
  · exact ⟨made, n, w, hrun, fun b rs hmade => (h b rs hmade).1⟩

/-- Whatever was done with a buffer, and whatever failed: once it is wiped, it is so for good.  In
every later sequence of calls without `Destroy`, further wipes included, every method but the
queries returns an error that wraps `ErrWiped`, and the region stays zero. -/
theorem wiped_for_good [DecidableEq T] (P : Platform) (t : T) (c : Ctor) (before after : List Op)
    (pick pick' : ℕ → Choice) {b n : ℕ} {rs : List Reply} {w : World T}
    (hrun : (c.history P before).run (system T P) t pick 0 (World.initial T) =
      .done (some (b, rs), n) w)
    (hwiped : (w.obj b).view.sealRefusal = some .errWiped) (hafter : .method .destroy ∉ after) :
    ∃ replies n' w', (performAll P b after).run (system T P) t pick' 0 w =
        .done (replies, n') w' ∧
      List.Forall₂ Op.ShutReply after replies ∧
      (w'.obj b).view.sealRefusal = some .errWiped ∧ ∀ x ∈ (w'.obj b).region.inner, x = 0 := by
  have hlife : Ens P t true True (c.history P before) _ (World.initial T) :=
    ens_history c before fun _ _ _ => trivial
  rcases Prog.run_of_ensures hlife (fun n => .inl rfl) 0 with ⟨made, n₁, w₁, hrun₁, h⟩ | ⟨hfault, -⟩
  · obtain ⟨⟨rfl, rfl⟩, rfl⟩ := (hrun.symm.trans hrun₁ :)
    have hlater : Ens P t true False (performAll P b after) (fun replies w' =>
        List.Forall₂ Op.ShutReply after replies ∧ (w'.obj b).view.sealRefusal = some .errWiped ∧
          ∀ x ∈ (w'.obj b).region.inner, x = 0) w := by
      refine ens_performAll (h b rs rfl).1 after (fun hr => ?_) fun replies w' h' hruns => ?_
      · rw [hwiped] at hr
        cases hr
      · obtain ⟨hw', hreplies⟩ := hruns.shut hwiped hafter
        exact ⟨hreplies, hw', h'.purged hw'⟩
    rcases Prog.run_of_ensures hlater (fun n => .inl rfl) 0 with
      ⟨rs', n', w', hrun', hshut⟩ | ⟨-, hf⟩
    · exact ⟨rs', n', w', hrun', hshut⟩
    · exact hf.elim
  · rw [hrun] at hfault
    cases hfault

/-- A byte is asked for after a wipe. -/
theorem wiped_for_good_byteAt : ∃ (w : World (Fin 1)) (replies : List Reply) (n : ℕ)
    (w' : World (Fin 1)), (performAll smallPages 0 [.method (.byteAt 0)]).run
        (system (Fin 1) smallPages) 0 (fun _ => Choice.easy) 0 w = .done (replies, n) w' ∧
      List.Forall₂ Op.ShutReply [.method (.byteAt 0)] replies := by
  obtain ⟨rs, n, w, hrun, hw⟩ : ∃ rs n w, (Ctor.history smallPages (.newBuffer [7] ⟨true, false⟩)
      [.wipeAllSecrets]).run (system (Fin 1) smallPages) 0 (fun _ => Choice.easy) 0
        (World.initial (Fin 1)) = .done (some (0, rs), n) w ∧
      (w.obj 0).view.sealRefusal = some .errWiped := ⟨_, _, _, rfl, rfl⟩
  obtain ⟨rs, n', w', hrun', hrs, -⟩ := wiped_for_good _ _ _ _ [.method (.byteAt 0)] _
    (fun _ => Choice.easy) hrun hw (by simp)
  exact ⟨w, rs, n', w', hrun', hrs⟩

end Secmem.Process
