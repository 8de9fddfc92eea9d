import Secmem.Process.Runs

/-!
# What a buffer keeps through its history

A goroutine makes a buffer and calls its methods, in any order and with any failures of the
platform. As long as no emergency wipe runs, the region of an unsealed buffer holds the plaintext
last stored, and a buffer that `Seal` or `Unseal` left sealed can be unsealed again as soon as the
platform works (`sealing_keeps_plaintext`).
-/

namespace Secmem.Process

open World

variable {T : Type} [DecidableEq T]

/-! ## Calls of methods -/

def callAll (P : Platform) (b : ℕ) : List Method → ProcProg (List Reply)
  | [] => pure []
  | m :: ms => do
    let r ← runMethod P b m
    let rs ← callAll P b ms
    pure (r :: rs)

/-- The life of a buffer up to some point: its constructor and the calls of its methods. -/
def Ctor.life (P : Platform) (c : Ctor) (calls : List Method) : ProcProg (Option ℕ) := do
  let made ← c.run P
  match made with
  | .error _ => pure none
  | .ok b => do
    let _ ← callAll P b calls
    pure (some b)

/-- A borrow whose callback may write: on a page that it must not write to, the process dies. -/
def Method.Careless : Method → Prop
  | .withBytes (some fn) => ∃ bs, (fn bs).strays ≠ [] ∨ (fn bs).writes ≠ []
  | .withBytesErr (some fn) => ∃ bs, (fn bs).strays ≠ [] ∨ (fn bs).writes ≠ []
  | _ => False

section Rules

variable {P : Platform} {t : T} {faulty : Bool} {crash : Prop} {w : World T} {b key : ℕ}
  {layout : CanaryLayout} {plain : List UInt8}

omit [DecidableEq T] in
lemma keepsContract_of_careful {m : Method} (a : Abs) (h : ¬m.Careless) :
    a.keepsContract m = true := by
  have hcare : ∀ fn : Callback, (¬∃ bs, (fn bs).strays ≠ [] ∨ (fn bs).writes ≠ []) →
      ((fn a.bytes).strays.isEmpty && (!a.readOnly || (fn a.bytes).writes.isEmpty)) = true := by
    intro fn hfn
    obtain ⟨hs, hw⟩ := not_or.mp (not_exists.mp hfn a.bytes)
    rw [not_not.mp hs, not_not.mp hw]
    simp
  match m, h with
  | .withBytes (some fn), h => exact hcare fn h
  | .withBytesErr (some fn), h => exact hcare fn h
  | .withBytes none, _ | .withBytesErr none, _ | .exposeString, _ | .copyOut _ _, _
  | .copyIn _ _, _ | .byteAt _, _ | .setByteAt _ _, _ | .constantTimeEqual _, _ | .writeTo _, _
  | .readFrom _, _ | .readOnly, _ | .readWrite, _ | .seal, _ | .unseal, _ | .truncate _, _
  | .destroy, _ | .len, _ | .mappedLen, _ | .isSealed, _ | .isDestroyed, _ => rfl

/-- A history of calls keeps what every call keeps. -/
lemma ens_callAll (h : Sound P b key layout w) (calls : List Method)
    (hcrash : ∀ m ∈ calls, m.Careless → crash) {Q : List Reply → World T → Prop}
    (hQ : ∀ rs w', Sound P b key layout w' → (w'.obj b).wiped = (w.obj b).wiped →
      (Tagged P b key w → Tagged P b key w') → Q rs w') :
    Ens P t faulty crash (callAll P b calls) Q w := by
  induction calls generalizing w Q with
  | nil => exact hQ [] w h rfl id
  | cons m ms ih =>
    simp only [callAll, ens_bind, ens_pure]
    refine ens_method h m (fun _ => ?_) fun r w₁ h₁ hstep => ?_
    · by_cases hcare : m.Careless
      · exact .inl (hcrash m (by simp) hcare)
      · exact .inr (keepsContract_of_careful _ hcare)
    · exact ih h₁ (fun m' hm' => hcrash m' (List.mem_cons_of_mem _ hm')) fun rs w₂ h₂ hw ht =>
        hQ _ w₂ h₂ (hw.trans hstep.step.wiped) (ht ∘ hstep.tagged)

omit [DecidableEq T] in
/-- A buffer that was just made. -/
lemma Born.sound {size : ℕ} {cfg : Config} {o : Obj T}
    (h : Born plain size cfg o) (hlen : size ≤ plain.length) (layout : CanaryLayout) :
    Sound P 0 1 layout (World.single o layout) where
  calm := calm_single o layout
  idle := by
    rw [obj_single]
    exact (h.ready hlen).toIdle
  janitorKey := by
    rw [obj_single, h.state]
    rfl
  registered := by
    rw [obj_single, h.state, lookup_single]
    simp [BufferState.born, BufferState.new]
  coded _ := by
    rw [obj_single]
    refine ⟨.inl ⟨h.sealCipher, ?_⟩, fun ht => ?_⟩
    · rw [h.plain]
      exact congrArg Region.inner h.region
    · have ht' : o.state.sealTagged = true := ht
      rw [h.state] at ht'
      cases ht'
  len_le := by
    rw [obj_single]
    exact (h.ready hlen).len_le
  purged := by
    rw [obj_single, sealRefusal_eq_wiped]
    exact fun he => absurd (h.wiped.symm.trans he.2) Bool.false_ne_true

omit [DecidableEq T] in
lemma Born.tagged {size : ℕ} {cfg : Config} {o : Obj T}
    (h : Born plain size cfg o) (layout : CanaryLayout) :
    Tagged P 0 1 (World.single o layout) := by
  intro _ ht
  rw [obj_single, h.state] at ht
  cases ht

lemma Ctor.size_le_contents (c : Ctor) : c.size ≤ (c.contents P).length := by
  have harmed : c.size ≤ ((c.layout P).arm P.pattern
      (List.replicate (P.rounded c.size) 0)).length := by
    rw [CanaryLayout.length_arm, List.length_replicate]
    exact P.le_rounded c.size
  cases c with
  | newBuffer raw cfg =>
    rw [Ctor.contents, length_writeAt]
    · exact harmed
    · exact (Nat.zero_add _).le.trans harmed
  | newEmptyBuffer size cfg => exact harmed

/-- The life of a buffer, as seen from its end. -/
lemma ens_life (c : Ctor) (calls : List Method) (hcrash : ∀ m ∈ calls, m.Careless → crash)
    {Q : Option ℕ → World T → Prop} (hnone : ∀ w, Q none w)
    (hsome : ∀ w, Sound P 0 1 (c.layout P) w → Tagged P 0 1 w → (w.obj 0).wiped = false →
      Q (some 0) w) :
    Ens P t faulty crash (c.life P calls) Q (World.initial T) := by
  simp only [Ctor.life, ens_bind]
  refine ens_ctor c (fun e _ => hnone _) (fun _ e w' => hnone w') fun _ o ho => ?_
  simp only [ens_bind, ens_pure]
  refine ens_callAll (ho.sound (c.size_le_contents) _) calls hcrash fun _ w hs hw ht => ?_
  rw [obj_single, ho.wiped] at hw
  exact hsome w hs (ht (ho.tagged _)) hw

/-! ## Unsealing on a platform that works -/

/-- What the cipher made is not too long for it. -/
lemma Coded.sealCipherLen_eq {s : Sealing} (h : Coded P plain s)
    (hc : s.cipher = true) : sealCipherLen s.inner.length = none := by
  rcases h.coding with ⟨hc', -⟩ | ⟨-, -, cipher, seed, -, hlen, hi⟩
  · exact absurd (hc.symm.trans hc') (by decide)
  · rw [hi, cipher.length_encrypt, hlen]

/-- A buffer whose tag is in order opens. -/
lemma ens_unsealAgain (h : Sound P b key layout w) (ht : Tagged P b key w)
    (hlive : (w.obj b).view.sealRefusal = none) :
    Ens P t false crash (unsealBuffer P b) (fun err w' => err = none ∧
      (w'.obj b).view.refusal = none ∧ (w'.obj b).region.inner = (w.obj b).ghost.plain) w := by
  have hcoded := h.coded hlive
  have htag : (w.obj b).sealing.tagged = true →
      TagMatches P w (w.obj b).state.janitorKey (w.obj b).sealing := by
    rw [h.janitorKey]
    exact ht (h.idle.inner_of_sealRefusal hlive)
  refine ens_own (b := b) (ens_unsealBuffer h.calm h.idle
    (fun hr => h.registered.mpr (h.idle.inner_of_sealRefusal hr)) (fun _ => hcoded.sealCipher_ne)
    (fun e he => ?_) (fun hr => ?_) fun _ _ err w' s' hcalm hev hstep => ?_)
  · rw [hlive] at he
    cases he
  · rw [setObj_obj]
    exact ⟨rfl, hr, (h.unsealed hr).2.2⟩
  · cases hstep with
    | failed e p _ hreason =>
      rcases hreason with hf | ⟨htagged, hlost⟩ | ⟨hc, -, hlen⟩
      · cases hf
      · obtain ⟨q, hq, hgen, -⟩ := htag htagged
        exact absurd hlost (not_or.mpr ⟨fun hno => hno q hq, fun hne => hne hgen⟩)
      · rw [hcoded.sealCipherLen_eq hc] at hlen
        cases hlen
    | refused p _ q hq hgen hdiffers htagged =>
      obtain ⟨q', hq', -, heq⟩ := hev.tagMatches (htag htagged)
      obtain rfl := Option.some.inj (hq'.current.symm.trans hq.current)
      exact absurd heq hdiffers
    | done _ plain rest hver hdec =>
      rw [obj_setObj]
      refine ⟨rfl, ?_, hcoded.decoded hdec⟩
      obtain ⟨hd, hw⟩ := sealRefusal_eq_none.mp hlive
      exact refusal_eq_none.mpr ⟨hd, hw, rfl⟩
    | again e w₁ _ plain rest _ hf => cases hf

end Rules

/-- A live buffer keeps the plaintext last stored: its region holds that unless it is sealed, the
cipher's flag is set exactly if the region holds ciphertext, which is the plaintext encrypted once,
and an `Unseal` on a platform that works makes it accessible. -/
structure KeepsPlaintext (P : Platform) (t : T) (b : ℕ) (w : World T) : Prop where
  region : (w.obj b).state.sealed = false → (w.obj b).region.inner = (w.obj b).ghost.plain
  flag : (w.obj b).sealCipher = false ∧ (w.obj b).region.inner = (w.obj b).ghost.plain ∨
    (w.obj b).sealCipher = true ∧ Encrypts P (w.obj b).ghost.plain (w.obj b).region.inner
  recovers : ∀ pick : ℕ → Choice, (∀ n, (pick n).os = none) → ∃ n w',
    (unsealBuffer P b).run (system T P) t pick 0 w = .done (none, n) w' ∧
      (w'.obj b).view.refusal = none ∧ (w'.obj b).region.inner = (w.obj b).ghost.plain

lemma Sound.keepsPlaintext {P : Platform} {t : T} {b key : ℕ} {layout : CanaryLayout}
    {w : World T} (h : Sound P b key layout w) (ht : Tagged P b key w)
    (hw : (w.obj b).wiped = false) (hlive : (w.obj b).state.inner = true) :
    KeepsPlaintext P t b w := by
  have hr : (w.obj b).view.sealRefusal = none := by
    refine sealRefusal_eq_none.mpr ⟨?_, hw⟩
    have := h.idle.gone
    rw [hlive] at this
    simpa [Obj.view] using this.symm
  have hcoded := h.coded hr
  refine ⟨fun hs => (hcoded.of_unsealed hs).2.2,
    hcoded.coding.imp_right fun hc => ⟨hc.1, hc.2.2⟩, fun pick hpick => ?_⟩
  have hopens : Ens P t false False (unsealBuffer P b) _ w := ens_unsealAgain h ht hr
  rcases Prog.run_of_ensures hopens (fun n => .inr (hpick n)) 0 with
    ⟨err, n, w', hrun, rfl, hopen⟩ | ⟨-, hfalse⟩
  · exact ⟨n, w', hrun, hopen⟩
  · exact hfalse.elim

/-- After any history of calls without an emergency wipe, whatever failed in it, a live buffer keeps
the plaintext last stored.  A process that does not get there has died of a callback that wrote. -/
theorem sealing_keeps_plaintext (P : Platform) (t : T) (c : Ctor) (calls : List Method)
    (pick : ℕ → Choice) :
    (c.life P calls).run (system T P) t pick 0 (World.initial T) = .fault ∧
        (∃ m ∈ calls, m.Careless) ∨
      ∃ made n w, (c.life P calls).run (system T P) t pick 0 (World.initial T) =
          .done (made, n) w ∧
        ∀ b, made = some b → (w.obj b).state.inner = true → KeepsPlaintext P t b w := by
  have hlife : Ens P t true (∃ m ∈ calls, m.Careless) (c.life P calls)
      (fun made w => ∀ b, made = some b → (w.obj b).state.inner = true → KeepsPlaintext P t b w)
      (World.initial T) := by
    refine ens_life c calls (fun m hm hc => ⟨m, hm, hc⟩) (fun _ => nofun) fun w hs ht hw => ?_
    rintro b hb hlive
    obtain rfl := Option.some.inj hb
    exact hs.keepsPlaintext ht hw hlive
  rcases Prog.run_of_ensures hlife (fun n => .inl rfl) 0 with ⟨made, n, w, hrun, hkeeps⟩ | hfault
  · exact .inr ⟨made, n, w, hrun, hkeeps⟩
  · exact .inl hfault

/-- A cipher that flips every bit. -/
def flips : SealCipher where
  encrypt _ b := b.map (~~~ ·)
  decrypt b := b.map (~~~ ·)
  decrypt_encrypt _ b := by simp [Function.comp_def]
  length_encrypt _ b := by simp

def flippingPages : Platform := { smallPages with sealCipher := some flips }

/-- The life of a buffer up to an `Unseal` that decrypts and then fails, at the thirtieth step. -/
def unsealsLate : Outcome (World (Fin 1)) (Option ℕ × ℕ) :=
  ((Ctor.newBuffer [7, 8] ⟨true, false⟩).life flippingPages [.seal, .unseal]).run
    (system (Fin 1) flippingPages) 0
    (fun n => if n = 29 then { Choice.easy with os := some 5 } else .easy) 0 (World.initial _)

/-- The buffer is encrypted again, and can still be opened. -/
theorem sealing_keeps_plaintext_late : ∃ n w, unsealsLate = .done (some 0, n) w ∧
    (w.obj 0).region.inner.take 2 = [248, 247] ∧ KeepsPlaintext flippingPages 0 0 w := by
  obtain ⟨n, w, hrun, hlive, hbytes⟩ : ∃ n w, unsealsLate = .done (some 0, n) w ∧
      (w.obj 0).state.inner = true ∧ (w.obj 0).region.inner.take 2 = [248, 247] :=
    ⟨_, _, rfl, rfl, rfl⟩
  rcases sealing_keeps_plaintext flippingPages (0 : Fin 1) _ _ _ with
    ⟨hfault, -⟩ | ⟨made, k, w', hrun', hkeeps⟩
  · cases hrun.symm.trans hfault
  · cases hrun.symm.trans hrun'
    exact ⟨n, w, hrun, hbytes, hkeeps 0 rfl hlive⟩

end Secmem.Process
