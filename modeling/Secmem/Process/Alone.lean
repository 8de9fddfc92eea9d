import Secmem.Framework.Sequential
import Secmem.Process.Lifecycle

/-!
# The process with one goroutine

Weakest preconditions of the actions when one goroutine runs alone.  `faulty` says whether calls
to the platform may fail; `crash` is what must hold if an access faults.

Each rule is an equivalence, so that a program is executed symbolically by rewriting.
-/

namespace Secmem.Process

open World Outcome

variable {T : Type}

namespace World

/-- The world with one object more. -/
def grown (w : World T) (o : Obj T) : World T :=
  { w.setObj w.allocated o with allocated := w.allocated + 1 }

@[simp] lemma obj_grown (w : World T) (o : Obj T) : (w.grown o).obj w.allocated = o :=
  Function.update_self _ _ _

lemma obj_grown_of_ne (w : World T) {x : ℕ} (o : Obj T) (h : x ≠ w.allocated) :
    (w.grown o).obj x = w.obj x :=
  Function.update_of_ne h _ _

@[simp] lemma setObj_grown (w : World T) (o o' : Obj T) :
    (w.grown o).setObj w.allocated o' = w.grown o' := by
  simp only [grown, setObj, Function.update_idem]

end World

lemma no_readers (t : T) : some t ≠ none → ([] : List T) = [] := fun _ => rfl

/-- The lock that `t` alone holds, exclusively. -/
def lockedBy (t : T) : RWLock T := ⟨some t, [], no_readers t⟩

/-- The lock that `t` alone holds, shared. -/
def sharedBy (t : T) : RWLock T := ⟨none, [t], fun h => (h rfl).elim⟩

@[simp] lemma unlock_lockedBy (t : T) : (lockedBy t).unlock = .free := rfl

@[simp] lemma lock_free (t : T) : (RWLock.free : RWLock T).lock t = some (lockedBy t) := by
  simp [RWLock.lock, RWLock.free, lockedBy]

@[simp] lemma rLock_free (t : T) : (RWLock.free : RWLock T).rLock t = some (sharedBy t) := by
  simp [RWLock.rLock, RWLock.free, sharedBy]

variable [DecidableEq T]

@[simp] lemma rUnlock_sharedBy (t : T) : (sharedBy t).rUnlock t = .free := by
  simp [sharedBy, RWLock.rUnlock, RWLock.free]

@[simp] lemma holds_lockedBy (t : T) : holds (lockedBy t) t = true := by
  simp [holds, lockedBy]

@[simp] lemma holds_sharedBy (t : T) : holds (sharedBy t) t = true := by
  simp [holds, sharedBy]

/-- The choices of a platform that may fail, or that never does. -/
def Obliging (faulty : Bool) (c : Choice) : Prop := faulty = true ∨ c.os = none

/-- A choice on which every call succeeds. -/
def Choice.easy : Choice := ⟨none, fun _ => 0, 0, [], []⟩

/-- A platform with small pages. -/
def smallPages : Platform where
  pageSize := 64
  pageSize_pos := by decide
  sealCipher := none
  sum512 := id
  prf _ _ := []
  pattern _ := 0

lemma Obliging.easy (faulty : Bool) : Obliging faulty .easy := Or.inr rfl

/-- `t` runs the program alone from `w`, to the postcondition. -/
abbrev Ens (P : Platform) (t : T) (faulty : Bool) (crash : Prop) {α : Type} (p : ProcProg α)
    (Q : α → World T → Prop) (w : World T) : Prop :=
  p.Ensures (system T P) t (Obliging faulty) crash Q w

section Rules

variable {P : Platform} {t : T} {faulty : Bool} {crash : Prop} {w : World T} {b : ℕ}
  {Q : Unit → World T → Prop}

@[simp] lemma ens_pure {α : Type} (a : α) (Q : α → World T → Prop) :
    Ens P t faulty crash (pure a : ProcProg α) Q w ↔ Q a w := Iff.rfl

@[simp] lemma ens_bind {α β : Type} (p : ProcProg α) (f : α → ProcProg β)
    (Q : β → World T → Prop) :
    Ens P t faulty crash (p >>= f) Q w ↔
      Ens P t faulty crash p (fun a w' => Ens P t faulty crash (f a) Q w') w :=
  Prog.ensures_bind p f Q w

@[simp] lemma ens_map {α β : Type} (p : ProcProg α) (f : α → β) (Q : β → World T → Prop) :
    Ens P t faulty crash (f <$> p) Q w ↔ Ens P t faulty crash p (fun a w' => Q (f a) w') w :=
  Prog.ensures_map p f Q w

lemma ens_act (i : Act) (Q : Res i → World T → Prop) :
    Ens P t faulty crash (perform i) Q w ↔
      ∀ c, Obliging faulty c → (exec P t i c w).Post crash Q := Iff.rfl

/-- An action with one outcome. -/
lemma ens_sure {i : Act} {Q : Res i → World T → Prop} {r : Res i} {v : World T}
    (h : ∀ c, exec P t i c w = .done r v) :
    Ens P t faulty crash (perform i) Q w ↔ Q r v := by
  rw [ens_act]
  simp only [h]
  exact ⟨fun hQ => hQ .easy (.easy faulty), fun hQ _ _ => hQ⟩

lemma ens_obj {a : ObjAct} {Q : ObjRes a → World T → Prop} {r : ObjRes a} {o : Obj T}
    (h : ∀ c, execObj P t a c (w.obj b) = .done r o) :
    Ens P t faulty crash (upon b a) Q w ↔ Q r (w.setObj b o) :=
  ens_sure fun c => by simp only [exec, h, within_done]

/-- An action that only reads. -/
lemma ens_query {a : ObjAct} {Q : ObjRes a → World T → Prop} {r : ObjRes a}
    (h : ∀ c, execObj P t a c (w.obj b) = .done r (w.obj b)) :
    Ens P t faulty crash (upon b a) Q w ↔ Q r w := by
  rw [ens_obj h, setObj_obj]

/-- A call to the platform, which fails only on a faulty one. -/
lemma ens_fallible {i : Act} {Q : Res i → World T → Prop} {r : Res i} {w₀ : World T}
    {r' : ℕ → Res i} {w' : ℕ → World T}
    (h : ∀ c, c.os = none → exec P t i c w = .done r w₀)
    (h' : ∀ c n, c.os = some n → exec P t i c w = .done (r' n) (w' n)) :
    Ens P t faulty crash (perform i) Q w ↔
      Q r w₀ ∧ (faulty = true → ∀ n, Q (r' n) (w' n)) := by
  rw [ens_act]
  constructor
  · intro hQ
    refine ⟨?_, fun hf n => ?_⟩
    · have := hQ .easy (.easy faulty)
      rwa [h .easy rfl] at this
    · have := hQ { Choice.easy with os := some n } (Or.inl hf)
      rwa [h' { Choice.easy with os := some n } n rfl] at this
  · rintro ⟨hQ, hQ'⟩ c hc
    cases hos : c.os with
    | none =>
      rw [h c hos]
      exact hQ
    | some n =>
      have hf : faulty = true := hc.resolve_right (by rw [hos]; exact Option.some_ne_none n)
      rw [h' c n hos]
      exact hQ' hf n

lemma ens_platform {a : ObjAct} {Q : ObjRes a → World T → Prop} {r : ObjRes a} {o : Obj T}
    {x : ℕ → ObjRes a} {y : ℕ → Obj T}
    (h : ∀ c, c.os = none → execObj P t a c (w.obj b) = .done r o)
    (h' : ∀ c n, c.os = some n → execObj P t a c (w.obj b) = .done (x n) (y n)) :
    Ens P t faulty crash (upon b a) Q w ↔
      Q r (w.setObj b o) ∧ (faulty = true → ∀ n, Q (x n) (w.setObj b (y n))) :=
  ens_fallible (fun c hc => by simp only [exec, h c hc, within_done])
    fun c n hc => by simp only [exec, h' c n hc, within_done]

/-- A call to the platform that changes nothing here. -/
lemma ens_verdict {a : ObjAct} {Q : ObjRes a → World T → Prop} {r : ObjRes a}
    {r' : ℕ → ObjRes a} (h : ∀ c, c.os = none → execObj P t a c (w.obj b) = .done r (w.obj b))
    (h' : ∀ c n, c.os = some n → execObj P t a c (w.obj b) = .done (r' n) (w.obj b)) :
    Ens P t faulty crash (upon b a) Q w ↔
      Q r w ∧ (faulty = true → ∀ n, Q (r' n) w) := by
  refine (ens_platform h h').trans ?_
  simp only [setObj_obj]

@[simp] lemma ens_when {c : Prop} [Decidable c] (p : ProcProg Unit) :
    Ens P t faulty crash (Prog.when c p) Q w ↔
      if c then Ens P t faulty crash p Q w else Q () w := by
  unfold Prog.when
  split <;> exact Iff.rfl

/-! ### The lock and the flags -/

lemma ens_lock (h : (w.obj b).mu = .free) :
    Ens (α := Unit) P t faulty crash (upon b .lock) Q w ↔
      Q () (w.setObj b { w.obj b with mu := lockedBy t }) :=
  ens_obj fun c => by simp only [execObj, h, lock_free]

@[simp] lemma ens_unlock :
    Ens (α := Unit) P t faulty crash (upon b .unlock) Q w ↔
      Q () (w.setObj b { w.obj b with mu := (w.obj b).mu.unlock }) :=
  ens_obj fun _ => rfl

lemma ens_rLock (h : (w.obj b).mu = .free) :
    Ens (α := Unit) P t faulty crash (upon b .rLock) Q w ↔
      Q () (w.setObj b { w.obj b with mu := sharedBy t }) :=
  ens_obj fun c => by simp only [execObj, h, rLock_free]

@[simp] lemma ens_rUnlock :
    Ens (α := Unit) P t faulty crash (upon b .rUnlock) Q w ↔
      Q () (w.setObj b { w.obj b with mu := (w.obj b).mu.rUnlock t }) :=
  ens_obj fun _ => rfl

lemma ens_locked {α : Type} (h : (w.obj b).mu = .free) (body : ProcProg α)
    (Q : α → World T → Prop) :
    Ens P t faulty crash (locked b body) Q w ↔
      Ens P t faulty crash body
        (fun r w' => Q r (w'.setObj b { w'.obj b with mu := (w'.obj b).mu.unlock }))
        (w.setObj b { w.obj b with mu := lockedBy t }) := by
  simp only [locked, ens_bind, ens_lock h, ens_unlock, ens_pure]

lemma ens_rLocked {α : Type} (h : (w.obj b).mu = .free) (body : ProcProg α)
    (Q : α → World T → Prop) :
    Ens P t faulty crash (rLocked b body) Q w ↔
      Ens P t faulty crash body
        (fun r w' => Q r (w'.setObj b { w'.obj b with mu := (w'.obj b).mu.rUnlock t }))
        (w.setObj b { w.obj b with mu := sharedBy t }) := by
  simp only [rLocked, ens_bind, ens_rLock h, ens_rUnlock, ens_pure]

@[simp] lemma ens_loadWiped (Q : Bool → World T → Prop) :
    Ens (α := Bool) P t faulty crash (upon b .loadWiped) Q w ↔ Q (w.obj b).wiped w :=
  ens_query fun _ => rfl

@[simp] lemma ens_storeWiped :
    Ens (α := Unit) P t faulty crash (upon b .storeWiped) Q w ↔
      Q () (w.setObj b { w.obj b with wiped := true }) :=
  ens_obj fun _ => rfl

@[simp] lemma ens_loadSealCipher (Q : Bool → World T → Prop) :
    Ens (α := Bool) P t faulty crash (upon b .loadSealCipher) Q w ↔ Q (w.obj b).sealCipher w :=
  ens_query fun _ => rfl

@[simp] lemma ens_storeSealCipher (v : Bool) :
    Ens (α := Unit) P t faulty crash (upon b (.storeSealCipher v)) Q w ↔
      Q () (w.setObj b { w.obj b with sealCipher := v }) :=
  ens_obj fun _ => rfl

@[simp] lemma ens_load (Q : BufferState → World T → Prop) :
    Ens (α := BufferState) P t faulty crash (upon b .load) Q w ↔ Q (w.obj b).state w :=
  ens_query fun _ => rfl

@[simp] lemma ens_store (f : BufferState → BufferState) :
    Ens (α := Unit) P t faulty crash (upon b (.store f)) Q w ↔
      Q () (w.setObj b { w.obj b with state := f (w.obj b).state }) :=
  ens_obj fun _ => rfl

@[simp] lemma ens_storeTag (tag : List UInt8) :
    Ens (α := Unit) P t faulty crash (upon b (.storeTag tag)) Q w ↔
      Q () (w.setObj b { w.obj b with
        state := { (w.obj b).state with sealTag := tag }
        ghost := { (w.obj b).ghost with rest := (w.obj b).region.inner } }) :=
  ens_obj fun _ => rfl

@[simp] lemma ens_staleGeneration :
    Ens (α := Unit) P t faulty crash (upon b .staleGeneration) Q w ↔ Q () w :=
  ens_query fun _ => rfl

@[simp] lemma ens_lent (gen : ℕ) :
    Ens (α := Unit) P t faulty crash (upon b (.lent gen)) Q w ↔ Q () w :=
  ens_query fun _ => rfl

/-! ### The count of openers -/

lemma ens_openMuLock (h : (w.obj b).openMu = none) :
    Ens (α := Unit) P t faulty crash (upon b .openMuLock) Q w ↔
      Q () (w.setObj b { w.obj b with openMu := some t }) :=
  ens_obj fun _ => by simp only [execObj, h, if_true]

@[simp] lemma ens_openMuUnlock :
    Ens (α := Unit) P t faulty crash (upon b .openMuUnlock) Q w ↔
      Q () (w.setObj b { w.obj b with openMu := none }) :=
  ens_obj fun _ => rfl

@[simp] lemma ens_readOpeners (Q : ℤ → World T → Prop) :
    Ens (α := ℤ) P t faulty crash (upon b .readOpeners) Q w ↔ Q (w.obj b).openers w :=
  ens_query fun _ => rfl

@[simp] lemma ens_writeOpeners (n : ℤ) :
    Ens (α := Unit) P t faulty crash (upon b (.writeOpeners n)) Q w ↔
      Q () (w.setObj b { w.obj b with
        openers := n
        ghost := { (w.obj b).ghost with
          opens := if (w.obj b).openers < n then t :: (w.obj b).ghost.opens
            else (w.obj b).ghost.opens.erase t } }) :=
  ens_obj fun _ => rfl

@[simp] lemma ens_opens (err : Option GoErr) :
    Ens (α := Unit) P t faulty crash (upon b (.opens err)) Q w ↔ Q () w :=
  ens_query fun _ => rfl

@[simp] lemma ens_closes (err : Option GoErr) :
    Ens (α := Unit) P t faulty crash (upon b (.closes err)) Q w ↔ Q () w :=
  ens_query fun _ => rfl

/-! ### The platform -/

/-- A protection changed by a holder of the lock, or before the owner is marked wiped. -/
lemma ens_mprotect {p : Prot} (h : (w.obj b).wiped = false ∨ holds (w.obj b).mu t = true)
    (Q : Option GoErr → World T → Prop) :
    Ens (α := Option GoErr) P t faulty crash (upon b (.mprotect p)) Q w ↔
      Q none (w.setObj b ((w.obj b).setProt p)) ∧ (faulty = true → ∀ n, Q (some (.os n)) w) := by
  have hlate : ((w.obj b).wiped && !holds (w.obj b).mu t) = false := by
    rcases h with h | h <;> simp [h]
  have hgood : ∀ c : Choice, c.os = none →
      execObj P t (.mprotect p) c (w.obj b) = .done none ((w.obj b).setProt p) := by
    intro c hc
    simp only [execObj, hc, hlate, Bool.or_false]
    rfl
  have hbad : ∀ (c : Choice) (n : ℕ), c.os = some n →
      execObj P t (.mprotect p) c (w.obj b) = .done (some (.os n)) (w.obj b) := by
    intro c n hc
    simp only [execObj, hc]
  refine (ens_platform hgood hbad).trans ?_
  simp only [setObj_obj]

lemma ens_restoreWriteAccess (Q : Option GoErr → World T → Prop) :
    Ens (α := Option GoErr) P t faulty crash (upon b .restoreWriteAccess) Q w ↔
      Q none (w.setObj b { (w.obj b).setProt .readWrite with
        ghost := { (w.obj b).ghost with
          wiping := some t, found := { (w.obj b).ghost.found with restore := none } } }) ∧
      (faulty = true → ∀ n, Q (some (.os n)) (w.setObj b { w.obj b with
        ghost := { (w.obj b).ghost with
          found := { (w.obj b).ghost.found with restore := some (.os n) } } })) := by
  refine ens_platform (fun c hc => ?_) fun c n hc => ?_
  · simp only [execObj, hc]
  · simp only [execObj, hc]

@[simp] lemma ens_relock (Q : Option GoErr → World T → Prop) :
    Ens (α := Option GoErr) P t faulty crash (upon b .relock) Q w ↔
      Q none w ∧ (faulty = true → ∀ n, Q (some (.os n)) w) :=
  ens_verdict (fun c hc => by simp only [execObj, hc, Option.map_none])
    fun c n hc => by simp only [execObj, hc, Option.map_some]

@[simp] lemma ens_madvise (Q : Option GoErr → World T → Prop) :
    Ens (α := Option GoErr) P t faulty crash (upon b .madviseBeforeFree) Q w ↔
      Q none w ∧ (faulty = true → ∀ n, Q (some (.os n)) w) :=
  ens_verdict (fun c hc => by simp only [execObj, hc, Option.map_none])
    fun c n hc => by simp only [execObj, hc, Option.map_some]

/-- What is left of an object that has been given back. -/
def Obj.released (o : Obj T) (mapped : Bool) : Obj T :=
  { o with
    region := { o.region with mapped := mapped }
    ghost := { o.ghost with filing := .freed, frees := o.ghost.frees + 1 } }

lemma ens_free (Q : Option GoErr → World T → Prop) :
    Ens (α := Option GoErr) P t faulty crash (upon b .free) Q w ↔
      Q none (w.setObj b ((w.obj b).released false)) ∧
        (faulty = true → ∀ n, Q (some (.os n)) (w.setObj b ((w.obj b).released true))) := by
  refine ens_platform (fun c hc => ?_) fun c n hc => ?_
  · simp only [execObj, hc, Option.map_none, Option.isSome_none]
    rfl
  · simp only [execObj, hc, Option.map_some, Option.isSome_some]
    rfl

/-- The cipher: a platform without one leaves the bytes alone, one with it may refuse the
length or the call, or encrypts in place. -/
lemma ens_sealEncrypt {Q : Except GoErr Bool → World T → Prop}
    (hnone : P.sealCipher = none → Q (.ok false) w)
    (hbad : ∀ e, Q (.error e) w)
    (hrw : (w.obj b).region.mapped = true ∧ (w.obj b).region.prot.writable = true)
    (hok : ∀ cipher seed, P.sealCipher = some cipher →
      sealCipherLen (w.obj b).region.inner.length = none →
      Q (.ok true) (w.setObj b
        ((w.obj b).setInner (cipher.encrypt seed (w.obj b).region.inner)))) :
    Ens (α := Except GoErr Bool) P t faulty crash (upon b .sealEncrypt) Q w := by
  rw [ens_act]
  intro c _
  simp only [exec, execObj]
  cases hcipher : P.sealCipher with
  | none => simpa only [within_done, setObj_obj, post_done] using hnone hcipher
  | some cipher =>
    cases hlen : sealCipherLen (w.obj b).region.inner.length with
    | some e => simpa only [within_done, setObj_obj, post_done] using hbad e
    | none =>
      cases hos : c.os with
      | some n => simpa only [within_done, setObj_obj, post_done] using hbad _
      | none =>
        simp only [Obj.guarded, if_pos hrw, within_done]
        exact hok cipher c.seed hcipher hlen

lemma ens_sealDecrypt {Q : Option GoErr → World T → Prop}
    (hnone : P.sealCipher = none → Q none w)
    (hbad : P.sealCipher ≠ none → faulty = true ∨
      (sealCipherLen (w.obj b).region.inner.length).isSome = true → ∀ e, Q (some e) w)
    (hrw : (w.obj b).region.mapped = true ∧ (w.obj b).region.prot.writable = true)
    (hok : ∀ cipher, P.sealCipher = some cipher →
      sealCipherLen (w.obj b).region.inner.length = none →
      Q none (w.setObj b ((w.obj b).setInner (cipher.decrypt (w.obj b).region.inner)))) :
    Ens (α := Option GoErr) P t faulty crash (upon b .sealDecrypt) Q w := by
  rw [ens_act]
  intro c hc
  simp only [exec, execObj]
  cases hcipher : P.sealCipher with
  | none => simpa only [within_done, setObj_obj, post_done] using hnone hcipher
  | some cipher =>
    have hne : P.sealCipher ≠ none := by rw [hcipher]; exact Option.some_ne_none cipher
    cases hlen : sealCipherLen (w.obj b).region.inner.length with
    | some e =>
      simpa only [within_done, setObj_obj, post_done] using
        hbad hne (Or.inr (by rw [hlen]; rfl)) e
    | none =>
      cases hos : c.os with
      | some n =>
        have hf : faulty = true := hc.resolve_right (by rw [hos]; exact Option.some_ne_none n)
        simpa only [within_done, setObj_obj, post_done] using hbad hne (Or.inl hf) _
      | none =>
        simp only [Obj.guarded, if_pos hrw, within_done]
        exact hok cipher hcipher hlen

lemma ens_alloc {kind : Kind} {size : ℕ} (Q : Except GoErr (ℕ × ℕ) → World T → Prop) :
    Ens (α := Except GoErr (ℕ × ℕ)) P t faulty crash (perform (.alloc kind size)) Q w ↔
      Q (.ok (w.allocated, P.rounded size)) (w.grown (.fresh P t kind size)) ∧
        (faulty = true → ∀ n, Q (.error (.os n)) w) := by
  refine ens_fallible (fun c hc => ?_) fun c n hc => ?_
  · simp only [exec, hc]
    rfl
  · simp only [exec, hc]

/-! ### The bytes -/

@[simp] lemma ens_innerLen (Q : ℕ → World T → Prop) :
    Ens (α := ℕ) P t faulty crash (upon b .innerLen) Q w ↔ Q (w.obj b).region.inner.length w :=
  ens_query fun _ => rfl

lemma ens_readInner (h : (w.obj b).region.mapped = true ∧ (w.obj b).region.prot.readable = true)
    (Q : List UInt8 → World T → Prop) :
    Ens (α := List UInt8) P t faulty crash (upon b .readInner) Q w ↔
      Q (w.obj b).region.inner w :=
  ens_query fun _ => by simp only [execObj, Obj.guarded, if_pos h]

lemma ens_read {lo n : ℕ}
    (h : (w.obj b).region.mapped = true ∧ (w.obj b).region.prot.readable = true)
    (Q : List UInt8 → World T → Prop) :
    Ens (α := List UInt8) P t faulty crash (upon b (.read lo n)) Q w ↔
      Q (((w.obj b).region.inner.drop lo).take n) w := by
  refine ens_query fun _ => ?_
  simp only [execObj]
  split
  next hn => rw [hn, List.take_zero]
  next => rw [Obj.guarded, if_pos h]

lemma ens_intact {layout : CanaryLayout}
    (h : (w.obj b).region.mapped = true ∧ (w.obj b).region.prot.readable = true)
    (Q : Bool → World T → Prop) :
    Ens (α := Bool) P t faulty crash (upon b (.intact layout)) Q w ↔
      Q (layout.intact P.pattern (w.obj b).region.inner) w :=
  ens_query fun _ => by simp only [execObj, Obj.guarded, if_pos h]

/-- The object after a wipe. -/
def Obj.zeroed (o : Obj T) : Obj T :=
  { o with
    region := { o.region with inner := wipeBytes o.region.inner }
    ghost := { o.ghost with
      wiping := none
      swept := true
      rest := wipeBytes o.region.inner
      plain := wipeBytes o.ghost.plain } }

lemma ens_wipe (h : (w.obj b).region.mapped = true ∧ (w.obj b).region.prot.writable = true) :
    Ens (α := Unit) P t faulty crash (upon b .wipe) Q w ↔
      Q () (w.setObj b (w.obj b).zeroed) :=
  ens_obj fun _ => by
    simp only [execObj, Obj.guarded, if_pos h]
    rfl

end Rules

end Secmem.Process
