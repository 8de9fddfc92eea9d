import Secmem.Arena.Safety
import Secmem.Framework.Critical

/-!
# The `alloc` mutex

`Acquire` and the end of `Release` are critical sections of `alloc`: between taking the mutex and
giving it back they touch the queue and a few flags and never wait.  No other method takes it.  So a
goroutine that waits for `alloc` depends only on one that can always go on.
-/

namespace Secmem.Arena

variable {T : Type} {a : Shape} {pattern : ℕ → UInt8} {slab : Bool}

/-- The calls that leave the region as a whole alone. -/
def ordinary : Call → Bool
  | .acquire => true
  | .withBytesErr _ _ => true
  | .release _ => true
  | _ => false

/-- What an action has to do with `alloc`; without `slab`, the one that writes outside the slots and
their strips is barred. -/
def useAlloc (slab : Bool) : Act → Use
  | .allocLock => .takes
  | .allocUnlock => .gives
  | .readFreeHead | .writeFreeHead _ | .readFreeTail | .writeFreeTail _ | .readNext _
  | .writeNext .. | .addLive _ | .loadDestroyed | .loadWiped | .addGeneration _
  | .acquireReturns _ | .appended _ => .brief
  | .wipeSlab => if slab = true then .other else .barred
  | _ => .other

/-! ## What the methods perform -/

@[simp] lemma follows_wipeSlotBytes (h : ArenaSlot) (ks : List ℕ) {post : Unit → Bool → Prop} :
    (wipeSlotBytes h ks).Follows (mutex (useAlloc slab)) post false ↔ post () false := by
  induction ks with
  | nil => exact Iff.rfl
  | cons _ _ ih => simp [wipeSlotBytes, ih, mutex, useAlloc]

lemma follows_runWrites {h : ArenaSlot} {ws : List (ℕ × UInt8)} {post : Bool → Bool → Prop}
    (hpost : ∀ finished, post finished false) :
    (runWrites a h ws).Follows (mutex (useAlloc slab)) post false := by
  induction ws with
  | nil => exact hpost true
  | cons _ _ ih => simp [runWrites, ih, hpost, mutex, useAlloc]

lemma follows_ordinary {c : Call} (hc : ordinary c = true) :
    (code a c).Follows (mutex (useAlloc slab)) (fun _ held => held = false) false := by
  cases c <;> cases hc
  case acquire => simp [code, acquire, acquireLocked, mutex, useAlloc]
  case withBytesErr s fn =>
    cases fn <;> cases s <;>
      simp [code, withBytesErr, borrowSlot, follows_runWrites, mutex, useAlloc]
  case release s =>
    cases s <;> simp [code, release, releaseSlot, readOnlyInForce, wipeSlot, checkStrip,
      appendSlot, mutex, useAlloc]

lemma follows_code (c : Call) :
    (code a c).Follows (mutex (useAlloc true)) (fun _ held => held = false) false := by
  cases c
  case acquire | withBytesErr | release => exact follows_ordinary rfl
  all_goals
    simp [code, readOnly, readWrite, setProtection, wipeInPlace, tryWipeInPlace, wipeLocked, settle,
      destroy, releaseRegion, wipeAndFree, verify, mutex, useAlloc, Option.forall]

/-! ## Progress -/

variable [DecidableEq T]

lemma guards : Guards (system T a pattern) (useAlloc true) World.alloc where
  code := follows_code
  takes {t i c s r s'} hu he := by
    cases i <;> cases hu
    simp only [system, exec] at he
    split at he <;> cases he
    next hfree => exact ⟨hfree, rfl⟩
  gives {t i c s r s'} hu he := by
    cases i <;> cases hu
    cases he
    rfl
  leaves {t i c s r s'} hu he := by
    -- the two actions on the mutex have another use
    cases i <;> simp only [system, exec, guarded] at he <;> (repeat' split at he) <;> cases he <;>
      first | rfl | simp [useAlloc] at hu
  ready {i} hu t s := by
    cases i <;> simp [useAlloc] at hu <;> simp [system, exec]

/-- In every run of every arena the goroutine that has `alloc` gives it back by steps of its own: an
`Acquire` that waits for the mutex does not wait in vain. -/
lemma alloc_given_back {env : Env} {slotSize count : ℤ} {w₀ : World T} {t : T}
    {p : Pool Act Res Call T (World T)}
    (hnew : newArena T env slotSize count = .ok (a, pattern, w₀)) (hrun : Run a pattern w₀ p)
    (ht : p.state.alloc = some t) : ∃ cs : List Choice, ∃ p',
      p.moves (system T a pattern) (fun _ => true) (cs.map (.step t)) = some p' ∧
        p'.state.alloc = none := by
  refine guards.gives_back ?_ hrun ht
  rintro w rfl
  rw [newArena_eq hnew]
  rfl

end Secmem.Arena
