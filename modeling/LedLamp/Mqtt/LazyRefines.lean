import LedLamp.Mqtt.Footprint
import LedLamp.Mqtt.LazyLock
/-!
# The lock made on first use is a lock

`System` takes the module lock in one step. Here the module with the lock of `LazyLock` is
shown to do what `System` does, as long as no creation fails: a `lock` takes effect when the
published mutex is taken, an `unlock` when it is given back, and no other step of either can
be told from nothing. So what is proved of every run of `System` is true of these runs.

For an `unlock` it matters that the handle is there, so the programs are followed from lock
to unlock first.
-/

namespace LedLamp.Mqtt

open Conc Lamp

/-! ## Lock and unlock in turn -/

/-- Whether the lock is held after an operation; it is not taken twice, nor given back
without being held. -/
def Op.turn (held : Bool) : Op → Option Bool
  | .lock => if held then none else some true
  | .unlock => if held then some false else none
  | _ => some held

section Turns
variable {held : Bool} {parse : List UInt8 → Option Json}

theorem turn_other {o : Op} (hl : o ≠ .lock) (hu : o ≠ .unlock) : o.turn held = some held := by
  cases o with
  | lock => exact absurd rfl hl
  | unlock => exact absurd rfl hu
  | _ => rfl

theorem mqttCfgFailOff_paced : mqttCfgFailOff.Paced Op.turn held held := ⟨_, rfl, fun _ => rfl⟩

theorem mqttCfgValidate_paced (cfg : Option MqttCfg) : (mqttCfgValidate cfg).Paced Op.turn false false := by
  unfold mqttCfgValidate
  refine ⟨_, rfl, fun _ => ?_⟩
  dsimp only
  split
  · exact ⟨_, rfl, fun _ => ⟨_, rfl, fun _ => ⟨_, rfl, fun _ => ⟨_, rfl, fun _ => rfl⟩⟩⟩⟩
  · exact ⟨_, rfl, fun _ => rfl⟩

theorem loadFail_paced (status : MqttCfgStatus) (out : Option MqttCfg) :
    (loadFail status out).Paced Op.turn false false :=
  ⟨_, rfl, fun _ => ⟨_, rfl, fun _ => ⟨_, rfl, fun _ => ⟨_, rfl, fun _ => ⟨_, rfl, fun _ => rfl⟩⟩⟩⟩⟩

theorem mqttCfgReadFile_paced (path : List UInt8) (maxLen : Nat) :
    (mqttCfgReadFile path maxLen).Paced Op.turn held held :=
  ((mqttCfgReadFile_uses path maxLen).mono fun o ho =>
    turn_other (fun e => by rw [e] at ho; cases ho) (fun e => by rw [e] at ho; cases ho)).paced

theorem mqttCfgLoad_paced (out : Option MqttCfg) : (mqttCfgLoad parse out).Paced Op.turn false false := by
  unfold mqttCfgLoad
  cases out with
  | none => exact loadFail_paced _ _
  | some cfg =>
    refine (mqttCfgReadFile_paced _ _).bind fun content => ?_
    cases content with
    | none =>
      refine ⟨_, rfl, fun size => ?_⟩
      cases size <;> exact loadFail_paced _ _
    | some json =>
      dsimp only
      split
      · exact loadFail_paced _ _
      · rfl

theorem applyFail_paced (status : MqttCfgStatus) : (applyFail status).Paced Op.turn true false :=
  ⟨_, rfl, fun _ => mqttCfgFailOff_paced.bind fun _ => rfl⟩

theorem applyVerified_paced (cfg : MqttCfg) (accessToken : Option (List UInt8)) :
    (applyVerified cfg accessToken).Paced Op.turn true false := by
  unfold applyVerified
  split
  · exact applyFail_paced _
  · refine ⟨_, rfl, fun status => ?_⟩
    cases status with
    | ok => exact ⟨_, rfl, fun _ => ⟨_, rfl, fun _ => rfl⟩⟩
    | _ => exact applyFail_paced _

theorem applyLocked_paced (cfg : MqttCfg) : (applyLocked cfg).Paced Op.turn true false := by
  unfold applyLocked
  split
  · refine ⟨_, rfl, fun token => ?_⟩
    obtain ⟨ok, accessToken⟩ := token
    cases ok with
    | false => exact applyFail_paced _
    | true =>
      cases accessToken with
      | none => exact applyFail_paced _
      | some accessToken =>
        show Prog.Paced Op.turn true (if (cstr accessToken).isEmpty = true then applyFail .errApply
          else applyVerified cfg (some accessToken)) false
        split
        · exact applyFail_paced _
        · exact applyVerified_paced _ _
  · exact applyVerified_paced _ _

theorem mqttCfgApply_paced (cfg : Option MqttCfg) : (mqttCfgApply cfg).Paced Op.turn false false := by
  have hbegin : applyBegin.Paced Op.turn false false :=
    ⟨_, rfl, fun _ => ⟨_, rfl, fun _ => ⟨_, rfl, fun _ => ⟨_, rfl, fun _ => ⟨_, rfl, fun _ => ⟨_, rfl, fun _ =>
      ⟨_, rfl, fun _ => rfl⟩⟩⟩⟩⟩⟩⟩
  have hrest : (applyRest cfg).Paced Op.turn false false := by
    refine ⟨_, rfl, fun _ => ⟨_, rfl, fun _ => ?_⟩⟩
    cases cfg with
    | none => exact applyFail_paced _
    | some cfg =>
      dsimp only
      split
      · exact applyFail_paced _
      · exact applyLocked_paced _
  refine hbegin.bind fun _ => ⟨_, rfl, fun _ => ⟨_, rfl, fun connected => ?_⟩⟩
  have hdeinit : (act .mqttAppDeinit >>= fun _ => applyRest cfg).Paced Op.turn false false := ⟨_, rfl, fun _ => hrest⟩
  cases connected with
  | false => exact hdeinit
  | true => exact mqttCfgFailOff_paced.bind fun _ => hdeinit

theorem connectRefuse_paced : connectRefuse.Paced Op.turn true false :=
  ⟨_, rfl, fun _ => ⟨_, rfl, fun _ => ⟨_, rfl, fun _ => mqttCfgFailOff_paced.bind fun _ => rfl⟩⟩⟩

theorem pollTimeout_paced : pollTimeout.Paced Op.turn true false :=
  ⟨_, rfl, fun _ => ⟨_, rfl, fun _ => ⟨_, rfl, fun _ => mqttCfgFailOff_paced.bind fun _ => rfl⟩⟩⟩

theorem pollOnce_paced {timeoutMs waited : UInt32} {again : Act MqttCfgStatus} (h : again.Paced Op.turn true false) :
    (pollOnce timeoutMs waited again).Paced Op.turn false false := by
  refine ⟨_, rfl, fun _ => ⟨_, rfl, fun applyGen => ⟨_, rfl, fun connectedGen => ⟨_, rfl, fun connectFailed => ?_⟩⟩⟩⟩
  have hconnected : (pollConnected applyGen connectedGen).Paced Op.turn true true := by
    unfold pollConnected
    split
    · exact ⟨_, rfl, fun _ => rfl⟩
    · rfl
  refine hconnected.bind fun connected => ⟨_, rfl, fun current => ?_⟩
  cases connected with
  | true =>
    refine ⟨_, rfl, fun latch => ?_⟩
    show Prog.Paced Op.turn true (if (latch && current) = true then pollAccept else pollRefuse) false
    split
    · exact ⟨_, rfl, fun _ => ⟨_, rfl, fun _ => ⟨_, rfl, fun _ => rfl⟩⟩⟩
    · exact ⟨_, rfl, fun _ => ⟨_, rfl, fun _ => ⟨_, rfl, fun _ => ⟨_, rfl, fun _ => ⟨_, rfl, fun _ =>
        mqttCfgFailOff_paced.bind fun _ => rfl⟩⟩⟩⟩⟩
  | false =>
    dsimp only
    split
    · rename_i h'
      cases h'
    · split
      · exact ⟨_, rfl, fun _ => ⟨_, rfl, fun _ => rfl⟩⟩
      · split
        · exact pollTimeout_paced
        · exact h

theorem pollLoop_paced (timeoutMs : UInt32) (fuel : Nat) (waited : UInt32) :
    (pollLoop timeoutMs fuel waited).Paced Op.turn false false := by
  induction fuel generalizing waited with
  | zero => exact pollOnce_paced pollTimeout_paced
  | succ fuel ih => exact pollOnce_paced ⟨_, rfl, fun _ => ⟨_, rfl, fun _ => ih _⟩⟩

theorem mqttCfgConnect_paced (timeoutMs : UInt32) : (mqttCfgConnect timeoutMs).Paced Op.turn false false := by
  have hrefuse : (act (.writeVerifiedApplied false) >>= fun _ => connectRefuse).Paced Op.turn true false :=
    ⟨_, rfl, fun _ => connectRefuse_paced⟩
  have hstart : (connectStart timeoutMs).Paced Op.turn false false := by
    have hbegin : connectBegin.Paced Op.turn false false :=
      ⟨_, rfl, fun _ => ⟨_, rfl, fun _ => ⟨_, rfl, fun _ => ⟨_, rfl, fun _ => ⟨_, rfl, fun _ => ⟨_, rfl, fun _ => rfl⟩⟩⟩⟩⟩⟩
    exact ⟨_, rfl, fun _ => hbegin.bind fun _ => ⟨_, rfl, fun _ => ⟨_, rfl, fun _ => pollLoop_paced _ _ _⟩⟩⟩
  refine ⟨_, rfl, fun _ => ⟨_, rfl, fun latch => ?_⟩⟩
  cases latch with
  | false => exact connectRefuse_paced
  | true =>
    refine ⟨_, rfl, fun current => ?_⟩
    cases current with
    | false => exact hrefuse
    | true =>
      refine ⟨_, rfl, fun url => ?_⟩
      cases url with
      | none => exact hrefuse
      | some url => exact ⟨_, rfl, fun _ => hstart⟩

theorem body_paced (call : Call) : (body parse call).Paced Op.turn false false := by
  cases call with
  | validate cfg => exact (mqttCfgValidate_paced cfg).bind fun _ => rfl
  | load out => exact (mqttCfgLoad_paced out).bind fun _ => rfl
  | apply cfg => exact (mqttCfgApply_paced cfg).bind fun _ => rfl
  | loadAndApply cfg =>
    refine ((mqttCfgLoad_paced (some cfg)).bind fun loaded => ?_).bind fun _ => rfl
    split
    · exact mqttCfgApply_paced _
    · rfl
  | connect timeoutMs => exact (mqttCfgConnect_paced timeoutMs).bind fun _ => rfl
  | onConnect =>
    refine ⟨_, rfl, fun waiting => ?_⟩
    cases waiting with
    | false => rfl
    | true => exact ⟨_, rfl, fun _ => ⟨_, rfl, fun _ => rfl⟩⟩
  | onDisconnect => exact ⟨_, rfl, fun _ => ⟨_, rfl, fun _ => ⟨_, rfl, fun _ => rfl⟩⟩⟩
  | onConnectFailure reason =>
    refine ⟨_, rfl, fun _ => ⟨_, rfl, fun _ => ⟨_, rfl, fun _ => ⟨_, rfl, fun _ => ?_⟩⟩⟩⟩
    dsimp only
    split
    · exact ⟨_, rfl, fun _ => ⟨_, rfl, fun _ => ⟨_, rfl, fun _ => ⟨_, rfl, fun _ => rfl⟩⟩⟩⟩
    · exact ⟨_, rfl, fun _ => rfl⟩

end Turns

/-! ## What the lock made on first use shows -/

/-- The thread that holds the published mutex. -/
def LazyWorld.holder (w : LazyWorld) : Option Tid := (w.lock.bind w.mutexes).bind Mutex.holder

def LazyWorld.shown (w : LazyWorld) : World := { w.module with lock := w.holder }

/-- The operation that takes effect at a step: the lock is the taking of the mutex. -/
def takesEffect : (o : LazyOp) → LazyRes o → Option ((o : Op) × Res o)
  | .osalMutexTake _, _ => some ⟨.lock, ()⟩
  | .osalMutexGive _, _ => some ⟨.unlock, ()⟩
  | .other o, r => some ⟨o, r⟩
  | _, _ => none

/-- The world that is shown, with the published mutex in use. -/
def ShowsWorld (w' : LazyWorld) (w : World) : Prop :=
  w = w'.shown ∧ ∀ id, w'.lock = some id → (w'.mutexes id).isSome = true

/-- Where a thread is in taking the lock. -/
inductive Locking (t : Tid) (m : LazyMoment) : Option Unit → LazyAct Unit → Prop
  | start : Locking t m none mqttCfgLock
  | creating : Locking t m none (createLock >>= fun ensured => if ensured = true then takeLock else .ret ())
  | created {id : MutexId} : Mine t id m →
      Locking t m none (publishLock id >>= fun ensured => if ensured = true then takeLock else .ret ())
  | lost {id : MutexId} : Mine t id m → LockPublished m →
      Locking t m none (.op (.osalMutexDelete id) fun _ => takeLock)
  | ensured : LockPublished m → Locking t m none takeLock
  | taking {id : MutexId} : PublishedAs id m → Locking t m none (lazyAct (.osalMutexTake (some id)))
  | taken : LockPublished m → Locking t m (some ()) (.ret ())

/-- Where a thread is in giving it back. -/
inductive Unlocking (m : LazyMoment) : Option Unit → LazyAct Unit → Prop
  | start : LockPublished m → Unlocking m none mqttCfgUnlock
  | loaded : LockPublished m → Unlocking m none giveLock
  | giving {id : MutexId} : PublishedAs id m → Unlocking m none (lazyAct (.osalMutexGive (some id)))
  | given : LockPublished m → Unlocking m (some ()) (.ret ())

/-- What is left of the program takes lock and unlock in turn, and a thread that has taken
the lock finds the handle. -/
def Between (p : Act Ret) (m : LazyMoment) : Prop :=
  ∃ held, p.Paced Op.turn held false ∧ (held = true → LockPublished m)

def Doing (t : Tid) : (o : Op) → (Res o → Act Ret) → Option (Res o) → LazyAct (Res o) → LazyMoment → Prop
  | .lock, k, done, q, m => Locking t m done q ∧ ∀ r, (k r).Paced Op.turn true false
  | .unlock, k, done, q, m => Unlocking m done q ∧ ∀ r, (k r).Paced Op.turn false false
  | o, k, done, q, m => (∀ r, Between (k r) m) ∧
    (done = none ∧ q = lazyAct (.other o) ∨ ∃ r, done = some r ∧ q = .ret r)

/-- No creation fails, and the handles are used as `Handles` says. -/
def Granted : Conc.Promise Tid LazyWorld LazyOp LazyRes Call Ret := fun t e m =>
  Handles t e m ∧ failsCreate e = false

section Carrying
variable {parse : List UInt8 → Option Json} {t : Tid} {m : LazyMoment} {e : LazyEvent} {w w' : LazyWorld} {id : MutexId}

/-- Only the lock's own operations look at the lock. -/
theorem stepEffect_lock {o : Op} (hl : o ≠ .lock) (hu : o ≠ .unlock) (r : Res o) (w : World) (l : Option Tid) :
    stepEffect t { w with lock := l } o r = (stepEffect t w o r).map fun w' => { w' with lock := l } := by
  cases o with
  | lock => exact absurd rfl hl
  | unlock => exact absurd rfl hu
  | loadGen g | load f | readVerifiedApplied | mqttAppIsConnected | mqttAppDeinit | lampControlForceInactive
  | lampControlReleaseFailOff =>
    simp only [stepEffect]
    split <;> rfl
  | mqttConfigApplyVerified v =>
    simp only [stepEffect]
    split <;> rfl
  | _ => rfl

theorem effect_call_lock (c : Call) (w : World) (l : Option Tid) :
    effect t (.call c) { w with lock := l } = (effect t (.call c) w).map fun w' => { w' with lock := l } := by
  cases t with
  | transport =>
    have hback : World.callsBack { w with lock := l } c = w.callsBack c := rfl
    simp only [effect, hback]
    split <;> rfl
  | task id =>
    simp only [effect]
    split <;> rfl

theorem effect_ret_lock (s : Ret) (w : World) (l : Option Tid) :
    effect t (.ret s) { w with lock := l } = (effect t (.ret s) w).map fun w' => { w' with lock := l } := by
  cases t <;> rfl

/-- What happens outside the lock is shown as it is. -/
theorem shown_outside {f : World → Option World} {v : World}
    (hf : ∀ l, f { w.module with lock := l } = (f w.module).map fun w' => { w' with lock := l })
    (h : ((f w.module).map fun module => { w with module }) = some w') (hs : ShowsWorld w v) :
    ∃ v', f v = some v' ∧ ShowsWorld w' v' := by
  obtain ⟨module, hm, rfl⟩ := Option.map_eq_some_iff.1 h
  obtain ⟨rfl, hlive⟩ := hs
  refine ⟨{ module with lock := w.holder }, ?_, rfl, hlive⟩
  rw [LazyWorld.shown, hf, hm]
  rfl

theorem holder_of (hl : w.lock = some id) : w.holder = (w.mutexes id).bind Mutex.holder := by
  rw [LazyWorld.holder, hl]
  rfl

/-- A mutex that is not published is not seen. -/
theorem shown_setMutex {v : World} (mutex : Option Mutex) (hne : w.lock ≠ some id) (hs : ShowsWorld w v) :
    ShowsWorld (w.setMutex id mutex) v := by
  obtain ⟨rfl, hlive⟩ := hs
  have same : ∀ id', w.lock = some id' → (w.setMutex id mutex).mutexes id' = w.mutexes id' := by
    rintro id' hl
    exact Function.update_of_ne (fun h => hne (hl.trans (congrArg some h))) _ _
  refine ⟨?_, fun id' hl => by rw [same id' hl]; exact hlive id' hl⟩
  have hholder : (w.setMutex id mutex).holder = w.holder := by
    cases hl : w.lock with
    | none => simp [LazyWorld.holder, LazyWorld.setMutex, hl]
    | some id' =>
      have hl' : (w.setMutex id mutex).lock = some id' := hl
      rw [holder_of hl, holder_of hl', same id' hl]
  rw [LazyWorld.shown, LazyWorld.shown, hholder]
  rfl

/-- The published mutex is seen as the lock. -/
theorem shown_holder {v : World} {mutex : Mutex} (holder : Option Tid) (hl : w.lock = some id)
    (hm : w.mutexes id = some mutex) (hs : ShowsWorld w v) :
    v.lock = mutex.holder ∧
      ShowsWorld (w.setMutex id (some { mutex with holder := holder })) { v with lock := holder } := by
  obtain ⟨rfl, hlive⟩ := hs
  have hset : (w.setMutex id (some { mutex with holder := holder })).mutexes id =
      some { mutex with holder := holder } := Function.update_self ..
  refine ⟨?_, ?_, fun id' hl' => ?_⟩
  · rw [LazyWorld.shown, holder_of hl, hm]
    rfl
  · have hholder : (w.setMutex id (some { mutex with holder := holder })).holder = holder := by
      rw [LazyWorld.holder]
      simp only [LazyWorld.setMutex, hl, Option.bind_some, Function.update_self]
    exact (congrArg (fun l => ({ w.module with lock := l } : World)) hholder).symm
  · obtain rfl := Option.some.inj (hl.symm.trans hl')
    rw [hset]
    rfl

/-! ## The steps of a lock -/

theorem LockPublished.after (h : LockPublished m) (he : lazyEffect t e m.world = some w) : LockPublished (m.after t e w) :=
  h.imp fun _ => (lazyEffect_changes he).published

theorem Locking.stable {t' : Tid} {done : Option Unit} {q : LazyAct Unit} (ht : t' ≠ t)
    (he : lazyEffect t' e m.world = some w) (hp : Handles t' e m) (h : Locking t m done q) :
    Locking t (m.after t' e w) done q := by
  have hchanges := lazyEffect_changes he
  cases h with
  | start => exact .start
  | creating => exact .creating
  | created hmine => exact .created (hchanges.mine hp ht hmine)
  | lost hmine hpub => exact .lost (hchanges.mine hp ht hmine) (hpub.after he)
  | ensured hpub => exact .ensured (hpub.after he)
  | taking hpub => exact .taking (hchanges.published hpub)
  | taken hpub => exact .taken (hpub.after he)

theorem Unlocking.stable {t' : Tid} {done : Option Unit} {q : LazyAct Unit}
    (he : lazyEffect t' e m.world = some w) (h : Unlocking m done q) : Unlocking (m.after t' e w) done q := by
  cases h with
  | start hpub => exact .start (hpub.after he)
  | loaded hpub => exact .loaded (hpub.after he)
  | giving hpub => exact .giving ((lazyEffect_changes he).published hpub)
  | given hpub => exact .given (hpub.after he)

/-- A step of a lock that has not taken effect goes on, or takes the mutex. -/
theorem Locking.step {o' : LazyOp} {k' : LazyRes o' → LazyAct Unit} {x : LazyRes o'} {v : World} {done : Option Unit}
    (h : Locking t m done (.op o' k')) (hs : ShowsWorld m.world v) (he : lazyEffect t (.did o' x) m.world = some w)
    (hg : Granted t (.did o' x) m) :
    (takesEffect o' x = none ∧ ShowsWorld w v ∧ Locking t (m.after t (.did o' x) w) done (k' x)) ∨
    (done = none ∧ takesEffect o' x = some ⟨.lock, ()⟩ ∧ ∃ v', stepEffect t v .lock () = some v' ∧ ShowsWorld w v' ∧
      Locking t (m.after t (.did o' x) w) (some ()) (k' x)) := by
  have hstep : lazyStep t m.world o' x = some w := he
  have hlive := hs.2
  generalize hq : Prog.op o' k' = q at h
  cases h with
  | start =>
    cases hq
    obtain ⟨rfl, rfl⟩ := lazyStep_loadLock hstep
    refine .inl ⟨rfl, hs, ?_⟩
    cases hl : m.world.lock with
    | none => exact .creating
    | some id => exact .ensured ⟨id, hl⟩
  | creating =>
    cases hq
    cases x with
    | none => cases hg.2
    | some id =>
      simp only [lazyStep, Option.ite_none_left_eq_some, Option.some.injEq] at hstep
      obtain ⟨hfresh, rfl⟩ := hstep
      have hne : m.world.lock ≠ some id := fun hl => hfresh (hlive id hl)
      exact .inl ⟨rfl, shown_setMutex _ hne hs, .created ⟨Function.update_self .., hne⟩⟩
  | @created id hmine =>
    cases hq
    obtain ⟨hm, hne⟩ := hmine
    by_cases hl : m.world.lock = none
    · cases x with
      | false => simp [lazyStep, hl] at hstep
      | true =>
        simp only [lazyStep, hl, Option.some.injEq] at hstep
        subst hstep
        refine .inl ⟨rfl, ⟨?_, ?_⟩, .ensured ⟨id, rfl⟩⟩
        · rw [hs.1, LazyWorld.shown, LazyWorld.shown, LazyWorld.holder, LazyWorld.holder, hl]
          simp [hm]
        · intro id' hid
          obtain rfl := Option.some.inj hid
          simp [hm]
    · obtain ⟨id', hl⟩ := Option.ne_none_iff_exists'.1 hl
      cases x with
      | true => simp [lazyStep, hl] at hstep
      | false =>
        simp only [lazyStep, hl, Option.some.injEq] at hstep
        subst hstep
        exact .inl ⟨rfl, hs, .lost ⟨hm, hne⟩ ⟨id', hl⟩⟩
  | lost hmine hpub =>
    cases hq
    obtain rfl := Option.some.inj hstep
    exact .inl ⟨rfl, shown_setMutex _ hmine.2 hs, .ensured (hpub.after he)⟩
  | ensured hpub =>
    cases hq
    obtain ⟨rfl, rfl⟩ := lazyStep_loadLock hstep
    obtain ⟨id, hl⟩ := hpub
    refine .inl ⟨rfl, hs, ?_⟩
    rw [show m.world.lock = some id from hl]
    exact .taking hl
  | @taking id hpub =>
    cases hq
    obtain ⟨mutex, hm⟩ := Option.isSome_iff_exists.1 (hlive id hpub)
    simp only [lazyStep, hm, Option.ite_none_right_eq_some, Option.some.injEq] at hstep
    obtain ⟨hfree, rfl⟩ := hstep
    obtain ⟨hlock, hs'⟩ := shown_holder (some t) hpub hm hs
    refine .inr ⟨rfl, rfl, { v with lock := some t }, ?_, hs', .taken ⟨id, hpub⟩⟩
    rw [stepEffect, if_pos (hlock.trans hfree)]
  | taken hpub => cases hq

/-- A step of an unlock goes on, or gives the mutex back. -/
theorem Unlocking.step {o' : LazyOp} {k' : LazyRes o' → LazyAct Unit} {x : LazyRes o'} {v : World} {done : Option Unit}
    (h : Unlocking m done (.op o' k')) (hs : ShowsWorld m.world v) (he : lazyEffect t (.did o' x) m.world = some w) :
    (takesEffect o' x = none ∧ ShowsWorld w v ∧ Unlocking (m.after t (.did o' x) w) done (k' x)) ∨
    (done = none ∧ takesEffect o' x = some ⟨.unlock, ()⟩ ∧ ∃ v', stepEffect t v .unlock () = some v' ∧ ShowsWorld w v' ∧
      Unlocking (m.after t (.did o' x) w) (some ()) (k' x)) := by
  have hstep : lazyStep t m.world o' x = some w := he
  generalize hq : Prog.op o' k' = q at h
  cases h with
  | start hpub =>
    cases hq
    obtain ⟨rfl, rfl⟩ := lazyStep_loadLock hstep
    refine .inl ⟨rfl, hs, ?_⟩
    obtain ⟨id, hl⟩ := hpub
    rw [show m.world.lock = some id from hl]
    exact .loaded ⟨id, hl⟩
  | loaded hpub =>
    cases hq
    obtain ⟨rfl, rfl⟩ := lazyStep_loadLock hstep
    obtain ⟨id, hl⟩ := hpub
    refine .inl ⟨rfl, hs, ?_⟩
    rw [show m.world.lock = some id from hl]
    exact .giving hl
  | @giving id hpub =>
    cases hq
    obtain ⟨mutex, hm⟩ := Option.isSome_iff_exists.1 (hs.2 id hpub)
    simp only [lazyStep, hm, Option.some.injEq] at hstep
    subst hstep
    refine .inr ⟨rfl, rfl, { v with lock := if v.lock = some t then none else v.lock }, rfl, ?_, ?_⟩
    · obtain ⟨hlock, hs'⟩ := shown_holder none hpub hm hs
      by_cases hheld : mutex.holder = some t
      · rw [if_pos hheld, if_pos (hlock.trans hheld)]
        exact hs'
      · rw [if_neg hheld, if_neg fun h => hheld (hlock.symm.trans h)]
        exact hs
    · have hpublished : LockPublished m := ⟨id, hpub⟩
      exact .given (hpublished.after he)
  | given hpub => cases hq

/-! ## Whole runs -/

theorem Between.after {p : Act Ret} (h : Between p m) (he : lazyEffect t e m.world = some w) :
    Between p (m.after t e w) := by
  obtain ⟨held, hpaced, hpub⟩ := h
  exact ⟨held, hpaced, fun hheld => (hpub hheld).after he⟩

theorem doing_other {o : Op} {k : Res o → Act Ret} {done : Option (Res o)} {q : LazyAct (Res o)} (hl : o ≠ .lock)
    (hu : o ≠ .unlock) : Doing t o k done q m ↔
      (∀ r, Between (k r) m) ∧ (done = none ∧ q = lazyAct (.other o) ∨ ∃ r, done = some r ∧ q = .ret r) := by
  cases o with
  | lock => exact absurd rfl hl
  | unlock => exact absurd rfl hu
  | _ => rfl

theorem carries : Carries (system parse) carry lazyEffect takesEffect Granted ShowsWorld (fun _ => Between) Doing where
  called := by
    intro t call m v' w hs he _
    obtain ⟨v, hv, hs'⟩ := shown_outside (effect_call_lock call m.world.module) he hs
    exact ⟨v, hv, hs', false, body_paced call, fun h => by cases h⟩
  returned := by
    intro t s m v' w hs he _
    exact shown_outside (effect_ret_lock s m.world.module) he hs
  enters := by
    rintro t o k m ⟨held, ⟨next, hn, hk⟩, hpub⟩
    by_cases hl : o = .lock
    · subst hl
      cases held with
      | true => cases hn
      | false =>
        obtain rfl := Option.some.inj hn
        exact ⟨.start, hk⟩
    by_cases hu : o = .unlock
    · subst hu
      cases held with
      | false => cases hn
      | true =>
        obtain rfl := Option.some.inj hn
        exact ⟨.start (hpub rfl), hk⟩
    rw [doing_other hl hu, carry_other hl hu]
    rw [turn_other hl hu] at hn
    obtain rfl := Option.some.inj hn
    exact ⟨fun r => ⟨held, hk r, hpub⟩, .inl ⟨rfl, rfl⟩⟩
  leaves := by
    intro t o k done x m hd
    by_cases hl : o = .lock
    · subst hl
      obtain ⟨hlocking, hk⟩ := hd
      generalize hq : Prog.ret x = q at hlocking
      cases hlocking with
      | taken hpub => exact ⟨rfl, true, hk x, fun _ => hpub⟩
      | _ => cases hq
    by_cases hu : o = .unlock
    · subst hu
      obtain ⟨hunlocking, hk⟩ := hd
      generalize hq : Prog.ret x = q at hunlocking
      cases hunlocking with
      | given hpub => exact ⟨rfl, false, hk x, fun h => by cases h⟩
      | _ => cases hq
    obtain ⟨hbetween, ⟨-, hq⟩ | ⟨r, rfl, hq⟩⟩ := (doing_other hl hu).1 hd
    · cases hq
    · cases hq
      exact ⟨rfl, hbetween x⟩
  step := by
    intro t o k done o' k' x m v' w hd hs he hg
    by_cases hl : o = .lock
    · subst hl
      obtain ⟨hlocking, hk⟩ := hd
      rcases hlocking.step hs he hg with ⟨hno, hs', h⟩ | ⟨rfl, htakes, v, hv, hs', h⟩
      · exact .inl ⟨hno, hs', h, hk⟩
      · exact .inr ⟨rfl, (), v, htakes, by simpa using hv, hs', h, hk⟩
    by_cases hu : o = .unlock
    · subst hu
      obtain ⟨hunlocking, hk⟩ := hd
      rcases hunlocking.step hs he with ⟨hno, hs', h⟩ | ⟨rfl, htakes, v, hv, hs', h⟩
      · exact .inl ⟨hno, hs', h, hk⟩
      · exact .inr ⟨rfl, (), v, htakes, by simpa using hv, hs', h, hk⟩
    obtain ⟨hbetween, ⟨rfl, hq⟩ | ⟨r, -, hq⟩⟩ := (doing_other hl hu).1 hd
    · cases hq
      obtain ⟨v, hv, hs'⟩ := shown_outside (f := fun v => stepEffect t v o x) (stepEffect_lock hl hu x m.world.module) he hs
      exact .inr ⟨rfl, x, v, rfl, by simpa using hv, hs',
        (doing_other hl hu).2 ⟨fun r => (hbetween r).after he, .inr ⟨x, rfl, rfl⟩⟩⟩
    · cases hq
  between_stable := fun _ he _ h => h.after he
  doing_stable := by
    intro t t' o k done q e m v' ht he hg hd
    by_cases hl : o = .lock
    · subst hl
      exact ⟨hd.1.stable ht he hg.1, hd.2⟩
    by_cases hu : o = .unlock
    · subst hu
      exact ⟨hd.1.stable he, hd.2⟩
    rw [doing_other hl hu] at hd ⊢
    exact ⟨fun r => (hd.1 r).after he, hd.2⟩

end Carrying

/-- Where no creation of the mutex fails, a run of the module with the lock made on first
use is a run of the module with a lock: the same calls, operations and returns in the same
order, the same results, and the same world, the published mutex read as the lock. -/
theorem lazy_lock_refines {parse : List UInt8 → Option Json} {c' : LazyConfig}
    (hr : (lazySystem parse).Run LazyBoot c')
    (hcreate : ∀ entry ∈ c'.trace, failsCreate entry.2 = false) :
    ∃ c, (system parse).Run Boot c ∧ c.world = c'.world.shown ∧ c.trace = shown takesEffect c'.trace ∧
      ∀ t, c.running t = none ↔ c'.running t = none := by
  have hstart : ∀ w, LazyBoot w → ∃ v, Boot v ∧ ShowsWorld w v := by
    rintro w ⟨hl, hmutexes, lamp, hmodule⟩
    refine ⟨w.shown, ⟨lamp, ?_⟩, rfl, fun id hid => by cases hl.symm.trans hid⟩
    rw [LazyWorld.shown, LazyWorld.holder, hl, hmodule]
    rfl
  obtain ⟨c, hrun, hshows⟩ := carried_run carries hstart
    (fun c t e c' hr hs hclean => ⟨(established_handles c t e c' hr hs).2, hclean⟩) hr hcreate
  refine ⟨c, hrun, hshows.world.1, hshows.trace, fun t => ?_⟩
  have h := hshows.threads t
  generalize c'.running t = running' at h
  generalize c.running t = running at h
  cases h <;> simp

theorem lazy_lock_refines_race : ∃ c' c, (lazySystem fun _ => none).Run LazyBoot c' ∧ (system fun _ => none).Run Boot c ∧
    c.world = c'.world.shown ∧ c.trace = shown takesEffect c'.trace := by
  obtain ⟨c', hr, -, -, hcreate⟩ := raceForLock_run
  obtain ⟨c, hrun, hworld, htrace, -⟩ := lazy_lock_refines hr fun entry he => by
    simpa using List.any_eq_false.1 hcreate entry he
  exact ⟨c', c, hr, hrun, hworld, htrace⟩

end LedLamp.Mqtt
