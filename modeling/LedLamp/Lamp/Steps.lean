import LedLamp.Conc.Locked
import LedLamp.Lamp.Barrier
/-!
# The lamp step by step (`lamp_control.c`)

The functions of `Control` again, as programs over what they do between `lamp_lock` and
`lamp_unlock`: each access to `s_lamp` and each HAL call is a step that other threads can
come before. A loop over the channels reads `pins` once, before it: nothing inside such a
loop writes them. `body_run` says that a call that is left alone does what `Control` says it
does.
-/

namespace LedLamp.Lamp.Steps

open Conc

/-- An assignment to members of `s_lamp`; `pins` with `channel_count`. -/
inductive Store
  | initialized (value : Bool)
  | pins (value : List Pin)
  | applied (value : LampAppliedState)
  | outputActive (value : Bool)
  | failOffBarrier (value : Bool)
  deriving DecidableEq

def Store.set (lamp : LampControlState) : Store → LampControlState
  | initialized value => { lamp with initialized := value }
  | pins value => { lamp with pins := value }
  | applied value => { lamp with applied := value }
  | outputActive value => { lamp with applied.outputActive := value }
  | failOffBarrier value => { lamp with failOffBarrier := value }

inductive HalCall
  | init (config : HalPwmConfig)
  | setDuty (pin : Pin) (duty : LampDuty)
  | forceInactive (pin : Pin)
  | deinit (pin : Pin)
  deriving DecidableEq

def HalCall.exec : HalCall → Hal → HalStatus × Hal
  | init config => halPwmInit config
  | setDuty pin duty => halPwmSetDuty pin duty
  | forceInactive pin => halPwmForceInactive pin
  | deinit pin => halPwmDeinit pin

inductive Op
  | load
  | store (s : Store)
  | hal (c : HalCall)
  deriving DecidableEq

@[reducible] def Res : Op → Type
  | .load => LampControlState
  | .store _ => Unit
  | .hal _ => HalStatus

instance : (o : Op) → DecidableEq (Res o)
  | .load => inferInstanceAs (DecidableEq LampControlState)
  | .store _ => inferInstanceAs (DecidableEq Unit)
  | .hal _ => inferInstanceAs (DecidableEq HalStatus)

/-- What one step returns, and the machine after it. -/
def Op.exec : (o : Op) → Machine → Res o × Machine
  | .load, m => (m.lamp, m)
  | .store s, m => ((), { m with lamp := s.set m.lamp })
  | .hal c, m => ((c.exec m.hal).1, { m with hal := (c.exec m.hal).2 })

abbrev Act := Prog Op Res

/-- One step. -/
abbrev act (o : Op) : Act (Res o) := .perform o

/-! ## The functions -/

def forceChannelOff (pin : Pin) : Act HalStatus := do
  let hs ← act (.hal (.forceInactive pin))
  let hs ← if hs ≠ .ok then act (.hal (.forceInactive pin)) else return hs
  if hs ≠ .ok then act (.hal (.setDuty pin LAMP_DUTY_MIN)) else return hs

def failOffChannels : List Pin → Act Bool
  | [] => return true
  | pin :: pins => do
    let hs ← forceChannelOff pin
    let allOff ← failOffChannels pins
    return hs = .ok && allOff

def lampFailOff : Act LampStatus := do
  let allOff ← failOffChannels (← act .load).pins
  if !allOff then return .errFailOff
  else
    act (.store (.outputActive false))
    return .ok

def releaseChannels : List Pin → Act (HalStatus × List Pin)
  | [] => return (.ok, [])
  | pin :: pins => do
    let hs ← act (.hal (.deinit pin))
    let (firstError, kept) ← releaseChannels pins
    if hs ≠ .ok then return (hs, pin :: kept) else return (firstError, kept)

def lampReleaseChannels : Act HalStatus := do
  let (firstError, kept) ← releaseChannels (← act .load).pins
  act (.store (.pins kept))
  return firstError

def lampResetReleasedState : Act Unit := do
  act (.store (.initialized false))
  act (.store (.pins []))
  act (.store (.applied .zero))

def rollbackChannels : List Pin → Act Unit
  | [] => return ()
  | pin :: pins => do
    let _ ← act (.hal (.deinit pin))
    rollbackChannels pins

def initChannels (config : LampControlConfig) (channelCount : Nat) :
    List Nat → List Pin → Act (Except LampStatus (List Pin))
  | [], done => return .ok done.reverse
  | index :: rest, done => do
    match configPin config channelCount index with
    | none => return .error .errInvalidArgument
    | some pin =>
      let hs ← act (.hal (.init ⟨pin, config.frequencyHz, config.polarity⟩))
      if hs ≠ .ok then
        rollbackChannels done
        return .error (lampMapHalStatus hs)
      else initChannels config channelCount rest (pin :: done)

def holdChannels : List Pin → Act HalStatus
  | [] => return .ok
  | pin :: pins => do
    let hs ← act (.hal (.forceInactive pin))
    if hs ≠ .ok then return hs else holdChannels pins

/-- The end of `lamp_control_init_locked`, once the channels are up. -/
def initHold (pins : List Pin) : Act LampStatus := do
  act (.store (.initialized true))
  act (.store (.pins pins))
  act (.store (.applied ⟨false, LAMP_BRIGHTNESS_MIN, false, 0, 0, 0⟩))
  act (.store (.failOffBarrier false))
  let hs ← holdChannels (← act .load).pins
  if hs ≠ .ok then
    let _ ← lampFailOff
    let released ← lampReleaseChannels
    if released = .ok then lampResetReleasedState
    return lampMapHalStatus hs
  else return .ok

def lampControlInitLocked (config : Option LampControlConfig) : Act LampStatus := do
  match config with
  | none => return .errInvalidArgument
  | some config =>
    if (← act .load).initialized then return .errAlreadyInitialized
    else
      let channelCount := if config.channelCount = LAMP_CONTROL_MAX_CHANNELS then 3 else 1
      if channelCount = 1 ∧ config.pin = none then return .errInvalidArgument
      else if config.frequencyHz = 0 then return .errInvalidArgument
      else if config.polarity ≠ .activeHigh ∧ config.polarity ≠ .activeLow then return .errInvalidArgument
      else match ← initChannels config channelCount (List.range channelCount) [] with
        | .error status => return status
        | .ok pins => initHold pins

def driveChannels (requested : LampState) (channelCount : Nat) : Nat → List Pin → Act HalStatus
  | _, [] => return .ok
  | index, pin :: pins => do
    let hs ← act (.hal (.setDuty pin (channelDuty requested channelCount index)))
    if hs ≠ .ok then return hs else driveChannels requested channelCount (index + 1) pins

def failOffThen (status : LampStatus) : Act LampStatus := do
  let failed ← lampFailOff
  return if failed ≠ .ok then .errFailOff else status

def lampControlApplyStateLocked (requested : Option LampState) (appliedOut : Option LampAppliedState) :
    Act (LampStatus × Option LampAppliedState) := do
  if !(← act .load).initialized then return (.errNotInitialized, appliedOut)
  else match requested with
    | none => return (← failOffThen .errInvalidArgument, appliedOut)
    | some requested =>
      if !lampStateIsValid requested then return (← failOffThen .errOutOfRange, appliedOut)
      else
        let pins := (← act .load).pins
        let hs ← driveChannels requested pins.length 0 pins
        if hs ≠ .ok then return (← failOffThen (lampMapHalStatus hs), appliedOut)
        else
          act (.store (.applied (appliedOf requested pins.length)))
          let applied := (← act .load).applied
          return (.ok, appliedOut.map fun _ => applied)

def lampControlApplyState (requested : Option LampState) (appliedOut : Option LampAppliedState) :
    Act (LampStatus × Option LampAppliedState) := do
  if !(← act .load).initialized then return (.errNotInitialized, appliedOut)
  else if (← act .load).failOffBarrier then return (← failOffThen .errBlockedByFailOff, appliedOut)
  else lampControlApplyStateLocked requested appliedOut

def lampControlForceInactiveLocked : Act LampStatus := do
  if !(← act .load).initialized then return .errNotInitialized else lampFailOff

def lampControlForceInactive : Act LampStatus := do
  let status ← lampControlForceInactiveLocked
  if status = .ok then act (.store (.failOffBarrier true))
  return status

def lampControlReleaseFailOff : Act LampStatus := do
  act (.store (.failOffBarrier false))
  return .ok

def lampControlDeinitLocked : Act LampStatus := do
  if !(← act .load).initialized then return .errNotInitialized
  else
    let hs ← lampReleaseChannels
    if hs ≠ .ok then failOffThen (lampMapHalStatus hs)
    else
      lampResetReleasedState
      return .ok

def lampControlGetAppliedState (appliedOut : Option LampAppliedState) : Act (LampStatus × Option LampAppliedState) := do
  if !(← act .load).initialized then return (.errNotInitialized, appliedOut)
  else match appliedOut with
    | none => return (.errInvalidArgument, none)
    | some _ => return (.ok, some (← act .load).applied)

/-- What a call returns: its status, and what its output argument points to afterwards. -/
abbrev Ret := LampStatus × Option LampAppliedState

/-- What each call does while it holds the lock. -/
def body : Call → Act Ret
  | .init config => do return (← lampControlInitLocked config, none)
  | .applyState requested appliedOut => lampControlApplyState requested appliedOut
  | .forceInactive => do return (← lampControlForceInactive, none)
  | .releaseFailOff => do return (← lampControlReleaseFailOff, none)
  | .deinit => do return (← lampControlDeinitLocked, none)
  | .getAppliedState appliedOut => lampControlGetAppliedState appliedOut

/-! ## Left alone, they do what `Control` says -/

variable {m : Machine}

@[simp] theorem exec_load : Op.load.exec m = (m.lamp, m) := rfl

@[simp] theorem exec_store (s : Store) : (Op.store s).exec m = ((), { m with lamp := s.set m.lamp }) := rfl

@[simp] theorem exec_hal (c : HalCall) : (Op.hal c).exec m = ((c.exec m.hal).1, { m with hal := (c.exec m.hal).2 }) := rfl

theorem forceChannelOff_run (pin : Pin) : (forceChannelOff pin).run Op.exec m =
    ((Lamp.forceChannelOff pin m.hal).1, { m with hal := (Lamp.forceChannelOff pin m.hal).2 }) := by
  by_cases h : (halPwmForceInactive pin m.hal).1 = .ok
  · simp [forceChannelOff, Lamp.forceChannelOff, HalCall.exec, h]
  · by_cases h' : (halPwmForceInactive pin (halPwmForceInactive pin m.hal).2).1 = .ok <;>
      simp [forceChannelOff, Lamp.forceChannelOff, HalCall.exec, h, h']

theorem failOffChannels_run (pins : List Pin) : (failOffChannels pins).run Op.exec m =
    ((Lamp.failOffChannels pins m.hal).1, { m with hal := (Lamp.failOffChannels pins m.hal).2 }) := by
  induction pins generalizing m with
  | nil => rfl
  | cons pin pins ih => simp [failOffChannels, Lamp.failOffChannels, forceChannelOff_run, ih]

theorem lampFailOff_run : lampFailOff.run Op.exec m = Lamp.lampFailOff m := by
  simp only [lampFailOff, Lamp.lampFailOff, Prog.run_bind, Prog.run_perform, exec_load, failOffChannels_run]
  split <;> rfl

theorem failOffThen_run (status : LampStatus) : (failOffThen status).run Op.exec m = Lamp.failOffThen status m := by
  simp [failOffThen, Lamp.failOffThen, lampFailOff_run]

theorem releaseChannels_run (pins : List Pin) : (releaseChannels pins).run Op.exec m =
    (((Lamp.releaseChannels pins m.hal).1, (Lamp.releaseChannels pins m.hal).2.1),
      { m with hal := (Lamp.releaseChannels pins m.hal).2.2 }) := by
  induction pins generalizing m with
  | nil => rfl
  | cons pin pins ih =>
    simp only [releaseChannels, Lamp.releaseChannels, Prog.run_bind, Prog.run_perform, exec_hal, HalCall.exec, ih]
    split <;> rfl

theorem lampReleaseChannels_run : lampReleaseChannels.run Op.exec m = Lamp.lampReleaseChannels m := by
  simp [lampReleaseChannels, Lamp.lampReleaseChannels, releaseChannels_run, Store.set]

theorem lampResetReleasedState_run : lampResetReleasedState.run Op.exec m = ((), Lamp.lampResetReleasedState m) := rfl

theorem rollbackChannels_run (pins : List Pin) : (rollbackChannels pins).run Op.exec m =
    ((), { m with hal := Lamp.rollbackChannels pins m.hal }) := by
  induction pins generalizing m with
  | nil => rfl
  | cons pin pins ih => simp [rollbackChannels, Lamp.rollbackChannels, HalCall.exec, ih]

theorem initChannels_run (config : LampControlConfig) (channelCount : Nat) (rest : List Nat) (done : List Pin) :
    (initChannels config channelCount rest done).run Op.exec m =
      ((Lamp.initChannels config channelCount rest done m.hal).1,
        { m with hal := (Lamp.initChannels config channelCount rest done m.hal).2 }) := by
  induction rest generalizing m done with
  | nil => rfl
  | cons index rest ih =>
    simp only [initChannels, Lamp.initChannels]
    cases configPin config channelCount index with
    | none => rfl
    | some pin =>
      by_cases h : (halPwmInit ⟨pin, config.frequencyHz, config.polarity⟩ m.hal).1 = .ok
      · simp [HalCall.exec, h, ih]
      · simp [HalCall.exec, h, rollbackChannels_run]

theorem holdChannels_run (pins : List Pin) : (holdChannels pins).run Op.exec m =
    ((Lamp.holdChannels pins m.hal).1, { m with hal := (Lamp.holdChannels pins m.hal).2 }) := by
  induction pins generalizing m with
  | nil => rfl
  | cons pin pins ih =>
    by_cases h : (halPwmForceInactive pin m.hal).1 = .ok <;> simp [holdChannels, Lamp.holdChannels, HalCall.exec, h, ih]

theorem driveChannels_run (requested : LampState) (channelCount index : Nat) (pins : List Pin) :
    (driveChannels requested channelCount index pins).run Op.exec m =
      ((Lamp.driveChannels requested channelCount index pins m.hal).1,
        { m with hal := (Lamp.driveChannels requested channelCount index pins m.hal).2 }) := by
  induction pins generalizing m index with
  | nil => rfl
  | cons pin pins ih =>
    by_cases h : (halPwmSetDuty pin (channelDuty requested channelCount index) m.hal).1 = .ok <;>
      simp [driveChannels, Lamp.driveChannels, HalCall.exec, h, ih]

theorem initHold_run (pins : List Pin) (hal : Hal) (lamp : LampControlState) : (initHold pins).run Op.exec ⟨lamp, hal⟩ =
    let (hs, hal) := Lamp.holdChannels pins hal
    let m : Machine := { lamp := .fresh pins, hal }
    if hs ≠ .ok then
      let (_, m) := Lamp.lampFailOff m
      let (released, m) := Lamp.lampReleaseChannels m
      (lampMapHalStatus hs, if released = .ok then Lamp.lampResetReleasedState m else m)
    else (.ok, m) := by
  have fresh : ∀ lamp : LampControlState, (Store.failOffBarrier false).set ((Store.applied
      ⟨false, LAMP_BRIGHTNESS_MIN, false, 0, 0, 0⟩).set ((Store.pins pins).set ((Store.initialized true).set lamp))) =
      .fresh pins := fun _ => rfl
  by_cases h : (Lamp.holdChannels pins hal).1 = .ok
  · simp [initHold, holdChannels_run, fresh, LampControlState.fresh, h]
  · by_cases h' : (Lamp.lampReleaseChannels (Lamp.lampFailOff ⟨.fresh pins, (Lamp.holdChannels pins hal).2⟩).2).1 = .ok <;>
      simp_all [initHold, holdChannels_run, LampControlState.fresh, lampFailOff_run, lampReleaseChannels_run,
        lampResetReleasedState_run]

theorem lampControlInitLocked_run (config : Option LampControlConfig) :
    (lampControlInitLocked config).run Op.exec m = Lamp.lampControlInitLocked config m := by
  cases config with
  | none => rfl
  | some config =>
    cases hi : m.lamp.initialized with
    | true => simp [lampControlInitLocked, Lamp.lampControlInitLocked, hi]
    | false =>
      simp only [lampControlInitLocked, Lamp.lampControlInitLocked, Prog.run_bind, Prog.run_perform, exec_load, hi]
      generalize (if config.channelCount = LAMP_CONTROL_MAX_CHANNELS then 3 else 1) = n
      simp only [Bool.false_eq_true, if_false, Prog.run_ite, Prog.pure_eq, Prog.run_ret, Prog.run_bind, initChannels_run]
      generalize Lamp.initChannels config n (List.range n) [] m.hal = r
      obtain ⟨result, hal⟩ := r
      cases result with
      | error status => rfl
      | ok pins => simp only [initHold_run]

theorem applyStateLocked_run (requested : Option LampState) (out : Option LampAppliedState) :
    (lampControlApplyStateLocked requested out).run Op.exec m =
      (((Lamp.lampControlApplyStateLocked requested out m).1, (Lamp.lampControlApplyStateLocked requested out m).2.1),
        (Lamp.lampControlApplyStateLocked requested out m).2.2) := by
  cases hi : m.lamp.initialized with
  | false => simp [lampControlApplyStateLocked, Lamp.lampControlApplyStateLocked, hi]
  | true =>
    cases requested with
    | none => simp [lampControlApplyStateLocked, Lamp.lampControlApplyStateLocked, hi, failOffThen_run]
    | some requested =>
      cases hv : lampStateIsValid requested with
      | false => simp [lampControlApplyStateLocked, Lamp.lampControlApplyStateLocked, hi, hv, failOffThen_run]
      | true =>
        by_cases hs : (Lamp.driveChannels requested m.lamp.pins.length 0 m.lamp.pins m.hal).1 = .ok <;>
          simp [lampControlApplyStateLocked, Lamp.lampControlApplyStateLocked, hi, hv, hs, driveChannels_run,
            failOffThen_run, Store.set]

theorem applyState_run (requested : Option LampState) (out : Option LampAppliedState) :
    (lampControlApplyState requested out).run Op.exec m =
      (((Lamp.lampControlApplyState requested out m).1, (Lamp.lampControlApplyState requested out m).2.1),
        (Lamp.lampControlApplyState requested out m).2.2) := by
  cases hi : m.lamp.initialized <;> cases hb : m.lamp.failOffBarrier <;>
    simp [lampControlApplyState, Lamp.lampControlApplyState, hi, hb, failOffThen_run, applyStateLocked_run]

theorem forceInactive_run : lampControlForceInactive.run Op.exec m = Lamp.lampControlForceInactive m := by
  cases hi : m.lamp.initialized with
  | false => simp [lampControlForceInactive, lampControlForceInactiveLocked, Lamp.lampControlForceInactive,
      Lamp.lampControlForceInactiveLocked, hi]
  | true =>
    by_cases hs : (Lamp.lampFailOff m).1 = .ok <;>
      simp [lampControlForceInactive, lampControlForceInactiveLocked, Lamp.lampControlForceInactive,
        Lamp.lampControlForceInactiveLocked, hi, hs, lampFailOff_run, Store.set]

theorem deinit_run : lampControlDeinitLocked.run Op.exec m = Lamp.lampControlDeinit m := by
  cases hi : m.lamp.initialized with
  | false => simp [lampControlDeinitLocked, Lamp.lampControlDeinit, Lamp.lampControlDeinitLocked, hi]
  | true =>
    by_cases hs : (Lamp.lampReleaseChannels m).1 = .ok <;>
      simp [lampControlDeinitLocked, Lamp.lampControlDeinit, Lamp.lampControlDeinitLocked, hi, hs,
        lampReleaseChannels_run, failOffThen_run, lampResetReleasedState_run]

theorem getAppliedState_run (out : Option LampAppliedState) :
    (lampControlGetAppliedState out).run Op.exec m = (Lamp.lampControlGetAppliedState out m, m) := by
  cases hi : m.lamp.initialized <;> cases out <;>
    simp [lampControlGetAppliedState, Lamp.lampControlGetAppliedState, hi]

end LedLamp.Lamp.Steps

namespace LedLamp.Lamp

/-- What a call returns on a machine: its status, and what its output argument points to
afterwards. -/
def Call.answer (c : Call) (m : Machine) : Steps.Ret :=
  match c with
  | .applyState requested appliedOut =>
    let (status, out, _) := lampControlApplyState requested appliedOut m
    (status, out)
  | .getAppliedState appliedOut => lampControlGetAppliedState appliedOut m
  | c => ((c.exec m).1, none)

/-- A call that is left alone inside its lock is the call of `Control`. -/
theorem body_run (c : Call) (m : Machine) : (Steps.body c).run Steps.Op.exec m = (c.answer m, c.next m) := by
  cases c with
  | init config => simp [Steps.body, Steps.lampControlInitLocked_run, Call.answer, Call.next, Call.exec, lampControlInit]
  | applyState requested out => exact Steps.applyState_run requested out
  | forceInactive => simp [Steps.body, Steps.forceInactive_run, Call.answer, Call.next, Call.exec]
  | releaseFailOff => rfl
  | deinit => simp [Steps.body, Steps.deinit_run, Call.answer, Call.next, Call.exec]
  | getAppliedState out => exact Steps.getAppliedState_run out

end LedLamp.Lamp
