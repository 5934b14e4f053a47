import LedLamp.Lamp.Hal
/-!
# The lamp (`lamp_control.c`)

The single-lamp policy as the code computes it. Every function takes the
machine (`s_lamp` and the HAL) and returns the status and the machine after it.
The public operations hold the module's spin lock for their whole body, so the
calls of any number of threads are a sequence of the `Call`s below.

`pins[0..channel_count)` is the list `pins`: its length is `channel_count`, and
a channel's index is its place in the list. No entry past `channel_count` is read.
-/

namespace LedLamp.Lamp

/-- `lamp_status_t`. -/
inductive LampStatus
  | ok
  | errInvalidArgument
  | errOutOfRange
  | errNotInitialized
  | errAlreadyInitialized
  | errNotSupported
  | errNoResource
  | errInternal
  | errFailOff
  | errBlockedByFailOff
  deriving DecidableEq, Repr

def LAMP_BRIGHTNESS_MIN : UInt8 := 0
def LAMP_BRIGHTNESS_MAX : UInt8 := 100
def LAMP_DUTY_SCALE : UInt32 := 100
def LAMP_DUTY_MIN : LampDuty := 0
def LAMP_DUTY_MAX : LampDuty := LAMP_BRIGHTNESS_MAX.toUInt32 * LAMP_DUTY_SCALE
def LAMP_CONTROL_MAX_CHANNELS : UInt8 := 3

/-- `lamp_state_t`. -/
structure LampState where
  power : Bool
  brightnessPercent : UInt8
  red : UInt8
  green : UInt8
  blue : UInt8
  deriving DecidableEq, Repr

/-- `lamp_applied_state_t`. -/
structure LampAppliedState where
  power : Bool
  brightnessPercent : UInt8
  outputActive : Bool
  red : UInt8
  green : UInt8
  blue : UInt8
  deriving DecidableEq, Repr

/-- A zeroed `lamp_applied_state_t`. -/
def LampAppliedState.zero : LampAppliedState := ⟨false, 0, false, 0, 0, 0⟩

/-- `lamp_control_config_t`; `pins` are the three `config->pins`. -/
structure LampControlConfig where
  pin : HalPin
  pins : HalPin × HalPin × HalPin
  channelCount : UInt8
  frequencyHz : UInt32
  polarity : HalPolarity
  deriving DecidableEq, Repr

/-- `s_lamp`. -/
structure LampControlState where
  initialized : Bool
  pins : List Pin
  applied : LampAppliedState
  failOffBarrier : Bool
  deriving DecidableEq, Repr

/-- The lamp module and the HAL under it. -/
structure Machine where
  lamp : LampControlState
  hal : Hal

/-- The static initializer of `s_lamp`, over a HAL no one has called yet. -/
def Machine.boot (outcome : Nat → HalStatus) : Machine :=
  { lamp := ⟨false, [], .zero, false⟩, hal := .reset outcome }

def lampMapHalStatus : HalStatus → LampStatus
  | .ok => .ok
  | .errInvalidArgument => .errInvalidArgument
  | .errInvalidPin => .errInvalidArgument
  | .errOutOfRange => .errOutOfRange
  | .errNotInitialized => .errNotInitialized
  | .errAlreadyInitialized => .errAlreadyInitialized
  | .errNotSupported => .errNotSupported
  | .errNoResource => .errNoResource
  | .other _ => .errInternal

def lampStateIsValid (state : LampState) : Bool := state.brightnessPercent ≤ LAMP_BRIGHTNESS_MAX

/-! ## Fail-off -/

/-- The body of `lamp_fail_off`'s loop: force inactive, one retry, 0 % duty. -/
def forceChannelOff (pin : Pin) (h : Hal) : HalStatus × Hal :=
  let (hs, h) := halPwmForceInactive pin h
  let (hs, h) := if hs ≠ .ok then halPwmForceInactive pin h else (hs, h)
  if hs ≠ .ok then halPwmSetDuty pin LAMP_DUTY_MIN h else (hs, h)

/-- The loop of `lamp_fail_off`: every channel is attempted; the result is `all_off`. -/
def failOffChannels : List Pin → Hal → Bool × Hal
  | [], h => (true, h)
  | pin :: pins, h =>
    let (hs, h) := forceChannelOff pin h
    let (allOff, h) := failOffChannels pins h
    (hs = .ok && allOff, h)

def lampFailOff (m : Machine) : LampStatus × Machine :=
  let (allOff, hal) := failOffChannels m.lamp.pins m.hal
  if !allOff then (.errFailOff, { m with hal })
  else (.ok, { lamp := { m.lamp with applied.outputActive := false }, hal })

/-! ## Duty conversion -/

/-- `dutyOut` is what `duty_out` points to (`none` for NULL); the result carries what it
points to afterwards. -/
def lampDutyFromBrightness (brightnessPercent : UInt8) (dutyOut : Option LampDuty) : LampStatus × Option LampDuty :=
  match dutyOut with
  | none => (.errInvalidArgument, none)
  | some _ =>
    if brightnessPercent > LAMP_BRIGHTNESS_MAX then (.errOutOfRange, dutyOut)
    else
      let scaled : UInt64 := brightnessPercent.toUInt64 * LAMP_DUTY_SCALE.toUInt64
      if scaled > LAMP_DUTY_MAX.toUInt64 then (.errOutOfRange, dutyOut) else (.ok, some scaled.toUInt32)

def lampBrightnessFromDuty (duty : LampDuty) (brightnessOut : Option UInt8) : LampStatus × Option UInt8 :=
  match brightnessOut with
  | none => (.errInvalidArgument, none)
  | some _ =>
    if duty > LAMP_DUTY_MAX then (.errOutOfRange, brightnessOut)
    else
      let rounded : UInt64 := (duty.toUInt64 + (LAMP_DUTY_SCALE / 2).toUInt64) / LAMP_DUTY_SCALE.toUInt64
      (.ok, some rounded.toUInt8)

/-! ## Release -/

/-- The loop of `lamp_release_channels`: the first error and the channels kept
because their deinit failed. -/
def releaseChannels : List Pin → Hal → HalStatus × List Pin × Hal
  | [], h => (.ok, [], h)
  | pin :: pins, h =>
    let (hs, h) := halPwmDeinit pin h
    let (firstError, kept, h) := releaseChannels pins h
    if hs ≠ .ok then (hs, pin :: kept, h) else (firstError, kept, h)

def lampReleaseChannels (m : Machine) : HalStatus × Machine :=
  let (firstError, kept, hal) := releaseChannels m.lamp.pins m.hal
  (firstError, { lamp := { m.lamp with pins := kept }, hal })

def lampResetReleasedState (m : Machine) : Machine :=
  { m with lamp := { m.lamp with initialized := false, pins := [], applied := .zero } }

/-! ## Init -/

/-- The pin the init loop takes for channel `index`. -/
def configPin (config : LampControlConfig) (channelCount index : Nat) : HalPin :=
  if channelCount = 1 ∧ config.pin ≠ none then config.pin
  else match index with
    | 0 => config.pins.1
    | 1 => config.pins.2.1
    | _ => config.pins.2.2

/-- The rollback of the init loop: deinit the channels already initialized,
last one first, ignoring failures. -/
def rollbackChannels : List Pin → Hal → Hal
  | [], h => h
  | pin :: pins, h => rollbackChannels pins (halPwmDeinit pin h).2

/-- The init loop over the channel indices still to do; `done` holds the pins
initialized so far, last one first. -/
def initChannels (config : LampControlConfig) (channelCount : Nat) :
    List Nat → List Pin → Hal → Except LampStatus (List Pin) × Hal
  | [], done, h => (.ok done.reverse, h)
  | index :: rest, done, h =>
    match configPin config channelCount index with
    | none => (.error .errInvalidArgument, h)
    | some pin =>
      let (hs, h) := halPwmInit ⟨pin, config.frequencyHz, config.polarity⟩ h
      if hs ≠ .ok then (.error (lampMapHalStatus hs), rollbackChannels done h)
      else initChannels config channelCount rest (pin :: done) h

/-- The post-init hold: force every channel inactive, stopping at the first failure. -/
def holdChannels : List Pin → Hal → HalStatus × Hal
  | [], h => (.ok, h)
  | pin :: pins, h =>
    let (hs, h) := halPwmForceInactive pin h
    if hs ≠ .ok then (hs, h) else holdChannels pins h

/-- `s_lamp` right after the init loop succeeded. -/
def LampControlState.fresh (pins : List Pin) : LampControlState :=
  { initialized := true, pins, applied := ⟨false, LAMP_BRIGHTNESS_MIN, false, 0, 0, 0⟩,
    failOffBarrier := false }

def lampControlInitLocked (config : Option LampControlConfig) (m : Machine) : LampStatus × Machine :=
  match config with
  | none => (.errInvalidArgument, m)
  | some config =>
    if m.lamp.initialized then (.errAlreadyInitialized, m)
    else
      let channelCount := if config.channelCount = LAMP_CONTROL_MAX_CHANNELS then 3 else 1
      if channelCount = 1 ∧ config.pin = none then (.errInvalidArgument, m)
      else if config.frequencyHz = 0 then (.errInvalidArgument, m)
      else if config.polarity ≠ .activeHigh ∧ config.polarity ≠ .activeLow then (.errInvalidArgument, m)
      else
        match initChannels config channelCount (List.range channelCount) [] m.hal with
        | (.error status, hal) => (status, { m with hal })
        | (.ok pins, hal) =>
          let (hs, hal) := holdChannels pins hal
          let m : Machine := { lamp := .fresh pins, hal }
          if hs ≠ .ok then
            -- The hold failed: fail off, release, and stay initialized if the release fails too.
            let (_, m) := lampFailOff m
            let (released, m) := lampReleaseChannels m
            (lampMapHalStatus hs, if released = .ok then lampResetReleasedState m else m)
          else (.ok, m)

def lampControlInit (config : Option LampControlConfig) (m : Machine) : LampStatus × Machine :=
  lampControlInitLocked config m

/-! ## Apply -/

/-- `colors[index]`. -/
def color (requested : LampState) (index : Nat) : UInt8 :=
  match index with
  | 0 => requested.red
  | 1 => requested.green
  | _ => requested.blue

/-- The duty the apply loop computes for channel `index`, in 32-bit unsigned arithmetic. -/
def channelDuty (requested : LampState) (channelCount index : Nat) : LampDuty :=
  let scaledBrightness := requested.brightnessPercent.toUInt32 * LAMP_DUTY_SCALE
  let duty :=
    if channelCount = 1 then scaledBrightness
    else (scaledBrightness * (color requested index).toUInt32 + 127) / 255
  if requested.power then duty else LAMP_DUTY_MIN

/-- The apply loop from channel `index` on; it stops at the first failing `hal_pwm_set_duty`. -/
def driveChannels (requested : LampState) (channelCount : Nat) :
    Nat → List Pin → Hal → HalStatus × Hal
  | _, [], h => (.ok, h)
  | index, pin :: pins, h =>
    let (hs, h) := halPwmSetDuty pin (channelDuty requested channelCount index) h
    if hs ≠ .ok then (hs, h) else driveChannels requested channelCount (index + 1) pins h

/-- The applied state a fully successful apply records. -/
def appliedOf (requested : LampState) (channelCount : Nat) : LampAppliedState where
  power := requested.power
  brightnessPercent := requested.brightnessPercent
  outputActive := requested.power && decide (LAMP_BRIGHTNESS_MIN < requested.brightnessPercent) &&
    (channelCount == 1 || requested.red != 0 || requested.green != 0 || requested.blue != 0)
  red := requested.red
  green := requested.green
  blue := requested.blue

/-- A rejection that fails off first: `status`, unless the fail-off fails too. -/
def failOffThen (status : LampStatus) (m : Machine) : LampStatus × Machine :=
  let (failed, m) := lampFailOff m
  (if failed ≠ .ok then .errFailOff else status, m)

/-- `appliedOut` is what `applied_out` points to (`none` for NULL); the result
carries what it points to afterwards. -/
def lampControlApplyStateLocked (requested : Option LampState) (appliedOut : Option LampAppliedState)
    (m : Machine) : LampStatus × Option LampAppliedState × Machine :=
  if !m.lamp.initialized then (.errNotInitialized, appliedOut, m)
  else match requested with
    | none =>
      let (status, m) := failOffThen .errInvalidArgument m
      (status, appliedOut, m)
    | some requested =>
      if !lampStateIsValid requested then
        let (status, m) := failOffThen .errOutOfRange m
        (status, appliedOut, m)
      else
        let (hs, hal) := driveChannels requested m.lamp.pins.length 0 m.lamp.pins m.hal
        if hs ≠ .ok then
          let (status, m) := failOffThen (lampMapHalStatus hs) { m with hal }
          (status, appliedOut, m)
        else
          let applied := appliedOf requested m.lamp.pins.length
          (.ok, appliedOut.map fun _ => applied, { lamp := { m.lamp with applied }, hal })

def lampControlApplyState (requested : Option LampState) (appliedOut : Option LampAppliedState)
    (m : Machine) : LampStatus × Option LampAppliedState × Machine :=
  if !m.lamp.initialized then (.errNotInitialized, appliedOut, m)
  else if m.lamp.failOffBarrier then
    let (status, m) := failOffThen .errBlockedByFailOff m
    (status, appliedOut, m)
  else lampControlApplyStateLocked requested appliedOut m

/-! ## Force inactive, release, deinit, read -/

def lampControlForceInactiveLocked (m : Machine) : LampStatus × Machine :=
  if !m.lamp.initialized then (.errNotInitialized, m) else lampFailOff m

def lampControlForceInactive (m : Machine) : LampStatus × Machine :=
  let (status, m) := lampControlForceInactiveLocked m
  (status, if status = .ok then { m with lamp := { m.lamp with failOffBarrier := true } } else m)

def lampControlReleaseFailOff (m : Machine) : LampStatus × Machine :=
  (.ok, { m with lamp := { m.lamp with failOffBarrier := false } })

def lampControlDeinitLocked (m : Machine) : LampStatus × Machine :=
  if !m.lamp.initialized then (.errNotInitialized, m)
  else
    let (hs, m) := lampReleaseChannels m
    if hs ≠ .ok then failOffThen (lampMapHalStatus hs) m
    else (.ok, lampResetReleasedState m)

def lampControlDeinit (m : Machine) : LampStatus × Machine := lampControlDeinitLocked m

def lampControlGetAppliedState (appliedOut : Option LampAppliedState) (m : Machine) :
    LampStatus × Option LampAppliedState :=
  if !m.lamp.initialized then (.errNotInitialized, appliedOut)
  else match appliedOut with
    | none => (.errInvalidArgument, none)
    | some _ => (.ok, some m.lamp.applied)

/-! ## Runs -/

/-- One lock-atomic operation of some thread. -/
inductive Call
  | init (config : Option LampControlConfig)
  | applyState (requested : Option LampState) (appliedOut : Option LampAppliedState)
  | forceInactive
  | releaseFailOff
  | deinit
  | getAppliedState (appliedOut : Option LampAppliedState)

namespace Call

/-- The status an operation returns and the machine after it. -/
def exec : Call → Machine → LampStatus × Machine
  | init config, m => lampControlInit config m
  | applyState requested appliedOut, m =>
    let (status, _, m) := lampControlApplyState requested appliedOut m
    (status, m)
  | forceInactive, m => lampControlForceInactive m
  | releaseFailOff, m => lampControlReleaseFailOff m
  | deinit, m => lampControlDeinit m
  | getAppliedState appliedOut, m => ((lampControlGetAppliedState appliedOut m).1, m)

/-- The machine after an operation. -/
def next (c : Call) (m : Machine) : Machine := (c.exec m).2

end Call

/-- The machine after a sequence of operations. -/
def run (calls : List Call) (m : Machine) : Machine := calls.foldl (fun m c => c.next m) m

/-- The states any sequence of operations reaches, under any fault pattern. -/
inductive Reachable : Machine → Prop
  | boot (outcome : Nat → HalStatus) : Reachable (.boot outcome)
  | call {m : Machine} (c : Call) : Reachable m → Reachable (c.next m)

end LedLamp.Lamp
