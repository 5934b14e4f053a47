import Mathlib.Logic.Function.Basic
/-!
# The PWM HAL behind the lamp

The platform PWM driver (`hal_pwm.h`) is not part of the repository. The lamp
relies on this much of it: every call may fail, a failing call leaves the
channel as it was, `hal_pwm_init` starts a channel INACTIVE, and a successful
force-inactive, 0 % duty or deinit leaves it off. Which calls fail is the fault
pattern `Hal.outcome`; theorems hold for every pattern.
-/

namespace LedLamp.Lamp

/-- A PWM pin. `hal_pin_t` is `Option Pin`, with `none` for `HAL_PIN_NONE`. -/
abbrev Pin := Nat

abbrev HalPin := Option Pin

/-- `lamp_duty_t`: 1/100 % per unit, 0 is electrically off. -/
abbrev LampDuty := UInt32

/-- `hal_status_t`; `other` is every code the lamp does not name. -/
inductive HalStatus
  | ok
  | errInvalidArgument
  | errInvalidPin
  | errOutOfRange
  | errNotInitialized
  | errAlreadyInitialized
  | errNotSupported
  | errNoResource
  | other (code : Int)
  deriving DecidableEq, Repr

/-- `hal_polarity_t`; a C enum can also hold a value outside its range. -/
inductive HalPolarity
  | activeHigh
  | activeLow
  | other (value : Int)
  deriving DecidableEq, Repr

structure HalPwmConfig where
  pin : Pin
  frequencyHz : UInt32
  polarity : HalPolarity
  deriving DecidableEq, Repr

/-- What the PWM peripheral does: the duty each pin generates (INACTIVE is 0)
and which pins hold an initialized channel. -/
structure Channels where
  duty : Pin → LampDuty
  live : Pin → Bool

/-- The HAL: its channels, the fault pattern (the status of the `n`-th call),
the number of calls made, and the channels after each call, newest first. -/
structure Hal where
  channels : Channels
  outcome : Nat → HalStatus
  calls : Nat
  moments : List Channels

namespace Hal

/-- One HAL call. It takes effect only when the fault pattern lets it succeed. -/
def call (effect : Channels → Channels) (h : Hal) : HalStatus × Hal :=
  let hs := h.outcome h.calls
  let channels := if hs = .ok then effect h.channels else h.channels
  (hs, { h with channels, calls := h.calls + 1, moments := channels :: h.moments })

/-- Before any call: no channel exists and every pin is off. -/
def reset (outcome : Nat → HalStatus) : Hal :=
  { channels := ⟨fun _ => 0, fun _ => false⟩, outcome, calls := 0, moments := [] }

end Hal

def halPwmInit (config : HalPwmConfig) : Hal → HalStatus × Hal :=
  Hal.call fun c => ⟨Function.update c.duty config.pin 0, Function.update c.live config.pin true⟩

/-- `hal_pwm_set_duty`. The lamp passes `(float)duty / LAMP_DUTY_SCALE`; the model
passes the fixed-point `duty` that percentage is computed from. -/
def halPwmSetDuty (pin : Pin) (duty : LampDuty) : Hal → HalStatus × Hal :=
  Hal.call fun c => { c with duty := Function.update c.duty pin duty }

def halPwmForceInactive (pin : Pin) : Hal → HalStatus × Hal :=
  Hal.call fun c => { c with duty := Function.update c.duty pin 0 }

def halPwmDeinit (pin : Pin) : Hal → HalStatus × Hal :=
  Hal.call fun c => ⟨Function.update c.duty pin 0, Function.update c.live pin false⟩

end LedLamp.Lamp
