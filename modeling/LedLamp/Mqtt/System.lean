import LedLamp.Mqtt.Calls
/-!
# The module among its threads

Tasks call the module; the transport thread of `mqtt_app` runs its callbacks, one
at a time. The world holds the module's shared variables, the lamp, and what is
assumed of `mqtt_app` and `mqtt_config`: `mqtt_app_init` starts a session,
`mqtt_app_deinit` returns once no callback runs and ends the session, the
registered callbacks run only while there is a session (a rejected generic
configuration is reported without one too), and only a session is ever
connected. All else these components answer is left open. Atomics are read and
written in one order that every thread sees.
-/

namespace LedLamp.Mqtt

open Conc Lamp

inductive Tid
  | transport
  | task (id : Nat)
  deriving DecidableEq, Repr

/-- A session of `mqtt_app`, with the number of verified configurations that
`mqtt_config` had been given when it started. -/
structure Session where
  applied : Nat
  deriving DecidableEq, Repr

inductive Call
  | validate (cfg : Option MqttCfg)
  | load (out : Option MqttCfg)
  | apply (cfg : Option MqttCfg)
  | loadAndApply (cfg : MqttCfg)
  | connect (timeoutMs : UInt32)
  | onConnect
  | onDisconnect
  | onConnectFailure (reason : MqttConnectFailureReason)
  deriving DecidableEq

/-- The transport thread calls the callbacks, tasks the rest. -/
def Call.isCallback : Call → Bool
  | .onConnect | .onDisconnect | .onConnectFailure _ => true
  | _ => false

structure World where
  gen : Gen → UInt32
  flag : Flag → Bool
  verifiedApplied : Bool
  lock : Option Tid
  lamp : Machine
  session : Option Session
  safetyCallbacks : Bool
  callback : Option Call
  applied : Nat

/-- What a call returns; a callback returns nothing. -/
abbrev Ret := Option MqttCfgStatus

abbrev Event := Conc.Event Op Res Call Ret
abbrev Entry := Conc.Entry Tid Op Res Call Ret
abbrev Moment := Conc.Moment Tid World Op Res Call Ret
abbrev Config := Conc.Config Tid World Op Res Call Ret
abbrev Assertion := Conc.Assertion Tid World Op Res Call Ret
abbrev Promise := Conc.Promise Tid World Op Res Call Ret

/-- The effect of a step, if it can be taken now with that result. -/
def stepEffect (t : Tid) (w : World) : (o : Op) → Res o → Option World
  | .lock, _ => if w.lock = none then some { w with lock := some t } else none
  | .unlock, _ => some { w with lock := if w.lock = some t then none else w.lock }
  | .loadGen g, value => if value = w.gen g then some w else none
  | .storeGen g value, _ => some { w with gen := Function.update w.gen g value }
  | .load f, value => if value = w.flag f then some w else none
  | .store f value, _ => some { w with flag := Function.update w.flag f value }
  | .readVerifiedApplied, value => if value = w.verifiedApplied then some w else none
  | .writeVerifiedApplied value, _ => some { w with verifiedApplied := value }
  | .lampControlForceInactive, status =>
    if status = (lampControlForceInactive w.lamp).1 then some { w with lamp := (lampControlForceInactive w.lamp).2 }
    else none
  | .lampControlReleaseFailOff, status =>
    if status = (lampControlReleaseFailOff w.lamp).1 then some { w with lamp := (lampControlReleaseFailOff w.lamp).2 }
    else none
  | .mqttAppIsConnected, connected => if connected && w.session.isNone then none else some w
  | .mqttAppInit, _ => some { w with session := some ⟨w.applied⟩ }
  | .mqttAppDeinit, _ => if w.callback.isSome then none else some { w with session := none }
  | .mqttAppSetSafetyCallbacks, _ => some { w with safetyCallbacks := true }
  | .mqttConfigApplyVerified _, status => some (if status = .ok then { w with applied := w.applied + 1 } else w)
  | _, _ => some w

/-- Whether `mqtt_app` may run a callback now. -/
def World.callsBack (w : World) (c : Call) : Bool :=
  c.isCallback && w.safetyCallbacks && (w.session.isSome || c = .onConnectFailure .configRejected)

def effect (t : Tid) (e : Event) (w : World) : Option World :=
  match t, e with
  | .transport, .call c => if w.callsBack c then some { w with callback := some c } else none
  | .task _, .call c => if c.isCallback then none else some w
  | t, .did o r => stepEffect t w o r
  | .transport, .ret _ => some { w with callback := none }
  | .task _, .ret _ => some w

def body (cJsonParseWithLengthOpts : List UInt8 → Option Json) : Call → Act Ret
  | .validate cfg => do return some (← mqttCfgValidate cfg)
  | .load out => do return some (← mqttCfgLoad cJsonParseWithLengthOpts out).1
  | .apply cfg => do return some (← mqttCfgApply cfg)
  | .loadAndApply cfg => do return some (← mqttCfgLoadAndApply cJsonParseWithLengthOpts cfg)
  | .connect timeoutMs => do return some (← mqttCfgConnect timeoutMs)
  | .onConnect => do
    mqttCfgOnConnect
    return none
  | .onDisconnect => do
    mqttCfgOnDisconnect
    return none
  | .onConnectFailure reason => do
    mqttCfgOnConnectFailure reason
    return none

/-- The module under any number of threads. -/
def system (cJsonParseWithLengthOpts : List UInt8 → Option Json) : System Tid World Op Res Call Ret where
  body := body cJsonParseWithLengthOpts
  effect := effect

/-- The static initializers, with the lamp in any state. -/
def World.boot (lamp : Machine) : World where
  gen := fun _ => 0
  flag := fun _ => false
  verifiedApplied := false
  lock := none
  lamp := lamp
  session := none
  safetyCallbacks := false
  callback := none
  applied := 0

def Boot (w : World) : Prop := ∃ lamp, w = .boot lamp

/-! ## What an event can change -/

@[simp] theorem effect_did (t : Tid) (o : Op) (r : Res o) (w : World) :
    effect t (.did o r) w = stepEffect t w o r := by cases t <;> rfl

@[simp] theorem system_effect (parse : List UInt8 → Option Json) : (system parse).effect = effect := rfl

/-- A callback starts on the transport thread, anything else on a task. -/
theorem effect_call {t : Tid} {c : Call} {w w' : World} (h : effect t (.call c) w = some w') :
    (t = .transport ∧ w.callsBack c = true ∧ w' = { w with callback := some c }) ∨
    (t ≠ .transport ∧ c.isCallback = false ∧ w' = w) := by
  cases t with
  | transport =>
    simp only [effect, Option.ite_none_right_eq_some, Option.some.injEq] at h
    exact .inl ⟨rfl, h.1, h.2.symm⟩
  | task id =>
    simp only [effect, Option.ite_none_left_eq_some, Option.some.injEq] at h
    exact .inr ⟨by simp, by simpa using h.1, h.2.symm⟩

theorem effect_ret {t : Tid} {s : Ret} {w w' : World} (h : effect t (.ret s) w = some w') :
    (t = .transport ∧ w' = { w with callback := none }) ∨ (t ≠ .transport ∧ w' = w) := by
  cases t with
  | transport => exact .inl ⟨rfl, by simpa [effect] using h.symm⟩
  | task id => exact .inr ⟨by simp, by simpa [effect] using h.symm⟩

theorem lock_taken {t : Tid} {w w' : World} (h : effect t (.did .lock ()) w = some w') : w'.lock = some t := by
  simp only [effect_did, stepEffect, Option.ite_none_right_eq_some, Option.some.injEq] at h
  rw [← h.2]

/-- Everything an event can change, and which event changes it. -/
structure Changes (t : Tid) (e : Event) (w w' : World) : Prop where
  gen : ∀ g, w'.gen g = w.gen g ∨ ∃ v, e = .did (.storeGen g v) () ∧ w'.gen g = v
  flag : ∀ f, w'.flag f = w.flag f ∨ ∃ b, e = .did (.store f b) () ∧ w'.flag f = b
  verifiedApplied : w'.verifiedApplied = w.verifiedApplied ∨
    ∃ b, e = .did (.writeVerifiedApplied b) () ∧ w'.verifiedApplied = b
  lock : w'.lock = w.lock ∨ (e = .did .lock () ∧ w.lock = none ∧ w'.lock = some t) ∨
    (e = .did .unlock () ∧ w.lock = some t ∧ w'.lock = none)
  lamp : w'.lamp = w.lamp ∨
    (e = .did .lampControlForceInactive (lampControlForceInactive w.lamp).1 ∧
      w'.lamp = (lampControlForceInactive w.lamp).2) ∨
    (e = .did .lampControlReleaseFailOff .ok ∧ w'.lamp = (lampControlReleaseFailOff w.lamp).2)
  session : w'.session = w.session ∨ (e = .did .mqttAppInit () ∧ w'.session = some ⟨w.applied⟩) ∨
    (e = .did .mqttAppDeinit () ∧ w.callback = none ∧ w'.session = none)
  applied : w'.applied = w.applied ∨
    ∃ v, e = .did (.mqttConfigApplyVerified v) .ok ∧ w'.applied = w.applied + 1
  callback : w'.callback = w.callback ∨
    (t = .transport ∧ ∃ c, e = .call c ∧ w.callsBack c = true ∧ w'.callback = some c) ∨
    (t = .transport ∧ ∃ s, e = .ret s ∧ w'.callback = none)

theorem Changes.none (t : Tid) (e : Event) (w : World) : Changes t e w w :=
  ⟨fun _ => .inl rfl, fun _ => .inl rfl, .inl rfl, .inl rfl, .inl rfl, .inl rfl, .inl rfl, .inl rfl⟩

theorem stepEffect_changes {t : Tid} {o : Op} {r : Res o} {w w' : World} (h : stepEffect t w o r = some w') :
    Changes t (.did o r) w w' := by
  -- Each operation changes what it names; the reads and the open answers change nothing.
  have unchanged := Changes.none t (.did o r) w
  cases o with
  | storeGen g v =>
    obtain rfl : _ = w' := Option.some.inj h
    refine { unchanged with gen := fun g' => ?_ }
    by_cases hg : g' = g
    · subst hg; exact .inr ⟨v, rfl, by simp⟩
    · exact .inl (by simp [hg])
  | store f b =>
    obtain rfl : _ = w' := Option.some.inj h
    refine { unchanged with flag := fun f' => ?_ }
    by_cases hf : f' = f
    · subst hf; exact .inr ⟨b, rfl, by simp⟩
    · exact .inl (by simp [hf])
  | writeVerifiedApplied b =>
    obtain rfl : _ = w' := Option.some.inj h
    exact { unchanged with verifiedApplied := .inr ⟨b, rfl, rfl⟩ }
  | lock =>
    simp only [stepEffect, Option.ite_none_right_eq_some, Option.some.injEq] at h
    obtain ⟨h0, rfl⟩ := h
    exact { unchanged with lock := .inr (.inl ⟨rfl, h0, rfl⟩) }
  | unlock =>
    obtain rfl : _ = w' := Option.some.inj h
    refine { unchanged with lock := ?_ }
    by_cases ht : w.lock = some t
    · exact .inr (.inr ⟨rfl, ht, by simp [ht]⟩)
    · exact .inl (by simp [ht])
  | lampControlForceInactive =>
    simp only [stepEffect, Option.ite_none_right_eq_some, Option.some.injEq] at h
    obtain ⟨rfl, rfl⟩ := h
    exact { unchanged with lamp := .inr (.inl ⟨rfl, rfl⟩) }
  | lampControlReleaseFailOff =>
    simp only [stepEffect, Option.ite_none_right_eq_some, Option.some.injEq] at h
    obtain ⟨rfl, rfl⟩ := h
    exact { unchanged with lamp := .inr (.inr ⟨rfl, rfl⟩) }
  | mqttAppInit =>
    obtain rfl : _ = w' := Option.some.inj h
    exact { unchanged with session := .inr (.inl ⟨rfl, rfl⟩) }
  | mqttAppDeinit =>
    simp only [stepEffect, Option.ite_none_left_eq_some, Option.some.injEq] at h
    obtain ⟨h0, rfl⟩ := h
    exact { unchanged with session := .inr (.inr ⟨rfl, by simpa using h0, rfl⟩) }
  | mqttConfigApplyVerified v =>
    simp only [stepEffect, Option.some.injEq] at h
    subst h
    by_cases hr : r = .ok
    · subst hr; exact { unchanged with applied := .inr ⟨v, rfl, rfl⟩ }
    · simpa [hr] using unchanged
  | mqttAppSetSafetyCallbacks =>
    obtain rfl : _ = w' := Option.some.inj h
    exact { unchanged with }
  | loadGen g =>
    simp only [stepEffect, Option.ite_none_right_eq_some, Option.some.injEq] at h
    obtain ⟨-, rfl⟩ := h
    exact unchanged
  | load f =>
    simp only [stepEffect, Option.ite_none_right_eq_some, Option.some.injEq] at h
    obtain ⟨-, rfl⟩ := h
    exact unchanged
  | readVerifiedApplied =>
    simp only [stepEffect, Option.ite_none_right_eq_some, Option.some.injEq] at h
    obtain ⟨-, rfl⟩ := h
    exact unchanged
  | mqttAppIsConnected =>
    simp only [stepEffect, Option.ite_none_left_eq_some, Option.some.injEq] at h
    obtain ⟨-, rfl⟩ := h
    exact unchanged
  | _ =>
    obtain rfl : w = w' := Option.some.inj h
    exact unchanged

theorem effect_changes {t : Tid} {e : Event} {w w' : World} (h : effect t e w = some w') : Changes t e w w' := by
  cases e with
  | call c =>
    rcases effect_call h with ⟨ht, hc, rfl⟩ | ⟨-, -, rfl⟩
    · exact { Changes.none t (.call c) w with callback := .inr (.inl ⟨ht, c, rfl, hc, rfl⟩) }
    · exact .none _ _ _
  | did o r => exact stepEffect_changes (by simpa using h)
  | ret s =>
    rcases effect_ret h with ⟨ht, rfl⟩ | ⟨-, rfl⟩
    · exact { Changes.none t (.ret s) w with callback := .inr (.inr ⟨ht, s, rfl, rfl⟩) }
    · exact .none _ _ _

/-- A thread that holds the lock still holds it after any step but the unlock. -/
theorem Changes.keep_lock {t : Tid} {o : Op} {r : Res o} {w w' : World} (h : Changes t (.did o r) w w')
    (ho : o ≠ .unlock) (hl : w.lock = some t) : w'.lock = some t := by
  rcases h.lock with e | ⟨-, e, -⟩ | ⟨e, -⟩
  · exact e.trans hl
  · rw [hl] at e; cases e
  · cases e; exact absurd rfl ho

/-! What single steps do. -/

theorem effect_load {t : Tid} {f : Flag} {value : Bool} {w w' : World} (h : effect t (.did (.load f) value) w = some w') :
    value = w.flag f ∧ w' = w := by
  simp only [effect_did, stepEffect, Option.ite_none_right_eq_some, Option.some.injEq] at h
  exact ⟨h.1, h.2.symm⟩

theorem effect_loadGen {t : Tid} {g : Gen} {value : UInt32} {w w' : World}
    (h : effect t (.did (.loadGen g) value) w = some w') : value = w.gen g ∧ w' = w := by
  simp only [effect_did, stepEffect, Option.ite_none_right_eq_some, Option.some.injEq] at h
  exact ⟨h.1, h.2.symm⟩

theorem effect_readVerifiedApplied {t : Tid} {value : Bool} {w w' : World}
    (h : effect t (.did .readVerifiedApplied value) w = some w') : value = w.verifiedApplied ∧ w' = w := by
  simp only [effect_did, stepEffect, Option.ite_none_right_eq_some, Option.some.injEq] at h
  exact ⟨h.1, h.2.symm⟩

theorem effect_store {t : Tid} {f : Flag} {value : Bool} {r : Unit} {w w' : World}
    (h : effect t (.did (.store f value) r) w = some w') : w'.flag f = value := by
  simp only [effect_did, stepEffect, Option.some.injEq] at h
  simp [← h]

theorem effect_storeGen {t : Tid} {g : Gen} {value : UInt32} {r : Unit} {w w' : World}
    (h : effect t (.did (.storeGen g value) r) w = some w') : w'.gen g = value := by
  simp only [effect_did, stepEffect, Option.some.injEq] at h
  simp [← h]

theorem effect_writeVerifiedApplied {t : Tid} {value : Bool} {r : Unit} {w w' : World}
    (h : effect t (.did (.writeVerifiedApplied value) r) w = some w') : w'.verifiedApplied = value := by
  simp only [effect_did, stepEffect, Option.some.injEq] at h
  simp [← h]

theorem effect_deinit {t : Tid} {r : Unit} {w w' : World} (h : effect t (.did .mqttAppDeinit r) w = some w') :
    w.callback = none ∧ w' = { w with session := none } := by
  simp only [effect_did, stepEffect, Option.ite_none_left_eq_some, Option.some.injEq] at h
  exact ⟨by simpa using h.1, h.2.symm⟩

end LedLamp.Mqtt
