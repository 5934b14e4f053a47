import LedLamp.Conc.Exec
import LedLamp.Lamp.Barrier
import LedLamp.Mqtt.System
import LedLamp.TbApplication.Calls
/-!
# The module among its threads

The transport thread delivers RPC requests and the loss of a session; the
synchronization engine and the rest of the application call the module on tasks. The
world holds `s_tb` and its mutex, the lamp, and whether the transport is connected.
Of the engine it is assumed that it applies a state only while the transport is
connected; of the client, that it is connected only if the transport is. All else
these components answer is left open. Each call into the lamp is one step.
-/

namespace LedLamp.TbApplication

open Conc Lamp
open Mqtt (Tid)

/-- The calls of the module, with `ota_on_indicator`, the loss of a session, a new
session, and what any other component asks of the lamp. -/
inductive Call
  | init (config : Option TbApplicationConfig)
  | deinit
  | onConnected (client : Option TbClient)
  | onDisconnected (client : Option TbClient)
  | setOutputSuspended (suspended : Bool)
  | takeFirmwareHint
  | parseState (json : Option (List UInt8)) (source : TbStateSyncSource)
  | applyState (state : Option LampState) (outputSuspended : Bool)
  | publishAppliedAttributes (state : Option LampState)
  | onServerRpc (entry : RpcMethod) (paramsJson : List UInt8) (requestId : UInt32)
  | otaOnIndicator (on : Bool)
  | mqttCfgOnDisconnect
  | transportConnected
  | lampControl (call : Lamp.Call)

/-- The transport thread runs its callbacks, tasks the rest. -/
def Call.isCallback : Call → Bool
  | .onDisconnected _ | .onServerRpc _ _ _ | .mqttCfgOnDisconnect | .transportConnected => true
  | _ => false

structure World where
  tb : TbAppModule
  lock : Option Tid
  lamp : Machine
  transport : Bool

inductive Ret
  | unit
  | bool (b : Bool)
  | status (status : TbApplicationStatus)
  | parsed (result : TbStateSyncParseResult)
  deriving DecidableEq

abbrev Event := Conc.Event Op Res Call Ret
abbrev Entry := Conc.Entry Tid Op Res Call Ret
abbrev Moment := Conc.Moment Tid World Op Res Call Ret
abbrev Config := Conc.Config Tid World Op Res Call Ret
abbrev Promise := Conc.Promise Tid World Op Res Call Ret
abbrev Done := Conc.Done Op Res

/-- What a call into the lamp returns: its status, and what its output argument
points to afterwards. -/
def lampAnswer (c : Lamp.Call) (m : Machine) : LampStatus × Option LampAppliedState :=
  match c with
  | .applyState requested appliedOut =>
    let (status, out, _) := lampControlApplyState requested appliedOut m
    (status, out)
  | .getAppliedState appliedOut => lampControlGetAppliedState appliedOut m
  | c => ((c.exec m).1, none)

/-- The effect of a step, if it can be taken now with that result. -/
def stepEffect (t : Tid) (w : World) : (o : Op) → Res o → Option World
  | .osalMutexCreate, created => some (if created then { w with tb := { w.tb with lock := true } } else w)
  | .osalMutexTake, _ => if w.lock = none then some { w with lock := some t } else none
  | .osalMutexGive, _ => some { w with lock := if w.lock = some t then none else w.lock }
  | .load, tb => if tb = w.tb then some w else none
  | .store s, _ => some { w with tb := s.set w.tb }
  | .lamp _ c, answer => if answer = lampAnswer c w.lamp then some { w with lamp := c.next w.lamp } else none
  | .tbClientIsConnected _, connected => if connected && !w.transport then none else some w
  | _, _ => some w

/-- Whether a call may start now, on thread `t`. -/
def World.starts (w : World) (t : Tid) (c : Call) : Bool :=
  (c.isCallback = decide (t = .transport)) &&
    match c with
    | .applyState _ _ => w.transport
    | _ => true

/-- What the start of a call says of the transport. -/
def World.onCall (w : World) : Call → World
  | .mqttCfgOnDisconnect => { w with transport := false }
  | .transportConnected => { w with transport := true }
  | _ => w

def effect (t : Tid) (e : Event) (w : World) : Option World :=
  match e with
  | .call c => if w.starts t c then some (w.onCall c) else none
  | .did o r => stepEffect t w o r
  | .ret _ => some w

variable (cJsonParse : List UInt8 → Option Json) (build : Build)

def body : Call → Act Ret
  | .init config => do return .status (← tbApplicationInit build config)
  | .deinit => do
    tbApplicationDeinit
    return .unit
  | .onConnected client => do
    tbApplicationOnConnected client
    return .unit
  | .onDisconnected client => do
    tbApplicationOnDisconnected client
    return .unit
  | .setOutputSuspended suspended => do
    tbApplicationSetOutputSuspended suspended
    return .unit
  | .takeFirmwareHint => do return .bool (← tbApplicationTakeFirmwareHint)
  | .parseState json source => do return .parsed (← tbAppParseStateCallback cJsonParse build json source)
  | .applyState state outputSuspended => do return .bool (← tbAppApplyState state outputSuspended)
  | .publishAppliedAttributes state => do
    tbAppPublishAppliedAttributes build state
    return .unit
  | .onServerRpc entry paramsJson requestId => do
    tbAppOnServerRpc cJsonParse build entry paramsJson requestId
    return .unit
  | .otaOnIndicator on => do
    otaOnIndicator build on
    return .unit
  | .mqttCfgOnDisconnect => do
    mqttCfgOnDisconnect
    return .unit
  | .transportConnected => return .unit
  | .lampControl call => do
    let _ ← act (.lamp .other call)
    return .unit

/-- The module under any number of threads. -/
def system : System Tid World Op Res Call Ret where
  body := body cJsonParse build
  effect := effect

/-- The static initializers, with the lamp in any state it can be in. -/
def World.boot (lamp : Machine) : World := ⟨.boot, none, lamp, false⟩

def Boot (w : World) : Prop := ∃ lamp, Reachable lamp ∧ w = .boot lamp

/-! ## What an event can change -/

@[simp] theorem system_effect : (system cJsonParse build).effect = effect := rfl

theorem effect_load {t : Tid} {tb : TbAppModule} {w w' : World} (h : effect t (.did .load tb) w = some w') :
    tb = w.tb ∧ w' = w := by
  simp only [effect, stepEffect, Option.ite_none_right_eq_some, Option.some.injEq] at h
  exact ⟨h.1, h.2.symm⟩

theorem effect_take {t : Tid} {w w' : World} (h : effect t (.did .osalMutexTake ()) w = some w') :
    w.lock = none ∧ w' = { w with lock := some t } := by
  simp only [effect, stepEffect, Option.ite_none_right_eq_some, Option.some.injEq] at h
  exact ⟨h.1, h.2.symm⟩

theorem effect_lamp {t : Tid} {caller : Component} {c : Lamp.Call} {answer : Res (.lamp caller c)} {w w' : World}
    (h : effect t (.did (.lamp caller c) answer) w = some w') :
    answer = lampAnswer c w.lamp ∧ w' = { w with lamp := c.next w.lamp } := by
  simp only [effect, stepEffect, Option.ite_none_right_eq_some, Option.some.injEq] at h
  exact ⟨h.1, h.2.symm⟩

/-- Everything an event can change, and which event changes it. -/
structure Changes (t : Tid) (e : Event) (w w' : World) : Prop where
  tb : w'.tb = w.tb ∨ (∃ s, e = .did (.store s) () ∧ w'.tb = s.set w.tb) ∨
    (e = .did .osalMutexCreate true ∧ w'.tb = { w.tb with lock := true })
  lock : w'.lock = w.lock ∨ (e = .did .osalMutexTake () ∧ w.lock = none ∧ w'.lock = some t) ∨
    (e = .did .osalMutexGive () ∧ w.lock = some t ∧ w'.lock = none)
  lamp : w'.lamp = w.lamp ∨ ∃ caller c, e = .did (.lamp caller c) (lampAnswer c w.lamp) ∧ w'.lamp = c.next w.lamp
  transport : w'.transport = w.transport ∨ (t = .transport ∧ e = .call .transportConnected ∧ w'.transport = true) ∨
    (t = .transport ∧ e = .call .mqttCfgOnDisconnect ∧ w'.transport = false)

theorem Changes.none (t : Tid) (e : Event) (w : World) : Changes t e w w := ⟨.inl rfl, .inl rfl, .inl rfl, .inl rfl⟩

theorem stepEffect_changes {t : Tid} {o : Op} {r : Res o} {w w' : World} (h : stepEffect t w o r = some w') :
    Changes t (.did o r) w w' := by
  have unchanged := Changes.none t (.did o r) w
  have he : effect t (.did o r) w = some w' := h
  cases o with
  | osalMutexCreate =>
    obtain rfl : _ = w' := Option.some.inj h
    cases r with
    | false => exact unchanged
    | true => exact { unchanged with tb := .inr (.inr ⟨rfl, rfl⟩) }
  | osalMutexTake =>
    obtain ⟨h0, rfl⟩ := effect_take he
    exact { unchanged with lock := .inr (.inl ⟨rfl, h0, rfl⟩) }
  | osalMutexGive =>
    obtain rfl : _ = w' := Option.some.inj h
    refine { unchanged with lock := ?_ }
    by_cases ht : w.lock = some t
    · exact .inr (.inr ⟨rfl, ht, by simp [ht]⟩)
    · exact .inl (by simp [ht])
  | load =>
    obtain ⟨-, rfl⟩ := effect_load he
    exact unchanged
  | store s =>
    obtain rfl : _ = w' := Option.some.inj h
    exact { unchanged with tb := .inr (.inl ⟨s, rfl, rfl⟩) }
  | lamp caller c =>
    obtain ⟨rfl, rfl⟩ := effect_lamp he
    exact { unchanged with lamp := .inr ⟨caller, c, rfl, rfl⟩ }
  | tbClientIsConnected client =>
    simp only [stepEffect, Option.ite_none_left_eq_some, Option.some.injEq] at h
    obtain ⟨-, rfl⟩ := h
    exact unchanged
  | _ =>
    obtain rfl : w = w' := Option.some.inj h
    exact unchanged

/-- A call starts where it may, and says what it does of the transport. -/
theorem effect_call {t : Tid} {c : Call} {w w' : World} (h : effect t (.call c) w = some w') :
    w.starts t c = true ∧ w' = w.onCall c := by
  simp only [effect, Option.ite_none_right_eq_some, Option.some.injEq] at h
  exact ⟨h.1, h.2.symm⟩

theorem starts_thread {t : Tid} {c : Call} {w : World} (h : w.starts t c = true) :
    c.isCallback = decide (t = .transport) := by
  simp only [World.starts, Bool.and_eq_true, decide_eq_true_eq] at h
  exact h.1

theorem effect_changes {t : Tid} {e : Event} {w w' : World} (h : effect t e w = some w') : Changes t e w w' := by
  cases e with
  | call c =>
    obtain ⟨hs, rfl⟩ := effect_call h
    have ht := starts_thread hs
    have unchanged := Changes.none t (.call c) w
    cases c with
    | mqttCfgOnDisconnect =>
      exact { unchanged with transport := .inr (.inr ⟨of_decide_eq_true ht.symm, rfl, rfl⟩) }
    | transportConnected =>
      exact { unchanged with transport := .inr (.inl ⟨of_decide_eq_true ht.symm, rfl, rfl⟩) }
    | _ => exact unchanged
  | did o r => exact stepEffect_changes h
  | ret s =>
    obtain rfl : w = w' := Option.some.inj h
    exact .none _ _ _

section Does
variable {cJsonParse : List UInt8 → Option Json} {build : Build} {K Φ : Promise} {t : Tid} {e : Event} {m : Moment}
  {w : World}

theorem happens (hd : Does (system cJsonParse build) Boot K Φ t e m w) : effect t e m.world = some w := hd.effect

theorem changes (hd : Does (system cJsonParse build) Boot K Φ t e m w) : Changes t e m.world w := effect_changes (happens hd)

end Does

/-! ## Which call takes which step -/

/-- The calls into the lamp that a call of the module, or of a component beside it, makes. -/
def Call.drives : Call → Component → Lamp.Call → Bool
  | .applyState _ _, .tbApplication, .releaseFailOff => true
  | .applyState _ _, .tbApplication, .applyState _ _ => true
  | .applyState _ _, .tbApplication, .forceInactive => true
  | .onServerRpc _ _ _, .tbApplication, .applyState _ _ => true
  | .onServerRpc _ _ _, .tbApplication, .getAppliedState _ => true
  | .otaOnIndicator _, .appMain, .releaseFailOff => true
  | .otaOnIndicator _, .appMain, .applyState _ _ => true
  | .mqttCfgOnDisconnect, .mqttCfg, .forceInactive => true
  | .lampControl call, .other, call' => call = call'
  | _, _, _ => false

def Call.isRpc : Call → Bool
  | .onServerRpc _ _ _ => true
  | _ => false

/-- The steps of each call: which calls into the lamp, and that only a request raises
`rpc_state_changed`. -/
def Op.of (call : Call) : Op → Bool
  | .lamp caller c => call.drives caller c
  | .store (.rpcStateChanged true) => call.isRpc
  | _ => true

/-! ## A lamp to run it on -/

/-- A build with one channel. -/
def pwmBuild : Build := ⟨false, 100, 100, by decide, by decide⟩

/-- Its lamp, initialized over a HAL that does not fail. -/
def pwmLamp : Machine := run [.init (some ⟨some 4, (none, none, none), 1, 5000, .activeHigh⟩)] (.boot fun _ => .ok)

def fullOn : LampState := ⟨true, 100, 255, 255, 255⟩

/-- Answers with which nothing fails, and the client knows the transport. -/
def obliging : (o : Op) → World → Option (Res o)
  | .load, w => some w.tb
  | .lamp _ c, w => some (lampAnswer c w.lamp)
  | .tbClientIsConnected _, w => some w.transport
  | .osalMutexCreate, _ => some true
  | .tbStateSyncInit _, _ => some .ok
  | .tbStateSyncRegisterRpcHandler _, _ => some true
  | .mqttCfg _, _ => none
  | .osalMutexTake, _ | .osalMutexGive, _ | .store _, _ | .tbAttributesSendJson _ _, _ | .tbRpcRespond _ _ _, _
  | .tbStateSyncRespondRpcError _ _ _ _ _, _ | .tbStateSyncRecordState _, _ | .tbStateSyncNoteStateChange, _
  | .tbStateSyncDeinit, _ | .tbStateSyncOnConnected _, _ | .tbStateSyncOnDisconnected _, _
  | .tbStateSyncSetOutputSuspended _, _ => some ()

end LedLamp.TbApplication
