import LedLamp.Conc.Guarantee
import LedLamp.Lamp.Control
import LedLamp.Mqtt.Config
/-!
# The calls and callbacks of `mqtt_cfg.c`

Each function is a program over the operations other threads can come between:
the module lock, each load and store of an atomic, each access to the latch, and
each call into another component. `mqtt_app`, `mqtt_config` and the OSAL are not
part of the repository, so what they answer is left open. cJSON's parse is the
parameter `cJsonParseWithLengthOpts`. Logging is left out.
-/

namespace LedLamp.Mqtt

open Conc Lamp

/-- `s_apply_generation` and `s_connected_generation`. -/
inductive Gen
  | apply
  | connected
  deriving DecidableEq, Repr

/-- `s_waiting_for_connection`, `s_connect_failed` and `s_auth_rejected`. -/
inductive Flag
  | waitingForConnection
  | connectFailed
  | authRejected
  deriving DecidableEq, Repr

/-- `mqtt_verified_config_t`. -/
structure MqttVerifiedConfig where
  address : List UInt8
  clientId : List UInt8
  username : Option (List UInt8)
  password : Option (List UInt8)
  caPath : List UInt8
  clientCertPath : Option (List UInt8)
  clientKeyPath : Option (List UInt8)
  deriving DecidableEq

/-- `mqtt_verified_config_status_t`; `error` is every code the module does not name. -/
inductive MqttVerifiedConfigStatus
  | ok
  | caError
  | clientCertError
  | error
  deriving DecidableEq, Repr

/-- `mqtt_connect_failure_reason_t`; `other` is every reason the module does not name. -/
inductive MqttConnectFailureReason
  | authRejected
  | configRejected
  | other
  deriving DecidableEq, Repr

/-- The steps of the module that other threads can see or come between. -/
inductive Op
  | lock
  | unlock
  | loadGen (g : Gen)
  | storeGen (g : Gen) (value : UInt32)
  | load (f : Flag)
  | store (f : Flag) (value : Bool)
  | readVerifiedApplied
  | writeVerifiedApplied (value : Bool)
  | lampControlForceInactive
  | lampControlReleaseFailOff
  | mqttAppIsConnected
  | mqttAppInit
  | mqttAppDeinit
  | mqttAppSetSafetyCallbacks
  | mqttConfigInvalidateVerified
  | mqttConfigApplyVerified (verified : MqttVerifiedConfig)
  | mqttConfigVerifiedIsCurrent
  | mqttConfigGetVerifiedServerUrl
  | deviceIdentityToken
  | osalStat (path : List UInt8)
  | osalOpenCreate (path : List UInt8)
  | osalRead (count : Nat)
  | osalClose
  | malloc (size : Nat)
  | osalTaskDelayMs (ms : UInt32)
  deriving DecidableEq

/-- What each step returns: a file's size or `none`, whether a file opened, the
bytes read or `none` on an error, the identity's status (`true` for OK) with its
token pointer, the verified URL or `none`. -/
@[reducible] def Res : Op → Type
  | .loadGen _ => UInt32
  | .load _ => Bool
  | .readVerifiedApplied => Bool
  | .lampControlForceInactive => LampStatus
  | .lampControlReleaseFailOff => LampStatus
  | .mqttAppIsConnected => Bool
  | .mqttConfigApplyVerified _ => MqttVerifiedConfigStatus
  | .mqttConfigVerifiedIsCurrent => Bool
  | .mqttConfigGetVerifiedServerUrl => Option (List UInt8)
  | .deviceIdentityToken => Bool × Option (List UInt8)
  | .osalStat _ => Option Nat
  | .osalOpenCreate _ => Bool
  | .osalRead _ => Option (List UInt8)
  | .malloc _ => Bool
  | _ => Unit

abbrev Act := Prog Op Res

/-- One step. -/
abbrev act (o : Op) : Act (Res o) := .perform o

def mqttCfgFailOff : Act Unit := do
  let _ ← act .lampControlForceInactive
  return ()

/-! ## Validate and load -/

def mqttCfgValidate (cfg : Option MqttCfg) : Act MqttCfgStatus := do
  act .lock
  let status := mqttCfgValidateFields cfg
  if status ≠ .ok then
    act (.writeVerifiedApplied false)
    act .mqttConfigInvalidateVerified
    act .unlock
    mqttCfgFailOff
    return status
  else
    act .unlock
    return status

def mqttCfgReadFile (path : List UInt8) (maxLen : Nat) : Act (Option (List UInt8)) := do
  match ← act (.osalStat path) with
  | none => return none
  | some fileSize =>
    if fileSize = 0 ∨ fileSize ≥ maxLen then return none
    else if !(← act (.osalOpenCreate path)) then return none
    else if ← act (.malloc (fileSize + 1)) then
      let n ← act (.osalRead fileSize)
      act .osalClose
      return n.filter fun bytes => bytes.length = fileSize
    else
      act .osalClose
      return none

/-- What `mqtt_cfg_load` makes of the bytes it read. -/
def mqttCfgDocument (cJsonParseWithLengthOpts : List UInt8 → Option Json) (json : List UInt8) :
    Except MqttCfgStatus MqttCfg := do
  match cJsonParseWithLengthOpts (json ++ [0]) with
  | some (.object members) =>
    if mqttCfgRawJsonHasNulEscape json then .error .errMalformed
    let parsed ← mqttCfgParseRoot (.object members)
    let status := mqttCfgValidateFields (some parsed)
    if status ≠ .ok then .error status
    return parsed
  | _ => .error .errMalformed

/-- The way every failed load ends. -/
def loadFail (status : MqttCfgStatus) (out : Option MqttCfg) : Act (MqttCfgStatus × Option MqttCfg) := do
  act .lock
  act (.writeVerifiedApplied false)
  act .mqttConfigInvalidateVerified
  act .unlock
  mqttCfgFailOff
  return (status, out)

/-- `out` is what the pointer points to (`none` for NULL); the result carries what
it points to afterwards. -/
def mqttCfgLoad (cJsonParseWithLengthOpts : List UInt8 → Option Json) (out : Option MqttCfg) :
    Act (MqttCfgStatus × Option MqttCfg) := do
  match out with
  | none => loadFail .errInvalidArgument none
  | some _ =>
    match ← mqttCfgReadFile MQTT_CFG_FILE_PATH MQTT_CFG_MAX_FILE_BYTES with
    | none =>
      match ← act (.osalStat MQTT_CFG_FILE_PATH) with
      | some _ => loadFail .errBounds out
      | none => loadFail .errNotFound out
    | some json =>
      match mqttCfgDocument cJsonParseWithLengthOpts json with
      | .error status => loadFail status out
      | .ok parsed => return (.ok, some parsed)

/-! ## Apply -/

/-- `snprintf` of `MQTT_CFG_ADDRESS_FMT`, before it is cut to the buffer. -/
def addressOf (cfg : MqttCfg) : List UInt8 :=
  ascii "mqtts://" ++ cfg.hostname.str ++ ascii ":" ++ ascii (toString cfg.port.toNat)

def verifiedConfig (cfg : MqttCfg) (accessToken : Option (List UInt8)) : MqttVerifiedConfig where
  address := addressOf cfg
  clientId := cfg.clientId.str
  username :=
    if cfg.authMode = .accessToken then accessToken else if cfg.authMode = .none then some [] else none
  password := if cfg.authMode = .accessToken ∨ cfg.authMode = .none then some [] else none
  caPath := cfg.caPath.str
  clientCertPath := if cfg.authMode = .mtls then some cfg.clientCertPath.str else none
  clientKeyPath := if cfg.authMode = .mtls then some cfg.clientKeyPath.str else none

/-- An apply that fails after its second lock. -/
def applyFail (status : MqttCfgStatus) : Act MqttCfgStatus := do
  act .unlock
  mqttCfgFailOff
  return status

/-- The end of an apply: the verified values are handed over, still under the lock. -/
def applyVerified (cfg : MqttCfg) (accessToken : Option (List UInt8)) : Act MqttCfgStatus := do
  if (addressOf cfg).length ≥ MQTT_CFG_HOSTNAME_MAX_LEN + 16 then applyFail .errApply
  else
    match ← act (.mqttConfigApplyVerified (verifiedConfig cfg accessToken)) with
    | .caError => applyFail .errCaPath
    | .clientCertError => applyFail .errCertPath
    | .error => applyFail .errApply
    | .ok =>
      act (.writeVerifiedApplied true)
      act .unlock
      return .ok

/-- The second locked section of an apply, once the fields are valid. -/
def applyLocked (cfg : MqttCfg) : Act MqttCfgStatus := do
  if cfg.authMode = .accessToken then
    match ← act .deviceIdentityToken with
    | (true, some accessToken) =>
      if (cstr accessToken).isEmpty then applyFail .errApply else applyVerified cfg (some accessToken)
    | _ => applyFail .errApply
  else applyVerified cfg none

/-- The generation after `gen`; 0 is left out. -/
def nextGeneration (gen : UInt32) : UInt32 := if gen + 1 = 0 then 1 else gen + 1

/-- The first locked section of an apply. -/
def applyBegin : Act Unit := do
  act .lock
  let gen ← act (.loadGen .apply)
  act (.storeGen .apply (nextGeneration gen))
  act (.storeGen .connected 0)
  act (.store .waitingForConnection false)
  act (.writeVerifiedApplied false)
  act .unlock

/-- An apply from its second lock on. -/
def applyRest (cfg : Option MqttCfg) : Act MqttCfgStatus := do
  act .lock
  act (.writeVerifiedApplied false)
  match cfg with
  | none => applyFail (mqttCfgValidateFields none)
  | some cfg =>
    let status := mqttCfgValidateFields (some cfg)
    if status ≠ .ok then applyFail status else applyLocked cfg

def mqttCfgApply (cfg : Option MqttCfg) : Act MqttCfgStatus := do
  applyBegin
  act .mqttConfigInvalidateVerified
  if ← act .mqttAppIsConnected then mqttCfgFailOff
  act .mqttAppDeinit
  applyRest cfg

/-- `cfg` of the C function is an uninitialized local that a successful load fills. -/
def mqttCfgLoadAndApply (cJsonParseWithLengthOpts : List UInt8 → Option Json) (cfg : MqttCfg) :
    Act MqttCfgStatus := do
  match ← mqttCfgLoad cJsonParseWithLengthOpts (some cfg) with
  | (.ok, loaded) => mqttCfgApply loaded
  | (status, _) => return status

/-! ## Transport callbacks -/

def mqttCfgOnConnect : Act Unit := do
  if ← act (.load .waitingForConnection) then
    let gen ← act (.loadGen .apply)
    act (.storeGen .connected gen)

def mqttCfgOnDisconnect : Act Unit := do
  act (.store .waitingForConnection false)
  act (.storeGen .connected 0)
  mqttCfgFailOff

def mqttCfgOnConnectFailure (reason : MqttConnectFailureReason) : Act Unit := do
  act (.store .waitingForConnection false)
  act (.storeGen .connected 0)
  act (.store .connectFailed true)
  act (.store .authRejected (reason = .authRejected))
  if reason = .configRejected then
    act .lock
    act (.writeVerifiedApplied false)
    act .unlock
    mqttCfgFailOff
  else mqttCfgFailOff

/-! ## Connect -/

def MQTT_CFG_CONNECT_POLL_MS : UInt32 := 25

/-- A connect refused at its entry, under the lock. -/
def connectRefuse : Act MqttCfgStatus := do
  act (.store .waitingForConnection false)
  act .unlock
  act .mqttAppDeinit
  mqttCfgFailOff
  return .errNotApplied

/-- The success branch of the poll loop. -/
def pollAccept : Act MqttCfgStatus := do
  act (.store .waitingForConnection false)
  let _ ← act .lampControlReleaseFailOff
  act .unlock
  return .ok

/-- The branch of the poll loop for a transport that no longer matches. -/
def pollRefuse : Act MqttCfgStatus := do
  act (.writeVerifiedApplied false)
  act (.store .waitingForConnection false)
  act (.storeGen .connected 0)
  act .unlock
  act .mqttAppDeinit
  mqttCfgFailOff
  return .errNotApplied

/-- The branch of the poll loop for a failure event. -/
def pollFailed : Act MqttCfgStatus := do
  let authRejected ← act (.load .authRejected)
  act .unlock
  return if authRejected then .errAuthRejected else .errConnect

/-- The branch of the poll loop for an expired wait. -/
def pollTimeout : Act MqttCfgStatus := do
  act (.store .waitingForConnection false)
  act (.storeGen .connected 0)
  act .unlock
  mqttCfgFailOff
  return .errConnect

/-- `connected`, which asks the transport only when the generations agree. -/
def pollConnected (applyGen connectedGen : UInt32) : Act Bool := do
  if connectedGen = applyGen then act .mqttAppIsConnected else return false

/-- One iteration of the poll loop; `again` is what it does while the wait lasts. -/
def pollOnce (timeoutMs waited : UInt32) (again : Act MqttCfgStatus) : Act MqttCfgStatus := do
  act .lock
  let applyGen ← act (.loadGen .apply)
  let connectedGen ← act (.loadGen .connected)
  let connectFailed ← act (.load .connectFailed)
  let connected ← pollConnected applyGen connectedGen
  let current ← act .mqttConfigVerifiedIsCurrent
  if connected then
    if (← act .readVerifiedApplied) && current then pollAccept else pollRefuse
  else if connectFailed then pollFailed
  else if timeoutMs = 0 ∨ waited ≥ timeoutMs then pollTimeout
  else again

/-- `step`: the poll interval, or what is left of the wait. -/
def pollDelay (timeoutMs waited : UInt32) : UInt32 :=
  if timeoutMs - waited < MQTT_CFG_CONNECT_POLL_MS then timeoutMs - waited else MQTT_CFG_CONNECT_POLL_MS

/-- The poll loop after `waited` ms. The first argument bounds the number of
further iterations; `pollLoop_eq` says that the loop of a connect never meets
the bound. -/
def pollLoop (timeoutMs : UInt32) : Nat → UInt32 → Act MqttCfgStatus
  | 0, waited => pollOnce timeoutMs waited pollTimeout
  | fuel + 1, waited => pollOnce timeoutMs waited do
    act .unlock
    act (.osalTaskDelayMs (pollDelay timeoutMs waited))
    pollLoop timeoutMs fuel (waited + pollDelay timeoutMs waited)

/-- The wait state of a connect, established before the transport starts. -/
def connectBegin : Act Unit := do
  act .lock
  act (.store .connectFailed false)
  act (.store .authRejected false)
  act (.storeGen .connected 0)
  act (.store .waitingForConnection true)
  act .unlock

/-- A connect past its entry checks: any old session is ended, the wait state set,
the transport started, and the outcome waited for. -/
def connectStart (timeoutMs : UInt32) : Act MqttCfgStatus := do
  act .mqttAppDeinit
  connectBegin
  act .mqttAppSetSafetyCallbacks
  act .mqttAppInit
  pollLoop timeoutMs timeoutMs.toNat 0

def mqttCfgConnect (timeoutMs : UInt32) : Act MqttCfgStatus := do
  act .lock
  if !(← act .readVerifiedApplied) then connectRefuse
  else if !(← act .mqttConfigVerifiedIsCurrent) then
    act (.writeVerifiedApplied false)
    connectRefuse
  else if (← act .mqttConfigGetVerifiedServerUrl).isNone then
    act (.writeVerifiedApplied false)
    connectRefuse
  else
    act .unlock
    connectStart timeoutMs

/-! ## The bound of the poll loop -/

/-- An expired wait does not go on. -/
theorem pollOnce_expired {timeoutMs waited : UInt32} (h : waited ≥ timeoutMs) (again again' : Act MqttCfgStatus) :
    pollOnce timeoutMs waited again = pollOnce timeoutMs waited again' := by
  simp only [pollOnce, h, or_true, if_true]

theorem pollDelay_spec {timeoutMs waited : UInt32} (h : waited < timeoutMs) :
    0 < (pollDelay timeoutMs waited).toNat ∧
      waited.toNat + (pollDelay timeoutMs waited).toNat ≤ timeoutMs.toNat := by
  have hlt : waited.toNat < timeoutMs.toNat := UInt32.lt_iff_toNat_lt.1 h
  have hsub : (timeoutMs - waited).toNat = timeoutMs.toNat - waited.toNat :=
    UInt32.toNat_sub_of_le _ _ (UInt32.le_iff_toNat_le.2 (by omega))
  unfold pollDelay
  split
  · omega
  · rename_i hge
    have hge := UInt32.le_iff_toNat_le.1 (UInt32.not_lt.1 hge)
    simp only [MQTT_CFG_CONNECT_POLL_MS, UInt32.reduceToNat] at hge ⊢
    omega

/-- Two bounds that cover the milliseconds left give the same loop. -/
theorem pollLoop_bound {timeoutMs : UInt32} {fuel n : Nat} {waited : UInt32}
    (h : timeoutMs.toNat ≤ waited.toNat + fuel) (h' : timeoutMs.toNat ≤ waited.toNat + n) :
    pollLoop timeoutMs fuel waited = pollLoop timeoutMs n waited := by
  induction fuel generalizing n waited with
  | zero =>
    have hexp : waited ≥ timeoutMs := UInt32.le_iff_toNat_le.2 (by omega)
    cases n <;> exact pollOnce_expired hexp _ _
  | succ fuel ih =>
    by_cases hexp : waited ≥ timeoutMs
    · cases n <;> exact pollOnce_expired hexp _ _
    · obtain ⟨hpos, hle⟩ := pollDelay_spec (UInt32.not_le.1 hexp)
      have hlt := UInt32.lt_iff_toNat_lt.1 (UInt32.not_le.1 hexp)
      have hadd : (waited + pollDelay timeoutMs waited).toNat = waited.toNat + (pollDelay timeoutMs waited).toNat := by
        rw [UInt32.toNat_add, Nat.mod_eq_of_lt]
        have := timeoutMs.toNat_lt
        omega
      cases n with
      | zero => omega
      | succ n =>
        unfold pollLoop
        rw [ih (n := n) (by omega) (by omega)]

/-- The loop of a connect meets the equation of the source's `for (;;)`: its bound
is never what ends it. -/
theorem pollLoop_eq {timeoutMs waited : UInt32} {fuel : Nat} (h : timeoutMs.toNat ≤ waited.toNat + fuel) :
    pollLoop timeoutMs fuel waited = pollOnce timeoutMs waited (do
      act .unlock
      act (.osalTaskDelayMs (pollDelay timeoutMs waited))
      pollLoop timeoutMs fuel (waited + pollDelay timeoutMs waited)) :=
  pollLoop_bound (n := fuel + 1) h (by omega)

end LedLamp.Mqtt
