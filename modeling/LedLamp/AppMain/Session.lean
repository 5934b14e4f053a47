import LedLamp.AppMain.Identity
import LedLamp.Mqtt.Config
import LedLamp.TbApplication.Calls
/-!
# The configuration and TLS gates of `app_main.c`

The gates run on the supervisor task alone, so each function maps the module's
variables to their values after it. What the other components answer is input: a
record has one field for each place of a call that asks (`SessionAnswers`,
`GateAnswers`, `ConfigurationAnswers`). What the gates ask of them is written to
`trace`, newest first. Logging is left out, but for the line that reports a
rejection with its count.
-/

namespace LedLamp.AppMain

open AppConfig Mqtt
open TbApplication (TbClient TbApplicationStatus)

/-- The build options the gates read. -/
structure Kconfig where
  authRejectReprovisionThreshold : Nat
  reprovisionBackoffMs : UInt32
  deriving DecidableEq

/-- `tb_provisioning_status_t`. -/
inductive TbProvisioningStatus
  | ok
  | notFound
  | errIo
  | errMalformed
  | errBounds
  | errUnknownSchema
  | errRequest
  | errResponse
  | errPersist
  deriving DecidableEq, Repr

/-- `tb_provisioning_config_t`. -/
structure TbProvisioningConfig where
  deviceName : List UInt8
  provisionDeviceKey : List UInt8
  provisionDeviceSecret : List UInt8
  deriving DecidableEq

/-- `tb_client_config_t`, as far as it is set here. -/
structure TbClientConfig where
  serverUrl : List UInt8
  accessToken : List UInt8
  clientId : List UInt8
  deviceName : List UInt8
  deriving DecidableEq

/-- What the gates ask of other components, with the answer.
`mqttCfgLoadAndApply` carries the identity it finds. -/
inductive Event
  | mqttCfgLoadAndApply (identity : DeviceIdentity) (status : MqttCfgStatus)
  | mqttCfgConnect (status : MqttCfgStatus)
  | tbClientInit (config : TbClientConfig) (status : Int)
  | tbClientDisconnect
  | tbClientDeinit
  | tbClientUpdateCredentials (token clientId : List UInt8) (status : Int)
  | tbApplicationInit (client : Option TbClient) (status : TbApplicationStatus)
  | tbApplicationDeinit
  | tbProvisioningLoad (ok : Bool)
  | tbProvisioningEnroll (config : TbProvisioningConfig) (status : TbProvisioningStatus)
  | deviceIdentityLoad (status : DeviceIdentityStatus)
  | lampControlForceInactive
  | credentialsRejected (count : Nat)
  deriving DecidableEq

/-- The variables of the module, with the identity and the trace. The reject count is
compared after every increment and so stays far below `UINT_MAX`. -/
structure Statics where
  tbClient : Option TbClient
  tbNeedsProvisioning : Bool
  provisioningConfig : TbProvisioningConfig
  authRejectCount : Nat
  reprovisionBackoffActive : Bool
  reprovisionRetryAtMs : UInt32
  identity : DeviceIdentity
  trace : List Event
  deriving DecidableEq

/-- The static initializers. -/
def Statics.boot : Statics := ⟨none, false, ⟨[], [], []⟩, 0, false, 0, .boot, []⟩

def Statics.did (s : Statics) (e : Event) : Statics := { s with trace := e :: s.trace }

/-! ## Sessions -/

/-- What one `create_thingsboard_session` is answered; `tb_client_init` leaves
`client` in its out parameter. -/
structure SessionAnswers where
  mqttCfgLoadAndApply : MqttCfgStatus
  mqttCfgGetServerUrl : Except MqttCfgStatus (List UInt8)
  tbClientInit : Int
  client : Option TbClient
  tbApplicationInit : TbApplicationStatus

def loadBrokerTlsConfiguration (status : MqttCfgStatus) (s : Statics) : Bool × Statics :=
  (status = .ok, s.did (.mqttCfgLoadAndApply s.identity status))

/-- `device_identity_load`, called by both gates. -/
def Statics.identityLoad (a : IdentityAnswers) (s : Statics) : DeviceIdentityStatus × Statics :=
  let (status, identity) := deviceIdentityLoad a
  let s := { s with identity }.did (.deviceIdentityLoad status)
  (status, if status ≠ .ok then s.did .lampControlForceInactive else s)

def loadDeviceIdentity (a : IdentityAnswers) (s : Statics) : Bool × Statics :=
  let (status, s) := s.identityLoad a
  (status = .ok, s)

def initializeThingsboardClient (a : SessionAnswers) (accessToken clientId deviceName : List UInt8) (s : Statics) :
    Bool × Statics :=
  match a.mqttCfgGetServerUrl with
  | .error _ => (false, s)
  | .ok serverUrl =>
    let configured : TbClientConfig := ⟨serverUrl, accessToken, clientId, deviceName⟩
    let s := { s with tbClient := a.client }.did (.tbClientInit configured a.tbClientInit)
    if a.tbClientInit ≠ 0 then (false, s)
    else
      let s := s.did (.tbApplicationInit s.tbClient a.tbApplicationInit)
      if a.tbApplicationInit ≠ .ok then (false, { s with tbClient := none }.did .tbClientDeinit) else (true, s)

def destroyThingsboardSession (s : Statics) : Statics :=
  match s.tbClient with
  | none => s
  | some _ =>
    let s := ((s.did .tbApplicationDeinit).did .tbClientDisconnect).did .tbClientDeinit
    { s with tbClient := none }

/-- The token and the client id of a session: the bootstrap ones, or those of the
validated identity. -/
def sessionCredentials (s : Statics) : Option (List UInt8 × List UInt8) :=
  if s.tbNeedsProvisioning then some (ascii "provision", s.provisioningConfig.deviceName)
  else match deviceIdentityToken s.identity, deviceIdentityClientId s.identity with
    | .ok token, .ok clientId =>
      if (cstr token).isEmpty || (cstr clientId).isEmpty then none else some (token, clientId)
    | _, _ => none

def createThingsboardSession (a : SessionAnswers) (s : Statics) : Bool × Statics :=
  match sessionCredentials s with
  | none => (false, s)
  | some (token, clientId) =>
    let (applied, s) := loadBrokerTlsConfiguration a.mqttCfgLoadAndApply s
    if !applied then (false, s) else initializeThingsboardClient a token clientId clientId s

/-! ## The configuration gate -/

structure ConfigurationAnswers where
  appConfigLoadDevice : AppConfigStatus
  appConfigLoadManufacturing : AppConfigStatus
  identity : IdentityAnswers
  tbProvisioningLoad : Except TbProvisioningStatus TbProvisioningConfig
  session : SessionAnswers

def loadProductConfiguration (a : ConfigurationAnswers) : Bool :=
  if a.appConfigLoadDevice ≠ .ok ∧ a.appConfigLoadDevice ≠ .okRecovered then false
  else if a.appConfigLoadManufacturing ≠ .ok ∧ a.appConfigLoadManufacturing ≠ .okRecovered then false
  else true

/-- `tb_provisioning_load(&s_provisioning_config)`; a failure leaves the variable alone. -/
def Statics.provisioningLoad (loaded : Except TbProvisioningStatus TbProvisioningConfig) (s : Statics) :
    Bool × Statics :=
  match loaded with
  | .ok config => (true, { s with provisioningConfig := config }.did (.tbProvisioningLoad true))
  | .error _ => (false, s.did (.tbProvisioningLoad false))

def loadConfiguration (a : ConfigurationAnswers) (s : Statics) : Bool × Statics :=
  if !loadProductConfiguration a then (false, s)
  else
    let (identityStatus, s) := { s with tbNeedsProvisioning := false }.identityLoad a.identity
    if identityStatus ≠ .ok then
      let (provisioning, s) := s.provisioningLoad a.tbProvisioningLoad
      if !provisioning then (false, s) else createThingsboardSession a.session { s with tbNeedsProvisioning := true }
    else createThingsboardSession a.session s

/-! ## The TLS gate -/

/-- What one `connect_verified_tls` is answered, in the order of its calls. -/
structure GateAnswers where
  osalTaskGetTimeMs : UInt32
  session : SessionAnswers
  mqttCfgConnect : MqttCfgStatus
  tbProvisioningLoad : Except TbProvisioningStatus TbProvisioningConfig
  tbProvisioningEnroll : TbProvisioningStatus
  identity : IdentityAnswers
  osalTaskGetTimeMsAfter : UInt32
  tbClientUpdateCredentials : Int
  mqttCfgLoadAndApply : MqttCfgStatus
  mqttCfgReconnect : MqttCfgStatus

/-- The backoff after a failed enrolment is not over yet. -/
def backoffRunning (now : UInt32) (s : Statics) : Bool :=
  s.reprovisionBackoffActive && (now - s.reprovisionRetryAtMs).toInt32 < 0

/-- A rejection is counted; at the threshold the count starts over, and the device
goes back to bootstrap mode if the bootstrap credentials load. -/
def countRejection (k : Kconfig) (a : GateAnswers) (s : Statics) : Statics :=
  let count := s.authRejectCount + 1
  let s := { s with authRejectCount := count }.did (.credentialsRejected count)
  if count ≥ k.authRejectReprovisionThreshold then
    let (provisioning, s) := { s with authRejectCount := 0 }.provisioningLoad a.tbProvisioningLoad
    if provisioning then { destroyThingsboardSession s with tbNeedsProvisioning := true } else s
  else s

/-- The branch of a failed connect. -/
def connectFailed (k : Kconfig) (a : GateAnswers) (s : Statics) : Statics :=
  let s := if a.mqttCfgConnect = .errAuthRejected ∧ !s.tbNeedsProvisioning then countRejection k a s else s
  -- a bootstrap session is rebuilt by the next attempt
  if s.tbNeedsProvisioning then destroyThingsboardSession s else s

/-- The branch of a failed enrolment: the backoff starts. -/
def enrollFailed (k : Kconfig) (a : GateAnswers) (s : Statics) : Statics :=
  { destroyThingsboardSession s with
    reprovisionBackoffActive := true
    reprovisionRetryAtMs := a.osalTaskGetTimeMsAfter + k.reprovisionBackoffMs }

/-- The branch of a connect in bootstrap mode, once the enrolled identity is loaded. -/
def useIdentity (a : GateAnswers) (s : Statics) : Bool × Statics :=
  match deviceIdentityToken s.identity, deviceIdentityClientId s.identity with
  | .ok token, .ok clientId =>
    let s := s.did (.tbClientUpdateCredentials token clientId a.tbClientUpdateCredentials)
    if a.tbClientUpdateCredentials ≠ 0 then (false, s)
    else
      let (applied, s) := loadBrokerTlsConfiguration a.mqttCfgLoadAndApply s
      if !applied then (false, destroyThingsboardSession s)
      else
        let s := { s with tbNeedsProvisioning := false }.did (.mqttCfgConnect a.mqttCfgReconnect)
        (a.mqttCfgReconnect = .ok, s)
  | _, _ => (false, s)

/-- The branch of a connect in bootstrap mode. -/
def enrollDevice (k : Kconfig) (a : GateAnswers) (s : Statics) : Bool × Statics :=
  let s := s.did (.tbProvisioningEnroll s.provisioningConfig a.tbProvisioningEnroll)
  if a.tbProvisioningEnroll ≠ .ok then (false, enrollFailed k a s)
  else
    let (loaded, s) := loadDeviceIdentity a.identity s
    if !loaded then (false, enrollFailed k a s) else useIdentity a s

def connectVerifiedTls (k : Kconfig) (a : GateAnswers) (s : Statics) : Bool × Statics :=
  if backoffRunning a.osalTaskGetTimeMs s then (false, s)
  else
    let s := { s with reprovisionBackoffActive := false }
    if !s.tbNeedsProvisioning && !deviceIdentityIsLoaded s.identity then (false, s)
    else
      let (ready, s) := if s.tbClient = none then createThingsboardSession a.session s else (true, s)
      if !ready then (false, s)
      else
        let s := s.did (.mqttCfgConnect a.mqttCfgConnect)
        if a.mqttCfgConnect ≠ .ok then (false, connectFailed k a s)
        else
          let (passed, s) := if s.tbNeedsProvisioning then enrollDevice k a s else (true, s)
          if !passed then (false, s) else (true, { s with authRejectCount := 0 })

/-! ## Runs of the gates -/

/-- The supervisor runs the configuration gate or the TLS gate. -/
inductive Call
  | loadConfiguration (a : ConfigurationAnswers)
  | connectVerifiedTls (a : GateAnswers)

def Call.exec (k : Kconfig) (s : Statics) : Call → Bool × Statics
  | .loadConfiguration a => AppMain.loadConfiguration a s
  | .connectVerifiedTls a => AppMain.connectVerifiedTls k a s

/-- The variables after a sequence of calls. -/
def run (k : Kconfig) (calls : List Call) (s : Statics) : Statics := calls.foldl (fun s c => (c.exec k s).2) s

/-! ## Answers to run it on -/

/-- The default thresholds. -/
def defaultKconfig : Kconfig := ⟨3, 600000⟩

/-- A provisioned device with an identity record. -/
def identityStored : IdentityAnswers where
  appConfigLoadManufacturing := .ok
  manufacturing := ⟨APP_CONFIG_SCHEMA_VERSION, APP_CONFIG_MFG_STATE_PROVISIONED, APP_CONFIG_CRED_MODE_PSK⟩
  tbIdentityLoad := .ok ⟨ascii "lamp-1", ascii "secret"⟩

def bootstrapConfig : TbProvisioningConfig := ⟨ascii "lamp-1", ascii "key", ascii "secret"⟩

def sessionOpens : SessionAnswers := ⟨.ok, .ok (ascii "mqtts://broker:8883"), 0, some 1, .ok⟩

/-- Every component does what it is asked. -/
def gateOpens : GateAnswers where
  osalTaskGetTimeMs := 0
  session := sessionOpens
  mqttCfgConnect := .ok
  tbProvisioningLoad := .ok bootstrapConfig
  tbProvisioningEnroll := .ok
  identity := identityStored
  osalTaskGetTimeMsAfter := 0
  tbClientUpdateCredentials := 0
  mqttCfgLoadAndApply := .ok
  mqttCfgReconnect := .ok

/-- A fresh device: no identity record, but bootstrap credentials. -/
def freshDevice : ConfigurationAnswers where
  appConfigLoadDevice := .ok
  appConfigLoadManufacturing := .ok
  identity := { identityStored with tbIdentityLoad := .error .errNotFound }
  tbProvisioningLoad := .ok bootstrapConfig
  session := sessionOpens

end LedLamp.AppMain
