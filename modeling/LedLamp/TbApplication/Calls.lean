import LedLamp.Mqtt.Calls
import LedLamp.TbApplication.Payload
/-!
# The functions of `tb_application.c`

Each function is a program over the operations other threads can come between:
the module mutex, each access to `s_tb`, and each call into another component. The
synchronization engine (`tb_state_sync`), the ThingsBoard client and its RPC transport
are not part of the repository; what they answer is left open. A response is
handed over as the object that is printed. Logging is left out; the telemetry
record has its own module (`Telemetry`).

Two functions of other files that share the lamp with the module stand at the end:
`ota_on_indicator` of `app_main.c` and, from `Mqtt.Calls`, `mqtt_cfg_on_disconnect`.
-/

namespace LedLamp.TbApplication

open Conc Lamp

/-- A `tb_client_t *` other than NULL. -/
abbrev TbClient := Nat

def TB_APPLICATION_HARDWARE_MAX_LEN : Nat := 32

/-- `s_tb`; `lock` says whether the mutex was created, `rssiFn` whether a provider is set. -/
structure TbAppModule where
  initialized : Bool
  connected : Bool
  outputSuspended : Bool
  client : Option TbClient
  rssiFn : Bool
  lock : Bool
  applied : LampState
  hasApplied : Bool
  rpcStateChanged : Bool
  rpcStatePending : LampState
  hardware : List UInt8
  firmwareHint : Bool
  deriving DecidableEq

/-- A zeroed `lamp_state_t`. -/
def LampState.zero : LampState := ⟨false, 0, 0, 0, 0⟩

/-- The static initializer of `s_tb`. -/
def TbAppModule.boot : TbAppModule :=
  ⟨false, false, false, none, false, false, LampState.zero, false, false, LampState.zero, [], false⟩

/-- An assignment to a member of `s_tb`. -/
inductive Store
  | initialized (value : Bool)
  | connected (value : Bool)
  | outputSuspended (value : Bool)
  | client (value : Option TbClient)
  | rssiFn (value : Bool)
  | applied (value : LampState)
  | hasApplied (value : Bool)
  | rpcStateChanged (value : Bool)
  | rpcStatePending (value : LampState)
  | hardware (value : List UInt8)
  | firmwareHint (value : Bool)
  deriving DecidableEq

def Store.set (tb : TbAppModule) : Store → TbAppModule
  | initialized value => { tb with initialized := value }
  | connected value => { tb with connected := value }
  | outputSuspended value => { tb with outputSuspended := value }
  | client value => { tb with client := value }
  | rssiFn value => { tb with rssiFn := value }
  | applied value => { tb with applied := value }
  | hasApplied value => { tb with hasApplied := value }
  | rpcStateChanged value => { tb with rpcStateChanged := value }
  | rpcStatePending value => { tb with rpcStatePending := value }
  | hardware value => { tb with hardware := value }
  | firmwareHint value => { tb with firmwareHint := value }

/-- `tb_application_status_t`. -/
inductive TbApplicationStatus
  | ok
  | errInvalidArgument
  | errNotInitialized
  | errAlreadyInitialized
  | errClientMismatch
  deriving DecidableEq, Repr

/-- `tb_state_sync_status_t`; `other` is every status the module does not name. -/
inductive TbStateSyncStatus
  | ok
  | errAlreadyInitialized
  | errNoResource
  | other
  deriving DecidableEq, Repr

/-- `tb_state_sync_source_t`; `update` is every source the module does not name. -/
inductive TbStateSyncSource
  | client
  | shared
  | default
  | update
  deriving DecidableEq, Repr

/-- `tb_state_sync_parse_result_t`, with the state a valid payload fills. -/
inductive TbStateSyncParseResult
  | valid (state : LampState)
  | invalid
  | ignored
  deriving DecidableEq

/-- The methods of `s_rpc_methods`. -/
inductive RpcMethod
  | setPower
  | setBrightness
  | setState
  | setColor
  | getState
  deriving DecidableEq, Repr

def RpcMethod.name : RpcMethod → List UInt8
  | setPower => ascii "setPower"
  | setBrightness => ascii "setBrightness"
  | setState => ascii "setState"
  | setColor => ascii "setColor"
  | getState => ascii "getState"

def rpcMethods (build : Build) : List RpcMethod :=
  [.setPower, .setBrightness, .setState] ++ (if build.lampTypeRgb then [.setColor] else []) ++ [.getState]

/-- The component that calls into the lamp. -/
inductive Component
  | tbApplication
  | mqttCfg
  | appMain
  | other
  deriving DecidableEq, Repr

deriving instance DecidableEq for Lamp.Call

inductive Op
  | osalMutexCreate
  | osalMutexTake
  | osalMutexGive
  | load
  | store (s : Store)
  | lamp (caller : Component) (call : Lamp.Call)
  | tbClientIsConnected (client : TbClient)
  | tbAttributesSendJson (client : Option TbClient) (json : List UInt8)
  | tbRpcRespond (client : Option TbClient) (requestId : UInt32) (root : Json)
  | tbStateSyncRespondRpcError (client : Option TbClient) (requestId : UInt32) (error : List UInt8)
      (reason method : Option (List UInt8))
  | tbStateSyncRecordState (state : LampState)
  | tbStateSyncNoteStateChange
  | tbStateSyncInit (client : TbClient)
  | tbStateSyncDeinit
  | tbStateSyncRegisterRpcHandler (method : RpcMethod)
  | tbStateSyncOnConnected (client : TbClient)
  | tbStateSyncOnDisconnected (client : TbClient)
  | tbStateSyncSetOutputSuspended (suspended : Bool)
  | mqttCfg (o : Mqtt.Op)
  deriving DecidableEq

/-- What each operation returns: a lamp call its status and what its output
argument points to afterwards, a mutex creation and a registration whether they succeed. -/
@[reducible] def Res : Op → Type
  | .osalMutexCreate => Bool
  | .load => TbAppModule
  | .lamp _ _ => LampStatus × Option LampAppliedState
  | .tbClientIsConnected _ => Bool
  | .tbStateSyncInit _ => TbStateSyncStatus
  | .tbStateSyncRegisterRpcHandler _ => Bool
  | .mqttCfg o => Mqtt.Res o
  | _ => Unit

abbrev Act := Prog Op Res

/-- One operation. -/
abbrev act (o : Op) : Act (Res o) := .perform o

/-! ## Helpers -/

def tbAppIsConnected : Act Bool := do
  if !(← act .load).connected then return false
  else match (← act .load).client with
    | none => return false
    | some client => act (.tbClientIsConnected client)

def boolText (b : Bool) : List UInt8 := ascii (if b then "true" else "false")

def numberText (n : UInt8) : List UInt8 := ascii (toString n.toNat)

/-- The client attributes of a state. -/
def appliedAttributesJson (build : Build) (applied : LampState) : List UInt8 :=
  ascii "\x7b\"power\":" ++ boolText applied.power ++ ascii ",\"brightness\":" ++ numberText applied.brightnessPercent ++
    (if build.lampTypeRgb then
      ascii ",\"red\":" ++ numberText applied.red ++ ascii ",\"green\":" ++ numberText applied.green ++
        ascii ",\"blue\":" ++ numberText applied.blue
    else []) ++ ascii "\x7d"

def tbAppPublishAppliedAttributes (build : Build) (state : Option LampState) : Act Unit := do
  match state with
  | none => return ()
  | some applied =>
    if ← tbAppIsConnected then
      let json := appliedAttributesJson build applied
      if json.length < 160 then act (.tbAttributesSendJson (← act .load).client json)

def tbAppTelemetrySafeChar (c : UInt8) : Bool :=
  (97 ≤ c && c ≤ 122) || (65 ≤ c && c ≤ 90) || (48 ≤ c && c ≤ 57) || c = 46 || c = 45 || c = 95 || c = 43

def tbAppCopyTelemetryString (src : Option (List UInt8)) (dstSize : Nat) : List UInt8 :=
  (((src.map cstr).getD []).take (dstSize - 1)).takeWhile tbAppTelemetrySafeChar

def tbAppFailOff : Act Unit := do
  let _ ← act (.lamp .tbApplication .forceInactive)
  return ()

/-! ## Applying a desired state -/

/-- The desired state is recorded, under the mutex. -/
def storeApplied (desired : LampState) : Act Unit := do
  act .osalMutexTake
  act (.store (.applied desired))
  act (.store (.hasApplied true))
  act .osalMutexGive

def tbAppApplyState (state : Option LampState) (outputSuspended : Bool) : Act Bool := do
  match state with
  | none => return false
  | some desired =>
    if outputSuspended then
      storeApplied desired
      return true
    else
      let _ ← act (.lamp .tbApplication .releaseFailOff)
      match ← act (.lamp .tbApplication (.applyState (some desired) none)) with
      | (.ok, _) =>
        storeApplied desired
        return true
      | _ =>
        tbAppFailOff
        return false

/-! ## Parsing for the engine -/

def tbAppIsOtaOnlyUpdate (cJsonParse : List UInt8 → Option Json) (json : List UInt8) : Act Bool := do
  if strlen json > TB_APPLICATION_MAX_PAYLOAD_BYTES then return false
  else match cJsonParse json with
    | some (.object members) =>
      let (onlyOta, isFirmware) := otaScan (sharedOrRoot (.object members)).members
      if isFirmware then
        act .osalMutexTake
        act (.store (.firmwareHint true))
        act .osalMutexGive
      return onlyOta
    | _ => return false

def parseResult : Option LampState → TbStateSyncParseResult
  | some state => .valid state
  | none => .invalid

def tbAppParseStateCallback (cJsonParse : List UInt8 → Option Json) (build : Build) (json : Option (List UInt8))
    (source : TbStateSyncSource) : Act TbStateSyncParseResult := do
  match source with
  | .client => return parseResult (tbAppParseStateScope cJsonParse build json (some (ascii "client")))
  | .shared => return parseResult (tbAppParseStateScope cJsonParse build json (some (ascii "shared")))
  | .default => return parseResult (tbAppParseInitialState cJsonParse build json)
  | .update =>
    match json with
    | none => return parseResult (tbAppParseState cJsonParse build none)
    | some json =>
      if ← tbAppIsOtaOnlyUpdate cJsonParse json then return .ignored
      else return parseResult (tbAppParseState cJsonParse build (some json))

/-! ## Server RPC -/

def number (n : UInt8) : Json := .number (.finite n.toNat 0)

def rgbItems (build : Build) (red green blue : UInt8) : List (List UInt8 × Json) :=
  if build.lampTypeRgb then [(ascii "red", number red), (ascii "green", number green), (ascii "blue", number blue)]
  else []

def desiredObject (build : Build) (desired : LampState) : Json :=
  .object ([(ascii "power", .bool desired.power), (ascii "brightness", number desired.brightnessPercent)] ++
    rgbItems build desired.red desired.green desired.blue)

def appliedObject (build : Build) (applied : LampAppliedState) : Json :=
  .object ([(ascii "power", .bool applied.power), (ascii "brightness", number applied.brightnessPercent),
    (ascii "output_active", .bool applied.outputActive)] ++ rgbItems build applied.red applied.green applied.blue)

def tbAppRpcRespond (requestId : UInt32) (root : Json) : Act Unit := do
  act (.tbRpcRespond (← act .load).client requestId root)

def tbAppRpcRespondSuccess (build : Build) (requestId : UInt32) (desired : Option LampState)
    (applied : Option LampAppliedState) : Act Unit :=
  tbAppRpcRespond requestId (.object ([(ascii "success", .bool true)] ++
    (desired.map fun state => (ascii "desired", desiredObject build state)).toList ++
    (applied.map fun state => (ascii "applied", appliedObject build state)).toList))

def tbAppRpcRespondError (requestId : UInt32) (error : String) (reason : Option String) : Act Unit := do
  act (.tbStateSyncRespondRpcError (← act .load).client requestId (ascii error) (reason.map ascii) none)

/-- The new desired state is recorded, and handed to the engine later. -/
def recordDesired (desired : LampState) : Act Unit := do
  act (.store (.applied desired))
  act (.store (.hasApplied true))
  act (.store (.rpcStatePending desired))
  act (.store (.rpcStateChanged true))

def tbAppRpcApplyAndRespond (build : Build) (requestId : UInt32) (desired : LampState) : Act Unit := do
  if (← act .load).outputSuspended then
    recordDesired desired
    tbAppPublishAppliedAttributes build (some desired)
    let (_, applied) ← act (.lamp .tbApplication (.getAppliedState (some .zero)))
    tbAppRpcRespondSuccess build requestId (some desired) applied
  else
    match ← act (.lamp .tbApplication (.applyState (some desired) (some .zero))) with
    | (.ok, applied) =>
      recordDesired desired
      tbAppPublishAppliedAttributes build (some desired)
      tbAppRpcRespondSuccess build requestId (some desired) applied
    | _ => tbAppRpcRespondError requestId "hardware failure" none

/-- What a state of the lamp is as a desired state. -/
def desiredOf (applied : LampAppliedState) : LampState :=
  ⟨applied.power, applied.brightnessPercent, applied.red, applied.green, applied.blue⟩

def tbAppRpcCurrentState : Act (Option LampState) := do
  match ← act (.lamp .tbApplication (.getAppliedState (some .zero))) with
  | (.ok, applied) => return applied.map desiredOf
  | _ => return none

def tbAppRpcHandleSetColor (build : Build) (requestId : UInt32) (params : Json) : Act Unit := do
  match ← tbAppRpcCurrentState with
  | none => tbAppRpcRespondError requestId "hardware failure" none
  | some current =>
    match tbAppRpcParseRgbPartial params current with
    | none => tbAppRpcRespondError requestId "invalid payload" (some "invalid RGB channel")
    | some desired => tbAppRpcApplyAndRespond build requestId desired

def tbAppRpcHandleSetPower (build : Build) (requestId : UInt32) (params : Json) : Act Unit := do
  if !tbAppRpcHasField params (ascii "power") then
    tbAppRpcRespondError requestId "invalid payload" (some "missing power")
  else match tbAppRpcParsePower params with
    | none => tbAppRpcRespondError requestId "invalid payload" (some "wrong type")
    | some power =>
      match ← tbAppRpcCurrentState with
      | none => tbAppRpcRespondError requestId "hardware failure" none
      | some desired => tbAppRpcApplyAndRespond build requestId { desired with power }

def tbAppRpcHandleSetBrightness (build : Build) (requestId : UInt32) (params : Json) : Act Unit := do
  if !tbAppRpcHasField params (ascii "brightness") then
    tbAppRpcRespondError requestId "invalid payload" (some "missing brightness")
  else if !tbAppRpcBrightnessTypeOk params then
    tbAppRpcRespondError requestId "invalid payload" (some "wrong type")
  else match tbAppRpcParseBrightness params with
    | none => tbAppRpcRespondError requestId "invalid payload" (some "out of range")
    | some brightness =>
      match ← tbAppRpcCurrentState with
      | none => tbAppRpcRespondError requestId "hardware failure" none
      | some desired => tbAppRpcApplyAndRespond build requestId { desired with brightnessPercent := brightness }

/-- The colours of a `setState`: unchanged if none is given, else all three. -/
def setStateRgb (build : Build) (params : Json) (desired : LampState) : Option LampState :=
  if build.lampTypeRgb && (tbAppRpcHasField params (ascii "red") || tbAppRpcHasField params (ascii "green") ||
      tbAppRpcHasField params (ascii "blue")) then
    if !tbAppRpcHasField params (ascii "red") || !tbAppRpcHasField params (ascii "green") ||
        !tbAppRpcHasField params (ascii "blue") then none
    else tbAppRpcParseRgb params desired
  else some desired

def tbAppRpcHandleSetState (build : Build) (requestId : UInt32) (params : Json) : Act Unit := do
  if !tbAppRpcHasField params (ascii "power") then
    tbAppRpcRespondError requestId "invalid payload" (some "missing power")
  else if !tbAppRpcHasField params (ascii "brightness") then
    tbAppRpcRespondError requestId "invalid payload" (some "missing brightness")
  else match tbAppRpcParsePower params, tbAppRpcBrightnessTypeOk params with
    | some power, true =>
      match tbAppRpcParseBrightness params with
      | none => tbAppRpcRespondError requestId "invalid payload" (some "out of range")
      | some brightness =>
        let current := (← tbAppRpcCurrentState).getD ⟨false, 0, 255, 255, 255⟩
        match setStateRgb build params { current with power, brightnessPercent := brightness } with
        | none => tbAppRpcRespondError requestId "invalid payload" (some "invalid RGB channel")
        | some desired => tbAppRpcApplyAndRespond build requestId desired
    | _, _ => tbAppRpcRespondError requestId "invalid payload" (some "wrong type")

def tbAppRpcHandleGetState (build : Build) (requestId : UInt32) : Act Unit := do
  match ← act (.lamp .tbApplication (.getAppliedState (some .zero))) with
  | (.ok, applied) =>
    let tb ← act .load
    tbAppRpcRespondSuccess build requestId (if tb.hasApplied then some tb.applied else none) applied
  | _ => tbAppRpcRespondError requestId "hardware failure" none

def RpcMethod.handler (build : Build) (requestId : UInt32) (params : Json) : RpcMethod → Act Unit
  | setPower => tbAppRpcHandleSetPower build requestId params
  | setBrightness => tbAppRpcHandleSetBrightness build requestId params
  | setState => tbAppRpcHandleSetState build requestId params
  | setColor => tbAppRpcHandleSetColor build requestId params
  | getState => tbAppRpcHandleGetState build requestId

/-- `tb_app_on_server_rpc` once the handler has run. -/
def rpcFinish : Act Unit := do
  let stateChanged := (← act .load).rpcStateChanged
  let pendingState := (← act .load).rpcStatePending
  let publishTelemetry := !(← act .load).outputSuspended
  act (.store (.rpcStateChanged false))
  act .osalMutexGive
  if stateChanged then
    act (.tbStateSyncRecordState pendingState)
    if publishTelemetry then act .tbStateSyncNoteStateChange

/-- Whether requests are served: the module is initialized and connected. -/
def rpcServed : Act Bool := do
  if !(← act .load).initialized then return false
  else tbAppIsConnected

def tbAppOnServerRpc (cJsonParse : List UInt8 → Option Json) (build : Build) (entry : RpcMethod)
    (paramsJson : List UInt8) (requestId : UInt32) : Act Unit := do
  act .osalMutexTake
  act (.store (.rpcStateChanged false))
  if !(← rpcServed) then act .osalMutexGive
  else match cJsonParse paramsJson with
    | none =>
      tbAppRpcRespondError requestId "invalid payload" (some "malformed json")
      act .osalMutexGive
    | some (.object members) =>
      entry.handler build requestId (.object members)
      rpcFinish
    | some _ =>
      tbAppRpcRespondError requestId "invalid payload" (some "wrong type")
      act .osalMutexGive

/-! ## Lifecycle -/

/-- `tb_application_config_t`, as far as the module itself reads it. -/
structure TbApplicationConfig where
  client : Option TbClient
  rssiDbm : Bool
  hardware : Option (List UInt8)
  deriving DecidableEq

/-- The registration loop of `tb_application_init`. -/
def registerRpcHandlers : List RpcMethod → TbStateSyncStatus → Act TbStateSyncStatus
  | [], status => return status
  | method :: methods, status => do
    if status ≠ .ok then return status
    else if ← act (.tbStateSyncRegisterRpcHandler method) then registerRpcHandlers methods .ok
    else registerRpcHandlers methods .errNoResource

/-- `tb_application_init` once the mutex exists. -/
def initLocked (build : Build) (config : TbApplicationConfig) (client : TbClient) : Act TbApplicationStatus := do
  act .osalMutexTake
  if (← act .load).initialized then
    act .osalMutexGive
    return .errAlreadyInitialized
  else
    act (.store (.client (some client)))
    act (.store (.rssiFn config.rssiDbm))
    act (.store (.hardware (tbAppCopyTelemetryString config.hardware (TB_APPLICATION_HARDWARE_MAX_LEN + 1))))
    act (.store (.connected false))
    act (.store (.outputSuspended false))
    act (.store (.applied LampState.zero))
    act (.store (.hasApplied false))
    act (.store (.rpcStateChanged false))
    act (.store (.firmwareHint false))
    act (.store (.initialized true))
    act .osalMutexGive
    let syncStatus ← act (.tbStateSyncInit client)
    let syncStatus ← registerRpcHandlers (rpcMethods build) syncStatus
    if syncStatus ≠ .ok then
      act .tbStateSyncDeinit
      act .osalMutexTake
      act (.store (.initialized false))
      act (.store (.client none))
      act .osalMutexGive
      return if syncStatus = .errAlreadyInitialized then .errAlreadyInitialized else .errNotInitialized
    else return .ok

def tbApplicationInit (build : Build) (config : Option TbApplicationConfig) : Act TbApplicationStatus := do
  match config with
  | none => return .errInvalidArgument
  | some config =>
    match config.client with
    | none => return .errInvalidArgument
    | some client =>
      if (← act .load).lock then initLocked build config client
      else if ← act .osalMutexCreate then initLocked build config client
      else return .errNotInitialized

def tbApplicationDeinit : Act Unit := do
  if (← act .load).lock then
    act .tbStateSyncDeinit
    act .osalMutexTake
    act (.store (.initialized false))
    act (.store (.connected false))
    act (.store (.outputSuspended false))
    act (.store (.client none))
    act .osalMutexGive

/-- `tb_application_on_connected` and `_on_disconnected`: the flag is set for the
module's own client, and the engine told. -/
def setConnected (client : Option TbClient) (connected : Bool) (tell : TbClient → Act Unit) : Act Unit := do
  match client with
  | none => return ()
  | some client =>
    act .osalMutexTake
    let tb ← act .load
    if !tb.initialized || tb.client ≠ some client then act .osalMutexGive
    else
      act (.store (.connected connected))
      act .osalMutexGive
      tell client

def tbApplicationOnConnected (client : Option TbClient) : Act Unit :=
  setConnected client true fun client => act (.tbStateSyncOnConnected client)

def tbApplicationOnDisconnected (client : Option TbClient) : Act Unit :=
  setConnected client false fun client => act (.tbStateSyncOnDisconnected client)

def tbApplicationTakeFirmwareHint : Act Bool := do
  if (← act .load).lock then
    act .osalMutexTake
    let tb ← act .load
    act (.store (.firmwareHint false))
    act .osalMutexGive
    return tb.initialized && tb.firmwareHint
  else return false

def tbApplicationSetOutputSuspended (suspended : Bool) : Act Unit := do
  if (← act .load).lock then
    act .osalMutexTake
    let tb ← act .load
    if !tb.initialized || tb.outputSuspended = suspended then act .osalMutexGive
    else
      act (.store (.outputSuspended suspended))
      act .osalMutexGive
      act (.tbStateSyncSetOutputSuspended suspended)

/-! ## Other components on the same lamp -/

/-- The state `ota_on_indicator` shows. -/
def indicatorState (build : Build) (on : Bool) : LampState := ⟨on, build.otaBlinkBrightnessPercent, 255, 255, 255⟩

def otaOnIndicator (build : Build) (on : Bool) : Act Unit := do
  let _ ← act (.lamp .appMain .releaseFailOff)
  let _ ← act (.lamp .appMain (.applyState (some (indicatorState build on)) none))
  return ()

/-- A step of `mqtt_cfg` here: its calls into the lamp reach the lamp. -/
def ofMqttCfg : (o : Mqtt.Op) → Act (Mqtt.Res o)
  | .lampControlForceInactive => do return (← act (.lamp .mqttCfg .forceInactive)).1
  | .lampControlReleaseFailOff => do return (← act (.lamp .mqttCfg .releaseFailOff)).1
  | o => act (.mqttCfg o)

def mqttCfgOnDisconnect : Act Unit := Mqtt.mqttCfgOnDisconnect.hoist ofMqttCfg

end LedLamp.TbApplication
