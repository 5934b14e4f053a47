import LedLamp.TbApplication.System
/-!
# Which steps each call takes

The footprint of each program: which calls into the lamp it makes, and whether it
raises the flag of a request. It settles every promise that only speaks of steps a program never takes.
-/

namespace LedLamp.TbApplication

open Conc Lamp
open Mqtt (Tid)

/-- A step that any call may take: no call into the lamp, no raise of the flag. -/
def Op.isPlain : Op → Bool
  | .lamp _ _ | .store (.rpcStateChanged true) => false
  | _ => true

/-- A read of `s_tb`, or of the client. -/
def Op.isRead : Op → Bool
  | .load | .tbClientIsConnected _ => true
  | _ => false

/-- A read, or the publication of the client attributes. -/
def Op.isPublish : Op → Bool
  | .load | .tbClientIsConnected _ | .tbAttributesSendJson _ _ => true
  | _ => false

/-- The steps of the RPC handlers. -/
def Op.byHandler : Op → Bool
  | .load | .tbClientIsConnected _ | .tbAttributesSendJson _ _ | .tbRpcRespond _ _ _
  | .tbStateSyncRespondRpcError _ _ _ _ _ | .lamp .tbApplication (.applyState _ _)
  | .lamp .tbApplication (.getAppliedState _) | .store (.applied _) | .store (.hasApplied _)
  | .store (.rpcStatePending _) | .store (.rpcStateChanged true) => true
  | _ => false

/-- The steps of the end of a request. -/
def Op.atFinish : Op → Bool
  | .load | .store (.rpcStateChanged false) | .osalMutexGive | .tbStateSyncRecordState _ | .tbStateSyncNoteStateChange => true
  | _ => false

/-- The steps of a request. -/
def Op.byRequest : Op → Bool
  | .osalMutexTake => true
  | o => o.byHandler || o.atFinish

/-- The steps of an apply. -/
def Op.byApply : Op → Bool
  | .osalMutexTake | .osalMutexGive | .store (.applied _) | .store (.hasApplied _)
  | .lamp .tbApplication .releaseFailOff | .lamp .tbApplication (.applyState _ _) | .lamp .tbApplication .forceInactive => true
  | _ => false

/-- The steps of a change of the connection or of the suspension. -/
def Op.bySignal : Op → Bool
  | .osalMutexTake | .osalMutexGive | .load | .store (.connected _) | .store (.outputSuspended _)
  | .tbStateSyncOnConnected _ | .tbStateSyncOnDisconnected _ | .tbStateSyncSetOutputSuspended _ => true
  | _ => false

def Op.isRegistration : Op → Bool
  | .tbStateSyncRegisterRpcHandler _ => true
  | _ => false

theorem isRead_isPublish {o : Op} (h : o.isRead = true) : o.isPublish = true := by
  cases o <;> first | rfl | cases h

theorem isPublish_byHandler {o : Op} (h : o.isPublish = true) : o.byHandler = true := by
  cases o <;> first | rfl | cases h

theorem byHandler_byRequest {o : Op} (h : o.byHandler = true) : o.byRequest = true := by
  unfold Op.byHandler at h
  split at h <;> first | rfl | cases h

theorem atFinish_byRequest {o : Op} (h : o.atFinish = true) : o.byRequest = true := by
  unfold Op.atFinish at h
  split at h <;> first | rfl | cases h

theorem byRequest_cases {o : Op} (h : o.byRequest = true) : o = .osalMutexTake ∨ o.byHandler = true ∨ o.atFinish = true := by
  unfold Op.byRequest at h
  split at h
  · exact .inl rfl
  · exact .inr (Bool.or_eq_true_iff.1 h)

theorem bySignal_isPlain {o : Op} (h : o.bySignal = true) : o.isPlain = true := by
  unfold Op.bySignal at h
  split at h <;> first | rfl | cases h

theorem isRegistration_isPlain {o : Op} (h : o.isRegistration = true) : o.isPlain = true := by
  cases o <;> first | rfl | cases h

theorem tbAppIsConnected_uses : tbAppIsConnected.Uses (·.isRead) := by
  unfold tbAppIsConnected
  refine .perform rfl fun tb => ?_
  split
  · trivial
  · refine .perform rfl fun tb => ?_
    split
    · trivial
    · exact ⟨rfl, fun _ => trivial⟩

theorem tbAppPublishAppliedAttributes_uses (build : Build) (state : Option LampState) :
    (tbAppPublishAppliedAttributes build state).Uses (·.isPublish) := by
  unfold tbAppPublishAppliedAttributes
  cases state with
  | none => trivial
  | some applied =>
    refine (tbAppIsConnected_uses.mono fun _ => isRead_isPublish).bind fun connected => ?_
    split
    · dsimp only
      split
      · exact ⟨rfl, fun _ => ⟨rfl, fun _ => trivial⟩⟩
      · trivial
    · trivial

theorem rpcServed_uses : rpcServed.Uses (·.isRead) := by
  refine .perform rfl fun tb => ?_
  split
  · trivial
  · exact tbAppIsConnected_uses

/-! ## The calls into the lamp -/

section Lamp
variable (cJsonParse : List UInt8 → Option Json) (build : Build)

theorem plain_of {α : Type} {p : Act α} (h : p.Uses (·.isPlain)) (c : Call) : p.Uses (Op.of c · = true) := by
  refine h.mono fun o ho => ?_
  unfold Op.of
  split
  · cases ho
  · cases ho
  · rfl

theorem publish_of {α : Type} {p : Act α} (h : p.Uses (·.isPublish)) (c : Call) : p.Uses (Op.of c · = true) :=
  h.mono fun o ho => by cases o <;> first | rfl | cases ho

theorem storeApplied_uses (desired : LampState) : (storeApplied desired).Uses (·.byApply) :=
  ⟨rfl, fun _ => ⟨rfl, fun _ => ⟨rfl, fun _ => ⟨rfl, fun _ => trivial⟩⟩⟩⟩

theorem tbAppApplyState_uses (state : Option LampState) (outputSuspended : Bool) :
    (tbAppApplyState state outputSuspended).Uses (·.byApply) := by
  have hstore : ∀ desired, ((storeApplied desired).bind fun _ => .ret true).Uses (·.byApply) :=
    fun desired => (storeApplied_uses desired).bind fun _ => trivial
  unfold tbAppApplyState
  split
  · trivial
  · split
    · exact hstore _
    · refine .perform rfl fun _ => .perform rfl fun answer => ?_
      split
      · exact hstore _
      · exact ⟨rfl, fun _ => trivial⟩

theorem apply_of {α : Type} {p : Act α} (h : p.Uses (·.byApply)) (state : Option LampState) (outputSuspended : Bool) :
    p.Uses (Op.of (.applyState state outputSuspended) · = true) := by
  refine h.mono fun o ho => ?_
  unfold Op.byApply at ho
  split at ho <;> first | rfl | cases ho

theorem tbAppIsOtaOnlyUpdate_uses (json : List UInt8) : (tbAppIsOtaOnlyUpdate cJsonParse json).Uses (·.isPlain) := by
  unfold tbAppIsOtaOnlyUpdate
  split
  · trivial
  · split
    · dsimp only
      split
      · exact ⟨rfl, fun _ => ⟨rfl, fun _ => ⟨rfl, fun _ => trivial⟩⟩⟩
      · trivial
    · trivial

theorem tbAppParseStateCallback_uses (json : Option (List UInt8)) (source : TbStateSyncSource) :
    (tbAppParseStateCallback cJsonParse build json source).Uses (·.isPlain) := by
  unfold tbAppParseStateCallback
  cases source with
  | update =>
    cases json with
    | none => trivial
    | some json =>
      refine (tbAppIsOtaOnlyUpdate_uses cJsonParse json).bind fun onlyOta => ?_
      split <;> trivial
  | _ => trivial

theorem registerRpcHandlers_uses (methods : List RpcMethod) (status : TbStateSyncStatus) :
    (registerRpcHandlers methods status).Uses (·.isRegistration) := by
  induction methods generalizing status with
  | nil => trivial
  | cons method methods ih =>
    unfold registerRpcHandlers
    split
    · trivial
    · refine .perform rfl fun registered => ?_
      split <;> exact ih _

theorem initLocked_uses (config : TbApplicationConfig) (client : TbClient) :
    (initLocked build config client).Uses (·.isPlain) := by
  unfold initLocked
  refine .perform rfl fun _ => .perform rfl fun tb => ?_
  split
  · exact ⟨rfl, fun _ => trivial⟩
  · refine .perform rfl fun _ => .perform rfl fun _ => .perform rfl fun _ => .perform rfl fun _ => .perform rfl fun _ => .perform rfl fun _ => ?_
    refine .perform rfl fun _ => .perform rfl fun _ => .perform rfl fun _ => .perform rfl fun _ => .perform rfl fun _ => .perform rfl fun status => ?_
    refine ((registerRpcHandlers_uses _ _).mono fun _ => isRegistration_isPlain).bind fun status => ?_
    split
    · exact ⟨rfl, fun _ => ⟨rfl, fun _ => ⟨rfl, fun _ => ⟨rfl, fun _ => ⟨rfl, fun _ => trivial⟩⟩⟩⟩⟩
    · trivial

theorem tbApplicationInit_uses (config : Option TbApplicationConfig) :
    (tbApplicationInit build config).Uses (·.isPlain) := by
  unfold tbApplicationInit
  split
  · trivial
  · split
    · trivial
    · refine .perform rfl fun tb => ?_
      split
      · exact initLocked_uses build _ _
      · refine .perform rfl fun created => ?_
        split
        · exact initLocked_uses build _ _
        · trivial

theorem tbApplicationDeinit_uses : tbApplicationDeinit.Uses (·.isPlain) := by
  refine .perform rfl fun tb => ?_
  split
  · exact ⟨rfl, fun _ => ⟨rfl, fun _ => ⟨rfl, fun _ => ⟨rfl, fun _ => ⟨rfl, fun _ => ⟨rfl, fun _ => ⟨rfl, fun _ => trivial⟩⟩⟩⟩⟩⟩⟩
  · trivial

theorem setConnected_uses (client : Option TbClient) (connected : Bool) {tell : TbClient → Act Unit}
    (htell : ∀ client, (tell client).Uses (·.bySignal)) : (setConnected client connected tell).Uses (·.bySignal) := by
  unfold setConnected
  split
  · trivial
  · refine .perform rfl fun _ => .perform rfl fun tb => ?_
    split
    · exact ⟨rfl, fun _ => trivial⟩
    · exact ⟨rfl, fun _ => ⟨rfl, fun _ => htell _⟩⟩

theorem tbApplicationOnConnected_uses (client : Option TbClient) :
    (tbApplicationOnConnected client).Uses (·.bySignal) := setConnected_uses client true fun _ => ⟨rfl, fun _ => trivial⟩

theorem tbApplicationOnDisconnected_uses (client : Option TbClient) :
    (tbApplicationOnDisconnected client).Uses (·.bySignal) := setConnected_uses client false fun _ => ⟨rfl, fun _ => trivial⟩

theorem tbApplicationTakeFirmwareHint_uses : tbApplicationTakeFirmwareHint.Uses (·.isPlain) := by
  refine .perform rfl fun tb => ?_
  split
  · exact ⟨rfl, fun _ => ⟨rfl, fun _ => ⟨rfl, fun _ => ⟨rfl, fun _ => trivial⟩⟩⟩⟩
  · trivial

theorem tbApplicationSetOutputSuspended_uses (suspended : Bool) :
    (tbApplicationSetOutputSuspended suspended).Uses (·.bySignal) := by
  refine .perform rfl fun tb => ?_
  split
  · refine .perform rfl fun _ => .perform rfl fun tb => ?_
    split
    · exact ⟨rfl, fun _ => trivial⟩
    · exact ⟨rfl, fun _ => ⟨rfl, fun _ => ⟨rfl, fun _ => trivial⟩⟩⟩
  · trivial

/-! ### Server RPC -/

variable (requestId : UInt32) (params : Json)

theorem tbAppRpcRespond_uses (root : Json) : (tbAppRpcRespond requestId root).Uses (·.byHandler) :=
  ⟨rfl, fun _ => ⟨rfl, fun _ => trivial⟩⟩

theorem tbAppRpcRespondError_uses (error : String) (reason : Option String) :
    (tbAppRpcRespondError requestId error reason).Uses (·.byHandler) := ⟨rfl, fun _ => ⟨rfl, fun _ => trivial⟩⟩

theorem recordDesired_uses (desired : LampState) : (recordDesired desired).Uses (·.byHandler) :=
  ⟨rfl, fun _ => ⟨rfl, fun _ => ⟨rfl, fun _ => ⟨rfl, fun _ => trivial⟩⟩⟩⟩

theorem tbAppRpcApplyAndRespond_uses (desired : LampState) :
    (tbAppRpcApplyAndRespond build requestId desired).Uses (·.byHandler) := by
  have hpublish := (tbAppPublishAppliedAttributes_uses build (some desired)).mono fun _ => isPublish_byHandler
  unfold tbAppRpcApplyAndRespond
  refine .perform rfl fun tb => ?_
  split
  · refine (recordDesired_uses desired).bind fun _ => hpublish.bind fun _ => .perform rfl fun answer => ?_
    exact tbAppRpcRespond_uses _ _
  · refine .perform rfl fun answer => ?_
    split
    · exact (recordDesired_uses desired).bind fun _ => hpublish.bind fun _ => tbAppRpcRespond_uses _ _
    · exact tbAppRpcRespondError_uses _ _ _

theorem tbAppRpcCurrentState_uses : tbAppRpcCurrentState.Uses (·.byHandler) := by
  refine .perform rfl fun answer => ?_
  split <;> trivial

theorem tbAppRpcHandleGetState_uses : (tbAppRpcHandleGetState build requestId).Uses (·.byHandler) := by
  refine .perform rfl fun answer => ?_
  split
  · exact .perform rfl fun tb => tbAppRpcRespond_uses _ _
  · exact tbAppRpcRespondError_uses _ _ _

/-- A handler refuses, or applies one state made of the params and what the lamp shows, or
reports the state. -/
theorem handler_cases {P : Act Unit → Prop} (entry : RpcMethod)
    (refuse : ∀ error reason, P (tbAppRpcRespondError requestId error reason))
    (apply : ∀ desired, P (tbAppRpcApplyAndRespond build requestId desired))
    (current : ∀ rest : Option LampState → Act Unit, (∀ current, P (rest current)) → P (tbAppRpcCurrentState >>= rest))
    (report : P (tbAppRpcHandleGetState build requestId)) : P (entry.handler build requestId params) := by
  cases entry with
  | setPower =>
    simp only [RpcMethod.handler, tbAppRpcHandleSetPower]
    split
    · exact refuse _ _
    split
    · exact refuse _ _
    refine current _ fun current => ?_
    split
    · exact refuse _ _
    · exact apply _
  | setBrightness =>
    simp only [RpcMethod.handler, tbAppRpcHandleSetBrightness]
    split
    · exact refuse _ _
    split
    · exact refuse _ _
    split
    · exact refuse _ _
    refine current _ fun current => ?_
    split
    · exact refuse _ _
    · exact apply _
  | setState =>
    simp only [RpcMethod.handler, tbAppRpcHandleSetState]
    split
    · exact refuse _ _
    split
    · exact refuse _ _
    split
    · split
      · exact refuse _ _
      refine current _ fun current => ?_
      split
      · exact refuse _ _
      · exact apply _
    · exact refuse _ _
  | setColor =>
    simp only [RpcMethod.handler, tbAppRpcHandleSetColor]
    refine current _ fun current => ?_
    split
    · exact refuse _ _
    split
    · exact refuse _ _
    · exact apply _
  | getState => exact report

theorem handler_uses (entry : RpcMethod) : (entry.handler build requestId params).Uses (·.byHandler) :=
  handler_cases build requestId params entry (tbAppRpcRespondError_uses requestId)
    (tbAppRpcApplyAndRespond_uses build requestId) (fun _ => tbAppRpcCurrentState_uses.bind)
    (tbAppRpcHandleGetState_uses build requestId)

theorem rpcFinish_uses : rpcFinish.Uses (·.atFinish) := by
  refine .perform rfl fun changed => .perform rfl fun pending => .perform rfl fun suspended => ?_
  refine .perform rfl fun _ => .perform rfl fun _ => ?_
  split
  · refine .perform rfl fun _ => ?_
    split
    · exact ⟨rfl, fun _ => trivial⟩
    · trivial
  · trivial

theorem tbAppOnServerRpc_uses (entry : RpcMethod) (paramsJson : List UInt8) :
    (tbAppOnServerRpc cJsonParse build entry paramsJson requestId).Uses (·.byRequest) := by
  have handled : ∀ {α : Type} {p : Act α}, p.Uses (·.byHandler) → p.Uses (·.byRequest) := fun h =>
    h.mono fun _ => byHandler_byRequest
  have hserved := handled (rpcServed_uses.mono fun _ h => isPublish_byHandler (isRead_isPublish h))
  unfold tbAppOnServerRpc
  refine .perform rfl fun _ => .perform rfl fun _ => hserved.bind fun served => ?_
  split
  · exact ⟨rfl, fun _ => trivial⟩
  · split
    · exact (handled (tbAppRpcRespondError_uses _ _ _)).bind fun _ => ⟨rfl, fun _ => trivial⟩
    · exact (handled (handler_uses _ _ _ _)).bind fun _ => rpcFinish_uses.mono fun _ => atFinish_byRequest
    · exact (handled (tbAppRpcRespondError_uses _ _ _)).bind fun _ => ⟨rfl, fun _ => trivial⟩

theorem request_of {α : Type} {p : Act α} (h : p.Uses (·.byRequest)) (entry : RpcMethod) (paramsJson : List UInt8)
    (requestId : UInt32) : p.Uses (Op.of (.onServerRpc entry paramsJson requestId) · = true) := by
  refine h.mono fun o ho => ?_
  rcases byRequest_cases ho with rfl | ho | ho
  · rfl
  · unfold Op.byHandler at ho
    split at ho <;> first | rfl | cases ho
  · unfold Op.atFinish at ho
    split at ho <;> first | rfl | cases ho

end Lamp

/-! ## Calls -/

theorem mqttCfgOnDisconnect_uses : mqttCfgOnDisconnect.Uses (Op.of .mqttCfgOnDisconnect · = true) :=
  ⟨rfl, fun _ => ⟨rfl, fun _ => ⟨rfl, fun _ => trivial⟩⟩⟩

theorem body_uses (cJsonParse : List UInt8 → Option Json) (build : Build) (c : Call) :
    (body cJsonParse build c).Uses (Op.of c · = true) := by
  cases c with
  | init config => exact (plain_of (tbApplicationInit_uses build config) _).bind fun _ => trivial
  | deinit => exact (plain_of tbApplicationDeinit_uses _).bind fun _ => trivial
  | onConnected client =>
    exact (plain_of ((tbApplicationOnConnected_uses client).mono fun _ => bySignal_isPlain) _).bind fun _ => trivial
  | onDisconnected client =>
    exact (plain_of ((tbApplicationOnDisconnected_uses client).mono fun _ => bySignal_isPlain) _).bind fun _ => trivial
  | setOutputSuspended suspended =>
    exact (plain_of ((tbApplicationSetOutputSuspended_uses suspended).mono fun _ => bySignal_isPlain) _).bind fun _ => trivial
  | takeFirmwareHint => exact (plain_of tbApplicationTakeFirmwareHint_uses _).bind fun _ => trivial
  | parseState json source =>
    exact (plain_of (tbAppParseStateCallback_uses cJsonParse build json source) _).bind fun _ => trivial
  | applyState state outputSuspended =>
    exact (apply_of (tbAppApplyState_uses state outputSuspended) _ _).bind fun _ => trivial
  | publishAppliedAttributes state =>
    exact (publish_of (tbAppPublishAppliedAttributes_uses build state) _).bind fun _ => trivial
  | onServerRpc entry paramsJson requestId =>
    exact (request_of (tbAppOnServerRpc_uses cJsonParse build requestId entry paramsJson) _ _ _).bind fun _ => trivial
  | otaOnIndicator on => exact ⟨rfl, fun _ => ⟨rfl, fun _ => trivial⟩⟩
  | mqttCfgOnDisconnect => exact mqttCfgOnDisconnect_uses.bind fun _ => trivial
  | transportConnected => trivial
  | lampControl call => exact ⟨by simp [Op.of, Call.drives], fun _ => trivial⟩

/-- The calls into the lamp are those of the calls they belong to. -/
theorem footprint (cJsonParse : List UInt8 → Option Json) (build : Build) :
    Established (system cJsonParse build) Boot (Within fun c o => Op.of c o = true) :=
  established_within (body_uses cJsonParse build)

end LedLamp.TbApplication
