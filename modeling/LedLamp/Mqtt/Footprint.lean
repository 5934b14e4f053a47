import LedLamp.Mqtt.System
/-!
# Which steps each call takes

The footprint of each program. It settles every promise that only speaks of
steps a program never takes, so that a proof about one call need not follow the
others.
-/

namespace LedLamp.Mqtt

open Conc Lamp

/-- The steps of `mqtt_cfg_read_file`. -/
def Op.byReadFile : Op → Bool
  | .osalStat _ | .osalOpenCreate _ | .osalRead _ | .osalClose | .malloc _ => true
  | _ => false

/-- The steps of `mqtt_cfg_validate` and `mqtt_cfg_load`. -/
def Op.byLoad : Op → Bool
  | .lock | .unlock | .writeVerifiedApplied false | .mqttConfigInvalidateVerified | .lampControlForceInactive
  | .osalStat _ | .osalOpenCreate _ | .osalRead _ | .osalClose | .malloc _ => true
  | _ => false

/-- The steps of `mqtt_cfg_apply`. -/
def Op.byApply : Op → Bool
  | .storeGen g value => g = .apply ∨ value = 0
  | .lock | .unlock | .loadGen .apply
  | .store .waitingForConnection false | .writeVerifiedApplied _ | .mqttConfigInvalidateVerified
  | .mqttAppIsConnected | .lampControlForceInactive | .mqttAppDeinit | .deviceIdentityToken
  | .mqttConfigApplyVerified _ => true
  | _ => false

/-- The steps of `mqtt_cfg_connect`. -/
def Op.byConnect : Op → Bool
  | .lock | .unlock | .loadGen _ | .storeGen .connected 0 | .load .connectFailed | .load .authRejected
  | .store .waitingForConnection _ | .store .connectFailed false | .store .authRejected false
  | .readVerifiedApplied | .writeVerifiedApplied false | .lampControlForceInactive | .lampControlReleaseFailOff
  | .mqttAppIsConnected | .mqttAppInit | .mqttAppDeinit | .mqttAppSetSafetyCallbacks
  | .mqttConfigVerifiedIsCurrent | .mqttConfigGetVerifiedServerUrl | .osalTaskDelayMs _ => true
  | _ => false

/-- The steps of the ways a connect fails, under the lock and after it. -/
def Op.byFailure : Op → Bool
  | .unlock | .storeGen .connected 0 | .load .authRejected | .store .waitingForConnection false
  | .writeVerifiedApplied false | .lampControlForceInactive | .mqttAppDeinit => true
  | _ => false

theorem byFailure_byConnect {o : Op} (h : o.byFailure = true) : o.byConnect = true := by
  unfold Op.byFailure at h
  split at h <;> first | rfl | cases h

/-- The steps of `mqtt_cfg_on_connect`. -/
def Op.byOnConnect : Op → Bool
  | .load .waitingForConnection | .loadGen .apply | .storeGen .connected _ => true
  | _ => false

/-- The steps of `mqtt_cfg_on_disconnect`. -/
def Op.byOnDisconnect : Op → Bool
  | .store .waitingForConnection false | .storeGen .connected 0 | .lampControlForceInactive => true
  | _ => false

/-- The steps of `mqtt_cfg_on_connect_failure` for a reason. -/
def Op.byOnConnectFailure (reason : MqttConnectFailureReason) : Op → Bool
  | .store .authRejected value => value = decide (reason = .authRejected)
  | .lock | .unlock | .writeVerifiedApplied false => reason = .configRejected
  | .store .waitingForConnection false | .storeGen .connected 0 | .store .connectFailed true
  | .lampControlForceInactive => true
  | _ => false

/-- The steps of the transport callbacks. -/
def Op.byCallback : Op → Bool
  | .lock | .unlock | .loadGen .apply | .storeGen .connected _ | .load .waitingForConnection
  | .store .waitingForConnection false | .store .connectFailed true | .store .authRejected _
  | .writeVerifiedApplied false | .lampControlForceInactive => true
  | _ => false

/-- The steps of each call. -/
def Op.by (o : Op) : Call → Bool
  | .validate _ | .load _ => o.byLoad
  | .apply _ => o.byApply
  | .loadAndApply _ => o.byLoad || o.byApply
  | .connect _ => o.byConnect
  | .onConnect => o.byOnConnect
  | .onDisconnect => o.byOnDisconnect
  | .onConnectFailure reason => o.byOnConnectFailure reason

/-! ## Validate and load -/

theorem mqttCfgValidate_uses (cfg : Option MqttCfg) : (mqttCfgValidate cfg).Uses (·.byLoad) := by
  unfold mqttCfgValidate
  refine ⟨rfl, fun _ => ?_⟩
  dsimp only
  split
  · exact ⟨rfl, fun _ => ⟨rfl, fun _ => ⟨rfl, fun _ => ⟨rfl, fun _ => trivial⟩⟩⟩⟩
  · exact ⟨rfl, fun _ => trivial⟩

theorem loadFail_uses (status : MqttCfgStatus) (out : Option MqttCfg) : (loadFail status out).Uses (·.byLoad) :=
  ⟨rfl, fun _ => ⟨rfl, fun _ => ⟨rfl, fun _ => ⟨rfl, fun _ => ⟨rfl, fun _ => trivial⟩⟩⟩⟩⟩

theorem mqttCfgReadFile_uses (path : List UInt8) (maxLen : Nat) : (mqttCfgReadFile path maxLen).Uses (·.byReadFile) := by
  unfold mqttCfgReadFile
  simp only [Prog.perform_bind, Prog.uses_op]
  refine ⟨rfl, fun size => ?_⟩
  cases size with
  | none => trivial
  | some fileSize =>
    dsimp only
    split
    · trivial
    · refine ⟨rfl, fun opened => ?_⟩
      cases opened with
      | false => trivial
      | true =>
        refine ⟨rfl, fun allocated => ?_⟩
        cases allocated with
        | false => exact ⟨rfl, fun _ => trivial⟩
        | true => exact ⟨rfl, fun _ => ⟨rfl, fun _ => trivial⟩⟩

theorem byReadFile_byLoad {o : Op} (h : o.byReadFile = true) : o.byLoad = true := by
  unfold Op.byReadFile at h
  split at h <;> first | rfl | cases h

theorem mqttCfgLoad_uses (parse : List UInt8 → Option Json) (out : Option MqttCfg) :
    (mqttCfgLoad parse out).Uses (·.byLoad) := by
  unfold mqttCfgLoad
  cases out with
  | none => exact loadFail_uses _ _
  | some cfg =>
    refine ((mqttCfgReadFile_uses _ _).mono fun _ => byReadFile_byLoad).bind fun content => ?_
    cases content with
    | none =>
      refine ⟨rfl, fun size => ?_⟩
      cases size <;> exact loadFail_uses _ _
    | some json =>
      dsimp only
      split
      · exact loadFail_uses _ _
      · trivial

/-! ## Apply -/

theorem applyFail_uses (status : MqttCfgStatus) : (applyFail status).Uses (·.byApply) :=
  ⟨rfl, fun _ => ⟨rfl, fun _ => trivial⟩⟩

theorem applyVerified_uses (cfg : MqttCfg) (token : Option (List UInt8)) :
    (applyVerified cfg token).Uses (·.byApply) := by
  unfold applyVerified
  split
  · exact applyFail_uses _
  · refine ⟨rfl, fun status => ?_⟩
    cases status with
    | ok => exact ⟨rfl, fun _ => ⟨rfl, fun _ => trivial⟩⟩
    | caError => exact applyFail_uses _
    | clientCertError => exact applyFail_uses _
    | error => exact applyFail_uses _

theorem applyLocked_uses (cfg : MqttCfg) : (applyLocked cfg).Uses (·.byApply) := by
  unfold applyLocked
  simp only [Prog.perform_bind]
  split
  · refine ⟨rfl, fun token => ?_⟩
    dsimp only
    split
    · split
      · exact applyFail_uses _
      · exact applyVerified_uses _ _
    · exact applyFail_uses _
  · exact applyVerified_uses _ _

theorem applyBegin_uses : applyBegin.Uses (·.byApply) :=
  ⟨rfl, fun _ => ⟨rfl, fun _ => ⟨rfl, fun _ => ⟨rfl, fun _ => ⟨rfl, fun _ => ⟨rfl, fun _ => ⟨rfl, fun _ => trivial⟩⟩⟩⟩⟩⟩⟩

theorem applyRest_uses (cfg : Option MqttCfg) : (applyRest cfg).Uses (·.byApply) := by
  unfold applyRest
  refine ⟨rfl, fun _ => ⟨rfl, fun _ => ?_⟩⟩
  cases cfg with
  | none => exact applyFail_uses _
  | some cfg =>
    dsimp only
    split
    · exact applyFail_uses _
    · exact applyLocked_uses _

theorem mqttCfgApply_uses (cfg : Option MqttCfg) : (mqttCfgApply cfg).Uses (·.byApply) := by
  unfold mqttCfgApply
  refine applyBegin_uses.bind fun _ => ⟨rfl, fun _ => ⟨rfl, fun connected => ?_⟩⟩
  cases connected with
  | false => exact ⟨rfl, fun _ => applyRest_uses cfg⟩
  | true => exact ⟨rfl, fun _ => ⟨rfl, fun _ => applyRest_uses cfg⟩⟩

/-! ## Connect -/

theorem connectRefuse_uses : connectRefuse.Uses (·.byFailure) :=
  ⟨rfl, fun _ => ⟨rfl, fun _ => ⟨rfl, fun _ => ⟨rfl, fun _ => trivial⟩⟩⟩⟩

theorem pollRefuse_uses : pollRefuse.Uses (·.byFailure) :=
  ⟨rfl, fun _ => ⟨rfl, fun _ => ⟨rfl, fun _ => ⟨rfl, fun _ => ⟨rfl, fun _ => ⟨rfl, fun _ => trivial⟩⟩⟩⟩⟩⟩

theorem pollFailed_uses : pollFailed.Uses (·.byFailure) := ⟨rfl, fun _ => ⟨rfl, fun _ => trivial⟩⟩

/-- The failure branch returns one of two errors, by the reject flag it reads. -/
theorem pollFailed_yields {P : MqttCfgStatus → Prop} (hauth : P .errAuthRejected) (hconnect : P .errConnect) :
    pollFailed.Yields P := by
  intro rejected _
  cases rejected
  · exact hconnect
  · exact hauth

theorem pollTimeout_uses : pollTimeout.Uses (·.byFailure) :=
  ⟨rfl, fun _ => ⟨rfl, fun _ => ⟨rfl, fun _ => ⟨rfl, fun _ => trivial⟩⟩⟩⟩

theorem connectBegin_uses : connectBegin.Uses (·.byConnect) :=
  ⟨rfl, fun _ => ⟨rfl, fun _ => ⟨rfl, fun _ => ⟨rfl, fun _ => ⟨rfl, fun _ => ⟨rfl, fun _ => trivial⟩⟩⟩⟩⟩⟩

theorem pollConnected_uses (applyGen connectedGen : UInt32) : (pollConnected applyGen connectedGen).Uses (·.byConnect) := by
  unfold pollConnected
  split
  · exact ⟨rfl, fun _ => trivial⟩
  · trivial

theorem failure_connects {α : Type} {p : Act α} (h : p.Uses (·.byFailure)) : p.Uses (·.byConnect) :=
  h.mono fun _ => byFailure_byConnect

theorem pollOnce_uses (timeoutMs waited : UInt32) {again : Act MqttCfgStatus} (h : again.Uses (·.byConnect)) :
    (pollOnce timeoutMs waited again).Uses (·.byConnect) := by
  unfold pollOnce
  refine ⟨rfl, fun _ => ⟨rfl, fun applyGen => ⟨rfl, fun connectedGen => ⟨rfl, fun connectFailed => ?_⟩⟩⟩⟩
  refine (pollConnected_uses _ _).bind fun connected => ⟨rfl, fun current => ?_⟩
  dsimp only
  split
  · refine ⟨rfl, fun latch => ?_⟩
    show Prog.Uses _ (if (latch && current) = true then pollAccept else pollRefuse)
    split
    · exact ⟨rfl, fun _ => ⟨rfl, fun _ => ⟨rfl, fun _ => trivial⟩⟩⟩
    · exact failure_connects pollRefuse_uses
  · split
    · exact failure_connects pollFailed_uses
    · split
      · exact failure_connects pollTimeout_uses
      · exact h

theorem pollLoop_uses (timeoutMs : UInt32) (fuel : Nat) (waited : UInt32) :
    (pollLoop timeoutMs fuel waited).Uses (·.byConnect) := by
  induction fuel generalizing waited with
  | zero => exact pollOnce_uses _ _ (failure_connects pollTimeout_uses)
  | succ fuel ih => exact pollOnce_uses _ _ ⟨rfl, fun _ => ⟨rfl, fun _ => ih _⟩⟩

theorem connectStart_uses (timeoutMs : UInt32) : (connectStart timeoutMs).Uses (·.byConnect) :=
  ⟨rfl, fun _ => connectBegin_uses.bind fun _ => ⟨rfl, fun _ => ⟨rfl, fun _ => pollLoop_uses _ _ _⟩⟩⟩

theorem mqttCfgConnect_uses (timeoutMs : UInt32) : (mqttCfgConnect timeoutMs).Uses (·.byConnect) := by
  unfold mqttCfgConnect
  refine ⟨rfl, fun _ => ⟨rfl, fun latch => ?_⟩⟩
  cases latch with
  | false => exact failure_connects connectRefuse_uses
  | true =>
    refine ⟨rfl, fun current => ?_⟩
    cases current with
    | false => exact ⟨rfl, fun _ => failure_connects connectRefuse_uses⟩
    | true =>
      refine ⟨rfl, fun url => ?_⟩
      cases url with
      | none => exact ⟨rfl, fun _ => failure_connects connectRefuse_uses⟩
      | some url => exact ⟨rfl, fun _ => connectStart_uses timeoutMs⟩

/-! ## Callbacks -/

theorem mqttCfgOnConnect_uses : mqttCfgOnConnect.Uses (·.byOnConnect) := by
  refine ⟨rfl, fun waiting => ?_⟩
  cases waiting with
  | false => trivial
  | true => exact ⟨rfl, fun _ => ⟨rfl, fun _ => trivial⟩⟩

theorem mqttCfgOnDisconnect_uses : mqttCfgOnDisconnect.Uses (·.byOnDisconnect) :=
  ⟨rfl, fun _ => ⟨rfl, fun _ => ⟨rfl, fun _ => trivial⟩⟩⟩

theorem mqttCfgOnConnectFailure_uses (reason : MqttConnectFailureReason) :
    (mqttCfgOnConnectFailure reason).Uses (·.byOnConnectFailure reason) := by
  unfold mqttCfgOnConnectFailure
  refine ⟨rfl, fun _ => ⟨rfl, fun _ => ⟨rfl, fun _ => ⟨by simp [Op.byOnConnectFailure], fun _ => ?_⟩⟩⟩⟩
  dsimp only
  split
  · rename_i hreason
    subst hreason
    exact ⟨rfl, fun _ => ⟨rfl, fun _ => ⟨rfl, fun _ => ⟨rfl, fun _ => trivial⟩⟩⟩⟩
  · exact ⟨rfl, fun _ => trivial⟩

/-! ## Calls -/

variable (parse : List UInt8 → Option Json)

theorem mqttCfgLoadAndApply_uses {P : Op → Prop} (hload : ∀ o, o.byLoad → P o) (happly : ∀ o, o.byApply → P o)
    (cfg : MqttCfg) : (mqttCfgLoadAndApply parse cfg).Uses P := by
  unfold mqttCfgLoadAndApply
  refine ((mqttCfgLoad_uses parse _).mono hload).bind fun result => ?_
  split
  · exact (mqttCfgApply_uses _).mono happly
  · trivial

theorem body_uses (c : Call) : (body parse c).Uses (·.by c) := by
  cases c with
  | validate cfg => exact (mqttCfgValidate_uses cfg).bind fun _ => trivial
  | load out => exact (mqttCfgLoad_uses parse out).bind fun _ => trivial
  | apply cfg => exact (mqttCfgApply_uses cfg).bind fun _ => trivial
  | loadAndApply cfg =>
    exact (mqttCfgLoadAndApply_uses parse (fun o ho => by simp [Op.by, ho]) (fun o ho => by simp [Op.by, ho]) cfg).bind
      fun _ => trivial
  | connect timeoutMs => exact (mqttCfgConnect_uses timeoutMs).bind fun _ => trivial
  | onConnect => exact mqttCfgOnConnect_uses.bind fun _ => trivial
  | onDisconnect => exact mqttCfgOnDisconnect_uses.bind fun _ => trivial
  | onConnectFailure reason => exact (mqttCfgOnConnectFailure_uses reason).bind fun _ => trivial

/-! ## Which call a step belongs to -/

/-- Thread `t` starts a call. -/
def isCall (t : Tid) : Entry → Bool
  | (t', .call _) => t' = t
  | _ => false

theorem isCall_did (t t' : Tid) (o : Op) (r : Res o) : isCall t (t', .did o r) = false := rfl

theorem isCall_other {t t' : Tid} (ht : t' ≠ t) (e : Event) : isCall t (t', e) = false := by
  unfold isCall
  split
  · rename_i heq; cases heq; simpa using ht
  · rfl

/-- What happened since the start of `t`'s call stays so while others go on. -/
theorem stable_since {K Φ : Promise} {t : Tid} {P : Entry → List Entry → Prop} :
    Stable (system parse) Boot K Φ t fun m => Since (fun e => !isCall t e) P m.trace :=
  fun t' e _ _ ht _ _ h => h.later (by simp [isCall_other ht e])

/-- Thread `t` performs `o`, whatever the result. -/
def isDid (t : Tid) (o : Op) : Entry → Bool
  | (t', .did o' _) => t' = t && o' = o
  | _ => false

@[simp] theorem isDid_did (t t' : Tid) (o o' : Op) (r : Res o') :
    isDid t o (t', .did o' r) = (decide (t' = t) && decide (o' = o)) := rfl

@[simp] theorem isDid_call (t t' : Tid) (o : Op) (c : Call) : isDid t o (t', .call c) = false := rfl

@[simp] theorem isDid_ret (t t' : Tid) (o : Op) (s : Ret) : isDid t o (t', .ret s) = false := rfl

theorem isDid_other {t t' : Tid} (ht : t' ≠ t) (o : Op) (e : Event) : isDid t o (t', e) = false := by
  cases e <;> simp [ht]

/-- A thread performs `o`, whatever the result. -/
def isOp (o : Op) : Entry → Bool
  | (_, .did o' _) => o' = o
  | _ => false

@[simp] theorem isOp_did (t : Tid) (o o' : Op) (r : Res o') : isOp o (t, .did o' r) = decide (o' = o) := rfl

/-- The call of `t` has performed `o`. -/
def Did (t : Tid) (o : Op) : List Entry → Prop := Since (fun e => !isCall t e) fun e _ => isDid t o e = true

instance (t : Tid) (o : Op) (tr : List Entry) : Decidable (Did t o tr) := inferInstanceAs (Decidable (Since _ _ _))

section Did
variable {t t' : Tid} {o o' : Op} {past : List Entry}

theorem did_now (r : Res o) : Did t o ((t, .did o r) :: past) := .now (by simp)

theorem did_call (c : Call) : ¬ Did t o ((t, .call c) :: past) := by
  rintro (h | ⟨h, -⟩)
  · simp at h
  · simp [isCall] at h

theorem did_skip (ho : o' ≠ o) (r : Res o') : Did t o ((t, .did o' r) :: past) ↔ Did t o past :=
  since_skip (by simp [isCall_did]) (by simp [ho])

theorem did_other (ht : t' ≠ t) (e : Event) : Did t o ((t', e) :: past) ↔ Did t o past :=
  since_skip (by simp [isCall_other ht]) (by simp [isDid_other ht])

end Did

/-- Thread `t` is in the call `c`, a callback if it is the transport's. -/
structure InCall (t : Tid) (c : Call) (m : Moment) : Prop where
  lastCall : lastCall t m.trace = some c
  isCallback : c.isCallback = decide (t = .transport)
  callback : t = .transport → m.world.callback = some c

/-- Every step is one of the call its thread is in, and a thread that starts a call
is at rest. -/
def Footprint : Promise := fun t e m =>
  match e with
  | .call _ => Idle t m.trace
  | .did o _ => ∃ c, InCall t c m ∧ o.by c = true
  | .ret _ => ∃ c, InCall t c m

theorem byOnConnect_byCallback {o : Op} (h : o.byOnConnect = true) : o.byCallback = true := by
  unfold Op.byOnConnect at h
  split at h <;> first | rfl | cases h

theorem byOnDisconnect_byCallback {o : Op} (h : o.byOnDisconnect = true) : o.byCallback = true := by
  unfold Op.byOnDisconnect at h
  split at h <;> first | rfl | cases h

theorem byOnConnectFailure_byCallback {reason : MqttConnectFailureReason} {o : Op}
    (h : o.byOnConnectFailure reason = true) : o.byCallback = true := by
  unfold Op.byOnConnectFailure at h
  split at h <;> first | rfl | cases h

theorem Footprint.callback {o : Op} {r : Res o} {m : Moment} (h : Footprint .transport (.did o r) m) :
    o.byCallback = true := by
  obtain ⟨c, hc, ho⟩ := h
  have hcb := hc.isCallback
  cases c with
  | onConnect => exact byOnConnect_byCallback ho
  | onDisconnect => exact byOnDisconnect_byCallback ho
  | onConnectFailure reason => exact byOnConnectFailure_byCallback ho
  | _ => simp [Call.isCallback] at hcb

theorem Footprint.task {t : Tid} {o : Op} {r : Res o} {m : Moment} (h : Footprint t (.did o r) m)
    (ht : t ≠ .transport) : o.byLoad = true ∨ o.byApply = true ∨ o.byConnect = true := by
  obtain ⟨c, ⟨-, hc, -⟩, ho⟩ := h
  rw [decide_eq_false ht] at hc
  cases c with
  | validate cfg => exact .inl ho
  | load out => exact .inl ho
  | apply cfg => exact .inr (.inl ho)
  | loadAndApply cfg =>
    rcases Bool.or_eq_true _ _ ▸ ho with h | h
    · exact .inl h
    · exact .inr (.inl h)
  | connect timeoutMs => exact .inr (.inr ho)
  | _ => cases hc

theorem happens {parse : List UInt8 → Option Json} {K Φ : Promise} {t : Tid} {e : Event} {m : Moment} {w : World}
    (hd : Does (system parse) Boot K Φ t e m w) : effect t e m.world = some w := hd.effect

theorem changes {parse : List UInt8 → Option Json} {K Φ : Promise} {t : Tid} {e : Event} {m : Moment} {w : World}
    (hd : Does (system parse) Boot K Φ t e m w) : Changes t e m.world w := effect_changes hd.effect

theorem stable_inCall {parse : List UInt8 → Option Json} {K Φ : Promise} {t : Tid} {c : Call} :
    Stable (system parse) Boot K Φ t (InCall t c) := by
  intro t' e m w ht hd hp h
  refine ⟨(lastCall_other ht e).trans h.lastCall, h.isCallback, ?_⟩
  rintro rfl
  rcases (changes hd).callback with e' | ⟨e', -⟩ | ⟨e', -⟩
  · exact e'.trans (h.callback rfl)
  · exact absurd e' ht
  · exact absurd e' ht

/-- A thread stays in its call whatever it does there. -/
theorem InCall.did {parse : List UInt8 → Option Json} {K Φ : Promise} {t : Tid} {c : Call} {o : Op} {r : Res o}
    {m : Moment} {w : World} (h : InCall t c m) (hd : Does (system parse) Boot K Φ t (.did o r) m w) :
    InCall t c (m.after t (.did o r) w) := by
  refine ⟨(lastCall_did o r).trans h.lastCall, h.isCallback, fun ht => ?_⟩
  rcases (changes hd).callback with e' | ⟨-, _, e', -⟩ | ⟨-, _, e', -⟩
  · exact e'.trans (h.callback ht)
  · cases e'
  · cases e'

/-- A call begins. -/
theorem inCall_call {parse : List UInt8 → Option Json} {K Φ : Promise} {t : Tid} {c : Call} {m : Moment} {w : World}
    (hd : Does (system parse) Boot K Φ t (.call c) m w) : InCall t c (m.after t (.call c) w) := by
  rcases effect_call hd.effect with ⟨ht, hc, rfl⟩ | ⟨ht, hc, rfl⟩
  · simp only [World.callsBack, Bool.and_eq_true] at hc
    exact ⟨lastCall_call t c _, by simp [ht, hc.1.1], fun _ => rfl⟩
  · exact ⟨lastCall_call t c _, by simp [ht, hc], fun h => absurd h ht⟩

/-- Each thread takes only the steps of its own calls. -/
theorem footprint : Established (system parse) Boot Footprint := by
  have hf : ∀ t c, Fulfils (system parse) Boot Sequential Footprint t c := by
    intro t c
    have huses : (body parse c).Uses (Keeps (system parse) Boot Sequential Footprint t (InCall t c)) :=
      (body_uses parse c).mono fun o ho m r w hd h => ⟨⟨c, h, ho⟩, h.did hd⟩
    exact Fulfils.of_triple (InCall t c) (fun _ => InCall t c) (fun m w hd => ⟨hd.known c rfl, inCall_call hd⟩)
      (Triple.uses stable_inCall huses) (fun _ => stable_inCall) fun _ _ _ _ h => ⟨c, h⟩
  intro c t e c' hr hs
  exact (established established_sequential hf c t e c' hr hs).2

end LedLamp.Mqtt
