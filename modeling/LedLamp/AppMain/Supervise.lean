import LedLamp.AppMain.Gate
import LedLamp.AppMain.FactoryReset
/-!
# The supervisor loop of `app_main.c`

One pass of the loop polls the factory reset button, feeds the watchdog by
`app_state_poll`, and serves the state that the machine is in. The machine itself and the
other components are input: a pass is given what they answer, and what it asks of them is
written to `trace`, newest first. Only one state is served in a pass, so a field of
`PassAnswers` serves each state that asks for it. Logging is left out, and of the callbacks
of `ota_manager` all but the restart.

A restart ends the run: the functions that may restart the device return whether it
still runs.
-/

namespace LedLamp.AppMain

def APP_SUPERVISE_PERIOD_MS : Nat := 50
def NETWORK_CONNECT_TIMEOUT_MS : Nat := 30000
def NETWORK_WAIT_POLL_INTERVAL_MS : Nat := 50
def FACTORY_RESET_BLINK_COUNT : Nat := 3
def FACTORY_RESET_BLINK_MS : Nat := 150

/-- The build options of the supervisor, in their declared ranges. -/
structure SuperviseKconfig extends Kconfig where
  thingsboardProvisionTimeoutMs : Nat
  factoryResetEnable : Bool
  thresholdRange : 1 ≤ authRejectReprovisionThreshold ∧ authRejectReprovisionThreshold ≤ 10
  backoffRange : 1000 ≤ reprovisionBackoffMs ∧ reprovisionBackoffMs ≤ 86400000
  timeoutRange : 5000 ≤ thingsboardProvisionTimeoutMs ∧ thingsboardProvisionTimeoutMs ≤ 60000

/-- `app_state_t`. -/
inductive AppState
  | boot
  | filesystem
  | configuration
  | network
  | provisioning
  | tls
  | sync
  | online
  | safeOff
  | fatal
  | ota
  deriving DecidableEq, Repr

/-- `app_state_event_t`, as far as the supervisor delivers it. -/
inductive AppEvent
  | fsOk
  | fsFail
  | configOk
  | configFail
  | networkConnected
  | networkFailed
  | provisioningStarted
  | provisioningSucceeded
  | provisioningFailed
  | tlsConnected
  | tlsFailed
  | syncComplete
  | disconnected
  deriving DecidableEq, Repr

/-- `app_transition_owner_t`, as far as the supervisor uses it. -/
inductive AppOwner
  | filesystem
  | configuration
  | network
  | mqtt
  | thingsboard
  deriving DecidableEq, Repr

/-- `wifi_provisioning_manager_event_t`. -/
inductive ProvisioningEvent
  | none
  | started
  | succeeded
  | failed
  deriving DecidableEq, Repr

/-- What the supervisor asks of other components; `gate` is what its gates ask. -/
inductive SuperviseEvent
  | appStatePoll
  | appStateDeliver (event : AppEvent) (owner : AppOwner)
  | osalTaskDelayMs (ms : Nat)
  | gate (e : Event)
  | serviceThingsboardConnection
  | lampControlReleaseFailOff
  | lampControlApplyState (power : Bool)
  | lampControlForceInactive
  | lampFsInit
  | networkManagerEraseCredentials
  | networkManagerStart
  | networkManagerReconnect
  | mongooseProcessInit
  | wifiProvisioningManagerInit
  | wifiProvisioningManagerStop
  | tbApplicationPoll
  | otaManagerRequestImageConfirmation
  | otaManagerRequestCheck
  | otaManagerPoll
  | espRestart
  deriving DecidableEq

/-- The variables of the module that the loop uses, and the trace. -/
structure Supervisor where
  gates : Statics
  networkBringupDone : Bool
  lastReported : AppState
  trace : List SuperviseEvent
  deriving DecidableEq

namespace Supervisor

def boot : Supervisor := ⟨.boot, false, .boot, []⟩

def did (w : Supervisor) (e : SuperviseEvent) : Supervisor := { w with trace := e :: w.trace }

/-- A call of a gate; what it adds to the trace of the gates goes to this one too. -/
def gate (call : Statics → Bool × Statics) (w : Supervisor) : Bool × Supervisor :=
  let (passed, s) := call w.gates
  let events := s.trace.take (s.trace.length - w.gates.trace.length)
  (passed, { w with gates := s, trace := events.map .gate ++ w.trace })

@[simp] theorem did_gates (w : Supervisor) (e : SuperviseEvent) : (w.did e).gates = w.gates := rfl
@[simp] theorem did_trace (w : Supervisor) (e : SuperviseEvent) : (w.did e).trace = e :: w.trace := rfl

end Supervisor

/-! ## The factory reset button -/

/-- What `factory_reset_poll` does. A hold triggers one erase, which asks for the Wi-Fi
credentials and clears the state directory; only after an erase that succeeds the
component restarts the device. -/
inductive FactoryResetPoll
  | idle
  | triggered (networkManagerEraseCredentials : Bool) (storage : Storage)

/-- What one `poll_factory_reset` is answered. -/
structure ResetAnswers where
  state : AppState
  poll : FactoryResetPoll

/-- One round of the loop of `factory_reset_blink`. -/
def blinkRound (w : Supervisor) : Supervisor :=
  (((w.did (.lampControlApplyState true)).did (.osalTaskDelayMs FACTORY_RESET_BLINK_MS)).did
    (.lampControlApplyState false)).did (.osalTaskDelayMs FACTORY_RESET_BLINK_MS)

def factoryResetBlink (w : Supervisor) : Supervisor :=
  blinkRound^[FACTORY_RESET_BLINK_COUNT] (w.did .lampControlReleaseFailOff)

def factoryResetErase (eraseCredentials : Bool) (storage : Storage) (w : Supervisor) : Bool × Supervisor :=
  let w := ((factoryResetBlink w).did .lampControlForceInactive).did .networkManagerEraseCredentials
  if !eraseCredentials then (false, w) else ((factoryResetClearStateDir storage).1, w)

/-- An update in progress is not interrupted. -/
def pollFactoryReset (k : SuperviseKconfig) (a : ResetAnswers) (w : Supervisor) : Bool × Supervisor :=
  if !k.factoryResetEnable || a.state = .ota then (true, w)
  else match a.poll with
    | .idle => (true, w)
    | .triggered eraseCredentials storage =>
      let (erased, w) := factoryResetErase eraseCredentials storage w
      if erased then (false, w.did .espRestart) else (true, w)

/-! ## The network gate -/

/-- The pump of the provisioning events, over the answers of its rounds: the state and,
if that is asked for, the event. After them there is no event left. -/
def deliverProvisioningEvents : List (AppState × ProvisioningEvent) → Supervisor → Supervisor
  | [], w => w
  | (state, event) :: rest, w =>
    if state ≠ .network ∧ state ≠ .provisioning then w
    else match event with
      | .started =>
        -- a duplicate at the provisioning gate is dropped
        if state ≠ .network then deliverProvisioningEvents rest w
        else deliverProvisioningEvents rest (w.did (.appStateDeliver .provisioningStarted .network))
      | .succeeded => deliverProvisioningEvents rest (w.did (.appStateDeliver .provisioningSucceeded .network))
      | .failed => deliverProvisioningEvents rest (w.did (.appStateDeliver .provisioningFailed .network))
      | .none => w

/-- One round of the network gate that finds no connection. -/
structure NetworkRound where
  reset : ResetAnswers
  provisioning : List (AppState × ProvisioningEvent)
  state : AppState

/-- `supervise_network_gate` from the time waited on; after these rounds the network is
connected. -/
def superviseNetworkGate (k : SuperviseKconfig) : List NetworkRound → (waitedMs : Nat) → Supervisor → Bool × Supervisor
  | [], _, w => (true, w)
  | a :: rest, waitedMs, w =>
    if waitedMs ≥ NETWORK_CONNECT_TIMEOUT_MS then (true, w)
    else
      let (runs, w) := pollFactoryReset k a.reset (w.did .appStatePoll)
      if !runs then (false, w)
      else
        let w := deliverProvisioningEvents a.provisioning w
        if a.state ≠ .network then (true, w)
        else superviseNetworkGate k rest (waitedMs + NETWORK_WAIT_POLL_INTERVAL_MS)
          (w.did (.osalTaskDelayMs NETWORK_WAIT_POLL_INTERVAL_MS))

/-! ## One pass -/

/-- What one pass is answered. -/
structure PassAnswers where
  reset : ResetAnswers
  provisioning : List (AppState × ProvisioningEvent)
  appStateCurrent : AppState
  lampFsInit : Bool
  configuration : ConfigurationAnswers
  networkManagerStart : Bool
  hasSavedCredentials : Bool
  rounds : List NetworkRound
  networkManagerIsConnected : Bool
  appStateAfter : AppState
  osalTaskGetTimeMs : UInt32
  gate : GateAnswers
  isSynchronized : Bool
  firmwareHint : Bool
  otaRestarts : Bool
  retryExhausted : Bool

def superviseFilesystem (a : PassAnswers) (w : Supervisor) : Supervisor :=
  (w.did .lampFsInit).did (.appStateDeliver (if a.lampFsInit then .fsOk else .fsFail) .filesystem)

def superviseConfiguration (a : PassAnswers) (w : Supervisor) : Supervisor :=
  let (loaded, w) := w.gate (loadConfiguration a.configuration)
  w.did (.appStateDeliver (if loaded then .configOk else .configFail) .configuration)

/-- The first entry of the network gate starts the network. -/
def bringUpNetwork (a : PassAnswers) (w : Supervisor) : Bool × Supervisor :=
  if w.networkBringupDone then (true, w)
  else
    let w := { w with networkBringupDone := true }.did .networkManagerStart
    if !a.networkManagerStart then (false, w.did (.appStateDeliver .networkFailed .network))
    else (true, (w.did .mongooseProcessInit).did .wifiProvisioningManagerInit)

def superviseNetwork (k : SuperviseKconfig) (a : PassAnswers) (w : Supervisor) : Bool × Supervisor :=
  let (up, w) := bringUpNetwork a w
  if !up || !a.hasSavedCredentials then (true, w)
  else
    let (runs, w) := superviseNetworkGate k a.rounds 0 (w.did .networkManagerReconnect)
    if !runs then (false, w)
    -- the portal may have taken over during the wait
    else if a.appStateAfter ≠ .network then (true, w)
    else (true, w.did
      (.appStateDeliver (if a.networkManagerIsConnected then .networkConnected else .networkFailed) .network))

def superviseTls (k : SuperviseKconfig) (a : PassAnswers) (w : Supervisor) : Supervisor :=
  if backoffRunning a.osalTaskGetTimeMs w.gates then w
  else
    let (connected, w) := w.gate (connectVerifiedTls k.toKconfig a.gate)
    w.did (.appStateDeliver (if connected then .tlsConnected else .tlsFailed) .mqtt)

def superviseSync (a : PassAnswers) (w : Supervisor) : Supervisor :=
  let w := w.did .tbApplicationPoll
  if !a.isSynchronized then w
  else ((w.did (.appStateDeliver .syncComplete .thingsboard)).did .otaManagerRequestImageConfirmation).did
    .otaManagerRequestCheck

/-- `ota_manager_poll`; the manager may restart the device. -/
def pollOtaManager (a : PassAnswers) (w : Supervisor) : Bool × Supervisor :=
  let w := w.did .otaManagerPoll
  if a.otaRestarts then (false, w.did .espRestart) else (true, w)

def superviseOnline (a : PassAnswers) (w : Supervisor) : Bool × Supervisor :=
  let w := w.did .tbApplicationPoll
  let (runs, w) := pollOtaManager a (if a.firmwareHint then w.did .otaManagerRequestCheck else w)
  if !runs then (false, w)
  else if a.appStateAfter ≠ .online then (true, w)
  else (true, if !a.networkManagerIsConnected then w.did (.appStateDeliver .disconnected .network) else w)

/-- A parked device restarts once the backoff of the enrolment is over. -/
def superviseSafeOff (a : PassAnswers) (w : Supervisor) : Bool × Supervisor :=
  if w.gates.reprovisionBackoffActive && a.retryExhausted &&
      (a.osalTaskGetTimeMs - w.gates.reprovisionRetryAtMs).toInt32 ≥ 0 then (false, w.did .espRestart)
  else (true, w)

def superviseOta (a : PassAnswers) (w : Supervisor) : Bool × Supervisor :=
  let w := if a.appStateCurrent ≠ w.lastReported then w.did .wifiProvisioningManagerStop else w
  pollOtaManager a (w.did .tbApplicationPoll)

/-- The `switch` of `supervise_iteration`. -/
def serveState (k : SuperviseKconfig) (a : PassAnswers) (w : Supervisor) : Bool × Supervisor :=
  match a.appStateCurrent with
  | .filesystem => (true, superviseFilesystem a w)
  | .configuration => (true, superviseConfiguration a w)
  | .network => superviseNetwork k a w
  | .tls => (true, superviseTls k a w)
  | .sync => (true, superviseSync a w)
  | .online => superviseOnline a w
  | .safeOff => superviseSafeOff a w
  | .fatal => (true, w.did .wifiProvisioningManagerStop)
  | .ota => superviseOta a w
  | .provisioning | .boot => (true, w)

/-- `supervise_iteration` from its feed to the `switch`. -/
def feed (a : PassAnswers) (w : Supervisor) : Supervisor :=
  deliverProvisioningEvents a.provisioning ((w.did .appStatePoll).did .serviceThingsboardConnection)

def superviseIteration (k : SuperviseKconfig) (a : PassAnswers) (w : Supervisor) : Bool × Supervisor :=
  let (runs, w) := pollFactoryReset k a.reset w
  if !runs then (false, w)
  else
    let (runs, w) := serveState k a (feed a w)
    -- a fatal state returns before it is noted
    (runs, if a.appStateCurrent = .fatal then w else { w with lastReported := a.appStateCurrent })

/-- The body of the loop of `supervise`. -/
def supervisePass (k : SuperviseKconfig) (a : PassAnswers) (w : Supervisor) : Bool × Supervisor :=
  let (runs, w) := superviseIteration k a w
  if !runs then (false, w) else (true, w.did (.osalTaskDelayMs APP_SUPERVISE_PERIOD_MS))

/-- The first passes of the loop, and whether the device still runs after them. -/
def supervise (k : SuperviseKconfig) : List PassAnswers → Supervisor → Bool × Supervisor
  | [], w => (true, w)
  | a :: rest, w =>
    let (runs, w) := supervisePass k a w
    if !runs then (false, w) else supervise k rest w

/-! ## The gates it runs -/

variable {k : SuperviseKconfig} {w : Supervisor}

theorem blinkRounds_gates (n : Nat) : (blinkRound^[n] w).gates = w.gates := by
  induction n with
  | zero => rfl
  | succ n ih =>
    rw [Function.iterate_succ_apply', blinkRound]
    simpa only [Supervisor.did_gates] using ih

@[simp] theorem factoryResetBlink_gates : (factoryResetBlink w).gates = w.gates := by
  rw [factoryResetBlink, blinkRounds_gates, Supervisor.did_gates]

@[simp] theorem pollFactoryReset_gates (a : ResetAnswers) : (pollFactoryReset k a w).2.gates = w.gates := by
  unfold pollFactoryReset factoryResetErase
  split
  · rfl
  · split
    · rfl
    · dsimp only
      split_ifs <;> simp

@[simp] theorem deliverProvisioningEvents_gates (events : List (AppState × ProvisioningEvent)) :
    (deliverProvisioningEvents events w).gates = w.gates := by
  induction events generalizing w with
  | nil => rfl
  | cons e events ih =>
    obtain ⟨state, event⟩ := e
    unfold deliverProvisioningEvents
    split
    · rfl
    · split
      · split
        · exact ih
        · rw [ih, Supervisor.did_gates]
      · rw [ih, Supervisor.did_gates]
      · rw [ih, Supervisor.did_gates]
      · rfl

@[simp] theorem superviseNetworkGate_gates (rounds : List NetworkRound) (waitedMs : Nat) :
    (superviseNetworkGate k rounds waitedMs w).2.gates = w.gates := by
  induction rounds generalizing waitedMs w with
  | nil => rfl
  | cons a rounds ih =>
    unfold superviseNetworkGate
    split
    · rfl
    · dsimp only
      split
      · simp
      · split
        · simp
        · simp [ih]

@[simp] theorem bringUpNetwork_gates (a : PassAnswers) : (bringUpNetwork a w).2.gates = w.gates := by
  unfold bringUpNetwork
  split
  · rfl
  · dsimp only
    split <;> rfl

/-- Only the configuration gate and the TLS gate set the variables of the gates. -/
theorem serveState_gates (a : PassAnswers) :
    ∃ calls : List Call, (serveState k a w).2.gates = run k.toKconfig calls w.gates := by
  have same : ∀ {r : Supervisor}, r.gates = w.gates → ∃ calls : List Call, r.gates = run k.toKconfig calls w.gates :=
    fun h => ⟨[], h⟩
  unfold serveState
  split
  · exact same rfl
  · exact ⟨[.loadConfiguration a.configuration], rfl⟩
  · refine same ?_
    unfold superviseNetwork
    dsimp only
    split
    · simp
    · split
      · simp
      · split <;> simp
  · unfold superviseTls
    dsimp only
    split
    · exact same rfl
    · exact ⟨[.connectVerifiedTls a.gate], rfl⟩
  · refine same ?_
    unfold superviseSync
    dsimp only
    split <;> rfl
  · refine same ?_
    unfold superviseOnline pollOtaManager
    dsimp only
    split_ifs <;> rfl
  · refine same ?_
    unfold superviseSafeOff
    split <;> rfl
  · exact same rfl
  · refine same ?_
    unfold superviseOta pollOtaManager
    dsimp only
    split_ifs <;> rfl
  · exact same rfl
  · exact same rfl

@[simp] theorem feed_gates (a : PassAnswers) : (feed a w).gates = w.gates := by simp [feed]

theorem superviseIteration_gates (a : PassAnswers) :
    ∃ calls : List Call, (superviseIteration k a w).2.gates = run k.toKconfig calls w.gates := by
  unfold superviseIteration
  dsimp only
  split
  · exact ⟨[], pollFactoryReset_gates a.reset⟩
  · obtain ⟨calls, h⟩ := serveState_gates (k := k) (w := feed a (pollFactoryReset k a.reset w).2) a
    rw [feed_gates, pollFactoryReset_gates] at h
    refine ⟨calls, ?_⟩
    split <;> exact h

theorem supervisePass_gates (a : PassAnswers) :
    ∃ calls : List Call, (supervisePass k a w).2.gates = run k.toKconfig calls w.gates := by
  obtain ⟨calls, h⟩ := superviseIteration_gates (k := k) (w := w) a
  refine ⟨calls, ?_⟩
  unfold supervisePass
  dsimp only
  split <;> exact h

theorem run_append (k : Kconfig) (calls calls' : List Call) (s : Statics) :
    run k (calls ++ calls') s = run k calls' (run k calls s) := List.foldl_append

/-- The gates of a run of the supervisor are a run of the gates. -/
theorem supervise_gates (passes : List PassAnswers) :
    ∃ calls : List Call, (supervise k passes w).2.gates = run k.toKconfig calls w.gates := by
  induction passes generalizing w with
  | nil => exact ⟨[], rfl⟩
  | cons a passes ih =>
    obtain ⟨calls, h⟩ := supervisePass_gates (k := k) (w := w) a
    unfold supervise
    dsimp only
    split
    · exact ⟨calls, h⟩
    · obtain ⟨calls', h'⟩ := ih (w := (supervisePass k a w).2)
      exact ⟨calls ++ calls', by rw [h', h, run_append]⟩

end LedLamp.AppMain
