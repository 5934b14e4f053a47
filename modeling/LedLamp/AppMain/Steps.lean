import LedLamp.AppMain.Supervise
import LedLamp.Conc.Exec
/-!
# The supervisor loop, step by step

`Supervise` is given what a whole pass is answered. Here the same functions are programs: each
call into another component is a step, other threads come between, and what a call is
answered is the result of its step. The provisioning adapter's FIFO is part of the world, since
a thread of the Wi-Fi manager fills it while the supervisor empties it, and so are the
callbacks of `ota_manager_poll`, which `Supervise` leaves out.

A call whose answer is used is a `tell` of it and an `ask` for the answer; one whose
answer is not used is a `tell` alone. `esp_restart` does not return. Logging is left out.
-/

namespace LedLamp.AppMain.Steps

open Conc

inductive Tid
  | supervisor
  | wifi
  deriving DecidableEq

/-- The calls that are asked for an answer, and the variables the loop reads. -/
inductive Question
  | appStateCurrent
  | factoryResetPoll
  | wifiProvisioningManagerPollEvent
  | lampFsInit
  | loadConfiguration
  | connectVerifiedTls
  | networkManagerStart
  | networkManagerIsConnected
  | hasSavedCredentials
  | osalTaskGetTimeMs
  | isSynchronized
  | takeFirmwareHint
  | otaManagerPoll
  | retryExhausted
  | networkBringupDone
  | lastReported
  | reprovisionBackoff
  deriving DecidableEq

/-- The callbacks of `ota_manager`. -/
inductive OtaCallback
  | started
  | failed
  | restarting
  | indicator (on : Bool)
  | restart
  deriving DecidableEq

/-- What the callbacks of `ota_manager` call. -/
inductive OtaStep
  | setOutputSuspended (suspended : Bool)
  | deliverBegin
  | deliverFailed
  | deliverEnd
  | lampControlReleaseFailOff
  | lampControlApplyState (power : Bool)
  deriving DecidableEq

/-- `hang` never comes to an end. -/
inductive Op
  | tell (e : SuperviseEvent)
  | ask (q : Question)
  | ota (step : OtaStep)
  | setNetworkBringupDone
  | setLastReported (state : AppState)
  | push (event : ProvisioningEvent)
  | hang
  deriving DecidableEq

/-- A gate is answered what it asks in turn, and passes or not; the backoff is whether it
runs and until when; a push finds room or not. -/
@[reducible] def Res : Op → Type
  | .ask .appStateCurrent | .ask .lastReported => AppState
  | .ask .factoryResetPoll => FactoryResetPoll
  | .ask .wifiProvisioningManagerPollEvent => ProvisioningEvent
  | .ask .loadConfiguration => ConfigurationAnswers × Bool
  | .ask .connectVerifiedTls => GateAnswers × Bool
  | .ask .osalTaskGetTimeMs => UInt32
  | .ask .otaManagerPoll => List OtaCallback
  | .ask .reprovisionBackoff => Bool × UInt32
  | .ask _ | .push _ => Bool
  | .hang => Empty
  | _ => Unit

abbrev Act := Prog Op Res

def act (o : Op) : Act (Res o) := .perform o

def tell (e : SuperviseEvent) : Act Unit := act (.tell e)

def ask (q : Question) : Act (Res (.ask q)) := act (.ask q)

def hang {α : Type} : Act α := .op .hang Empty.elim

def espRestart {α : Type} : Act α := do
  tell .espRestart
  hang

def deliver (event : AppEvent) (owner : AppOwner) : Act Unit := tell (.appStateDeliver event owner)

/-! ## The factory reset button -/

def blinkRound : Act Unit := do
  tell (.lampControlApplyState true)
  tell (.osalTaskDelayMs FACTORY_RESET_BLINK_MS)
  tell (.lampControlApplyState false)
  tell (.osalTaskDelayMs FACTORY_RESET_BLINK_MS)

def blinkRounds : Nat → Act Unit
  | 0 => return ()
  | n + 1 => do
    blinkRound
    blinkRounds n

def factoryResetBlink : Act Unit := do
  tell .lampControlReleaseFailOff
  blinkRounds FACTORY_RESET_BLINK_COUNT

def factoryResetErase (eraseCredentials : Bool) (storage : Storage) : Act Bool := do
  factoryResetBlink
  tell .lampControlForceInactive
  tell .networkManagerEraseCredentials
  return eraseCredentials && (factoryResetClearStateDir storage).1

def pollFactoryReset (k : SuperviseKconfig) : Act Unit := do
  if !k.factoryResetEnable then return ()
  else
    let state ← ask .appStateCurrent
    if state = .ota then return ()
    else
      let _ ← ask .osalTaskGetTimeMs
      match ← ask .factoryResetPoll with
      | .idle => return ()
      | .triggered eraseCredentials storage =>
        if ← factoryResetErase eraseCredentials storage then espRestart else return ()

/-! ## The provisioning events -/

/-- The pump, for so many rounds; the loop of the source has no bound, and a longer one is
one of the greater bounds. -/
def deliverProvisioningEvents : Nat → Act Unit
  | 0 => hang
  | bound + 1 => do
    let state ← ask .appStateCurrent
    if state ≠ .network ∧ state ≠ .provisioning then return ()
    else
      match ← ask .wifiProvisioningManagerPollEvent with
      | .started =>
        -- a duplicate at the provisioning gate is dropped
        if state ≠ .network then deliverProvisioningEvents bound
        else
          deliver .provisioningStarted .network
          deliverProvisioningEvents bound
      | .succeeded =>
        deliver .provisioningSucceeded .network
        deliverProvisioningEvents bound
      | .failed =>
        deliver .provisioningFailed .network
        deliverProvisioningEvents bound
      | .none => return ()

/-! ## The network gate -/

/-- The end of the wait; the first answer is only logged. -/
def networkGateEnd : Act Bool := do
  let _ ← ask .networkManagerIsConnected
  ask .networkManagerIsConnected

/-- `supervise_network_gate` from the time waited on. The first argument bounds the rounds;
`superviseNetworkGate_bound` says that the gate never meets it. -/
def superviseNetworkGate (k : SuperviseKconfig) (bound : Nat) : Nat → (waitedMs : Nat) → Act Bool
  | 0, _ => hang
  | rounds + 1, waitedMs => do
    if ← ask .networkManagerIsConnected then networkGateEnd
    else if waitedMs ≥ NETWORK_CONNECT_TIMEOUT_MS then networkGateEnd
    else
      tell .appStatePoll
      pollFactoryReset k
      deliverProvisioningEvents bound
      let state ← ask .appStateCurrent
      if state ≠ .network then ask .networkManagerIsConnected
      else
        tell (.osalTaskDelayMs NETWORK_WAIT_POLL_INTERVAL_MS)
        superviseNetworkGate k bound rounds (waitedMs + NETWORK_WAIT_POLL_INTERVAL_MS)

/-- The rounds that fill the wait, and the last look at the time. -/
def NETWORK_GATE_ROUNDS : Nat := NETWORK_CONNECT_TIMEOUT_MS / NETWORK_WAIT_POLL_INTERVAL_MS + 1

theorem superviseNetworkGate_more (k : SuperviseKconfig) (bound rounds n : Nat) {waitedMs : Nat}
    (h : NETWORK_CONNECT_TIMEOUT_MS ≤ waitedMs + rounds * NETWORK_WAIT_POLL_INTERVAL_MS) :
    superviseNetworkGate k bound (rounds + 1 + n) waitedMs = superviseNetworkGate k bound (rounds + 1) waitedMs := by
  induction rounds generalizing waitedMs with
  | zero =>
    have hwaited : waitedMs ≥ NETWORK_CONNECT_TIMEOUT_MS := by simpa using h
    rw [Nat.zero_add, Nat.add_comm, superviseNetworkGate, superviseNetworkGate]
    simp only [if_pos hwaited]
  | succ rounds ih =>
    have hnext : NETWORK_CONNECT_TIMEOUT_MS ≤
        waitedMs + NETWORK_WAIT_POLL_INTERVAL_MS + rounds * NETWORK_WAIT_POLL_INTERVAL_MS := by
      rw [Nat.succ_mul] at h
      omega
    rw [Nat.add_right_comm (rounds + 1), superviseNetworkGate, superviseNetworkGate, ih hnext]

theorem superviseNetworkGate_bound (k : SuperviseKconfig) (bound n : Nat) :
    superviseNetworkGate k bound (NETWORK_GATE_ROUNDS + n) 0 = superviseNetworkGate k bound NETWORK_GATE_ROUNDS 0 :=
  superviseNetworkGate_more k bound _ n (by decide)

/-! ## The states -/

def superviseFilesystem : Act Unit := do
  tell .lampFsInit
  let mounted ← ask .lampFsInit
  deliver (if mounted then .fsOk else .fsFail) .filesystem

def superviseConfiguration : Act Unit := do
  let (_, loaded) ← ask .loadConfiguration
  deliver (if loaded then .configOk else .configFail) .configuration

/-- The first entry of the network gate starts the network. -/
def bringUpNetwork : Act Bool := do
  if ← ask .networkBringupDone then return true
  else
    act .setNetworkBringupDone
    tell .networkManagerStart
    if ← ask .networkManagerStart then
      tell .mongooseProcessInit
      tell .wifiProvisioningManagerInit
      return true
    else
      deliver .networkFailed .network
      return false

def superviseNetwork (k : SuperviseKconfig) (bound : Nat) : Act Unit := do
  if ← bringUpNetwork then
    if ← ask .hasSavedCredentials then
      tell .networkManagerReconnect
      let connected ← superviseNetworkGate k bound NETWORK_GATE_ROUNDS 0
      let state ← ask .appStateCurrent
      -- the portal may have taken over during the wait
      if state = .network then deliver (if connected then .networkConnected else .networkFailed) .network

/-- The time is only asked for while the backoff runs. -/
def backoffLasts : Act Bool := do
  let (active, retryAtMs) ← ask .reprovisionBackoff
  if active then
    let now ← ask .osalTaskGetTimeMs
    return (now - retryAtMs).toInt32 < 0
  else return false

def superviseTls : Act Unit := do
  if ← backoffLasts then return ()
  else
    let (_, connected) ← ask .connectVerifiedTls
    deliver (if connected then .tlsConnected else .tlsFailed) .mqtt

def superviseSync : Act Unit := do
  tell .tbApplicationPoll
  if ← ask .isSynchronized then
    deliver .syncComplete .thingsboard
    tell .otaManagerRequestImageConfirmation
    tell .otaManagerRequestCheck

/-- `ota_on_event`, `ota_on_indicator` and `ota_restart`. -/
def otaCallback : OtaCallback → Act Unit
  | .started => do
    act (.ota (.setOutputSuspended true))
    act (.ota .deliverBegin)
  | .failed => do
    act (.ota .deliverFailed)
    act (.ota (.setOutputSuspended false))
  | .restarting => act (.ota .deliverEnd)
  | .indicator on => do
    act (.ota .lampControlReleaseFailOff)
    act (.ota (.lampControlApplyState on))
  | .restart => espRestart

def otaCallbacks : List OtaCallback → Act Unit
  | [] => return ()
  | callback :: rest => do
    otaCallback callback
    otaCallbacks rest

def pollOtaManager : Act Unit := do
  tell .otaManagerPoll
  let callbacks ← ask .otaManagerPoll
  otaCallbacks callbacks

def superviseOnline : Act Unit := do
  tell .tbApplicationPoll
  if ← ask .takeFirmwareHint then tell .otaManagerRequestCheck
  pollOtaManager
  let state ← ask .appStateCurrent
  if state ≠ .online then return ()
  else if ← ask .networkManagerIsConnected then return ()
  else deliver .disconnected .network

/-- A parked device restarts once the backoff of the enrolment is over. -/
def superviseSafeOff : Act Unit := do
  -- the first answer is only logged
  let _ ← ask .retryExhausted
  let exhausted ← ask .retryExhausted
  let (active, retryAtMs) ← ask .reprovisionBackoff
  if active && exhausted then
    let now ← ask .osalTaskGetTimeMs
    if (now - retryAtMs).toInt32 ≥ 0 then espRestart

def superviseOta (entered : Bool) : Act Unit := do
  if entered then tell .wifiProvisioningManagerStop
  tell .tbApplicationPoll
  let _ ← ask .takeFirmwareHint
  pollOtaManager

/-- The `switch` of `supervise_iteration`. -/
def serveState (k : SuperviseKconfig) (bound : Nat) (lastReported : AppState) : AppState → Act Unit
  | .filesystem => superviseFilesystem
  | .configuration => superviseConfiguration
  | .network => superviseNetwork k bound
  | .tls => superviseTls
  | .sync => superviseSync
  | .online => superviseOnline
  | .safeOff => superviseSafeOff
  | .fatal => tell .wifiProvisioningManagerStop
  | .ota => superviseOta (lastReported ≠ .ota)
  | .provisioning | .boot => return ()

def superviseIteration (k : SuperviseKconfig) (bound : Nat) : Act Unit := do
  pollFactoryReset k
  tell .appStatePoll
  tell .serviceThingsboardConnection
  deliverProvisioningEvents bound
  let current ← ask .appStateCurrent
  let lastReported ← ask .lastReported
  serveState k bound lastReported current
  -- a fatal state returns before it is noted
  if current ≠ .fatal then act (.setLastReported current)

/-- The body of the loop of `supervise`. -/
def supervisePass (k : SuperviseKconfig) (bound : Nat) : Act Unit := do
  superviseIteration k bound
  tell (.osalTaskDelayMs APP_SUPERVISE_PERIOD_MS)

/-! ## What is done aside -/

/-- The steps of a factory reset, of the callbacks of `ota_manager`, and of a parked device. -/
def Op.aside : Op → Bool
  | .tell (.lampControlApplyState _) | .tell (.osalTaskDelayMs _) | .tell .lampControlReleaseFailOff
  | .tell .lampControlForceInactive | .tell .networkManagerEraseCredentials | .tell .espRestart | .hang | .ota _
  | .ask .retryExhausted | .ask .reprovisionBackoff | .ask .osalTaskGetTimeMs => true
  | _ => false

theorem blinkRounds_uses (n : Nat) : (blinkRounds n).Uses fun o => o.aside = true := by
  induction n with
  | zero => trivial
  | succ n ih => exact ⟨rfl, fun _ => ⟨rfl, fun _ => ⟨rfl, fun _ => ⟨rfl, fun _ => ih⟩⟩⟩⟩

theorem factoryReset_uses (eraseCredentials : Bool) (storage : Storage) :
    (do if ← factoryResetErase eraseCredentials storage then espRestart else return () : Act Unit).Uses
      fun o => o.aside = true := by
  have restart : (espRestart : Act Unit).Uses fun o => o.aside = true := ⟨rfl, fun _ => ⟨rfl, fun r => r.elim⟩⟩
  have blink : factoryResetBlink.Uses fun o => o.aside = true := ⟨rfl, fun _ => blinkRounds_uses _⟩
  refine Prog.Uses.bind (blink.bind fun _ => ⟨rfl, fun _ => ⟨rfl, fun _ => trivial⟩⟩) fun erased => ?_
  split
  · exact restart
  · trivial

theorem otaCallbacks_uses (callbacks : List OtaCallback) : (otaCallbacks callbacks).Uses fun o => o.aside = true := by
  induction callbacks with
  | nil => trivial
  | cons callback rest ih =>
    refine Prog.Uses.bind ?_ fun _ => ih
    cases callback with
    | started => exact ⟨rfl, fun _ => ⟨rfl, fun _ => trivial⟩⟩
    | failed => exact ⟨rfl, fun _ => ⟨rfl, fun _ => trivial⟩⟩
    | restarting => exact ⟨rfl, fun _ => trivial⟩
    | indicator on => exact ⟨rfl, fun _ => ⟨rfl, fun _ => trivial⟩⟩
    | restart => exact ⟨rfl, fun _ => ⟨rfl, fun r => r.elim⟩⟩

theorem superviseSafeOff_uses : superviseSafeOff.Uses fun o => o.aside = true := by
  refine .perform rfl fun _ => .perform rfl fun exhausted => .perform rfl fun r => ?_
  obtain ⟨active, retryAtMs⟩ := r
  dsimp only
  split
  · refine .perform rfl fun now => ?_
    split
    · exact ⟨rfl, fun _ => ⟨rfl, fun r => r.elim⟩⟩
    · trivial
  · trivial

/-! ## The system -/

/-- A pass of the supervisor, with the bound of its pump, or an event the adapter stores. -/
inductive Call
  | pass (bound : Nat)
  | notify (event : ProvisioningEvent)
  deriving DecidableEq

/-- The FIFO of the adapter, its head first; the variables of the loop; and those of the gates. -/
structure World where
  fifo : List ProvisioningEvent
  networkBringupDone : Bool
  lastReported : AppState
  gates : Statics

abbrev Event := Conc.Event Op Res Call Unit
abbrev Entry := Conc.Entry Tid Op Res Call Unit
abbrev Moment := Conc.Moment Tid World Op Res Call Unit
abbrev Config := Conc.Config Tid World Op Res Call Unit
abbrev Assertion := Conc.Assertion Tid World Op Res Call Unit
abbrev Promise := Conc.Promise Tid World Op Res Call Unit

def stepEffect (k : SuperviseKconfig) (w : World) : (o : Op) → Res o → Option World
  | .ask .wifiProvisioningManagerPollEvent, event =>
    match w.fifo with
    | [] => if event = .none then some w else none
    | head :: rest => if event = head then some { w with fifo := rest } else none
  | .ask .loadConfiguration, r =>
    let (loaded, gates) := loadConfiguration r.1 w.gates
    if r.2 = loaded then some { w with gates } else none
  | .ask .connectVerifiedTls, r =>
    let (connected, gates) := connectVerifiedTls k.toKconfig r.1 w.gates
    if r.2 = connected then some { w with gates } else none
  | .ask .networkBringupDone, done => if done = w.networkBringupDone then some w else none
  | .ask .lastReported, state => if state = w.lastReported then some w else none
  | .ask .reprovisionBackoff, r =>
    if r = (w.gates.reprovisionBackoffActive, w.gates.reprovisionRetryAtMs) then some w else none
  | .setNetworkBringupDone, _ => some { w with networkBringupDone := true }
  | .setLastReported state, _ => some { w with lastReported := state }
  | .push event, stored => some (if stored then { w with fifo := w.fifo ++ [event] } else w)
  | .hang, r => r.elim
  | _, _ => some w

/-- Only the Wi-Fi manager's thread notifies, only of events, and only the supervisor passes. -/
def effect (k : SuperviseKconfig) (t : Tid) (e : Event) (w : World) : Option World :=
  match t, e with
  | .supervisor, .call (.pass _) => some w
  | .wifi, .call (.notify event) => if event = .none then none else some w
  | _, .call _ => none
  | _, .did o r => stepEffect k w o r
  | _, .ret _ => some w

def body (k : SuperviseKconfig) : Call → Act Unit
  | .pass bound => supervisePass k bound
  | .notify event => do
    let _ ← act (.push event)
    return ()

def system (k : SuperviseKconfig) : System Tid World Op Res Call Unit where
  body := body k
  effect := effect k

def Boot (w : World) : Prop := w = ⟨[], false, .boot, .boot⟩

/-- The calls of a trace, newest first. -/
def told (trace : List Entry) : List SuperviseEvent :=
  trace.filterMap fun entry =>
    match entry.2 with
    | .did (.tell e) _ => some e
    | _ => none

/-- The last state the supervisor read. -/
def lastRead : List Entry → Option AppState
  | [] => none
  | (.supervisor, .did (.ask .appStateCurrent) state) :: _ => some state
  | _ :: past => lastRead past

/-- The events the supervisor has polled, newest first, each with the state it had read. -/
def polled : List Entry → List (Option AppState × ProvisioningEvent)
  | [] => []
  | (.supervisor, .did (.ask .wifiProvisioningManagerPollEvent) event) :: past =>
    if event = .none then polled past else (lastRead past, event) :: polled past
  | _ :: past => polled past

/-- The calls `bringUpNetwork` makes, in order. -/
def bringUpEvents : List SuperviseEvent := [.networkManagerStart, .mongooseProcessInit, .wifiProvisioningManagerInit]

end LedLamp.AppMain.Steps
