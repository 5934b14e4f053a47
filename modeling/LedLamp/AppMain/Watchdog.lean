import LedLamp.AppMain.Supervise
import LedLamp.Conc.Feeds
import Mathlib.Data.List.Induction
/-!
# The watchdog budget of the supervisor

Each blocking call is charged its own timeout: a connect, an enrolment, a delay. The
window has room for one connect and what else a pass waits for, but on a fresh device
the TLS gate connects, enrols and connects again without a feed (`watchdog_enrolled`).
`watchdog_fed_iff` says when the feeds of a run come in time.
-/

namespace LedLamp.AppMain

open Conc Mqtt

def APP_SUPERVISE_WATCHDOG_MS : Nat := 60000

/-- `app_state_poll` feeds the watchdog. -/
def SuperviseEvent.feeds : SuperviseEvent → Bool
  | .appStatePoll => true
  | _ => false

/-- The timeout of a blocking call; both connects are given `NETWORK_CONNECT_TIMEOUT_MS`. -/
def SuperviseEvent.chargeMs (k : SuperviseKconfig) : SuperviseEvent → Nat
  | .osalTaskDelayMs ms => ms
  | .gate (.mqttCfgConnect _) => NETWORK_CONNECT_TIMEOUT_MS
  | .gate (.tbProvisioningEnroll _ _) => k.thingsboardProvisionTimeoutMs
  | _ => 0

/-- Between consecutive polls of the state machine less than the window is charged. -/
def WatchdogFed (k : SuperviseKconfig) (trace : List SuperviseEvent) : Prop :=
  FedWithin SuperviseEvent.feeds (SuperviseEvent.chargeMs k) APP_SUPERVISE_WATCHDOG_MS trace

instance (k : SuperviseKconfig) (trace : List SuperviseEvent) : Decidable (WatchdogFed k trace) := FedWithin.decide trace

/-! ## What the button and the gate are charged -/

/-- The button was held: an erase runs. -/
def ResetAnswers.erases (k : SuperviseKconfig) (a : ResetAnswers) : Bool :=
  k.factoryResetEnable && a.state ≠ .ota && match a.poll with
    | .idle => false
    | .triggered _ _ => true

/-- The erase succeeds, and the device restarts. -/
def ResetAnswers.restarts (k : SuperviseKconfig) (a : ResetAnswers) : Bool :=
  k.factoryResetEnable && a.state ≠ .ota && match a.poll with
    | .idle => false
    | .triggered eraseCredentials storage => eraseCredentials && (factoryResetClearStateDir storage).1

/-- The blinking before an erase. -/
def eraseMs : Nat := FACTORY_RESET_BLINK_COUNT * (2 * FACTORY_RESET_BLINK_MS)

def ResetAnswers.blinkMs (k : SuperviseKconfig) (a : ResetAnswers) : Nat := if a.erases k then eraseMs else 0

/-- An enrolment is answered so that the call gets as far as its second connect. -/
def GateAnswers.reconnects (a : GateAnswers) : Bool :=
  a.tbProvisioningEnroll = .ok && (deviceIdentityLoad a.identity).1 = .ok && a.tbClientUpdateCredentials = 0 &&
    a.mqttCfgLoadAndApply = .ok

/-- What an enrolment and the connect after it are charged. -/
def enrollMs (k : SuperviseKconfig) (a : GateAnswers) : Nat :=
  k.thingsboardProvisionTimeoutMs + if a.reconnects then NETWORK_CONNECT_TIMEOUT_MS else 0

/-- What a call of the TLS gate is charged. -/
def gateMs (k : SuperviseKconfig) (a : GateAnswers) (s : Statics) : Nat :=
  if Attempts a s then
    NETWORK_CONNECT_TIMEOUT_MS + if a.mqttCfgConnect = .ok ∧ s.tbNeedsProvisioning = true then enrollMs k a else 0
  else 0

/-- The pass enrols the device. -/
def PassAnswers.Enrols (k : SuperviseKconfig) (s : Statics) (a : PassAnswers) : Prop :=
  a.reset.restarts k = false ∧ a.appStateCurrent = .tls ∧ backoffRunning a.osalTaskGetTimeMs s = false ∧
    Attempts a.gate s = true ∧ a.gate.mqttCfgConnect = .ok ∧ s.tbNeedsProvisioning = true

/-- An enrolment of pass `a` leaves the time up to the feed of the next pass: it does not
get as far as the second connect, and its timeout fits into what the first one, the delay
and the blinking leave. -/
def EnrolsInTime (k : SuperviseKconfig) (s : Statics) (a next : PassAnswers) : Prop :=
  a.Enrols k s → next.reset.restarts k = false → a.gate.reconnects = false ∧
    NETWORK_CONNECT_TIMEOUT_MS + k.thingsboardProvisionTimeoutMs + APP_SUPERVISE_PERIOD_MS + next.reset.blinkMs k <
      APP_SUPERVISE_WATCHDOG_MS

/-! ## Charges of the gates -/

variable {k : SuperviseKconfig}

/-- From `past` to `trace` the gates are charged `ms`. -/
def Charges (k : SuperviseKconfig) (ms : Nat) (past trace : List Event) : Prop :=
  ∃ events, trace = events ++ past ∧ charged (fun e => (SuperviseEvent.gate e).chargeMs k) events = ms

namespace Charges

variable {ms ms' : Nat} {past trace trace' : List Event}

theorem refl (past : List Event) : Charges k 0 past past := ⟨[], rfl, rfl⟩

theorem trans (h : Charges k ms past trace) (h' : Charges k ms' trace trace') : Charges k (ms + ms') past trace' := by
  obtain ⟨events, rfl, rfl⟩ := h
  obtain ⟨events', rfl, rfl⟩ := h'
  exact ⟨events' ++ events, by rw [List.append_assoc], by rw [charged_append, Nat.add_comm]⟩

theorem cons (h : Charges k ms past trace) (e : Event) :
    Charges k (ms + (SuperviseEvent.gate e).chargeMs k) past (e :: trace) := h.trans ⟨[e], rfl, by simp⟩

theorem session (h : Charges k ms past trace) {s s' : Statics} (hs : SessionOnly s s') (ht : s.trace = trace) :
    Charges k ms past s'.trace := by
  subst ht
  obtain ⟨_, events, rfl, he⟩ := hs
  have free : Charges k 0 s.trace (events ++ s.trace) := by
    refine ⟨events, rfl, charged_eq_zero fun e hm => ?_⟩
    have := he e hm
    cases e <;> simp [Event.isSession] at this <;> rfl
  exact h.trans free

end Charges

theorem provisioningLoad_charges (loaded : Except TbProvisioningStatus TbProvisioningConfig) (s : Statics) :
    Charges k 0 s.trace (s.provisioningLoad loaded).2.trace := by
  cases loaded with
  | ok config => exact (Charges.refl s.trace).cons (.tbProvisioningLoad true)
  | error e => exact (Charges.refl s.trace).cons (.tbProvisioningLoad false)

theorem identityLoad_charges (a : IdentityAnswers) (s : Statics) :
    Charges k 0 s.trace (s.identityLoad a).2.trace := by
  have loaded := (Charges.refl (k := k) s.trace).cons (.deviceIdentityLoad (deviceIdentityLoad a).1)
  unfold Statics.identityLoad
  dsimp only
  split
  · exact loaded.cons .lampControlForceInactive
  · exact loaded

theorem loadConfiguration_charges (a : ConfigurationAnswers) (s : Statics) :
    Charges k 0 s.trace (loadConfiguration a s).2.trace := by
  have loaded := identityLoad_charges (k := k) a.identity { s with tbNeedsProvisioning := false }
  unfold loadConfiguration
  dsimp only
  split
  · exact .refl s.trace
  · split
    · have provisioned := loaded.trans (provisioningLoad_charges (k := k) a.tbProvisioningLoad _)
      split
      · exact provisioned
      · exact provisioned.session (createThingsboardSession_frame a.session _) rfl
    · exact loaded.session (createThingsboardSession_frame a.session _) rfl

theorem connectFailed_charges (k' : Kconfig) (a : GateAnswers) (s : Statics) :
    Charges k 0 s.trace (connectFailed k' a s).trace := by
  have start := Charges.refl (k := k) s.trace
  have path := connectFailed_path k' a s
  generalize connectFailed k' a s = s' at path ⊢
  cases path with
  | ignored _ hs => exact start.session hs rfl
  | counted => exact start.cons (.credentialsRejected (s.authRejectCount + 1))
  | unavailable => exact (start.cons (.credentialsRejected (s.authRejectCount + 1))).cons (.tbProvisioningLoad false)
  | scheduled _ _ _ _ hs =>
    exact ((start.cons (.credentialsRejected (s.authRejectCount + 1))).cons (.tbProvisioningLoad true)).session hs rfl

/-- An enrolment is charged its timeout, and with it that of the second connect if it
gets there. -/
theorem enrollDevice_charges (k' : Kconfig) (a : GateAnswers) (s : Statics) :
    Charges k (enrollMs k a) s.trace (enrollDevice k' a s).2.trace := by
  have enrolled := (Charges.refl (k := k) s.trace).cons (.tbProvisioningEnroll s.provisioningConfig a.tbProvisioningEnroll)
  rw [Nat.zero_add] at enrolled
  have path := enrollDevice_path k' a s
  generalize enrollDevice k' a s = r at path ⊢
  cases path with
  | refused h hs =>
    rw [enrollMs, if_neg (by simp [GateAnswers.reconnects, h])]
    have refused := enrolled.session hs rfl
    exact refused
  | @unreadable s' status identity h hl hne hs =>
    rw [h] at enrolled
    rw [enrollMs, if_neg (by simp [GateAnswers.reconnects, hl, hne])]
    have unreadable := ((enrolled.cons (.deviceIdentityLoad status)).cons .lampControlForceInactive).session hs rfl
    exact unreadable
  | @accepted r identity h hl hu =>
    rw [h] at enrolled
    have loaded := enrolled.cons (.deviceIdentityLoad .ok)
    obtain ⟨token, clientId, hi⟩ := useIdentity_loaded (a := a)
      (s := ({ s with identity }.did (.tbProvisioningEnroll s.provisioningConfig .ok)).did (.deviceIdentityLoad .ok))
      (deviceIdentityLoad_loaded hl)
    have updated := loaded.cons (.tbClientUpdateCredentials token clientId a.tbClientUpdateCredentials)
    have applied := updated.cons (.mqttCfgLoadAndApply identity a.mqttCfgLoadAndApply)
    rw [hi] at hu
    subst hu
    by_cases h1 : a.tbClientUpdateCredentials = 0
    · rw [if_neg (by simp [h1])]
      by_cases h2 : a.mqttCfgLoadAndApply = .ok
      · rw [if_neg (by simp [h2]), enrollMs, if_pos (by simp [GateAnswers.reconnects, h, hl, h1, h2])]
        exact applied.cons (.mqttCfgConnect a.mqttCfgReconnect)
      · rw [if_pos h2, enrollMs, if_neg (by simp [GateAnswers.reconnects, h2])]
        exact applied.session (destroyThingsboardSession_frame _) rfl
    · rw [if_pos h1, enrollMs, if_neg (by simp [GateAnswers.reconnects, h1])]
      exact updated

theorem connectVerifiedTls_charges (a : GateAnswers) (s : Statics) :
    Charges k (gateMs k a s) s.trace (connectVerifiedTls k.toKconfig a s).2.trace := by
  have prepared : ∀ {s₁ : Statics}, Prepared s s₁ → Charges k 0 s.trace s₁.trace := by
    rintro s₁ ⟨backoff, hs⟩
    exact (Charges.refl s.trace).session hs rfl
  have connected : ∀ {s₁ : Statics}, Prepared s s₁ → ∀ status,
      Charges k NETWORK_CONNECT_TIMEOUT_MS s.trace (s₁.did (.mqttCfgConnect status)).trace := fun hp status => by
    have := (prepared hp).cons (.mqttCfgConnect status)
    rwa [Nat.zero_add] at this
  have path := connectVerifiedTls_path k.toKconfig a s
  generalize connectVerifiedTls k.toKconfig a s = r at path ⊢
  cases path with
  | idle hp ha =>
    rw [gateMs, if_neg (by simp [ha])]
    exact prepared hp
  | failed hp ha hc =>
    rw [gateMs, if_pos ha, if_neg (fun h => hc h.1)]
    exact (connected hp _).trans (connectFailed_charges _ _ _)
  | direct hp ha hc hn hi =>
    rw [gateMs, if_pos ha, if_neg (by simp [hn])]
    exact connected hp _
  | @refused s₁ s₂ hp ha hc hn he =>
    rw [gateMs, if_pos ha, if_pos ⟨hc, hn⟩]
    have := (connected hp .ok).trans (enrollDevice_charges (k := k) k.toKconfig a (s₁.did (.mqttCfgConnect .ok)))
    rwa [he] at this
  | @enrolled s₁ s₂ hp ha hc hn he =>
    rw [gateMs, if_pos ha, if_pos ⟨hc, hn⟩]
    have := (connected hp .ok).trans (enrollDevice_charges (k := k) k.toKconfig a (s₁.did (.mqttCfgConnect .ok)))
    rwa [he] at this

/-! ## Charges of the supervisor -/

def Fed (trace : List SuperviseEvent) : Prop := ∃ e ∈ trace, e.feeds = true

/-- What is charged since the last feed. -/
def sinceMs (k : SuperviseKconfig) (trace : List SuperviseEvent) : Nat :=
  sinceFeed SuperviseEvent.feeds (SuperviseEvent.chargeMs k) trace

/-- From `past` to `trace` there is no feed, and `ms` is charged. -/
def Spends (k : SuperviseKconfig) (ms : Nat) (past trace : List SuperviseEvent) : Prop :=
  ∃ events, trace = events ++ past ∧ (∀ e ∈ events, e.feeds = false) ∧
    charged (SuperviseEvent.chargeMs k) events = ms

namespace Spends

variable {ms ms' : Nat} {past trace trace' : List SuperviseEvent}

theorem refl (past : List SuperviseEvent) : Spends k 0 past past := ⟨[], rfl, by simp, rfl⟩

theorem trans (h : Spends k ms past trace) (h' : Spends k ms' trace trace') : Spends k (ms + ms') past trace' := by
  obtain ⟨events, rfl, hq, rfl⟩ := h
  obtain ⟨events', rfl, hq', rfl⟩ := h'
  refine ⟨events' ++ events, by rw [List.append_assoc], ?_, by rw [charged_append, Nat.add_comm]⟩
  exact List.forall_mem_append.2 ⟨hq', hq⟩

theorem cons (h : Spends k ms past trace) (e : SuperviseEvent) (he : e.feeds = false) :
    Spends k (ms + e.chargeMs k) past (e :: trace) := h.trans ⟨[e], rfl, by simpa using he, by simp⟩

theorem within (h : Spends k ms past trace) : WatchdogFed k trace ↔ WatchdogFed k past := by
  obtain ⟨events, rfl, hq, -⟩ := h
  exact fedWithin_append hq past

theorem since (h : Spends k ms past trace) : sinceMs k trace = ms + sinceMs k past := by
  obtain ⟨events, rfl, hq, rfl⟩ := h
  exact sinceFeed_append hq past

theorem fed (h : Spends k ms past trace) : Fed trace ↔ Fed past := by
  obtain ⟨events, rfl, hq, -⟩ := h
  constructor
  · rintro ⟨e, hm, he⟩
    rcases List.mem_append.1 hm with hm | hm
    · rw [hq e hm] at he
      cases he
    · exact ⟨e, hm, he⟩
  · rintro ⟨e, hm, he⟩
    exact ⟨e, List.mem_append_right events hm, he⟩

end Spends

variable {w : Supervisor}

theorem gate_spends {ms : Nat} {call : Statics → Bool × Statics}
    (h : Charges k ms w.gates.trace (call w.gates).2.trace) : Spends k ms w.trace (w.gate call).2.trace := by
  obtain ⟨events, ht, rfl⟩ := h
  refine ⟨events.map .gate, ?_, ?_, charged_map SuperviseEvent.gate events⟩
  · simp [Supervisor.gate, ht]
  · intro e he
    obtain ⟨e', -, rfl⟩ := List.mem_map.1 he
    rfl

theorem blinkRound_spends : Spends k (2 * FACTORY_RESET_BLINK_MS) w.trace (blinkRound w).trace := by
  have := (((Spends.refl (k := k) w.trace).cons (.lampControlApplyState true) rfl).cons
    (.osalTaskDelayMs FACTORY_RESET_BLINK_MS) rfl).cons (.lampControlApplyState false) rfl |>.cons
      (.osalTaskDelayMs FACTORY_RESET_BLINK_MS) rfl
  rw [Nat.two_mul]
  simpa only [SuperviseEvent.chargeMs, Nat.zero_add, Nat.add_zero, blinkRound, Supervisor.did_trace] using this

theorem blinkRounds_spends (n : Nat) : Spends k (n * (2 * FACTORY_RESET_BLINK_MS)) w.trace (blinkRound^[n] w).trace := by
  induction n with
  | zero => simpa using Spends.refl w.trace
  | succ n ih =>
    rw [Function.iterate_succ_apply', Nat.add_mul, Nat.one_mul]
    exact ih.trans blinkRound_spends

theorem factoryResetBlink_spends : Spends k eraseMs w.trace (factoryResetBlink w).trace := by
  have released := (Spends.refl (k := k) w.trace).cons .lampControlReleaseFailOff rfl
  have := released.trans
    (blinkRounds_spends (k := k) (w := w.did .lampControlReleaseFailOff) FACTORY_RESET_BLINK_COUNT)
  rw [factoryResetBlink, eraseMs]
  simpa only [SuperviseEvent.chargeMs, Nat.zero_add] using this

theorem factoryResetErase_spends (eraseCredentials : Bool) (storage : Storage) :
    (factoryResetErase eraseCredentials storage w).1 = (eraseCredentials && (factoryResetClearStateDir storage).1) ∧
      Spends k eraseMs w.trace (factoryResetErase eraseCredentials storage w).2.trace := by
  have blinked := factoryResetBlink_spends (k := k) (w := w)
  have erased := (blinked.cons .lampControlForceInactive rfl).cons .networkManagerEraseCredentials rfl
  cases eraseCredentials <;> exact ⟨by simp [factoryResetErase], erased⟩

/-- A poll of the button is charged the blinking if it erases, and the device runs on
unless the erase succeeds. -/
theorem pollFactoryReset_spends (a : ResetAnswers) : (pollFactoryReset k a w).1 = !a.restarts k ∧
    Spends k (a.blinkMs k) w.trace (pollFactoryReset k a w).2.trace := by
  unfold pollFactoryReset ResetAnswers.blinkMs ResetAnswers.erases ResetAnswers.restarts
  by_cases hk : (!k.factoryResetEnable || decide (a.state = .ota)) = true
  · have hk' : (k.factoryResetEnable && decide (a.state ≠ .ota)) = false := by
      revert hk
      cases k.factoryResetEnable <;> simp
    rw [if_pos hk, hk']
    exact ⟨rfl, .refl w.trace⟩
  · have hk' : (k.factoryResetEnable && decide (a.state ≠ .ota)) = true := by
      revert hk
      cases k.factoryResetEnable <;> simp
    rw [if_neg hk, hk']
    cases a.poll with
    | idle => exact ⟨rfl, .refl w.trace⟩
    | triggered eraseCredentials storage =>
      obtain ⟨herased, hspends⟩ := factoryResetErase_spends (k := k) (w := w) eraseCredentials storage
      dsimp only
      rw [herased, Bool.true_and, Bool.true_and]
      cases eraseCredentials && (factoryResetClearStateDir storage).1 with
      | false => exact ⟨rfl, hspends⟩
      | true => exact ⟨rfl, hspends.cons .espRestart rfl⟩

theorem deliverProvisioningEvents_spends (events : List (AppState × ProvisioningEvent)) :
    Spends k 0 w.trace (deliverProvisioningEvents events w).trace := by
  induction events generalizing w with
  | nil => exact .refl w.trace
  | cons e events ih =>
    obtain ⟨state, event⟩ := e
    have delivered : ∀ event, Spends k 0 w.trace
        (deliverProvisioningEvents events (w.did (.appStateDeliver event .network))).trace := fun event => by
      have := ((Spends.refl (k := k) w.trace).cons (.appStateDeliver event .network) rfl).trans
        (ih (w := w.did (.appStateDeliver event .network)))
      exact this
    unfold deliverProvisioningEvents
    split
    · exact .refl w.trace
    · split
      · split
        · exact ih
        · exact delivered .provisioningStarted
      · exact delivered .provisioningSucceeded
      · exact delivered .provisioningFailed
      · exact .refl w.trace

/-! ## The network gate -/

/-- A round of the network gate: its blinking and its delay. -/
def roundMs : Nat := eraseMs + NETWORK_WAIT_POLL_INTERVAL_MS

theorem blinkMs_le (a : ResetAnswers) : a.blinkMs k ≤ eraseMs := by
  unfold ResetAnswers.blinkMs
  split
  · exact le_rfl
  · exact Nat.zero_le _

/-- From `past` to `trace` every feed is in time, and at most `ms` is charged since the last. -/
structure Keeps (k : SuperviseKconfig) (ms : Nat) (past trace : List SuperviseEvent) : Prop where
  within : WatchdogFed k trace ↔ WatchdogFed k past
  fed : Fed past → Fed trace
  since : sinceMs k trace ≤ ms

theorem Spends.keeps {ms bound : Nat} {past trace : List SuperviseEvent} (h : Spends k ms past trace)
    (hb : ms + sinceMs k past ≤ bound) : Keeps k bound past trace := ⟨h.within, h.fed.2, h.since ▸ hb⟩

theorem Keeps.trans {ms ms' : Nat} {past trace trace' : List SuperviseEvent} (h : Keeps k ms past trace)
    (h' : Keeps k ms' trace trace') : Keeps k ms' past trace' :=
  ⟨h'.within.trans h.within, fun hf => h'.fed (h.fed hf), h'.since⟩

/-- A feed within the window. -/
theorem Keeps.poll {past : List SuperviseEvent} (h : sinceMs k past < APP_SUPERVISE_WATCHDOG_MS) :
    Keeps k 0 past (.appStatePoll :: past) where
  within := (fedWithin_feed rfl past).trans (and_iff_right fun _ => h)
  fed _ := ⟨.appStatePoll, by simp, rfl⟩
  since := le_rfl

theorem superviseNetworkGate_keeps (rounds : List NetworkRound) (waitedMs : Nat) (h : sinceMs k w.trace ≤ roundMs) :
    Keeps k roundMs w.trace (superviseNetworkGate k rounds waitedMs w).2.trace := by
  induction rounds generalizing waitedMs w with
  | nil => exact (Spends.refl w.trace).keeps (by simpa using h)
  | cons a rounds ih =>
    have polled : Keeps k 0 w.trace (w.did .appStatePoll).trace := .poll (h.trans_lt (by decide))
    obtain ⟨-, blinked⟩ := pollFactoryReset_spends (k := k) (w := w.did .appStatePoll) a.reset
    have delivered := blinked.trans
      (deliverProvisioningEvents_spends (k := k) (w := (pollFactoryReset k a.reset (w.did .appStatePoll)).2) a.provisioning)
    have delayed := delivered.cons (.osalTaskDelayMs NETWORK_WAIT_POLL_INTERVAL_MS) rfl
    have hblink := blinkMs_le (k := k) a.reset
    have hzero := Nat.le_zero.1 polled.since
    unfold superviseNetworkGate
    split
    · exact (Spends.refl w.trace).keeps (by simpa using h)
    · dsimp only
      split
      · exact polled.trans (blinked.keeps (by rw [hzero, roundMs]; omega))
      · split
        · exact polled.trans (delivered.keeps (by rw [hzero, roundMs]; omega))
        · have waited : Keeps k roundMs (w.did .appStatePoll).trace (_ :: _) :=
            delayed.keeps (by rw [hzero, roundMs, SuperviseEvent.chargeMs]; omega)
          have round := polled.trans waited
          have next := ih (w := (deliverProvisioningEvents a.provisioning
            (pollFactoryReset k a.reset (w.did .appStatePoll)).2).did (.osalTaskDelayMs NETWORK_WAIT_POLL_INTERVAL_MS))
            (waitedMs + NETWORK_WAIT_POLL_INTERVAL_MS) round.since
          exact round.trans next

/-! ## One pass -/

theorem bringUpNetwork_spends (a : PassAnswers) : Spends k 0 w.trace (bringUpNetwork a w).2.trace := by
  have start := (Spends.refl (k := k) w.trace).cons .networkManagerStart rfl
  unfold bringUpNetwork
  split
  · exact .refl w.trace
  · dsimp only
    split
    · exact start.cons (.appStateDeliver .networkFailed .network) rfl
    · exact (start.cons .mongooseProcessInit rfl).cons .wifiProvisioningManagerInit rfl

theorem superviseNetwork_keeps (a : PassAnswers) (h : sinceMs k w.trace = 0) :
    Keeps k roundMs w.trace (superviseNetwork k a w).2.trace := by
  have up := bringUpNetwork_spends (k := k) (w := w) a
  have reconnect := up.cons .networkManagerReconnect rfl
  have start : Keeps k 0 w.trace ((bringUpNetwork a w).2.did .networkManagerReconnect).trace :=
    reconnect.keeps (by rw [h]; exact le_rfl)
  have gate := start.trans (superviseNetworkGate_keeps a.rounds 0 (start.since.trans (Nat.zero_le roundMs)))
  unfold superviseNetwork
  dsimp only
  split
  · exact up.keeps (by rw [h]; exact Nat.zero_le _)
  · split
    · exact gate
    · split
      · exact gate
      · refine gate.trans (((Spends.refl _).cons (.appStateDeliver _ .network) rfl).keeps ?_)
        simpa [SuperviseEvent.chargeMs] using gate.since

/-- The TLS gate, unless the backoff runs. -/
theorem serveState_tls {a : PassAnswers} (ht : a.appStateCurrent = .tls)
    (hb : backoffRunning a.osalTaskGetTimeMs w.gates = false) : (serveState k a w).1 = true ∧
      Spends k (gateMs k a.gate w.gates) w.trace (serveState k a w).2.trace := by
  have gate := gate_spends (k := k) (w := w) (connectVerifiedTls_charges a.gate w.gates)
  rw [serveState, ht]
  dsimp only
  rw [superviseTls, hb]
  exact ⟨rfl, gate.cons (.appStateDeliver _ .mqtt) rfl⟩

theorem superviseSync_spends (a : PassAnswers) : Spends k 0 w.trace (superviseSync a w).trace := by
  have polled := (Spends.refl (k := k) w.trace).cons .tbApplicationPoll rfl
  unfold superviseSync
  dsimp only
  split
  · exact polled
  · exact ((polled.cons (.appStateDeliver .syncComplete .thingsboard) rfl).cons .otaManagerRequestImageConfirmation
      rfl).cons .otaManagerRequestCheck rfl

theorem pollOtaManager_spends (a : PassAnswers) : Spends k 0 w.trace (pollOtaManager a w).2.trace := by
  have polled := (Spends.refl (k := k) w.trace).cons .otaManagerPoll rfl
  unfold pollOtaManager
  dsimp only
  split
  · exact polled.cons .espRestart rfl
  · exact polled

theorem superviseOnline_spends (a : PassAnswers) : Spends k 0 w.trace (superviseOnline a w).2.trace := by
  have polled := (Spends.refl (k := k) w.trace).cons .tbApplicationPoll rfl
  have hinted : Spends k 0 w.trace (if a.firmwareHint then (w.did .tbApplicationPoll).did .otaManagerRequestCheck
      else w.did .tbApplicationPoll).trace := by
    split
    · exact polled.cons .otaManagerRequestCheck rfl
    · exact polled
  unfold superviseOnline
  dsimp only
  generalize (if a.firmwareHint then (w.did .tbApplicationPoll).did .otaManagerRequestCheck
    else w.did .tbApplicationPoll) = hinting at hinted ⊢
  have asked := hinted.trans (pollOtaManager_spends (w := hinting) a)
  split
  · exact asked
  · split
    · exact asked
    · dsimp only
      split
      · exact asked.cons (.appStateDeliver .disconnected .network) rfl
      · exact asked

theorem superviseOta_spends (a : PassAnswers) : Spends k 0 w.trace (superviseOta a w).2.trace := by
  have start := Spends.refl (k := k) w.trace
  have entered : Spends k 0 w.trace (if a.appStateCurrent ≠ w.lastReported then w.did .wifiProvisioningManagerStop
      else w).trace := by
    split
    · exact start.cons .wifiProvisioningManagerStop rfl
    · exact start
  unfold superviseOta
  generalize (if a.appStateCurrent ≠ w.lastReported then w.did .wifiProvisioningManagerStop else w) = entering
    at entered ⊢
  exact (entered.cons .tbApplicationPoll rfl).trans (pollOtaManager_spends (w := entering.did .tbApplicationPoll) a)

theorem superviseSafeOff_spends (a : PassAnswers) : Spends k 0 w.trace (superviseSafeOff a w).2.trace := by
  have start := Spends.refl (k := k) w.trace
  unfold superviseSafeOff
  split
  · exact start.cons .espRestart rfl
  · exact start

/-- The other states are charged no more than a round of the network gate. -/
theorem serveState_keeps {a : PassAnswers} (h : sinceMs k w.trace = 0)
    (ho : a.appStateCurrent = .tls → backoffRunning a.osalTaskGetTimeMs w.gates = true) :
    Keeps k roundMs w.trace (serveState k a w).2.trace := by
  have free : ∀ {trace}, Spends k 0 w.trace trace → Keeps k roundMs w.trace trace := fun hs =>
    hs.keeps (by rw [h]; exact Nat.zero_le _)
  have start := Spends.refl (k := k) w.trace
  unfold serveState
  split
  · exact free ((start.cons .lampFsInit rfl).cons (.appStateDeliver _ .filesystem) rfl)
  · exact free ((gate_spends (loadConfiguration_charges a.configuration w.gates)).cons
      (.appStateDeliver _ .configuration) rfl)
  · exact superviseNetwork_keeps a h
  · rename_i ht
    simp only [superviseTls, ho ht, if_true]
    exact free start
  · exact free (superviseSync_spends a)
  · exact free (superviseOnline_spends a)
  · exact free (superviseSafeOff_spends a)
  · exact free (start.cons .wifiProvisioningManagerStop rfl)
  · exact free (superviseOta_spends a)
  · exact free start
  · exact free start

/-- A pass that restarts the device at its start does not feed. -/
theorem supervisePass_restarts {a : PassAnswers} (hr : a.reset.restarts k = true) :
    (supervisePass k a w).1 = false ∧ (WatchdogFed k (supervisePass k a w).2.trace ↔ WatchdogFed k w.trace) := by
  obtain ⟨hruns, blinked⟩ := pollFactoryReset_spends (k := k) (w := w) a.reset
  rw [hr] at hruns
  simp only [supervisePass, superviseIteration, hruns, Bool.not_true, Bool.not_false, if_true]
  exact ⟨trivial, blinked.within⟩

/-- Any other pass feeds, serves its state and, if the device still runs, waits. -/
theorem supervisePass_serves {a : PassAnswers} (hr : a.reset.restarts k = false) :
    let served := serveState k a (feed a (pollFactoryReset k a.reset w).2)
    (supervisePass k a w).1 = served.1 ∧
      Spends k (if served.1 then APP_SUPERVISE_PERIOD_MS else 0) served.2.trace (supervisePass k a w).2.trace := by
  intro served
  have hruns := (pollFactoryReset_spends (k := k) (w := w) a.reset).1
  rw [hr] at hruns
  have start : Spends k 0 served.2.trace (if a.appStateCurrent = .fatal then served.2
      else { served.2 with lastReported := a.appStateCurrent }).trace := by
    split <;> exact .refl served.2.trace
  have waited := start.cons (.osalTaskDelayMs APP_SUPERVISE_PERIOD_MS) rfl
  simp only [supervisePass, superviseIteration, hruns, Bool.not_false, Bool.not_true, Bool.false_eq_true, if_false]
  cases served.1 with
  | true =>
    simp only [served, Bool.not_true, Bool.false_eq_true, if_false, if_true]
    exact ⟨trivial, by simpa [SuperviseEvent.chargeMs] using waited⟩
  | false =>
    simp only [served, Bool.not_false, if_true]
    exact ⟨trivial, start⟩

theorem feed_spends (a : PassAnswers) : Spends k 0 (.appStatePoll :: w.trace) (feed a w).trace := by
  have serviced := (Spends.refl (k := k) (w.did .appStatePoll).trace).cons .serviceThingsboardConnection rfl
  have delivered := serviced.trans (deliverProvisioningEvents_spends (k := k)
    (w := (w.did .appStatePoll).did .serviceThingsboardConnection) a.provisioning)
  exact delivered

/-- A state is served from a feed on. -/
theorem serveState_within {a : PassAnswers} (h : sinceMs k w.trace = 0) :
    (WatchdogFed k (serveState k a w).2.trace ↔ WatchdogFed k w.trace) ∧
      (Fed w.trace → Fed (serveState k a w).2.trace) := by
  by_cases ho : a.appStateCurrent = .tls ∧ backoffRunning a.osalTaskGetTimeMs w.gates = false
  · have gate := (serveState_tls (k := k) ho.1 ho.2).2
    exact ⟨gate.within, gate.fed.2⟩
  · have keeps := serveState_keeps (k := k) (a := a) h fun ht => by simpa [ht] using ho
    exact ⟨keeps.within, keeps.fed⟩

/-- The feed of a pass ends the time since the last one, with the blinking before it. -/
theorem supervisePass_within {a : PassAnswers} (hr : a.reset.restarts k = false) :
    Fed (supervisePass k a w).2.trace ∧ (WatchdogFed k (supervisePass k a w).2.trace ↔
      (Fed w.trace → sinceMs k w.trace + a.reset.blinkMs k < APP_SUPERVISE_WATCHDOG_MS) ∧ WatchdogFed k w.trace) := by
  have blinked := (pollFactoryReset_spends (k := k) (w := w) a.reset).2
  have fed := feed_spends (k := k) (w := (pollFactoryReset k a.reset w).2) a
  have hzero : sinceMs k (feed a (pollFactoryReset k a.reset w).2).trace = 0 := fed.since
  obtain ⟨hserved, hfed⟩ := serveState_within (k := k) (a := a) hzero
  have waited := (supervisePass_serves (k := k) (w := w) hr).2
  refine ⟨waited.fed.2 (hfed (fed.fed.2 ⟨.appStatePoll, by simp, rfl⟩)), ?_⟩
  calc WatchdogFed k (supervisePass k a w).2.trace
      ↔ WatchdogFed k (feed a (pollFactoryReset k a.reset w).2).trace := waited.within.trans hserved
    _ ↔ (Fed (pollFactoryReset k a.reset w).2.trace →
          sinceMs k (pollFactoryReset k a.reset w).2.trace < APP_SUPERVISE_WATCHDOG_MS) ∧
        WatchdogFed k (pollFactoryReset k a.reset w).2.trace := fed.within.trans (fedWithin_feed rfl _)
    _ ↔ (Fed w.trace → sinceMs k w.trace + a.reset.blinkMs k < APP_SUPERVISE_WATCHDOG_MS) ∧ WatchdogFed k w.trace := by
      rw [blinked.fed, blinked.since, blinked.within, Nat.add_comm]

/-- A pass that enrols leaves what the TLS gate and the delay are charged. -/
theorem supervisePass_enrols {a : PassAnswers} (he : a.Enrols k w.gates) : (supervisePass k a w).1 = true ∧
    sinceMs k (supervisePass k a w).2.trace =
      NETWORK_CONNECT_TIMEOUT_MS + enrollMs k a.gate + APP_SUPERVISE_PERIOD_MS := by
  obtain ⟨hr, ht, hb, ha, hc, hn⟩ := he
  have fed := feed_spends (k := k) (w := (pollFactoryReset k a.reset w).2) a
  obtain ⟨hruns, waited⟩ := supervisePass_serves (k := k) (w := w) hr
  have gates : (feed a (pollFactoryReset k a.reset w).2).gates = w.gates := by simp
  obtain ⟨htrue, gate⟩ := serveState_tls (k := k) (w := feed a (pollFactoryReset k a.reset w).2) ht (by rwa [gates])
  rw [htrue] at hruns waited
  refine ⟨hruns, ?_⟩
  have hzero : sinceMs k (feed a (pollFactoryReset k a.reset w).2).trace = 0 := fed.since
  rw [waited.since, if_pos rfl, gate.since, hzero, gates, gateMs, if_pos ha, if_pos ⟨hc, hn⟩]
  exact Nat.add_comm _ _

/-- Any other pass leaves no more than one connect and the delay. -/
theorem supervisePass_idles {a : PassAnswers} (hr : a.reset.restarts k = false) (he : ¬ a.Enrols k w.gates) :
    sinceMs k (supervisePass k a w).2.trace ≤ NETWORK_CONNECT_TIMEOUT_MS + APP_SUPERVISE_PERIOD_MS := by
  have fed := feed_spends (k := k) (w := (pollFactoryReset k a.reset w).2) a
  have hzero : sinceMs k (feed a (pollFactoryReset k a.reset w).2).trace = 0 := fed.since
  have gates : (feed a (pollFactoryReset k a.reset w).2).gates = w.gates := by simp
  have waited := (supervisePass_serves (k := k) (w := w) hr).2.since
  have hperiod : (if (serveState k a (feed a (pollFactoryReset k a.reset w).2)).1 then APP_SUPERVISE_PERIOD_MS else 0) ≤
      APP_SUPERVISE_PERIOD_MS := by split <;> simp
  have hserved : sinceMs k (serveState k a (feed a (pollFactoryReset k a.reset w).2)).2.trace ≤
      NETWORK_CONNECT_TIMEOUT_MS := by
    by_cases ho : a.appStateCurrent = .tls ∧ backoffRunning a.osalTaskGetTimeMs w.gates = false
    · rw [(serveState_tls (k := k) ho.1 (by rw [gates]; exact ho.2)).2.since, hzero, gates, gateMs]
      split
      · rename_i ha
        rw [if_neg fun hn => he ⟨hr, ho.1, ho.2, ha, hn⟩]
        exact le_rfl
      · exact Nat.zero_le _
    · have keeps := serveState_keeps (k := k) (a := a) hzero fun ht => by simpa [ht, gates] using ho
      exact keeps.since.trans (by decide)
  omega

/-! ## Runs -/

theorem supervise_concat (passes : List PassAnswers) (a : PassAnswers) : supervise k (passes ++ [a]) w =
    if (supervise k passes w).1 then supervisePass k a (supervise k passes w).2 else supervise k passes w := by
  induction passes generalizing w with
  | nil =>
    simp only [List.nil_append, supervise, if_true]
    by_cases ha : (supervisePass k a w).1 = true <;> simp [Prod.ext_iff, ha]
  | cons b passes ih =>
    simp only [List.cons_append, supervise, ih]
    by_cases hb : (supervisePass k b w).1 = true <;> simp [hb]

theorem restarts_of_runs {a : PassAnswers} (hruns : (supervisePass k a w).1 = true) : a.reset.restarts k = false := by
  by_contra ha
  rw [(supervisePass_restarts (by simpa using ha)).1] at hruns
  cases hruns

/-- After pass `a`, what is charged up to the next feed. -/
theorem supervisePass_next {a next : PassAnswers} (hruns : (supervisePass k a w).1 = true)
    (hr : next.reset.restarts k = false) :
    sinceMs k (supervisePass k a w).2.trace + next.reset.blinkMs k < APP_SUPERVISE_WATCHDOG_MS ↔
      EnrolsInTime k w.gates a next := by
  have hblink := blinkMs_le (k := k) next.reset
  by_cases he : a.Enrols k w.gates
  · rw [(supervisePass_enrols he).2, enrollMs]
    cases hc : a.gate.reconnects with
    | true =>
      -- two connects alone fill the window
      refine iff_of_false (fun h => ?_) fun h => ?_
      · rw [if_pos rfl] at h
        simp only [NETWORK_CONNECT_TIMEOUT_MS, APP_SUPERVISE_WATCHDOG_MS] at h
        omega
      · rw [(h he hr).1] at hc
        cases hc
    | false =>
      rw [if_neg (by simp), Nat.add_zero]
      exact ⟨fun h _ _ => ⟨hc, h⟩, fun h => (h he hr).2⟩
  · refine iff_of_true ?_ fun h => absurd h he
    have hsince := supervisePass_idles (restarts_of_runs hruns) he
    have : NETWORK_CONNECT_TIMEOUT_MS + APP_SUPERVISE_PERIOD_MS + eraseMs < APP_SUPERVISE_WATCHDOG_MS := by decide
    omega

/-- The consecutive passes of a longer run: those there were, and the last two. -/
theorem forall_consecutive_concat {P : List PassAnswers → PassAnswers → PassAnswers → Prop} {passes : List PassAnswers}
    {last : PassAnswers} : (∀ before a next, before ++ [a, next] <+: passes ++ [last] → P before a next) ↔
      (∀ before a next, before ++ [a, next] <+: passes → P before a next) ∧
        ∀ before a, passes = before ++ [a] → P before a last := by
  constructor
  · intro h
    refine ⟨fun before a next hp => h before a next (hp.trans (List.prefix_append passes [last])), ?_⟩
    rintro before a rfl
    exact h before a last (by simp)
  · rintro ⟨h, hlast⟩ before a next hp
    rcases List.prefix_concat_iff.1 hp with heq | hp
    · rw [List.append_cons] at heq
      obtain ⟨hpasses, hnext⟩ := List.append_inj' heq rfl
      obtain rfl : next = last := by simpa using hnext
      exact hlast before a hpasses.symm
    · exact h before a next hp

/-- One more pass of a run: it feeds in time exactly if the pass before leaves the time. -/
theorem supervise_next {passes : List PassAnswers} {next : PassAnswers}
    (hruns : (supervise k passes .boot).1 = true) (hr : next.reset.restarts k = false) :
    (Fed (supervise k passes .boot).2.trace →
      sinceMs k (supervise k passes .boot).2.trace + next.reset.blinkMs k < APP_SUPERVISE_WATCHDOG_MS) ↔
      ∀ before a, passes = before ++ [a] → (supervise k before .boot).1 = true →
        EnrolsInTime k (supervise k before .boot).2.gates a next := by
  rcases List.eq_nil_or_concat' passes with rfl | ⟨before, a, rfl⟩
  · refine iff_of_true (fun hfed => ?_) fun before a h => absurd h (by simp)
    obtain ⟨e, he, -⟩ := hfed
    cases he
  · rw [supervise_concat] at hruns ⊢
    by_cases hb : (supervise k before .boot).1 = true
    · rw [if_pos hb] at hruns ⊢
      have hfed := (supervisePass_within (k := k) (w := (supervise k before .boot).2) (restarts_of_runs hruns)).1
      rw [forall_prop_of_true hfed, supervisePass_next hruns hr]
      constructor
      · rintro h before' a' heq -
        obtain ⟨rfl, ha'⟩ := List.append_inj' heq rfl
        obtain rfl : a = a' := by simpa using ha'
        exact h
      · exact fun h => h before a rfl hb
    · rw [if_neg hb] at hruns
      exact absurd hruns hb

/-- After a restart nothing is left to feed. -/
theorem supervise_stopped {passes : List PassAnswers} {next : PassAnswers}
    (hruns : ¬ ((supervise k passes .boot).1 = true ∧ next.reset.restarts k = false)) :
    ∀ before a, passes = before ++ [a] → (supervise k before .boot).1 = true →
      EnrolsInTime k (supervise k before .boot).2.gates a next := by
  rintro before a rfl hb he hr
  refine absurd ⟨?_, hr⟩ hruns
  rw [supervise_concat, if_pos hb]
  exact (supervisePass_enrols he).1

/-- The feeds of a run are in time exactly if each of its enrolments leaves the time for
the feed of the next pass. -/
theorem watchdog_fed_iff (k : SuperviseKconfig) (passes : List PassAnswers) :
    WatchdogFed k (supervise k passes .boot).2.trace ↔
      ∀ before a next, before ++ [a, next] <+: passes → (supervise k before .boot).1 = true →
        EnrolsInTime k (supervise k before .boot).2.gates a next := by
  induction passes using List.reverseRecOn with
  | nil =>
    refine iff_of_true fedWithin_nil fun before a next h => ?_
    have := h.length_le
    simp at this
  | append_singleton passes next ih =>
    rw [forall_consecutive_concat, ← ih, supervise_concat]
    by_cases hruns : (supervise k passes .boot).1 = true
    · rw [if_pos hruns]
      by_cases hr : next.reset.restarts k = true
      · rw [(supervisePass_restarts hr).2, and_iff_left (supervise_stopped (by simp [hr]))]
      · have hr : next.reset.restarts k = false := by simpa using hr
        rw [(supervisePass_within hr).2, supervise_next hruns hr, and_comm]
    · rw [if_neg hruns, and_iff_left (supervise_stopped (by simp [hruns]))]

/-- The default options. -/
def defaultSuperviseKconfig : SuperviseKconfig where
  toKconfig := defaultKconfig
  thingsboardProvisionTimeoutMs := 20000
  factoryResetEnable := true
  thresholdRange := by decide
  backoffRange := by decide
  timeoutRange := by decide

/-- A pass in this state in which every component does what it is asked. -/
def passIn (state : AppState) : PassAnswers where
  reset := ⟨state, .idle⟩
  provisioning := []
  appStateCurrent := state
  lampFsInit := true
  configuration := freshDevice
  networkManagerStart := true
  hasSavedCredentials := true
  rounds := []
  networkManagerIsConnected := true
  appStateAfter := state
  osalTaskGetTimeMs := 0
  gate := gateOpens
  isSynchronized := true
  firmwareHint := false
  otaRestarts := false
  retryExhausted := false

/-- The first boot of a fresh device. Its TLS gate connects for 30 s, enrols for 20 s and
connects for 30 s again, so the feed after it comes too late. -/
theorem watchdog_enrolled :
    let passes := [passIn .filesystem, passIn .configuration, passIn .network, passIn .tls]
    sinceMs defaultSuperviseKconfig (supervise defaultSuperviseKconfig passes .boot).2.trace = 80050 ∧
      ¬ WatchdogFed defaultSuperviseKconfig
        (supervise defaultSuperviseKconfig (passes ++ [passIn .sync]) .boot).2.trace := by
  decide +kernel

end LedLamp.AppMain
