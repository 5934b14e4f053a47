import LedLamp.AppMain.Session
import LedLamp.Conc.System
/-!
# What one run of the TLS gate does

`connectVerifiedTls_path` sums up `connect_verified_tls`: it makes no connect
attempt, or an attempt that fails, or it passes directly, or it enrols the device
first. `connectFailed_path` and `enrollDevice_path` sum up the two branches
below it. The theorems about the gate are case analyses over these shapes;
`tls_gate` is the first of them.
-/

namespace LedLamp.AppMain

open Conc Mqtt
open TbApplication (TbClient)

/-! ## Events -/

/-- The events of creating and destroying a session. -/
def Event.isSession : Event → Bool
  | .mqttCfgLoadAndApply _ _ | .tbClientInit _ _ | .tbClientDisconnect | .tbClientDeinit | .tbApplicationInit _ _
  | .tbApplicationDeinit => true
  | _ => false

def Event.isConnect : Event → Bool
  | .mqttCfgConnect _ => true
  | _ => false

def Event.isEnroll : Event → Bool
  | .tbProvisioningEnroll _ _ => true
  | _ => false

/-- From `s` to `s'` only the session changed, with events of that kind. -/
def SessionOnly (s s' : Statics) : Prop :=
  ∃ client events, s' = { s with tbClient := client, trace := events ++ s.trace } ∧ ∀ e ∈ events, e.isSession

theorem SessionOnly.refl (s : Statics) : SessionOnly s s := ⟨s.tbClient, [], rfl, by simp⟩

theorem SessionOnly.trans {s s' s'' : Statics} (h : SessionOnly s s') (h' : SessionOnly s' s'') : SessionOnly s s'' := by
  obtain ⟨_, events, rfl, he⟩ := h
  obtain ⟨client, events', rfl, he'⟩ := h'
  refine ⟨client, events' ++ events, by simp, fun e hm => ?_⟩
  rcases List.mem_append.1 hm with hm | hm
  · exact he' e hm
  · exact he e hm

theorem SessionOnly.did {s : Statics} {e : Event} (he : e.isSession) : SessionOnly s (s.did e) :=
  ⟨s.tbClient, [e], rfl, by simpa using he⟩

theorem SessionOnly.client (s : Statics) (client : Option TbClient) : SessionOnly s { s with tbClient := client } :=
  ⟨client, [], rfl, by simp⟩

theorem destroyThingsboardSession_frame (s : Statics) : SessionOnly s (destroyThingsboardSession s) := by
  unfold destroyThingsboardSession
  split
  · exact .refl s
  · exact ⟨none, [.tbClientDeinit, .tbClientDisconnect, .tbApplicationDeinit], rfl, by simp [Event.isSession]⟩

theorem initializeThingsboardClient_frame (a : SessionAnswers) (token clientId deviceName : List UInt8) (s : Statics) :
    SessionOnly s (initializeThingsboardClient a token clientId deviceName s).2 := by
  unfold initializeThingsboardClient
  split
  · exact .refl s
  · rename_i serverUrl _
    dsimp only
    have init : (Event.tbClientInit ⟨serverUrl, token, clientId, deviceName⟩ a.tbClientInit).isSession = true := rfl
    have opened := (SessionOnly.client s a.client).trans (.did init)
    split
    · exact opened
    · split
      · exact (opened.trans (.did rfl)).trans ((SessionOnly.client _ none).trans (.did rfl))
      · exact opened.trans (.did rfl)

theorem createThingsboardSession_frame (a : SessionAnswers) (s : Statics) :
    SessionOnly s (createThingsboardSession a s).2 := by
  unfold createThingsboardSession
  split
  · exact .refl s
  · dsimp only [loadBrokerTlsConfiguration]
    split
    · exact .did rfl
    · exact (SessionOnly.did rfl).trans (initializeThingsboardClient_frame a _ _ _ _)

/-! ## Paths -/

/-- The call gets as far as its connect. -/
def Attempts (a : GateAnswers) (s : Statics) : Bool :=
  !backoffRunning a.osalTaskGetTimeMs s && (s.tbNeedsProvisioning || deviceIdentityIsLoaded s.identity) &&
    (s.tbClient.isSome || (createThingsboardSession a.session { s with reprovisionBackoffActive := false }).1)

/-- What comes before the connect: the backoff may end, and a session be created. -/
def Prepared (s s' : Statics) : Prop := ∃ backoff, SessionOnly { s with reprovisionBackoffActive := backoff } s'

/-- The ways through `connect_verified_tls`. -/
inductive GatePath (k : Kconfig) (a : GateAnswers) (s : Statics) : Bool × Statics → Prop
  | idle {s₁ : Statics} (hp : Prepared s s₁) (ha : Attempts a s = false) : GatePath k a s (false, s₁)
  | failed {s₁ : Statics} (hp : Prepared s s₁) (ha : Attempts a s = true) (hc : a.mqttCfgConnect ≠ .ok) :
      GatePath k a s (false, connectFailed k a (s₁.did (.mqttCfgConnect a.mqttCfgConnect)))
  | direct {s₁ : Statics} (hp : Prepared s s₁) (ha : Attempts a s = true) (hc : a.mqttCfgConnect = .ok)
      (hn : s.tbNeedsProvisioning = false) (hi : deviceIdentityIsLoaded s.identity = true) :
      GatePath k a s (true, { s₁.did (.mqttCfgConnect .ok) with authRejectCount := 0 })
  | refused {s₁ s₂ : Statics} (hp : Prepared s s₁) (ha : Attempts a s = true) (hc : a.mqttCfgConnect = .ok)
      (hn : s.tbNeedsProvisioning = true) (he : enrollDevice k a (s₁.did (.mqttCfgConnect .ok)) = (false, s₂)) :
      GatePath k a s (false, s₂)
  | enrolled {s₁ s₂ : Statics} (hp : Prepared s s₁) (ha : Attempts a s = true) (hc : a.mqttCfgConnect = .ok)
      (hn : s.tbNeedsProvisioning = true) (he : enrollDevice k a (s₁.did (.mqttCfgConnect .ok)) = (true, s₂)) :
      GatePath k a s (true, { s₂ with authRejectCount := 0 })

/-- From its connect on, once a session is there. -/
theorem connectVerifiedTls_connect {k : Kconfig} {a : GateAnswers} {s s₁ : Statics} (hp : Prepared s s₁)
    (ha : Attempts a s = true) (hg : (s.tbNeedsProvisioning || deviceIdentityIsLoaded s.identity) = true) :
    let s₂ := s₁.did (.mqttCfgConnect a.mqttCfgConnect)
    GatePath k a s (if a.mqttCfgConnect ≠ .ok then (false, connectFailed k a s₂)
      else
        let (passed, s) := if s₂.tbNeedsProvisioning then enrollDevice k a s₂ else (true, s₂)
        if !passed then (false, s) else (true, { s with authRejectCount := 0 })) := by
  intro s₂
  by_cases hc : a.mqttCfgConnect = .ok
  · have hneeds : s₂.tbNeedsProvisioning = s.tbNeedsProvisioning := by
      obtain ⟨_, _, _, rfl, -⟩ := hp
      rfl
    have h2 : s₂ = s₁.did (.mqttCfgConnect .ok) := by simp only [s₂, hc]
    rw [if_neg (by simpa using hc), hneeds]
    cases hn : s.tbNeedsProvisioning with
    | false =>
      rw [hn, Bool.false_or] at hg
      rw [h2]
      exact .direct hp ha hc hn hg
    | true =>
      rw [h2]
      simp only [if_true]
      generalize he : enrollDevice k a (s₁.did (.mqttCfgConnect .ok)) = r
      obtain ⟨passed, s₃⟩ := r
      cases passed with
      | false => exact .refused hp ha hc hn he
      | true => exact .enrolled hp ha hc hn he
  · rw [if_pos hc]
    exact .failed hp ha hc

theorem connectVerifiedTls_path (k : Kconfig) (a : GateAnswers) (s : Statics) :
    GatePath k a s (connectVerifiedTls k a s) := by
  unfold connectVerifiedTls
  by_cases hb : backoffRunning a.osalTaskGetTimeMs s = true
  · rw [if_pos hb]
    exact .idle ⟨s.reprovisionBackoffActive, .refl s⟩ (by simp [Attempts, hb])
  rw [if_neg hb]
  dsimp only
  split
  · rename_i hg
    have hg : (s.tbNeedsProvisioning || deviceIdentityIsLoaded s.identity) = false := by simpa using hg
    exact .idle ⟨false, .refl _⟩ (by simp [Attempts, hg])
  rename_i hg
  have hg : (s.tbNeedsProvisioning || deviceIdentityIsLoaded s.identity) = true := by
    revert hg
    cases s.tbNeedsProvisioning <;> cases deviceIdentityIsLoaded s.identity <;> simp
  by_cases hc : s.tbClient = none
  · have frame := createThingsboardSession_frame a.session { s with reprovisionBackoffActive := false }
    rw [if_pos hc]
    generalize hcreate : createThingsboardSession a.session { s with reprovisionBackoffActive := false } = r at frame ⊢
    obtain ⟨ready, s₁⟩ := r
    cases ready with
    | false =>
      have hnone : s.tbClient.isSome = false := by simp [hc]
      exact .idle ⟨false, frame⟩ (by simp [Attempts, hnone, hcreate])
    | true => exact connectVerifiedTls_connect ⟨false, frame⟩ (by simp [Attempts, hb, hg, hcreate]) hg
  · rw [if_neg hc]
    refine connectVerifiedTls_connect ⟨false, .refl _⟩ ?_ hg
    simp [Attempts, hb, hg, Option.isSome_iff_ne_none.2 hc]

/-! ## The branches after the connect -/

theorem destroyThingsboardSession_if (b : Bool) (s : Statics) :
    SessionOnly s (if b then destroyThingsboardSession s else s) := by
  cases b with
  | false => exact .refl s
  | true => exact destroyThingsboardSession_frame s

/-- The ways through the branch of a failed connect. -/
inductive FailedPath (k : Kconfig) (a : GateAnswers) (s : Statics) : Statics → Prop
  | ignored {s' : Statics} (h : a.mqttCfgConnect ≠ .errAuthRejected ∨ s.tbNeedsProvisioning = true)
      (hs : SessionOnly s s') : FailedPath k a s s'
  | counted (h : a.mqttCfgConnect = .errAuthRejected) (hn : s.tbNeedsProvisioning = false)
      (hk : s.authRejectCount + 1 < k.authRejectReprovisionThreshold) :
      FailedPath k a s ({ s with authRejectCount := s.authRejectCount + 1 }.did
        (.credentialsRejected (s.authRejectCount + 1)))
  | unavailable {e : TbProvisioningStatus} (h : a.mqttCfgConnect = .errAuthRejected) (hn : s.tbNeedsProvisioning = false)
      (hk : k.authRejectReprovisionThreshold ≤ s.authRejectCount + 1) (hl : a.tbProvisioningLoad = .error e) :
      FailedPath k a s (({ s with authRejectCount := 0 }.did (.credentialsRejected (s.authRejectCount + 1))).did
        (.tbProvisioningLoad false))
  | scheduled {config : TbProvisioningConfig} {s' : Statics} (h : a.mqttCfgConnect = .errAuthRejected)
      (hn : s.tbNeedsProvisioning = false) (hk : k.authRejectReprovisionThreshold ≤ s.authRejectCount + 1)
      (hl : a.tbProvisioningLoad = .ok config)
      (hs : SessionOnly (({ s with
          authRejectCount := 0, provisioningConfig := config, tbNeedsProvisioning := true }.did
            (.credentialsRejected (s.authRejectCount + 1))).did (.tbProvisioningLoad true)) s') :
      FailedPath k a s s'

/-- A session is destroyed the same in both modes. -/
theorem destroyThingsboardSession_needs (s : Statics) (needs : Bool) :
    { destroyThingsboardSession s with tbNeedsProvisioning := needs } =
      destroyThingsboardSession { s with tbNeedsProvisioning := needs } := by
  obtain ⟨client, _, _, _, _, _, _, _⟩ := s
  cases client <;> rfl

theorem connectFailed_path (k : Kconfig) (a : GateAnswers) (s : Statics) : FailedPath k a s (connectFailed k a s) := by
  unfold connectFailed
  by_cases h : a.mqttCfgConnect = .errAuthRejected ∧ (!s.tbNeedsProvisioning) = true
  · rw [if_pos h]
    obtain ⟨hc, hn⟩ := h
    have hn : s.tbNeedsProvisioning = false := by simpa using hn
    unfold countRejection Statics.provisioningLoad
    dsimp only
    by_cases hk : s.authRejectCount + 1 ≥ k.authRejectReprovisionThreshold
    · rw [if_pos hk]
      cases hl : a.tbProvisioningLoad with
      | error e =>
        simp only [Bool.false_eq_true, if_false, Statics.did, hn]
        simpa only [Statics.did, hn] using FailedPath.unavailable (k := k) hc hn hk hl
      | ok config =>
        simp only [if_true]
        refine .scheduled hc hn hk hl ?_
        rw [destroyThingsboardSession_needs]
        exact (destroyThingsboardSession_frame _).trans (destroyThingsboardSession_frame _)
    · rw [if_neg hk]
      simp only [Statics.did, hn, Bool.false_eq_true, if_false]
      simpa only [Statics.did, hn] using FailedPath.counted (k := k) hc hn (by omega)
  · rw [if_neg h]
    refine .ignored ?_ (destroyThingsboardSession_if _ s)
    by_cases hc : a.mqttCfgConnect = .errAuthRejected
    · exact .inr (by simpa [hc] using h)
    · exact .inl hc

/-- The ways through the branch of a connect in bootstrap mode. -/
inductive EnrollPath (k : Kconfig) (a : GateAnswers) (s : Statics) : Bool × Statics → Prop
  | refused {s' : Statics} (h : a.tbProvisioningEnroll ≠ .ok)
      (hs : SessionOnly (s.did (.tbProvisioningEnroll s.provisioningConfig a.tbProvisioningEnroll)) s') :
      EnrollPath k a s (false, { s' with
        reprovisionBackoffActive := true, reprovisionRetryAtMs := a.osalTaskGetTimeMsAfter + k.reprovisionBackoffMs })
  | unreadable {s' : Statics} {status : DeviceIdentityStatus} {identity : DeviceIdentity}
      (h : a.tbProvisioningEnroll = .ok) (hl : deviceIdentityLoad a.identity = (status, identity)) (hne : status ≠ .ok)
      (hs : SessionOnly ((({ s with identity }.did (.tbProvisioningEnroll s.provisioningConfig .ok)).did
        (.deviceIdentityLoad status)).did .lampControlForceInactive) s') :
      EnrollPath k a s (false, { s' with
        reprovisionBackoffActive := true, reprovisionRetryAtMs := a.osalTaskGetTimeMsAfter + k.reprovisionBackoffMs })
  | accepted {r : Bool × Statics} {identity : DeviceIdentity} (h : a.tbProvisioningEnroll = .ok)
      (hl : deviceIdentityLoad a.identity = (.ok, identity))
      (hu : useIdentity a (({ s with identity }.did (.tbProvisioningEnroll s.provisioningConfig .ok)).did
        (.deviceIdentityLoad .ok)) = r) : EnrollPath k a s r

theorem enrollDevice_path (k : Kconfig) (a : GateAnswers) (s : Statics) : EnrollPath k a s (enrollDevice k a s) := by
  unfold enrollDevice loadDeviceIdentity Statics.identityLoad
  dsimp only
  by_cases h : a.tbProvisioningEnroll = .ok
  · rw [if_neg (by simp [h])]
    generalize hl : deviceIdentityLoad a.identity = loaded
    obtain ⟨status, identity⟩ := loaded
    by_cases hs : status = .ok
    · subst hs
      simp only [h]
      exact .accepted h hl rfl
    · simp only [hs, h, decide_false, Bool.not_false, if_true, ne_eq, not_false_eq_true]
      exact .unreadable h hl hs (destroyThingsboardSession_frame _)
  · rw [if_pos h]
    exact .refused h (destroyThingsboardSession_frame _)

/-- With a loaded identity the branch hands it to the client, applies the broker
configuration with it and connects, as far as it gets. -/
theorem useIdentity_loaded {a : GateAnswers} {s : Statics} (hi : deviceIdentityIsLoaded s.identity = true) :
    ∃ token clientId,
      let s₁ := s.did (.tbClientUpdateCredentials token clientId a.tbClientUpdateCredentials)
      let s₂ := s₁.did (.mqttCfgLoadAndApply s.identity a.mqttCfgLoadAndApply)
      useIdentity a s =
        if a.tbClientUpdateCredentials ≠ 0 then (false, s₁)
        else if a.mqttCfgLoadAndApply ≠ .ok then (false, destroyThingsboardSession s₂)
        else (a.mqttCfgReconnect = .ok, { s₂ with tbNeedsProvisioning := false }.did (.mqttCfgConnect a.mqttCfgReconnect)) := by
  rcases deviceIdentity_getters s.identity with ⟨-, credentials, -, ht, hc⟩ | ⟨hf, -, -⟩
  · refine ⟨credentials.accessToken, credentials.clientId, ?_⟩
    simp only [useIdentity, ht, hc, loadBrokerTlsConfiguration]
    by_cases hu : a.tbClientUpdateCredentials = 0
    · by_cases hl : a.mqttCfgLoadAndApply = .ok <;> simp [hu, hl, Statics.did]
    · simp [hu]
  · rw [hf] at hi
    cases hi

/-- An enrolment that is accepted: what follows it, up to the end of the call. -/
theorem enrollDevice_passed {k : Kconfig} {a : GateAnswers} {s s' : Statics} (h : enrollDevice k a s = (true, s')) :
    ∃ token clientId identity, deviceIdentityLoad a.identity = (.ok, identity) ∧ a.tbProvisioningEnroll = .ok ∧
      s' = { s with
        tbNeedsProvisioning := false, identity
        trace := .mqttCfgConnect .ok :: .mqttCfgLoadAndApply identity .ok ::
          .tbClientUpdateCredentials token clientId 0 :: .deviceIdentityLoad .ok ::
          .tbProvisioningEnroll s.provisioningConfig .ok :: s.trace } := by
  have path := enrollDevice_path k a s
  rw [h] at path
  cases path with
  | @accepted r identity he hl hu =>
    have loaded := deviceIdentityLoad_loaded hl
    obtain ⟨token, clientId, hi⟩ := useIdentity_loaded (a := a)
      (s := ({ s with identity }.did (.tbProvisioningEnroll s.provisioningConfig .ok)).did (.deviceIdentityLoad .ok)) loaded
    rw [hi] at hu
    by_cases h1 : a.tbClientUpdateCredentials = 0
    · by_cases h2 : a.mqttCfgLoadAndApply = .ok
      · rw [if_neg (by simp [h1]), if_neg (by simp [h2])] at hu
        obtain ⟨h3, rfl⟩ := Prod.mk.inj hu
        refine ⟨token, clientId, identity, hl, he, ?_⟩
        simp only [Statics.did, h1, h2, of_decide_eq_true h3]
      · rw [if_neg (by simp [h1]), if_pos h2] at hu
        cases hu
    · rw [if_pos h1] at hu
      cases hu

/-! ## The TLS gate -/

/-- After the last enrolment the identity was loaded, and then the broker
configuration applied with it. -/
def Reapplied (identity : DeviceIdentity) : List Event → Prop :=
  Since (fun e => e.isEnroll = false) fun e past => e = .mqttCfgLoadAndApply identity .ok ∧
    Since (fun e => e.isEnroll = false) (fun e past => e = .deviceIdentityLoad .ok ∧
      Since (fun e => e.isEnroll = false) (fun e _ => ∃ config, e = .tbProvisioningEnroll config .ok) past) past

/-- The last connect of these events worked; if there was an enrolment, the broker
configuration was applied again in between. -/
def Connected (identity : DeviceIdentity) : List Event → Prop :=
  Since (fun e => e.isConnect = false ∧ e.isEnroll = false) fun e past => e = .mqttCfgConnect .ok ∧
    ((∃ e' ∈ past, e'.isEnroll = true) → Reapplied identity past)

theorem no_enroll {events : List Event} (h : ∀ e ∈ events, e.isSession) : ¬ ∃ e ∈ events, e.isEnroll = true := by
  rintro ⟨e, hm, he⟩
  have := h e hm
  cases e <;> simp [Event.isSession, Event.isEnroll] at this he

/-- The gate is passed only with a loaded identity, outside bootstrap mode, and after
a connect that worked; after an enrolment, with its identity applied. -/
theorem tls_gate (k : Kconfig) (calls : List Call) (a : GateAnswers) :
    let s := run k calls .boot
    let r := connectVerifiedTls k a s
    r.1 = true →
      deviceIdentityIsLoaded r.2.identity = true ∧ r.2.tbNeedsProvisioning = false ∧
        ∃ events, r.2.trace = events ++ s.trace ∧ Connected r.2.identity events ∧
          ((∃ e ∈ events, e.isEnroll = true) → deviceIdentityLoad a.identity = (.ok, r.2.identity)) := by
  intro s r h
  have path : GatePath k a s r := connectVerifiedTls_path k a s
  generalize r = r at path h
  cases path with
  | idle | failed | refused => cases h
  | direct hp _ _ hn hi =>
    obtain ⟨_, _, events, rfl, hevents⟩ := hp
    refine ⟨hi, hn, .mqttCfgConnect .ok :: events, rfl, .now ⟨rfl, fun he => absurd he (no_enroll hevents)⟩, ?_⟩
    rintro ⟨e, hm, he⟩
    rcases List.mem_cons.1 hm with rfl | hm
    · cases he
    · exact absurd ⟨e, hm, he⟩ (no_enroll hevents)
  | enrolled hp _ _ _ he =>
    obtain ⟨token, clientId, identity, hl, -, rfl⟩ := enrollDevice_passed he
    obtain ⟨_, _, events, rfl, -⟩ := hp
    have loaded := deviceIdentityLoad_loaded hl
    refine ⟨loaded, rfl, .mqttCfgConnect .ok :: .mqttCfgLoadAndApply identity .ok ::
      .tbClientUpdateCredentials token clientId 0 :: .deviceIdentityLoad .ok ::
      .tbProvisioningEnroll _ .ok :: .mqttCfgConnect .ok :: events, rfl, .now ⟨rfl, fun _ => ?_⟩, fun _ => hl⟩
    exact .now ⟨rfl, .later rfl (.now ⟨rfl, .now ⟨_, rfl⟩⟩)⟩

/-- A fresh device passes the gate by enrolling. -/
theorem tls_gate_enrolled :
    let s := run defaultKconfig [.loadConfiguration freshDevice] .boot
    let r := connectVerifiedTls defaultKconfig gateOpens s
    r.1 = true ∧ s.tbNeedsProvisioning = true ∧ r.2.tbNeedsProvisioning = false ∧
      ∃ events, r.2.trace = events ++ s.trace ∧ Connected r.2.identity events := by
  have h : (connectVerifiedTls defaultKconfig gateOpens
    (run defaultKconfig [.loadConfiguration freshDevice] .boot)).1 = true := by decide +kernel
  obtain ⟨-, hn, events, ht, hc, -⟩ := tls_gate defaultKconfig [.loadConfiguration freshDevice] gateOpens h
  exact ⟨h, by decide +kernel, hn, events, ht, hc⟩

end LedLamp.AppMain
