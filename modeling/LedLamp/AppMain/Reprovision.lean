import LedLamp.AppMain.Gate
/-!
# When the device enrols

Two histories of the TLS gate. An accepted enrolment is the last one until the
reject threshold is reached again, as long as each call that accepts one also gets
its client and its broker configuration updated (`enrolled_once`); a call that
fails in between leaves the device in bootstrap mode (`enrolled_twice`).

The threshold counts consecutive rejections as long as no attempt fails in another
way while the count runs (`reprovision_consecutive`): such an attempt does not
start the count afresh (`reprovision_interrupted`).
-/

namespace LedLamp.AppMain

open Conc Mqtt

/-! ## Enrolments -/

/-- The reject threshold was reached. -/
def Event.atThreshold (k : Kconfig) : Event → Bool
  | .credentialsRejected count => k.authRejectReprovisionThreshold ≤ count
  | _ => false

/-- An enrolment persisted its identity. -/
def Event.persists : Event → Bool
  | .tbProvisioningEnroll _ status => status = .ok
  | _ => false

/-- An enrolment was persisted, and its identity then loaded. -/
def Accepted (e : Event) (past : List Event) : Prop :=
  e = .deviceIdentityLoad .ok ∧ past.head?.any Event.persists = true

/-- The device enrolled, and the threshold was not reached since. -/
def Enrolled (k : Kconfig) : List Event → Prop := Since (fun e => e.atThreshold k = false) Accepted

/-- An enrolment is not a second one. -/
def NotAgain (k : Kconfig) (e : Event) (past : List Event) : Prop := e.isEnroll = true → ¬ Enrolled k past

instance (k : Kconfig) (trace : List Event) : Decidable (Enrolled k trace) :=
  have (e : Event) (past : List Event) : Decidable (Accepted e past) := inferInstanceAs (Decidable (_ ∧ _))
  Since.decide trace

instance (k : Kconfig) (e : Event) (past : List Event) : Decidable (NotAgain k e past) :=
  inferInstanceAs (Decidable (_ → ¬ Enrolled k past))

/-- What follows an accepted enrolment works: the client takes the new credentials,
and the broker configuration is applied. -/
def GateAnswers.Completes (a : GateAnswers) : Prop :=
  a.tbProvisioningEnroll = .ok → (deviceIdentityLoad a.identity).1 = .ok →
    a.tbClientUpdateCredentials = 0 ∧ a.mqttCfgLoadAndApply = .ok

/-- An enrolled device is not in bootstrap mode, and enrolled only once. -/
structure EnrollInv (k : Kconfig) (needs : Bool) (trace : List Event) : Prop where
  enrolled : Enrolled k trace → needs = false
  once : Every (NotAgain k) trace

/-- An event that neither enrols nor ends an enrolment. -/
def Neutral (k : Kconfig) (e : Event) : Prop :=
  e.isEnroll = false ∧ e.atThreshold k = false ∧ e ≠ .deviceIdentityLoad .ok

theorem Neutral.of_session {k : Kconfig} {e : Event} (h : e.isSession = true) : Neutral k e := by
  cases e <;> simp [Event.isSession, Neutral, Event.isEnroll, Event.atThreshold] at h ⊢

theorem enrolled_skip {k : Kconfig} {e : Event} (ht : e.atThreshold k = false) (hl : e ≠ .deviceIdentityLoad .ok)
    (past : List Event) : Enrolled k (e :: past) ↔ Enrolled k past :=
  since_skip ht fun ha => hl ha.1

variable {k : Kconfig} {needs : Bool} {trace : List Event} {a : GateAnswers} {s : Statics}

namespace EnrollInv

theorem neutral (hi : EnrollInv k needs trace) {e : Event} (he : Neutral k e) : EnrollInv k needs (e :: trace) where
  enrolled h := hi.enrolled ((enrolled_skip he.2.1 he.2.2 trace).1 h)
  once := by
    refine ⟨fun h => ?_, hi.once⟩
    rw [he.1] at h
    cases h

theorem session (hi : EnrollInv k needs trace) {events : List Event} (he : ∀ e ∈ events, e.isSession) :
    EnrollInv k needs (events ++ trace) := by
  induction events with
  | nil => exact hi
  | cons e events ih =>
    rw [List.forall_mem_cons] at he
    exact (ih he.2).neutral (.of_session he.1)

theorem sessionOnly {s s' : Statics} (hi : EnrollInv k s.tbNeedsProvisioning s.trace) (hs : SessionOnly s s') :
    EnrollInv k s'.tbNeedsProvisioning s'.trace := by
  obtain ⟨_, events, rfl, he⟩ := hs
  exact hi.session he

theorem prepared {s s' : Statics} (hi : EnrollInv k s.tbNeedsProvisioning s.trace) (hs : Prepared s s') :
    EnrollInv k s'.tbNeedsProvisioning s'.trace := by
  obtain ⟨_, _, events, rfl, he⟩ := hs
  exact hi.session he

/-- At the threshold the device may go back to bootstrap mode. -/
theorem threshold (hi : EnrollInv k needs trace) {count : Nat} (hk : k.authRejectReprovisionThreshold ≤ count)
    (needs' : Bool) : EnrollInv k needs' (.credentialsRejected count :: trace) where
  enrolled h := by
    rcases h with ⟨h, -⟩ | ⟨h, -⟩
    · cases h
    · simp [Event.atThreshold, hk] at h
  once := ⟨fun h => (by cases h), hi.once⟩

/-- In bootstrap mode the device may enrol. -/
theorem enroll (hi : EnrollInv k true trace) (config : TbProvisioningConfig) (status : TbProvisioningStatus) :
    EnrollInv k true (.tbProvisioningEnroll config status :: trace) := by
  have hnot : ¬ Enrolled k trace := fun h => absurd (hi.enrolled h) (by simp)
  exact ⟨fun h => absurd ((enrolled_skip rfl (by simp) trace).1 h) hnot, fun _ => hnot, hi.once⟩

end EnrollInv

theorem connectFailed_inv (hi : EnrollInv k s.tbNeedsProvisioning s.trace) :
    EnrollInv k (connectFailed k a s).tbNeedsProvisioning (connectFailed k a s).trace := by
  have path := connectFailed_path k a s
  generalize connectFailed k a s = s' at path ⊢
  cases path with
  | ignored _ hs => exact hi.sessionOnly hs
  | counted _ _ hk =>
    refine hi.neutral ⟨rfl, ?_, by simp⟩
    simpa [Event.atThreshold] using hk
  | unavailable _ _ hk _ => exact (hi.threshold hk _).neutral ⟨rfl, rfl, by simp⟩
  | scheduled _ _ hk _ hs => exact ((hi.threshold hk true).neutral ⟨rfl, rfl, by simp⟩).sessionOnly hs

/-- A call that enrols in bootstrap mode and completes leaves the device enrolled. -/
theorem enrollDevice_inv (hc : a.Completes) (hn : s.tbNeedsProvisioning = true) (hi : EnrollInv k true s.trace) :
    EnrollInv k (enrollDevice k a s).2.tbNeedsProvisioning (enrollDevice k a s).2.trace := by
  have path := enrollDevice_path k a s
  generalize enrollDevice k a s = r at path ⊢
  cases path with
  | @refused s' _ hs =>
    refine @EnrollInv.sessionOnly k _ s' ?_ hs
    simpa only [Statics.did, hn] using hi.enroll _ _
  | @unreadable s' _ _ _ _ hne hs =>
    refine @EnrollInv.sessionOnly k _ s' ?_ hs
    simp only [Statics.did, hn]
    exact ((hi.enroll _ _).neutral ⟨rfl, rfl, by simpa using hne⟩).neutral ⟨rfl, rfl, by simp⟩
  | @accepted r identity he hl hu =>
    obtain ⟨hupdate, hreload⟩ := hc he (by rw [hl])
    have loaded := deviceIdentityLoad_loaded hl
    obtain ⟨token, clientId, h⟩ := useIdentity_loaded (a := a)
      (s := ({ s with identity }.did (.tbProvisioningEnroll s.provisioningConfig .ok)).did (.deviceIdentityLoad .ok)) loaded
    rw [h, if_neg (by simp [hupdate]), if_neg (by simp [hreload])] at hu
    subst hu
    have once := (hi.enroll s.provisioningConfig .ok).once
    have loaded : EnrollInv k false (.deviceIdentityLoad .ok :: .tbProvisioningEnroll s.provisioningConfig .ok :: s.trace) :=
      ⟨fun _ => rfl, fun h => (by cases h), once⟩
    exact ((loaded.neutral ⟨rfl, rfl, by simp⟩).neutral ⟨rfl, rfl, by simp⟩).neutral ⟨rfl, rfl, by simp⟩

theorem connectVerifiedTls_inv (hc : a.Completes) (hi : EnrollInv k s.tbNeedsProvisioning s.trace) :
    EnrollInv k (connectVerifiedTls k a s).2.tbNeedsProvisioning (connectVerifiedTls k a s).2.trace := by
  have connected : ∀ {s₁ : Statics} (status : MqttCfgStatus), Prepared s s₁ →
      EnrollInv k s₁.tbNeedsProvisioning (.mqttCfgConnect status :: s₁.trace) := fun status hp =>
    (hi.prepared hp).neutral ⟨rfl, rfl, by simp⟩
  have enrolls : ∀ {s₁ : Statics}, Prepared s s₁ → s.tbNeedsProvisioning = true →
      let r := enrollDevice k a (s₁.did (.mqttCfgConnect .ok))
      EnrollInv k r.2.tbNeedsProvisioning r.2.trace := fun {s₁} hp hn => by
    have hn₁ : s₁.tbNeedsProvisioning = true := by
      obtain ⟨_, _, _, rfl, -⟩ := hp
      exact hn
    exact enrollDevice_inv hc hn₁ (hn₁ ▸ connected .ok hp)
  have path := connectVerifiedTls_path k a s
  generalize connectVerifiedTls k a s = r at path ⊢
  cases path with
  | idle hp _ => exact hi.prepared hp
  | failed hp _ _ => exact connectFailed_inv (connected _ hp)
  | direct hp _ _ _ _ => exact connected _ hp
  | refused hp _ _ hn he =>
    have := enrolls hp hn
    rwa [he] at this
  | enrolled hp _ _ hn he =>
    have := enrolls hp hn
    rwa [he] at this

/-- In every run of the gate whose accepted enrolments complete, the device enrols
again only after the threshold was reached. -/
theorem enrolled_once (k : Kconfig) (calls : List GateAnswers) (s : Statics) (h0 : s.trace = [])
    (hc : ∀ a ∈ calls, a.Completes) : Every (NotAgain k) (run k (calls.map .connectVerifiedTls) s).trace := by
  have keeps : ∀ s : Statics, EnrollInv k s.tbNeedsProvisioning s.trace →
      let s' := run k (calls.map .connectVerifiedTls) s
      EnrollInv k s'.tbNeedsProvisioning s'.trace := by
    induction calls with
    | nil => exact fun _ hi => hi
    | cons a calls ih =>
      rw [List.forall_mem_cons] at hc
      exact fun s hi => ih hc.2 _ (connectVerifiedTls_inv hc.1 hi)
  exact (keeps s ⟨fun h => by rw [h0] at h; exact h.elim, by rw [h0]; trivial⟩).once

/-- A fresh device, about to enrol. -/
def aboutToEnroll : Statics := { run defaultKconfig [.loadConfiguration freshDevice] .boot with trace := [] }

/-- One enrolment serves any number of calls, here one whose second connect fails and
the one after it. -/
theorem enrolled_once_retry : Every (NotAgain defaultKconfig)
    (run defaultKconfig [.connectVerifiedTls { gateOpens with mqttCfgReconnect := .errConnect },
      .connectVerifiedTls gateOpens] aboutToEnroll).trace := by
  refine enrolled_once defaultKconfig [{ gateOpens with mqttCfgReconnect := .errConnect }, gateOpens] aboutToEnroll rfl ?_
  intro a ha _ _
  simp only [List.mem_cons, List.not_mem_nil, or_false] at ha
  rcases ha with rfl | rfl <;> exact ⟨rfl, rfl⟩

/-- The client refuses the new credentials, so the next call enrols the device again. -/
theorem enrolled_twice :
    let calls := [{ gateOpens with tbClientUpdateCredentials := -1 }, gateOpens]
    ¬ Every (NotAgain defaultKconfig) (run defaultKconfig (calls.map .connectVerifiedTls) aboutToEnroll).trace := by
  decide +kernel

/-! ## Consecutive rejections -/

/-- The outcomes of the connect attempts, newest first. -/
def attempts : List Event → List MqttCfgStatus
  | [] => []
  | .mqttCfgConnect status :: past => status :: attempts past
  | _ :: past => attempts past

/-- How many attempts were rejected in a row since the last reset: another outcome
resets the count, and so does reaching the threshold. -/
def streak (k : Kconfig) : List MqttCfgStatus → Nat
  | [] => 0
  | .errAuthRejected :: past =>
    if k.authRejectReprovisionThreshold ≤ streak k past + 1 then 0 else streak k past + 1
  | _ :: _ => 0

/-- An attempt fails, but not by a rejection, while the count runs. -/
def Interrupts (a : GateAnswers) (s : Statics) : Prop :=
  Attempts a s = true ∧ s.authRejectCount ≠ 0 ∧ a.mqttCfgConnect ≠ .ok ∧ a.mqttCfgConnect ≠ .errAuthRejected

/-- The runs of the gate on an enrolled device, from a reset of the count, without
such an attempt. -/
inductive EnrolledRun (k : Kconfig) : Statics → Prop
  | start {s : Statics} (hn : s.tbNeedsProvisioning = false) (h0 : s.authRejectCount = 0) (ht : s.trace = []) :
      EnrolledRun k s
  | step {s : Statics} (hr : EnrolledRun k s) (hn : s.tbNeedsProvisioning = false) {a : GateAnswers}
      (hi : ¬ Interrupts a s) : EnrolledRun k (connectVerifiedTls k a s).2

/-- What a call on an enrolled device does about the threshold: it schedules
re-provisioning only after that many rejections in a row, and then whenever the
bootstrap credentials load; any other outcome starts the count afresh. -/
structure CountsConsecutive (k : Kconfig) (a : GateAnswers) (s : Statics) : Prop where
  only : (connectVerifiedTls k a s).2.tbNeedsProvisioning = true →
    List.replicate k.authRejectReprovisionThreshold .errAuthRejected <+: attempts (connectVerifiedTls k a s).2.trace
  afresh : Attempts a s = true → a.mqttCfgConnect ≠ .errAuthRejected → (connectVerifiedTls k a s).2.authRejectCount = 0
  schedules : Attempts a s = true → a.mqttCfgConnect = .errAuthRejected →
    k.authRejectReprovisionThreshold ≤ streak k (attempts s.trace) + 1 → (∃ config, a.tbProvisioningLoad = .ok config) →
    (connectVerifiedTls k a s).2.tbNeedsProvisioning = true

/-- The count is the number of rejections in a row since the last reset, and the
latest attempts are those rejections. -/
structure CountInv (k : Kconfig) (count : Nat) (outcomes : List MqttCfgStatus) : Prop where
  streak : count = streak k outcomes
  latest : List.replicate count .errAuthRejected <+: outcomes

theorem CountInv.reset (k : Kconfig) {outcomes : List MqttCfgStatus} (h : AppMain.streak k outcomes = 0) :
    CountInv k 0 outcomes := ⟨h.symm, List.nil_prefix⟩

theorem CountInv.rejected {k : Kconfig} {count : Nat} {outcomes : List MqttCfgStatus} (h : CountInv k count outcomes) :
    List.replicate (count + 1) .errAuthRejected <+: .errAuthRejected :: outcomes := by
  rw [List.replicate_succ, List.cons_prefix_cons]
  exact ⟨rfl, h.latest⟩

theorem attempts_session {events past : List Event} (he : ∀ e ∈ events, e.isSession) :
    attempts (events ++ past) = attempts past := by
  induction events with
  | nil => rfl
  | cons e events ih =>
    rw [List.forall_mem_cons] at he
    have h := he.1
    cases e <;> simp [Event.isSession, attempts, ih he.2] at h ⊢

/-- The state in which a call connects has the same count and attempts. -/
theorem Prepared.same {s s' : Statics} (h : Prepared s s') : s'.tbNeedsProvisioning = s.tbNeedsProvisioning ∧
    s'.authRejectCount = s.authRejectCount ∧ attempts s'.trace = attempts s.trace := by
  obtain ⟨_, _, events, rfl, he⟩ := h
  exact ⟨rfl, rfl, attempts_session he⟩

theorem SessionOnly.same {s s' : Statics} (h : SessionOnly s s') : s'.tbNeedsProvisioning = s.tbNeedsProvisioning ∧
    s'.authRejectCount = s.authRejectCount ∧ attempts s'.trace = attempts s.trace := by
  obtain ⟨_, events, rfl, he⟩ := h
  exact ⟨rfl, rfl, attempts_session he⟩

theorem streak_other {status : MqttCfgStatus} (h : status ≠ .errAuthRejected) (past : List MqttCfgStatus) :
    streak k (status :: past) = 0 := by
  cases status <;> simp [streak] at h ⊢

/-- The branch of a failed connect on an enrolled device, whose attempt is the latest
of `outcomes`. -/
theorem connectFailed_counts {outcomes : List MqttCfgStatus} (hn : s.tbNeedsProvisioning = false)
    (ho : attempts s.trace = a.mqttCfgConnect :: outcomes) (hi : CountInv k s.authRejectCount outcomes)
    (hint : a.mqttCfgConnect ≠ .errAuthRejected → s.authRejectCount = 0) :
    let s' := connectFailed k a s
    attempts s'.trace = attempts s.trace ∧ CountInv k s'.authRejectCount (attempts s'.trace) ∧
      (s'.tbNeedsProvisioning = true ↔ a.mqttCfgConnect = .errAuthRejected ∧
        k.authRejectReprovisionThreshold ≤ streak k outcomes + 1 ∧ ∃ config, a.tbProvisioningLoad = .ok config) := by
  intro s'
  have path : FailedPath k a s s' := connectFailed_path k a s
  generalize s' = s'' at path ⊢
  cases path with
  | ignored h hs =>
    obtain ⟨hneeds, hcount, hsame⟩ := hs.same
    have h : a.mqttCfgConnect ≠ .errAuthRejected := h.resolve_right (by simp [hn])
    rw [hsame, hcount, hint h, hneeds, hn, ho]
    exact ⟨rfl, .reset k (streak_other h outcomes), by simp [h]⟩
  | counted h _ hk =>
    simp only [Statics.did, attempts, ho, h, hn]
    rw [h] at ho
    have hk' : ¬ k.authRejectReprovisionThreshold ≤ streak k outcomes + 1 := by rw [← hi.streak]; omega
    refine ⟨trivial, ⟨?_, hi.rejected⟩, by simp [hk']⟩
    rw [streak, if_neg hk', hi.streak]
  | unavailable h _ hk hl =>
    have hk' : k.authRejectReprovisionThreshold ≤ streak k outcomes + 1 := by rw [← hi.streak]; exact hk
    simp only [Statics.did, attempts, ho, h, hn, hl]
    exact ⟨trivial, .reset k (by rw [streak, if_pos hk']), by simp⟩
  | scheduled h _ hk hl hs =>
    obtain ⟨hneeds, hcount, hsame⟩ := hs.same
    have hk' : k.authRejectReprovisionThreshold ≤ streak k outcomes + 1 := by rw [← hi.streak]; exact hk
    rw [hsame, hcount, hneeds]
    simp only [Statics.did, attempts, ho, h, hl]
    exact ⟨trivial, .reset k (by rw [streak, if_pos hk']), by simp [hk']⟩

/-- One call on an enrolled device: without an interruption the threshold counts
consecutive rejections, and the count stays right. -/
theorem connectVerifiedTls_counts (hn : s.tbNeedsProvisioning = false)
    (hi : CountInv k s.authRejectCount (attempts s.trace)) (hint : ¬ Interrupts a s) :
    CountsConsecutive k a s ∧
      CountInv k (connectVerifiedTls k a s).2.authRejectCount (attempts (connectVerifiedTls k a s).2.trace) := by
  have path := connectVerifiedTls_path k a s
  generalize hr : connectVerifiedTls k a s = r at path
  cases path with
  | idle hp ha =>
    obtain ⟨hneeds, hcount, hsame⟩ := hp.same
    refine ⟨⟨fun h => ?_, fun h => ?_, fun h => ?_⟩, by rw [hcount, hsame]; exact hi⟩
    · rw [hr, hneeds, hn] at h
      cases h
    all_goals
      rw [ha] at h
      cases h
  | @failed s₁ hp ha hc =>
    obtain ⟨hneeds, hcount, hsame⟩ := hp.same
    rw [hn] at hneeds
    rw [← hcount, ← hsame] at hi
    -- Without an interruption, another failure finds no count to leave behind.
    have zero : a.mqttCfgConnect ≠ .errAuthRejected → s.authRejectCount = 0 := fun h => by
      by_contra h0
      exact hint ⟨ha, h0, hc, h⟩
    have latest : attempts (s₁.did (.mqttCfgConnect a.mqttCfgConnect)).trace =
        a.mqttCfgConnect :: attempts s₁.trace := rfl
    obtain ⟨hout, hinv, hsched⟩ := connectFailed_counts (s := s₁.did (.mqttCfgConnect a.mqttCfgConnect))
      hneeds latest hi fun h => hcount.trans (zero h)
    refine ⟨⟨fun h => ?_, fun _ h => ?_, fun _ h hk hl => ?_⟩, hinv⟩
    · rw [hr] at h ⊢
      obtain ⟨hrej, hk, -⟩ := hsched.1 h
      rw [← hi.streak] at hk
      have latest := hi.rejected
      rw [hout]
      simp only [Statics.did, attempts, hrej]
      refine (List.prefix_replicate_iff.2 ⟨?_, ?_⟩).trans latest <;> simp [hk]
    · rw [hr, hinv.streak, hout]
      exact streak_other h _
    · rw [hr]
      rw [← hsame] at hk
      exact hsched.2 ⟨h, hk, hl⟩
  | direct hp ha hc _ _ =>
    obtain ⟨hneeds, -, -⟩ := hp.same
    refine ⟨⟨fun h => ?_, fun _ _ => by rw [hr], fun _ h => ?_⟩, .reset k rfl⟩
    · rw [hr] at h
      have : s.tbNeedsProvisioning = true := hneeds ▸ h
      rw [hn] at this
      cases this
    · rw [hc] at h
      cases h
  | refused _ _ _ h _ | enrolled _ _ _ h _ =>
    rw [hn] at h
    cases h

theorem EnrolledRun.inv (hr : EnrolledRun k s) : CountInv k s.authRejectCount (attempts s.trace) := by
  induction hr with
  | start _ h0 ht =>
    rw [h0, ht]
    exact .reset k rfl
  | step _ hn hi ih => exact (connectVerifiedTls_counts hn ih hi).2

/-- An attempt that fails in another way while the count runs leaves the count as it is. -/
theorem interrupted_keeps (hn : s.tbNeedsProvisioning = false) (hint : Interrupts a s) :
    (connectVerifiedTls k a s).2.authRejectCount = s.authRejectCount := by
  obtain ⟨ha, -, hok, hrej⟩ := hint
  have path := connectVerifiedTls_path k a s
  generalize connectVerifiedTls k a s = r at path ⊢
  cases path with
  | idle _ h =>
    rw [ha] at h
    cases h
  | @failed s₁ hp _ _ =>
    obtain ⟨hneeds, hcount, -⟩ := hp.same
    have path := connectFailed_path k a (s₁.did (.mqttCfgConnect a.mqttCfgConnect))
    generalize connectFailed k a (s₁.did (.mqttCfgConnect a.mqttCfgConnect)) = s' at path
    cases path with
    | ignored _ hs => exact hs.same.2.1.trans hcount
    | counted h _ _ | unavailable h _ _ _ | scheduled h _ _ _ _ => exact absurd h hrej
  | direct _ _ h _ _ => exact absurd h hok
  | refused _ _ _ h _ | enrolled _ _ _ h _ =>
    rw [hn] at h
    cases h

/-- On an enrolled device re-provisioning follows consecutive rejections up to the
first interruption, and no further. -/
theorem reprovision_consecutive (hr : EnrolledRun k s) (hn : s.tbNeedsProvisioning = false) :
    CountsConsecutive k a s ↔ ¬ Interrupts a s := by
  constructor
  · intro h hint
    exact hint.2.1 ((interrupted_keeps hn hint).symm.trans (h.afresh hint.1 hint.2.2.2))
  · exact fun hint => (connectVerifiedTls_counts hn hr.inv hint).1

/-- A device with an identity. -/
def enrolledDevice : Statics :=
  { run defaultKconfig [.loadConfiguration { freshDevice with identity := identityStored }] .boot with trace := [] }

/-- Three rejections schedule re-provisioning. -/
theorem reprovision_consecutive_three :
    let rejects := { gateOpens with mqttCfgConnect := .errAuthRejected }
    CountsConsecutive defaultKconfig rejects
      (run defaultKconfig [.connectVerifiedTls rejects, .connectVerifiedTls rejects] enrolledDevice) := by
  intro rejects
  have hr : EnrolledRun defaultKconfig
      (run defaultKconfig [.connectVerifiedTls rejects, .connectVerifiedTls rejects] enrolledDevice) :=
    .step (.step (.start (by decide +kernel) (by decide +kernel) rfl) (by decide +kernel) fun h => h.2.2.2 rfl)
      (by decide +kernel) fun h => h.2.2.2 rfl
  exact (reprovision_consecutive hr (by decide +kernel)).2 fun h => h.2.2.2 rfl

/-- A timeout does not start the count afresh: the third rejection schedules
re-provisioning though it is the first after the timeout. -/
theorem reprovision_interrupted :
    let rejects := { gateOpens with mqttCfgConnect := .errAuthRejected }
    let timesOut := { gateOpens with mqttCfgConnect := .errConnect }
    let s := run defaultKconfig (([rejects, rejects, timesOut] : List GateAnswers).map .connectVerifiedTls) enrolledDevice
    s.tbNeedsProvisioning = false ∧ (connectVerifiedTls defaultKconfig rejects s).2.tbNeedsProvisioning = true ∧
      attempts (connectVerifiedTls defaultKconfig rejects s).2.trace =
        [.errAuthRejected, .errConnect, .errAuthRejected, .errAuthRejected] ∧
      ¬ CountsConsecutive defaultKconfig rejects s := by
  intro rejects timesOut s
  have hsched : (connectVerifiedTls defaultKconfig rejects s).2.tbNeedsProvisioning = true := by decide +kernel
  have hout : attempts (connectVerifiedTls defaultKconfig rejects s).2.trace =
    [.errAuthRejected, .errConnect, .errAuthRejected, .errAuthRejected] := by decide +kernel
  refine ⟨by decide +kernel, hsched, hout, fun h => ?_⟩
  have latest := h.only hsched
  rw [hout] at latest
  exact absurd latest (by decide)

end LedLamp.AppMain
