import LedLamp.Mqtt.Gate
import LedLamp.Mqtt.Reject
/-!
# The session a connect accepts

A connect accepts a connect event of the current apply generation. The generation is
raised at the start of an apply, though, and the verified values are handed over at
its end: a session started in between runs on the old values but stamps the new
generation, and is accepted once the apply is through (`old_session_accepted`).
`accepted_verified` says that this is the only way: where no session runs while
verified values are handed over, every accepted session was started after the last
such hand-over.
-/

namespace LedLamp.Mqtt

open Conc Lamp

variable (parse : List UInt8 → Option Json)

/-- Verified values are handed over to `mqtt_config`. -/
def isApplied : Entry → Bool
  | (_, .did (.mqttConfigApplyVerified _) .ok) => true
  | _ => false

/-- A session runs. -/
def Running : List Entry → Prop := Since (fun e => !isOp .mqttAppDeinit e) fun e _ => isOp .mqttAppInit e = true

/-- A session runs that was started after verified values were last handed over. -/
def Verified : List Entry → Prop :=
  Since (fun e => !isApplied e && !isOp .mqttAppDeinit e) fun e _ => isOp .mqttAppInit e = true

/-- The stamp `g` in force is a connect event's of such a session. -/
def ConnectedOn (g : UInt32) : List Entry → Prop :=
  Since (fun e => !isApplied e && !isStamp e) fun e past => isConnectEvent g e = true ∧ Verified past

/-- The generation `t` read last is that of such a connect event. -/
def Accepted (t : Tid) : List Entry → Prop :=
  Since (fun e => !isApplied e && !isDid t (.loadGen .connected) e) (Reads t ConnectedOn)

/-- No session runs where verified values are handed over. -/
def Apart (e : Entry) (past : List Entry) : Prop := isApplied e = true → ¬ Running past

/-- `P t` of the past holds wherever a connect of thread `t` returns `MQTT_CFG_OK`. -/
def AtConnected (P : Tid → List Entry → Prop) : Entry → List Entry → Prop
  | (t, .ret (some .ok)), past => InConnect t past → P t past
  | _, _ => True

/-- The call of `t`, if no other task's connect interfered, has released the barrier
for a session that runs on the values verified then. -/
def AcceptedVerified (t : Tid) (past : List Entry) : Prop :=
  Alone t past → Since (fun e => !isCall t e) (fun e past => isDid t .lampControlReleaseFailOff e = true ∧ Accepted t past) past

instance (tr : List Entry) : Decidable (Running tr) := inferInstanceAs (Decidable (Since _ _ _))

instance (tr : List Entry) : Decidable (Verified tr) := inferInstanceAs (Decidable (Since _ _ _))

instance (g : UInt32) (tr : List Entry) : Decidable (ConnectedOn g tr) := inferInstanceAs (Decidable (Since _ _ _))

instance (t : Tid) (tr : List Entry) : Decidable (Accepted t tr) := inferInstanceAs (Decidable (Since _ _ _))

instance (t : Tid) (tr : List Entry) : Decidable (AcceptedVerified t tr) :=
  inferInstanceAs (Decidable (Alone t tr → Since _ _ _))

instance : ∀ e past, Decidable (Apart e past) := fun e past => inferInstanceAs (Decidable (isApplied e = true → ¬ Running past))

/-- A call returns `MQTT_CFG_OK`. -/
def returnsOk : Entry → Bool
  | (_, .ret (some .ok)) => true
  | _ => false

theorem atConnected_iff {P : Tid → List Entry → Prop} {e : Entry} {past : List Entry} :
    AtConnected P e past ↔ (returnsOk e = true → InConnect e.1 past → P e.1 past) := by
  unfold AtConnected returnsOk
  split <;> simp

instance (P : Tid → List Entry → Prop) [∀ t tr, Decidable (P t tr)] (e : Entry) (past : List Entry) :
    Decidable (AtConnected P e past) :=
  decidable_of_iff (returnsOk e = true → InConnect e.1 past → P e.1 past) atConnected_iff.symm

/-! ## Sessions in the history -/

/-- While a session runs, no verified values are handed over. -/
theorem Running.apart {φ : Entry → Bool} {ψ : Entry → List Entry → Prop} {tr : List Entry} (hr : Running tr)
    (ha : Every Apart tr) (h : Since (fun e => φ e && !isOp .mqttAppInit e) ψ tr)
    (hψ : ∀ e past, ψ e past → isOp .mqttAppInit e = false) :
    Since (fun e => !isApplied e && φ e) (fun e past => ψ e past ∧ Running past ∧ Every Apart past) tr := by
  induction tr with
  | nil => cases h
  | cons e past ih =>
    -- The session was started earlier than the events in question.
    have before : isOp .mqttAppInit e = false → Running past := by
      intro he
      rcases hr with hi | ⟨-, hr⟩
      · rw [he] at hi; cases hi
      · exact hr
    rcases h with h | ⟨he, h⟩
    · exact .now ⟨h, before (hψ e past h), ha.2⟩
    · simp only [Bool.and_eq_true, Bool.not_eq_eq_eq_not, Bool.not_true] at he
      have hp := before he.2
      have happ : isApplied e = false := by
        by_contra happ
        exact ha.1 (by simpa using happ) hp
      exact (ih hp ha.2 h).later (by simp [happ, he.1])

theorem Running.verified {tr : List Entry} (hr : Running tr) (ha : Every Apart tr) : Verified tr := by
  induction tr with
  | nil => exact hr
  | cons e past ih =>
    rcases hr with hi | ⟨he, hr⟩
    · exact .now hi
    · have happ : isApplied e = false := by
        by_contra happ
        exact ha.1 (by simpa using happ) hr
      exact (ih hr ha.2).later (by simpa [happ] using he)

theorem session_running {Φ : Promise} {m : Moment} (hm : Hist (system parse) Boot Φ m)
    (hs : m.world.session.isSome = true) : Running m.trace := by
  induction hm with
  | start hw => obtain ⟨lamp, rfl⟩ := hw; cases hs
  | @step m t e w _ he _ ih =>
    rw [Moment.after_world] at hs
    have hno : isOp .mqttAppDeinit (t, e) = false := by
      cases e with
      | did o r =>
        rw [isOp_did, decide_eq_false_iff_not]
        rintro rfl
        rw [(effect_deinit he).2] at hs
        cases hs
      | _ => rfl
    rcases (effect_changes he).session with e' | ⟨rfl, -⟩ | ⟨-, -, e'⟩
    · exact (ih (e' ▸ hs)).later (by simp [hno])
    · exact .now (by simp)
    · rw [e'] at hs; cases hs

/-- A callback other than for a rejected configuration is of a session. -/
theorem callback_session {Φ : Promise} {m : Moment} (hm : Hist (system parse) Boot Φ m) {c : Call}
    (hc : m.world.callback = some c) (hne : c ≠ .onConnectFailure .configRejected) : m.world.session.isSome = true := by
  induction hm with
  | start hw => obtain ⟨lamp, rfl⟩ := hw; cases hc
  | @step m t e w _ he _ ih =>
    rw [Moment.after_world] at hc ⊢
    have hch := effect_changes he
    rcases hch.callback with e' | ⟨-, c', rfl, hb, e'⟩ | ⟨-, _, -, e'⟩
    · rcases hch.session with h | ⟨-, h⟩ | ⟨-, h, -⟩
      · rw [h]; exact ih (e' ▸ hc)
      · rw [h]; rfl
      · rw [e', h] at hc; cases hc
    · obtain rfl : c' = c := by simpa [e'] using hc
      rcases hch.session with h | ⟨h, -⟩ | ⟨h, -⟩
      · rw [h]
        simp only [World.callsBack, Bool.and_eq_true, Bool.or_eq_true, decide_eq_true_eq] at hb
        exact hb.2.resolve_right hne
      · cases h
      · cases h
    · rw [e'] at hc; cases hc

/-- A connect event is of a session that runs. -/
theorem stamp_session {Φ : Promise} {t : Tid} {m : Moment} {v : UInt32} {r : Unit} (hm : Hist (system parse) Boot Φ m)
    (hf : Footprint t (.did (.storeGen .connected v) r) m) (hv : v ≠ 0) :
    t = .transport ∧ m.world.session.isSome = true := by
  obtain rfl := stamp_transport hf hv
  obtain ⟨c, hc, hby⟩ := hf
  refine ⟨rfl, callback_session parse hm (hc.callback rfl) ?_⟩
  -- The callback for a rejected configuration clears the stamp.
  rintro rfl
  simp [Op.by, Op.byOnConnectFailure, hv] at hby

/-! ## Following a connect -/

/-- The accepted session was started after verified values were last handed over. -/
abbrev AcceptsVerified : Promise := Releasing fun t m => Every Apart m.trace → Alone t m.trace → Accepted t m.trace

/-- The stamp `g` in force is a connect event's, and no session was started since. -/
def Stamped (g : UInt32) : List Entry → Prop :=
  Since (fun e => !isStamp e && !isOp .mqttAppInit e) fun e past => isConnectEvent g e = true ∧ Running past

theorem Reads.mono {t : Tid} {P Q : UInt32 → List Entry → Prop} {e : Entry} {past : List Entry} (h : Reads t P e past)
    (hPQ : ∀ g, P g past → Q g past) : Reads t Q e past := by
  unfold Reads at h ⊢
  split at h
  · exact ⟨h.1, hPQ _ h.2⟩
  · exact h

theorem Reads.not_op {t : Tid} {P : UInt32 → List Entry → Prop} {e : Entry} {past : List Entry} (h : Reads t P e past)
    {o : Op} (ho : o ≠ .loadGen .connected) : isOp o e = false := by
  unfold Reads at h
  split at h
  · simpa using ho.symm
  · exact h.elim

section Walk
variable {parse} {t t' : Tid} {e : Event} {Φ : Promise} {m : Moment} {w : World}

/-- The first event after a moment that leaves `t` alone is no session of another task's. -/
theorem Alone.keeps (ha : Alone t (m.after t' e w).trace) (hc : isCall t (t', e) = false)
    (hi : isDid t .mqttAppInit (t', e) = false) : isOp .mqttAppInit (t', e) = false := by
  have hr := (ha.before hc).2
  cases e with
  | did o r =>
    rw [isOp_did, decide_eq_false_iff_not]
    rintro rfl
    have ht : t' ≠ t := by simpa using hi
    simp [isRival, ht] at hr
  | _ => rfl

/-- After the teardown: there is no session. -/
def TornDown (t : Tid) (m : Moment) : Prop := Alone t m.trace → m.world.session = none

/-- After the reset of the stamp: there is neither a session nor a stamp. -/
def Reset (t : Tid) (m : Moment) : Prop := Alone t m.trace → m.world.session = none ∧ m.world.gen .connected = 0

/-- After the start of the session: a stamp is of a session that still is the last. -/
def Current (t : Tid) (m : Moment) : Prop :=
  Alone t m.trace → m.world.gen .connected ≠ 0 → Stamped (m.world.gen .connected) m.trace

theorem TornDown.step (hd : Does (system parse) Boot Base Φ t' e m w) (hc : isCall t (t', e) = false)
    (hi : isDid t .mqttAppInit (t', e) = false) (h : TornDown t m) : TornDown t (m.after t' e w) := by
  intro ha
  have hno := ha.keeps hc hi
  rcases (changes hd).session with h' | ⟨rfl, -⟩ | ⟨-, -, h'⟩
  · exact h'.trans (h (ha.before hc).1)
  · simp at hno
  · exact h'

theorem Reset.step (hd : Does (system parse) Boot Base Φ t' e m w) (hc : isCall t (t', e) = false)
    (hi : isDid t .mqttAppInit (t', e) = false) (h : Reset t m) : Reset t (m.after t' e w) := by
  intro ha
  refine ⟨TornDown.step hd hc hi (fun ha => (h ha).1) ha, ?_⟩
  obtain ⟨hs, hg⟩ := h (ha.before hc).1
  rw [Moment.after_world]
  rcases (changes hd).gen .connected with h' | ⟨v, rfl, h'⟩
  · exact h'.trans hg
  · -- A connect event would need a session.
    by_contra hv
    have hs' := (stamp_session parse hd.hist hd.known.1 fun h0 => hv (h'.trans h0)).2
    simp [hs] at hs'

theorem Current.step (hd : Does (system parse) Boot Base Φ t' e m w) (hc : isCall t (t', e) = false)
    (hi : isDid t .mqttAppInit (t', e) = false) (h : Current t m) : Current t (m.after t' e w) := by
  intro ha hg
  rw [Moment.after_world] at hg ⊢
  rcases stamp_cases (happens hd) with ⟨v, rfl, hv⟩ | ⟨hno, hsame⟩
  · rw [hv] at hg ⊢
    obtain ⟨rfl, hs⟩ := stamp_session parse hd.hist hd.known.1 hg
    exact .now ⟨by simp [isConnectEvent], session_running parse hd.hist hs⟩
  · rw [hsame] at hg ⊢
    exact (h (ha.before hc).1 hg).later (by simp [hno, ha.keeps hc hi])

theorem isDid_own {o o' : Op} (r : Res o') (ho : o' ≠ o) : isDid t o (t, .did o' r) = false := by simp [ho]

theorem stable_tornDown : Stable (system parse) Boot Base Φ t (TornDown t) :=
  fun _ e _ _ ht hd _ h => h.step hd (isCall_other ht e) (isDid_other ht _ e)

theorem stable_reset : Stable (system parse) Boot Base Φ t (Reset t) :=
  fun _ e _ _ ht hd _ h => h.step hd (isCall_other ht e) (isDid_other ht _ e)

theorem stable_current : Stable (system parse) Boot Base Φ t (Current t) :=
  fun _ e _ _ ht hd _ h => h.step hd (isCall_other ht e) (isDid_other ht _ e)

/-! ## From the read to the release -/

/-- What an iteration carries from its read of the stamp `c`, before and after the
transport said that it is connected. -/
def Carrying (t : Tid) (c : UInt32) : Bool → Assertion
  | false, m => Alone t m.trace → c ≠ 0 →
    Since (fun e => !isDid t (.loadGen .connected) e && !isOp .mqttAppInit e) (Reads t Stamped) m.trace
  | true, m => Every Apart m.trace → Alone t m.trace → c ≠ 0 → Accepted t m.trace

theorem Carrying.step {c : UInt32} {asked : Bool} (hc : isCall t (t', e) = false)
    (hi : isDid t .mqttAppInit (t', e) = false) (hr : isDid t (.loadGen .connected) (t', e) = false)
    (happ : isApplied (t', e) = false) (h : Carrying t c asked m) : Carrying t c asked (m.after t' e w) := by
  cases asked with
  | false => exact fun ha hne => (h (ha.before hc).1 hne).later (by simp [hr, ha.keeps hc hi])
  | true => exact fun hap ha hne => (h hap.2 (ha.before hc).1 hne).later (by simp [hr, happ])

/-- A session that is connected still is the one whose connect event was read. -/
theorem carrying_asked {c : UInt32} (hd : Does (system parse) Boot Base Φ t (.did .mqttAppIsConnected true) m w)
    (h : Carrying t c false m) : Carrying t c true (m.after t (.did .mqttAppIsConnected true) w) := by
  intro hap ha hne
  have hs : m.world.session.isSome = true := by
    have he := happens hd
    simp only [effect_did, stepEffect, Bool.true_and, Option.ite_none_left_eq_some, Bool.not_eq_true,
      Option.isNone_eq_false_iff] at he
    exact he.1
  have hrun := session_running parse hd.hist hs
  have hread := hrun.apart hap.2 (h (ha.before rfl).1 hne) fun e past hr => hr.not_op (by simp)
  refine Since.later (by simp [isApplied]) (hread.mono (fun _ h => h) ?_)
  rintro e past ⟨hr, hrun, hap⟩
  refine hr.mono fun g hst => (hrun.apart hap hst ?_).mono (fun _ h => h) ?_
  · rintro e past ⟨hce, -⟩
    unfold isConnectEvent at hce
    split at hce
    · simp
    · cases hce
  · rintro e past ⟨⟨hce, hrun⟩, -, hap⟩
    exact ⟨hce, hrun.verified hap⟩

theorem carries_accepted :
    Carries parse (fun t m => Every Apart m.trace → Alone t m.trace → Accepted t m.trace) t (Current t) (Carrying t) where
  outer := stable_current
  keeps o ho := by
    have hi : o ≠ .mqttAppInit := by rintro rfl; cases ho
    have hrel : o ≠ .lampControlReleaseFailOff := by rintro rfl; cases ho
    exact fun m r w hd h => ⟨releasing_did hrel r m, h.step hd rfl (isDid_own r hi)⟩
  inner c asked t' e m w ht hd hp h := by
    refine ⟨stable_locked t' e m w ht hd hp h.1, h.2.step (isCall_other ht e) (isDid_other ht _ e) (isDid_other ht _ e) ?_⟩
    -- Verified values are handed over under the lock.
    by_contra happ
    unfold isApplied at happ
    split at happ
    · rename_i heq
      cases heq
      have hl : m.world.lock = some t' := hd.known.2
      rw [h.1] at hl
      cases hl
      exact ht rfl
    · exact happ rfl
  after _ _ o ho _ r _ _ h := by
    have hi : o ≠ .mqttAppInit := by rintro rfl; cases ho
    have happ : isApplied (t, .did o r) = false := by cases o <;> first | rfl | cases ho
    exact h.step rfl (isDid_own r hi) (isDid_afterRead ho r) happ
  read m c w hd h ha hne := by
    obtain ⟨rfl, -⟩ := effect_loadGen (happens hd)
    exact .now ⟨rfl, h (ha.before rfl).1 hne⟩
  asked _ _ _ hd h := carrying_asked hd h
  release m h hap ha := by
    obtain ⟨c, hc, -, hcarried⟩ := h.connected
    exact hcarried hap ha hc

/-- The teardown, the reset of the stamp, and the start of the session. -/
theorem connectStart_accepting (timeoutMs : UInt32) :
    Triple (system parse) Boot Base AcceptsVerified t (fun _ => True) (connectStart timeoutMs) fun _ _ => True := by
  unfold connectStart connectBegin
  have torn : ∀ {o : Op} {k : Res o → Act MqttCfgStatus}, o ≠ .mqttAppInit → o ≠ .lampControlReleaseFailOff →
      (∀ r, Triple (system parse) Boot Base AcceptsVerified t (TornDown t) (k r) fun _ _ => True) →
      Triple (system parse) Boot Base AcceptsVerified t (TornDown t) (.op o k) fun _ _ => True :=
    fun hi hrel hk => .keep stable_tornDown (fun m r w hd h => ⟨releasing_did hrel r m, h.step hd rfl (isDid_own r hi)⟩) hk
  have reset : ∀ {o : Op} {k : Res o → Act MqttCfgStatus}, o ≠ .mqttAppInit → o ≠ .lampControlReleaseFailOff →
      (∀ r, Triple (system parse) Boot Base AcceptsVerified t (Reset t) (k r) fun _ _ => True) →
      Triple (system parse) Boot Base AcceptsVerified t (Reset t) (.op o k) fun _ _ => True :=
    fun hi hrel hk => .keep stable_reset (fun m r w hd h => ⟨releasing_did hrel r m, h.step hd rfl (isDid_own r hi)⟩) hk
  refine .op (fun _ => TornDown t) stable_true ?_ fun _ => ?_
  · intro m r w hd _
    obtain ⟨-, rfl⟩ := effect_deinit (happens hd)
    exact ⟨trivial, fun _ => rfl⟩
  refine torn (by simp) (by simp) fun _ => torn (by simp) (by simp) fun _ => torn (by simp) (by simp) fun _ => ?_
  refine .op (fun _ => Reset t) stable_tornDown ?_ fun _ => ?_
  · intro m r w hd h
    exact ⟨trivial, fun ha => ⟨h.step hd rfl (isDid_own r (by simp)) ha, effect_storeGen (happens hd)⟩⟩
  refine reset (by simp) (by simp) fun _ => reset (by simp) (by simp) fun _ => reset (by simp) (by simp) fun _ => ?_
  refine .op (fun _ => Current t) stable_reset ?_ fun _ => pollLoop_releasing carries_accepted _ _ _
  · intro m r w hd h
    refine ⟨trivial, fun ha hg => ?_⟩
    rcases (changes hd).gen .connected with h' | ⟨v, h', -⟩
    · exact absurd (h'.trans (h (ha.before rfl).1).2) hg
    · cases h'

end Walk

/-! ## Runs -/

theorem accepting : Established (system parse) Boot (Base.and AcceptsVerified) :=
  established_releasing fun _ timeoutMs _ => mqttCfgConnect_releasing (connectStart_accepting timeoutMs)

/-- What holds at every release holds at the release of a call. -/
theorem Released.accepted {t : Tid} {tr : List Entry} (hrel : Released t tr) (ha : Alone t tr) (hap : Every Apart tr)
    (hall : Every (AtRelease fun t past => Every Apart past → Alone t past → Accepted t past) tr) :
    Since (fun e => !isCall t e) (fun e past => isDid t .lampControlReleaseFailOff e = true ∧ Accepted t past) tr := by
  induction tr with
  | nil => cases hrel
  | cons e past ih =>
    rcases hrel with he | ⟨hc, hrel⟩
    · obtain ⟨t', e⟩ := e
      cases e with
      | did o r =>
        obtain ⟨rfl, rfl⟩ : t' = t ∧ o = .lampControlReleaseFailOff := by simpa using he
        exact .now ⟨he, hall.1 hap.2 (ha.before rfl).1⟩
      | _ => cases he
    · exact (ih hrel (ha.before (by simpa using hc)).1 hap.2 hall.2).later hc

/-- In every run in which no session runs while verified values are handed over, a
connect that returns `MQTT_CFG_OK`, with no other task's connect in between, has
accepted a connect event of a session that was started after the last such hand-over. -/
theorem accepted_verified {c : Config} (hr : (system parse).Run Boot c) (hapart : Every Apart c.trace) :
    Every (AtConnected AcceptedVerified) c.trace := by
  have hall : Every (AtRelease fun t past => Every Apart past → Alone t past → Accepted t past) c.trace := by
    refine ((accepting parse).hist hr).every fun t e m hp => ?_
    cases e with
    | did o r => cases o with
      | lampControlReleaseFailOff => exact hp.2
      | _ => trivial
    | _ => trivial
  have hret : Every (AtConnected Released) c.trace := by
    refine ((admitting parse).hist hr).every fun t e m hp => ?_
    cases e with
    | ret s => cases s with
      | none => trivial
      | some status => cases status with
        | ok => exact fun hin => (hp.2 hin).2.2 rfl
        | _ => trivial
    | _ => trivial
  clear hr
  generalize c.trace = tr at *
  induction tr with
  | nil => trivial
  | cons e past ih =>
    refine ⟨?_, ih hapart.2 hall.2 hret.2⟩
    unfold AtConnected
    split
    · exact fun hin ha => Released.accepted (hret.1 hin) ha hapart.2 hall.2
    · trivial

theorem accepted_verified_home : ∃ c, replayed homeRun = some c ∧ Every (AtConnected AcceptedVerified) c.trace := by
  obtain ⟨c, hc⟩ := Option.isSome_iff_exists.1 (show (replayed homeRun).isSome = true by decide)
  obtain ⟨hr, htr⟩ := replayed_run hc
  exact ⟨c, hc, accepted_verified _ hr (by rw [htr]; decide)⟩

/-- A connect that starts its session between the two locked sections of an apply. -/
def splitRun : List Entry :=
  applyBegins (.task 0) 0 ++ applySucceeds (.task 0) ++ connectEnters (.task 1) ++ applyBegins (.task 0) 1 ++
    connectBegins (.task 1) ++ applySucceeds (.task 0) ++ transportConnects 2 ++ pollReads (.task 1) 2 ++
    pollAccepts (.task 1)

/-- The connect returns `MQTT_CFG_OK` for a session that was started before the
verified values were handed over. -/
theorem old_session_accepted : ∃ c, replayed splitRun = some c ∧ ¬ Every (AtConnected AcceptedVerified) c.trace := by
  obtain ⟨c, hc⟩ := Option.isSome_iff_exists.1 (show (replayed splitRun).isSome = true by decide)
  exact ⟨c, hc, by rw [(replayed_run hc).2]; decide⟩

end LedLamp.Mqtt
