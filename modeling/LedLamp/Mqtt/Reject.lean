import LedLamp.Mqtt.FailOff
/-!
# The reason of a failed connect

The failure callback carries one event in two flags: it stores `s_connect_failed`
first and `s_auth_rejected` after it. A poll loop that comes between the two
stores sees the failure with the reject flag still clear, and a rejected
authentication is returned as `MQTT_CFG_ERR_CONNECT` (`reject_unseen`).
`failures_classified` says that this window is the only way.
-/

namespace LedLamp.Mqtt

open Conc Lamp

variable (parse : List UInt8 → Option Json)

/-- The reason of a failure callback that starts. -/
def failureReason : Entry → Option MqttConnectFailureReason
  | (.transport, .call (.onConnectFailure reason)) => some reason
  | _ => none

/-- The reasons of the failure callbacks that started since `t` last ended a
session, newest first. -/
def failuresOf (t : Tid) : List Entry → List MqttConnectFailureReason
  | [] => []
  | e :: past => if isDid t .mqttAppDeinit e then [] else (failureReason e).toList ++ failuresOf t past

/-- The failure callback stores the reject flag. -/
def isVerdict : Entry → Bool
  | (.transport, .did (.store .authRejected _) _) => true
  | _ => false

/-- A failure callback stored the reject flag since `t` last ended a session. -/
def Published (t : Tid) : List Entry → Prop := Since (fun e => !isDid t .mqttAppDeinit e) fun e _ => isVerdict e = true

/-- The flag was stored when `t`'s call read it. -/
def ReadInTime (t : Tid) : List Entry → Prop :=
  Since (fun e => !isDid t (.load .authRejected) e) fun e past => isDid t (.load .authRejected) e = true ∧ Published t past

/-- Another task does what only a connect does: clear the reject flag, start a session. -/
def isRival (t : Tid) : Entry → Bool
  | (t', .did .mqttAppInit _) => t' ≠ t
  | (t', .did (.store .authRejected _) _) => t' ≠ t && t' ≠ .transport
  | _ => false

/-- No other task's connect got that far during `t`'s call. -/
def Alone (t : Tid) : List Entry → Prop := Since (fun e => !isCall t e && !isRival t e) fun e _ => isCall t e = true

/-- What a failure for that reason is to return. -/
def classify (reason : MqttConnectFailureReason) : MqttCfgStatus :=
  if reason = .authRejected then .errAuthRejected else .errConnect

/-- `P t status` of the past holds wherever a thread `t` returns `status` through the
failure branch of the poll loop, as the only connect, with one failure event at most. -/
def AtFailure (P : Tid → MqttCfgStatus → List Entry → Prop) : Entry → List Entry → Prop
  | (t, .ret (some status)), past =>
    Delegated t past → Alone t past → (failuresOf t past).length ≤ 1 → P t status past
  | _, _ => True

instance (t : Tid) (tr : List Entry) : Decidable (Published t tr) := inferInstanceAs (Decidable (Since _ _ _))

instance (t : Tid) (tr : List Entry) : Decidable (ReadInTime t tr) := inferInstanceAs (Decidable (Since _ _ _))

instance (t : Tid) (tr : List Entry) : Decidable (Alone t tr) := inferInstanceAs (Decidable (Since _ _ _))

instance (P : Tid → MqttCfgStatus → List Entry → Prop) [∀ t s tr, Decidable (P t s tr)] :
    ∀ e past, Decidable (AtFailure P e past)
  | (t, .ret (some status)), past => inferInstanceAs (Decidable
    (Delegated t past → Alone t past → (failuresOf t past).length ≤ 1 → P t status past))
  | (_, .ret none), _ | (_, .call _), _ | (_, .did _ _), _ => .isTrue trivial

/-- The call ended because of one failure event, and its status names the event's
reason just if a rejection was stored before the flag was read. -/
def Classified (t : Tid) (status : MqttCfgStatus) (past : List Entry) : Prop :=
  ∃ reason, failuresOf t past = [reason] ∧
    (status = classify reason ↔ (reason = .authRejected → ReadInTime t past))

/-- Every return through the failure branch is as `Classified` says. -/
def FailuresClassified : Promise := fun t e m => AtFailure Classified (t, e) m.trace

/-! ## What a trace says -/

section Trace
variable {t : Tid} {e : Entry} {past : List Entry}

theorem Alone.before (h : Alone t (e :: past)) (hc : isCall t e = false) : Alone t past ∧ isRival t e = false := by
  rcases h with h | ⟨h, hp⟩
  · rw [hc] at h; cases h
  · exact ⟨hp, by simpa [hc] using h⟩

theorem failuresOf_cons (he : isDid t .mqttAppDeinit e = false) :
    failuresOf t (e :: past) = (failureReason e).toList ++ failuresOf t past := by
  simp [failuresOf, he]

@[simp] theorem failureReason_did (t : Tid) (o : Op) (r : Res o) : failureReason (t, .did o r) = none := by
  cases t <;> rfl

@[simp] theorem failureReason_ret (t : Tid) (s : Ret) : failureReason (t, .ret s) = none := by cases t <;> rfl

theorem failureReason_task {t : Tid} (ht : t ≠ .transport) (e : Event) : failureReason (t, e) = none := by
  cases t with
  | transport => exact absurd rfl ht
  | task id => rfl

theorem Published.before (h : Published t (e :: past)) (he : isVerdict e = false) : Published t past := by
  rcases h with h | ⟨-, h⟩
  · rw [he] at h; cases h
  · exact h

end Trace

/-! ## From the teardown to the flags -/

/-- An event that is not `t`'s start of a call, its teardown, or its failure branch. -/
def isPlain (t : Tid) : Entry → Bool
  | (t', .call _) => t' ≠ t
  | (t', .did .mqttAppDeinit _) => t' ≠ t
  | (t', .did (.load .authRejected) _) => t' ≠ t
  | _ => true

theorem isPlain_other {t t' : Tid} (ht : t' ≠ t) (e : Event) : isPlain t (t', e) = true := by
  unfold isPlain
  split <;> first | rfl | (rename_i heq; cases heq; simpa using ht)

theorem isCall_plain {t : Tid} {e : Entry} (he : isPlain t e = true) : isCall t e = false := by
  unfold isCall
  split
  · simpa [isPlain] using he
  · rfl

theorem isDid_plain {t : Tid} {e : Entry} {o : Op} (ho : o = .mqttAppDeinit ∨ o = .load .authRejected)
    (he : isPlain t e = true) : isDid t o e = false := by
  by_contra hd
  unfold isDid at hd
  split at hd
  · simp only [Bool.and_eq_true, decide_eq_true_eq, Bool.not_eq_false] at hd
    obtain ⟨rfl, rfl⟩ := hd
    rcases ho with rfl | rfl <;> simp [isPlain] at he
  · exact hd rfl

/-- Only a failure callback reports a failure, and it stores its own reason's verdict. -/
theorem reporting {o : Op} {r : Res o} {m : Moment} (hf : Footprint .transport (.did o r) m)
    (ho : (∃ b, o = .store .connectFailed b) ∨ ∃ b, o = .store .authRejected b) :
    ∃ reason, m.world.callback = some (.onConnectFailure reason) ∧
      ∀ b, o = .store .authRejected b → b = decide (reason = .authRejected) := by
  obtain ⟨c, hc, hby⟩ := hf
  have hcb := hc.isCallback
  cases c with
  | onConnectFailure reason =>
    refine ⟨reason, hc.callback rfl, ?_⟩
    rintro b rfl
    simpa [Op.by, Op.byOnConnectFailure] using hby
  | onConnect => rcases ho with ⟨b, rfl⟩ | ⟨b, rfl⟩ <;> cases hby
  | onDisconnect => rcases ho with ⟨b, rfl⟩ | ⟨b, rfl⟩ <;> cases hby
  | _ => simp [Call.isCallback] at hcb

section Walk
variable {parse} {t : Tid}

/-- What is known of the failure events from the teardown on: a running failure
callback and a stored reject flag are of an event since then. -/
structure Heard (t : Tid) (m : Moment) : Prop where
  undelegated : ¬ Delegated t m.trace
  running : ∀ reason, m.world.callback = some (.onConnectFailure reason) → ∃ rest, failuresOf t m.trace = reason :: rest
  published : Published t m.trace → failuresOf t m.trace ≠ []

/-- Without a session no authentication is rejected. -/
def Sessionless (t : Tid) (m : Moment) : Prop :=
  Alone t m.trace → m.world.session = none ∧ .authRejected ∉ failuresOf t m.trace

/-- A failure the poll loop can see is of an event since the teardown. -/
def Reported (t : Tid) (m : Moment) : Prop := m.world.flag .connectFailed = true → failuresOf t m.trace ≠ []

/-- The reject flag says what has been stored of the one event. -/
def Told (t : Tid) (m : Moment) : Prop :=
  Alone t m.trace → (failuresOf t m.trace).length ≤ 1 →
    (m.world.flag .authRejected = true ↔ Published t m.trace ∧ failuresOf t m.trace = [.authRejected])

section Steps
variable {Φ : Promise} {t' : Tid} {e : Event} {m : Moment} {w : World}

/-- The failures after an event: one more where a failure callback starts. -/
theorem failures_step {past : List Entry} (he : isPlain t (t', e) = true) :
    failuresOf t ((t', e) :: past) = (failureReason (t', e)).toList ++ failuresOf t past :=
  failuresOf_cons (isDid_plain (.inl rfl) he)

/-- A failure event stays one. -/
theorem failed_step {past : List Entry} (he : isPlain t (t', e) = true) (h : failuresOf t past ≠ []) :
    failuresOf t ((t', e) :: past) ≠ [] := by
  rw [failures_step he]
  simpa using fun _ => h

theorem Heard.step (hd : Does (system parse) Boot Base Φ t' e m w) (he : isPlain t (t', e) = true) (h : Heard t m) :
    Heard t (m.after t' e w) := by
  refine ⟨?_, ?_, ?_⟩
  · rintro (hr | ⟨-, hr⟩)
    · simp [isDid_plain (.inr rfl) he] at hr
    · exact h.undelegated hr
  · intro reason hc
    dsimp only [Moment.after_world, Moment.after_trace] at hc ⊢
    rw [failures_step he]
    -- Only a call of the transport brings a reason, and only its return takes it away.
    cases e with
    | call c =>
      rcases effect_call hd.effect with ⟨rfl, -, rfl⟩ | ⟨ht, -, rfl⟩
      · cases hc
        exact ⟨_, rfl⟩
      · rw [failureReason_task ht]
        exact h.running reason hc
    | did o r =>
      rw [failureReason_did]
      rcases (changes hd).callback with e' | ⟨-, _, e', -⟩ | ⟨-, _, e', -⟩
      · exact h.running reason (e'.symm.trans hc)
      · cases e'
      · cases e'
    | ret s =>
      rw [failureReason_ret]
      rcases (changes hd).callback with e' | ⟨-, _, e', -⟩ | ⟨-, _, -, e'⟩
      · exact h.running reason (e'.symm.trans hc)
      · cases e'
      · rw [e'] at hc; cases hc
  · intro hp
    dsimp only [Moment.after_trace] at hp ⊢
    rw [failures_step he]
    -- A verdict is published by a callback that runs, and its reason is heard already.
    by_cases hv : isVerdict (t', e) = true
    · unfold isVerdict at hv
      split at hv
      · rename_i heq
        cases heq
        obtain ⟨reason, hc, -⟩ := reporting hd.known.1 (.inr ⟨_, rfl⟩)
        obtain ⟨rest, hr⟩ := h.running reason hc
        simp [hr]
      · cases hv
    · simpa using fun _ => h.published (hp.before (by simpa using hv))

theorem Sessionless.step (hd : Does (system parse) Boot Base Φ t' e m w) (he : isPlain t (t', e) = true)
    (hi : (t', e) ≠ (t, .did .mqttAppInit ())) (h : Sessionless t m) : Sessionless t (m.after t' e w) := by
  intro ha
  obtain ⟨ha', hr⟩ := ha.before (isCall_plain he)
  obtain ⟨hs, hn⟩ := h ha'
  refine ⟨?_, ?_⟩
  · rcases (changes hd).session with e' | ⟨rfl, -⟩ | ⟨-, -, e'⟩
    · exact e'.trans hs
    · -- A session that starts is the thread's own or a rival's.
      by_cases ht : t' = t
      · subst ht; exact absurd rfl hi
      · simp [isRival, ht] at hr
    · exact e'
  · dsimp only [Moment.after_trace]
    rw [failures_step he, List.mem_append, not_or]
    refine ⟨?_, hn⟩
    cases e with
    | call c =>
      rcases effect_call hd.effect with ⟨rfl, hc, -⟩ | ⟨ht, -, -⟩
      · simp only [World.callsBack, hs, Option.isSome_none, Bool.false_or, Bool.and_eq_true, decide_eq_true_eq] at hc
        rw [hc.2]
        simp [failureReason]
      · simp [failureReason_task ht]
    | did o r => simp
    | ret s => simp

theorem Reported.step (hd : Does (system parse) Boot Base Φ t' e m w) (he : isPlain t (t', e) = true) (hh : Heard t m)
    (h : Reported t m) : Reported t (m.after t' e w) := by
  intro hw
  dsimp only [Moment.after_world, Moment.after_trace] at hw ⊢
  rw [failures_step he]
  have hne : failuresOf t m.trace ≠ [] := by
    rcases (changes hd).flag .connectFailed with e' | ⟨b, rfl, e'⟩
    · exact h (e'.symm.trans hw)
    · obtain rfl : b = true := e'.symm.trans hw
      have htr : t' = .transport := by
        by_contra htr
        rcases hd.known.1.task htr with h | h | h <;> cases h
      subst htr
      obtain ⟨reason, hc, -⟩ := reporting hd.known.1 (.inl ⟨_, rfl⟩)
      obtain ⟨rest, hr⟩ := hh.running reason hc
      simp [hr]
  simpa using fun _ => hne

theorem Told.step (hd : Does (system parse) Boot Base Φ t' e m w) (he : isPlain t (t', e) = true)
    (hs : t' = t → ∀ b, e ≠ .did (.store .authRejected b) ()) (hh : Heard t m) (h : Told t m) :
    Told t (m.after t' e w) := by
  intro ha hone
  obtain ⟨ha', hr⟩ := ha.before (isCall_plain he)
  dsimp only [Moment.after_world, Moment.after_trace] at hone ⊢
  rw [failures_step he] at hone ⊢
  by_cases hb : ∃ b, e = .did (.store .authRejected b) ()
  · obtain ⟨b, rfl⟩ := hb
    have ht : t' ≠ t := fun h => hs h b rfl
    obtain rfl : t' = .transport := by simpa [isRival, ht] using hr
    obtain ⟨reason, hc, hb⟩ := reporting hd.known.1 (.inr ⟨b, rfl⟩)
    obtain ⟨rest, hf⟩ := hh.running reason hc
    have hrest : rest = [] := by simpa [hf] using hone
    have hpub : Published t ((.transport, .did (.store .authRejected b) ()) :: m.trace) := .now rfl
    have hflag : w.flag .authRejected = b := effect_store (happens hd)
    rw [hflag, hf, hrest]
    simp only [hpub, true_and]
    simp [hb b rfl]
  · have hflag : w.flag .authRejected = m.world.flag .authRejected := by
      rcases (changes hd).flag .authRejected with e' | ⟨b, rfl, -⟩
      · exact e'
      · exact absurd ⟨b, rfl⟩ hb
    have hv : isVerdict (t', e) = false := by
      by_contra hv
      unfold isVerdict at hv
      split at hv
      · rename_i heq; cases heq; exact hb ⟨_, rfl⟩
      · exact hv rfl
    have hpub : Published t ((t', e) :: m.trace) ↔ Published t m.trace :=
      ⟨fun hp => hp.before hv, fun hp => hp.later (by simp [isDid_plain (.inl rfl) he])⟩
    rw [hflag, hpub]
    cases hf : failureReason (t', e) with
    | none => exact h ha' (by simpa [hf] using hone)
    | some reason =>
      -- The first event: nothing has been stored of it yet.
      have hnil : failuresOf t m.trace = [] := by simpa [hf] using hone
      have hnp : ¬ Published t m.trace := fun hp => hh.published hp hnil
      simpa [hnil, hnp] using (h ha' (by simp [hnil]))

end Steps

/-! ## Following a connect -/

/-- From the flags' reset on. -/
structure Listening (t : Tid) (m : Moment) : Prop where
  heard : Heard t m
  reported : Reported t m
  told : Told t m

/-- The teardown, the reset of the reject flag, and the failure branch's read of it. -/
def Op.setsUp : Op → Bool
  | .mqttAppDeinit | .store .authRejected _ | .load .authRejected => true
  | _ => false

theorem isPlain_did {o : Op} (ho : o.setsUp = false) (r : Res o) : isPlain t (t, .did o r) = true := by
  unfold isPlain
  split <;> first | rfl | (rename_i heq; cases heq <;> cases ho)

variable {Φ : Promise}

theorem stable_heard : Stable (system parse) Boot Base Φ t (Heard t) :=
  fun _ _ _ _ ht hd _ h => h.step hd (isPlain_other ht _)

theorem stable_sessionless : Stable (system parse) Boot Base Φ t (Sessionless t) :=
  fun _ _ _ _ ht hd _ h => h.step hd (isPlain_other ht _) fun heq => ht (Prod.mk.inj heq).1

theorem stable_listening : Stable (system parse) Boot Base Φ t (Listening t) := by
  intro t' e m w ht hd _ h
  have he := isPlain_other ht e
  exact ⟨h.heard.step hd he, h.reported.step hd he h.heard, h.told.step hd he (fun h => absurd h ht) h.heard⟩

theorem keeps_listening {o : Op} (ho : o.setsUp = false) :
    Keeps (system parse) Boot Base FailuresClassified t (Listening t) o := by
  intro m r w hd h
  have he := isPlain_did (t := t) ho r
  refine ⟨trivial, h.heard.step hd he, h.reported.step hd he h.heard, h.told.step hd he ?_ h.heard⟩
  rintro - b ⟨⟩
  cases ho

/-- The call has not been through the failure branch. -/
def Undelegated (t : Tid) (m : Moment) : Prop := ¬ Delegated t m.trace

/-- The status is what the classification says, should the call have been through
the failure branch. -/
def Settled (t : Tid) (status : MqttCfgStatus) (m : Moment) : Prop :=
  Delegated t m.trace → Alone t m.trace → (failuresOf t m.trace).length ≤ 1 → Classified t status m.trace

theorem stable_undelegated : Stable (system parse) Boot Base Φ t (Undelegated t) :=
  fun _ e _ _ ht _ _ h hdel => h ((did_other ht e).1 hdel)

theorem keeps_undelegated {o : Op} (ho : o ≠ .load .authRejected) :
    Keeps (system parse) Boot Base FailuresClassified t (Undelegated t) o :=
  fun _ r _ _ h => ⟨trivial, fun hdel => h ((did_skip ho r).1 hdel)⟩

theorem Settled.step {t' : Tid} {e : Event} {status : MqttCfgStatus} {m : Moment} {w : World}
    (he : isPlain t (t', e) = true) (h : Settled t status m) : Settled t status (m.after t' e w) := by
  intro hdel ha hone
  dsimp only [Moment.after_trace] at hdel ha hone ⊢
  have hdel : Delegated t m.trace := by
    rcases hdel with hr | ⟨-, hdel⟩
    · simp [isDid_plain (.inr rfl) he] at hr
    · exact hdel
  rw [failures_step he] at hone
  obtain ⟨reason, hf, hiff⟩ := h hdel (ha.before (isCall_plain he)).1 (by rw [List.length_append] at hone; omega)
  -- A second event would be one too many.
  have hnone : failureReason (t', e) = none := by
    cases hr : failureReason (t', e) with
    | none => rfl
    | some reason' => simp [hr, hf] at hone
  refine ⟨reason, by rw [failures_step he, hnone, hf]; rfl, hiff.trans ?_⟩
  have hread : ReadInTime t ((t', e) :: m.trace) ↔ ReadInTime t m.trace := by
    constructor
    · rintro (⟨hr, -⟩ | ⟨-, h⟩)
      · simp [isDid_plain (.inr rfl) he] at hr
      · exact h
    · exact fun h => h.later (by simp [isDid_plain (.inr rfl) he])
  rw [hread]

theorem stable_settled (status : MqttCfgStatus) : Stable (system parse) Boot Base Φ t (Settled t status) :=
  fun _ _ _ _ ht _ _ h => h.step (isPlain_other ht _)

theorem keeps_settled {o : Op} (ho : o.setsUp = false) (status : MqttCfgStatus) :
    Keeps (system parse) Boot Base FailuresClassified t (Settled t status) o :=
  fun _ r _ _ h => ⟨trivial, h.step (isPlain_did ho r)⟩

/-- A program that never reads the reject flag. -/
theorem settled_uses {p : Act MqttCfgStatus} (hp : p.Uses (· ≠ .load .authRejected)) :
    Triple (system parse) Boot Base FailuresClassified t (Undelegated t) p (Settled t) :=
  (Triple.uses stable_undelegated (hp.mono fun _ ho => keeps_undelegated ho)).conseq (fun _ _ h => h)
    fun _ _ _ h hdel => absurd hdel h

/-- The failure branch: what it reads is what has been stored of the event. -/
theorem pollFailed_settled : Triple (system parse) Boot Base FailuresClassified t
    (fun m => Listening t m ∧ failuresOf t m.trace ≠ []) pollFailed (Settled t) := by
  have stable : Stable (system parse) Boot Base FailuresClassified t
      fun m => Listening t m ∧ failuresOf t m.trace ≠ [] :=
    stable_listening.and fun _ e _ _ ht _ _ h => failed_step (isPlain_other ht e) h
  refine .op (fun rejected => Settled t (if rejected then .errAuthRejected else .errConnect)) stable ?_ fun rejected => ?_
  · intro m rejected w hd h
    refine ⟨trivial, fun _ ha hone => ?_⟩
    obtain ⟨rfl, -⟩ := effect_load (happens hd)
    have hsame : failuresOf t ((t, .did (.load .authRejected) (m.world.flag .authRejected)) :: m.trace) =
        failuresOf t m.trace := by simp [failuresOf]
    dsimp only [Moment.after_trace] at ha hone
    rw [hsame] at hone
    obtain ⟨reason, hf⟩ : ∃ reason, failuresOf t m.trace = [reason] := by
      cases hf : failuresOf t m.trace with
      | nil => exact absurd hf h.2
      | cons reason rest => exact ⟨reason, by simpa [hf] using hone⟩
    have htold := h.1.told (ha.before rfl).1 hone
    refine ⟨reason, hsame.trans hf, ?_⟩
    have hread : ReadInTime t ((t, .did (.load .authRejected) (m.world.flag .authRejected)) :: m.trace) ↔
        Published t m.trace := by
      constructor
      · rintro (⟨-, h⟩ | ⟨hr, -⟩)
        · exact h
        · simp at hr
      · exact fun h => .now ⟨by simp, h⟩
    rw [Moment.after_trace, hread]
    rw [hf, List.singleton_inj] at htold
    by_cases hr : reason = .authRejected
    · simp only [hr, and_true] at htold
      by_cases hp : Published t m.trace
      · simp [classify, hr, htold.2 hp, hp]
      · simp [classify, hr, hp, mt htold.1 hp]
    · simp [classify, hr, htold]
  · exact .keep (stable_settled _) (keeps_settled rfl _) fun _ => .ret fun _ h => h

theorem connectRefuse_settled :
    Triple (system parse) Boot Base FailuresClassified t (Undelegated t) connectRefuse (Settled t) :=
  settled_uses (by simp [connectRefuse, mqttCfgFailOff])

/-- A step of the loop that sets nothing up goes on listening. -/
theorem listen {o : Op} {k : Res o → Act MqttCfgStatus} (ho : o.setsUp = false)
    (hk : ∀ r, Triple (system parse) Boot Base FailuresClassified t (Listening t) (k r) (Settled t)) :
    Triple (system parse) Boot Base FailuresClassified t (Listening t) (.op o k) (Settled t) :=
  .keep stable_listening (keeps_listening ho) hk

theorem pollOnce_settled (timeoutMs waited : UInt32) {again : Act MqttCfgStatus}
    (hagain : Triple (system parse) Boot Base FailuresClassified t (Listening t) again (Settled t)) :
    Triple (system parse) Boot Base FailuresClassified t (Listening t) (pollOnce timeoutMs waited again) (Settled t) := by
  have leave : ∀ {p : Act MqttCfgStatus} {A : Assertion}, p.Uses (· ≠ .load .authRejected) →
      (∀ m, A m → Listening t m) → Triple (system parse) Boot Base FailuresClassified t A p (Settled t) :=
    fun hp hA => (settled_uses hp).conseq (fun m _ h => (hA m h).heard.undelegated) fun _ _ _ h => h
  unfold pollOnce
  simp only [Prog.perform_bind]
  refine listen rfl fun _ => listen rfl fun applyGen => listen rfl fun connectedGen => ?_
  -- What the loop reads as a failure is an event since the teardown.
  refine .op (fun failed m => Listening t m ∧ (failed = true → failuresOf t m.trace ≠ [])) stable_listening ?_ fun failed => ?_
  · intro m failed w hd h
    obtain ⟨rfl, -⟩ := effect_load (happens hd)
    exact ⟨trivial, (keeps_listening rfl m _ w hd h).2, fun hf => failed_step rfl (h.reported hf)⟩
  have stable : Stable (system parse) Boot Base FailuresClassified t
      fun m => Listening t m ∧ (failed = true → failuresOf t m.trace ≠ []) :=
    stable_listening.and fun _ e _ _ ht _ _ h hf => failed_step (isPlain_other ht e) (h hf)
  have keeps : ∀ o : Op, o.setsUp = false → Keeps (system parse) Boot Base FailuresClassified t
      (fun m => Listening t m ∧ (failed = true → failuresOf t m.trace ≠ [])) o :=
    fun o ho m r w hd h => ⟨trivial, (keeps_listening ho m r w hd h.1).2, fun hf => failed_step (isPlain_did ho r) (h.2 hf)⟩
  have hconnected : (pollConnected applyGen connectedGen).Uses (·.setsUp = false) := by
    unfold pollConnected
    split
    · exact ⟨rfl, fun _ => trivial⟩
    · trivial
  refine (Triple.uses stable (hconnected.mono keeps)).bind _ fun connected => .keep stable (keeps _ rfl) fun current => ?_
  split
  · refine .keep stable (keeps _ rfl) fun latch => ?_
    split
    · exact leave (by simp [pollAccept]) fun _ h => h.1
    · exact leave (by simp [pollRefuse, mqttCfgFailOff]) fun _ h => h.1
  · split
    · rename_i hf
      exact pollFailed_settled.conseq (fun _ _ h => ⟨h.1, h.2 hf⟩) fun _ _ _ h => h
    · split
      · exact leave (by simp [pollTimeout, mqttCfgFailOff]) fun _ h => h.1
      · exact hagain.conseq (fun _ _ h => h.1) fun _ _ _ h => h

/-- The teardown: no callback runs any more, and there is no session. -/
theorem torn_down {m : Moment} {r : Unit} {w : World} (hd : Does (system parse) Boot Base Φ t (.did .mqttAppDeinit r) m w)
    (h : Undelegated t m) :
    Heard t (m.after t (.did .mqttAppDeinit r) w) ∧ Sessionless t (m.after t (.did .mqttAppDeinit r) w) := by
  obtain ⟨hc, rfl⟩ := effect_deinit (happens hd)
  have hnil : failuresOf t ((t, .did .mqttAppDeinit r) :: m.trace) = [] := by simp [failuresOf]
  refine ⟨⟨fun hdel => h ((did_skip (by simp) r).1 hdel), ?_, ?_⟩, fun _ => ⟨rfl, ?_⟩⟩
  · intro reason hr
    simp [hc] at hr
  · rintro (hv | ⟨hv, -⟩)
    · simp [isVerdict] at hv
    · simp at hv
  · simp [hnil]

/-- The reset of the reject flag: of a session that has not started there is nothing to tell. -/
theorem told_reset {m : Moment} {r : Unit} {w : World}
    (hd : Does (system parse) Boot Base Φ t (.did (.store .authRejected false) r) m w) (h : Sessionless t m) :
    Told t (m.after t (.did (.store .authRejected false) r) w) := by
  intro ha _
  obtain ⟨-, hn⟩ := h (ha.before rfl).1
  have hflag : w.flag .authRejected = false := effect_store (happens hd)
  have hsame : failuresOf t ((t, .did (.store .authRejected false) r) :: m.trace) = failuresOf t m.trace := by
    simp [failuresOf]
  rw [Moment.after_world, Moment.after_trace, hflag, hsame]
  constructor
  · intro h; cases h
  · rintro ⟨-, hf⟩
    simp [hf] at hn

theorem connectStart_settled (timeoutMs : UInt32) :
    Triple (system parse) Boot Base FailuresClassified t (Undelegated t) (connectStart timeoutMs) (Settled t) := by
  have stable : Stable (system parse) Boot Base FailuresClassified t fun m => Heard t m ∧ Sessionless t m :=
    stable_heard.and stable_sessionless
  unfold connectStart connectBegin
  refine .op (fun _ m => Heard t m ∧ Sessionless t m) stable_undelegated (fun m r w hd h => ⟨trivial, torn_down hd h⟩) fun _ => ?_
  refine .keep stable (fun m r w hd h => ⟨trivial, h.1.step hd rfl, h.2.step hd rfl (by simp)⟩) fun _ => ?_
  refine .op (fun _ m => (Heard t m ∧ Reported t m) ∧ Sessionless t m) stable ?_ fun _ => ?_
  · intro m r w hd h
    refine ⟨trivial, ⟨h.1.step hd rfl, fun hw => ?_⟩, h.2.step hd rfl (by simp)⟩
    rw [Moment.after_world, effect_store (happens hd)] at hw
    cases hw
  refine .op (fun _ => Listening t) ?_ ?_ fun _ => ?_
  · intro t' e m w ht hd hp h
    have he := isPlain_other ht e
    exact ⟨⟨h.1.1.step hd he, h.1.2.step hd he h.1.1⟩, stable_sessionless t' e m w ht hd hp h.2⟩
  · exact fun m r w hd h => ⟨trivial, h.1.1.step hd rfl, h.1.2.step hd rfl h.1.1, told_reset hd h.2⟩
  refine listen rfl fun _ => listen rfl fun _ => listen rfl fun _ => listen rfl fun _ => listen rfl fun _ => ?_
  exact pollLoop_triple stable_listening stable_listening (keeps_listening rfl) (fun _ => keeps_listening rfl)
    ((settled_uses (by simp [pollTimeout, mqttCfgFailOff])).conseq (fun _ _ h => h.heard.undelegated) fun _ _ _ h => h)
    (fun waited _ => pollOnce_settled timeoutMs waited) _ _

theorem mqttCfgConnect_settled (timeoutMs : UInt32) :
    Triple (system parse) Boot Base FailuresClassified t (Undelegated t) (mqttCfgConnect timeoutMs) (Settled t) :=
  mqttCfgConnect_keeps stable_undelegated (fun _ ho => keeps_undelegated (by rintro rfl; simp [Op.byEntry] at ho))
    connectRefuse_settled (connectStart_settled timeoutMs)

/-- No other call reads the reject flag. -/
theorem other_settled {c : Call} (hc : ∀ timeoutMs, c ≠ .connect timeoutMs) :
    Triple (system parse) Boot Base FailuresClassified t (Undelegated t) (body parse c)
      fun _ m => Undelegated t m := by
  refine .uses stable_undelegated ((body_uses parse c).mono fun o ho => keeps_undelegated ?_)
  rintro rfl
  cases c with
  | connect timeoutMs => exact hc timeoutMs rfl
  | _ => cases ho

end Walk

/-! ## Runs -/

theorem failures_classified : Established (system parse) Boot (Base.and FailuresClassified) := by
  refine established (base parse) fun t c m w hd => ?_
  have hother : (∀ timeoutMs, c ≠ .connect timeoutMs) →
      Triple (system parse) Boot Base FailuresClassified t (Undelegated t) (body parse c)
        fun result m => ∀ status, result = some status → Settled t status m := fun hc =>
    (other_settled hc).conseq (fun _ _ h => h) fun _ _ _ h _ _ hdel => absurd hdel h
  have hbody : Triple (system parse) Boot Base FailuresClassified t (Undelegated t) (body parse c)
      fun result m => ∀ status, result = some status → Settled t status m := by
    cases c with
    | connect timeoutMs =>
      refine (mqttCfgConnect_settled timeoutMs).bind _ fun status => .ret fun m h => ?_
      rintro _ ⟨⟩
      exact h
    | _ => exact hother (by simp)
  refine Fulfils.of_triple (Undelegated t) (fun result m => ∀ status, result = some status → Settled t status m)
    (fun m w _ => ⟨trivial, did_call _⟩) hbody ?_ ?_ m w hd
  · intro s t' e m w ht hd hp h status hs
    exact stable_settled status t' e m w ht hd hp (h status hs)
  · intro result m w _ h
    cases result with
    | none => trivial
    | some status => exact h status rfl

/-- In every run, a call that ends through the failure branch of the poll loop, as
the only connect and with one failure event at most, has one such event, and its
status is what the event's reason asks for if and only if a rejected
authentication was stored before the loop read the flag. -/
theorem failed_classified {c : Config} (hr : (system parse).Run Boot c) : Every (AtFailure Classified) c.trace :=
  ((failures_classified parse).hist hr).every fun _ _ _ hp => hp.2

/-! ## A rejection that is not seen -/

theorem failed_classified_home : ∃ c,
    replayed (waitingRun ++ failurePublishes .authRejected ++ failureEnds .authRejected ++ pollFails (.task 0) 1 true) = some c ∧
      Every (AtFailure Classified) c.trace := by
  obtain ⟨c, hc⟩ := Option.isSome_iff_exists.1 (show (replayed (waitingRun ++ failurePublishes .authRejected ++
    failureEnds .authRejected ++ pollFails (.task 0) 1 true)).isSome = true by decide)
  exact ⟨c, hc, failed_classified _ (replayed_run hc).1⟩

/-- The reason the failure event of a call asks for is what the call returns. -/
def Named (t : Tid) (status : MqttCfgStatus) (past : List Entry) : Prop :=
  ∀ reason ∈ failuresOf t past, status = classify reason

instance (t : Tid) (s : MqttCfgStatus) (tr : List Entry) : Decidable (Named t s tr) :=
  inferInstanceAs (Decidable (∀ reason ∈ failuresOf t tr, s = classify reason))

/-- The broker rejects the authentication, and the connect returns
`MQTT_CFG_ERR_CONNECT` between the callback's two stores. -/
theorem reject_unseen : ∃ c,
    replayed (waitingRun ++ failurePublishes .authRejected ++ pollFails (.task 0) 1 false) = some c ∧
      ¬ Every (AtFailure Named) c.trace := by
  obtain ⟨c, hc⟩ := Option.isSome_iff_exists.1 (show (replayed (waitingRun ++ failurePublishes .authRejected ++
    pollFails (.task 0) 1 false)).isSome = true by decide)
  exact ⟨c, hc, by rw [(replayed_run hc).2]; decide⟩

end LedLamp.Mqtt
