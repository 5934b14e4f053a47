import LedLamp.Mqtt.Release
/-!
# Fail-off before every error return

Every call that returns an error has had a fail-off attempt completed since it
started (`failed_forced`). Most error paths make it themselves. The failure
branch of the poll loop leaves it to the failure callback, which publishes
`s_connect_failed` first and forces the lamp off later, so the call can return
in between (`returned_unforced`).
-/

namespace LedLamp.Mqtt

open Conc Lamp

variable (parse : List UInt8 → Option Json)

/-- A fail-off attempt of the call itself or of a transport callback. -/
def isForce (t : Tid) : Entry → Bool
  | (t', .did .lampControlForceInactive _) => t' = t || t' = .transport
  | _ => false

/-- The failure callback publishes its event. -/
def isFailed : Entry → Bool
  | (.transport, .did (.store .connectFailed true) _) => true
  | _ => false

/-- A fail-off attempt has completed since `t` started its call. -/
def Forced (t : Tid) : List Entry → Prop := Since (fun e => !isCall t e) fun e _ => isForce t e = true

/-- The call of `t` went through the failure branch of the poll loop, where the reject
flag is read. -/
abbrev Delegated (t : Tid) : List Entry → Prop := Did t (.load .authRejected)

/-- The failure callback has published its event and not yet forced the lamp off. -/
def Pending : List Entry → Prop := Since (fun e => !isForce .transport e) fun e _ => isFailed e = true

/-- `P t` of the past holds wherever a thread `t` returns an error. -/
def AtError (P : Tid → List Entry → Prop) : Entry → List Entry → Prop
  | (t, .ret (some status)), past => status ≠ .ok → P t past
  | _, _ => True

instance (t : Tid) (tr : List Entry) : Decidable (Forced t tr) := inferInstanceAs (Decidable (Since _ _ _))

instance (tr : List Entry) : Decidable (Pending tr) := inferInstanceAs (Decidable (Since _ _ _))

instance (P : Tid → List Entry → Prop) [∀ t tr, Decidable (P t tr)] : ∀ e past, Decidable (AtError P e past)
  | (t, .ret (some status)), past => inferInstanceAs (Decidable (status ≠ .ok → P t past))
  | (_, .ret none), _ | (_, .call _), _ | (_, .did _ _), _ => .isTrue trivial

/-- A failure event published during the call has been followed by its fail-off,
unless that is still pending. -/
theorem failed_forced_or_pending {t : Tid} {tr : List Entry}
    (hf : Since (fun e => !isCall t e) (fun e _ => isFailed e = true) tr) (hp : ¬ Pending tr) : Forced t tr := by
  induction tr with
  | nil => cases hf
  | cons e past ih =>
    rcases hf with hf | ⟨hc, hf⟩
    · exact absurd (.now hf) hp
    · by_cases he : isForce .transport e = true
      · refine .now ?_
        unfold isForce at he ⊢
        split at he
        · simp only [Bool.or_self, decide_eq_true_eq] at he
          simp [he]
        · cases he
      · exact (ih hf fun h => hp (h.later (by simpa using he))).later hc

/-! ## Following the calls -/

/-- An error return comes after a fail-off, unless it was left to a pending callback. -/
def ErrorsForced : Promise := fun t e m =>
  AtError (fun t past => ¬ (Delegated t past ∧ Pending past) → Forced t past) (t, e) m.trace

section Walk
variable {parse} {t : Tid}

/-- What an error return needs: the fail-off, or the failure branch with the event
that led there. -/
def Covered (t : Tid) (status : MqttCfgStatus) (m : Moment) : Prop :=
  status ≠ .ok → Forced t m.trace ∨
    (Delegated t m.trace ∧ Since (fun e => !isCall t e) (fun e _ => isFailed e = true) m.trace)

theorem stable_covered (status : MqttCfgStatus) : Stable (system parse) Boot Base ErrorsForced t (Covered t status) := by
  intro t' e m w ht hd hp h hne
  rcases h hne with h | ⟨hd', hf⟩
  · exact .inl (stable_since parse t' e m w ht hd hp h)
  · exact .inr ⟨stable_since parse t' e m w ht hd hp hd', stable_since parse t' e m w ht hd hp hf⟩

theorem keeps_any (o : Op) : Keeps (system parse) Boot Base ErrorsForced t (fun _ => True) o :=
  fun _ _ _ _ _ => ⟨trivial, trivial⟩

theorem free_any {α : Type} (p : Act α) :
    Triple (system parse) Boot Base ErrorsForced t (fun _ => True) p fun _ _ => True := .free (.of_forall keeps_any p)

/-- A step of which nothing need be known. -/
theorem skip {α : Type} {o : Op} {k : Res o → Act α} {Q : α → Assertion}
    (h : ∀ r, Triple (system parse) Boot Base ErrorsForced t (fun _ => True) (k r) Q) :
    Triple (system parse) Boot Base ErrorsForced t (fun _ => True) (.op o k) Q := .keep stable_true (keeps_any o) h

theorem forget {α : Type} {p : Act α} {A : Assertion} {Q : α → Assertion}
    (h : Triple (system parse) Boot Base ErrorsForced t (fun _ => True) p Q) :
    Triple (system parse) Boot Base ErrorsForced t A p Q := h.conseq (fun _ _ _ => trivial) fun _ _ _ h => h

/-- A fail-off right before the return covers any status. -/
theorem forced_covered {α : Type} (a : α) (status : α → MqttCfgStatus) :
    Triple (system parse) Boot Base ErrorsForced t (fun _ => True) (mqttCfgFailOff >>= fun _ => .ret a)
      fun a m => Covered t (status a) m := by
  refine .op (fun _ m => Forced t m.trace) stable_true ?_ fun _ => .ret fun m h _ => .inl h
  exact fun m r w _ _ => ⟨trivial, .now (by simp [isForce])⟩

theorem ok_covered {α : Type} (a : α) (status : α → MqttCfgStatus) (ha : status a = .ok) :
    Triple (system parse) Boot Base ErrorsForced t (fun _ => True) (.ret a) fun a m => Covered t (status a) m :=
  .ret fun _ _ hne => absurd ha hne

theorem mqttCfgValidate_covered (cfg : Option MqttCfg) :
    Triple (system parse) Boot Base ErrorsForced t (fun _ => True) (mqttCfgValidate cfg) (Covered t) := by
  unfold mqttCfgValidate
  refine skip fun _ => ?_
  dsimp only
  split
  · exact skip fun _ => skip fun _ => skip fun _ => forced_covered _ id
  · rename_i hok
    exact skip fun _ => ok_covered _ id (by simpa using hok)

theorem loadFail_covered (status : MqttCfgStatus) (out : Option MqttCfg) :
    Triple (system parse) Boot Base ErrorsForced t (fun _ => True) (loadFail status out)
      fun result m => Covered t result.1 m :=
  skip fun _ => skip fun _ => skip fun _ => skip fun _ => forced_covered _ Prod.fst

theorem mqttCfgLoad_covered (out : Option MqttCfg) :
    Triple (system parse) Boot Base ErrorsForced t (fun _ => True) (mqttCfgLoad parse out)
      fun result m => Covered t result.1 m := by
  unfold mqttCfgLoad
  cases out with
  | none => exact loadFail_covered _ _
  | some cfg =>
    refine (free_any _).bind _ fun content => ?_
    cases content with
    | none =>
      refine skip fun size => ?_
      cases size <;> exact loadFail_covered _ _
    | some json =>
      dsimp only
      split
      · exact loadFail_covered _ _
      · exact ok_covered _ Prod.fst rfl

theorem applyFail_covered (status : MqttCfgStatus) :
    Triple (system parse) Boot Base ErrorsForced t (fun _ => True) (applyFail status) (Covered t) :=
  skip fun _ => forced_covered _ id

theorem applyVerified_covered (cfg : MqttCfg) (token : Option (List UInt8)) :
    Triple (system parse) Boot Base ErrorsForced t (fun _ => True) (applyVerified cfg token) (Covered t) := by
  unfold applyVerified
  split
  · exact applyFail_covered _
  · refine skip fun status => ?_
    cases status with
    | ok => exact skip fun _ => skip fun _ => ok_covered _ id rfl
    | caError => exact applyFail_covered _
    | clientCertError => exact applyFail_covered _
    | error => exact applyFail_covered _

theorem applyLocked_covered (cfg : MqttCfg) :
    Triple (system parse) Boot Base ErrorsForced t (fun _ => True) (applyLocked cfg) (Covered t) := by
  unfold applyLocked
  simp only [Prog.perform_bind]
  split
  · refine skip fun token => ?_
    split
    · split
      · exact applyFail_covered _
      · exact applyVerified_covered _ _
    · exact applyFail_covered _
  · exact applyVerified_covered _ _

theorem mqttCfgApply_covered (cfg : Option MqttCfg) :
    Triple (system parse) Boot Base ErrorsForced t (fun _ => True) (mqttCfgApply cfg) (Covered t) := by
  have hrest : Triple (system parse) Boot Base ErrorsForced t (fun _ => True) (applyRest cfg) (Covered t) := by
    unfold applyRest
    refine skip fun _ => skip fun _ => ?_
    cases cfg with
    | none => exact applyFail_covered _
    | some cfg =>
      dsimp only
      split
      · exact applyFail_covered _
      · exact applyLocked_covered _
  unfold mqttCfgApply
  refine (free_any _).bind _ fun _ => skip fun _ => skip fun connected => ?_
  cases connected with
  | false => exact skip fun _ => hrest
  | true => exact skip fun _ => skip fun _ => hrest

/-! ## Connect -/

/-- A failure event that the poll loop can see was published during the call. -/
def Fresh (t : Tid) (m : Moment) : Prop :=
  m.world.flag .connectFailed = true → Since (fun e => !isCall t e) (fun e _ => isFailed e = true) m.trace

/-- The step keeps what is known of the failure flag. -/
theorem Fresh.step {t' : Tid} {o : Op} {r : Res o} {m : Moment} {w : World} (h : Fresh t m)
    (hd : Does (system parse) Boot Base ErrorsForced t' (.did o r) m w) : Fresh t (m.after t' (.did o r) w) := by
  intro hw
  by_cases hs : ∃ b, o = .store .connectFailed b
  · obtain ⟨b, rfl⟩ := hs
    have hb : b = true := by
      have he := hd.effect
      simp only [system_effect, effect_did, stepEffect, Option.some.injEq] at he
      simpa [← he] using hw
    subst hb
    -- Only the failure callback sets the flag.
    have htr : t' = .transport := by
      by_contra htr
      rcases hd.known.1.task htr with h | h | h <;> cases h
    subst htr
    exact .now rfl
  · refine (h ?_).later (by simp [isCall_did])
    rcases (changes hd).flag .connectFailed with e' | ⟨b, e', -⟩
    · exact e'.symm.trans hw
    · cases e'; exact absurd ⟨b, rfl⟩ hs

theorem stable_fresh : Stable (system parse) Boot Base ErrorsForced t (Fresh t) := by
  intro t' e m w ht hd _ h
  cases e with
  | did o r => exact h.step hd
  | call c =>
    intro hw
    rcases (changes hd).flag .connectFailed with e' | ⟨b, e', -⟩
    · exact (h (e'.symm.trans hw)).later (by simp [isCall_other ht])
    · cases e'
  | ret s =>
    intro hw
    rcases (changes hd).flag .connectFailed with e' | ⟨b, e', -⟩
    · exact (h (e'.symm.trans hw)).later (by simp [isCall_other ht])
    · cases e'

theorem keeps_fresh (o : Op) : Keeps (system parse) Boot Base ErrorsForced t (Fresh t) o :=
  fun _ _ _ hd h => ⟨trivial, h.step hd⟩

/-- A step that keeps what is known of the failure flag. -/
theorem fresh {α : Type} {o : Op} {k : Res o → Act α} {Q : α → Assertion}
    (h : ∀ r, Triple (system parse) Boot Base ErrorsForced t (Fresh t) (k r) Q) :
    Triple (system parse) Boot Base ErrorsForced t (Fresh t) (.op o k) Q := .keep stable_fresh (keeps_fresh o) h

theorem connectRefuse_covered :
    Triple (system parse) Boot Base ErrorsForced t (fun _ => True) connectRefuse (Covered t) :=
  skip fun _ => skip fun _ => skip fun _ => forced_covered _ id

theorem pollRefuse_covered : Triple (system parse) Boot Base ErrorsForced t (fun _ => True) pollRefuse (Covered t) :=
  skip fun _ => skip fun _ => skip fun _ => skip fun _ => skip fun _ => forced_covered _ id

theorem pollTimeout_covered : Triple (system parse) Boot Base ErrorsForced t (fun _ => True) pollTimeout (Covered t) :=
  skip fun _ => skip fun _ => skip fun _ => forced_covered _ id

theorem pollAccept_covered : Triple (system parse) Boot Base ErrorsForced t (fun _ => True) pollAccept (Covered t) :=
  skip fun _ => skip fun _ => skip fun _ => ok_covered _ id rfl

/-- The failure branch leaves the fail-off to the callback that published the event. -/
theorem pollFailed_covered : Triple (system parse) Boot Base ErrorsForced t
    (fun m => Since (fun e => !isCall t e) (fun e _ => isFailed e = true) m.trace) pollFailed (Covered t) := by
  refine .op (fun _ m => Delegated t m.trace ∧ Since (fun e => !isCall t e) (fun e _ => isFailed e = true) m.trace)
    (stable_since parse) ?_ fun rejected => ?_
  · exact fun m r w _ h => ⟨trivial, did_now r, h.later (by simp [isCall_did])⟩
  refine .keep ((stable_since parse).and (stable_since parse)) ?_ fun _ => .ret fun m h _ => .inr h
  exact fun m r w _ h => ⟨trivial, h.1.later (by simp [isCall_did]), h.2.later (by simp [isCall_did])⟩

theorem pollOnce_covered (timeoutMs waited : UInt32) {again : Act MqttCfgStatus}
    (hagain : Triple (system parse) Boot Base ErrorsForced t (Fresh t) again (Covered t)) :
    Triple (system parse) Boot Base ErrorsForced t (Fresh t) (pollOnce timeoutMs waited again) (Covered t) := by
  unfold pollOnce
  simp only [Prog.perform_bind]
  refine fresh fun _ => fresh fun applyGen => fresh fun connectedGen => ?_
  -- What the loop reads as a failure was published during the call.
  refine .op (fun failed m => Fresh t m ∧
    (failed = true → Since (fun e => !isCall t e) (fun e _ => isFailed e = true) m.trace)) stable_fresh ?_ fun failed => ?_
  · intro m failed w hd h
    refine ⟨trivial, h.step hd, fun hfailed => ?_⟩
    have he := hd.effect
    simp only [system_effect, effect_did, stepEffect, Option.ite_none_right_eq_some, Option.some.injEq] at he
    exact (h (he.1.symm.trans hfailed)).later (by simp [isCall_did])
  have stable : Stable (system parse) Boot Base ErrorsForced t fun m => Fresh t m ∧
      (failed = true → Since (fun e => !isCall t e) (fun e _ => isFailed e = true) m.trace) :=
    stable_fresh.and fun t' e m w ht hd hp h hfailed => stable_since parse t' e m w ht hd hp (h hfailed)
  have keeps : ∀ o, Keeps (system parse) Boot Base ErrorsForced t (fun m => Fresh t m ∧
      (failed = true → Since (fun e => !isCall t e) (fun e _ => isFailed e = true) m.trace)) o :=
    fun o m r w hd h => ⟨trivial, h.1.step hd, fun hfailed => (h.2 hfailed).later (by simp [isCall_did])⟩
  refine (Triple.uses stable (.of_forall keeps _)).bind _ fun connected => .keep stable (keeps _) fun current => ?_
  split
  · refine .keep stable (keeps _) fun latch => forget ?_
    split
    · exact pollAccept_covered
    · exact pollRefuse_covered
  · split
    · rename_i hfailed
      exact pollFailed_covered.conseq (fun _ _ h => h.2 hfailed) fun _ _ _ h => h
    · split
      · exact forget pollTimeout_covered
      · exact hagain.conseq (fun _ _ h => h.1) fun _ _ _ h => h

theorem mqttCfgConnect_covered (timeoutMs : UInt32) :
    Triple (system parse) Boot Base ErrorsForced t (fun _ => True) (mqttCfgConnect timeoutMs) (Covered t) := by
  refine mqttCfgConnect_keeps stable_true (fun o _ => keeps_any o) connectRefuse_covered ?_
  refine skip fun _ => skip fun _ => ?_
  -- The flag is cleared, so whatever sets it again is of this call.
  refine .op (fun _ => Fresh t) stable_true ?_ fun _ => ?_
  · intro m r w hd _
    have he := hd.effect
    simp only [system_effect, effect_did, stepEffect, Option.some.injEq] at he
    refine ⟨trivial, fun hw => ?_⟩
    simp [← he] at hw
  · refine fresh fun _ => fresh fun _ => fresh fun _ => fresh fun _ => fresh fun _ => fresh fun _ => ?_
    exact pollLoop_triple stable_fresh stable_fresh (keeps_fresh _) (fun _ => keeps_fresh _) (forget pollTimeout_covered)
      (fun waited _ => pollOnce_covered timeoutMs waited) _ _

theorem mqttCfgLoadAndApply_covered (cfg : MqttCfg) :
    Triple (system parse) Boot Base ErrorsForced t (fun _ => True) (mqttCfgLoadAndApply parse cfg) (Covered t) := by
  unfold mqttCfgLoadAndApply
  refine (mqttCfgLoad_covered _).bind _ fun result => ?_
  split
  · exact forget (mqttCfgApply_covered _)
  · exact .ret fun _ h => h

end Walk

/-! ## Runs -/

theorem errors_forced : Established (system parse) Boot (Base.and ErrorsForced) := by
  refine established (base parse) fun t c m w hd => ?_
  have hbody : Triple (system parse) Boot Base ErrorsForced t (fun _ => True) (body parse c)
      fun result m => ∀ status, result = some status → Covered t status m := by
    rcases effect_call hd.effect with ⟨-, hc, -⟩ | ⟨-, hc, -⟩
    · cases c with
      | onConnect => exact (free_any _).bind _ fun _ => .ret fun _ _ => by simp
      | onDisconnect => exact (free_any _).bind _ fun _ => .ret fun _ _ => by simp
      | onConnectFailure reason => exact (free_any _).bind _ fun _ => .ret fun _ _ => by simp
      | _ => simp [World.callsBack, Call.isCallback] at hc
    · cases c with
      | validate cfg => exact (mqttCfgValidate_covered cfg).bind _ fun _ => .ret fun _ h => by simpa using h
      | load out => exact (mqttCfgLoad_covered out).bind _ fun _ => .ret fun _ h => by simpa using h
      | apply cfg => exact (mqttCfgApply_covered cfg).bind _ fun _ => .ret fun _ h => by simpa using h
      | loadAndApply cfg => exact (mqttCfgLoadAndApply_covered cfg).bind _ fun _ => .ret fun _ h => by simpa using h
      | connect timeoutMs => exact (mqttCfgConnect_covered timeoutMs).bind _ fun _ => .ret fun _ h => by simpa using h
      | _ => cases hc
  refine Fulfils.of_triple (fun _ => True) (fun result m => ∀ status, result = some status → Covered t status m)
    (fun m w _ => ⟨trivial, trivial⟩) hbody ?_ ?_ m w hd
  · intro s t' e m w ht hd hp h status hs
    exact stable_covered status t' e m w ht hd hp (h status hs)
  · intro result m w _ h
    cases result with
    | none => trivial
    | some status =>
      intro hne hnot
      rcases h status rfl hne with h | ⟨hd', hf⟩
      · exact h
      · exact failed_forced_or_pending hf fun hp => hnot ⟨hd', hp⟩

/-- In a run where no call returns an error through the failure branch of the poll
loop while the failure callback has still to force the lamp off, every error
return comes after a fail-off attempt that completed since the call started. -/
theorem failed_forced {c : Config} (hr : (system parse).Run Boot c)
    (h : Every (AtError fun t past => ¬ (Delegated t past ∧ Pending past)) c.trace) :
    Every (AtError Forced) c.trace := by
  refine Every.imp (((errors_forced parse).hist hr).every fun t e m hp => ?_) h
  cases e with
  | ret s => cases s with
    | none => exact fun _ => trivial
    | some status => exact fun hc hne => hp.2 hne (hc hne)
  | _ => exact fun _ => trivial

/-! ## A failure reported before its fail-off -/

/-- The failure callback up to the publication of its event. -/
def failurePublishes (reason : MqttConnectFailureReason) : List Entry :=
  [(.transport, .call (.onConnectFailure reason)), (.transport, .did (.store .waitingForConnection false) ()),
   (.transport, .did (.storeGen .connected 0) ()), (.transport, .did (.store .connectFailed true) ())]

/-- The rest of it, for a reason that leaves the latch alone. -/
def failureEnds (reason : MqttConnectFailureReason) : List Entry :=
  [(.transport, .did (.store .authRejected (reason = .authRejected)) ()),
   (.transport, .did .lampControlForceInactive .ok), (.transport, .ret none)]

/-- An iteration of the poll loop that finds the failure event of generation `gen`,
with the reject flag at `rejected`. -/
def pollFails (t : Tid) (gen : UInt32) (rejected : Bool) : List Entry :=
  [(t, .did .lock ()), (t, .did (.loadGen .apply) gen), (t, .did (.loadGen .connected) 0),
   (t, .did (.load .connectFailed) true), (t, .did .mqttConfigVerifiedIsCurrent true),
   (t, .did (.load .authRejected) rejected), (t, .did .unlock ()),
   (t, .ret (some (if rejected then .errAuthRejected else .errConnect)))]

/-- A connect that waits, after a first successful apply. -/
def waitingRun : List Entry :=
  applyBegins (.task 0) 0 ++ applySucceeds (.task 0) ++ connectEnters (.task 0) ++ connectBegins (.task 0)

theorem failed_forced_home : ∃ c,
    replayed (waitingRun ++ failurePublishes .other ++ failureEnds .other ++ pollFails (.task 0) 1 false) = some c ∧
      Every (AtError Forced) c.trace := by
  obtain ⟨c, hc⟩ := Option.isSome_iff_exists.1 (show (replayed (waitingRun ++ failurePublishes .other ++
    failureEnds .other ++ pollFails (.task 0) 1 false)).isSome = true by decide)
  obtain ⟨hr, htr⟩ := replayed_run hc
  exact ⟨c, hc, failed_forced _ hr (by rw [htr]; decide)⟩

/-- The connect returns `MQTT_CFG_ERR_CONNECT` between the callback's publication of
the failure and its fail-off: no attempt has completed since the call started. -/
theorem returned_unforced : ∃ c,
    replayed (waitingRun ++ failurePublishes .other ++ pollFails (.task 0) 1 false) = some c ∧
      ¬ Every (AtError Forced) c.trace := by
  obtain ⟨c, hc⟩ := Option.isSome_iff_exists.1 (show (replayed (waitingRun ++ failurePublishes .other ++
    pollFails (.task 0) 1 false)).isSome = true by decide)
  exact ⟨c, hc, by rw [(replayed_run hc).2]; decide⟩

end LedLamp.Mqtt
