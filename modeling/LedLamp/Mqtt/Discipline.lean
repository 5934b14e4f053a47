import LedLamp.Mqtt.Rules
/-!
# The discipline of the shared variables

What the rest relies on: the latch and the apply generation are only written under
the module lock, the generation never to 0, and the latch is only set once a
generation exists; verified values are only handed over under the lock; and a
callback forces the lamp inactive only after it has cleared the connected
generation.
-/

namespace LedLamp.Mqtt

open Conc Lamp

variable (parse : List UInt8 → Option Json)

def Discipline : Promise := fun t e m =>
  match e with
  | .did (.storeGen .apply value) _ => Locked t m ∧ value ≠ 0
  | .did (.writeVerifiedApplied value) _ => Locked t m ∧ (value = true → m.world.gen .apply ≠ 0)
  | .did (.mqttConfigApplyVerified _) _ => Locked t m
  | .did .lampControlForceInactive _ => t = .transport → m.world.gen .connected = 0
  | _ => True

theorem nextGeneration_ne_zero (gen : UInt32) : nextGeneration gen ≠ 0 := by
  unfold nextGeneration
  split
  · decide
  · assumption

/-- The steps of a task that the discipline does not speak of. -/
def Op.plain : Op → Bool
  | .storeGen .apply _ | .writeVerifiedApplied _ | .mqttConfigApplyVerified _ => false
  | _ => true

theorem plain_disciplined {t : Tid} (ht : t ≠ .transport) {o : Op} (ho : o.plain = true) (r : Res o) (m : Moment) :
    Discipline t (.did o r) m := by
  cases o with
  | storeGen g v => cases g with
    | apply => cases ho
    | connected => trivial
  | writeVerifiedApplied b => cases ho
  | mqttConfigApplyVerified v => cases ho
  | lampControlForceInactive => exact fun h => absurd h ht
  | _ => trivial

/-- A generation exists. -/
def Started (m : Moment) : Prop := m.world.gen .apply ≠ 0

/-- Inside the second locked section of an apply. -/
def Inside (t : Tid) (m : Moment) : Prop := Locked t m ∧ Started m

section Tasks
variable {parse} {t : Tid}

theorem stable_started : Stable (system parse) Boot Footprint Discipline t Started := by
  intro t' e m w _ hd hp h
  rcases (changes hd).gen .apply with e' | ⟨v, rfl, e'⟩
  · simpa [Started, e'] using h
  · simpa [Started, e'] using hp.2

theorem stable_inside : Stable (system parse) Boot Footprint Discipline t (Inside t) := stable_locked.and stable_started

variable (ht : t ≠ .transport)
include ht

theorem keeps_true {o : Op} (ho : o.plain = true) :
    Keeps (system parse) Boot Footprint Discipline t (fun _ => True) o :=
  fun m r _ _ _ => ⟨plain_disciplined ht ho r m, trivial⟩

theorem keeps_locked {o : Op} (ho : o.plain = true) (hu : o ≠ .unlock) :
    Keeps (system parse) Boot Footprint Discipline t (Locked t) o :=
  fun m r _ hd ha => ⟨plain_disciplined ht ho r m, ha.did hd hu⟩

omit ht in
theorem keeps_cleared : Keeps (system parse) Boot Footprint Discipline t (Locked t) (.writeVerifiedApplied false) :=
  fun _ _ _ hd ha => ⟨⟨ha, fun h => by cases h⟩, ha.did hd (by simp)⟩

theorem keeps_started {o : Op} (ho : o.plain = true) : Keeps (system parse) Boot Footprint Discipline t Started o := by
  intro m r w hd ha
  refine ⟨plain_disciplined ht ho r m, ?_⟩
  rcases (changes hd).gen .apply with e' | ⟨v, e', -⟩
  · simpa [Started, e'] using ha
  · cases e'; cases ho

theorem keeps_inside {o : Op} (ho : o.plain = true) (hu : o ≠ .unlock) :
    Keeps (system parse) Boot Footprint Discipline t (Inside t) o :=
  fun m r w hd ha => ⟨plain_disciplined ht ho r m, ha.1.did hd hu, (keeps_started ht ho m r w hd ha.2).2⟩

omit ht in
theorem keeps_inside_cleared :
    Keeps (system parse) Boot Footprint Discipline t (Inside t) (.writeVerifiedApplied false) := by
  intro m r w hd ha
  refine ⟨⟨ha.1, fun h => by cases h⟩, ha.1.did hd (by simp), ?_⟩
  rcases (changes hd).gen .apply with e' | ⟨v, e', -⟩
  · simpa [Started, e'] using ha.2
  · cases e'

theorem free_plain {α : Type} {p : Act α} {A : Assertion} (hp : p.Uses (·.plain)) :
    Triple (system parse) Boot Footprint Discipline t A p fun _ _ => True :=
  .free (hp.mono fun _ ho => keeps_true ht ho)

/-- A section that takes the lock. -/
theorem section_triple {α : Type} {k : Res .lock → Act α} {A : Assertion} {Q : α → Assertion}
    (hA : Stable (system parse) Boot Footprint Discipline t A)
    (hk : ∀ r, Triple (system parse) Boot Footprint Discipline t (Locked t) (k r) Q) :
    Triple (system parse) Boot Footprint Discipline t A (.op .lock k) Q :=
  .op (fun _ => Locked t) hA (fun m r _ hd _ => ⟨plain_disciplined ht rfl r m, locked hd⟩) hk

/-! ## Validate and load -/

theorem mqttCfgValidate_triple (cfg : Option MqttCfg) :
    Triple (system parse) Boot Footprint Discipline t (fun _ => True) (mqttCfgValidate cfg) fun _ _ => True := by
  unfold mqttCfgValidate
  refine section_triple ht stable_true fun _ => ?_
  dsimp only
  split
  · exact .keep stable_locked keeps_cleared fun _ =>
      free_plain ht ⟨rfl, fun _ => ⟨rfl, fun _ => ⟨rfl, fun _ => trivial⟩⟩⟩
  · exact free_plain ht ⟨rfl, fun _ => trivial⟩

theorem loadFail_triple (status : MqttCfgStatus) (out : Option MqttCfg) :
    Triple (system parse) Boot Footprint Discipline t (fun _ => True) (loadFail status out) fun _ _ => True :=
  section_triple ht stable_true fun _ => .keep stable_locked keeps_cleared fun _ =>
    free_plain ht ⟨rfl, fun _ => ⟨rfl, fun _ => ⟨rfl, fun _ => trivial⟩⟩⟩

theorem mqttCfgLoad_triple (out : Option MqttCfg) :
    Triple (system parse) Boot Footprint Discipline t (fun _ => True) (mqttCfgLoad parse out) fun _ _ => True := by
  have hread : ∀ path maxLen, (mqttCfgReadFile path maxLen).Uses (·.plain) := fun path maxLen =>
    (mqttCfgReadFile_uses path maxLen).mono fun o ho => by cases o <;> first | rfl | cases ho
  unfold mqttCfgLoad
  cases out with
  | none => exact loadFail_triple ht _ _
  | some cfg =>
    refine (free_plain ht (hread _ _)).bind _ fun content => ?_
    cases content with
    | none =>
      refine .keep stable_true (keeps_true ht rfl) fun size => ?_
      cases size <;> exact loadFail_triple ht _ _
    | some json =>
      dsimp only
      split
      · exact loadFail_triple ht _ _
      · exact .ret fun _ _ => trivial

/-! ## Apply -/

theorem applyBegin_triple :
    Triple (system parse) Boot Footprint Discipline t (fun _ => True) applyBegin fun _ => Started := by
  unfold applyBegin
  simp only [Prog.perform_bind]
  refine section_triple ht stable_true fun _ => .keep stable_locked (keeps_locked ht rfl (by simp)) fun gen => ?_
  refine .op (fun _ => Inside t) stable_locked ?_ fun _ => ?_
  · intro m r w hd ha
    refine ⟨⟨ha, nextGeneration_ne_zero gen⟩, ha.did hd (by simp), ?_⟩
    rw [Started, Moment.after_world, effect_storeGen (happens hd)]
    exact nextGeneration_ne_zero gen
  refine .keep stable_inside (keeps_inside ht rfl (by simp)) fun _ => ?_
  refine .keep stable_inside (keeps_inside ht rfl (by simp)) fun _ => .keep stable_inside keeps_inside_cleared fun _ => ?_
  refine .op (fun _ => Started) stable_inside ?_ fun _ => .ret fun _ h => h
  exact fun m r w hd ha => keeps_started ht rfl m r w hd ha.2

theorem applyFail_triple (status : MqttCfgStatus) :
    Triple (system parse) Boot Footprint Discipline t (Inside t) (applyFail status) fun _ _ => True :=
  free_plain ht ⟨rfl, fun _ => ⟨rfl, fun _ => trivial⟩⟩

theorem applyVerified_triple (cfg : MqttCfg) (token : Option (List UInt8)) :
    Triple (system parse) Boot Footprint Discipline t (Inside t) (applyVerified cfg token) fun _ _ => True := by
  unfold applyVerified
  split
  · exact applyFail_triple ht _
  refine .keep stable_inside ?_ fun status => ?_
  · intro m r w hd ha
    refine ⟨ha.1, ha.1.did hd (by simp), ?_⟩
    rcases (changes hd).gen .apply with e' | ⟨v, e', -⟩
    · simpa [Started, e'] using ha.2
    · cases e'
  cases status with
  | ok =>
    refine .op (fun _ _ => True) stable_inside (fun m r w hd ha => ⟨⟨ha.1, fun _ => ha.2⟩, trivial⟩) fun _ => ?_
    exact free_plain ht ⟨rfl, fun _ => trivial⟩
  | caError => exact applyFail_triple ht _
  | clientCertError => exact applyFail_triple ht _
  | error => exact applyFail_triple ht _

theorem applyLocked_triple (cfg : MqttCfg) :
    Triple (system parse) Boot Footprint Discipline t (Inside t) (applyLocked cfg) fun _ _ => True := by
  unfold applyLocked
  simp only [Prog.perform_bind]
  split
  · refine .keep stable_inside (keeps_inside ht rfl (by simp)) fun token => ?_
    split
    · split
      · exact applyFail_triple ht _
      · exact applyVerified_triple ht _ _
    · exact applyFail_triple ht _
  · exact applyVerified_triple ht _ _

theorem applyRest_triple (cfg : Option MqttCfg) :
    Triple (system parse) Boot Footprint Discipline t Started (applyRest cfg) fun _ _ => True := by
  unfold applyRest
  refine .op (fun _ => Inside t) stable_started ?_ fun _ => ?_
  · exact fun m r w hd ha => ⟨trivial, locked hd, (keeps_started ht rfl m r w hd ha).2⟩
  refine .keep stable_inside keeps_inside_cleared fun _ => ?_
  cases cfg with
  | none => exact applyFail_triple ht _
  | some cfg =>
    dsimp only
    split
    · exact applyFail_triple ht _
    · exact applyLocked_triple ht _

theorem mqttCfgApply_triple (cfg : Option MqttCfg) :
    Triple (system parse) Boot Footprint Discipline t (fun _ => True) (mqttCfgApply cfg) fun _ _ => True := by
  unfold mqttCfgApply
  refine (applyBegin_triple ht).bind _ fun _ => ?_
  refine .keep stable_started (keeps_started ht rfl) fun _ => .keep stable_started (keeps_started ht rfl) fun connected => ?_
  cases connected with
  | false => exact .keep stable_started (keeps_started ht rfl) fun _ => applyRest_triple ht cfg
  | true =>
    exact .keep stable_started (keeps_started ht rfl) fun _ =>
      .keep stable_started (keeps_started ht rfl) fun _ => applyRest_triple ht cfg

/-! ## Connect -/

theorem pollOnce_triple (timeoutMs waited : UInt32) {again : Act MqttCfgStatus}
    (hagain : Triple (system parse) Boot Footprint Discipline t (Locked t) again fun _ _ => True) :
    Triple (system parse) Boot Footprint Discipline t (fun _ => True) (pollOnce timeoutMs waited again)
      fun _ _ => True := by
  have keep : ∀ {o : Op} {k : Res o → Act MqttCfgStatus}, o.plain = true → o ≠ .unlock →
      (∀ r, Triple (system parse) Boot Footprint Discipline t (Locked t) (k r) fun _ _ => True) →
      Triple (system parse) Boot Footprint Discipline t (Locked t) (.op o k) fun _ _ => True :=
    fun ho hu hk => .keep stable_locked (keeps_locked ht ho hu) hk
  have hconnected : ∀ r c, (pollConnected r c).Uses fun o => o.plain = true ∧ o ≠ .unlock := by
    intro r c
    unfold pollConnected
    split
    · exact ⟨⟨rfl, by simp⟩, fun _ => trivial⟩
    · trivial
  unfold pollOnce
  refine section_triple ht stable_true fun _ => keep rfl (by simp) fun applyGen => keep rfl (by simp) fun connectedGen => ?_
  refine keep rfl (by simp) fun failed => ?_
  refine (Triple.uses stable_locked ((hconnected _ _).mono fun o ho => keeps_locked ht ho.1 ho.2)).bind _ fun connected => ?_
  refine keep rfl (by simp) fun current => ?_
  split
  · refine keep rfl (by simp) fun latch => ?_
    show Triple _ _ _ _ _ _ (if (latch && current) = true then pollAccept else pollRefuse) _
    split
    · exact free_plain ht ⟨rfl, fun _ => ⟨rfl, fun _ => ⟨rfl, fun _ => trivial⟩⟩⟩
    · exact .keep stable_locked keeps_cleared fun _ => 
        free_plain ht ⟨rfl, fun _ => ⟨rfl, fun _ => ⟨rfl, fun _ => ⟨rfl, fun _ => ⟨rfl, fun _ => trivial⟩⟩⟩⟩⟩
  · split
    · exact free_plain ht ⟨rfl, fun _ => ⟨rfl, fun _ => trivial⟩⟩
    · split
      · exact free_plain ht ⟨rfl, fun _ => ⟨rfl, fun _ => ⟨rfl, fun _ => ⟨rfl, fun _ => trivial⟩⟩⟩⟩
      · exact hagain

theorem mqttCfgConnect_disciplined (timeoutMs : UInt32) :
    Triple (system parse) Boot Footprint Discipline t (fun _ => True) (mqttCfgConnect timeoutMs) fun _ _ => True := by
  have hentry : ∀ o : Op, o.byEntry = true → Keeps (system parse) Boot Footprint Discipline t (Locked t) o := by
    intro o ho
    cases o with
    | writeVerifiedApplied b => cases b with
      | true => cases ho
      | false => exact keeps_cleared
    | readVerifiedApplied => exact keeps_locked ht rfl (by simp)
    | mqttConfigVerifiedIsCurrent => exact keeps_locked ht rfl (by simp)
    | mqttConfigGetVerifiedServerUrl => exact keeps_locked ht rfl (by simp)
    | _ => cases ho
  refine mqttCfgConnect_triple stable_true (fun m r w hd _ => ⟨trivial, locked hd⟩) stable_locked hentry
    (fun _ _ _ _ _ => ⟨trivial, trivial⟩)
    (free_plain ht ⟨rfl, fun _ => ⟨rfl, fun _ => ⟨rfl, fun _ => ⟨rfl, fun _ => trivial⟩⟩⟩⟩) ?_
  have go : ∀ {o : Op} {k : Res o → Act MqttCfgStatus}, o.plain = true →
      (∀ r, Triple (system parse) Boot Footprint Discipline t (fun _ => True) (k r) fun _ _ => True) →
      Triple (system parse) Boot Footprint Discipline t (fun _ => True) (.op o k) fun _ _ => True :=
    fun ho hk => .keep stable_true (keeps_true ht ho) hk
  refine go rfl fun _ => go rfl fun _ => go rfl fun _ => go rfl fun _ => go rfl fun _ => go rfl fun _ => ?_
  refine go rfl fun _ => go rfl fun _ => go rfl fun _ => ?_
  exact pollLoop_triple stable_true stable_locked (fun _ _ _ _ _ => ⟨trivial, trivial⟩) (fun _ => keeps_true ht rfl)
    (free_plain ht ⟨rfl, fun _ => ⟨rfl, fun _ => ⟨rfl, fun _ => ⟨rfl, fun _ => trivial⟩⟩⟩⟩)
    (fun waited _ => pollOnce_triple ht timeoutMs waited) _ _

end Tasks

/-! ## Callbacks -/

section Callbacks
variable {parse}

/-- No connect event is accepted. -/
def Unstamped (m : Moment) : Prop := m.world.gen .connected = 0

/-- Only a connect event stamps a generation. -/
theorem stamp_transport {t : Tid} {v : UInt32} {r : Unit} {m : Moment}
    (hf : Footprint t (.did (.storeGen .connected v) r) m) (hv : v ≠ 0) : t = .transport := by
  by_contra ht
  rcases hf.task ht with h | h | h <;> simp [Op.byLoad, Op.byApply, Op.byConnect, hv] at h

theorem stable_unstamped : Stable (system parse) Boot Footprint Discipline .transport Unstamped := by
  intro t' e m w ht hd _ h
  rcases (changes hd).gen .connected with e' | ⟨v, rfl, e'⟩
  · simpa [Unstamped, e'] using h
  · by_contra hv
    exact ht (stamp_transport hd.known fun h0 => hv (e'.trans h0))

theorem callback_disciplined {o : Op} (ho : o.byCallback = true) (hp : o.plain = true)
    (hf : o ≠ .lampControlForceInactive) (t : Tid) (r : Res o) (m : Moment) : Discipline t (.did o r) m := by
  cases o with
  | storeGen g v => cases g with
    | apply => cases ho
    | connected => trivial
  | writeVerifiedApplied b => cases hp
  | mqttConfigApplyVerified v => cases hp
  | lampControlForceInactive => exact absurd rfl hf
  | _ => trivial

theorem Unstamped.did {K Φ : Promise} {o : Op} {r : Res o} {m : Moment} {w : World} (h : Unstamped m)
    (hd : Does (system parse) Boot K Φ .transport (.did o r) m w) (hs : ∀ v, o ≠ .storeGen .connected v) :
    Unstamped (m.after .transport (.did o r) w) := by
  rcases (changes hd).gen .connected with e' | ⟨v, e', -⟩
  · simpa [Unstamped, e'] using h
  · cases e'; exact absurd rfl (hs v)

theorem keeps_unstamped {o : Op} (ho : o.byCallback = true) (hp : o.plain = true) (hs : ∀ v, o ≠ .storeGen .connected v) :
    Keeps (system parse) Boot Footprint Discipline .transport Unstamped o := by
  intro m r w hd ha
  refine ⟨?_, ha.did hd hs⟩
  by_cases hf : o = .lampControlForceInactive
  · subst hf; exact fun _ => ha
  · exact callback_disciplined ho hp hf _ r m

theorem keeps_callback {o : Op} (ho : o.byCallback = true) (hp : o.plain = true) (hf : o ≠ .lampControlForceInactive) :
    Keeps (system parse) Boot Footprint Discipline .transport (fun _ => True) o :=
  fun m r _ _ _ => ⟨callback_disciplined ho hp hf _ r m, trivial⟩

theorem mqttCfgOnConnect_triple :
    Triple (system parse) Boot Footprint Discipline .transport (fun _ => True) mqttCfgOnConnect fun _ _ => True := by
  refine .keep stable_true (keeps_callback rfl rfl (by simp)) fun waiting => ?_
  cases waiting with
  | false => exact .ret fun _ _ => trivial
  | true => exact .free ⟨keeps_callback rfl rfl (by simp), fun _ => ⟨keeps_callback rfl rfl (by simp), fun _ => trivial⟩⟩

/-- Both losses begin by clearing the wait and the stamp. -/
theorem cleared_triple {α : Type} {p : Act α}
    (hp : Triple (system parse) Boot Footprint Discipline .transport Unstamped p fun _ _ => True) :
    Triple (system parse) Boot Footprint Discipline .transport (fun _ => True)
      (do act (.store .waitingForConnection false); act (.storeGen .connected 0); p) fun _ _ => True := by
  refine .keep stable_true (keeps_callback rfl rfl (by simp)) fun _ => ?_
  refine .op (fun _ => Unstamped) stable_true ?_ fun _ => hp
  exact fun m r w hd _ => ⟨trivial, effect_storeGen (happens hd)⟩

/-- And end by forcing the lamp off. -/
theorem failOff_triple :
    Triple (system parse) Boot Footprint Discipline .transport Unstamped mqttCfgFailOff fun _ _ => True :=
  .op (fun _ _ => True) stable_unstamped (fun _ _ _ _ h => ⟨fun _ => h, trivial⟩) fun _ => .ret fun _ h => h

theorem mqttCfgOnDisconnect_triple :
    Triple (system parse) Boot Footprint Discipline .transport (fun _ => True) mqttCfgOnDisconnect fun _ _ => True :=
  cleared_triple failOff_triple

theorem mqttCfgOnConnectFailure_triple (reason : MqttConnectFailureReason) :
    Triple (system parse) Boot Footprint Discipline .transport (fun _ => True) (mqttCfgOnConnectFailure reason)
      fun _ _ => True := by
  have keep : ∀ {o : Op} {k : Res o → Act Unit}, o.byCallback = true → o.plain = true →
      (∀ v, o ≠ .storeGen .connected v) →
      (∀ r, Triple (system parse) Boot Footprint Discipline .transport Unstamped (k r) fun _ _ => True) →
      Triple (system parse) Boot Footprint Discipline .transport Unstamped (.op o k) fun _ _ => True :=
    fun ho hp hs hk => .keep stable_unstamped (keeps_unstamped ho hp hs) hk
  refine cleared_triple (keep rfl rfl (by simp) fun _ => keep rfl rfl (by simp) fun _ => ?_)
  split
  · -- The latch is cleared under the lock.
    refine .op (fun _ m => Locked .transport m ∧ Unstamped m) stable_unstamped ?_ fun _ => ?_
    · exact fun m r w hd h => ⟨trivial, locked hd, h.did hd (by simp)⟩
    refine .op (fun _ => Unstamped) (stable_locked.and stable_unstamped) ?_ fun _ => ?_
    · exact fun m r w hd h => ⟨⟨h.1, fun h => by cases h⟩, h.2.did hd (by simp)⟩
    exact keep rfl rfl (by simp) fun _ => failOff_triple
  · exact failOff_triple

end Callbacks

/-- What every run keeps. -/
abbrev Base : Promise := Footprint.and Discipline

theorem base : Established (system parse) Boot Base := by
  refine established (footprint parse) fun t c m w hd => ?_
  have hbody : Triple (system parse) Boot Footprint Discipline t (fun _ => True) (body parse c) fun _ _ => True := by
    rcases effect_call hd.effect with ⟨rfl, hc, -⟩ | ⟨ht, hc, -⟩
    · simp only [World.callsBack, Bool.and_eq_true] at hc
      cases c with
      | onConnect => exact mqttCfgOnConnect_triple.bind _ fun _ => .ret fun _ _ => trivial
      | onDisconnect => exact mqttCfgOnDisconnect_triple.bind _ fun _ => .ret fun _ _ => trivial
      | onConnectFailure reason => exact (mqttCfgOnConnectFailure_triple reason).bind _ fun _ => .ret fun _ _ => trivial
      | _ => cases hc.1.1
    · cases c with
      | validate cfg => exact (mqttCfgValidate_triple ht cfg).bind _ fun _ => .ret fun _ _ => trivial
      | load out => exact (mqttCfgLoad_triple ht out).bind _ fun _ => .ret fun _ _ => trivial
      | apply cfg => exact (mqttCfgApply_triple ht cfg).bind _ fun _ => .ret fun _ _ => trivial
      | loadAndApply cfg =>
        refine Triple.bind (fun _ _ => True) ?_ fun _ => .ret fun _ _ => trivial
        refine (mqttCfgLoad_triple ht _).bind _ fun result => ?_
        split
        · exact mqttCfgApply_triple ht _
        · exact .ret fun _ _ => trivial
      | connect timeoutMs => exact (mqttCfgConnect_disciplined ht timeoutMs).bind _ fun _ => .ret fun _ _ => trivial
      | _ => cases hc
  exact Fulfils.of_triple (fun _ => True) (fun _ _ => True) (fun m w _ => ⟨trivial, trivial⟩) hbody
    (fun _ => stable_true) (fun _ _ _ _ _ => trivial) m w hd

/-- A latch that is set belongs to a generation. -/
theorem latched_started {parse : List UInt8 → Option Json} {m : Moment} (hm : Hist (system parse) Boot Base m)
    (hl : m.world.verifiedApplied = true) : Started m := by
  induction hm with
  | start hw => obtain ⟨lamp, rfl⟩ := hw; cases hl
  | @step m t e w _ he hp ih =>
    have hc := effect_changes he
    have hs : Started m := by
      rcases hc.verifiedApplied with e' | ⟨b, rfl, e'⟩
      · exact ih (e'.symm.trans hl)
      · exact hp.2.2 (e'.symm.trans hl)
    rcases hc.gen .apply with e' | ⟨v, rfl, e'⟩
    · simpa [Started, e'] using hs
    · simpa [Started, e'] using hp.2.2

end LedLamp.Mqtt
