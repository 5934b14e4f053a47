import LedLamp.TbApplication.Contract
/-!
# Does the desired state agree with the lamp?

The engine's apply and a request both hand a state to the lamp and then record it in
`s_tb.applied`. A request does so under the mutex; the apply takes the mutex only
to record. So a request that the lamp accepts after the apply, but before the apply
records, is recorded first and then overwritten: the lamp shows one state and
`s_tb.applied` holds another (`recorded_behind`). Where no call is overtaken in that
way, the two agree whenever all is at rest (`desired_agrees`).
-/

namespace LedLamp.TbApplication.Agreement

open Conc Lamp
open Mqtt (Tid)

/-- The calls that set the desired state, with the output not suspended. -/
inductive Setter
  | applyState (state : Option LampState)
  | onServerRpc (entry : RpcMethod) (paramsJson : List UInt8) (requestId : UInt32)

def Setter.call : Setter → Call
  | applyState state => .applyState state false
  | onServerRpc entry paramsJson requestId => .onServerRpc entry paramsJson requestId

abbrev Event := Conc.Event Op Res Setter Ret
abbrev Entry := Conc.Entry Tid Op Res Setter Ret
abbrev Moment := Conc.Moment Tid World Op Res Setter Ret
abbrev Config := Conc.Config Tid World Op Res Setter Ret
abbrev Promise := Conc.Promise Tid World Op Res Setter Ret

/-- The module while only these calls are made. -/
def setters (cJsonParse : List UInt8 → Option Json) (build : Build) : System Tid World Op Res Setter Ret :=
  (system cJsonParse build).restrict Setter.call

def NotSuspended (w : World) : Prop := w.tb.outputSuspended = false

/-! ## Accepted and recorded states -/

/-- The state of an apply that the lamp answers with `LAMP_OK`. -/
def accepted : Entry → Option LampState
  | (_, .did (.lamp _ (.applyState requested _)) answer) => if answer.1 = .ok then requested else none
  | _ => none

/-- The state that is stored as the desired one. -/
def recorded : Entry → Option LampState
  | (_, .did (.store (.applied desired)) _) => some desired
  | _ => none

/-- The lamp's latest state is `desired`, accepted from `t`. -/
def Latest (t : Tid) (desired : LampState) : List Entry → Prop :=
  Since (accepted · = none) fun e _ => e.1 = t ∧ accepted e = some desired

/-- `t` has yet to record `desired`, its latest accepted state. -/
def Waits (t : Tid) (desired : LampState) : List Entry → Prop :=
  Since (fun e => e.1 = t → accepted e = none ∧ recorded e = none) fun e _ => e.1 = t ∧ accepted e = some desired

/-- Since `t`'s latest accepted state, another thread had one accepted and recorded. -/
def Overtaken (t : Tid) : List Entry → Prop :=
  Since (fun e => e.1 = t → accepted e = none) fun e past => e.1 ≠ t ∧ (recorded e).isSome ∧
    Since (fun e => e.1 = t → accepted e = none) (fun e' _ => e'.1 = e.1 ∧ (accepted e').isSome) past

/-- No state is recorded by a thread that was overtaken. -/
def InOrder (e : Entry) (past : List Entry) : Prop := (recorded e).isSome → ¬ Overtaken e.1 past

instance (t : Tid) : DecidablePred (Overtaken t) := fun tr => by unfold Overtaken; infer_instance

instance (e : Entry) (past : List Entry) : Decidable (InOrder e past) := by unfold InOrder; infer_instance

section Traces
variable {t t' : Tid} {desired other : LampState} {e : Event} {past : List Entry}

/-- What another thread does leaves `t` waiting, or not waiting. -/
theorem waits_other (ht : t' ≠ t) : Waits t desired ((t', e) :: past) ↔ Waits t desired past :=
  since_skip (fun h => absurd h ht) fun h => ht h.1

theorem waits_neutral (ha : accepted (t', e) = none) (hr : recorded (t', e) = none) :
    Waits t desired ((t', e) :: past) ↔ Waits t desired past :=
  since_skip (fun _ => ⟨ha, hr⟩) fun h => by rw [ha] at h; cases h.2

/-- A thread that has recorded waits for nothing. -/
theorem not_waits_recorded (ha : accepted (t, e) = none) (hr : recorded (t, e) = some other) :
    ¬ Waits t desired ((t, e) :: past) := by
  rintro (⟨-, h⟩ | ⟨h, -⟩)
  · rw [ha] at h
    cases h
  · rw [hr] at h
    cases (h rfl).2

/-- What waits is the thread's latest accepted state. -/
theorem waits_latest {tr : List Entry} (hl : Latest t desired tr) (hw : Waits t other tr) : other = desired := by
  induction tr with
  | nil => cases hl
  | cons e tr ih =>
    rcases hl with ⟨ht, ha⟩ | ⟨hn, hl⟩
    · rcases hw with ⟨-, ha'⟩ | ⟨hn, -⟩
      · exact Option.some.inj (ha'.symm.trans ha)
      · rw [(hn ht).1] at ha
        cases ha
    · rcases hw with ⟨-, ha⟩ | ⟨-, hw⟩
      · rw [hn] at ha
        cases ha
      · exact ih hl hw

/-- The latest state was recorded if it does not wait. -/
theorem latest_recorded {tr : List Entry} (hl : Latest t desired tr) (hw : ¬ Waits t desired tr) :
    Since (accepted · = none) (fun e past => e.1 = t ∧ (recorded e).isSome ∧ Latest t desired past) tr := by
  induction tr with
  | nil => cases hl
  | cons e tr ih =>
    rcases hl with ha | ⟨hn, hl⟩
    · exact absurd (.now ha) hw
    · by_cases hw' : Waits t desired tr
      · -- It waited until this event, so this event is the thread's record.
        have hrec : ¬ (e.1 = t → accepted e = none ∧ recorded e = none) := fun h => hw (.later h hw')
        simp only [hn, true_and, Classical.not_imp] at hrec
        exact .now ⟨hrec.1, Option.ne_none_iff_isSome.1 hrec.2, hl⟩
      · exact .later hn (ih hl hw')

/-- If another thread's state is the latest and recorded, `t` is overtaken. -/
theorem overtaken_latest {tr : List Entry} (ht : t' ≠ t) (hl : Latest t' desired tr) (hw : ¬ Waits t' desired tr) :
    Overtaken t tr := by
  have hnone : ∀ e : Entry, accepted e = none → e.1 = t → accepted e = none := fun _ h _ => h
  refine (latest_recorded hl hw).mono hnone ?_
  rintro e past ⟨rfl, hr, hl⟩
  refine ⟨ht, hr, hl.mono hnone ?_⟩
  rintro e' - ⟨h, ha⟩
  exact ⟨h, by rw [ha]; rfl⟩

/-- An accepted state makes some state the latest. -/
theorem exists_latest {tr : List Entry} (h : ∃ entry ∈ tr, (accepted entry).isSome) :
    ∃ t desired, Latest t desired tr := by
  induction tr with
  | nil =>
    obtain ⟨entry, hm, -⟩ := h
    cases hm
  | cons e tr ih =>
    cases ha : accepted e with
    | some desired => exact ⟨e.1, desired, .now ⟨rfl, ha⟩⟩
    | none =>
      obtain ⟨entry, hm, hs⟩ := h
      have hm' : entry ∈ tr := (List.mem_cons.1 hm).resolve_left fun heq => by rw [heq, ha] at hs; cases hs
      obtain ⟨t, desired, hl⟩ := ih ⟨entry, hm', hs⟩
      exact ⟨t, desired, .later ha hl⟩

end Traces

/-! ## Each call records what it had accepted -/

/-- Nothing that `t` had accepted has yet to be recorded. -/
def Rested (t : Tid) (m : Moment) : Prop := ∀ desired, ¬ Waits t desired m.trace

/-- A thread records its latest accepted state, and does so before it returns. The
output is not suspended, the lamp neither initialized nor given back. -/
def Recording : Promise := fun t e m =>
  match e with
  | .did (.store (.applied desired)) _ => Waits t desired m.trace
  | .did (.store (.outputSuspended _)) _ => False
  | .did (.lamp _ (.init _)) _ | .did (.lamp _ .deinit) _ => False
  | .ret _ => Rested t m
  | _ => True

/-- A step that neither hands a state to the lamp nor records one. -/
def neutral : Op → Bool
  | .lamp _ (.applyState _ _) | .lamp _ (.init _) | .lamp _ .deinit => false
  | .store (.applied _) | .store (.outputSuspended _) => false
  | _ => true

theorem publish_neutral {o : Op} (h : o.isPublish = true) : neutral o = true := by
  cases o <;> first | rfl | cases h

theorem finish_neutral {o : Op} (h : o.atFinish = true) : neutral o = true := by
  unfold Op.atFinish at h
  split at h <;> first | rfl | cases h

theorem neutral_entry {o : Op} (h : neutral o = true) (t : Tid) (r : Res o) :
    accepted (t, .did o r) = none ∧ recorded (t, .did o r) = none := by
  cases o with
  | lamp caller c => cases c <;> first | exact ⟨rfl, rfl⟩ | cases h
  | store s => cases s <;> first | exact ⟨rfl, rfl⟩ | cases h
  | _ => exact ⟨rfl, rfl⟩

section Walk
variable {cJsonParse : List UInt8 → Option Json} {build : Build} {K : Promise} {t : Tid} {m : Moment} {desired : LampState}

/-- The output stays as it is at the start. -/
theorem unsuspended (hm : Hist (setters cJsonParse build) NotSuspended (K.and Recording) m) :
    m.world.tb.outputSuspended = false := by
  induction hm with
  | start hw => exact hw
  | @step m t e w _ he hp ih =>
    rw [Moment.after_world]
    rcases (effect_changes he).tb with h | ⟨s, hs, h⟩ | ⟨-, h⟩
    · rw [h, ih]
    · rw [h]
      cases s with
      | outputSuspended value =>
        cases e with
        | did o r =>
          cases hs
          exact absurd hp.2 id
        | _ => cases hs
      | _ => exact ih
    · rw [h]
      exact ih

theorem stable_waits : Stable (setters cJsonParse build) NotSuspended K Recording t fun m => Waits t desired m.trace :=
  fun _ _ _ _ ht _ _ h => (waits_other ht).2 h

theorem stable_rested : Stable (setters cJsonParse build) NotSuspended K Recording t (Rested t) :=
  fun _ _ _ _ ht _ _ h desired hw => h desired ((waits_other ht).1 hw)

theorem neutral_recording {o : Op} (ho : neutral o = true) (t : Tid) (r : Res o) (m : Moment) :
    Recording t (.did o r) m := by
  cases o with
  | lamp caller c => cases c <;> trivial
  | store s => cases s <;> trivial
  | _ => trivial

theorem keeps_rested {o : Op} (ho : neutral o = true) :
    Keeps (setters cJsonParse build) NotSuspended K Recording t (Rested t) o := by
  intro m r w _ h
  obtain ⟨ha, hr⟩ := neutral_entry ho t r
  exact ⟨neutral_recording ho t r m, fun desired hw => h desired ((waits_neutral ha hr).1 hw)⟩

theorem keeps_waits {o : Op} (ho : neutral o = true) :
    Keeps (setters cJsonParse build) NotSuspended K Recording t (fun m => Waits t desired m.trace) o := by
  intro m r w _ h
  obtain ⟨ha, hr⟩ := neutral_entry ho t r
  exact ⟨neutral_recording ho t r m, (waits_neutral ha hr).2 h⟩

/-- A program that hands the lamp nothing and records nothing. -/
theorem rested_uses {α : Type} {p : Act α} (hp : p.Uses (neutral · = true)) :
    Triple (setters cJsonParse build) NotSuspended K Recording t (Rested t) p fun _ => Rested t :=
  .uses stable_rested (hp.mono fun _ ho => keeps_rested ho)

/-- The record of what waits. -/
theorem store_rested {α : Type} {k : Unit → Act α} {Q : α → Moment → Prop}
    (hk : Triple (setters cJsonParse build) NotSuspended K Recording t (Rested t) (k ()) Q) :
    Triple (setters cJsonParse build) NotSuspended K Recording t (fun m => Waits t desired m.trace)
      (.op (.store (.applied desired)) k) Q := by
  refine .op (fun _ => Rested t) stable_waits (fun m r w _ h => ⟨h, fun other => ?_⟩) fun _ => hk
  exact not_waits_recorded rfl rfl

/-- The lamp is asked for a state: what it accepts waits to be recorded. -/
theorem apply_waits {α : Type} {out : Option LampAppliedState} {Q : α → Moment → Prop}
    {k : LampStatus × Option LampAppliedState → Act α}
    (hok : ∀ answer : LampStatus × Option LampAppliedState, answer.1 = .ok →
      Triple (setters cJsonParse build) NotSuspended K Recording t (fun m => Waits t desired m.trace) (k answer) Q)
    (hne : ∀ answer : LampStatus × Option LampAppliedState, answer.1 ≠ .ok →
      Triple (setters cJsonParse build) NotSuspended K Recording t (Rested t) (k answer) Q) :
    Triple (setters cJsonParse build) NotSuspended K Recording t (Rested t)
      (.op (.lamp .tbApplication (.applyState (some desired) out)) k) Q := by
  refine .op (fun answer m => if answer.1 = .ok then Waits t desired m.trace else Rested t m) stable_rested ?_ ?_
  · intro m answer w _ h
    refine ⟨trivial, ?_⟩
    split
    · rename_i hs
      exact .now ⟨rfl, by simp [accepted, hs]⟩
    · rename_i hs
      have ha : accepted (t, .did (.lamp .tbApplication (.applyState (some desired) out)) answer) = none := by
        simp [accepted, hs]
      exact fun other hw => h other ((waits_neutral ha rfl).1 hw)
  · intro answer
    by_cases hs : answer.1 = .ok
    · exact (hok answer hs).pre fun m h => by simpa [hs] using h
    · exact (hne answer hs).pre fun m h => by simpa [hs] using h

/-! ### The engine's apply -/

theorem storeApplied_rested : Triple (setters cJsonParse build) NotSuspended K Recording t (fun m => Waits t desired m.trace)
    (storeApplied desired) fun _ => Rested t := by
  unfold storeApplied
  refine .keep stable_waits (keeps_waits rfl) fun _ => store_rested (rested_uses ?_)
  exact ⟨rfl, fun _ => ⟨rfl, fun _ => trivial⟩⟩

theorem tbAppApplyState_rested (state : Option LampState) :
    Triple (setters cJsonParse build) NotSuspended K Recording t (Rested t) (tbAppApplyState state false)
      fun _ => Rested t := by
  unfold tbAppApplyState
  cases state with
  | none => exact .ret fun _ h => h
  | some desired =>
    simp only [Bool.false_eq_true, ↓reduceIte, act, Prog.perform_bind]
    refine .keep stable_rested (keeps_rested rfl) fun _ => apply_waits ?_ ?_
    · rintro ⟨status, out⟩ rfl
      exact storeApplied_rested.bind _ fun _ => .ret fun _ h => h
    · rintro ⟨status, out⟩ hne
      cases status with
      | ok => exact absurd rfl hne
      | _ => exact rested_uses ⟨rfl, fun _ => trivial⟩

/-! ### A request -/

theorem recordDesired_rested : Triple (setters cJsonParse build) NotSuspended K Recording t
    (fun m => Waits t desired m.trace) (recordDesired desired) fun _ => Rested t := by
  unfold recordDesired
  refine store_rested (rested_uses ?_)
  exact ⟨rfl, fun _ => ⟨rfl, fun _ => ⟨rfl, fun _ => trivial⟩⟩⟩

variable (requestId : UInt32) (params : Json)

theorem respond_neutral (root : Json) : (tbAppRpcRespond requestId root).Uses (neutral · = true) :=
  ⟨rfl, fun _ => ⟨rfl, fun _ => trivial⟩⟩

theorem refuse_neutral (error : String) (reason : Option String) :
    (tbAppRpcRespondError requestId error reason).Uses (neutral · = true) := ⟨rfl, fun _ => ⟨rfl, fun _ => trivial⟩⟩

theorem currentState_neutral : tbAppRpcCurrentState.Uses (neutral · = true) := by
  refine .perform rfl fun answer => ?_
  split <;> trivial

theorem tbAppRpcApplyAndRespond_rested (desired : LampState) :
    Triple (setters cJsonParse build) NotSuspended K Recording t (Rested t)
      (tbAppRpcApplyAndRespond build requestId desired) fun _ => Rested t := by
  have publish := (tbAppPublishAppliedAttributes_uses build (some desired)).mono fun _ => publish_neutral
  unfold tbAppRpcApplyAndRespond
  simp only [act, Prog.perform_bind]
  -- The module is not suspended, so the lamp is asked.
  refine .op (fun tb m => Rested t m ∧ tb.outputSuspended = false) stable_rested ?_ fun tb => ?_
  · intro m tb w hd h
    obtain ⟨htb, -⟩ := effect_load (t := t) hd.effect
    exact ⟨trivial, (keeps_rested rfl m tb w hd h).2, htb ▸ unsuspended hd.hist⟩
  intro m₀ hm₀ h
  obtain ⟨hrest, htb⟩ := h
  simp only [htb, Bool.false_eq_true, ↓reduceIte]
  refine (apply_waits ?_ ?_) m₀ hm₀ hrest
  · rintro ⟨status, out⟩ rfl
    refine recordDesired_rested.bind _ fun _ => rested_uses (publish.bind fun _ => ?_)
    exact respond_neutral requestId _
  · rintro ⟨status, out⟩ hne
    cases status with
    | ok => exact absurd rfl hne
    | _ => exact rested_uses (refuse_neutral requestId _ _)

/-- A request whose handler refused it. -/
theorem refuse_rested (error : String) (reason : Option String) :
    Triple (setters cJsonParse build) NotSuspended K Recording t (Rested t)
      (tbAppRpcRespondError requestId error reason) fun _ => Rested t := rested_uses (refuse_neutral requestId error reason)

theorem report_rested : Triple (setters cJsonParse build) NotSuspended K Recording t (Rested t)
    (tbAppRpcHandleGetState build requestId) fun _ => Rested t := by
  refine rested_uses (.perform rfl fun answer => ?_)
  split
  · exact .perform rfl fun tb => respond_neutral requestId _
  · exact refuse_neutral requestId _ _

theorem handler_rested (entry : RpcMethod) :
    Triple (setters cJsonParse build) NotSuspended K Recording t (Rested t) (entry.handler build requestId params)
      fun _ => Rested t :=
  handler_cases (P := fun p => Triple (setters cJsonParse build) NotSuspended K Recording t (Rested t) p fun _ => Rested t)
    build requestId params entry (refuse_rested requestId) (tbAppRpcApplyAndRespond_rested requestId)
    (fun _ => (rested_uses currentState_neutral).bind _) (report_rested requestId)

theorem tbAppOnServerRpc_rested (entry : RpcMethod) (paramsJson : List UInt8) :
    Triple (setters cJsonParse build) NotSuspended K Recording t (Rested t)
      (tbAppOnServerRpc cJsonParse build entry paramsJson requestId) fun _ => Rested t := by
  have give : Triple (setters cJsonParse build) NotSuspended K Recording t (Rested t) (act .osalMutexGive)
      fun _ => Rested t := rested_uses ⟨rfl, fun _ => trivial⟩
  have served := rpcServed_uses.mono fun _ h => publish_neutral (isRead_isPublish h)
  unfold tbAppOnServerRpc
  simp only [act, Prog.perform_bind]
  refine .keep stable_rested (keeps_rested rfl) fun _ => .keep stable_rested (keeps_rested rfl) fun _ => ?_
  refine (rested_uses served).bind _ fun served => ?_
  split
  · exact give
  · split
    · exact (refuse_rested requestId _ _).bind _ fun _ => give
    · exact (handler_rested requestId _ entry).bind _ fun _ => rested_uses (rpcFinish_uses.mono fun _ => finish_neutral)
    · exact (refuse_rested requestId _ _).bind _ fun _ => give

/-- A thread at rest has recorded what it had accepted. -/
theorem idle_rested (hm : Hist (setters cJsonParse build) NotSuspended (K.and Recording) m) (hi : Idle t m.trace) :
    Rested t m := by
  refine stable_rested.idle (fun _ _ _ h => h) ?_ hm hi
  intro s m w _ hp desired hw
  exact hp desired ((waits_neutral rfl rfl).1 hw)

end Walk

/-- Every run keeps the promise. -/
theorem recording (cJsonParse : List UInt8 → Option Json) (build : Build) :
    Established (setters cJsonParse build) NotSuspended (Sequential.and Recording) := by
  refine established established_sequential fun t c => ?_
  refine Fulfils.of_triple (Rested t) (fun _ => Rested t) ?_ ?_ (fun _ => stable_rested) fun _ _ _ _ h => h
  · intro m w hd
    have hrest := idle_rested hd.hist (hd.known c rfl)
    exact ⟨trivial, fun desired hw => hrest desired ((waits_neutral rfl rfl).1 hw)⟩
  · cases c with
    | applyState state => exact (tbAppApplyState_rested state).bind _ fun _ => .ret fun _ h => h
    | onServerRpc entry paramsJson requestId =>
      exact (tbAppOnServerRpc_rested requestId entry paramsJson).bind _ fun _ => .ret fun _ h => h

/-! ## The lamp shows what it accepted last -/

/-- An apply answered with `LAMP_OK` is recorded by the lamp. -/
theorem applyState_accepted {requested : Option LampState} {out : Option LampAppliedState} {m : Machine}
    (h : (lampControlApplyState requested out m).1 = .ok) :
    requested = some (desiredOf (lampControlApplyState requested out m).2.2.lamp.applied) := by
  rcases lampControlApplyState_cases requested out m with
    ⟨-, h'⟩ | ⟨-, status, hs, -, h'⟩ | ⟨-, -, r, -, -, -, status, hs, h'⟩ | ⟨-, -, r, hr, -, -, h'⟩
  · rw [h'] at h
    cases h
  · rw [h'] at h
    exact absurd h (failOffThen_ne_ok hs _)
  · rw [h'] at h
    exact absurd h (failOffThen_ne_ok hs _)
  · rw [h', hr]
    rfl

theorem forceInactive_desired (m : Machine) :
    desiredOf (lampControlForceInactive m).2.lamp.applied = desiredOf m.lamp.applied := by
  rcases lampControlForceInactive_cases m with ⟨-, h⟩ | ⟨-, -, h⟩ | ⟨-, -, h⟩
  · rw [h]
  · rw [h, lampFailOff_desired]
  · rw [h]
    exact lampFailOff_desired m

section Histories
variable {cJsonParse : List UInt8 → Option Json} {build : Build} {K : Promise} {t : Tid} {e : Event} {m : Moment}
  {w : World} {desired : LampState}

/-- What a step does to the state the lamp has recorded: nothing but what it accepts. -/
theorem lamp_step (he : (setters cJsonParse build).effect t e m.world = some w) (hp : Recording t e m) :
    desiredOf w.lamp.lamp.applied = (accepted (t, e)).getD (desiredOf m.world.lamp.lamp.applied) := by
  have he : effect t (e.map Setter.call) m.world = some w := he
  -- Only calls into the lamp change its record, and of these only an apply it accepts.
  by_cases hl : ∃ caller c answer, e = .did (.lamp caller c) answer
  · obtain ⟨caller, c, answer, rfl⟩ := hl
    obtain ⟨rfl, rfl⟩ := effect_lamp he
    cases c with
    | applyState requested out =>
      have hanswer : (lampAnswer (.applyState requested out) m.world.lamp).1 =
          (lampControlApplyState requested out m.world.lamp).1 := rfl
      have hnext : Lamp.Call.next (.applyState requested out) m.world.lamp =
          (lampControlApplyState requested out m.world.lamp).2.2 := rfl
      by_cases hs : (lampControlApplyState requested out m.world.lamp).1 = .ok
      · simp only [accepted, hanswer, hs, ↓reduceIte, hnext]
        exact (Option.getD_eq_iff.2 (.inl (applyState_accepted hs))).symm
      · simp only [accepted, hanswer, hs, ↓reduceIte, hnext]
        exact applyState_failed hs
    | forceInactive => exact forceInactive_desired m.world.lamp
    | releaseFailOff | getAppliedState _ => rfl
    | init config => exact absurd hp id
    | deinit => exact absurd hp id
  · have hacc : accepted (t, e) = none := by
      unfold accepted
      split
      · rename_i heq
        cases heq
        exact absurd ⟨_, _, _, rfl⟩ hl
      · rfl
    rw [hacc]
    rcases (effect_changes he).lamp with h | ⟨caller, c, h, -⟩
    · rw [h]
      rfl
    · cases e with
      | did o r =>
        cases h
        exact absurd ⟨_, _, _, rfl⟩ hl
      | _ => cases h

/-- What a step does to the desired state: nothing but what it records. -/
theorem applied_step (he : (setters cJsonParse build).effect t e m.world = some w) :
    w.tb.applied = (recorded (t, e)).getD m.world.tb.applied := by
  have hc := effect_changes (t := t) (e := e.map Setter.call) he
  by_cases hs : ∃ s answer, e = .did (.store s) answer
  · obtain ⟨s, answer, rfl⟩ := hs
    obtain rfl : { m.world with tb := s.set m.world.tb } = w := Option.some.inj he
    cases s <;> rfl
  · have hrec : recorded (t, e) = none := by
      unfold recorded
      split
      · rename_i heq
        cases heq
        exact absurd ⟨_, _, rfl⟩ hs
      · rfl
    rw [hrec]
    rcases hc.tb with h | ⟨s, h, -⟩ | ⟨-, h⟩
    · rw [h]
      rfl
    · cases e with
      | did o r =>
        cases h
        exact absurd ⟨_, _, rfl⟩ hs
      | _ => cases h
    · rw [h]
      rfl

theorem recorded_waits (hp : Recording t e m) (hr : recorded (t, e) = some desired) : Waits t desired m.trace := by
  unfold recorded at hr
  split at hr
  · rename_i heq
    cases heq
    cases hr
    exact hp
  · cases hr

/-- The lamp shows the latest state; unless it has yet to be recorded, it is the desired one. -/
theorem latest_agrees (hm : Hist (setters cJsonParse build) NotSuspended (K.and Recording) m)
    (ho : Every InOrder m.trace) (hl : Latest t desired m.trace) :
    desiredOf m.world.lamp.lamp.applied = desired ∧ (Waits t desired m.trace ∨ m.world.tb.applied = desired) := by
  induction hm with
  | start hw => cases hl
  | @step m t' e w hm he hp ih =>
    rw [Moment.after_world, lamp_step he hp.2, applied_step he]
    rcases hl with ⟨ht, ha⟩ | ⟨ha, hl⟩
    · rw [ha]
      exact ⟨rfl, .inl (.now ⟨ht, ha⟩)⟩
    obtain ⟨hlamp, hwait⟩ := ih ho.2 hl
    rw [ha]
    refine ⟨hlamp, ?_⟩
    cases hr : recorded (t', e) with
    | none =>
      exact hwait.imp (waits_neutral ha hr).2 id
    | some other =>
      have hother := recorded_waits hp.2 hr
      by_cases ht : t' = t
      · subst ht
        exact .inr (waits_latest hl hother)
      · by_cases hw : Waits t desired m.trace
        · exact .inl ((waits_other ht).2 hw)
        · -- The thread records after the latest state was recorded: it was overtaken.
          exact absurd (overtaken_latest (Ne.symm ht) hl hw) (ho.1 (by rw [hr]; rfl))

/-! ## Runs -/

/-- A run of these calls is a run of the module. -/
theorem setters_run {c : Config} (hr : (setters cJsonParse build).Run NotSuspended c) :
    (system cJsonParse build).Run NotSuspended (c.map Setter.call) := System.run_restrict hr

/-- In a run in which no state is recorded by a thread that was overtaken: when all is
at rest and the lamp has accepted a state, the desired state is the one it shows. -/
theorem desired_agrees {c : Config} (hr : (setters cJsonParse build).Run NotSuspended c) (ho : Every InOrder c.trace)
    (hidle : ∀ t, c.running t = none) (ha : ∃ entry ∈ c.trace, (accepted entry).isSome) :
    c.world.tb.applied = desiredOf c.world.lamp.lamp.applied := by
  have hm := (recording cJsonParse build).hist hr
  obtain ⟨t, desired, hl⟩ := exists_latest ha
  obtain ⟨hlamp, hwait⟩ := latest_agrees hm ho hl
  have hrest := idle_rested hm ((System.running_idle hr t).1 (hidle t))
  exact (hwait.resolve_left (hrest desired)).trans hlamp.symm

end Histories

/-! ## A request behind an apply -/

def dimmed : LampState := ⟨true, 40, 255, 255, 255⟩

/-- The lamp is lit; then the threads take turns. -/
def raced (order : List (Tid × Option Setter)) : Option Config := do
  let w ← serial (system parsePower pwmBuild) obliging (lightsUp fullOn) (.boot pwmLamp)
  turns (setters parsePower pwmBuild) obliging order (System.boot w)

def goesOn (t : Tid) (events : Nat) : List (Tid × Option Setter) := List.replicate events (t, none)

/-- The engine's apply, until the lamp has accepted its state. -/
def applyAccepted : List (Tid × Option Setter) := (.task 0, some (.applyState (some dimmed))) :: goesOn (.task 0) 2

/-- The rest of it. -/
def applyRecords : List (Tid × Option Setter) := goesOn (.task 0) 5

/-- A request to switch off, until the lamp has accepted its state. -/
def requestAccepted : List (Tid × Option Setter) :=
  (.transport, some (.onServerRpc .setPower (powerText false) 42)) :: goesOn .transport 9

def requestRecords : List (Tid × Option Setter) := goesOn .transport 19

theorem raced_run {order : List (Tid × Option Setter)} {c : Config} (h : raced order = some c) :
    (setters parsePower pwmBuild).Run NotSuspended c := by
  simp only [raced, Option.bind_eq_bind, Option.bind_eq_some_iff] at h
  obtain ⟨w, hw, h⟩ := h
  have hs : (serial (system parsePower pwmBuild) obliging (lightsUp fullOn) (.boot pwmLamp)).map
      (·.tb.outputSuspended) = some false := by decide
  rw [hw] at hs
  exact turns_run (.boot (Option.some.inj hs)) h

/-- Both threads have returned, and no other did anything. -/
def atRest (c : Config) : Bool :=
  (c.running .transport).isNone && (c.running (.task 0)).isNone &&
    c.trace.all fun entry => entry.1 = .transport || entry.1 = .task 0

theorem atRest_idle {order : List (Tid × Option Setter)} {c : Config} (h : raced order = some c) (hc : atRest c = true)
    (t : Tid) : c.running t = none := by
  simp only [atRest, Bool.and_eq_true, Option.isNone_iff_eq_none, List.all_eq_true, Bool.or_eq_true,
    decide_eq_true_eq] at hc
  obtain ⟨⟨htransport, htask⟩, hothers⟩ := hc
  by_cases ht : t = .transport
  · exact ht ▸ htransport
  by_cases ht' : t = .task 0
  · exact ht' ▸ htask
  refine (System.running_idle (raced_run h) t).2 (idle_absent fun entry hm he => ?_)
  rcases hothers entry hm with heq | heq
  · exact ht (he.symm.trans heq)
  · exact ht' (he.symm.trans heq)

/-- What the calls returned and what the requests were answered. -/
def outcome (c : Config) : List Ret × List (UInt32 × Bool) :=
  (c.trace.filterMap fun | (_, .ret s) => some s | _ => none,
    c.trace.filterMap fun | (_, .did o _) => o.answer | _ => none)

/-- The engine's apply is accepted while a request has yet to record: it records last. -/
theorem desired_agrees_home : ∃ c, raced (requestAccepted ++ applyAccepted ++ requestRecords ++ applyRecords) = some c ∧
    c.world.tb.applied = desiredOf c.world.lamp.lamp.applied := by
  have h : (raced (requestAccepted ++ applyAccepted ++ requestRecords ++ applyRecords)).map (fun c =>
      (atRest c, decide (Every InOrder c.trace), decide (∃ entry ∈ c.trace, (accepted entry).isSome))) =
        some (true, true, true) := by decide +kernel
  obtain ⟨c, hc, hw⟩ := Option.map_eq_some_iff.1 h
  simp only [Prod.mk.injEq, decide_eq_true_eq] at hw
  obtain ⟨hrest, ho, ha⟩ := hw
  exact ⟨c, hc, desired_agrees (raced_run hc) ho (atRest_idle hc hrest) ha⟩

/-- A request is accepted and recorded while the apply has yet to record: both
succeed, the lamp is off, and the desired state is the one the engine applied. -/
theorem recorded_behind : ∃ c, raced (applyAccepted ++ requestAccepted ++ requestRecords ++ applyRecords) = some c ∧
    (∀ t, c.running t = none) ∧ outcome c = ([.bool true, .unit], [(42, true)]) ∧
      c.world.tb.applied = dimmed ∧ (desiredOf c.world.lamp.lamp.applied).power = false := by
  have h : (raced (applyAccepted ++ requestAccepted ++ requestRecords ++ applyRecords)).map (fun c =>
      (atRest c, outcome c, c.world.tb.applied, (desiredOf c.world.lamp.lamp.applied).power)) =
        some (true, ([.bool true, .unit], [(42, true)]), dimmed, false) := by decide +kernel
  obtain ⟨c, hc, hw⟩ := Option.map_eq_some_iff.1 h
  simp only [Prod.mk.injEq] at hw
  obtain ⟨hrest, hout, hdesired, hlamp⟩ := hw
  exact ⟨c, hc, atRest_idle hc hrest, hout, hdesired, hlamp⟩

end LedLamp.TbApplication.Agreement
