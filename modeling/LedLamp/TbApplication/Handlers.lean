import LedLamp.TbApplication.Requests
/-!
# What a handler does

A handler run alone has one of three outcomes: it refuses the request, it accepts a
new desired state, or it reports the state. `handler_exec` says which, for every
method and all params.
-/

namespace LedLamp.TbApplication

open Conc Lamp
open Mqtt (Tid)

variable {cJsonParse : List UInt8 → Option Json} {build : Build} {t : Tid} {w w' : World} {done : List Done}
  {requestId : UInt32}

/-! ## What was done -/

/-- The response an operation hands to the responder: the request it answers, and
whether it reports success. -/
def Op.answer : Op → Option (UInt32 × Bool)
  | .tbRpcRespond _ requestId root => some (requestId, decide (root.item (ascii "success") = some (.bool true)))
  | .tbStateSyncRespondRpcError _ requestId _ _ _ => some (requestId, false)
  | _ => none

/-- The responses handed over, oldest first. -/
def answers (done : List Done) : List (UInt32 × Bool) := done.filterMap (·.op.answer)

/-- A client-attribute publication, a recorded state change or a telemetry note. -/
def Op.announces : Op → Bool
  | .tbAttributesSendJson _ _ | .tbStateSyncRecordState _ | .tbStateSyncNoteStateChange => true
  | _ => false

def Unannounced (done : List Done) : Prop := ∀ d ∈ done, d.op.announces = false

/-- No response, and nothing announced. -/
structure Mute (done : List Done) : Prop where
  unanswered : answers done = []
  unannounced : Unannounced done

/-- `P` was done before the first response. -/
def Before (done : List Done) (P : Done → Prop) : Prop :=
  ∃ before later, done = before ++ later ∧ answers before = [] ∧ ∃ d ∈ before, P d

/-- The new state was accepted: by the lamp, or, while the output is suspended, as the desired state. -/
def Accepts (suspended : Bool) (desired : LampState) : Done → Prop
  | ⟨.lamp .tbApplication (.applyState requested _), answer⟩ =>
    suspended = false ∧ requested = some desired ∧ answer.1 = .ok
  | ⟨.store (.applied state), _⟩ => suspended = true ∧ state = desired
  | _ => False

/-- The lamp's state was read. -/
def Reads : Done → Prop
  | ⟨.lamp .tbApplication (.getAppliedState _), answer⟩ => answer.1 = .ok
  | _ => False

@[simp] theorem answers_nil : answers [] = [] := rfl

@[simp] theorem answers_append (d e : List Done) : answers (d ++ e) = answers d ++ answers e := List.filterMap_append ..

theorem answers_of_none (h : ∀ d ∈ done, d.op.answer = none) : answers done = [] :=
  List.filterMap_eq_nil_iff.2 h

theorem Unannounced.append {d e : List Done} (h : Unannounced d) (h' : Unannounced e) : Unannounced (d ++ e) :=
  fun x hx => (List.mem_append.1 hx).elim (h x) (h' x)

theorem Mute.append {d e : List Done} (h : Mute d) (h' : Mute e) : Mute (d ++ e) :=
  ⟨by simp [h.unanswered, h'.unanswered], h.unannounced.append h'.unannounced⟩

theorem Before.later {d e : List Done} {P : Done → Prop} (h : Before d P) : Before (d ++ e) P := by
  obtain ⟨before, later, rfl, hb, hP⟩ := h
  exact ⟨before, later ++ e, List.append_assoc .., hb, hP⟩

theorem Before.after {d e : List Done} {P : Done → Prop} (hd : answers d = []) (h : Before e P) : Before (d ++ e) P := by
  obtain ⟨before, later, rfl, hb, x, hx, hP⟩ := h
  exact ⟨d ++ before, later, (List.append_assoc ..).symm, by simp [hd, hb], x, List.mem_append_right d hx, hP⟩

/-! ## Steps that only read -/

/-- A read of `s_tb`, of the client or of the lamp. -/
def Op.isSilent : Op → Bool
  | .load | .tbClientIsConnected _ | .lamp .tbApplication (.getAppliedState _) => true
  | _ => false

theorem isRead_isSilent {o : Op} (h : o.isRead = true) : o.isSilent = true := by
  cases o <;> first | rfl | cases h

def Silent (done : List Done) : Prop := ∀ d ∈ done, d.op.isSilent = true

theorem isSilent_quiet {o : Op} (h : o.isSilent = true) : o.answer = none ∧ o.announces = false := by
  unfold Op.isSilent at h
  split at h <;> first | exact ⟨rfl, rfl⟩ | cases h

theorem Silent.mute (h : Silent done) : Mute done :=
  ⟨answers_of_none fun d hd => (isSilent_quiet (h d hd)).1, fun d hd => (isSilent_quiet (h d hd)).2⟩

theorem silent_world {o : Op} {r : Res o} (ho : o.isSilent = true) (he : effect t (.did o r) w = some w') : w' = w := by
  unfold Op.isSilent at ho
  split at ho
  · simp only [effect, stepEffect, Option.ite_none_right_eq_some, Option.some.injEq] at he
    exact he.2.symm
  · simp only [effect, stepEffect, Option.ite_none_left_eq_some, Option.some.injEq] at he
    exact he.2.symm
  · simp only [effect, stepEffect, Option.ite_none_right_eq_some, Option.some.injEq] at he
    exact he.2.symm
  · cases ho

theorem load_exec {tb : TbAppModule} (h : Exec (system cJsonParse build) t (act .load) w done tb w') :
    w' = w ∧ Silent done ∧ tb = w.tb := by
  obtain ⟨he, rfl⟩ := exec_perform.1 h
  obtain ⟨htb, rfl⟩ := effect_load (t := t) he
  exact ⟨rfl, by simp [Silent, Op.isSilent], htb⟩

theorem lamp_exec {caller : Component} {c : Lamp.Call} {answer : LampStatus × Option LampAppliedState}
    (h : Exec (system cJsonParse build) t (act (.lamp caller c)) w done answer w') :
    w' = { w with lamp := c.next w.lamp } ∧ done = [⟨.lamp caller c, answer⟩] ∧ answer = lampAnswer c w.lamp := by
  obtain ⟨he, rfl⟩ := exec_perform.1 h
  obtain ⟨hanswer, rfl⟩ := effect_lamp (t := t) he
  exact ⟨rfl, rfl, hanswer⟩

/-- A program that only reads leaves the world as it is. -/
theorem silent_exec {α : Type} {p : Act α} {a : α} (h : Exec (system cJsonParse build) t p w done a w')
    (hp : p.Uses (·.isSilent = true)) : w' = w ∧ Silent done :=
  ⟨h.unchanged hp fun _ _ _ _ => silent_world, h.uses hp⟩

/-! ## The three outcomes -/

/-- The module with a new desired state; `changed` says whether the engine is still to hear of it. -/
def TbAppModule.record (tb : TbAppModule) (desired : LampState) (changed : Bool) : TbAppModule :=
  { tb with applied := desired, hasApplied := true, rpcStatePending := desired, rpcStateChanged := changed }

/-- The request is refused: one error response, and nothing changes but the output. -/
structure Refused (requestId : UInt32) (w w' : World) (done : List Done) : Prop where
  answered : answers done = [(requestId, false)]
  unannounced : Unannounced done
  tb : w'.tb = w.tb
  lock : w'.lock = w.lock
  lamp : desiredOf w'.lamp.lamp.applied = desiredOf w.lamp.lamp.applied

/-- The new state is accepted: recorded, after the lamp took it unless the output is
suspended, and acknowledged. -/
structure Accepted (requestId : UInt32) (desired : LampState) (changed : Bool) (w w' : World) (done : List Done) : Prop where
  answered : answers done = [(requestId, true)]
  before : Before done (Accepts w.tb.outputSuspended desired)
  tb : w'.tb = w.tb.record desired changed
  lock : w'.lock = w.lock
  lamp : w'.lamp = if w.tb.outputSuspended then w.lamp else (Lamp.Call.applyState (some desired) (some .zero)).next w.lamp

/-- The state is reported: the lamp was read. -/
structure Reported (requestId : UInt32) (w w' : World) (done : List Done) : Prop where
  answered : answers done = [(requestId, true)]
  before : Before done Reads
  unannounced : Unannounced done
  world : w' = w

theorem Refused.after {d e : List Done} (hd : Mute d) (h : Refused requestId w w' e) : Refused requestId w w' (d ++ e) :=
  { h with
    answered := by simp [hd.unanswered, h.answered]
    unannounced := hd.unannounced.append h.unannounced }

theorem Accepted.after {d e : List Done} {desired : LampState} {changed : Bool} (hd : Mute d)
    (h : Accepted requestId desired changed w w' e) : Accepted requestId desired changed w w' (d ++ e) :=
  { h with
    answered := by simp [hd.unanswered, h.answered]
    before := h.before.after hd.unanswered }

theorem Reported.after {d e : List Done} (hd : Mute d) (h : Reported requestId w w' e) : Reported requestId w w' (d ++ e) :=
  { h with
    answered := by simp [hd.unanswered, h.answered]
    before := h.before.after hd.unanswered
    unannounced := hd.unannounced.append h.unannounced }

/-! ## Responses -/

theorem respondError_exec {error : String} {reason : Option String} {u : Unit}
    (h : Exec (system cJsonParse build) t (tbAppRpcRespondError requestId error reason) w done u w') :
    Refused requestId w w' done ∧ w' = w := by
  unfold tbAppRpcRespondError at h
  obtain ⟨d₁, tb, w₁, d₂, rfl, h₁, h₂⟩ := exec_bind.1 h
  obtain ⟨rfl, hs⟩ := silent_exec h₁ (by simp [Op.isSilent])
  obtain ⟨he, rfl⟩ := exec_perform.1 h₂
  obtain rfl : w₁ = w' := Option.some.inj he
  exact ⟨.after hs.mute ⟨rfl, by simp [Unannounced, Op.announces], rfl, rfl, rfl⟩, rfl⟩

theorem respondSuccess_exec {desired : Option LampState} {applied : Option LampAppliedState} {u : Unit}
    (h : Exec (system cJsonParse build) t (tbAppRpcRespondSuccess build requestId desired applied) w done u w') :
    answers done = [(requestId, true)] ∧ Unannounced done ∧ w' = w := by
  unfold tbAppRpcRespondSuccess tbAppRpcRespond at h
  obtain ⟨d₁, tb, w₁, d₂, rfl, h₁, h₂⟩ := exec_bind.1 h
  obtain ⟨rfl, hs⟩ := silent_exec h₁ (by simp [Op.isSilent])
  obtain ⟨he, rfl⟩ := exec_perform.1 h₂
  obtain rfl : w₁ = w' := Option.some.inj he
  refine ⟨?_, hs.mute.unannounced.append (by simp [Unannounced, Op.announces]), rfl⟩
  rw [answers_append, hs.mute.unanswered]
  simp [answers, Op.answer, Json.item, Json.members]

/-! ## Applying the new state -/

/-- A fail-off leaves the recorded power, brightness and colours. -/
theorem lampFailOff_desired (m : Machine) : desiredOf (lampFailOff m).2.lamp.applied = desiredOf m.lamp.applied := by
  rcases lampFailOff_cases m with h | ⟨h, -⟩
  · rw [h]
  · rw [h]
    rfl

/-- A failed apply leaves the recorded power, brightness and colours. -/
theorem applyState_failed {requested : Option LampState} {out : Option LampAppliedState} {m : Machine}
    (h : (lampControlApplyState requested out m).1 ≠ .ok) :
    desiredOf (lampControlApplyState requested out m).2.2.lamp.applied = desiredOf m.lamp.applied := by
  rcases lampControlApplyState_cases requested out m with
    ⟨-, h'⟩ | ⟨-, status, -, -, h'⟩ | ⟨-, -, r, -, -, -, status, -, h'⟩ | ⟨-, -, r, -, -, -, h'⟩
  · rw [h']
  · rw [h', failOffThen_snd, lampFailOff_desired]
  · rw [h', failOffThen_snd, lampFailOff_desired]
  · exact absurd (by rw [h']) h

theorem recordDesired_exec {desired : LampState} {u : Unit}
    (h : Exec (system cJsonParse build) t (recordDesired desired) w done u w') :
    answers done = [] ∧ ⟨.store (.applied desired), ()⟩ ∈ done ∧ w' = { w with tb := w.tb.record desired true } := by
  obtain ⟨_, w₁, _, h₁, rfl, _, w₂, _, h₂, rfl, _, w₃, _, h₃, rfl, _, w₄, _, h₄, rfl, rfl, -, rfl⟩ := h
  obtain rfl : _ = w₁ := Option.some.inj h₁
  obtain rfl : _ = w₂ := Option.some.inj h₂
  obtain rfl : _ = w₃ := Option.some.inj h₃
  obtain rfl : _ = w' := Option.some.inj h₄
  exact ⟨rfl, .head _, rfl⟩

/-- The publication of the client attributes answers nothing and changes nothing. -/
theorem publish_exec {state : Option LampState} {u : Unit}
    (h : Exec (system cJsonParse build) t (tbAppPublishAppliedAttributes build state) w done u w') :
    answers done = [] ∧ w' = w := by
  have hp := tbAppPublishAppliedAttributes_uses build state
  refine ⟨answers_of_none fun d hd => ?_, h.unchanged hp fun o r v v' ho he => ?_⟩
  · have ho := h.uses hp d hd
    revert ho
    cases d.op <;> first | exact fun _ => rfl | intro ho; cases ho
  · rw [system_effect] at he
    cases o with
    | tbAttributesSendJson client json => exact (Option.some.inj he).symm
    | load | tbClientIsConnected _ => exact silent_world rfl he
    | _ => cases ho

/-- The state is recorded and published, before anything is answered. -/
theorem recordThen_exec {desired : LampState} {k : Unit → Act Unit} {u : Unit}
    (h : Exec (system cJsonParse build) t
      (recordDesired desired >>= fun _ => tbAppPublishAppliedAttributes build (some desired) >>= k) w done u w') :
    ∃ d e, done = d ++ e ∧ answers d = [] ∧ ⟨.store (.applied desired), ()⟩ ∈ d ∧
      Exec (system cJsonParse build) t (k ()) { w with tb := w.tb.record desired true } e u w' := by
  obtain ⟨d₁, _, w₁, rest, rfl, h₁, hrest⟩ := exec_bind.1 h
  obtain ⟨ha₁, hm, rfl⟩ := recordDesired_exec h₁
  obtain ⟨d₂, _, w₂, e, rfl, h₂, hk⟩ := exec_bind.1 hrest
  obtain ⟨ha₂, rfl⟩ := publish_exec h₂
  exact ⟨d₁ ++ d₂, e, by simp, by simp [ha₁, ha₂], List.mem_append_left d₂ hm, hk⟩

/-- The lamp is asked for the new state, unless the output is suspended. -/
theorem applyAndRespond_exec {desired : LampState} {u : Unit}
    (h : Exec (system cJsonParse build) t (tbAppRpcApplyAndRespond build requestId desired) w done u w') :
    Refused requestId w w' done ∨ Accepted requestId desired true w w' done := by
  unfold tbAppRpcApplyAndRespond at h
  obtain ⟨d₁, tb, w₁, rest, rfl, h₁, hrest⟩ := exec_bind.1 h
  obtain ⟨rfl, hs, rfl⟩ := load_exec h₁
  cases hsus : w₁.tb.outputSuspended with
  | true =>
    simp only [hsus, ↓reduceIte] at hrest
    obtain ⟨d₂, e, rfl, ha₂, hm, hk⟩ := recordThen_exec hrest
    obtain ⟨d₃, answer, w₂, d₄, rfl, h₃, h₄⟩ := exec_bind.1 hk
    obtain ⟨rfl, hs₃⟩ := silent_exec h₃ (by simp [Op.isSilent])
    obtain ⟨ha₄, -, rfl⟩ := respondSuccess_exec h₄
    refine .inr (.after hs.mute ⟨?_, ?_, rfl, rfl, by simp [hsus]⟩)
    · simp [ha₂, hs₃.mute.unanswered, ha₄]
    · exact ⟨d₂, d₃ ++ d₄, rfl, ha₂, _, hm, hsus, rfl⟩
  | false =>
    simp only [hsus, Bool.false_eq_true, ↓reduceIte] at hrest
    obtain ⟨d₂, answer, w₂, d₃, rfl, h₂, hk⟩ := exec_bind.1 hrest
    obtain ⟨rfl, rfl, hans⟩ := lamp_exec h₂
    split at hk
    · obtain ⟨d₃, e, rfl, ha₃, hm, hk⟩ := recordThen_exec hk
      obtain ⟨ha₄, -, rfl⟩ := respondSuccess_exec hk
      refine .inr (.after hs.mute ⟨?_, ?_, rfl, rfl, by simp [hsus]⟩)
      · rw [answers_append, answers_append, ha₃, ha₄]
        rfl
      · exact .later ⟨[_], [], rfl, rfl, _, .head _, hsus, rfl, rfl⟩
    · rename_i hne
      obtain ⟨hrefused, rfl⟩ := respondError_exec hk
      refine .inl (.after hs.mute ⟨hrefused.answered, ?_, rfl, rfl, ?_⟩)
      · have hu₂ : Unannounced [⟨.lamp .tbApplication (.applyState (some desired) (some .zero)), answer⟩] := by
          simp [Unannounced, Op.announces]
        exact hu₂.append hrefused.unannounced
      · exact applyState_failed fun hok => hne answer.2 (Prod.ext ((congrArg Prod.fst hans).trans hok) rfl)

/-! ## The handlers -/

/-- The state the partial updates start from: what the lamp shows, if it shows one. -/
def currentState (m : Machine) : Option LampState := if m.lamp.initialized then some (desiredOf m.lamp.applied) else none

theorem currentState_exec {current : Option LampState}
    (h : Exec (system cJsonParse build) t tbAppRpcCurrentState w done current w') :
    w' = w ∧ Silent done ∧ current = currentState w.lamp := by
  unfold tbAppRpcCurrentState at h
  obtain ⟨d₁, answer, w₁, d₂, rfl, h₁, h₂⟩ := exec_bind.1 h
  obtain ⟨rfl, hs⟩ := silent_exec h₁ (by simp [Op.isSilent])
  obtain ⟨-, -, hans⟩ := lamp_exec h₁
  have hcur : current = currentState w₁.lamp ∧ w' = w₁ ∧ d₂ = [] := by
    cases hi : w₁.lamp.lamp.initialized with
    | true =>
      simp only [lampAnswer, lampControlGetAppliedState, hi, Bool.not_true, Bool.false_eq_true, ↓reduceIte] at hans
      subst hans
      obtain ⟨rfl, rfl, rfl⟩ := h₂
      exact ⟨by simp [currentState, hi], rfl, rfl⟩
    | false =>
      simp only [lampAnswer, lampControlGetAppliedState, hi, Bool.not_false, ↓reduceIte] at hans
      subst hans
      obtain ⟨rfl, rfl, rfl⟩ := h₂
      exact ⟨by simp [currentState, hi], rfl, rfl⟩
  obtain ⟨rfl, rfl, rfl⟩ := hcur
  exact ⟨rfl, by simpa using hs, rfl⟩

/-- The state a set method asks for, if its params are valid. -/
def RpcMethod.requested (build : Build) (params : Json) (current : Option LampState) : RpcMethod → Option LampState
  | setPower => do
    let power ← tbAppRpcParsePower params
    return { (← current) with power }
  | setBrightness => do
    let brightnessPercent ← tbAppRpcParseBrightness params
    return { (← current) with brightnessPercent }
  | setState => do
    let power ← tbAppRpcParsePower params
    let brightnessPercent ← tbAppRpcParseBrightness params
    setStateRgb build params { current.getD ⟨false, 0, 255, 255, 255⟩ with power, brightnessPercent }
  | setColor => do tbAppRpcParseRgbPartial params (← current)
  | getState => none

/-- What a handler can do with a request. -/
inductive Handled (build : Build) (entry : RpcMethod) (params : Json) (requestId : UInt32) (w w' : World)
    (done : List Done) : Prop
  | refused (h : Refused requestId w w' done)
  | accepted (desired : LampState) (hq : entry.requested build params (currentState w.lamp) = some desired)
      (h : Accepted requestId desired true w w' done)
  | reported (hq : entry = .getState) (h : Reported requestId w w' done)

section Handled
variable {entry : RpcMethod} {params : Json}

/-- A handler that starts with reads. -/
theorem Handled.after {d e : List Done} (hd : Mute d) (h : Handled build entry params requestId w w' e) :
    Handled build entry params requestId w w' (d ++ e) := by
  cases h with
  | refused h => exact .refused (h.after hd)
  | accepted desired hq h => exact .accepted desired hq (h.after hd)
  | reported hq h => exact .reported hq (h.after hd)

theorem Handled.error {error : String} {reason : Option String} {u : Unit}
    (h : Exec (system cJsonParse build) t (tbAppRpcRespondError requestId error reason) w done u w') :
    Handled build entry params requestId w w' done := .refused (respondError_exec h).1

theorem Handled.apply {desired : LampState} {u : Unit}
    (hq : entry.requested build params (currentState w.lamp) = some desired)
    (h : Exec (system cJsonParse build) t (tbAppRpcApplyAndRespond build requestId desired) w done u w') :
    Handled build entry params requestId w w' done :=
  (applyAndRespond_exec h).elim .refused (.accepted desired hq)

/-- A handler that goes on with the current state, which it only reads. -/
theorem Handled.fromCurrent {rest : Option LampState → Act Unit} {u : Unit}
    (h : Exec (system cJsonParse build) t (tbAppRpcCurrentState >>= rest) w done u w')
    (hrest : ∀ {d}, Exec (system cJsonParse build) t (rest (currentState w.lamp)) w d u w' →
      Handled build entry params requestId w w' d) : Handled build entry params requestId w w' done := by
  obtain ⟨d₁, current, w₁, d₂, rfl, h₁, h₂⟩ := exec_bind.1 h
  obtain ⟨rfl, hs, rfl⟩ := currentState_exec h₁
  exact .after hs.mute (hrest h₂)

theorem setPower_exec {u : Unit}
    (h : Exec (system cJsonParse build) t (tbAppRpcHandleSetPower build requestId params) w done u w') :
    Handled build .setPower params requestId w w' done := by
  unfold tbAppRpcHandleSetPower at h
  split at h
  · exact .error h
  · split at h
    · exact .error h
    · rename_i power hp
      refine .fromCurrent h fun hrest => ?_
      split at hrest
      · exact .error hrest
      · rename_i current hc
        exact .apply (by simp [RpcMethod.requested, hp, hc]) hrest

theorem setBrightness_exec {u : Unit}
    (h : Exec (system cJsonParse build) t (tbAppRpcHandleSetBrightness build requestId params) w done u w') :
    Handled build .setBrightness params requestId w w' done := by
  unfold tbAppRpcHandleSetBrightness at h
  split at h
  · exact .error h
  · split at h
    · exact .error h
    · split at h
      · exact .error h
      · rename_i brightness hb
        refine .fromCurrent h fun hrest => ?_
        split at hrest
        · exact .error hrest
        · rename_i current hc
          exact .apply (by simp [RpcMethod.requested, hb, hc]) hrest

theorem setState_exec {u : Unit}
    (h : Exec (system cJsonParse build) t (tbAppRpcHandleSetState build requestId params) w done u w') :
    Handled build .setState params requestId w w' done := by
  unfold tbAppRpcHandleSetState at h
  split at h
  · exact .error h
  · split at h
    · exact .error h
    · split at h
      · rename_i power _ hp _
        split at h
        · exact .error h
        · rename_i brightness hb
          refine .fromCurrent h fun hrest => ?_
          dsimp only at hrest
          split at hrest
          · exact .error hrest
          · rename_i desired hd
            exact .apply (by simpa [RpcMethod.requested, hp, hb] using hd) hrest
      · exact .error h

theorem setColor_exec {u : Unit}
    (h : Exec (system cJsonParse build) t (tbAppRpcHandleSetColor build requestId params) w done u w') :
    Handled build .setColor params requestId w w' done := by
  unfold tbAppRpcHandleSetColor at h
  refine .fromCurrent h fun hrest => ?_
  split at hrest
  · exact .error hrest
  · rename_i current hc
    split at hrest
    · exact .error hrest
    · rename_i desired hd
      exact .apply (by simp [RpcMethod.requested, hc, hd]) hrest

theorem getState_exec {u : Unit}
    (h : Exec (system cJsonParse build) t (tbAppRpcHandleGetState build requestId) w done u w') :
    Handled build .getState params requestId w w' done := by
  unfold tbAppRpcHandleGetState at h
  obtain ⟨d₁, answer, w₁, rest, rfl, h₁, hrest⟩ := exec_bind.1 h
  obtain ⟨rfl, hs⟩ := silent_exec h₁ (by simp [Op.isSilent])
  obtain ⟨-, rfl, hans⟩ := lamp_exec h₁
  split at hrest
  · obtain ⟨d₂, tb, w₂, d₃, rfl, h₂, h₃⟩ := exec_bind.1 hrest
    obtain ⟨rfl, hs₂, rfl⟩ := load_exec h₂
    obtain ⟨ha, hu, rfl⟩ := respondSuccess_exec h₃
    have hread : Before ([⟨.lamp .tbApplication (.getAppliedState (some .zero)), (.ok, _)⟩] ++ (d₂ ++ d₃)) Reads :=
      .later ⟨[_], [], rfl, hs.mute.unanswered, _, .head _, rfl⟩
    refine .reported rfl ⟨?_, hread, hs.mute.unannounced.append (hs₂.mute.unannounced.append hu), rfl⟩
    rw [answers_append, answers_append, hs.mute.unanswered, hs₂.mute.unanswered, ha]
    rfl
  · exact .after hs.mute (.error hrest)

/-- Every handler refuses, accepts or reports. -/
theorem handler_exec {u : Unit} (h : Exec (system cJsonParse build) t (entry.handler build requestId params) w done u w') :
    Handled build entry params requestId w w' done := by
  cases entry with
  | setPower => exact setPower_exec h
  | setBrightness => exact setBrightness_exec h
  | setState => exact setState_exec h
  | setColor => exact setColor_exec h
  | getState => exact getState_exec h

end Handled

end LedLamp.TbApplication
