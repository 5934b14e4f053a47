import LedLamp.TbApplication.Handlers
/-!
# The contract of the server RPC

`tb_app_on_server_rpc` adds to its handler only the question whether the client is
connected and the parsing of the params, and it tells the engine afterwards. So every
request is dropped, refused, accepted or reported (`Request`), and the contract is
read off these four cases.
-/

namespace LedLamp.TbApplication

open Conc Lamp
open Mqtt (Tid)

variable {cJsonParse : List UInt8 → Option Json} {build : Build} {t : Tid} {w w' : World} {done : List Done}
  {requestId : UInt32}

/-! ## The whole request -/

/-- The answer of the first question to the client. -/
def clientAnswer : Done → Option Bool
  | ⟨.tbClientIsConnected _, connected⟩ => some connected
  | _ => none

/-- Requests are served: the module is initialized and connected, and the client says
it is connected when it is asked first. -/
def Served (w : World) (done : List Done) : Prop :=
  w.tb.initialized = true ∧ w.tb.connected = true ∧ w.tb.client ≠ none ∧ done.findSome? clientAnswer = some true

@[simp] theorem findSome_load (tb : TbAppModule) (d : List Done) :
    List.findSome? clientAnswer (⟨.load, tb⟩ :: d) = d.findSome? clientAnswer := rfl

theorem isConnected_exec {connected : Bool} (h : Exec (system cJsonParse build) t tbAppIsConnected w done connected w') :
    if w.tb.connected = true ∧ w.tb.client ≠ none then done.findSome? clientAnswer = some connected else connected = false := by
  unfold tbAppIsConnected at h
  obtain ⟨d₁, tb, w₁, d₂, rfl, h₁, h₂⟩ := exec_bind.1 h
  obtain ⟨rfl, -, rfl⟩ := load_exec h₁
  obtain ⟨-, rfl⟩ := exec_perform.1 h₁
  cases hc : w₁.tb.connected with
  | false =>
    simp only [hc, Bool.not_false, ↓reduceIte] at h₂
    obtain ⟨-, rfl, -⟩ := h₂
    simp
  | true =>
    simp only [hc, Bool.not_true, Bool.false_eq_true, ↓reduceIte] at h₂
    obtain ⟨d₂, tb, w₂, d₃, rfl, h₂, h₃⟩ := exec_bind.1 h₂
    obtain ⟨rfl, -, rfl⟩ := load_exec h₂
    obtain ⟨-, rfl⟩ := exec_perform.1 h₂
    cases hcl : w₂.tb.client with
    | none =>
      simp only [hcl] at h₃
      obtain ⟨-, rfl, -⟩ := h₃
      simp
    | some client =>
      simp only [hcl] at h₃
      obtain ⟨-, rfl⟩ := exec_perform.1 h₃
      simp only [ne_eq, reduceCtorEq, not_false_eq_true, and_self, ↓reduceIte]
      rfl

theorem rpcServed_exec {served : Bool} (h : Exec (system cJsonParse build) t rpcServed w done served w') :
    w' = w ∧ Silent done ∧ ∀ before rest, before.findSome? clientAnswer = none →
      (Served w (before ++ (done ++ rest)) ↔ served = true) := by
  obtain ⟨rfl, hs⟩ := silent_exec h (rpcServed_uses.mono fun _ => isRead_isSilent)
  refine ⟨rfl, hs, fun before rest hb => ?_⟩
  unfold rpcServed at h
  obtain ⟨d₁, tb, w₁, d₂, rfl, h₁, h₂⟩ := exec_bind.1 h
  obtain ⟨rfl, -, rfl⟩ := load_exec h₁
  obtain ⟨-, rfl⟩ := exec_perform.1 h₁
  cases hi : w₁.tb.initialized with
  | false =>
    simp only [hi, Bool.not_false, ↓reduceIte] at h₂
    obtain ⟨-, rfl, -⟩ := h₂
    simp [Served, hi]
  | true =>
    simp only [hi, Bool.not_true, Bool.false_eq_true, ↓reduceIte] at h₂
    have hc := isConnected_exec h₂
    split at hc
    · rename_i hcc
      simp [Served, hi, hcc, List.findSome?_append, hb, hc]
    · rename_i hcc
      simp only [Served, hi, hc, Bool.false_eq_true, iff_false]
      exact fun ⟨_, h, h', _⟩ => hcc ⟨h, h'⟩

theorem give_exec {u : Unit} (h : Exec (system cJsonParse build) t (act .osalMutexGive) w done u w')
    (hl : w.lock = some t) :
    answers done = [] ∧ Unannounced done ∧ w' = { w with lock := none } := by
  obtain ⟨he, rfl⟩ := exec_perform.1 h
  simp only [system_effect, effect, stepEffect, hl, ↓reduceIte, Option.some.injEq] at he
  exact ⟨rfl, by simp [Unannounced, Op.announces], he.symm⟩

/-- What the engine is told at the end of a request. -/
def Op.tells : Op → Bool
  | .tbStateSyncRecordState _ | .tbStateSyncNoteStateChange => true
  | _ => false

theorem tells_exec {p : Act Unit} {u : Unit} (hp : p.Uses (·.tells = true))
    (h : Exec (system cJsonParse build) t p w done u w') : answers done = [] ∧ w' = w := by
  refine ⟨answers_of_none fun d hd => ?_, h.unchanged hp fun o r v v' ho he => ?_⟩
  · have ho := h.uses hp d hd
    revert ho
    cases d.op <;> first | exact fun _ => rfl | intro ho; cases ho
  · cases o with
    | tbStateSyncRecordState _ | tbStateSyncNoteStateChange => exact (Option.some.inj he).symm
    | _ => cases ho

theorem rpcFinish_exec {u : Unit} (h : Exec (system cJsonParse build) t rpcFinish w done u w') (hl : w.lock = some t) :
    answers done = [] ∧ (w.tb.rpcStateChanged = false → Unannounced done) ∧
      w' = { w with tb := { w.tb with rpcStateChanged := false }, lock := none } := by
  unfold rpcFinish at h
  obtain ⟨d₁, _, w₁, _, rfl, h₁, h⟩ := exec_bind.1 h
  obtain ⟨rfl, hs₁, rfl⟩ := load_exec h₁
  obtain ⟨d₂, _, w₂, _, rfl, h₂, h⟩ := exec_bind.1 h
  obtain ⟨rfl, hs₂, rfl⟩ := load_exec h₂
  obtain ⟨d₃, _, w₃, _, rfl, h₃, h⟩ := exec_bind.1 h
  obtain ⟨rfl, hs₃, rfl⟩ := load_exec h₃
  dsimp only at h
  obtain ⟨d₄, _, w₄, _, rfl, h₄, h⟩ := exec_bind.1 h
  obtain ⟨he, rfl⟩ := exec_perform.1 h₄
  obtain rfl : _ = w₄ := Option.some.inj he
  obtain ⟨d₅, _, w₅, d₆, rfl, h₅, h⟩ := exec_bind.1 h
  obtain ⟨ha₅, hu₅, rfl⟩ := give_exec h₅ hl
  have hu₄ : Unannounced [⟨.store (.rpcStateChanged false), ()⟩] := by simp [Unannounced, Op.announces]
  -- What is left tells the engine, if the handler raised the flag.
  have htail : answers d₆ = [] ∧ (w₃.tb.rpcStateChanged = false → Unannounced d₆) ∧
      w' = { w₃ with tb := { w₃.tb with rpcStateChanged := false }, lock := none } := by
    split at h
    · rename_i hch
      obtain ⟨ha, rfl⟩ := tells_exec (.perform rfl fun _ => by split <;> simp [Op.tells]) h
      exact ⟨ha, fun hc => by simp [hch] at hc, rfl⟩
    · obtain ⟨rfl, -, rfl⟩ := h
      exact ⟨rfl, fun _ => by simp [Unannounced], rfl⟩
  refine ⟨?_, fun hc => ?_, htail.2.2⟩
  · simp only [answers_append, hs₁.mute.unanswered, hs₂.mute.unanswered, hs₃.mute.unanswered, ha₅, htail.1]
    rfl
  · exact hs₁.mute.unannounced.append (hs₂.mute.unannounced.append (hs₃.mute.unannounced.append
      (hu₄.append (hu₅.append (htail.2.1 hc)))))

/-- What `tb_app_on_server_rpc` can do with a request: drop it, refuse it, accept the
new state, or report the state. -/
inductive Request (cJsonParse : List UInt8 → Option Json) (build : Build) (entry : RpcMethod) (paramsJson : List UInt8)
    (requestId : UInt32) (w w' : World) (done : List Done) : Prop
  | dropped (hs : ¬ Served w done) (hm : Mute done) (hw : w' = w)
  | refused (hs : Served w done) (h : Refused requestId w w' done)
  | accepted (hs : Served w done) (params : Json) (desired : LampState) (hp : cJsonParse paramsJson = some params)
      (hq : entry.requested build params (currentState w.lamp) = some desired) (h : Accepted requestId desired false w w' done)
  | reported (hs : Served w done) (hq : entry = .getState) (h : Reported requestId w w' done)

theorem clear_flag {tb : TbAppModule} (h : tb.rpcStateChanged = false) : { tb with rpcStateChanged := false } = tb := by
  rw [← h]

/-- What starts a request. -/
def entering : List Done := [⟨.osalMutexTake, ()⟩, ⟨.store (.rpcStateChanged false), ()⟩]

/-- The start of a request: the mutex is taken, and the flag is clear. -/
theorem enter_exec {k : Unit → Act Unit} {u : Unit} (hc : w.tb.rpcStateChanged = false)
    (h : Exec (system cJsonParse build) t
      (act .osalMutexTake >>= fun _ => act (.store (.rpcStateChanged false)) >>= k) w done u w') :
    ∃ rest, done = entering ++ rest ∧ w.lock = none ∧
      Exec (system cJsonParse build) t (k ()) { w with lock := some t } rest u w' := by
  obtain ⟨d₁, _, w₁, _, rfl, h₁, h⟩ := exec_bind.1 h
  obtain ⟨he, rfl⟩ := exec_perform.1 h₁
  obtain ⟨hl, rfl⟩ := effect_take he
  obtain ⟨d₂, _, w₂, rest, rfl, h₂, h⟩ := exec_bind.1 h
  obtain ⟨he, rfl⟩ := exec_perform.1 h₂
  obtain rfl : _ = w₂ := Option.some.inj he
  have hset : Store.set w.tb (.rpcStateChanged false) = w.tb := clear_flag hc
  rw [hset] at h
  exact ⟨rest, rfl, hl, h⟩

theorem tbAppOnServerRpc_exec {entry : RpcMethod} {paramsJson : List UInt8} {u : Unit}
    (hc : w.tb.rpcStateChanged = false)
    (h : Exec (system cJsonParse build) t (tbAppOnServerRpc cJsonParse build entry paramsJson requestId) w done u w') :
    Request cJsonParse build entry paramsJson requestId w w' done := by
  unfold tbAppOnServerRpc at h
  obtain ⟨rest, rfl, hl, h⟩ := enter_exec hc h
  obtain ⟨d₁, served, w₁, d₂, rfl, h₁, h⟩ := exec_bind.1 h
  obtain ⟨rfl, hs₁, hiff⟩ := rpcServed_exec h₁
  have hpre : Mute (entering ++ d₁) := .append ⟨rfl, by simp [Unannounced, entering, Op.announces]⟩ hs₁.mute
  replace hiff : Served w (entering ++ (d₁ ++ d₂)) ↔ served = true := hiff entering d₂ rfl
  rw [← List.append_assoc] at hiff ⊢
  have hfree : ({ w with lock := none } : World) = w := by rw [← hl]
  cases served with
  | false =>
    simp only [Bool.not_false, ↓reduceIte] at h
    obtain ⟨ha, hu, rfl⟩ := give_exec h rfl
    exact .dropped (fun hs => Bool.false_ne_true (hiff.1 hs)) (hpre.append ⟨ha, hu⟩) hfree
  | true =>
    simp only [Bool.not_true, Bool.false_eq_true, ↓reduceIte] at h
    have hs := hiff.2 rfl
    -- Params that are no object are refused before any handler runs.
    have hmalformed : ∀ reason, Exec (system cJsonParse build) t
        (do tbAppRpcRespondError requestId "invalid payload" (some reason); act .osalMutexGive)
        { w with lock := some t } d₂ u w' →
        Request cJsonParse build entry paramsJson requestId w w' (entering ++ d₁ ++ d₂) := by
      intro reason h
      obtain ⟨d₂, _, w₁, d₃, rfl, h₂, h₃⟩ := exec_bind.1 h
      obtain ⟨hr, rfl⟩ := respondError_exec h₂
      obtain ⟨ha, hu, rfl⟩ := give_exec h₃ rfl
      exact .refused hs (.after hpre ⟨by simp [hr.answered, ha], hr.unannounced.append hu, rfl, hl.symm, rfl⟩)
    split at h
    · exact hmalformed _ h
    · rename_i members hp
      obtain ⟨d₂, _, w₁, d₃, rfl, h₂, h₃⟩ := exec_bind.1 h
      cases handler_exec h₂ with
      | refused hr =>
        have hc₁ : w₁.tb.rpcStateChanged = false := by
          rw [hr.tb]
          exact hc
        obtain ⟨ha, hu, rfl⟩ := rpcFinish_exec h₃ hr.lock
        refine .refused hs (.after hpre ⟨by simp [hr.answered, ha], ?_, ?_, hl.symm, hr.lamp⟩)
        · exact hr.unannounced.append (hu hc₁)
        · exact (clear_flag hc₁).trans hr.tb
      | accepted desired hq ha =>
        obtain ⟨hn, -, rfl⟩ := rpcFinish_exec h₃ ha.lock
        refine .accepted hs (.object members) desired hp hq
          (.after hpre ⟨by simp [ha.answered, hn], ha.before.later, ?_, hl.symm, ha.lamp⟩)
        rw [ha.tb]
        rfl
      | reported hq hr =>
        obtain ⟨hn, hu, rfl⟩ := rpcFinish_exec h₃ (by rw [hr.world])
        refine .reported hs hq (.after hpre
          ⟨by simp [hr.answered, hn], hr.before.later, hr.unannounced.append (hu ?_), ?_⟩)
        · rw [hr.world]
          exact hc
        · rw [hr.world]
          exact (congrArg (fun tb => ({ w with tb := tb, lock := none } : World)) (clear_flag hc)).trans hfree
    · exact hmalformed _ h

/-! ## The contract -/

/-- What a request may do from `w`, in which the mutex is free, to `w'`. -/
structure RpcContract (cJsonParse : List UInt8 → Option Json) (build : Build) (entry : RpcMethod) (paramsJson : List UInt8)
    (requestId : UInt32) (w w' : World) (done : List Done) : Prop where
  connected : Served w done → ∃ success, answers done = [(requestId, success)]
  disconnected : ¬ Served w done → answers done = [] ∧ w' = w
  set : entry ≠ .getState → (requestId, true) ∈ answers done → ∃ params desired,
    cJsonParse paramsJson = some params ∧ entry.requested build params (currentState w.lamp) = some desired ∧
      w'.tb.applied = desired ∧ Before done (Accepts w.tb.outputSuspended desired)
  get : entry = .getState → (requestId, true) ∈ answers done → Before done Reads
  error : (requestId, false) ∈ answers done → w'.tb.applied = w.tb.applied ∧ w'.tb.hasApplied = w.tb.hasApplied ∧
    desiredOf w'.lamp.lamp.applied = desiredOf w.lamp.lamp.applied
  unannounced : (requestId, false) ∈ answers done ∨ entry = .getState → Unannounced done

section Cases
variable {entry : RpcMethod} {paramsJson : List UInt8}

theorem requested_ne_get {params : Json} {current : Option LampState} {desired : LampState}
    (h : entry.requested build params current = some desired) : entry ≠ .getState := by
  rintro rfl
  cases h

/-- Each of the four cases meets the contract. -/
theorem Request.contract (h : Request cJsonParse build entry paramsJson requestId w w' done) :
    RpcContract cJsonParse build entry paramsJson requestId w w' done := by
  cases h with
  | dropped hs hm hw =>
    have hno : ∀ a, a ∉ answers done := by simp [hm.unanswered]
    exact ⟨fun h => absurd h hs, fun _ => ⟨hm.unanswered, hw⟩, fun _ h => absurd h (hno _), fun _ h => absurd h (hno _),
      fun h => absurd h (hno _), fun _ => hm.unannounced⟩
  | refused hs h =>
    have hno : (requestId, true) ∉ answers done := by simp [h.answered]
    exact ⟨fun _ => ⟨false, h.answered⟩, fun h' => absurd hs h', fun _ h => absurd h hno, fun _ h => absurd h hno,
      fun _ => ⟨by rw [h.tb], by rw [h.tb], h.lamp⟩, fun _ => h.unannounced⟩
  | accepted hs params desired hp hq h =>
    have hno : (requestId, false) ∉ answers done := by simp [h.answered]
    have hset := requested_ne_get hq
    exact ⟨fun _ => ⟨true, h.answered⟩, fun h' => absurd hs h', fun _ _ => ⟨params, desired, hp, hq, by rw [h.tb]; rfl, h.before⟩,
      fun h' => absurd h' hset, fun h => absurd h hno, fun h => h.elim (absurd · hno) (absurd · hset)⟩
  | reported hs hq h =>
    have hno : (requestId, false) ∉ answers done := by simp [h.answered]
    exact ⟨fun _ => ⟨true, h.answered⟩, fun h' => absurd hs h', fun h' => absurd hq h', fun _ _ => h.before,
      fun h => absurd h hno, fun _ => h.unannounced⟩

/-- A step that need not wait. -/
def Takes (t : Tid) (o : Op) : Prop := ∀ w, ∃ r w', effect t (.did o r) w = some w'

theorem handler_takes {o : Op} (h : o.byHandler = true) : Takes t o := by
  intro w
  cases o with
  | load => exact ⟨w.tb, w, by simp [effect, stepEffect]⟩
  | lamp caller c => exact ⟨lampAnswer c w.lamp, { w with lamp := c.next w.lamp }, by simp [effect, stepEffect]⟩
  | tbClientIsConnected client => exact ⟨false, w, by simp [effect, stepEffect]⟩
  | store s => exact ⟨(), _, rfl⟩
  | tbAttributesSendJson _ _ | tbRpcRespond _ _ _ | tbStateSyncRespondRpcError _ _ _ _ _ => exact ⟨(), _, rfl⟩
  | _ => cases h

theorem finish_takes {o : Op} (h : o.atFinish = true) : Takes t o := by
  intro w
  cases o with
  | load => exact ⟨w.tb, w, by simp [effect, stepEffect]⟩
  | store _ | osalMutexGive | tbStateSyncRecordState _ | tbStateSyncNoteStateChange => exact ⟨(), _, rfl⟩
  | _ => cases h

/-- Past the mutex, a request has nothing to wait for. -/
theorem tbAppOnServerRpc_takes (t : Tid) (entry : RpcMethod) (paramsJson : List UInt8) (requestId : UInt32) :
    ∃ k, tbAppOnServerRpc cJsonParse build entry paramsJson requestId = act .osalMutexTake >>= k ∧
      ∀ u, (k u).Uses (Takes t) := by
  have hread : rpcServed.Uses (Takes t) :=
    rpcServed_uses.mono fun _ h => handler_takes (isPublish_byHandler (isRead_isPublish h))
  have hgive : (act .osalMutexGive).Uses (Takes t) := ⟨finish_takes rfl, fun _ => trivial⟩
  have hrefuse : ∀ error reason, (do tbAppRpcRespondError requestId error reason; act .osalMutexGive).Uses (Takes t) :=
    fun error reason => ((tbAppRpcRespondError_uses requestId error reason).mono fun _ => handler_takes).bind fun _ => hgive
  refine ⟨_, rfl, fun _ => .perform (finish_takes rfl) fun _ => hread.bind fun served => ?_⟩
  split
  · exact hgive
  · split
    · exact hrefuse _ _
    · exact ((handler_uses build requestId _ entry).mono fun _ => handler_takes).bind fun _ =>
        rpcFinish_uses.mono fun _ => finish_takes
    · exact hrefuse _ _

/-- A request that finds the mutex free comes to its end. -/
theorem tbAppOnServerRpc_total (t : Tid) (entry : RpcMethod) (paramsJson : List UInt8) (requestId : UInt32)
    (hl : w.lock = none) :
    ∃ done w', Exec (system cJsonParse build) t (tbAppOnServerRpc cJsonParse build entry paramsJson requestId) w done () w' := by
  obtain ⟨k, hk, huses⟩ := tbAppOnServerRpc_takes t entry paramsJson requestId
  have hsteps : ∀ o v, Takes t o → ∃ r v', (system cJsonParse build).effect t (.did o r) v = some v' := fun _ v ho => ho v
  obtain ⟨done, _, w', h⟩ := Exec.total (huses ()) hsteps { w with lock := some t }
  rw [hk]
  exact ⟨_, w', (), _, done, by simp [effect, stepEffect, hl], rfl, h⟩

end Cases

/-- The params that ask for power, and what they parse to. -/
def powerText (power : Bool) : List UInt8 := ascii "\x7b\"power\":" ++ boolText power ++ ascii "\x7d"

def parsePower (text : List UInt8) : Option Json :=
  if text = powerText true then some (.object [(ascii "power", .bool true)])
  else if text = powerText false then some (.object [(ascii "power", .bool false)])
  else none

/-- The module comes up, a session starts, and the engine lights the lamp. -/
def lightsUp (desired : LampState) : List (Tid × TbApplication.Call) :=
  [(.task 0, .init (some ⟨some 7, true, none⟩)), (.transport, .transportConnected), (.task 0, .onConnected (some 7)),
    (.task 0, .applyState (some desired) false)]

theorem pwm_boot : (system parsePower pwmBuild).Run Boot (System.boot (.boot pwmLamp)) :=
  .boot ⟨_, reachable_run (.boot _) _, rfl⟩

end LedLamp.TbApplication
