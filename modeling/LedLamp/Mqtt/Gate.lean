import LedLamp.Mqtt.Release
/-!
# The connect gate

A connect starts the transport only while the gate is open: the last event that
bears on it was an apply that returned `MQTT_CFG_OK`. An apply call, a load or a
validate that fails, a callback for a rejected configuration and a connect that
found the transport changed close it. `gate` reads this off the history of one
task; the latch `s_verified_applied` is never set while the gate is closed.
-/

namespace LedLamp.Mqtt

open Conc Lamp

variable (parse : List UInt8 → Option Json)

/-! ## The gate as the history has it -/

/-- Whether the gate is open once a call returned, from whether it was before. A connect
looks at the comparison of the transport at its entry, and in the poll loop once it
is connected; where it finds a change it returns `MQTT_CFG_ERR_NOT_APPLIED`. -/
def Call.leaves (isOpen : Bool) (status : MqttCfgStatus) : Call → Bool
  | .apply _ | .loadAndApply _ => status = .ok
  | .validate _ | .load _ => isOpen && status = .ok
  | .connect _ => isOpen && status ≠ .errNotApplied
  | .onConnect | .onDisconnect | .onConnectFailure _ => isOpen

/-- Whether the gate is open for the calls of `t`. A callback closes it where it
clears the latch, which only the one for a rejected configuration does. -/
def gate (t : Tid) : List Entry → Bool
  | [] => false
  | (t', .call (.apply _)) :: past => t' ≠ t && gate t past
  | (.transport, .did (.writeVerifiedApplied _) _) :: _ => false
  | (t', .ret (some status)) :: past =>
    if t' = t then ((lastCall t past).map (Call.leaves (gate t past) status)).getD (gate t past) else gate t past
  | _ :: past => gate t past

/-- Only `t` and the transport have acted. -/
def Solo (t : Tid) (tr : List Entry) : Prop := ∀ e ∈ tr, e.1 = t ∨ e.1 = .transport

/-! ## The latch and the gate -/

/-- A latch that is set is vouched for by `f` of the gate. -/
def Guarded (t : Tid) (f : Bool → Bool) (m : Moment) : Prop :=
  Solo t m.trace → m.world.verifiedApplied = true → f (gate t m.trace) = true

/-- A latch that is set when a call returns is one the gate allows. -/
def Closing : Promise := fun t e m =>
  match e with
  | .ret s => t ≠ .transport → Solo t m.trace → m.world.verifiedApplied = true → gate t ((t, .ret s) :: m.trace) = true
  | _ => True

theorem Solo.before {t : Tid} {e : Entry} {past : List Entry} (h : Solo t (e :: past)) :
    (e.1 = t ∨ e.1 = .transport) ∧ Solo t past :=
  ⟨h e (by simp), fun x hx => h x (by simp [hx])⟩

theorem gate_did {t : Tid} (ht : t ≠ .transport) (o : Op) (r : Res o) (past : List Entry) :
    gate t ((t, .did o r) :: past) = gate t past := by
  cases t with
  | transport => exact absurd rfl ht
  | task id => cases o <;> rfl

theorem gate_transport {t : Tid} (ht : t ≠ .transport) {e : Event} (hw : ∀ b r, e ≠ .did (.writeVerifiedApplied b) r)
    (past : List Entry) : gate t ((.transport, e) :: past) = gate t past := by
  cases e with
  | call c => cases c <;> simp [gate, Ne.symm ht]
  | did o r => cases o <;> first | rfl | exact absurd rfl (hw _ r)
  | ret s => cases s <;> simp [gate, Ne.symm ht]

theorem gate_ret {t : Tid} {c : Call} {status : MqttCfgStatus} {past : List Entry} (hc : lastCall t past = some c) :
    gate t ((t, .ret (some status)) :: past) = c.leaves (gate t past) status := by
  cases t <;> simp [gate, hc]

theorem gate_call {t : Tid} {c : Call} (hc : ∀ cfg, c ≠ .apply cfg) (past : List Entry) :
    gate t ((t, .call c) :: past) = gate t past := by
  cases c with
  | apply cfg => exact absurd rfl (hc cfg)
  | _ => cases t <;> rfl

section Latch
variable {parse} {t : Tid} {f g : Bool → Bool} {m : Moment}

/-- The transport only ever clears the latch, and that closes the gate. -/
theorem Guarded.other {t' : Tid} {e : Event} {w : World} (he : effect t' e m.world = some w)
    (hf : Footprint t' e m) (ht : t ≠ .transport) (ht' : t' ≠ t) (h : Guarded t f m) : Guarded t f (m.after t' e w) := by
  intro hs hl
  obtain ⟨hwho, hs'⟩ := hs.before
  obtain rfl : t' = .transport := hwho.resolve_left ht'
  dsimp only [Moment.after_world, Moment.after_trace] at hl ⊢
  by_cases hw : ∃ b, e = .did (.writeVerifiedApplied b) ()
  · obtain ⟨b, rfl⟩ := hw
    have hb := hf.callback
    rw [effect_writeVerifiedApplied he] at hl
    subst hl
    cases hb
  · rw [gate_transport ht fun b r he => hw ⟨b, he⟩]
    rcases (effect_changes he).verifiedApplied with e' | ⟨b, rfl, -⟩
    · exact h hs' (e'.symm.trans hl)
    · exact absurd ⟨b, rfl⟩ hw

theorem Guarded.mono (h : Guarded t f m) (hfg : ∀ b, f b = true → g b = true) : Guarded t g m :=
  fun hs hl => hfg _ (h hs hl)

/-- Nothing `t` does but setting the latch breaks it. -/
theorem Guarded.did {K Φ : Promise} {o : Op} {r : Res o} {w : World}
    (hd : Does (system parse) Boot K Φ t (.did o r) m w) (ht : t ≠ .transport) (ho : o ≠ .writeVerifiedApplied true)
    (h : Guarded t f m) : Guarded t f (m.after t (.did o r) w) := by
  intro hs hl
  dsimp only [Moment.after_world, Moment.after_trace] at hl ⊢
  rw [gate_did ht]
  rcases (changes hd).verifiedApplied with e' | ⟨b, e', hb⟩
  · exact h hs.before.2 (e'.symm.trans hl)
  · cases e'
    rw [hb] at hl
    subst hl
    exact absurd rfl ho

/-- A latch that is clear needs no gate. -/
theorem guarded_clear (h : m.world.verifiedApplied = false) : Guarded t f m := by
  intro _ hl
  rw [h] at hl
  cases hl

/-! ## Following the calls -/

variable (ht : t ≠ .transport)
include ht

theorem stable_guarded : Stable (system parse) Boot Base Closing t (Guarded t f) :=
  fun _ _ _ _ ht' hd _ h => h.other (happens hd) hd.known.1 ht ht'

theorem keeps_guarded {o : Op} (ho : o ≠ .writeVerifiedApplied true) :
    Keeps (system parse) Boot Base Closing t (Guarded t f) o :=
  fun _ _ _ hd h => ⟨trivial, h.did hd ht ho⟩

/-- A step that does not set the latch. -/
theorem guarded {α : Type} {o : Op} {k : Res o → Act α} {Q : α → Assertion} (ho : o ≠ .writeVerifiedApplied true)
    (hk : ∀ r, Triple (system parse) Boot Base Closing t (Guarded t f) (k r) Q) :
    Triple (system parse) Boot Base Closing t (Guarded t f) (.op o k) Q := .keep (stable_guarded ht) (keeps_guarded ht ho) hk

omit ht in
theorem keeps_nothing (o : Op) : Keeps (system parse) Boot Base Closing t (fun _ => True) o :=
  fun _ _ _ _ _ => ⟨trivial, trivial⟩

omit ht in
theorem skip_closing {α : Type} {o : Op} {k : Res o → Act α} {Q : α → Assertion}
    (hk : ∀ r, Triple (system parse) Boot Base Closing t (fun _ => True) (k r) Q) :
    Triple (system parse) Boot Base Closing t (fun _ => True) (.op o k) Q := .keep stable_true (keeps_nothing o) hk

omit ht in
/-- The latch is cleared: nothing need vouch for it any more. -/
theorem cleared {α : Type} {k : Res (.writeVerifiedApplied false) → Act α} {Q : α → Assertion} {A : Assertion}
    (hA : Stable (system parse) Boot Base Closing t A)
    (hk : ∀ r, Triple (system parse) Boot Base Closing t (Guarded t fun _ => false) (k r) Q) :
    Triple (system parse) Boot Base Closing t A (.op (.writeVerifiedApplied false) k) Q :=
  .op (fun _ => Guarded t fun _ => false) hA
    (fun _ _ _ hd _ => ⟨trivial, guarded_clear (effect_writeVerifiedApplied (happens hd))⟩) hk

/-- A program that never sets the latch. -/
theorem guarded_uses {α : Type} {p : Act α} {P : α → Prop} (hp : p.Uses (· ≠ .writeVerifiedApplied true))
    (hy : p.Yields P) : Triple (system parse) Boot Base Closing t (Guarded t f) p fun a m => Guarded t f m ∧ P a :=
  .yields (stable_guarded ht) (hp.mono fun _ ho => keeps_guarded ht ho) hy

theorem mqttCfgValidate_closing (cfg : Option MqttCfg) :
    Triple (system parse) Boot Base Closing t (Guarded t id) (mqttCfgValidate cfg)
      fun status => Guarded t fun isOpen => isOpen && status = .ok := by
  unfold mqttCfgValidate
  refine guarded ht (by simp) fun _ => ?_
  dsimp only
  split
  · refine cleared (stable_guarded ht) fun _ => guarded ht (by simp) fun _ => guarded ht (by simp) fun _ => ?_
    exact guarded ht (by simp) fun _ => .ret fun _ h => h.mono (by simp)
  · rename_i hok
    exact guarded ht (by simp) fun _ => .ret fun _ h => h.mono (by simpa using hok)

theorem loadFail_closing (status : MqttCfgStatus) (out : Option MqttCfg) :
    Triple (system parse) Boot Base Closing t (Guarded t id) (loadFail status out)
      fun _ => Guarded t fun _ => false := by
  refine guarded ht (by simp) fun _ => cleared (stable_guarded ht) fun _ => guarded ht (by simp) fun _ => ?_
  exact guarded ht (by simp) fun _ => guarded ht (by simp) fun _ => .ret fun _ h => h

theorem mqttCfgLoad_closing (out : Option MqttCfg) :
    Triple (system parse) Boot Base Closing t (Guarded t id) (mqttCfgLoad parse out)
      fun result => Guarded t fun isOpen => isOpen && result.1 = .ok := by
  have hfail : ∀ status out, Triple (system parse) Boot Base Closing t (Guarded t id) (loadFail status out)
      fun result => Guarded t fun isOpen => isOpen && result.1 = .ok := fun status out =>
    (loadFail_closing ht status out).conseq (fun _ _ h => h) fun _ _ _ h => h.mono (by simp)
  have hread : ∀ path maxLen, (mqttCfgReadFile path maxLen).Uses (· ≠ .writeVerifiedApplied true) := fun path maxLen =>
    (mqttCfgReadFile_uses path maxLen).mono fun o ho => by rintro rfl; cases ho
  unfold mqttCfgLoad
  cases out with
  | none => exact hfail _ _
  | some cfg =>
    refine (Triple.uses (stable_guarded ht) ((hread _ _).mono fun _ ho => keeps_guarded ht ho)).bind _ fun content => ?_
    cases content with
    | none =>
      refine guarded ht (by simp) fun size => ?_
      cases size <;> exact hfail _ _
    | some json =>
      dsimp only
      split
      · exact hfail _ _
      · exact .ret fun _ h => h.mono (by simp)

/-- What an apply leaves: a latch only if it returns `MQTT_CFG_OK`. -/
theorem applyFail_closing (status : MqttCfgStatus) :
    Triple (system parse) Boot Base Closing t (Guarded t fun _ => false) (applyFail status)
      fun status => Guarded t fun _ => status = .ok :=
  guarded ht (by simp) fun _ => guarded ht (by simp) fun _ => .ret fun _ h => h.mono (by simp)

theorem applyVerified_closing (cfg : MqttCfg) (token : Option (List UInt8)) :
    Triple (system parse) Boot Base Closing t (Guarded t fun _ => false) (applyVerified cfg token)
      fun status => Guarded t fun _ => status = .ok := by
  unfold applyVerified
  split
  · exact applyFail_closing ht _
  · refine guarded ht (by simp) fun status => ?_
    cases status with
    | ok =>
      refine .op (fun _ _ => True) (stable_guarded ht) (fun _ _ _ _ _ => ⟨trivial, trivial⟩) fun _ => ?_
      exact skip_closing fun _ => .ret fun _ _ _ _ => rfl
    | caError => exact applyFail_closing ht _
    | clientCertError => exact applyFail_closing ht _
    | error => exact applyFail_closing ht _

theorem applyLocked_closing (cfg : MqttCfg) :
    Triple (system parse) Boot Base Closing t (Guarded t fun _ => false) (applyLocked cfg)
      fun status => Guarded t fun _ => status = .ok := by
  unfold applyLocked
  simp only [Prog.perform_bind]
  split
  · refine guarded ht (by simp) fun token => ?_
    split
    · split
      · exact applyFail_closing ht _
      · exact applyVerified_closing ht _ _
    · exact applyFail_closing ht _
  · exact applyVerified_closing ht _ _

theorem mqttCfgApply_closing (cfg : Option MqttCfg) :
    Triple (system parse) Boot Base Closing t (fun _ => True) (mqttCfgApply cfg)
      fun status => Guarded t fun _ => status = .ok := by
  have hrest : Triple (system parse) Boot Base Closing t (fun _ => True) (applyRest cfg)
      fun status => Guarded t fun _ => status = .ok := by
    unfold applyRest
    refine skip_closing fun _ => cleared stable_true fun _ => ?_
    cases cfg with
    | none => exact applyFail_closing ht _
    | some cfg =>
      dsimp only
      split
      · exact applyFail_closing ht _
      · exact applyLocked_closing ht _
  unfold mqttCfgApply
  refine (Triple.free (.of_forall keeps_nothing _)).bind _ fun _ => skip_closing fun _ => skip_closing fun connected => ?_
  cases connected with
  | false => exact skip_closing fun _ => hrest
  | true => exact skip_closing fun _ => skip_closing fun _ => hrest

theorem mqttCfgLoadAndApply_closing (cfg : MqttCfg) :
    Triple (system parse) Boot Base Closing t (Guarded t id) (mqttCfgLoadAndApply parse cfg)
      fun status => Guarded t fun _ => status = .ok := by
  unfold mqttCfgLoadAndApply
  refine (mqttCfgLoad_closing ht _).bind _ fun result => ?_
  split
  · exact (mqttCfgApply_closing ht _).conseq (fun _ _ _ => trivial) fun _ _ _ h => h
  · exact .ret fun _ h => h.mono (by simp)

/-- What a connect leaves: it closes the gate if it returns `MQTT_CFG_ERR_NOT_APPLIED`. -/
theorem connectRefuse_closing :
    Triple (system parse) Boot Base Closing t (Guarded t fun _ => false) connectRefuse
      fun status => Guarded t fun isOpen => isOpen && status ≠ .errNotApplied :=
  guarded ht (by simp) fun _ => guarded ht (by simp) fun _ => guarded ht (by simp) fun _ => guarded ht (by simp)
    fun _ => .ret fun _ h => h.mono (by simp)

/-- The ways out of the poll loop that leave the gate as it is. -/
theorem leave_closing {p : Act MqttCfgStatus} (hp : p.Uses (· ≠ .writeVerifiedApplied true))
    (hy : p.Yields (· ≠ .errNotApplied)) :
    Triple (system parse) Boot Base Closing t (Guarded t id) p
      fun status => Guarded t fun isOpen => isOpen && status ≠ .errNotApplied :=
  (guarded_uses ht hp hy).conseq (fun _ _ h => h) fun status _ _ h => h.1.mono (by simpa using h.2)

theorem pollTimeout_closing :
    Triple (system parse) Boot Base Closing t (Guarded t id) pollTimeout
      fun status => Guarded t fun isOpen => isOpen && status ≠ .errNotApplied :=
  leave_closing ht (by simp [pollTimeout, mqttCfgFailOff]) (by simp [pollTimeout, mqttCfgFailOff])

theorem pollOnce_closing (timeoutMs waited : UInt32) {again : Act MqttCfgStatus}
    (hagain : Triple (system parse) Boot Base Closing t (Guarded t id) again
      fun status => Guarded t fun isOpen => isOpen && status ≠ .errNotApplied) :
    Triple (system parse) Boot Base Closing t (Guarded t id) (pollOnce timeoutMs waited again)
      fun status => Guarded t fun isOpen => isOpen && status ≠ .errNotApplied := by
  unfold pollOnce
  simp only [Prog.perform_bind]
  refine guarded ht (by simp) fun _ => guarded ht (by simp) fun applyGen => guarded ht (by simp) fun connectedGen => ?_
  refine guarded ht (by simp) fun failed => ?_
  have hconnected : (pollConnected applyGen connectedGen).Uses (· ≠ .writeVerifiedApplied true) :=
    (pollConnected_uses _ _).mono fun o ho => by rintro rfl; cases ho
  refine (Triple.uses (stable_guarded ht) (hconnected.mono fun _ ho => keeps_guarded ht ho)).bind _ fun connected => ?_
  refine guarded ht (by simp) fun current => ?_
  split
  · refine guarded ht (by simp) fun latch => ?_
    split
    · exact leave_closing ht (by simp [pollAccept]) (by simp [pollAccept])
    · -- The refusal clears the latch.
      refine cleared (stable_guarded ht) fun _ => guarded ht (by simp) fun _ => guarded ht (by simp) fun _ => ?_
      exact guarded ht (by simp) fun _ => guarded ht (by simp) fun _ => guarded ht (by simp) fun _ =>
        .ret fun _ h => h.mono (by simp)
  · split
    · exact leave_closing ht (by simp [pollFailed]) (pollFailed_yields nofun nofun)
    · split
      · exact pollTimeout_closing ht
      · exact hagain

theorem mqttCfgConnect_closing (timeoutMs : UInt32) :
    Triple (system parse) Boot Base Closing t (Guarded t id) (mqttCfgConnect timeoutMs)
      fun status => Guarded t fun isOpen => isOpen && status ≠ .errNotApplied := by
  have hstart : Triple (system parse) Boot Base Closing t (Guarded t id) (connectStart timeoutMs)
      fun status => Guarded t fun isOpen => isOpen && status ≠ .errNotApplied := by
    have hbegin : connectBegin.Uses (· ≠ .writeVerifiedApplied true) := by simp [connectBegin]
    refine guarded ht (by simp) fun _ => ?_
    refine (Triple.uses (stable_guarded ht) (hbegin.mono fun _ ho => keeps_guarded ht ho)).bind _ fun _ => ?_
    refine guarded ht (by simp) fun _ => guarded ht (by simp) fun _ => ?_
    exact pollLoop_triple (stable_guarded ht) (stable_guarded ht) (keeps_guarded ht (by simp))
      (fun _ => keeps_guarded ht (by simp)) (pollTimeout_closing ht) (fun waited _ => pollOnce_closing ht timeoutMs waited) _ _
  unfold mqttCfgConnect
  simp only [Prog.perform_bind]
  refine guarded ht (by simp) fun _ => ?_
  -- A latch that reads as clear needs no gate.
  refine .op (fun latch => Guarded t fun isOpen => latch && isOpen) (stable_guarded ht) ?_ fun latch => ?_
  · intro m latch w hd h
    have h' := h.did hd ht (by simp)
    obtain ⟨rfl, rfl⟩ := effect_readVerifiedApplied (happens hd)
    refine ⟨trivial, fun hs hl => ?_⟩
    rw [Moment.after_world] at hl
    simpa [hl] using h' hs hl
  cases latch with
  | false => exact (connectRefuse_closing ht).conseq (fun _ _ h => h.mono (by simp)) fun _ _ _ h => h
  | true =>
    refine guarded ht (by simp) fun current => ?_
    cases current with
    | false => exact cleared (stable_guarded ht) fun _ => connectRefuse_closing ht
    | true =>
      refine guarded ht (by simp) fun url => ?_
      cases url with
      | none => exact cleared (stable_guarded ht) fun _ => connectRefuse_closing ht
      | some url => exact guarded ht (by simp) fun _ => hstart.conseq (fun _ _ h => h.mono (by simp)) fun _ _ _ h => h

end Latch

/-- A task at rest: a latch that is set is one the gate allows. -/
theorem latched_open {parse : List UInt8 → Option Json} {t : Tid} (ht : t ≠ .transport) {m : Moment}
    (hm : Hist (system parse) Boot (Base.and Closing) m) (hi : Idle t m.trace) : Guarded t id m := by
  refine (stable_guarded ht).idle ?_ ?_ hm hi
  · rintro _ ⟨lamp, rfl⟩
    exact guarded_clear rfl
  · intro s m w hd hp
    rcases effect_ret hd.effect with ⟨htr, -⟩ | ⟨-, rfl⟩
    · exact absurd htr ht
    · exact fun hs hl => hp ht hs.before.2 hl

theorem closing : Established (system parse) Boot (Base.and Closing) := by
  refine established (base parse) fun t c => ?_
  by_cases ht : t = .transport
  · subst ht
    exact Fulfils.of_triple (fun _ => True) (fun _ _ => True) (fun _ _ _ => ⟨trivial, trivial⟩)
      (.free (.of_forall keeps_nothing _)) (fun _ => stable_true) fun _ _ _ _ _ h => absurd rfl h
  -- From the start of a call that leaves the gate as it is.
  have start : (∀ cfg, c ≠ .apply cfg) → ∀ m w, Does (system parse) Boot Base Closing t (.call c) m w →
      Closing t (.call c) m ∧ Guarded t id (m.after t (.call c) w) := by
    intro hc m w hd
    rcases effect_call hd.effect with ⟨htr, -⟩ | ⟨-, -, rfl⟩
    · exact absurd htr ht
    · refine ⟨trivial, fun hs hl => ?_⟩
      rw [Moment.after_trace, gate_call hc]
      exact latched_open ht hd.hist hd.known.1 hs.before.2 hl
  have finish : ∀ (A : Assertion), (∀ m w, Does (system parse) Boot Base Closing t (.call c) m w →
      Closing t (.call c) m ∧ A (m.after t (.call c) w)) →
      Triple (system parse) Boot Base Closing t A (body parse c) (fun result m =>
        ∃ status, result = some status ∧ Guarded t (fun isOpen => c.leaves isOpen status) m) →
      Fulfils (system parse) Boot Base Closing t c := by
    intro A hcall hbody
    refine fulfils_call A _ hcall hbody ?_ ?_
    · rintro result t' e m w ht' hd hp ⟨status, hr, h⟩
      exact ⟨status, hr, stable_guarded ht t' e m w ht' hd hp h⟩
    · rintro result m w - hin ⟨status, rfl, h⟩ - hs hl
      rw [gate_ret hin.lastCall]
      exact h hs hl
  cases c with
  | validate cfg =>
    exact finish _ (start (by simp)) ((mqttCfgValidate_closing ht cfg).bind _ fun _ => .ret fun _ h => ⟨_, rfl, h⟩)
  | load out =>
    exact finish _ (start (by simp)) ((mqttCfgLoad_closing ht out).bind _ fun _ => .ret fun _ h => ⟨_, rfl, h⟩)
  | apply cfg =>
    exact finish (fun _ => True) (fun _ _ _ => ⟨trivial, trivial⟩)
      ((mqttCfgApply_closing ht cfg).bind _ fun _ => .ret fun _ h => ⟨_, rfl, h⟩)
  | loadAndApply cfg =>
    exact finish _ (start (by simp)) ((mqttCfgLoadAndApply_closing ht cfg).bind _ fun _ => .ret fun _ h => ⟨_, rfl, h⟩)
  | connect timeoutMs =>
    exact finish _ (start (by simp)) ((mqttCfgConnect_closing ht timeoutMs).bind _ fun _ => .ret fun _ h => ⟨_, rfl, h⟩)
  | _ =>
    intro m w hd
    rcases effect_call hd.effect with ⟨htr, -⟩ | ⟨-, hc, -⟩
    · exact absurd htr ht
    · cases hc

/-! ## The start of the transport -/

/-- The call of `t` has started a session. -/
abbrev Inited (t : Tid) : List Entry → Prop := Did t .mqttAppInit

/-- The call of `t` has released the barrier. -/
abbrev Released (t : Tid) : List Entry → Prop := Did t .lampControlReleaseFailOff

def Call.isConnect : Call → Bool
  | .connect _ => true
  | _ => false

/-- The call of `t` is a connect. -/
def InConnect (t : Tid) (tr : List Entry) : Prop := (lastCall t tr).any Call.isConnect = true

instance (t : Tid) (tr : List Entry) : Decidable (InConnect t tr) := inferInstanceAs (Decidable (_ = true))

/-- The call of `t` has read the latch as set, and the gate was open then if only `t`
and the transport had acted. -/
def Opened (t : Tid) : List Entry → Prop :=
  Since (fun e => !isCall t e) fun e past =>
    e = (t, .did .readVerifiedApplied true) ∧ (Solo t past → gate t past = true)

/-- The call of `t` may start a session: it found the gate open, and the transport
then matched, which it has not asked again. -/
def Admitted (t : Tid) : List Entry → Prop :=
  Since (fun e => !isCall t e && !isDid t .mqttConfigVerifiedIsCurrent e) fun e past =>
    e = (t, .did .mqttConfigVerifiedIsCurrent true) ∧ Opened t past

/-- A session starts only where it may, the barrier is released only in a call that
started one, and a connect that started none is refused. -/
def Admitting : Promise := fun t e m =>
  match e with
  | .did .mqttAppInit _ => Admitted t m.trace
  | .did .lampControlReleaseFailOff _ => Inited t m.trace
  | .ret (some status) =>
    InConnect t m.trace → (¬ Inited t m.trace → status = .errNotApplied) ∧ (Released t m.trace ↔ status = .ok)
  | _ => True

/-- How far a call has come: whether it started a session, and released the barrier. -/
def Progress (t : Tid) (inited released : Prop) (tr : List Entry) : Prop :=
  (Inited t tr ↔ inited) ∧ (Released t tr ↔ released)

/-- The steps that a call's progress is told by. -/
def Op.marks : Op → Bool
  | .mqttAppInit | .lampControlReleaseFailOff => true
  | _ => false

section Trace
variable {t t' : Tid} {inited released : Prop} {past : List Entry}

theorem Progress.did {o : Op} (ho : o.marks = false) (r : Res o) (h : Progress t inited released past) :
    Progress t inited released ((t, .did o r) :: past) :=
  ⟨(did_skip (by rintro rfl; cases ho) r).trans h.1, (did_skip (by rintro rfl; cases ho) r).trans h.2⟩

theorem Progress.other (ht : t' ≠ t) (e : Event) (h : Progress t inited released past) :
    Progress t inited released ((t', e) :: past) :=
  ⟨(did_other ht e).trans h.1, (did_other ht e).trans h.2⟩

end Trace

/-! ## Following a connect -/

section Walk
variable {parse} {t : Tid} {K : Promise} {inited released : Prop}

theorem stable_progress {Φ : Promise} :
    Stable (system parse) Boot K Φ t fun m => Progress t inited released m.trace := fun _ e _ _ ht _ _ h => h.other ht e

theorem admitting_did {o : Op} (ho : o.marks = false) (r : Res o) (m : Moment) : Admitting t (.did o r) m := by
  cases o <;> trivial

theorem keeps_progress {o : Op} (ho : o.marks = false) :
    Keeps (system parse) Boot K Admitting t (fun m => Progress t inited released m.trace) o :=
  fun m r _ _ h => ⟨admitting_did ho r m, h.did ho r⟩

/-- What the return of a connect has to say of its progress. -/
def Ended (t : Tid) (status : MqttCfgStatus) (m : Moment) : Prop :=
  (¬ Inited t m.trace → status = .errNotApplied) ∧ (Released t m.trace ↔ status = .ok)

theorem stable_ended {Φ : Promise} (status : MqttCfgStatus) : Stable (system parse) Boot K Φ t (Ended t status) := by
  intro t' e m w ht _ _ h
  simpa only [Ended, Moment.after_trace, did_other ht] using h

/-- A refusal, before a session is started. -/
theorem connectRefuse_admitting :
    Triple (system parse) Boot K Admitting t (fun m => Progress t False False m.trace) connectRefuse (Ended t) := by
  have huses : connectRefuse.Uses (·.marks = false) := ⟨rfl, fun _ => ⟨rfl, fun _ => ⟨rfl, fun _ => ⟨rfl, fun _ => trivial⟩⟩⟩⟩
  have hyields : connectRefuse.Yields (· = .errNotApplied) := by simp [connectRefuse, mqttCfgFailOff]
  refine (Triple.yields stable_progress (huses.mono fun _ ho => keeps_progress ho) hyields).conseq (fun _ _ h => h) ?_
  rintro _ m - ⟨h, rfl⟩
  exact ⟨fun _ => rfl, by simp [h.2]⟩

/-- A failure, with the session started. -/
theorem leave_admitting {p : Act MqttCfgStatus} (hp : p.Uses (·.byFailure)) (hy : p.Yields (· ≠ .ok)) :
    Triple (system parse) Boot K Admitting t (fun m => Progress t True False m.trace) p (Ended t) := by
  have hmarks : ∀ o : Op, o.byFailure = true → o.marks = false := fun o ho => by cases o <;> first | rfl | cases ho
  refine (Triple.yields stable_progress (hp.mono fun o ho => keeps_progress (hmarks o ho)) hy).conseq (fun _ _ h => h) ?_
  rintro status m - ⟨h, hne⟩
  exact ⟨fun hn => absurd (h.1.2 trivial) hn, by simp [h.2, hne]⟩

theorem pollTimeout_admitting :
    Triple (system parse) Boot K Admitting t (fun m => Progress t True False m.trace) pollTimeout (Ended t) :=
  leave_admitting pollTimeout_uses (by simp [pollTimeout, mqttCfgFailOff])

theorem pollAccept_admitting :
    Triple (system parse) Boot K Admitting t (fun m => Progress t True False m.trace) pollAccept (Ended t) := by
  refine .keep stable_progress (keeps_progress rfl) fun _ => ?_
  refine .op (fun _ m => Progress t True True m.trace) stable_progress ?_ fun _ => ?_
  · intro m r w _ h
    exact ⟨h.1.2 trivial, (did_skip (by simp) r).trans h.1, iff_of_true (did_now r) trivial⟩
  · refine .keep stable_progress (keeps_progress rfl) fun _ => .ret fun m h => ?_
    exact ⟨fun hn => absurd (h.1.2 trivial) hn, by simp [h.2]⟩

theorem pollOnce_admitting (timeoutMs waited : UInt32) {again : Act MqttCfgStatus}
    (hagain : Triple (system parse) Boot K Admitting t (fun m => Progress t True False m.trace) again (Ended t)) :
    Triple (system parse) Boot K Admitting t (fun m => Progress t True False m.trace) (pollOnce timeoutMs waited again)
      (Ended t) := by
  have go : ∀ {o : Op} {k : Res o → Act MqttCfgStatus}, o.marks = false →
      (∀ r, Triple (system parse) Boot K Admitting t (fun m => Progress t True False m.trace) (k r) (Ended t)) →
      Triple (system parse) Boot K Admitting t (fun m => Progress t True False m.trace) (.op o k) (Ended t) :=
    fun ho hk => .keep stable_progress (keeps_progress ho) hk
  have hconnected : ∀ r c, (pollConnected r c).Uses (·.marks = false) := by
    intro r c
    unfold pollConnected
    split
    · exact ⟨rfl, fun _ => trivial⟩
    · trivial
  unfold pollOnce
  simp only [Prog.perform_bind]
  refine go rfl fun _ => go rfl fun applyGen => go rfl fun connectedGen => go rfl fun failed => ?_
  refine (Triple.uses stable_progress ((hconnected _ _).mono fun _ ho => keeps_progress ho)).bind _ fun connected => ?_
  refine go rfl fun current => ?_
  split
  · refine go rfl fun latch => ?_
    split
    · exact pollAccept_admitting
    · exact leave_admitting pollRefuse_uses (by simp [pollRefuse, mqttCfgFailOff])
  · split
    · exact leave_admitting pollFailed_uses (pollFailed_yields nofun nofun)
    · split
      · exact pollTimeout_admitting
      · exact hagain

/-- The start of the transport, once the entry checks have passed. -/
theorem connectStart_admitting (timeoutMs : UInt32) :
    Triple (system parse) Boot K Admitting t (fun m => Progress t False False m.trace ∧ Admitted t m.trace)
      (connectStart timeoutMs) (Ended t) := by
  have stable : Stable (system parse) Boot K Admitting t fun m => Progress t False False m.trace ∧ Admitted t m.trace :=
    stable_progress.and fun _ e _ _ ht _ _ h => h.later (by simp [isCall_other ht, isDid_other ht])
  have go : ∀ {o : Op} {k : Res o → Act MqttCfgStatus}, o.marks = false → o ≠ .mqttConfigVerifiedIsCurrent →
      (∀ r, Triple (system parse) Boot K Admitting t (fun m => Progress t False False m.trace ∧ Admitted t m.trace) (k r)
        (Ended t)) →
      Triple (system parse) Boot K Admitting t (fun m => Progress t False False m.trace ∧ Admitted t m.trace) (.op o k)
        (Ended t) := by
    refine fun ho hc hk => .keep stable (fun m r w _ h => ⟨admitting_did ho r m, h.1.did ho r, ?_⟩) hk
    exact h.2.later (by simp [isCall_did, hc])
  unfold connectStart connectBegin
  refine go rfl (by simp) fun _ => go rfl (by simp) fun _ => go rfl (by simp) fun _ => go rfl (by simp) fun _ => ?_
  refine go rfl (by simp) fun _ => go rfl (by simp) fun _ => go rfl (by simp) fun _ => go rfl (by simp) fun _ => ?_
  refine .op (fun _ m => Progress t True False m.trace) stable ?_ fun _ => ?_
  · intro m r w _ h
    exact ⟨h.2, iff_of_true (did_now r) trivial, (did_skip (by simp) r).trans h.1.2⟩
  · exact pollLoop_triple stable_progress stable_progress (keeps_progress rfl) (fun _ => keeps_progress rfl)
      pollTimeout_admitting (fun waited _ => pollOnce_admitting timeoutMs waited) _ _

/-- The entry checks. -/
theorem mqttCfgConnect_admitting (ht : t ≠ .transport) (timeoutMs : UInt32) :
    Triple (system parse) Boot (Base.and Closing) Admitting t
      (fun m => Progress t False False m.trace ∧ Guarded t id m) (mqttCfgConnect timeoutMs) (Ended t) := by
  have stable_gate : Stable (system parse) Boot (Base.and Closing) Admitting t (Guarded t id) :=
    fun _ _ _ _ ht' hd _ h => h.other (happens hd) hd.known.1.1 ht ht'
  have stable_opened : Stable (system parse) Boot (Base.and Closing) Admitting t
      fun m => Progress t False False m.trace ∧ Opened t m.trace :=
    stable_progress.and fun _ e _ _ ht' _ _ h => h.later (by simp [isCall_other ht'])
  have stable_admitted : Stable (system parse) Boot (Base.and Closing) Admitting t
      fun m => Progress t False False m.trace ∧ Admitted t m.trace :=
    stable_progress.and fun _ e _ _ ht' _ _ h => h.later (by simp [isCall_other ht', isDid_other ht'])
  have refuse : ∀ {A : Assertion}, (∀ m, A m → Progress t False False m.trace) →
      Triple (system parse) Boot (Base.and Closing) Admitting t A connectRefuse (Ended t) :=
    fun hA => connectRefuse_admitting.conseq (fun m _ h => hA m h) fun _ _ _ h => h
  unfold mqttCfgConnect
  simp only [Prog.perform_bind]
  refine .keep (stable_progress.and stable_gate) ?_ fun _ => ?_
  · exact fun m r w hd h => ⟨trivial, h.1.did rfl r, h.2.did hd ht (by simp)⟩
  -- A latch that reads as set is one the gate vouches for at that moment.
  refine .op (fun latch m => Progress t False False m.trace ∧ (latch = true → Opened t m.trace))
    (stable_progress.and stable_gate) ?_ fun latch => ?_
  · intro m latch w hd h
    refine ⟨trivial, h.1.did rfl latch, ?_⟩
    rintro rfl
    exact .now ⟨rfl, fun hs => h.2 hs (effect_readVerifiedApplied (happens hd)).1.symm⟩
  cases latch with
  | false => exact refuse fun _ h => h.1
  | true =>
    refine .pre (fun m h => show Progress t False False m.trace ∧ Opened t m.trace from ⟨h.1, h.2 rfl⟩) ?_
    -- The transport is asked after the latch, and its match admits the start.
    refine .op (fun current m => Progress t False False m.trace ∧ (current = true → Admitted t m.trace)) stable_opened ?_
      fun current => ?_
    · intro m current w hd h
      refine ⟨trivial, h.1.did rfl current, ?_⟩
      rintro rfl
      exact .now ⟨rfl, h.2⟩
    cases current with
    | false =>
      exact .pre (fun m h => h.1) <| .keep stable_progress (keeps_progress rfl) fun _ => refuse fun _ h => h
    | true =>
      refine .pre (fun m h => show Progress t False False m.trace ∧ Admitted t m.trace from ⟨h.1, h.2 rfl⟩) ?_
      refine .keep stable_admitted ?_ fun url => ?_
      · exact fun m r w _ h => ⟨trivial, h.1.did rfl r, h.2.later (by simp [isCall_did])⟩
      cases url with
      | none =>
        exact .pre (fun m h => h.1) <| .keep stable_progress (keeps_progress rfl) fun _ => refuse fun _ h => h
      | some url =>
        refine .keep stable_admitted ?_ fun _ => connectStart_admitting timeoutMs
        exact fun m r w _ h => ⟨trivial, h.1.did rfl r, h.2.later (by simp [isCall_did])⟩

end Walk

theorem admitting : Established (system parse) Boot ((Base.and Closing).and Admitting) := by
  refine established (closing parse) fun t c => ?_
  -- No other call takes the steps the promise is about.
  have other : (∀ timeoutMs, c ≠ .connect timeoutMs) → Fulfils (system parse) Boot (Base.and Closing) Admitting t c := by
    intro hc
    have hmarks : ∀ o : Op, o.by c = true → o.marks = false := by
      intro o ho
      cases c with
      | connect timeoutMs => exact absurd rfl (hc timeoutMs)
      | _ => cases o <;> first | rfl | cases ho
    have hbody : (body parse c).Uses (Keeps (system parse) Boot (Base.and Closing) Admitting t fun _ => True) :=
      (body_uses parse c).mono fun o ho m r _ _ _ => ⟨admitting_did (hmarks o ho) r m, trivial⟩
    refine fulfils_call (fun _ => True) (fun _ _ => True) (fun _ _ _ => ⟨trivial, trivial⟩) (.free hbody)
      (fun _ => stable_true) fun result m w _ hin _ => ?_
    cases result with
    | none => trivial
    | some status =>
      intro hconn
      rw [InConnect, hin.lastCall] at hconn
      cases c with
      | connect timeoutMs => exact absurd rfl (hc timeoutMs)
      | _ => cases hconn
  cases c with
  | connect timeoutMs =>
    by_cases ht : t = .transport
    · intro m w hd
      rcases effect_call hd.effect with ⟨-, hc, -⟩ | ⟨h, -⟩
      · simp [World.callsBack, Call.isCallback] at hc
      · exact absurd ht h
    · refine fulfils_call _ (fun result m => ∀ status, result = some status → Ended t status m) ?_
        ((mqttCfgConnect_admitting ht timeoutMs).bind _ fun _ => .ret fun _ h => by rintro _ ⟨⟩; exact h) ?_ ?_
      · intro m w hd
        refine ⟨trivial, ⟨iff_of_false (did_call _) id, iff_of_false (did_call _) id⟩, fun hs hl => ?_⟩
        rcases effect_call hd.effect with ⟨htr, -⟩ | ⟨-, -, rfl⟩
        · exact absurd htr ht
        · rw [Moment.after_trace, gate_call (by simp)]
          exact latched_open ht (hd.hist.mono fun _ _ _ h => h.1) hd.known.1.1 hs.before.2 hl
      · exact fun _ t' e m w ht' hd hp h status hr => stable_ended status t' e m w ht' hd hp (h status hr)
      · intro result m w _ _ h
        cases result with
        | none => trivial
        | some status => exact fun _ => h status rfl
  | _ => exact other (by simp)

/-! ## The release -/

/-- What `t` read since it took the lock is the generation `g`, which a connect event
stamped and no loss has followed. -/
def Consumed (t : Tid) (g : UInt32) : List Entry → Prop :=
  Since (fun e => !isDid t .lock e && !isDid t (.loadGen .connected) e) fun e past =>
    e = (t, .did (.loadGen .connected) g) ∧ Unlost g past

/-- The barrier may be released: the latch is set, the snapshot still matches, and
there is a connect event of the current apply generation. -/
structure Authorized (t : Tid) (m : Moment) : Prop where
  latch : m.world.verifiedApplied = true
  matched : Matched t m.trace
  generation : m.world.gen .apply ≠ 0
  consumed : Consumed t (m.world.gen .apply) m.trace

theorem carries_authorized {parse : List UInt8 → Option Json} {t : Tid} :
    Carries parse Authorized t (fun _ => True) fun c _ m => c ≠ 0 → Consumed t c m.trace where
  outer := stable_true
  keeps o ho := keeps_silent (by rintro rfl; cases ho)
  inner _ _ := stable_locked.and fun _ e _ _ ht _ _ h hc => (h hc).later (by simp [isDid_other ht])
  after _ _ o ho _ r _ _ h hc := by
    have hlock : o ≠ .lock := by rintro rfl; cases ho
    exact (h hc).later (by simp [isDid_afterRead ho, hlock])
  read m c w hd _ hc := by
    obtain ⟨rfl, -⟩ := effect_loadGen (happens hd)
    exact .now ⟨rfl, stamp_unlost parse (hd.hist.mono fun _ _ _ h => h.1) hc⟩
  asked _ _ _ _ h hc := (h hc).later (by simp)
  release m h := by
    obtain ⟨c, hc, hgen, hcarried⟩ := h.connected
    exact ⟨h.latch, h.matched, hgen ▸ hc, hgen ▸ hcarried hc⟩

/-! ## Runs -/

/-- The connect gate: what a start of the transport, a release of the barrier and the
return of a connect say of the calls before them. -/
def ConnectGate : Promise := fun t e m =>
  match e with
  | .did .mqttAppInit _ => Admitted t m.trace
  | .did .lampControlReleaseFailOff _ => InConnect t m.trace ∧ Inited t m.trace ∧ Authorized t m
  | .ret (some status) =>
    InConnect t m.trace → (¬ Inited t m.trace → status = .errNotApplied) ∧ (Released t m.trace ↔ status = .ok)
  | _ => True

end LedLamp.Mqtt
