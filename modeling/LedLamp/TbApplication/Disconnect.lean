import LedLamp.TbApplication.Footprint
/-!
# A disconnect and an apply in flight

The engine starts an apply only while the transport is connected, and the apply
releases the fail-off barrier before it drives the lamp. Nothing keeps a disconnect
from latching the barrier between the start of the apply and that release: then
the lamp is lit with no session (`relit_behind_disconnect`). `stays_off` says that
this window is the only way: where no apply releases the barrier behind a disconnect,
the lamp stays off until a new session.
-/

namespace LedLamp.TbApplication

open Conc Lamp
open Mqtt (Tid)

variable (cJsonParse : List UInt8 → Option Json) (build : Build)

/-- `mqtt_cfg_on_disconnect` has forced the lamp inactive. -/
def isLoss : Entry → Bool
  | (_, .did (.lamp .mqttCfg .forceInactive) answer) => answer.1 = .ok
  | _ => false

/-- The transport is connected anew. -/
def isConnection : Entry → Bool
  | (_, .call .transportConnected) => true
  | _ => false

/-- Another component lifts the barrier, or the lamp is initialized. -/
def isForeign : Entry → Bool
  | (_, .did (.lamp caller .releaseFailOff) _) => caller ≠ .tbApplication
  | (_, .did (.lamp _ (.init _)) _) => true
  | _ => false

/-- A disconnect has forced the lamp inactive, and no new session or other component
has enabled it since. -/
def Lost : List Entry → Prop := Since (fun e => !isConnection e && !isForeign e) fun e _ => isLoss e = true

/-- Thread `t` starts a call. -/
def isCall (t : Tid) : Entry → Bool
  | (t', .call _) => t' = t
  | _ => false

/-- No disconnect has forced the lamp inactive since `t`'s call began. -/
def Calm (t : Tid) : List Entry → Prop := Since (fun e => !isLoss e) fun e _ => isCall t e = true

/-- `P t` of the past holds wherever the module releases the barrier on thread `t`. -/
def AtRelease (P : Tid → List Entry → Prop) : Entry → List Entry → Prop
  | (t, .did (.lamp .tbApplication .releaseFailOff) _), past => P t past
  | _, _ => True

instance (tr : List Entry) : Decidable (Lost tr) := inferInstanceAs (Decidable (Since _ _ _))

instance (t : Tid) (tr : List Entry) : Decidable (Calm t tr) := inferInstanceAs (Decidable (Since _ _ _))

instance (P : Tid → List Entry → Prop) [∀ t tr, Decidable (P t tr)] : ∀ e past, Decidable (AtRelease P e past) := by
  unfold AtRelease
  intro e past
  split <;> infer_instance

/-! ## The transport -/

section Histories
variable {cJsonParse build} {m : Moment} {t : Tid}

/-- The promise of the footprint. -/
abbrev Driven : Promise := Within fun c o => Op.of c o = true

/-- Callbacks run on the transport thread, and nothing else does. -/
theorem lastCall_thread (hm : Hist (system cJsonParse build) Boot Driven m) {c : Call} (hc : lastCall t m.trace = some c) :
    c.isCallback = decide (t = .transport) :=
  Hist.during (A := fun _ => c.isCallback = decide (t = .transport))
    (fun _ _ _ he => starts_thread (effect_call he).1) (fun _ _ _ _ _ _ _ _ h => h) hm hc

/-- During `mqtt_cfg_on_disconnect` the transport is not connected. -/
theorem disconnecting (hm : Hist (system cJsonParse build) Boot Driven m)
    (hc : lastCall .transport m.trace = some .mqttCfgOnDisconnect) : m.world.transport = false := by
  refine Hist.during (A := fun m => m.world.transport = false) ?_ ?_ hm hc
  · intro m w _ he
    rw [system_effect] at he
    rw [Moment.after_world, (effect_call he).2]
    rfl
  · intro m t e w _ he _ hno h
    rw [Moment.after_world]
    rcases (effect_changes he).transport with h' | ⟨rfl, rfl, -⟩ | ⟨-, -, h'⟩
    · rw [h']; exact h
    · exact absurd rfl (hno _ rfl)
    · exact h'

/-- What `mqtt_cfg` asks of the lamp, it asks in that callback. -/
theorem loss_disconnecting (hm : Hist (system cJsonParse build) Boot Driven m) {e : Event} (hp : Driven t e m)
    (hl : isLoss (t, e) = true) : m.world.transport = false := by
  unfold isLoss at hl
  split at hl
  · rename_i heq
    cases heq
    obtain ⟨c, hc, hof⟩ := hp
    cases c with
    | mqttCfgOnDisconnect =>
      obtain rfl : t = .transport := of_decide_eq_true (lastCall_thread hm hc).symm
      exact disconnecting hm hc
    | _ => cases hof
  · cases hl

/-- While the session is lost, the transport is not connected. -/
theorem lost_transport (hm : Hist (system cJsonParse build) Boot Driven m) (hl : Lost m.trace) :
    m.world.transport = false := by
  induction hm with
  | start hw => cases hl
  | @step m t e w hm he hp ih =>
    rw [Moment.after_world]
    rcases (effect_changes he).transport with h | ⟨-, rfl, -⟩ | ⟨-, -, h⟩
    · rw [h]
      rcases hl with hloss | ⟨-, hl⟩
      · exact loss_disconnecting hm hp hloss
      · exact ih hl
    · rcases hl with hloss | ⟨hφ, -⟩
      · cases hloss
      · simp [isConnection] at hφ
    · exact h

/-- An apply that no disconnect has cut short began in a session that is not lost. -/
theorem calm_apply (hm : Hist (system cJsonParse build) Boot Driven m) {state : Option LampState} {outputSuspended : Bool}
    (hc : lastCall t m.trace = some (.applyState state outputSuspended)) (hcalm : Calm t m.trace) : ¬ Lost m.trace := by
  refine Hist.during (A := fun m => Calm t m.trace → ¬ Lost m.trace) ?_ ?_ hm hc hcalm
  · rintro m w hm he - (hloss | ⟨-, hl⟩)
    · cases hloss
    · -- The engine starts it only while the transport is connected.
      have hs := (effect_call he).1
      simp [World.starts, lost_transport hm hl] at hs
  · rintro m t' e w hm he hp hno h (hcall | ⟨hφ, hcalm⟩)
    · unfold isCall at hcall
      split at hcall
      · rename_i heq
        cases heq
        exact absurd (of_decide_eq_true hcall) (hno _ rfl)
      · cases hcall
    · rintro (hloss | ⟨-, hl⟩)
      · simp [hloss] at hφ
      · exact h hcalm hl

/-! ## The lamp -/

/-- The lamp is in a state its operations reach. -/
theorem lamp_reachable {Φ : Promise} (hm : Hist (system cJsonParse build) Boot Φ m) : Reachable m.world.lamp := by
  induction hm with
  | start hw =>
    obtain ⟨lamp, hlamp, rfl⟩ := hw
    exact hlamp
  | @step m t e w _ he _ ih =>
    rw [Moment.after_world]
    rcases (effect_changes he).lamp with h | ⟨-, c, -, h⟩
    · rw [h]; exact ih
    · rw [h]; exact ih.call c

/-- The loss latches the barrier and turns the lamp off. -/
theorem loss_off {Φ : Promise} {e : Event} {w : World} (hm : Hist (system cJsonParse build) Boot Φ m)
    (he : effect t e m.world = some w) (hl : isLoss (t, e) = true) :
    w.lamp.lamp.failOffBarrier = true ∧ Off w.lamp.hal.channels := by
  unfold isLoss at hl
  split at hl
  · rename_i answer heq
    cases heq
    obtain ⟨rfl, rfl⟩ := effect_lamp he
    obtain ⟨hoff, hb, -⟩ := forceInactive_ok (reachable_tracked (lamp_reachable hm)) (of_decide_eq_true hl)
    exact ⟨hb, hoff⟩
  · cases hl

/-- While the session is lost, no step lifts the barrier. -/
theorem lost_lifts {caller : Component} {c : Lamp.Call} {answer : Res (.lamp caller c)}
    (hm : Hist (system cJsonParse build) Boot Driven m) (hp : Driven t (.did (.lamp caller c) answer) m)
    (hcalm : AtRelease Calm (t, .did (.lamp caller c) answer) m.trace) (hl : Lost m.trace)
    (hf : isForeign (t, .did (.lamp caller c) answer) = false) : ¬ Lifts c m.world.lamp := by
  rintro (rfl | ⟨config, rfl, -⟩)
  · obtain rfl : caller = .tbApplication := by simpa [isForeign] using hf
    obtain ⟨call, hc, hof⟩ := hp
    cases call with
    | applyState state outputSuspended => exact calm_apply hm hc hcalm hl
    | _ => cases hof
  · cases hf

theorem lost_off (hm : Hist (system cJsonParse build) Boot Driven m) (hcalm : Every (AtRelease Calm) m.trace)
    (hl : Lost m.trace) : m.world.lamp.lamp.failOffBarrier = true ∧ Off m.world.lamp.hal.channels := by
  induction hm with
  | start hw => cases hl
  | @step m t e w hm he hp ih =>
    rcases hl with hloss | ⟨hφ, hl⟩
    · exact loss_off hm he hloss
    · simp only [Bool.and_eq_true, Bool.not_eq_eq_eq_not, Bool.not_true] at hφ
      obtain ⟨hb, hoff⟩ := ih hcalm.2 hl
      rw [Moment.after_world]
      rcases (effect_changes he).lamp with h | ⟨caller, c, rfl, h⟩
      · rw [h]
        exact ⟨hb, hoff⟩
      · obtain ⟨hq, hb'⟩ := latched_step c hb (lost_lifts hm hp hcalm.1 hl hφ.2)
        rw [h]
        exact ⟨hb', hq.channels.off hoff⟩

end Histories

/-! ## Runs -/

/-- In a run in which no disconnect forces the lamp inactive between the start of an
apply and its release of the barrier, the lamp is off with the barrier latched from
a disconnect's fail-off until a new session. -/
theorem stays_off {c : Config} (hr : (system cJsonParse build).Run Boot c) (hcalm : Every (AtRelease Calm) c.trace)
    (hl : Lost c.trace) : c.world.lamp.lamp.failOffBarrier = true ∧ Off c.world.lamp.hal.channels :=
  lost_off ((footprint cJsonParse build).hist hr) hcalm hl

/-! ## A run that lights the lamp after the disconnect -/

/-- The session is connected. -/
def transportConnects : List Entry := [(.transport, .call .transportConnected), (.transport, .ret .unit)]

/-- The engine starts an apply. -/
def applyBegins : List Entry := [(.task 0, .call (.applyState (some fullOn) false))]

/-- The apply lights the lamp and records the state. -/
def applyLights : List Entry :=
  [(.task 0, .did (.lamp .tbApplication .releaseFailOff) (.ok, none)),
   (.task 0, .did (.lamp .tbApplication (.applyState (some fullOn) none)) (.ok, none)),
   (.task 0, .did .osalMutexTake ()), (.task 0, .did (.store (.applied fullOn)) ()),
   (.task 0, .did (.store (.hasApplied true)) ()), (.task 0, .did .osalMutexGive ()), (.task 0, .ret (.bool true))]

/-- The session is lost. -/
def transportDisconnects : List Entry :=
  [(.transport, .call .mqttCfgOnDisconnect), (.transport, .did (.mqttCfg (.store .waitingForConnection false)) ()),
   (.transport, .did (.mqttCfg (.storeGen .connected 0)) ()),
   (.transport, .did (.lamp .mqttCfg .forceInactive) (.ok, none)), (.transport, .ret .unit)]

/-- The configuration a sequence of events leads to, from the boot of that lamp. -/
def replayed (entries : List Entry) : Option Config :=
  (system (fun _ => none) pwmBuild).replay entries (System.boot (.boot pwmLamp))

theorem replayed_run {entries : List Entry} {c : Config} (h : replayed entries = some c) :
    (system (fun _ => none) pwmBuild).Run Boot c ∧ c.trace = entries.reverse :=
  ⟨System.run_replay (.boot ⟨_, reachable_run (.boot _) _, rfl⟩) h, (System.replay_trace h).trans (List.append_nil _)⟩

/-- An apply that is through before the session is lost. -/
theorem stays_off_home : ∃ c, replayed (transportConnects ++ applyBegins ++ applyLights ++ transportDisconnects) = some c ∧
    c.world.lamp.lamp.failOffBarrier = true ∧ Off c.world.lamp.hal.channels := by
  obtain ⟨c, hc⟩ := Option.isSome_iff_exists.1 (show (replayed (transportConnects ++ applyBegins ++ applyLights ++
    transportDisconnects)).isSome = true by decide)
  obtain ⟨hr, htr⟩ := replayed_run hc
  exact ⟨c, hc, stays_off _ _ hr (by rw [htr]; decide) (by rw [htr]; decide)⟩

/-- The session is lost right after the engine started an apply: the apply lights
the lamp after the disconnect has forced it off. -/
theorem relit_behind_disconnect : ∃ c, replayed (transportConnects ++ applyBegins ++ transportDisconnects ++ applyLights) = some c ∧
    Lost c.trace ∧ c.world.lamp.lamp.failOffBarrier = false ∧ c.world.lamp.hal.channels.duty 4 = 10000 := by
  have h : (replayed (transportConnects ++ applyBegins ++ transportDisconnects ++ applyLights)).map (fun c =>
      (c.world.lamp.lamp.failOffBarrier, c.world.lamp.hal.channels.duty 4)) = some (false, 10000) := by decide
  obtain ⟨c, hc, hw⟩ := Option.map_eq_some_iff.1 h
  simp only [Prod.mk.injEq] at hw
  exact ⟨c, hc, by rw [(replayed_run hc).2]; decide, hw.1, hw.2⟩

end LedLamp.TbApplication
