import LedLamp.Lamp.Barrier
import LedLamp.Mqtt.Polling
/-!
# The release of the barrier and a session lost meanwhile

A connect releases the lamp's fail-off barrier on a connect event it read from
`s_connected_generation`. No transport loss can have completed between that
event and the read (`stamp_unlost`), because a loss clears the generation before
it forces the lamp off. Nothing keeps a loss from completing between the read
and the release: then the barrier is released for a session that is gone
(`released_behind_loss`). `released_justified` says that this window is the only way.
-/

namespace LedLamp.Mqtt

open Conc Lamp

variable (parse : List UInt8 → Option Json)

/-- A transport callback completed its fail-off. -/
def isLoss : Entry → Bool
  | (.transport, .did .lampControlForceInactive status) => status = .ok
  | _ => false

/-- A store of `s_connected_generation`. -/
def isStamp : Entry → Bool
  | (_, .did (.storeGen .connected _) _) => true
  | _ => false

/-- A connect event that stamped generation `g`. -/
def isConnectEvent (g : UInt32) : Entry → Bool
  | (.transport, .did (.storeGen .connected g') _) => g' = g
  | _ => false

/-- The stamp of `g` in force is a connect event's, and no loss completed since. -/
def Unlost (g : UInt32) : List Entry → Prop :=
  Since (fun e => !isLoss e && !isStamp e) fun e _ => isConnectEvent g e = true

/-- `t` reads a connected generation of which `P` holds. -/
def Reads (t : Tid) (P : UInt32 → List Entry → Prop) : Entry → List Entry → Prop
  | (t', .did (.loadGen .connected) g), past => t' = t ∧ P g past
  | _, _ => False

/-- No loss completed since `t` last read the generation. -/
def Calm (t : Tid) : List Entry → Prop := Since (fun e => !isLoss e) fun e _ => isDid t (.loadGen .connected) e = true

/-- The generation `t` last read came from a connect event, and no loss completed
since that event. -/
def Justified (t : Tid) : List Entry → Prop := Since (fun e => !isLoss e && !isDid t (.loadGen .connected) e) (Reads t Unlost)

/-- `P t` of the past holds wherever a thread `t` releases the barrier. -/
def AtRelease (P : Tid → List Entry → Prop) : Entry → List Entry → Prop
  | (t, .did .lampControlReleaseFailOff _), past => P t past
  | _, _ => True

instance (g : UInt32) (tr : List Entry) : Decidable (Unlost g tr) := inferInstanceAs (Decidable (Since _ _ _))

instance (t : Tid) (P : UInt32 → List Entry → Prop) [∀ g tr, Decidable (P g tr)] : ∀ e past, Decidable (Reads t P e past) := by
  unfold Reads
  intro e past
  split <;> infer_instance

instance (t : Tid) (tr : List Entry) : Decidable (Calm t tr) := inferInstanceAs (Decidable (Since _ _ _))

instance (t : Tid) (tr : List Entry) : Decidable (Justified t tr) := inferInstanceAs (Decidable (Since _ _ _))

instance (P : Tid → List Entry → Prop) [∀ t tr, Decidable (P t tr)] : ∀ e past, Decidable (AtRelease P e past) := by
  unfold AtRelease
  intro e past
  split <;> infer_instance

/-- Only a stamp changes the connected generation. -/
theorem stamp_cases {t : Tid} {e : Event} {w w' : World} (he : effect t e w = some w') :
    (∃ v, e = .did (.storeGen .connected v) () ∧ w'.gen .connected = v) ∨
      (isStamp (t, e) = false ∧ w'.gen .connected = w.gen .connected) := by
  by_cases hs : isStamp (t, e) = true
  · obtain ⟨v, rfl⟩ : ∃ v, e = .did (.storeGen .connected v) () := by
      unfold isStamp at hs
      split at hs
      · rename_i v _ heq; cases heq; exact ⟨v, rfl⟩
      · cases hs
    exact .inl ⟨v, rfl, effect_storeGen he⟩
  · refine .inr ⟨by simpa using hs, ?_⟩
    rcases (effect_changes he).gen .connected with h | ⟨v, rfl, -⟩
    · exact h
    · exact absurd rfl hs

/-- The stamp in force is a connect event's that no loss followed. -/
theorem stamp_unlost {m : Moment} (hm : Hist (system parse) Boot Base m) (hg : m.world.gen .connected ≠ 0) :
    Unlost (m.world.gen .connected) m.trace := by
  induction hm with
  | start hw => obtain ⟨lamp, rfl⟩ := hw; exact absurd rfl hg
  | @step m t e w _ he hp ih =>
    dsimp only [Moment.after_world, Moment.after_trace] at hg ⊢
    rcases stamp_cases he with ⟨v, rfl, hv⟩ | ⟨hs, hsame⟩
    · rw [hv] at hg ⊢
      obtain rfl := stamp_transport hp.1 hg
      exact .now (by simp [isConnectEvent])
    · rw [hsame] at hg ⊢
      refine (ih hg).later ?_
      -- A callback forces the lamp off only with the stamp cleared.
      have hl : isLoss (t, e) = false := by
        by_contra hl
        unfold isLoss at hl
        split at hl
        · rename_i heq; cases heq; exact hg (hp.2 rfl)
        · exact hl rfl
      simp [hl, hs]

/-! ## Between the read and the release -/

/-- A release is justified if no loss completed since the read before it. -/
abbrev CalmJustified : Promise := Releasing fun t m => Calm t m.trace → Justified t m.trace

section Walk
variable {parse} {t : Tid}

/-- What is carried from the read of generation `c` to the release. -/
def Carried (t : Tid) (c : UInt32) (m : Moment) : Prop := c ≠ 0 → Calm t m.trace → Justified t m.trace

/-- Any event but a further read carries it on. -/
theorem Carried.step {c : UInt32} {m : Moment} {t' : Tid} {e : Event} {w : World} (h : Carried t c m)
    (hr : isDid t (.loadGen .connected) (t', e) = false) : Carried t c (m.after t' e w) := by
  rintro hc (hnow | ⟨hl, hcalm⟩)
  · rw [hr] at hnow; cases hnow
  · exact (h hc hcalm).later (by simpa [hr] using hl)

theorem carries_justified :
    Carries parse (fun t m => Calm t m.trace → Justified t m.trace) t (fun _ => True) fun c _ => Carried t c where
  outer := stable_true
  keeps o ho := keeps_silent (by rintro rfl; cases ho)
  inner _ _ := stable_locked.and fun _ e _ _ ht _ _ h => h.step (isDid_other ht _ e)
  after _ _ _ ho _ r _ _ h := h.step (isDid_afterRead ho r)
  read m c w hd _ := by
    obtain ⟨rfl, -⟩ := effect_loadGen (happens hd)
    -- What is read is a connect event's stamp, which no loss followed.
    exact fun hc _ => .now ⟨rfl, stamp_unlost parse (hd.hist.mono fun _ _ _ h => h.1) hc⟩
  asked _ _ _ _ h := h.step (by simp)
  release m h hcalm := by
    obtain ⟨c, hc, -, hcarried⟩ := h.connected
    exact hcarried hc hcalm

end Walk

/-! ## Runs -/

/-- A release of the barrier. -/
def isRelease : Entry → Bool
  | (_, .did .lampControlReleaseFailOff _) => true
  | _ => false

/-- A completed loss latches the barrier until the next release. -/
theorem loss_latches {Φ : Promise} {m : Moment} (hm : Hist (system parse) Boot Φ m)
    (hl : Since (fun e => !isRelease e) (fun e _ => isLoss e = true) m.trace) :
    m.world.lamp.lamp.failOffBarrier = true := by
  induction hm with
  | start hw => cases hl
  | @step m t e w _ he _ ih =>
    have kept : m.world.lamp.lamp.failOffBarrier = true → isRelease (t, e) = false →
        w.lamp.lamp.failOffBarrier = true := by
      intro hb hr
      rcases (effect_changes he).lamp with e' | ⟨-, e'⟩ | ⟨rfl, -⟩
      · rw [e']; exact hb
      · rw [e']
        exact (latched_step .forceInactive hb (by rintro (h | ⟨_, h, -⟩) <;> cases h)).2
      · cases hr
    rcases hl with hloss | ⟨hr, hl⟩
    · unfold isLoss at hloss
      split at hloss
      · rename_i status heq
        cases heq
        simp only [decide_eq_true_eq] at hloss
        subst hloss
        simp only [system_effect, effect_did, stepEffect, Option.ite_none_right_eq_some, Option.some.injEq] at he
        obtain ⟨hok, rfl⟩ := he
        rcases lampControlForceInactive_cases m.world.lamp with ⟨-, e'⟩ | ⟨-, hs, e'⟩ | ⟨-, -, e'⟩
        · rw [e'] at hok; cases hok
        · rw [e'] at hok; exact absurd hok.symm hs
        · simp [e']
      · cases hloss
    · exact kept (ih hl) (by simpa using hr)

theorem releasing_established : Established (system parse) Boot (Base.and CalmJustified) :=
  established_releasing fun _ timeoutMs _ => mqttCfgConnect_releasing (connectStart_releasing carries_justified timeoutMs)

/-- In a run whose every release finds no loss completed since its read of the
connected generation, every release is for a session that no loss has followed:
none completed since the connect event it was read from. And a loss that
completes after the last release leaves the barrier latched. -/
theorem released_justified {c : Config} (hr : (system parse).Run Boot c) (hcalm : Every (AtRelease Calm) c.trace) :
    Every (AtRelease Justified) c.trace ∧
      (Since (fun e => !isRelease e) (fun e _ => isLoss e = true) c.trace →
        c.world.lamp.lamp.failOffBarrier = true) := by
  have hm := (releasing_established parse).hist hr
  refine ⟨Every.imp ?_ hcalm, loss_latches parse hm⟩
  refine hm.every fun t e m hp => ?_
  cases e with
  | did o r => cases o with
    | lampControlReleaseFailOff => exact hp.2
    | _ => exact fun _ => trivial
  | _ => exact fun _ => trivial

/-! ## A run that loses its session in the window -/

/-- A broker configuration without client authentication. -/
def homeCfg : MqttCfg where
  schemaVersion := 1
  hostname := .ofStr _ (ascii "home.local")
  port := 8883
  clientId := .ofStr _ (ascii "klc")
  tlsMode := .mqtts
  authMode := .none
  caPath := .ofStr _ (ascii "/cert/ca.crt")
  clientCertPath := .ofStr _ []
  clientKeyPath := .ofStr _ []

/-- A lamp with one channel, initialized over a HAL that does not fail. -/
def readyLamp : Machine := run [.init (some ⟨some 4, (none, none, none), 1, 5000, .activeHigh⟩)] (.boot fun _ => .ok)

/-- The first locked section and the teardown of an apply that found generation `gen`. -/
def applyBegins (t : Tid) (gen : UInt32) : List Entry :=
  [(t, .call (.apply (some homeCfg))), (t, .did .lock ()), (t, .did (.loadGen .apply) gen),
   (t, .did (.storeGen .apply (gen + 1)) ()), (t, .did (.storeGen .connected 0) ()),
   (t, .did (.store .waitingForConnection false) ()), (t, .did (.writeVerifiedApplied false) ()),
   (t, .did .unlock ()), (t, .did .mqttConfigInvalidateVerified ()), (t, .did .mqttAppIsConnected false),
   (t, .did .mqttAppDeinit ())]

/-- The rest of it: the values are accepted. -/
def applySucceeds (t : Tid) : List Entry :=
  [(t, .did .lock ()), (t, .did (.writeVerifiedApplied false) ()),
   (t, .did (.mqttConfigApplyVerified (verifiedConfig homeCfg none)) .ok), (t, .did (.writeVerifiedApplied true) ()),
   (t, .did .unlock ()), (t, .ret (some .ok))]

/-- A connect up to its teardown of any old session. -/
def connectEnters (t : Tid) : List Entry :=
  [(t, .call (.connect 1000)), (t, .did .lock ()), (t, .did .readVerifiedApplied true),
   (t, .did .mqttConfigVerifiedIsCurrent true), (t, .did .mqttConfigGetVerifiedServerUrl (some [])),
   (t, .did .unlock ()), (t, .did .mqttAppDeinit ())]

/-- The wait state and the start of the transport. -/
def connectBegins (t : Tid) : List Entry :=
  [(t, .did .lock ()), (t, .did (.store .connectFailed false) ()), (t, .did (.store .authRejected false) ()),
   (t, .did (.storeGen .connected 0) ()), (t, .did (.store .waitingForConnection true) ()), (t, .did .unlock ()),
   (t, .did .mqttAppSetSafetyCallbacks ()), (t, .did .mqttAppInit ())]

/-- The session connects and stamps generation `gen`. -/
def transportConnects (gen : UInt32) : List Entry :=
  [(.transport, .call .onConnect), (.transport, .did (.load .waitingForConnection) true),
   (.transport, .did (.loadGen .apply) gen), (.transport, .did (.storeGen .connected gen) ()), (.transport, .ret none)]

/-- The session is lost. -/
def transportDisconnects : List Entry :=
  [(.transport, .call .onDisconnect), (.transport, .did (.store .waitingForConnection false) ()),
   (.transport, .did (.storeGen .connected 0) ()), (.transport, .did .lampControlForceInactive .ok),
   (.transport, .ret none)]

/-- An iteration of the poll loop that finds the connection of generation `gen`. -/
def pollReads (t : Tid) (gen : UInt32) : List Entry :=
  [(t, .did .lock ()), (t, .did (.loadGen .apply) gen), (t, .did (.loadGen .connected) gen),
   (t, .did (.load .connectFailed) false), (t, .did .mqttAppIsConnected true)]

/-- And accepts it. -/
def pollAccepts (t : Tid) : List Entry :=
  [(t, .did .mqttConfigVerifiedIsCurrent true), (t, .did .readVerifiedApplied true),
   (t, .did (.store .waitingForConnection false) ()), (t, .did .lampControlReleaseFailOff .ok), (t, .did .unlock ()),
   (t, .ret (some .ok))]

/-- An apply and a connect whose session stays up. -/
def homeRun : List Entry :=
  applyBegins (.task 0) 0 ++ applySucceeds (.task 0) ++ connectEnters (.task 0) ++ connectBegins (.task 0) ++
    transportConnects 1 ++ pollReads (.task 0) 1 ++ pollAccepts (.task 0)

/-- The same, with the session lost between the poll loop's reads and its release. -/
def lostRun : List Entry :=
  applyBegins (.task 0) 0 ++ applySucceeds (.task 0) ++ connectEnters (.task 0) ++ connectBegins (.task 0) ++
    transportConnects 1 ++ pollReads (.task 0) 1 ++ transportDisconnects ++ pollAccepts (.task 0)

/-- The configuration a sequence of events leads to, from the boot of a ready lamp. -/
def replayed (entries : List Entry) : Option Config :=
  (system fun _ => none).replay entries (System.boot (.boot readyLamp))

theorem replayed_run {entries : List Entry} {c : Config} (h : replayed entries = some c) :
    (system fun _ => none).Run Boot c ∧ c.trace = entries.reverse :=
  ⟨System.run_replay (.boot ⟨_, rfl⟩) h, (System.replay_trace h).trans (List.append_nil _)⟩

theorem released_justified_home : ∃ c, replayed homeRun = some c ∧ Every (AtRelease Justified) c.trace := by
  obtain ⟨c, hc⟩ := Option.isSome_iff_exists.1 (show (replayed homeRun).isSome = true by decide)
  obtain ⟨hr, htr⟩ := replayed_run hc
  exact ⟨c, hc, (released_justified _ hr (by rw [htr]; decide)).1⟩

/-- The connect returns `MQTT_CFG_OK` with the barrier released, after the callback
of the loss has completed its fail-off. -/
theorem released_behind_loss : ∃ c, replayed lostRun = some c ∧
    ¬ Every (AtRelease Justified) c.trace ∧ c.world.lamp.lamp.failOffBarrier = false := by
  obtain ⟨c, hc⟩ := Option.isSome_iff_exists.1 (show (replayed lostRun).isSome = true by decide)
  have hb : (replayed lostRun).map (·.world.lamp.lamp.failOffBarrier) = some false := by decide
  rw [hc] at hb
  exact ⟨c, hc, by rw [(replayed_run hc).2]; decide, by simpa using hb⟩

end LedLamp.Mqtt
