import LedLamp.AppMain.Portal
/-!
# The passes and their steps

`Supervise` takes a pass at once, given what it is answered; `Steps` takes it call by call, with
the Wi-Fi manager's thread in between. `supervise_refines` says that whatever the
steps come to at the end of a pass, `supervise` comes to with some answers, so that what is
proved of it holds of the steps; and that the steps restart the device only where it does.
-/

namespace LedLamp.AppMain

/-- What belongs to the gates, whose calls are not steps. -/
def SuperviseEvent.ofGate : SuperviseEvent → Bool
  | .gate _ => true
  | _ => false

/-- The calls of the supervisor itself. -/
def calls (trace : List SuperviseEvent) : List SuperviseEvent := trace.filter fun e => !e.ofGate

theorem calls_gate (events : List Event) (past : List SuperviseEvent) : calls (events.map .gate ++ past) = calls past := by
  induction events with
  | nil => rfl
  | cons e events ih => exact ih

namespace Steps

open Conc

/-- The variables are those of `w`, and the calls made. -/
structure Sim (w : Supervisor) (m : Moment) : Prop where
  gates : m.world.gates = w.gates
  networkBringupDone : m.world.networkBringupDone = w.networkBringupDone
  lastReported : m.world.lastReported = w.lastReported
  told : told m.trace = calls w.trace

/-- Passes with these calls end with the restart of the device. -/
def Stopped (k : SuperviseKconfig) (w : Supervisor) : Prop :=
  ∃ passes w', supervise k passes .boot = (false, w') ∧ w'.trace = w.trace

/-- Passes come to these variables and calls. -/
def Reached (k : SuperviseKconfig) (m : Moment) : Prop := ∃ passes w, supervise k passes .boot = (true, w) ∧ Sim w m

/-- A restart is one of the passes, and each pass ends where they do. -/
def Refines (k : SuperviseKconfig) : Promise := fun t e m =>
  match t, e with
  | .supervisor, .did (.tell x) _ => x = .espRestart →
    ∃ passes w, supervise k passes .boot = (false, w) ∧ calls w.trace = .espRestart :: told m.trace
  | .supervisor, .ret _ => Reached k m
  | _, _ => True

/-- A question whose answer does not depend on the variables, nor set them. -/
def Question.free : Question → Bool
  | .loadConfiguration | .connectVerifiedTls | .networkBringupDone | .lastReported | .reprovisionBackoff => false
  | _ => true

/-- From the variables and calls of `w` the program leads to some of which `Q` holds,
whatever the Wi-Fi manager's thread does, and restarts the device only where the passes do. -/
def Leads (k : SuperviseKconfig) {α : Type} (w : Supervisor) (p : Act α) (Q : α → Supervisor → Prop) : Prop :=
  Triple (system k) Boot (Sequential.and InTurn) (Refines k) .supervisor (Sim w) p fun a m => ∃ w', Q a w' ∧ Sim w' m

section Rules
variable {k : SuperviseKconfig} {w : Supervisor} {m : Moment} {t : Tid} {e : Event} {v v' : World} {α β : Type}
variable {Q R : α → Supervisor → Prop}

theorem told_other (h : ∀ x r, e ≠ .did (.tell x) r) (past : List Entry) : told ((t, e) :: past) = told past := by
  rw [told, List.filterMap_cons]
  split
  · rfl
  · rename_i heq
    split at heq
    · exact absurd ‹_› (h _ _)
    · cases heq

/-- What leaves the variables alone and makes no call. -/
theorem Sim.idle (h : Sim w m) (he : ∀ x r, e ≠ .did (.tell x) r) (hg : v.gates = m.world.gates)
    (hn : v.networkBringupDone = m.world.networkBringupDone) (hl : v.lastReported = m.world.lastReported) :
    Sim w (m.after t e v) :=
  ⟨hg.trans h.gates, hn.trans h.networkBringupDone, hl.trans h.lastReported, (told_other he _).trans h.told⟩

theorem stable_sim : Stable (system k) Boot (Sequential.and InTurn) (Refines k) .supervisor (Sim w) := by
  intro t e m v ht hd _ h
  cases t with
  | supervisor => exact absurd rfl ht
  | wifi =>
    cases e with
    | did o r =>
      obtain ⟨event, rfl, -⟩ := hd.known.2
      obtain rfl := Option.some.inj hd.effect
      refine h.idle (fun _ _ he => by cases he) ?_ ?_ ?_ <;> split <;> rfl
    | ret s =>
      obtain rfl := Option.some.inj hd.effect
      exact h.idle (fun _ _ he => by cases he) rfl rfl rfl
    | call call =>
      cases call with
      | pass bound => cases hd.effect
      | notify event =>
        have he : (if event = .none then none else some m.world) = some v := hd.effect
        simp only [Option.ite_none_left_eq_some, Option.some.injEq] at he
        obtain ⟨-, rfl⟩ := he
        exact h.idle (fun _ _ he => by cases he) rfl rfl rfl

theorem Leads.ret {a : α} (h : Q a w) : Leads k w (.ret a) Q := Triple.ret fun _ hs => ⟨w, h, hs⟩

theorem Leads.mono {p : Act α} (h : Leads k w p R) (hQ : ∀ a w', R a w' → Q a w') : Leads k w p Q :=
  h.conseq (fun _ _ hs => hs) fun a _ _ ⟨w', hR, hs⟩ => ⟨w', hQ a w' hR, hs⟩

theorem Leads.bind {p : Act β} {f : β → Act α} {S : β → Supervisor → Prop} (hp : Leads k w p S)
    (hf : ∀ b w', S b w' → Leads k w' (f b) Q) : Leads k w (p >>= f) Q :=
  Triple.bind _ hp fun b => .exists fun w' => .given fun hS => hf b w' hS

/-- One step, what its result says, and the variables and calls after it. -/
theorem Leads.step {o : Op} {f : Res o → Act α} (fact : Res o → Prop) (next : Res o → Supervisor) (ho : ∀ x, o ≠ .tell x)
    (hnext : ∀ m r v, Sim w m → stepEffect k m.world o r = some v →
      fact r ∧ Sim (next r) (m.after .supervisor (.did o r) v))
    (hf : ∀ r, fact r → Leads k (next r) (f r) Q) : Leads k w (act o >>= f) Q := by
  refine .perform (fun r m => fact r ∧ Sim (next r) m) stable_sim ?_ fun r => .given (hf r)
  refine fun m r v hd h => ⟨?_, hnext m r v h hd.effect⟩
  unfold Refines
  split
  · rename_i he
    exact absurd (Event.did.inj he).1 (ho _)
  · trivial
  · trivial

/-- Such a question changes nothing but the FIFO. -/
theorem ask_free {q : Question} {r : Res (.ask q)} (hq : q.free = true) (h : stepEffect k v (.ask q) r = some v') :
    ∃ fifo, v' = { v with fifo := fifo } := by
  cases q with
  | loadConfiguration | connectVerifiedTls | networkBringupDone | lastReported | reprovisionBackoff => cases hq
  | wifiProvisioningManagerPollEvent =>
    simp only [stepEffect] at h
    split at h
    all_goals
      simp only [Option.ite_none_right_eq_some, Option.some.injEq] at h
      exact ⟨_, h.2.symm⟩
  | _ => exact ⟨v.fifo, (Option.some.inj h).symm⟩

theorem Leads.ask {q : Question} {f : Res (.ask q) → Act α} (hq : q.free = true) (hf : ∀ r, Leads k w (f r) Q) :
    Leads k w (ask q >>= f) Q := by
  refine .step (fun _ => True) (fun _ => w) (fun _ h => by cases h) (fun m r v h he => ⟨trivial, ?_⟩) fun r _ => hf r
  obtain ⟨fifo, rfl⟩ := ask_free hq he
  exact h.idle (fun _ _ he => by cases he) rfl rfl rfl

/-- A read of a variable. -/
theorem Leads.read {q : Question} {x : Res (.ask q)} {f : Res (.ask q) → Act α}
    (hq : ∀ m r v, Sim w m → stepEffect k m.world (.ask q) r = some v → r = x ∧ m.world = v) (hf : Leads k w (f x) Q) :
    Leads k w (Steps.ask q >>= f) Q := by
  refine .step (· = x) (fun _ => w) (fun _ h => by cases h) (fun m r v h he => ?_) fun r hr => hr ▸ hf
  obtain ⟨hr, rfl⟩ := hq m r v h he
  exact ⟨hr, h.idle (fun _ _ he => by cases he) rfl rfl rfl⟩

theorem Leads.networkBringupDone {f : Bool → Act α} (hf : Leads k w (f w.networkBringupDone) Q) :
    Leads k w (Steps.ask .networkBringupDone >>= f) Q := by
  refine .read (fun m r v h he => ?_) hf
  simp only [stepEffect, Option.ite_none_right_eq_some, Option.some.injEq] at he
  exact ⟨he.1.trans h.networkBringupDone, he.2⟩

theorem Leads.lastReported {f : AppState → Act α} (hf : Leads k w (f w.lastReported) Q) :
    Leads k w (Steps.ask .lastReported >>= f) Q := by
  refine .read (fun m r v h he => ?_) hf
  simp only [stepEffect, Option.ite_none_right_eq_some, Option.some.injEq] at he
  exact ⟨he.1.trans h.lastReported, he.2⟩

theorem Leads.reprovisionBackoff {f : Bool × UInt32 → Act α}
    (hf : Leads k w (f (w.gates.reprovisionBackoffActive, w.gates.reprovisionRetryAtMs)) Q) :
    Leads k w (Steps.ask .reprovisionBackoff >>= f) Q := by
  refine .read (fun m r v h he => ?_) hf
  simp only [stepEffect, Option.ite_none_right_eq_some, Option.some.injEq] at he
  exact ⟨h.gates ▸ he.1, he.2⟩

/-- A gate, which is run as a whole. -/
theorem Leads.gate {q : Question} {f : Res (.ask q) → Act α} (passed : Res (.ask q) → Bool)
    (call : Res (.ask q) → Statics → Bool × Statics)
    (hq : ∀ r v v', stepEffect k v (.ask q) r = some v' →
      passed r = (call r v.gates).1 ∧ { v with gates := (call r v.gates).2 } = v')
    (hf : ∀ r, passed r = (w.gate (call r)).1 → Leads k (w.gate (call r)).2 (f r) Q) :
    Leads k w (Steps.ask q >>= f) Q := by
  refine .step (fun r => passed r = (w.gate (call r)).1) (fun r => (w.gate (call r)).2) (fun _ h => by cases h) ?_ hf
  intro m r v h he
  obtain ⟨hp, rfl⟩ := hq r m.world v he
  rw [h.gates] at hp ⊢
  refine ⟨hp, rfl, h.networkBringupDone, h.lastReported, ?_⟩
  rw [Moment.after_trace, told_other (fun _ _ he => by cases he), h.told]
  exact (calls_gate _ _).symm

theorem Leads.setNetworkBringupDone {f : Unit → Act α} (hf : Leads k { w with networkBringupDone := true } (f ()) Q) :
    Leads k w (act .setNetworkBringupDone >>= f) Q := by
  refine .step (fun _ => True) (fun _ => { w with networkBringupDone := true }) (fun _ h => by cases h) ?_ fun _ _ => hf
  intro m r v h he
  obtain rfl := Option.some.inj he
  exact ⟨trivial, h.gates, rfl, h.lastReported, h.told⟩

theorem Leads.setLastReported {state : AppState} {f : Unit → Act α} (hf : Leads k { w with lastReported := state } (f ()) Q) :
    Leads k w (act (.setLastReported state) >>= f) Q := by
  refine .step (fun _ => True) (fun _ => { w with lastReported := state }) (fun _ h => by cases h) ?_ fun _ _ => hf
  intro m r v h he
  obtain rfl := Option.some.inj he
  exact ⟨trivial, h.gates, h.networkBringupDone, rfl, h.told⟩

/-- A call that is not a restart. -/
theorem Leads.tell {x : SuperviseEvent} {f : Unit → Act α} (hx : x ≠ .espRestart) (hg : x.ofGate = false)
    (hf : Leads k (w.did x) (f ()) Q) : Leads k w (tell x >>= f) Q := by
  refine .perform (fun _ => Sim (w.did x)) stable_sim (fun m r v hd h => ⟨fun h => absurd h hx, ?_⟩) fun _ => hf
  obtain rfl := Option.some.inj hd.effect
  refine ⟨h.gates, h.networkBringupDone, h.lastReported, ?_⟩
  have hcalls : calls (w.did x).trace = x :: calls w.trace := by simp [calls, hg]
  rw [hcalls, ← h.told]
  rfl

/-- A restart, with which the passes end too. -/
theorem Leads.restart (hstop : Stopped k (w.did .espRestart)) : Leads k w espRestart Q := by
  obtain ⟨passes, w', hpasses, htrace⟩ := hstop
  refine .perform (fun _ _ => True) stable_sim (fun m r v hd h => ⟨fun _ => ⟨passes, w', hpasses, ?_⟩, trivial⟩) fun _ => ?_
  · rw [h.told, htrace]
    rfl
  · exact .op (fun _ _ => True) stable_true (fun _ r _ _ _ => r.elim) fun r => r.elim

theorem Leads.hang : Leads k w hang Q := Triple.op (fun _ _ => True) stable_sim (fun _ r _ _ _ => r.elim) fun r => r.elim

/-- A call at the end. -/
theorem Leads.last {Q : Unit → Supervisor → Prop} {x : SuperviseEvent} (hx : x ≠ .espRestart) (hg : x.ofGate = false)
    (hQ : Q () (w.did x)) : Leads k w (Steps.tell x) Q := Leads.tell (f := .ret) hx hg (.ret hQ)

end Rules

/-! ## The functions -/

section Functions
variable {k : SuperviseKconfig} {w : Supervisor}

theorem blinkRounds_leads (n : Nat) : Leads k w (blinkRounds n) fun _ w' => w' = AppMain.blinkRound^[n] w := by
  induction n generalizing w with
  | zero => exact .ret rfl
  | succ n ih =>
    have round : Leads k w blinkRound fun _ w' => w' = AppMain.blinkRound w :=
      .tell (by decide) rfl (.tell (by decide) rfl (.tell (by decide) rfl (.last (by decide) rfl rfl)))
    refine round.bind fun _ w' hw => ?_
    subst hw
    exact ih

theorem factoryResetErase_leads (eraseCredentials : Bool) (storage : Storage) :
    Leads k w (factoryResetErase eraseCredentials storage) fun erased w' =>
      AppMain.factoryResetErase eraseCredentials storage w = (erased, w') := by
  have blink : Leads k w factoryResetBlink fun _ w' => w' = AppMain.factoryResetBlink w :=
    .tell (by decide) rfl (blinkRounds_leads FACTORY_RESET_BLINK_COUNT)
  refine blink.bind fun _ w' hw => ?_
  subst hw
  refine .tell (by decide) rfl (.tell (by decide) rfl (.ret ?_))
  cases eraseCredentials <;> rfl

theorem pollFactoryReset_leads
    (hstop : ∀ a w', AppMain.pollFactoryReset k a w = (false, w') → Stopped k w') :
    Leads k w (pollFactoryReset k) fun _ w' => ∃ a, AppMain.pollFactoryReset k a w = (true, w') := by
  unfold pollFactoryReset
  split
  · rename_i hoff
    refine .ret ⟨⟨.boot, .idle⟩, ?_⟩
    simp only [AppMain.pollFactoryReset, hoff, Bool.true_or, if_true]
  rename_i hon
  have hon : k.factoryResetEnable = true := by simpa using hon
  refine .ask rfl fun state => ?_
  split
  · rename_i hota
    refine .ret ⟨⟨state, .idle⟩, ?_⟩
    simp [AppMain.pollFactoryReset, hota]
  rename_i hota
  refine .ask rfl fun _ => .ask rfl fun poll => ?_
  cases poll with
  | idle => exact .ret ⟨⟨state, .idle⟩, by simp [AppMain.pollFactoryReset, hon, hota]⟩
  | triggered eraseCredentials storage =>
    refine (factoryResetErase_leads eraseCredentials storage).bind fun erased w' he => ?_
    have h : AppMain.pollFactoryReset k ⟨state, .triggered eraseCredentials storage⟩ w =
        if erased then (false, w'.did .espRestart) else (true, w') := by
      simp [AppMain.pollFactoryReset, hon, hota, he]
    cases erased with
    | true => exact .restart (hstop _ _ h)
    | false => exact .ret ⟨_, h⟩

theorem deliverProvisioningEvents_leads (bound : Nat) : Leads k w (deliverProvisioningEvents bound) fun _ w' =>
    ∃ events, w' = AppMain.deliverProvisioningEvents events w := by
  induction bound generalizing w with
  | zero => exact .hang
  | succ bound ih =>
    refine .ask rfl fun state => ?_
    split
    · exact .ret ⟨[], rfl⟩
    rename_i hstate
    have more : ∀ (event : ProvisioningEvent) {next : Supervisor},
        (∀ events, AppMain.deliverProvisioningEvents ((state, event) :: events) w =
          AppMain.deliverProvisioningEvents events next) →
        Leads k next (deliverProvisioningEvents bound) fun _ w' =>
          ∃ events, w' = AppMain.deliverProvisioningEvents events w :=
      fun _ _ h => ih.mono fun _ w' ⟨events, hw⟩ => ⟨_ :: events, hw.trans (h events).symm⟩
    refine .ask rfl fun event => ?_
    cases event with
    | none => exact .ret ⟨[], rfl⟩
    | started =>
      dsimp only
      split
      · rename_i hn
        exact more .started fun events => by rw [AppMain.deliverProvisioningEvents, if_neg hstate, if_pos hn]
      · rename_i hn
        exact .tell (by decide) rfl (more .started fun events => by
          rw [AppMain.deliverProvisioningEvents, if_neg hstate, if_neg hn])
    | succeeded =>
      exact .tell (by decide) rfl (more .succeeded fun events => by rw [AppMain.deliverProvisioningEvents, if_neg hstate])
    | failed =>
      exact .tell (by decide) rfl (more .failed fun events => by rw [AppMain.deliverProvisioningEvents, if_neg hstate])

theorem superviseNetworkGate_leads (bound rounds waitedMs : Nat)
    (hstop : ∀ answers w', AppMain.superviseNetworkGate k answers waitedMs w = (false, w') → Stopped k w') :
    Leads k w (superviseNetworkGate k bound rounds waitedMs) fun _ w' =>
      ∃ answers, AppMain.superviseNetworkGate k answers waitedMs w = (true, w') := by
  have gate_end : Leads k w networkGateEnd fun _ w' =>
      ∃ answers, AppMain.superviseNetworkGate k answers waitedMs w = (true, w') :=
    .ask rfl fun _ => Leads.ask (f := .ret) rfl fun _ => .ret ⟨[], rfl⟩
  induction rounds generalizing waitedMs w with
  | zero => exact .hang
  | succ rounds ih =>
    refine .ask rfl fun connected => ?_
    split
    · exact gate_end
    split
    · exact gate_end
    rename_i hwaited
    refine .tell (by decide) rfl ((pollFactoryReset_leads fun a w' h => ?_).bind fun _ w₁ ⟨reset, hreset⟩ => ?_)
    · exact hstop [⟨a, [], .boot⟩] w' (by simp [AppMain.superviseNetworkGate, hwaited, h])
    refine (deliverProvisioningEvents_leads bound).bind fun _ w₂ ⟨events, hevents⟩ => .ask rfl fun state => ?_
    subst hevents
    split
    · rename_i hstate
      refine Leads.ask (f := .ret) rfl fun _ => .ret ⟨[⟨reset, events, state⟩], ?_⟩
      simp [AppMain.superviseNetworkGate, hwaited, hreset, hstate]
    · rename_i hstate
      have more : ∀ rest, AppMain.superviseNetworkGate k (⟨reset, events, state⟩ :: rest) waitedMs w =
          AppMain.superviseNetworkGate k rest (waitedMs + NETWORK_WAIT_POLL_INTERVAL_MS)
            ((AppMain.deliverProvisioningEvents events w₁).did (.osalTaskDelayMs NETWORK_WAIT_POLL_INTERVAL_MS)) := by
        intro rest
        simp [AppMain.superviseNetworkGate, hwaited, hreset, hstate]
      refine .tell (by decide) rfl ((ih _ (fun rest w' h => hstop _ w' ((more rest).trans h)) ?_).mono ?_)
      · exact .ask rfl fun _ => Leads.ask (f := .ret) rfl fun _ => .ret ⟨[], rfl⟩
      · exact fun _ w' ⟨rest, h⟩ => ⟨_ :: rest, (more rest).trans h⟩

theorem bringUpNetwork_leads : Leads k w bringUpNetwork fun up w' =>
    ∃ started, ∀ a : PassAnswers, a.networkManagerStart = started → AppMain.bringUpNetwork a w = (up, w') := by
  refine .networkBringupDone ?_
  split
  · rename_i hdone
    exact .ret ⟨true, fun a _ => by simp [AppMain.bringUpNetwork, hdone]⟩
  rename_i hdone
  refine .setNetworkBringupDone (.tell (by decide) rfl (.ask rfl fun started => ?_))
  cases started with
  | true =>
    refine .tell (by decide) rfl (.tell (by decide) rfl (.ret ⟨true, fun a ha => ?_⟩))
    simp [AppMain.bringUpNetwork, hdone, ha]
  | false =>
    refine .tell (by decide) rfl (.ret ⟨false, fun a ha => ?_⟩)
    simp [AppMain.bringUpNetwork, hdone, ha]

/-- The program does what `f` does in a pass in this state, with some answers. -/
def Serves (k : SuperviseKconfig) (state : AppState) (f : PassAnswers → Supervisor → Bool × Supervisor) (w : Supervisor)
    (p : Act Unit) : Prop :=
  (∀ a w', a.appStateCurrent = state → f a w = (false, w') → Stopped k w') →
    Leads k w p fun _ w' => ∃ a : PassAnswers, a.appStateCurrent = state ∧ f a w = (true, w')

/-- What the network gate is answered. -/
@[simps hasSavedCredentials rounds networkManagerIsConnected appStateAfter]
def networkAnswers (started saved : Bool) (rounds : List NetworkRound) (connected : Bool) (after : AppState) : PassAnswers :=
  { passIn .network with
    networkManagerStart := started
    hasSavedCredentials := saved
    rounds
    networkManagerIsConnected := connected
    appStateAfter := after }

theorem superviseNetwork_serves (bound : Nat) :
    Serves k .network (AppMain.superviseNetwork k) w (superviseNetwork k bound) := by
  intro hstop
  refine bringUpNetwork_leads.bind fun up w₁ ⟨started, hup⟩ => ?_
  have hup : ∀ saved rounds connected after,
      AppMain.bringUpNetwork (networkAnswers started saved rounds connected after) w = (up, w₁) := fun _ _ _ _ => hup _ rfl
  cases up with
  | false =>
    refine .ret ⟨networkAnswers started true [] true .network, rfl, ?_⟩
    simp [AppMain.superviseNetwork, hup]
  | true =>
    refine .ask rfl fun saved => ?_
    cases saved with
    | false =>
      refine .ret ⟨networkAnswers started false [] true .network, rfl, ?_⟩
      simp [AppMain.superviseNetwork, hup]
    | true =>
      have gate : ∀ {rounds runs w₂} connected after,
          AppMain.superviseNetworkGate k rounds 0 (w₁.did .networkManagerReconnect) = (runs, w₂) →
          AppMain.superviseNetwork k (networkAnswers started true rounds connected after) w =
            if runs && after = .network then
              (true, w₂.did (.appStateDeliver (if connected then .networkConnected else .networkFailed) .network))
            else (runs, w₂) := by
        intro rounds runs w₂ connected after h
        by_cases hn : after = .network <;> cases runs <;>
          simp [AppMain.superviseNetwork, hup, h, hn]
      refine .tell (by decide) rfl ((superviseNetworkGate_leads bound NETWORK_GATE_ROUNDS 0 fun rounds w' h => ?_).bind
        fun connected w₂ ⟨rounds, h⟩ => .ask rfl fun state => ?_)
      · exact hstop (networkAnswers started true rounds true .network) w' rfl (gate true .network h)
      split
      · rename_i hn
        refine Leads.last (by cases connected <;> decide) rfl ⟨networkAnswers started true rounds connected state, rfl, ?_⟩
        rw [gate connected state h]
        simp [hn]
      · rename_i hn
        refine .ret ⟨networkAnswers started true rounds connected state, rfl, ?_⟩
        rw [gate connected state h]
        simp [hn]

theorem superviseFilesystem_leads : Leads k w superviseFilesystem fun _ w' =>
    ∃ mounted, w' = AppMain.superviseFilesystem { passIn .filesystem with lampFsInit := mounted } w := by
  refine .tell (by decide) rfl (.ask rfl fun mounted => ?_)
  exact .last (by cases mounted <;> decide) rfl ⟨mounted, rfl⟩

theorem superviseConfiguration_leads : Leads k w superviseConfiguration fun _ w' =>
    ∃ configuration, w' = AppMain.superviseConfiguration { passIn .configuration with configuration } w := by
  refine .gate (·.2) (fun r => loadConfiguration r.1) (fun r v v' h => ?_) fun r h => ?_
  · simpa only [stepEffect, Option.ite_none_right_eq_some, Option.some.injEq] using h
  · obtain ⟨a, loaded⟩ := r
    obtain rfl : loaded = (w.gate (loadConfiguration a)).1 := h
    refine Leads.last ?_ rfl ⟨a, rfl⟩
    cases (w.gate (loadConfiguration a)).1 <;> decide

theorem superviseTls_leads : Leads k w superviseTls fun _ w' =>
    ∃ now gate, w' = AppMain.superviseTls k { passIn .tls with osalTaskGetTimeMs := now, gate } w := by
  have backoff : Leads k w backoffLasts fun lasts w' => w' = w ∧ ∃ now, backoffRunning now w.gates = lasts := by
    refine .reprovisionBackoff ?_
    dsimp only
    split
    · rename_i hactive
      refine .ask rfl fun now => .ret ⟨rfl, now, ?_⟩
      simp [backoffRunning, hactive]
    · rename_i hactive
      refine .ret ⟨rfl, 0, ?_⟩
      simp [backoffRunning, hactive]
  refine backoff.bind fun lasts w' ⟨hw, now, hnow⟩ => ?_
  subst hw
  split
  · rename_i hlasts
    refine .ret ⟨now, gateOpens, ?_⟩
    rw [AppMain.superviseTls, if_pos (hnow.trans hlasts)]
  · rename_i hlasts
    refine .gate (·.2) (fun r => connectVerifiedTls k.toKconfig r.1) (fun r v v' h => ?_) fun r h => ?_
    · simpa only [stepEffect, Option.ite_none_right_eq_some, Option.some.injEq] using h
    · obtain ⟨a, connected⟩ := r
      obtain rfl : connected = (w'.gate (connectVerifiedTls k.toKconfig a)).1 := h
      refine Leads.last ?_ rfl ⟨now, a, ?_⟩
      · cases (w'.gate (connectVerifiedTls k.toKconfig a)).1 <;> decide
      · rw [AppMain.superviseTls, if_neg fun h => hlasts (hnow.symm.trans h)]

theorem superviseSync_leads : Leads k w superviseSync fun _ w' =>
    ∃ synchronized, w' = AppMain.superviseSync { passIn .sync with isSynchronized := synchronized } w := by
  refine .tell (by decide) rfl (.ask rfl fun synchronized => ?_)
  cases synchronized with
  | true => exact .tell (by decide) rfl (.tell (by decide) rfl (.last (by decide) rfl ⟨true, rfl⟩))
  | false => exact .ret ⟨false, rfl⟩

/-- The callbacks make no call of the supervisor's, but for the restart. -/
theorem otaCallbacks_leads (callbacks : List OtaCallback) (hstop : Stopped k (w.did .espRestart)) :
    Leads k w (otaCallbacks callbacks) fun _ w' => w' = w := by
  have step : ∀ {o : OtaStep} {w : Supervisor} {f : Unit → Act Unit} {Q : Unit → Supervisor → Prop},
      Leads k w (f ()) Q → Leads k w (act (.ota o) >>= f) Q := by
    intro o w f Q hf
    refine .step (fun _ => True) (fun _ => w) (fun _ h => by cases h) (fun m r v h he => ⟨trivial, ?_⟩) fun _ _ => hf
    obtain rfl := Option.some.inj he
    exact h.idle (fun _ _ he => by cases he) rfl rfl rfl
  induction callbacks with
  | nil => exact .ret rfl
  | cons callback rest ih =>
    refine Leads.bind (S := fun _ w' => w' = w) ?_ fun _ w' hw => hw ▸ ih
    cases callback with
    | started => exact step (step (f := .ret) (.ret rfl))
    | failed => exact step (step (f := .ret) (.ret rfl))
    | restarting => exact step (f := .ret) (.ret rfl)
    | indicator on => exact step (step (f := .ret) (.ret rfl))
    | restart => exact .restart hstop

theorem pollOtaManager_leads (hstop : Stopped k ((w.did .otaManagerPoll).did .espRestart)) :
    Leads k w pollOtaManager fun _ w' => w' = w.did .otaManagerPoll :=
  .tell (by decide) rfl (.ask rfl fun callbacks => otaCallbacks_leads callbacks hstop)

/-- What the online state is answered, and the update. -/
@[simps]
def onlineAnswers (state : AppState) (hint restarts : Bool) (after : AppState) (connected : Bool) : PassAnswers :=
  { passIn state with
    firmwareHint := hint
    otaRestarts := restarts
    appStateAfter := after
    networkManagerIsConnected := connected }

theorem superviseOnline_serves : Serves k .online AppMain.superviseOnline w superviseOnline := by
  intro hstop
  refine .tell (by decide) rfl (.ask rfl fun hint => ?_)
  -- what is left of the pass after the hint
  have rest : ∀ w₁, w₁ = (if hint then (w.did .tbApplicationPoll).did .otaManagerRequestCheck else w.did .tbApplicationPoll) →
      Leads k w₁ (do
        pollOtaManager
        let state ← ask .appStateCurrent
        if state ≠ .online then return ()
        else if ← ask .networkManagerIsConnected then return ()
        else deliver .disconnected .network : Act Unit) fun _ w' =>
        ∃ a : PassAnswers, a.appStateCurrent = .online ∧ AppMain.superviseOnline a w = (true, w') := by
    intro w₁ hw
    have online : ∀ after connected, AppMain.superviseOnline (onlineAnswers .online hint false after connected) w =
        (true, if after = .online ∧ connected = false
          then (w₁.did .otaManagerPoll).did (.appStateDeliver .disconnected .network) else w₁.did .otaManagerPoll) := by
      intro after connected
      by_cases hn : after = .online <;> cases connected <;>
        simp [AppMain.superviseOnline, AppMain.pollOtaManager, hw, hn]
    refine (pollOtaManager_leads ?_).bind fun _ w₂ hw₂ => .ask rfl fun state => ?_
    · refine hstop (onlineAnswers .online hint true .online true) _ rfl ?_
      simp [AppMain.superviseOnline, AppMain.pollOtaManager, hw]
    subst hw₂
    split
    · rename_i hn
      refine .ret ⟨onlineAnswers .online hint false state true, rfl, ?_⟩
      simp [online]
    rename_i hn
    refine .ask rfl fun connected => ?_
    split
    · refine .ret ⟨onlineAnswers .online hint false .online true, rfl, ?_⟩
      simp [online]
    · refine Leads.last (by decide) rfl ⟨onlineAnswers .online hint false .online false, rfl, ?_⟩
      simp [online]
  cases hint with
  | false => exact rest _ rfl
  | true => exact .tell (by decide) rfl (rest _ rfl)

theorem superviseOta_serves :
    Serves k .ota AppMain.superviseOta w (superviseOta (w.lastReported ≠ .ota)) := by
  intro hstop
  have ota : ∀ restarts, AppMain.superviseOta (onlineAnswers .ota false restarts .ota true) w =
      AppMain.pollOtaManager (onlineAnswers .ota false restarts .ota true)
        ((if .ota ≠ w.lastReported then w.did .wifiProvisioningManagerStop else w).did .tbApplicationPoll) := fun _ => rfl
  have rest : ∀ w₁, w₁ = (if .ota ≠ w.lastReported then w.did .wifiProvisioningManagerStop else w) → Leads k w₁ (do
      tell .tbApplicationPoll
      let _ ← ask .takeFirmwareHint
      pollOtaManager : Act Unit) fun _ w' =>
      ∃ a : PassAnswers, a.appStateCurrent = .ota ∧ AppMain.superviseOta a w = (true, w') := by
    intro w₁ hw
    subst hw
    refine .tell (by decide) rfl (.ask rfl fun _ => (pollOtaManager_leads ?_).mono fun _ w' hw => ?_)
    · refine hstop (onlineAnswers .ota false true .ota true) _ rfl ?_
      rw [ota]
      simp [AppMain.pollOtaManager]
    · subst hw
      refine ⟨onlineAnswers .ota false false .ota true, rfl, ?_⟩
      rw [ota]
      simp [AppMain.pollOtaManager]
  unfold superviseOta
  split
  · rename_i hentered
    have hne : AppState.ota ≠ w.lastReported := fun h => of_decide_eq_true hentered h.symm
    exact .tell (by decide) rfl (rest _ (by rw [if_pos hne]))
  · rename_i hentered
    have he : ¬ AppState.ota ≠ w.lastReported := fun h => hentered (decide_eq_true fun h' => h h'.symm)
    exact rest _ (by rw [if_neg he])

theorem superviseSafeOff_serves : Serves k .safeOff AppMain.superviseSafeOff w superviseSafeOff := by
  intro hstop
  have safe : ∀ now exhausted, AppMain.superviseSafeOff
      { passIn .safeOff with osalTaskGetTimeMs := now, retryExhausted := exhausted } w =
      if w.gates.reprovisionBackoffActive && exhausted && (now - w.gates.reprovisionRetryAtMs).toInt32 ≥ 0 then
        (false, w.did .espRestart) else (true, w) := fun _ _ => rfl
  refine .ask rfl fun _ => .ask rfl fun exhausted => .reprovisionBackoff ?_
  dsimp only
  split
  · rename_i hexhausted
    refine .ask rfl fun now => ?_
    split
    · rename_i hnow
      exact .restart (hstop _ _ rfl ((safe now exhausted).trans (if_pos (by simp_all))))
    · rename_i hnow
      exact .ret ⟨_, rfl, (safe now exhausted).trans (if_neg (by simp_all))⟩
  · rename_i hexhausted
    exact .ret ⟨_, rfl, (safe 0 exhausted).trans (if_neg (by simp_all))⟩

theorem Serves.serve {state : AppState} {f : PassAnswers → Supervisor → Bool × Supervisor} {p : Act Unit}
    (h : Serves k state f w p) (hf : ∀ a : PassAnswers, a.appStateCurrent = state → AppMain.serveState k a w = f a w) :
    Serves k state (AppMain.serveState k) w p := by
  intro hstop
  refine (h fun a w' ha h => hstop a w' ha ((hf a ha).trans h)).mono fun _ w' ⟨a, ha, h⟩ => ?_
  exact ⟨a, ha, (hf a ha).trans h⟩

theorem serveState_serves (bound : Nat) (state : AppState) :
    Serves k state (AppMain.serveState k) w (serveState k bound w.lastReported state) := by
  have still : ∀ state, AppMain.serveState k (passIn state) w = (true, w) →
      Serves k state (AppMain.serveState k) w (return ()) := fun state h _ => .ret ⟨passIn state, rfl, h⟩
  cases state with
  | boot => exact still .boot rfl
  | provisioning => exact still .provisioning rfl
  | filesystem =>
    refine fun _ => superviseFilesystem_leads.mono ?_
    rintro _ w' ⟨mounted, h⟩
    exact ⟨{ passIn .filesystem with lampFsInit := mounted }, rfl, by rw [h]; rfl⟩
  | configuration =>
    refine fun _ => superviseConfiguration_leads.mono ?_
    rintro _ w' ⟨configuration, h⟩
    exact ⟨{ passIn .configuration with configuration }, rfl, by rw [h]; rfl⟩
  | network => exact (superviseNetwork_serves bound).serve fun a ha => by rw [AppMain.serveState, ha]
  | tls =>
    refine fun _ => superviseTls_leads.mono ?_
    rintro _ w' ⟨now, gate, h⟩
    exact ⟨{ passIn .tls with osalTaskGetTimeMs := now, gate }, rfl, by rw [h]; rfl⟩
  | sync =>
    refine fun _ => superviseSync_leads.mono ?_
    rintro _ w' ⟨synchronized, h⟩
    exact ⟨{ passIn .sync with isSynchronized := synchronized }, rfl, by rw [h]; rfl⟩
  | online => exact superviseOnline_serves.serve fun a ha => by rw [AppMain.serveState, ha]
  | safeOff => exact superviseSafeOff_serves.serve fun a ha => by rw [AppMain.serveState, ha]
  | fatal => exact fun _ => .last (by decide) rfl ⟨passIn .fatal, rfl, rfl⟩
  | ota => exact superviseOta_serves.serve fun a ha => by rw [AppMain.serveState, ha]

/-- The answers of a pass, from those of its parts. -/
@[simps reset provisioning appStateCurrent]
def passAnswers (reset : ResetAnswers) (provisioning : List (AppState × ProvisioningEvent)) (a : PassAnswers) : PassAnswers :=
  { a with reset, provisioning }

theorem serveState_passAnswers (reset : ResetAnswers) (provisioning : List (AppState × ProvisioningEvent)) (a : PassAnswers)
    (w : Supervisor) : AppMain.serveState k (passAnswers reset provisioning a) w = AppMain.serveState k a w := rfl

theorem supervisePass_leads (bound : Nat)
    (hstop : ∀ a w' w'', AppMain.supervisePass k a w = (false, w') → w''.trace = w'.trace → Stopped k w'') :
    Leads k w (supervisePass k bound) fun _ w' => ∃ a, AppMain.supervisePass k a w = (true, w') := by
  have pass : ∀ {reset events a w₁ runs w₂}, AppMain.pollFactoryReset k reset w = (true, w₁) →
      AppMain.serveState k a
        (AppMain.deliverProvisioningEvents events ((w₁.did .appStatePoll).did .serviceThingsboardConnection)) = (runs, w₂) →
      AppMain.supervisePass k (passAnswers reset events a) w =
        (runs, let w₃ := if a.appStateCurrent = .fatal then w₂ else { w₂ with lastReported := a.appStateCurrent }
          if runs then w₃.did (.osalTaskDelayMs APP_SUPERVISE_PERIOD_MS) else w₃) := by
    intro reset events a w₁ runs w₂ hreset hserve
    cases runs <;>
      simp [AppMain.supervisePass, AppMain.superviseIteration, hreset, feed, serveState_passAnswers, hserve]
  have iteration : Leads k w (superviseIteration k bound) fun _ w' =>
      ∃ a, AppMain.supervisePass k a w = (true, w'.did (.osalTaskDelayMs APP_SUPERVISE_PERIOD_MS)) := by
    refine (pollFactoryReset_leads fun reset w' h => ?_).bind fun _ w₁ hpoll => ?_
    · refine hstop { passIn .boot with reset } w' w' ?_ rfl
      simp [AppMain.supervisePass, AppMain.superviseIteration, h]
    obtain ⟨reset, hreset⟩ := hpoll
    refine .tell (by decide) rfl (.tell (by decide) rfl ((deliverProvisioningEvents_leads bound).bind
      fun _ w₂ hpump => .ask rfl fun current => .lastReported ?_))
    obtain ⟨events, rfl⟩ := hpump
    refine (serveState_serves bound current fun a w' ha h => ?_).bind fun _ w₃ hserved => ?_
    · refine hstop _ _ w' (pass hreset h) ?_
      dsimp only
      rw [if_neg Bool.false_ne_true]
      split <;> rfl
    · obtain ⟨a, ha, hserve⟩ := hserved
      have h := pass hreset hserve
      rw [ha] at h
      split
      · rename_i hfatal
        rw [if_neg hfatal] at h
        exact .setLastReported (f := .ret) (.ret ⟨_, h⟩)
      · rename_i hfatal
        rw [if_pos (not_not.1 hfatal)] at h
        exact .ret ⟨_, h⟩
  exact iteration.bind fun _ w' h => .last (by decide) rfl h

end Functions

/-! ## Runs -/

section Runs
variable {k : SuperviseKconfig}

theorem stable_reached : Stable (system k) Boot (Sequential.and InTurn) (Refines k) .supervisor (Reached k) :=
  fun t e m v ht hd hp ⟨passes, w, hw, hs⟩ => ⟨passes, w, hw, stable_sim t e m v ht hd hp hs⟩

/-- Where a supervisor at rest is, the passes can be. -/
theorem idle_reached {m : Moment} (hm : Hist (system k) Boot ((Sequential.and InTurn).and (Refines k)) m)
    (hi : Idle .supervisor m.trace) : Reached k m := by
  refine stable_reached.idle (fun w hw => ?_) (fun s m v hd hp => ?_) hm hi
  · cases hw
    exact ⟨[], .boot, rfl, rfl, rfl, rfl, rfl⟩
  · obtain ⟨passes, w, hw, hs⟩ := hp
    obtain rfl := Option.some.inj hd.effect
    exact ⟨passes, w, hw, hs.idle (fun _ _ he => by cases he) rfl rfl rfl⟩

theorem supervisePass_reached (bound : Nat) : Triple (system k) Boot (Sequential.and InTurn) (Refines k) .supervisor
    (Reached k) (supervisePass k bound) fun _ => Reached k := by
  refine .exists fun passes => .exists fun w => .given fun hw => ?_
  have next : ∀ a, supervise k (passes ++ [a]) .boot = AppMain.supervisePass k a w := by
    intro a
    rw [supervise_concat, hw, if_pos rfl]
  have h := supervisePass_leads (w := w) bound fun a w' w'' h he => ⟨passes ++ [a], w', (next a).trans h, he.symm⟩
  exact h.conseq (fun _ _ hs => hs) fun _ _ _ ⟨w', ⟨a, h⟩, hs⟩ => ⟨passes ++ [a], w', (next a).trans h, hs⟩

theorem established_refines : Established (system k) Boot ((Sequential.and InTurn).and (Refines k)) := by
  refine established established_inTurn fun t call => ?_
  cases t with
  | supervisor =>
    cases call with
    | notify event => exact fun m w hd => by cases hd.effect
    | pass bound =>
      refine Fulfils.of_triple (Reached k) (fun _ => Reached k) (fun m v hd => ⟨trivial, ?_⟩) (supervisePass_reached bound)
        (fun _ => stable_reached) fun _ _ _ _ h => h
      obtain ⟨passes, w, hw, hs⟩ := idle_reached hd.hist (hd.known.1 _ rfl)
      obtain rfl := Option.some.inj hd.effect
      exact ⟨passes, w, hw, hs.idle (fun _ _ he => by cases he) rfl rfl rfl⟩
  | wifi =>
    exact Fulfils.of_triple (fun _ => True) (fun _ _ => True) (fun _ _ _ => ⟨trivial, trivial⟩)
      (.free (Prog.Uses.of_forall (fun _ _ _ _ _ _ => ⟨trivial, trivial⟩) _)) (fun _ => stable_true) fun _ _ _ _ _ => trivial

/-- Where the steps are between two passes, `supervise` comes to with some answers: with the
same variables and the same calls, in the same order. And where they restart the device, so
does `supervise`, after the same calls. -/
theorem steps_refine {c : Config} (hr : (system k).Run Boot c) :
    (Idle .supervisor c.trace → ∃ passes w, supervise k passes .boot = (true, w) ∧ Sim w c.moment) ∧
      Every (fun entry past => entry = (.supervisor, .did (.tell .espRestart) ()) →
        ∃ passes w, supervise k passes .boot = (false, w) ∧ calls w.trace = .espRestart :: told past) c.trace := by
  have hm := established_refines.hist hr
  refine ⟨fun hi => idle_reached hm hi, hm.every fun t e m h he => ?_⟩
  obtain ⟨rfl, rfl⟩ := Prod.mk.inj he
  exact h.2 rfl

theorem steps_refine_portal : ∃ c, (system defaultSuperviseKconfig).Run Boot c ∧
    .appStateDeliver .provisioningStarted .network ∈ told c.trace ∧
    ∃ passes w, supervise defaultSuperviseKconfig passes .boot = (true, w) ∧ Sim w c.moment := by
  obtain ⟨c, hr, -, -, hrest, htold, -⟩ := portalOpens_run
  exact ⟨c, hr, htold, (steps_refine hr).1 hrest⟩

end Runs

end Steps

end LedLamp.AppMain
