import LedLamp.AppMain.Reads
/-!
# The portal and the bring-up of the network

A thread of the Wi-Fi manager fills the adapter's FIFO, the supervisor empties it in two loops.
`events_delivered` says that no event is lost or delivered twice on that way.
`network_started_once` is about the bring-up: the network is started once at most,
also if the start fails, and the portal is set up once at most, after a start that succeeded.
-/

namespace LedLamp.AppMain

/-- The outcomes of the portal. -/
def AppEvent.ofPortal : AppEvent → Bool
  | .provisioningStarted | .provisioningSucceeded | .provisioningFailed => true
  | _ => false

namespace Steps

open Conc

/-- The steps that change the FIFO. -/
def Op.queues : Op → Bool
  | .ask .wifiProvisioningManagerPollEvent | .push _ => true
  | _ => false

/-- These, and the deliveries of the pump. -/
def Op.pumps : Op → Bool
  | .tell (.appStateDeliver event _) => event.ofPortal
  | o => o.queues

/-- The steps of the bring-up. -/
def Op.bringsUp : Op → Bool
  | .setNetworkBringupDone | .tell .networkManagerStart | .ask .networkManagerStart | .tell .mongooseProcessInit
  | .tell .wifiProvisioningManagerInit => true
  | _ => false

def Op.plain (o : Op) : Bool := !o.pumps && !o.bringsUp

/-! ## What a pass keeps -/

theorem aside_plain {o : Op} (h : o.aside = true) : o.plain = true := by
  unfold Op.aside at h
  split at h
  all_goals first
    | rfl
    | cases h

theorem pollFactoryReset_plain (k : SuperviseKconfig) : (pollFactoryReset k).Uses fun o => o.plain = true := by
  unfold pollFactoryReset
  split
  · trivial
  refine .perform rfl fun state => ?_
  split
  · trivial
  refine .perform rfl fun _ => .perform rfl fun poll => ?_
  cases poll with
  | idle => trivial
  | triggered eraseCredentials storage => exact (factoryReset_uses eraseCredentials storage).mono fun _ => aside_plain

theorem superviseTls_plain : superviseTls.Uses fun o => o.plain = true := by
  have backoff : backoffLasts.Uses fun o => o.plain = true := by
    refine .perform rfl fun r => ?_
    obtain ⟨active, retryAtMs⟩ := r
    cases active with
    | false => trivial
    | true => exact .perform rfl fun _ => trivial
  refine backoff.bind fun lasts => ?_
  split
  · trivial
  · refine .perform rfl fun r => ?_
    obtain ⟨a, connected⟩ := r
    cases connected <;> exact ⟨rfl, fun _ => trivial⟩

theorem pollOtaManager_plain : pollOtaManager.Uses fun o => o.plain = true :=
  .perform rfl fun _ => .perform rfl fun callbacks => (otaCallbacks_uses callbacks).mono fun _ => aside_plain

theorem superviseOnline_plain : superviseOnline.Uses fun o => o.plain = true := by
  have rest : (do
      pollOtaManager
      let state ← ask .appStateCurrent
      if state ≠ .online then return ()
      else if ← ask .networkManagerIsConnected then return ()
      else deliver .disconnected .network : Act Unit).Uses fun o => o.plain = true := by
    refine pollOtaManager_plain.bind fun _ => .perform rfl fun state => ?_
    split
    · trivial
    · refine .perform rfl fun connected => ?_
      split
      · trivial
      · exact ⟨rfl, fun _ => trivial⟩
  refine .perform rfl fun _ => .perform rfl fun hint => ?_
  cases hint with
  | false => exact rest
  | true => exact .perform rfl fun _ => rest

theorem superviseOta_plain (entered : Bool) : (superviseOta entered).Uses fun o => o.plain = true := by
  cases entered with
  | false => exact .perform rfl fun _ => .perform rfl fun _ => pollOtaManager_plain
  | true => exact .perform rfl fun _ => .perform rfl fun _ => .perform rfl fun _ => pollOtaManager_plain

/-- Only the network gate pumps and brings up anything. -/
theorem serveState_plain (k : SuperviseKconfig) (bound : Nat) (lastReported : AppState) {state : AppState}
    (h : state ≠ .network) : (serveState k bound lastReported state).Uses fun o => o.plain = true := by
  cases state with
  | network => exact absurd rfl h
  | filesystem =>
    refine .perform rfl fun _ => .perform rfl fun mounted => ?_
    cases mounted <;> exact ⟨rfl, fun _ => trivial⟩
  | configuration =>
    refine .perform rfl fun r => ?_
    obtain ⟨a, loaded⟩ := r
    cases loaded <;> exact ⟨rfl, fun _ => trivial⟩
  | tls => exact superviseTls_plain
  | sync =>
    refine .perform rfl fun _ => .perform rfl fun synchronized => ?_
    split
    · exact .perform rfl fun _ => .perform rfl fun _ => ⟨rfl, fun _ => trivial⟩
    · trivial
  | online => exact superviseOnline_plain
  | safeOff => exact superviseSafeOff_uses.mono fun _ => aside_plain
  | fatal => exact ⟨rfl, fun _ => trivial⟩
  | ota => exact superviseOta_plain _
  | boot => trivial
  | provisioning => trivial

section Kept
variable {k : SuperviseKconfig} {K Φ : Promise} {A : Assertion}

/-- An assertion that the pump, the bring-up and every other step of a pass keep. -/
structure Kept (k : SuperviseKconfig) (K Φ : Promise) (A : Assertion) : Prop where
  stable : Stable (system k) Boot K Φ .supervisor A
  plain : ∀ o : Op, o.plain = true → Conc.Keeps (system k) Boot K Φ .supervisor A o
  pump : ∀ bound, Triple (system k) Boot K Φ .supervisor A (deliverProvisioningEvents bound) fun _ => A
  bringUp : Triple (system k) Boot K Φ .supervisor A bringUpNetwork fun _ => A

theorem Kept.uses (h : Kept k K Φ A) {α : Type} {p : Act α} (hp : p.Uses fun o => o.plain = true) :
    Triple (system k) Boot K Φ .supervisor A p fun _ => A := .uses h.stable (hp.mono h.plain)

theorem Kept.step (h : Kept k K Φ A) {α : Type} {o : Op} {next : Res o → Act α} {Q : α → Assertion} (ho : o.plain = true)
    (hnext : ∀ r, Triple (system k) Boot K Φ .supervisor A (next r) Q) :
    Triple (system k) Boot K Φ .supervisor A (act o >>= next) Q := .keep h.stable (h.plain o ho) hnext

theorem Kept.gate (h : Kept k K Φ A) (bound rounds waitedMs : Nat) :
    Triple (system k) Boot K Φ .supervisor A (superviseNetworkGate k bound rounds waitedMs) fun _ => A := by
  have gate_end : networkGateEnd.Uses fun o => o.plain = true := .perform rfl fun _ => ⟨rfl, fun _ => trivial⟩
  induction rounds generalizing waitedMs with
  | zero => exact h.uses ⟨rfl, fun r => r.elim⟩
  | succ rounds ih =>
    refine h.step rfl fun connected => ?_
    split
    · exact h.uses gate_end
    split
    · exact h.uses gate_end
    refine h.step rfl fun _ => (h.uses (pollFactoryReset_plain k)).bind _ fun _ => (h.pump bound).bind _ fun _ =>
      h.step rfl fun state => ?_
    split
    · exact h.uses ⟨rfl, fun _ => trivial⟩
    · exact h.step rfl fun _ => ih _

theorem Kept.network (h : Kept k K Φ A) (bound : Nat) :
    Triple (system k) Boot K Φ .supervisor A (superviseNetwork k bound) fun _ => A := by
  refine h.bringUp.bind _ fun up => ?_
  cases up with
  | false => exact .ret fun _ ha => ha
  | true =>
    refine h.step rfl fun credentialed => ?_
    split
    · refine h.step rfl fun _ => (h.gate bound NETWORK_GATE_ROUNDS 0).bind _ fun connected => h.step rfl fun state => ?_
      split
      · cases connected <;> exact h.uses ⟨rfl, fun _ => trivial⟩
      · exact .ret fun _ ha => ha
    · exact .ret fun _ ha => ha

theorem Kept.pass (h : Kept k K Φ A) (bound : Nat) :
    Triple (system k) Boot K Φ .supervisor A (supervisePass k bound) fun _ => A := by
  have serve : ∀ lastReported state, Triple (system k) Boot K Φ .supervisor A (serveState k bound lastReported state)
      fun _ => A := by
    intro lastReported state
    by_cases hn : state = .network
    · subst hn
      exact h.network bound
    · exact h.uses (serveState_plain k bound lastReported hn)
  have iteration : Triple (system k) Boot K Φ .supervisor A (superviseIteration k bound) fun _ => A := by
    refine (h.uses (pollFactoryReset_plain k)).bind _ fun _ => h.step rfl fun _ => h.step rfl fun _ =>
      (h.pump bound).bind _ fun _ => h.step rfl fun current => h.step rfl fun lastReported =>
      (serve lastReported current).bind _ fun _ => ?_
    split
    · exact h.uses ⟨rfl, fun _ => trivial⟩
    · exact .ret fun _ ha => ha
  exact iteration.bind _ fun _ => h.uses ⟨rfl, fun _ => trivial⟩

end Kept

/-! ## The events -/

/-- What the adapter has stored, newest first. -/
def stored (trace : List Entry) : List ProvisioningEvent :=
  trace.filterMap fun entry =>
    match entry.2 with
    | .did (.push event) true => some event
    | _ => none

/-- What an event polled in this state is to be delivered as; a duplicate start is dropped. -/
def delivery : Option AppState × ProvisioningEvent → Option AppEvent
  | (_, .none) => none
  | (state, .started) => if state = some .network then some .provisioningStarted else none
  | (_, .succeeded) => some .provisioningSucceeded
  | (_, .failed) => some .provisioningFailed

/-- The outcomes of the portal the supervisor has delivered, newest first. -/
def delivered (trace : List Entry) : List AppEvent :=
  trace.filterMap fun entry =>
    match entry with
    | (.supervisor, .did (.tell (.appStateDeliver event _)) _) => if event.ofPortal then some event else none
    | _ => none

/-- What was polled is delivered, but for these. -/
def Owes (owed : Option AppEvent) (trace : List Entry) : Prop :=
  (polled trace).filterMap delivery = owed.toList ++ delivered trace

section Events
variable {k : SuperviseKconfig} {K : Promise} {t : Tid} {e : Event} {past : List Entry} {owed : Option AppEvent}

theorem not_queues {o : Op} (h : o.pumps = false) : o.queues = false := by
  unfold Op.pumps at h
  split at h
  · rfl
  · exact h

/-- An event that neither polls nor delivers. -/
def Still (t : Tid) (e : Event) : Prop := t = .supervisor → ∀ o r, e = .did o r → o.pumps = false

theorem polled_still (h : t = .supervisor → ∀ o r, e = .did o r → o.queues = false) : polled ((t, e) :: past) = polled past := by
  rw [polled.eq_def]
  split
  · rename_i heq
    cases heq
  · rename_i heq
    obtain ⟨rfl, rfl⟩ := Prod.mk.inj (List.cons.inj heq).1
    cases h rfl _ _ rfl
  · rename_i heq
    rw [(List.cons.inj heq).2]

theorem delivered_still (h : Still t e) : delivered ((t, e) :: past) = delivered past := by
  rw [delivered, List.filterMap_cons]
  split
  · rfl
  · rename_i event heq
    split at heq
    · rename_i event' owner r he
      obtain ⟨rfl, rfl⟩ := Prod.mk.inj he
      have hp : event'.ofPortal = false := h rfl _ _ rfl
      simp [hp] at heq
    · cases heq

theorem Owes.still (h : Still t e) (ho : Owes owed past) : Owes owed ((t, e) :: past) := by
  rw [Owes, polled_still fun ht o r he => not_queues (h ht o r he), delivered_still h]
  exact ho

theorem lastRead_other (h : t ≠ .supervisor) : lastRead ((t, e) :: past) = lastRead past := by
  rw [lastRead.eq_def]
  split
  · rename_i heq
    cases heq
  · rename_i heq
    exact absurd (Prod.mk.inj (List.cons.inj heq).1).1 h
  · rename_i heq
    rw [(List.cons.inj heq).2]

theorem Owes.poll (event : ProvisioningEvent) (ho : Owes none past) :
    Owes (delivery (lastRead past, event)) ((.supervisor, .did (.ask .wifiProvisioningManagerPollEvent) event) :: past) := by
  have hd : delivered ((.supervisor, .did (.ask .wifiProvisioningManagerPollEvent) event) :: past) = delivered past := rfl
  rw [Owes, hd, polled]
  have ho : (polled past).filterMap delivery = delivered past := ho
  cases event with
  | none => exact ho
  | started =>
    rw [if_neg (fun h => by cases h), List.filterMap_cons, ho]
    cases delivery (lastRead past, .started) <;> rfl
  | succeeded =>
    rw [if_neg (fun h => by cases h), List.filterMap_cons, ho]
    rfl
  | failed =>
    rw [if_neg (fun h => by cases h), List.filterMap_cons, ho]
    rfl

theorem Owes.deliver {event : AppEvent} (owner : AppOwner) (hp : event.ofPortal = true) (ho : Owes (some event) past) :
    Owes none ((.supervisor, .did (.tell (.appStateDeliver event owner)) ()) :: past) := by
  have hd : delivered ((.supervisor, .did (.tell (.appStateDeliver event owner)) ()) :: past) = event :: delivered past := by
    rw [delivered, List.filterMap_cons]
    simp [hp, delivered]
  rw [Owes, hd]
  exact ho

/-- The supervisor polls an event when it owes none, and delivers the one it owes. -/
def Op.inTurn (past : List Entry) : Op → Prop
  | .ask .wifiProvisioningManagerPollEvent => Owes none past
  | .tell (.appStateDeliver event _) => event.ofPortal = true → Owes (some event) past
  | .push _ => False
  | _ => True

/-- The Wi-Fi manager's thread stores events; the supervisor takes them in turn, and owes
none when it returns. -/
def InTurn : Promise := fun t e m =>
  match t, e with
  | .wifi, .did o _ => ∃ event, o = .push event ∧ event ≠ .none
  | .supervisor, .did o _ => o.inTurn m.trace
  | .supervisor, .ret _ => Owes none m.trace
  | _, _ => True

theorem inTurn_still {o : Op} (ho : o.pumps = false) : o.inTurn past := by
  unfold Op.inTurn
  split
  · cases ho
  · rename_i event owner
    have hp : event.ofPortal = false := ho
    simp [hp]
  · cases ho
  · trivial

theorem stable_owes : Stable (system k) Boot K InTurn .supervisor fun m => Owes owed m.trace :=
  fun _ _ _ _ ht _ _ h => h.still fun hs => absurd hs ht

theorem keeps_owes {o : Op} (ho : o.pumps = false) :
    Conc.Keeps (system k) Boot K InTurn .supervisor (fun m => Owes owed m.trace) o := by
  refine fun m r w _ h => ⟨inTurn_still ho, h.still fun _ o' r' he => ?_⟩
  obtain ⟨rfl, -⟩ := Event.did.inj he
  exact ho

/-- An owed event is delivered, and the pump goes on. -/
theorem deliver_owed {α : Type} {event : AppEvent} {owner : AppOwner} {next : Unit → Act α} {Q : α → Assertion}
    (hp : event.ofPortal = true)
    (hnext : ∀ r, Triple (system k) Boot K InTurn .supervisor (fun m => Owes none m.trace) (next r) Q) :
    Triple (system k) Boot K InTurn .supervisor (fun m => Owes (some event) m.trace) (deliver event owner >>= next) Q :=
  .op (fun _ m => Owes none m.trace) stable_owes (fun _ _ _ _ h => ⟨(fun _ => h), h.deliver owner hp⟩) hnext

theorem deliverProvisioningEvents_owes (bound : Nat) :
    Triple (system k) Boot K InTurn .supervisor (fun m => Owes none m.trace) (deliverProvisioningEvents bound)
      fun _ m => Owes none m.trace := by
  induction bound with
  | zero => exact .uses stable_owes ⟨keeps_owes rfl, fun r => r.elim⟩
  | succ bound ih =>
    have read : ∀ state, Stable (system k) Boot K InTurn .supervisor
        fun m => Owes none m.trace ∧ lastRead m.trace = some state :=
      fun state => stable_owes.and fun _ _ _ _ ht _ _ h => (lastRead_other ht).trans h
    refine .perform (fun state m => Owes none m.trace ∧ lastRead m.trace = some state) stable_owes ?_ fun state => ?_
    · exact fun m state w hd h => ⟨trivial, (keeps_owes rfl m state w hd h).2, rfl⟩
    split
    · exact .ret fun _ h => h.1
    refine .perform (fun event m => Owes (delivery (some state, event)) m.trace) (read state) ?_ fun event => ?_
    · exact fun m event w _ h => ⟨h.1, h.2 ▸ h.1.poll event⟩
    cases event with
    | none => exact .ret fun _ h => h
    | started =>
      dsimp only
      split
      · rename_i hs
        exact ih.pre fun m h => by simpa [delivery, hs] using h
      · rename_i hs
        obtain rfl := not_not.1 hs
        exact deliver_owed rfl fun _ => ih
    | succeeded => exact deliver_owed rfl fun _ => ih
    | failed => exact deliver_owed rfl fun _ => ih

theorem kept_owes : Kept k K InTurn fun m => Owes none m.trace where
  stable := stable_owes
  plain o ho := keeps_owes (by simpa [Op.plain] using (Bool.and_eq_true_iff.1 ho).1)
  pump := deliverProvisioningEvents_owes
  bringUp := by
    refine .uses stable_owes (Prog.Uses.mono (P := fun o => o.pumps = false) (fun _ => keeps_owes) ?_)
    refine .perform rfl fun done => ?_
    split
    · trivial
    refine .perform rfl fun _ => .perform rfl fun _ => .perform rfl fun started => ?_
    split
    · exact .perform rfl fun _ => .perform rfl fun _ => trivial
    · exact ⟨rfl, fun _ => trivial⟩

/-- A supervisor at rest owes nothing. -/
theorem idle_owes {m : Moment} (hm : Hist (system k) Boot (Sequential.and InTurn) m) (hi : Idle .supervisor m.trace) :
    Owes none m.trace :=
  stable_owes.idle (fun _ _ => show Owes none [] from rfl) (fun _ _ _ _ hp => hp.still fun _ _ _ he => by cases he) hm hi

theorem established_inTurn : Established (system k) Boot (Sequential.and InTurn) := by
  refine established established_sequential fun t call => ?_
  cases t with
  | supervisor =>
    cases call with
    | notify event => exact fun m w hd => by cases hd.effect
    | pass bound =>
      refine Fulfils.of_triple (fun m => Owes none m.trace) (fun _ m => Owes none m.trace) (fun m w hd => ?_)
        (kept_owes.pass bound) (fun _ => stable_owes) fun _ _ _ _ h => h
      exact ⟨trivial, (idle_owes hd.hist (hd.known _ rfl)).still fun _ _ _ he => by cases he⟩
  | wifi =>
    cases call with
    | pass bound => exact fun m w hd => by cases hd.effect
    | notify event =>
      refine Fulfils.of_triple (fun _ => event ≠ .none) (fun _ _ => True) (fun m w hd => ⟨trivial, ?_⟩) ?_
        (fun _ => stable_true) fun _ _ _ _ _ => trivial
      · rintro rfl
        cases hd.effect
      · exact .perform (fun _ _ => True) (stable_const _) (fun _ _ _ _ h => ⟨⟨event, rfl, h⟩, trivial⟩) fun _ =>
          .ret fun _ _ => trivial

/-- What is stored is in the FIFO until it is polled. -/
structure Fifo (m : Moment) : Prop where
  stored : stored m.trace = m.world.fifo.reverse ++ (polled m.trace).map Prod.snd
  events : ∀ event ∈ m.world.fifo, event ≠ .none

theorem stepEffect_fifo {o : Op} {r : Res o} {w w' : World} (h : stepEffect k w o r = some w') (ho : o.queues = false) :
    w'.fifo = w.fifo := by
  unfold stepEffect at h
  split at h
  case h_1 | h_9 => cases ho
  case h_7 | h_8 | h_11 => rw [← Option.some.inj h]
  case h_10 => exact Empty.elim ‹_›
  all_goals
    simp only [Option.ite_none_right_eq_some, Option.some.injEq] at h
    rw [← h.2]

theorem effect_fifo {w w' : World} (h : effect k t e w = some w') (ho : ∀ o r, e = .did o r → o.queues = false) :
    w'.fifo = w.fifo := by
  unfold effect at h
  split at h
  · rw [← Option.some.inj h]
  · simp only [Option.ite_none_left_eq_some, Option.some.injEq] at h
    rw [← h.2]
  · cases h
  · exact stepEffect_fifo h (ho _ _ rfl)
  · rw [← Option.some.inj h]

theorem stored_still (h : ∀ o r, e = .did o r → o.queues = false) : stored ((t, e) :: past) = stored past := by
  rw [stored, List.filterMap_cons]
  split
  · rfl
  · rename_i event heq
    split at heq
    · cases h _ _ ‹_›
    · cases heq

theorem Fifo.still {m : Moment} {w : World} (h : Fifo m) (he : effect k t e m.world = some w)
    (ho : ∀ o r, e = .did o r → o.queues = false) : Fifo (m.after t e w) := by
  refine ⟨?_, by rw [Moment.after_world, effect_fifo he ho]; exact h.events⟩
  rw [Moment.after_trace, Moment.after_world, stored_still ho, polled_still fun _ => ho, effect_fifo he ho]
  exact h.stored

theorem Fifo.poll {m : Moment} {event : ProvisioningEvent} {w : World} (h : Fifo m)
    (he : stepEffect k m.world (.ask .wifiProvisioningManagerPollEvent) event = some w) :
    Fifo (m.after .supervisor (.did (.ask .wifiProvisioningManagerPollEvent) event) w) := by
  have hstored : Steps.stored ((.supervisor, .did (.ask .wifiProvisioningManagerPollEvent) event) :: m.trace) =
      Steps.stored m.trace := rfl
  obtain ⟨hs, hevents⟩ := h
  unfold stepEffect at he
  cases hfifo : m.world.fifo with
  | nil =>
    simp only [hfifo, Option.ite_none_right_eq_some, Option.some.injEq] at he
    obtain ⟨rfl, rfl⟩ := he
    exact ⟨by rw [Moment.after_trace, hstored, hs]; rfl, hevents⟩
  | cons head rest =>
    simp only [hfifo, Option.ite_none_right_eq_some, Option.some.injEq] at he
    obtain ⟨rfl, rfl⟩ := he
    rw [hfifo] at hs hevents
    refine ⟨?_, fun e he => hevents e (.tail _ he)⟩
    rw [Moment.after_trace, hstored, hs, polled, if_neg (hevents event (.head _))]
    simp

theorem Fifo.push {m : Moment} {event : ProvisioningEvent} {room : Bool} {w : World} (h : Fifo m) (hn : event ≠ .none)
    (he : stepEffect k m.world (.push event) room = some w) : Fifo (m.after .wifi (.did (.push event) room) w) := by
  obtain rfl := Option.some.inj he
  obtain ⟨hs, hevents⟩ := h
  have hpolled : polled ((.wifi, .did (.push event) room) :: m.trace) = polled m.trace := polled_still fun h => by cases h
  cases room with
  | false =>
    have hstored : Steps.stored ((.wifi, .did (.push event) false) :: m.trace) = Steps.stored m.trace := rfl
    exact ⟨by rw [Moment.after_trace, hstored, hpolled, hs]; rfl, hevents⟩
  | true =>
    have hstored : Steps.stored ((.wifi, .did (.push event) true) :: m.trace) = event :: Steps.stored m.trace := rfl
    refine ⟨?_, fun e he => ?_⟩
    · rw [Moment.after_trace, hstored, hpolled, hs]
      simp
    · rcases List.mem_append.1 he with he | he
      · exact hevents e he
      · rw [List.mem_singleton.1 he]
        exact hn

theorem hist_fifo {m : Moment} (hm : Hist (system k) Boot (Sequential.and InTurn) m) : Fifo m := by
  induction hm with
  | start hw =>
    cases hw
    exact ⟨rfl, fun event he => by cases he⟩
  | @step m t e w hm he hp ih =>
    cases e with
    | call call => exact ih.still he fun _ _ h => by cases h
    | ret r => exact ih.still he fun _ _ h => by cases h
    | did o r =>
      cases t with
      | wifi =>
        obtain ⟨event, rfl, hn⟩ := hp.2
        exact ih.push (k := k) hn he
      | supervisor =>
        by_cases ho : o.queues = true
        · unfold Op.queues at ho
          split at ho
          · exact ih.poll (k := k) he
          · exact hp.2.elim
          · cases ho
        · refine ih.still he fun o' r' h => ?_
          obtain ⟨rfl, -⟩ := Event.did.inj h
          simpa using ho

/-- What is owed is the last event polled; a supervisor at rest owes nothing. -/
theorem hist_owes {m : Moment} (hm : Hist (system k) Boot (Sequential.and InTurn) m) :
    ∃ owed, Owes owed m.trace ∧ (Idle .supervisor m.trace → owed = none) := by
  induction hm with
  | start hw => exact ⟨none, rfl, fun _ => rfl⟩
  | @step m t e w hm he hp ih =>
    obtain ⟨owed, ho, hidle⟩ := ih
    cases t with
    | wifi =>
      have ht : Tid.wifi ≠ .supervisor := fun h => by cases h
      exact ⟨owed, ho.still fun h => absurd h ht, fun hi => hidle ((idle_other ht e).1 hi)⟩
    | supervisor =>
      cases e with
      | call call => exact ⟨owed, ho.still (fun _ _ _ h => by cases h), fun hi => absurd rfl hi.1⟩
      | ret r => exact ⟨none, Owes.still (fun _ _ _ h => by cases h) hp.2, fun _ => rfl⟩
      | did o r =>
        suffices h : ∃ owed, Owes owed (m.after .supervisor (.did o r) w).trace from
          h.imp fun _ h => ⟨h, fun hi => absurd rfl hi.1⟩
        have hturn : o.inTurn m.trace := hp.2
        by_cases hpumps : o.pumps = false
        · exact ⟨owed, ho.still fun _ o' r' h => by obtain ⟨rfl, -⟩ := Event.did.inj h; exact hpumps⟩
        · unfold Op.pumps Op.queues at hpumps
          split at hpumps
          · rename_i event owner
            exact ⟨none, Owes.deliver owner (by simpa using hpumps) (hturn (by simpa using hpumps))⟩
          · split at hpumps
            · exact ⟨_, Owes.poll r hturn⟩
            · exact hturn.elim
            · exact absurd rfl hpumps

/-- No event is lost or delivered twice, in any interleaving. What the adapter stored and
the supervisor has not polled is in the FIFO, in order. What was polled has been
delivered in order, but for a duplicate start; only the last one polled may still be
owed, and none by a supervisor at rest. -/
theorem events_delivered {c : Config} (hr : (system k).Run Boot c) :
    stored c.trace = c.world.fifo.reverse ++ (polled c.trace).map Prod.snd ∧
      ∃ owed : Option AppEvent, (polled c.trace).filterMap delivery = owed.toList ++ delivered c.trace ∧
        (Idle .supervisor c.trace → owed = none) :=
  ⟨(hist_fifo (established_inTurn.hist hr)).stored, hist_owes (established_inTurn.hist hr)⟩

theorem events_delivered_portal : ∃ c, (system defaultSuperviseKconfig).Run Boot c ∧
    polled c.trace = [(some .network, .started)] ∧ stored c.trace = [.started] ∧ delivered c.trace = [.provisioningStarted] := by
  obtain ⟨c, hr, hpolled, hfifo, hrest, -⟩ := portalOpens_run
  obtain ⟨hstored, owed, howed, hidle⟩ := events_delivered hr
  rw [hpolled, hfifo] at hstored
  rw [hpolled, hidle hrest] at howed
  exact ⟨c, hr, hpolled, hstored, howed.symm⟩

end Events

/-! ## The bring-up -/

/-- The start of the network has succeeded. -/
def Started (trace : List Entry) : Prop := (.supervisor, .did (.ask .networkManagerStart) true) ∈ trace

/-- Each call of the bring-up is the first of it, made once the bring-up is noted as done;
and the portal is set up after a start that succeeded. -/
def Once : Promise := fun _ e m =>
  match e with
  | .did (.tell x) _ => x ∈ bringUpEvents →
    m.world.networkBringupDone = true ∧ x ∉ told m.trace ∧ (x ≠ .networkManagerStart → Started m.trace)
  | _ => True

/-- None of these has been called yet. -/
def Unused (events : List SuperviseEvent) (m : Moment) : Prop := ∀ e ∈ events, e ∉ told m.trace

/-- In the middle of the bring-up these calls are left, and the start has succeeded or not. -/
structure Left (events : List SuperviseEvent) (started : Bool) (m : Moment) : Prop where
  done : m.world.networkBringupDone = true
  unused : Unused events m
  started : started = true → Started m.trace

/-- The bring-up is noted as done, or nothing of it has been called. -/
def OnceBegun (m : Moment) : Prop := m.world.networkBringupDone = true ∨ Unused bringUpEvents m

section BringUp
variable {k : SuperviseKconfig} {t : Tid} {e : Event} {m : Moment} {w w' : World} {events : List SuperviseEvent}
variable {started : Bool}

theorem stepEffect_done {o : Op} {r : Res o} (h : stepEffect k w o r = some w') (hd : w.networkBringupDone = true) :
    w'.networkBringupDone = true := by
  unfold stepEffect at h
  split at h
  case h_1 =>
    split at h
    all_goals
      simp only [Option.ite_none_right_eq_some, Option.some.injEq] at h
      rw [← h.2]
      exact hd
  case h_7 =>
    rw [← Option.some.inj h]
  case h_8 | h_11 =>
    rw [← Option.some.inj h]
    exact hd
  case h_9 =>
    rw [← Option.some.inj h]
    split <;> exact hd
  case h_10 => exact Empty.elim ‹_›
  all_goals
    simp only [Option.ite_none_right_eq_some, Option.some.injEq] at h
    rw [← h.2]
    exact hd

/-- The bring-up is never undone. -/
theorem effect_done (h : (system k).effect t e w = some w') (hd : w.networkBringupDone = true) :
    w'.networkBringupDone = true := by
  change effect k t e w = some w' at h
  unfold effect at h
  split at h
  · rwa [← Option.some.inj h]
  · simp only [Option.ite_none_left_eq_some, Option.some.injEq] at h
    rwa [← h.2]
  · cases h
  · exact stepEffect_done h hd
  · rwa [← Option.some.inj h]

theorem Unused.after (h : Unused events m) (he : ∀ x ∈ events, ∀ r, e ≠ .did (.tell x) r) : Unused events (m.after t e w) := by
  intro x hx hmem
  rw [Moment.after_trace, told, List.filterMap_cons] at hmem
  split at hmem
  · exact h x hx hmem
  · rename_i y heq
    rcases List.mem_cons.1 hmem with rfl | hmem
    · split at heq
      · rename_i z r he'
        obtain rfl := Option.some.inj heq
        exact he _ hx r he'
      · cases heq
    · exact h x hx hmem

theorem Left.after (h : Left events started m) (heff : (system k).effect t e m.world = some w)
    (he : ∀ x ∈ events, ∀ r, e ≠ .did (.tell x) r) : Left events started (m.after t e w) :=
  ⟨effect_done heff h.done, h.unused.after he, fun hs => .tail _ (h.started hs)⟩

/-- The Wi-Fi manager's thread makes no call of the supervisor's. -/
theorem wifi_untold {Φ : Promise} (ht : t ≠ .supervisor) (hd : Does (system k) Boot (Sequential.and InTurn) Φ t e m w)
    (x : SuperviseEvent) (r : Unit) : e ≠ .did (.tell x) r := by
  cases t with
  | supervisor => exact absurd rfl ht
  | wifi =>
    rintro rfl
    obtain ⟨event, h, -⟩ := hd.known.2
    cases h

theorem stable_unused : Stable (system k) Boot (Sequential.and InTurn) Once .supervisor (Unused events) :=
  fun _ _ _ _ ht hd _ h => h.after fun x _ => wifi_untold ht hd x

theorem stable_left : Stable (system k) Boot (Sequential.and InTurn) Once .supervisor (Left events started) :=
  fun _ _ _ _ ht hd _ h => h.after hd.effect fun x _ => wifi_untold ht hd x

theorem stable_onceBegun : Stable (system k) Boot (Sequential.and InTurn) Once .supervisor OnceBegun :=
  fun t' e m w ht hd hp h => h.imp (effect_done hd.effect) (stable_unused t' e m w ht hd hp)

theorem untold_bringUp {o : Op} (ho : o.bringsUp = false) {r : Res o} :
    ∀ x ∈ bringUpEvents, ∀ r' : Unit, (.did o r : Event) ≠ .did (.tell x) r' := by
  rintro x hx r' he
  obtain ⟨rfl, -⟩ := Event.did.inj he
  simp only [bringUpEvents, List.mem_cons, List.not_mem_nil, or_false] at hx
  rcases hx with rfl | rfl | rfl <;> cases ho

theorem keeps_onceBegun {o : Op} (ho : o.bringsUp = false) :
    Conc.Keeps (system k) Boot (Sequential.and InTurn) Once .supervisor OnceBegun o := by
  refine fun m r w hd h => ⟨?_, h.imp (effect_done hd.effect) fun h => h.after (untold_bringUp ho)⟩
  unfold Once
  split
  · rename_i x r' he
    exact fun hx => absurd he (untold_bringUp ho x hx r')
  · trivial

/-- Nothing is called before the bring-up is noted as done. -/
theorem hist_onceBegun {K : Promise} (hm : Hist (system k) Boot (K.and Once) m) : OnceBegun m := by
  induction hm with
  | start hw => exact .inr fun x _ h => by cases h
  | @step m t e w hm he hp ih =>
    by_cases htold : ∀ x ∈ bringUpEvents, ∀ r, e ≠ .did (.tell x) r
    · exact ih.imp (effect_done he) fun h => h.after htold
    · simp only [not_forall, not_not] at htold
      obtain ⟨x, hx, r, rfl⟩ := htold
      exact .inl (effect_done he (hp.2 hx).1)

/-- The next call of the bring-up. -/
theorem left_triple {α : Type} {x : SuperviseEvent} {rest : List SuperviseEvent} {next : Unit → Act α} {Q : α → Assertion}
    (hx : x ∉ rest) (hstarted : x ≠ .networkManagerStart → started = true)
    (hnext : ∀ r, Triple (system k) Boot (Sequential.and InTurn) Once .supervisor (Left rest started) (next r) Q) :
    Triple (system k) Boot (Sequential.and InTurn) Once .supervisor (Left (x :: rest) started) (tell x >>= next) Q := by
  refine .perform (fun _ => Left rest started) stable_left (fun m r w hd h => ⟨fun _ => ?_, ?_⟩) hnext
  · exact ⟨h.done, h.unused x (.head _), fun hx => h.started (hstarted hx)⟩
  have hrest : Left rest started m := ⟨h.done, fun y hy => h.unused y (.tail _ hy), h.started⟩
  refine hrest.after (k := k) hd.effect fun y hy r' he => ?_
  obtain rfl : x = y := by simpa using (Event.did.inj he).1
  exact hx hy

theorem bringUpNetwork_once :
    Triple (system k) Boot (Sequential.and InTurn) Once .supervisor OnceBegun bringUpNetwork fun _ => OnceBegun := by
  refine .perform (fun done m => if done = true then OnceBegun m else Unused bringUpEvents m) stable_onceBegun ?_
    fun done => ?_
  · intro m done w hd h
    have he : stepEffect k m.world (.ask .networkBringupDone) done = some w := hd.effect
    simp only [stepEffect, Option.ite_none_right_eq_some, Option.some.injEq] at he
    obtain ⟨hdone, rfl⟩ := he
    refine ⟨trivial, ?_⟩
    split
    · exact (keeps_onceBegun rfl m done m.world hd h).2
    · rename_i hn
      exact (h.resolve_left fun h => hn (hdone.trans h)).after fun x _ r he => by cases he
  cases done with
  | true => exact .ret fun m h => h
  | false =>
    refine .perform (fun _ => Left bringUpEvents false) stable_unused ?_ fun _ => ?_
    · intro m r w hd h
      refine ⟨trivial, ?_, h.after (fun x _ r he => by cases he), (fun h => by cases h)⟩
      obtain rfl := Option.some.inj hd.effect
      rfl
    refine left_triple (by decide) (fun h => absurd rfl h) fun _ => ?_
    refine .perform (fun started => Left [.mongooseProcessInit, .wifiProvisioningManagerInit] started) stable_left ?_
      fun started => ?_
    · intro m started w hd h
      have hafter := h.after (k := k) hd.effect fun x _ r he => by cases he
      exact ⟨trivial, hafter.done, hafter.unused, fun hs => hs ▸ .head _⟩
    cases started with
    | true =>
      refine left_triple (by decide) (fun _ => rfl) fun _ => ?_
      refine left_triple (by decide) (fun _ => rfl) fun _ => ?_
      exact .ret fun m h => .inl h.done
    | false =>
      refine .perform (fun _ => OnceBegun) stable_left (fun m r w hd h => ?_) fun _ => .ret fun _ h => h
      exact keeps_onceBegun rfl m r w hd (.inl h.done)

theorem kept_onceBegun : Kept k (Sequential.and InTurn) Once OnceBegun where
  stable := stable_onceBegun
  plain o ho := keeps_onceBegun (by simpa using (Bool.and_eq_true_iff.1 ho).2)
  bringUp := bringUpNetwork_once
  pump := by
    intro bound
    refine .uses stable_onceBegun (Prog.Uses.mono (P := fun o => o.bringsUp = false) (fun _ => keeps_onceBegun) ?_)
    induction bound with
    | zero => exact ⟨rfl, fun r => r.elim⟩
    | succ bound ih =>
      refine .perform rfl fun state => ?_
      split
      · trivial
      refine .perform rfl fun event => ?_
      cases event with
      | none => trivial
      | started =>
        dsimp only
        split
        · exact ih
        · exact .perform rfl fun _ => ih
      | succeeded => exact .perform rfl fun _ => ih
      | failed => exact .perform rfl fun _ => ih

theorem established_once : Established (system k) Boot ((Sequential.and InTurn).and Once) := by
  refine established established_inTurn fun t call => ?_
  cases t with
  | supervisor =>
    cases call with
    | notify event => exact fun m w hd => by cases hd.effect
    | pass bound =>
      refine Fulfils.of_triple OnceBegun (fun _ => OnceBegun) (fun m w hd => ⟨trivial, ?_⟩) (kept_onceBegun.pass bound)
        (fun _ => stable_onceBegun) fun _ _ _ _ _ => trivial
      exact (hist_onceBegun hd.hist).imp (effect_done hd.effect) fun h => h.after fun _ _ _ he => by cases he
  | wifi =>
    refine Fulfils.of_triple (fun _ => True) (fun _ _ => True) (fun _ _ _ => ⟨trivial, trivial⟩)
      (.free (Prog.Uses.of_forall (fun o m r w hd _ => ⟨?_, trivial⟩) _)) (fun _ => stable_true) fun _ _ _ _ _ => trivial
    obtain ⟨event, rfl, -⟩ := hd.known.2
    trivial

/-- In every interleaving the network is started once at most, whether or not that
succeeds, and so are the Mongoose process and the adapter, after a start that did succeed. -/
theorem network_started_once {c : Config} (hr : (system k).Run Boot c) :
    Every (fun entry past => ∀ x ∈ bringUpEvents, entry.2 = .did (.tell x) () →
      x ∉ told past ∧ (x ≠ .networkManagerStart → Started past)) c.trace := by
  refine (established_once.hist hr).every fun t e m h x hx he => ?_
  obtain rfl : e = .did (.tell x) () := he
  exact (h.2 hx).2

theorem network_started_once_portal : ∃ c, (system defaultSuperviseKconfig).Run Boot c ∧
    (told c.trace).filter (· ∈ bringUpEvents) = bringUpEvents.reverse ∧
    Every (fun entry past => ∀ x ∈ bringUpEvents, entry.2 = .did (.tell x) () →
      x ∉ told past ∧ (x ≠ .networkManagerStart → Started past)) c.trace := by
  obtain ⟨c, hr, -, -, -, -, htold⟩ := portalOpens_run
  exact ⟨c, hr, htold, network_started_once hr⟩

end BringUp

end Steps

end LedLamp.AppMain
