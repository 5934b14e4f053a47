import LedLamp.AppMain.Steps
import LedLamp.AppMain.Watchdog
/-!
# What the supervisor does in which state

The machine can be moved under the supervisor: by what it delivers, by its own poll, which
drives the retries and the watchdog, and by the callbacks of `ota_manager`. `reads_fresh` says
that it never acts on a state it read before one of these: each call that belongs to
a state follows a read of that state, and nothing that may move the machine came in between.
-/

namespace LedLamp.AppMain

/-- The states in which the supervisor delivers an event. An outcome of the portal is delivered
from the network gate too; whether it is legal there is for the machine to say. -/
def AppEvent.belongs : AppEvent → AppState → Bool
  | .fsOk, state | .fsFail, state => state = .filesystem
  | .configOk, state | .configFail, state => state = .configuration
  | .networkConnected, state | .networkFailed, state | .provisioningStarted, state => state = .network
  | .provisioningSucceeded, state | .provisioningFailed, state => state = .network || state = .provisioning
  | .tlsConnected, state | .tlsFailed, state => state = .tls
  | .syncComplete, state => state = .sync
  | .disconnected, state => state = .online

namespace Steps

open Conc

/-- The states a call belongs to, if it belongs to some. -/
def Op.needs : Op → Option (AppState → Bool)
  | .tell (.appStateDeliver event _) => some event.belongs
  | .tell .lampFsInit => some (· = .filesystem)
  | .ask .loadConfiguration => some (· = .configuration)
  | .tell .networkManagerStart | .tell .networkManagerReconnect | .tell .mongooseProcessInit
  | .tell .wifiProvisioningManagerInit => some (· = .network)
  | .ask .wifiProvisioningManagerPollEvent => some fun state => state = .network || state = .provisioning
  | .tell .wifiProvisioningManagerStop => some fun state => state = .fatal || state = .ota
  | .ask .connectVerifiedTls => some (· = .tls)
  | .tell .tbApplicationPoll => some fun state => state = .sync || state = .online || state = .ota
  | .ask .factoryResetPoll => some (· ≠ .ota)
  | _ => none

/-- The steps after which what was read of the state is out of date: a further read, and
what may move the machine. -/
def Op.outdates : Op → Bool
  | .ask .appStateCurrent | .tell (.appStateDeliver _ _) | .tell .appStatePoll => true
  | .ota .deliverBegin | .ota .deliverFailed | .ota .deliverEnd => true
  | _ => false

def LeavesFresh (entry : Entry) : Prop := entry.1 = .supervisor → ∀ o r, entry.2 = .did o r → o.outdates = false

/-- The supervisor's last read of the state was of one of these, and it is not out of date. -/
def InState (states : AppState → Bool) : List Entry → Prop :=
  Since LeavesFresh fun entry _ => ∃ state, entry = (.supervisor, .did (.ask .appStateCurrent) state) ∧ states state = true

/-- A call that belongs to some states is made in one of them. -/
def ReadFirst : Promise := fun t e m =>
  match e with
  | .did o _ => t = .supervisor → ∀ states, o.needs = some states → InState states m.trace
  | _ => True

/-- An operation that may be done in these states. -/
def Op.Fits (states : AppState → Bool) (o : Op) : Prop :=
  ∀ needed, o.needs = some needed → ∀ state, states state = true → needed state = true

section Rules
variable {k : SuperviseKconfig} {K : Promise} {states : AppState → Bool} {α : Type} {Q : α → Assertion} {A : Assertion}
variable {o : Op} {next : Res o → Act α}

theorem InState.mono {states' : AppState → Bool} (h : ∀ state, states state = true → states' state = true)
    {trace : List Entry} (hs : InState states trace) : InState states' trace :=
  Since.mono (fun _ h => h) (fun _ _ ⟨state, he, hstate⟩ => ⟨state, he, h state hstate⟩) hs

theorem fits_none (h : o.needs = none) : o.Fits states := fun _ hn => by cases h.symm.trans hn

/-- What was read is one of the states an operation belongs to. -/
theorem fits_read {needed : AppState → Bool} {state : AppState} (h : o.needs = some needed) (hs : needed state = true) :
    o.Fits (· = state) := by
  rintro needed' hn state' hstate
  obtain rfl := Option.some.inj (h.symm.trans hn)
  rw [of_decide_eq_true hstate]
  exact hs

/-- Nobody else touches what the supervisor has read. -/
theorem stable_inState : Stable (system k) Boot K ReadFirst .supervisor fun m => InState states m.trace :=
  fun _ _ _ _ ht _ _ h => .later (fun hs => absurd hs ht) h

theorem readFirst_fits {m : Moment} {r : Res o} (hf : o.Fits states) (h : InState states m.trace) :
    ReadFirst .supervisor (.did o r) m := fun _ needed hn => h.mono (hf needed hn)

/-- A read of the state, after which that is what is known. -/
theorem read_triple {next : AppState → Act α} (hnext : ∀ state,
    Triple (system k) Boot K ReadFirst .supervisor (fun m => InState (· = state) m.trace) (next state) Q) :
    Triple (system k) Boot K ReadFirst .supervisor A (ask .appStateCurrent >>= next) Q := by
  refine .pre (B := fun _ => True) (fun _ _ => trivial) ?_
  refine .op (fun state m => InState (· = state) m.trace) stable_true (fun m state w _ _ => ?_) hnext
  exact ⟨(fun _ needed hn => by cases hn), .now ⟨state, rfl, by simp⟩⟩

/-- A step that belongs to what was read, and leaves it up to date. -/
theorem still_triple (hf : o.Fits states) (ho : o.outdates = false)
    (hnext : ∀ r, Triple (system k) Boot K ReadFirst .supervisor (fun m => InState states m.trace) (next r) Q) :
    Triple (system k) Boot K ReadFirst .supervisor (fun m => InState states m.trace) (act o >>= next) Q := by
  refine .keep stable_inState (fun m r w _ h => ⟨readFirst_fits hf h, .later ?_ h⟩) hnext
  rintro - o' r' he
  obtain ⟨rfl, -⟩ := Event.did.inj he
  exact ho

/-- A step that belongs to what was read, which nothing is known of after it. -/
theorem last_triple (hf : o.Fits states)
    (hnext : ∀ r, Triple (system k) Boot K ReadFirst .supervisor (fun _ => True) (next r) Q) :
    Triple (system k) Boot K ReadFirst .supervisor (fun m => InState states m.trace) (act o >>= next) Q :=
  .op (fun _ _ => True) stable_inState (fun _ _ _ _ h => ⟨readFirst_fits hf h, trivial⟩) hnext

/-- A step that belongs to no state. -/
theorem free_triple (hn : o.needs = none)
    (hnext : ∀ r, Triple (system k) Boot K ReadFirst .supervisor (fun _ => True) (next r) Q) :
    Triple (system k) Boot K ReadFirst .supervisor A (act o >>= next) Q := by
  refine .pre (B := fun _ => True) (fun _ _ => trivial) ?_
  exact .op (fun _ _ => True) stable_true (fun _ _ _ _ _ => ⟨(fun _ _ h => by cases hn.symm.trans h), trivial⟩) hnext

theorem done_triple {a : α} : Triple (system k) Boot K ReadFirst .supervisor A (.ret a) fun _ _ => True :=
  .ret fun _ _ => trivial

/-- A program whose steps belong to no state. -/
theorem frees_triple {p : Act α} (hp : p.Uses fun o => o.needs = none) :
    Triple (system k) Boot K ReadFirst .supervisor A p fun _ _ => True :=
  .free (hp.mono fun _ hn _ _ _ _ _ => ⟨(fun _ _ h => by cases hn.symm.trans h), trivial⟩)

/-- A last step that belongs to what was read. -/
theorem end_triple (hf : o.Fits states) :
    Triple (system k) Boot K ReadFirst .supervisor (fun m => InState states m.trace) (act o) fun _ _ => True :=
  .op (fun _ _ => True) stable_inState (fun _ _ _ _ h => ⟨readFirst_fits hf h, trivial⟩) fun _ => done_triple

end Rules

theorem aside_needs {o : Op} (h : o.aside = true) : o.needs = none := by
  unfold Op.aside at h
  split at h
  all_goals first
    | rfl
    | cases h

/-! ## The functions -/

section Functions
variable {k : SuperviseKconfig} {K : Promise} {A : Assertion}

theorem pollFactoryReset_triple :
    Triple (system k) Boot K ReadFirst .supervisor A (pollFactoryReset k) fun _ _ => True := by
  unfold pollFactoryReset
  split
  · exact done_triple
  refine read_triple fun state => ?_
  split
  · exact done_triple
  rename_i hstate
  refine still_triple (fits_none rfl) rfl fun _ => ?_
  refine last_triple (fits_read rfl (by simpa using hstate)) fun poll => ?_
  cases poll with
  | idle => exact done_triple
  | triggered eraseCredentials storage =>
    exact frees_triple ((factoryReset_uses eraseCredentials storage).mono fun _ => aside_needs)

theorem deliverProvisioningEvents_triple (bound : Nat) :
    Triple (system k) Boot K ReadFirst .supervisor A (deliverProvisioningEvents bound) fun _ _ => True := by
  induction bound generalizing A with
  | zero => exact free_triple (o := .hang) rfl fun r => r.elim
  | succ bound ih =>
    refine read_triple fun state => ?_
    split
    · exact done_triple
    rename_i hstate
    have hs : (state = .network || state = .provisioning) = true := by
      simpa [Classical.or_iff_not_imp_left] using hstate
    refine still_triple (fits_read rfl hs) rfl fun event => ?_
    cases event with
    | none => exact done_triple
    | started =>
      dsimp only
      split
      · exact ih
      · rename_i hn
        obtain rfl := not_not.1 hn
        exact last_triple (fits_read rfl rfl) fun _ => ih
    | succeeded => exact last_triple (fits_read rfl hs) fun _ => ih
    | failed => exact last_triple (fits_read rfl hs) fun _ => ih

theorem superviseNetworkGate_triple (bound rounds waitedMs : Nat) :
    Triple (system k) Boot K ReadFirst .supervisor A (superviseNetworkGate k bound rounds waitedMs) fun _ _ => True := by
  have gate_end : ∀ {B : Assertion}, Triple (system k) Boot K ReadFirst .supervisor B networkGateEnd fun _ _ => True :=
    frees_triple ⟨rfl, fun _ => ⟨rfl, fun _ => trivial⟩⟩
  induction rounds generalizing waitedMs A with
  | zero => exact free_triple (o := .hang) rfl fun r => r.elim
  | succ rounds ih =>
    refine free_triple rfl fun connected => ?_
    split
    · exact gate_end
    split
    · exact gate_end
    refine free_triple rfl fun _ => pollFactoryReset_triple.bind _ fun _ =>
      (deliverProvisioningEvents_triple bound).bind _ fun _ => read_triple fun state => ?_
    split
    · exact frees_triple ⟨rfl, fun _ => trivial⟩
    · exact still_triple (fits_none rfl) rfl fun _ => ih _

/-- The network gate is still what was read when the network is up. -/
theorem bringUpNetwork_triple : Triple (system k) Boot K ReadFirst .supervisor (fun m => InState (· = .network) m.trace)
    bringUpNetwork fun up m => up = true → InState (· = .network) m.trace := by
  refine still_triple (fits_none rfl) rfl fun done => ?_
  split
  · exact .ret fun _ h _ => h
  refine still_triple (fits_none rfl) rfl fun _ => still_triple (fits_read rfl rfl) rfl fun _ =>
    still_triple (fits_none rfl) rfl fun started => ?_
  split
  · exact still_triple (fits_read rfl rfl) rfl fun _ => still_triple (fits_read rfl rfl) rfl fun _ => .ret fun _ h _ => h
  · exact last_triple (fits_read rfl rfl) fun _ => .ret fun _ _ h => by cases h

theorem superviseNetwork_triple (bound : Nat) :
    Triple (system k) Boot K ReadFirst .supervisor (fun m => InState (· = .network) m.trace)
      (superviseNetwork k bound) fun _ _ => True := by
  refine bringUpNetwork_triple.bind _ fun up => ?_
  cases up with
  | false => exact done_triple
  | true =>
    refine .pre (fun _ h => h rfl) (still_triple (fits_none rfl) rfl fun credentialed => ?_)
    split
    · refine last_triple (fits_read rfl rfl) fun _ =>
        (superviseNetworkGate_triple bound NETWORK_GATE_ROUNDS 0).bind _ fun connected => read_triple fun state => ?_
      split
      · rename_i hstate
        subst hstate
        exact end_triple (fits_read rfl (by cases connected <;> rfl))
      · exact done_triple
    · exact done_triple

theorem superviseTls_triple : Triple (system k) Boot K ReadFirst .supervisor (fun m => InState (· = .tls) m.trace)
    superviseTls fun _ _ => True := by
  have backoff : Triple (system k) Boot K ReadFirst .supervisor (fun m => InState (· = .tls) m.trace) backoffLasts
      fun _ m => InState (· = .tls) m.trace := by
    refine still_triple (fits_none rfl) rfl fun r => ?_
    obtain ⟨active, retryAtMs⟩ := r
    cases active with
    | false => exact .ret fun _ h => h
    | true => exact still_triple (fits_none rfl) rfl fun _ => .ret fun _ h => h
  refine backoff.bind _ fun lasts => ?_
  split
  · exact done_triple
  · refine still_triple (fits_read rfl rfl) rfl fun r => ?_
    obtain ⟨a, connected⟩ := r
    exact end_triple (fits_read rfl (by cases connected <;> rfl))

theorem pollOtaManager_triple : Triple (system k) Boot K ReadFirst .supervisor A pollOtaManager fun _ _ => True :=
  frees_triple ⟨rfl, fun _ => ⟨rfl, fun callbacks => (otaCallbacks_uses callbacks).mono fun _ => aside_needs⟩⟩

theorem superviseSync_triple : Triple (system k) Boot K ReadFirst .supervisor (fun m => InState (· = .sync) m.trace)
    superviseSync fun _ _ => True := by
  refine still_triple (fits_read rfl rfl) rfl fun _ => still_triple (fits_none rfl) rfl fun synchronized => ?_
  split
  · exact last_triple (fits_read rfl rfl) fun _ => frees_triple ⟨rfl, fun _ => ⟨rfl, fun _ => trivial⟩⟩
  · exact done_triple

theorem superviseOnline_triple : Triple (system k) Boot K ReadFirst .supervisor (fun m => InState (· = .online) m.trace)
    superviseOnline fun _ _ => True := by
  have rest : ∀ {B : Assertion}, Triple (system k) Boot K ReadFirst .supervisor B (do
      pollOtaManager
      let state ← ask .appStateCurrent
      if state ≠ .online then return ()
      else if ← ask .networkManagerIsConnected then return ()
      else deliver .disconnected .network : Act Unit) fun _ _ => True := by
    refine pollOtaManager_triple.bind _ fun _ => read_triple fun state => ?_
    split
    · exact done_triple
    rename_i hstate
    obtain rfl := not_not.1 hstate
    refine still_triple (fits_none rfl) rfl fun connected => ?_
    split
    · exact done_triple
    · exact end_triple (fits_read rfl rfl)
  refine last_triple (fits_read rfl rfl) fun _ => free_triple rfl fun hint => ?_
  cases hint with
  | false => exact rest
  | true => exact free_triple rfl fun _ => rest

theorem superviseOta_triple (entered : Bool) :
    Triple (system k) Boot K ReadFirst .supervisor (fun m => InState (· = .ota) m.trace)
      (superviseOta entered) fun _ _ => True := by
  have rest : Triple (system k) Boot K ReadFirst .supervisor (fun m => InState (· = .ota) m.trace) (do
      tell .tbApplicationPoll
      let _ ← ask .takeFirmwareHint
      pollOtaManager : Act Unit) fun _ _ => True :=
    last_triple (fits_read rfl rfl) fun _ => free_triple rfl fun _ => pollOtaManager_triple
  cases entered with
  | false => exact rest
  | true => exact still_triple (fits_read rfl rfl) rfl fun _ => rest

theorem serveState_triple (bound : Nat) (lastReported state : AppState) :
    Triple (system k) Boot K ReadFirst .supervisor (fun m => InState (· = state) m.trace)
      (serveState k bound lastReported state) fun _ _ => True := by
  cases state with
  | boot => exact done_triple
  | filesystem =>
    exact still_triple (fits_read rfl rfl) rfl fun _ => still_triple (fits_none rfl) rfl fun mounted =>
      end_triple (fits_read rfl (by cases mounted <;> rfl))
  | configuration =>
    refine still_triple (fits_read rfl rfl) rfl fun r => ?_
    obtain ⟨a, loaded⟩ := r
    exact end_triple (fits_read rfl (by cases loaded <;> rfl))
  | network => exact superviseNetwork_triple bound
  | provisioning => exact done_triple
  | tls => exact superviseTls_triple
  | sync => exact superviseSync_triple
  | online => exact superviseOnline_triple
  | safeOff => exact frees_triple (superviseSafeOff_uses.mono fun _ => aside_needs)
  | fatal => exact end_triple (fits_read rfl rfl)
  | ota => exact superviseOta_triple _

theorem supervisePass_triple (bound : Nat) :
    Triple (system k) Boot K ReadFirst .supervisor A (supervisePass k bound) fun _ _ => True := by
  have iteration : Triple (system k) Boot K ReadFirst .supervisor A (superviseIteration k bound) fun _ _ => True := by
    refine pollFactoryReset_triple.bind _ fun _ => free_triple rfl fun _ => free_triple rfl fun _ =>
      (deliverProvisioningEvents_triple bound).bind _ fun _ => read_triple fun current =>
      still_triple (fits_none rfl) rfl fun lastReported =>
      (serveState_triple bound lastReported current).bind _ fun _ => ?_
    split
    · exact frees_triple ⟨rfl, fun _ => trivial⟩
    · exact done_triple
  exact iteration.bind _ fun _ => frees_triple ⟨rfl, fun _ => trivial⟩

end Functions

/-! ## Runs -/

theorem established_readFirst {k : SuperviseKconfig} :
    Established (system k) Boot (Conc.Promise.and (fun _ _ _ => True) ReadFirst) := by
  refine established established_true fun t call => ?_
  refine Fulfils.of_triple (fun _ => True) (fun _ _ => True) (fun _ _ _ => ⟨trivial, trivial⟩) ?_ (fun _ => stable_true)
    fun _ _ _ _ _ => trivial
  cases t with
  | supervisor =>
    cases call with
    | pass bound => exact supervisePass_triple bound
    | notify event => exact frees_triple ⟨rfl, fun _ => trivial⟩
  | wifi => exact .free (Prog.Uses.of_forall (fun _ _ _ _ _ _ => ⟨(fun h => by cases h), trivial⟩) _)

/-- What the components answer on a fresh device; once the network is up the portal opens. -/
def freshAnswers : (o : Op) → World → Option (Res o)
  | .ask .appStateCurrent, w => some (if w.networkBringupDone && w.fifo.isEmpty then .provisioning else .network)
  | .ask .lastReported, w => some w.lastReported
  | .ask .networkBringupDone, w => some w.networkBringupDone
  | .ask .factoryResetPoll, _ => some .idle
  | .ask .wifiProvisioningManagerPollEvent, w => some (w.fifo.headD .none)
  | .ask .osalTaskGetTimeMs, _ => some 0
  | .ask .networkManagerStart, _ => some true
  | .ask .hasSavedCredentials, _ => some false
  | .tell _, _ | .setNetworkBringupDone, _ | .setLastReported _, _ => some ()
  | .push _, _ => some true
  | _, _ => none

/-- The pass that brings the network up, with the event of the portal before its end, and
the pass that delivers the event. -/
def portalOpens : List (Tid × Option Call) :=
  (.supervisor, some (.pass 1)) :: List.replicate 15 (.supervisor, none) ++
    (.wifi, some (.notify .started)) :: List.replicate 2 (.wifi, none) ++ List.replicate 4 (.supervisor, none) ++
    (.supervisor, some (.pass 2)) :: List.replicate 15 (.supervisor, none)

theorem portalOpens_run : ∃ c, (system defaultSuperviseKconfig).Run Boot c ∧
    polled c.trace = [(some .network, .started)] ∧ c.world.fifo = [] ∧ Idle .supervisor c.trace ∧
    .appStateDeliver .provisioningStarted .network ∈ told c.trace ∧
    (told c.trace).filter (· ∈ bringUpEvents) = bringUpEvents.reverse := by
  have h : (turns (system defaultSuperviseKconfig) freshAnswers portalOpens (System.boot ⟨[], false, .boot, .boot⟩)).map
      (fun c => (polled c.trace, c.world.fifo, decide ((c.running .supervisor).isNone ∧
        .appStateDeliver .provisioningStarted .network ∈ told c.trace ∧
        (told c.trace).filter (· ∈ bringUpEvents) = bringUpEvents.reverse))) =
        some ([(some .network, .started)], [], true) := by decide +kernel
  obtain ⟨c, hc, hw⟩ := Option.map_eq_some_iff.1 h
  simp only [Prod.mk.injEq, decide_eq_true_eq, Option.isNone_iff_eq_none] at hw
  obtain ⟨hpolled, hfifo, hrest, htold⟩ := hw
  have hboot : Boot ⟨[], false, .boot, .boot⟩ := rfl
  have hr := turns_run (.boot hboot) hc
  exact ⟨c, hr, hpolled, hfifo, (System.running_idle hr _).1 hrest, htold⟩

/-- In every run each call that belongs to a state follows a read of that state, with
neither a further read nor anything that may move the machine in between. -/
theorem reads_fresh {k : SuperviseKconfig} {c : Config} (hr : (system k).Run Boot c) :
    Every (fun entry past => entry.1 = .supervisor → ∀ o r, entry.2 = .did o r → ∀ states, o.needs = some states →
      InState states past) c.trace := by
  refine (established_readFirst.hist hr).every fun t e m h ht o r he states hn => ?_
  obtain rfl : e = .did o r := he
  exact h.2 ht states hn

theorem reads_fresh_portal : ∃ c, (system defaultSuperviseKconfig).Run Boot c ∧
    .appStateDeliver .provisioningStarted .network ∈ told c.trace ∧
    Every (fun entry past => entry.1 = .supervisor → ∀ o r, entry.2 = .did o r → ∀ states, o.needs = some states →
      InState states past) c.trace := by
  obtain ⟨c, hr, -, -, -, htold, -⟩ := portalOpens_run
  exact ⟨c, hr, htold, reads_fresh hr⟩

end Steps

end LedLamp.AppMain
