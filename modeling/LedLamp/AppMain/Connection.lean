import LedLamp.TbApplication.System
/-!
# Connect and disconnect events of `app_main.c`

The transport thread runs the client's callbacks: a connect only leaves a flag, which
the supervisor picks up, while a disconnect tells `ota_manager` and `tb_application`
at once. Each shared access and each call into another component is one step. The
session (its client, and whether it is in bootstrap mode) is set by the supervisor and
fixed here. Of the client it is assumed that it says it is connected only between
a connect event and the disconnect or connect failure after it.

Nothing keeps a disconnect from coming between the supervisor's check of the client
and what it tells the listeners then: the connect outlives it
(`stale_connect_outlives`). `stale_connect` says that this window is the only way.
-/

namespace LedLamp.AppMain.Connection

open Conc
open TbApplication (TbClient TbAppModule)

/-- The supervisor's task and the client's transport thread. -/
inductive Tid
  | supervisor
  | transport
  deriving DecidableEq

/-- Who is told of a connect and of a disconnect. -/
inductive Listener
  | tbApplication
  | otaManager
  deriving DecidableEq

/-- The session as `app_main.c` holds it: `s_tb_client` and `s_tb_needs_provisioning`. -/
structure Session where
  tbClient : Option TbClient
  tbNeedsProvisioning : Bool
  deriving DecidableEq

/-- The listeners that are told of a connect. -/
def Session.tells (session : Session) : Listener → Bool
  | .tbApplication => true
  | .otaManager => !session.tbNeedsProvisioning

/-- The steps; the last two are `tb_application_on_connected`, `ota_manager_on_connected`
and their counterparts. `ota_manager_on_disconnected` ignores the client. -/
inductive Op
  | exchangePending
  | storePending (value : Bool)
  | loadTbClient
  | loadNeedsProvisioning
  | tbClientIsConnected (client : TbClient)
  | onConnected (listener : Listener) (client : TbClient)
  | onDisconnected (listener : Listener) (client : TbClient)
  deriving DecidableEq

@[reducible] def Res : Op → Type
  | .exchangePending | .loadNeedsProvisioning | .tbClientIsConnected _ => Bool
  | .loadTbClient => Option TbClient
  | .storePending _ | .onConnected _ _ | .onDisconnected _ _ => Unit

abbrev Act (α : Type) := Prog Op Res α

def act (o : Op) : Act (Res o) := .perform o

/-! ## The functions -/

def thingsboardOnConnected : Act Unit := act (.storePending true)

def thingsboardOnDisconnected (client : TbClient) : Act Unit := do
  act (.storePending false)
  act (.onDisconnected .otaManager client)
  act (.onDisconnected .tbApplication client)

def thingsboardOnConnectFailure (client : TbClient) : Act Unit := do
  act (.storePending false)
  act (.onDisconnected .tbApplication client)

def serviceThingsboardConnection : Act Unit := do
  if !(← act .exchangePending) then return ()
  else match ← act .loadTbClient with
    | none => return ()
    | some client =>
      if ← act (.tbClientIsConnected client) then
        act (.onConnected .tbApplication client)
        if !(← act .loadNeedsProvisioning) then act (.onConnected .otaManager client)

/-! ## The system -/

inductive Call
  | serviceThingsboardConnection
  | thingsboardOnConnected (client : TbClient)
  | thingsboardOnDisconnected (client : TbClient)
  | thingsboardOnConnectFailure (client : TbClient)
  deriving DecidableEq

/-- `s_tb_connected_pending`, the state of the link, and the module `tb_application`. -/
structure World where
  pending : Bool
  link : Bool
  tb : TbAppModule

abbrev Event := Conc.Event Op Res Call Unit
abbrev Entry := Conc.Entry Tid Op Res Call Unit
abbrev Moment := Conc.Moment Tid World Op Res Call Unit
abbrev Config := Conc.Config Tid World Op Res Call Unit
abbrev Promise := Conc.Promise Tid World Op Res Call Unit

/-- `tb_application_on_connected` and `_on_disconnected` as one step. -/
def tellTbApplication (client : TbClient) (connected : Bool) (tb : TbAppModule) : TbAppModule :=
  if !tb.initialized || tb.client ≠ some client then tb else { tb with connected }

def body : Call → Act Unit
  | .serviceThingsboardConnection => Connection.serviceThingsboardConnection
  | .thingsboardOnConnected _ => Connection.thingsboardOnConnected
  | .thingsboardOnDisconnected client => Connection.thingsboardOnDisconnected client
  | .thingsboardOnConnectFailure client => Connection.thingsboardOnConnectFailure client

def stepEffect (session : Session) (w : World) : (o : Op) → Res o → Option World
  | .exchangePending, old => if old = w.pending then some { w with pending := false } else none
  | .storePending value, _ => some { w with pending := value }
  | .loadTbClient, client => if client = session.tbClient then some w else none
  | .loadNeedsProvisioning, needs => if needs = session.tbNeedsProvisioning then some w else none
  | .tbClientIsConnected _, connected => if connected && !w.link then none else some w
  | .onConnected .tbApplication client, _ => some { w with tb := tellTbApplication client true w.tb }
  | .onDisconnected .tbApplication client, _ => some { w with tb := tellTbApplication client false w.tb }
  | .onConnected .otaManager _, _ | .onDisconnected .otaManager _, _ => some w

/-- What a callback reports of the link; callbacks come from the session's client. -/
def callEffect (session : Session) (t : Tid) (w : World) : Call → Option World
  | .serviceThingsboardConnection => if t = .supervisor then some w else none
  | .thingsboardOnConnected client =>
    if t = .transport ∧ session.tbClient = some client then some { w with link := true } else none
  | .thingsboardOnDisconnected client | .thingsboardOnConnectFailure client =>
    if t = .transport ∧ session.tbClient = some client then some { w with link := false } else none

def effect (session : Session) (t : Tid) (e : Event) (w : World) : Option World :=
  match e with
  | .call c => callEffect session t w c
  | .did o r => stepEffect session w o r
  | .ret _ => some w

def system (session : Session) : System Tid World Op Res Call Unit where
  body := body
  effect := effect session

/-- A session that has not connected yet. -/
def Boot (w : World) : Prop := w.pending = false ∧ w.link = false ∧ w.tb.connected = false

/-! ## The step as a program -/

/-- The step is what the module's function does when it runs alone. -/
theorem setConnected_alone {cJsonParse : List UInt8 → Option Json} {build : TbApplication.Build} {t : Mqtt.Tid}
    {w w' : TbApplication.World} {done : List TbApplication.Done} {client : TbClient} {connected : Bool}
    {tell : TbClient → TbApplication.Act Unit} (htell : ∀ c w done w',
      Exec (TbApplication.system cJsonParse build) t (tell c) w done () w' → w'.tb = w.tb)
    (h : Exec (TbApplication.system cJsonParse build) t (TbApplication.setConnected (some client) connected tell)
      w done () w') :
    w'.tb = tellTbApplication client connected w.tb := by
  simp only [TbApplication.setConnected, TbApplication.act, Prog.perform_bind, exec_op] at h
  obtain ⟨_, w₁, _, htake, -, tb, w₂, _, hload, -, h⟩ := h
  simp only [TbApplication.system, TbApplication.effect, TbApplication.stepEffect, Option.ite_none_right_eq_some,
    Option.some.injEq] at htake hload
  obtain ⟨-, rfl⟩ := htake
  obtain ⟨rfl, rfl⟩ := hload
  dsimp only at h
  rw [tellTbApplication]
  split at h
  · rename_i hne
    obtain ⟨he, -⟩ := exec_perform.1 h
    cases he
    rw [if_pos hne]
  · rename_i hne
    rw [if_neg hne]
    simp only [exec_op] at h
    obtain ⟨_, w₁, _, hstore, -, _, w₂, _, hgive, -, h⟩ := h
    cases hstore
    cases hgive
    exact htell _ _ _ _ h

theorem tbApplication_alone {cJsonParse : List UInt8 → Option Json} {build : TbApplication.Build} {t : Mqtt.Tid}
    {w w' : TbApplication.World} {done : List TbApplication.Done} {client : TbClient} :
    (Exec (TbApplication.system cJsonParse build) t (TbApplication.tbApplicationOnConnected (some client)) w done () w' →
      w'.tb = tellTbApplication client true w.tb) ∧
    (Exec (TbApplication.system cJsonParse build) t (TbApplication.tbApplicationOnDisconnected (some client)) w done () w' →
      w'.tb = tellTbApplication client false w.tb) := by
  constructor <;>
  · refine setConnected_alone fun c w done w' h => ?_
    obtain ⟨he, -⟩ := exec_perform.1 h
    cases he
    rfl

/-! ## Traces -/

/-- A callback begins. -/
def begins : Entry → Bool
  | (.transport, .call _) => true
  | _ => false

/-- A listener is told of a connect. -/
def tellsConnect (l : Listener) : Entry → Bool
  | (_, .did (.onConnected l' _) _) => l' = l
  | _ => false

/-- A listener is told of a disconnect. -/
def tellsDisconnect (l : Listener) : Entry → Bool
  | (_, .did (.onDisconnected l' _) _) => l' = l
  | _ => false

/-- The supervisor reads that the client is connected. -/
def readsConnected : Entry → Bool
  | (_, .did (.tbClientIsConnected _) connected) => connected
  | _ => false

/-- The supervisor's call returns. -/
def supervisorReturns : Entry → Bool
  | (.supervisor, .ret _) => true
  | _ => false

/-- The supervisor has read that the client is connected, and has neither told the
listener since nor returned. -/
def Heading (l : Listener) : List Entry → Prop :=
  Since (fun e => !tellsConnect l e && !supervisorReturns e) fun e _ => readsConnected e = true

/-- The latest callback has told the listener of a disconnect. -/
def Told (l : Listener) : List Entry → Prop := Since (fun e => !begins e) fun e _ => tellsDisconnect l e = true

/-- The listener was told of a disconnect last. -/
def ToldLast (l : Listener) : List Entry → Prop :=
  Since (fun e => !tellsConnect l e) fun e _ => tellsDisconnect l e = true

/-- No listener is told of a disconnect while the supervisor is about to tell it of a
connect. -/
def Undisturbed (session : Session) : Entry → List Entry → Prop
  | (_, .did (.onDisconnected l _) _), past => session.tells l = true → ¬ Heading l past
  | _, _ => True

instance (l : Listener) (tr : List Entry) : Decidable (Heading l tr) := inferInstanceAs (Decidable (Since _ _ _))

instance (l : Listener) (tr : List Entry) : Decidable (ToldLast l tr) := inferInstanceAs (Decidable (Since _ _ _))

instance (session : Session) : ∀ e past, Decidable (Undisturbed session e past) := by
  unfold Undisturbed
  intro e past
  split <;> infer_instance

/-! ## What the calls keep to -/

/-- The steps of each call. -/
def Op.of : Call → Op → Bool
  | .serviceThingsboardConnection, o =>
    match o with
    | .exchangePending | .loadTbClient | .loadNeedsProvisioning | .tbClientIsConnected _ | .onConnected _ _ => true
    | _ => false
  | .thingsboardOnConnected _, o => o = .storePending true
  | .thingsboardOnDisconnected client, o =>
    o = .storePending false || o = .onDisconnected .otaManager client || o = .onDisconnected .tbApplication client
  | .thingsboardOnConnectFailure client, o => o = .storePending false || o = .onDisconnected .tbApplication client

theorem body_uses (call : Call) : (body call).Uses fun o => Op.of call o = true := by
  cases call with
  | serviceThingsboardConnection =>
    refine .perform rfl fun pending => ?_
    split
    · trivial
    · refine .perform rfl fun client => ?_
      cases client with
      | none => trivial
      | some client =>
        refine .perform rfl fun connected => ?_
        split
        · refine .perform rfl fun _ => .perform rfl fun needs => ?_
          split
          · exact ⟨rfl, fun _ => trivial⟩
          · trivial
        · trivial
  | thingsboardOnConnected client => exact ⟨by simp [Op.of], fun _ => trivial⟩
  | thingsboardOnDisconnected client =>
    exact .perform (by simp [Op.of]) fun _ => .perform (by simp [Op.of]) fun _ => ⟨by simp [Op.of], fun _ => trivial⟩
  | thingsboardOnConnectFailure client => exact .perform (by simp [Op.of]) fun _ => ⟨by simp [Op.of], fun _ => trivial⟩

variable {session : Session} {m : Moment} {t : Tid} {l : Listener}

/-- The promise of the footprint. -/
abbrev Footprint : Promise := Within fun c o => Op.of c o = true

/-- A listener is told of a connect only after the client was read to be connected, and
a disconnect returns only after it told both of them. -/
def Ordered (session : Session) : Promise := fun t e m =>
  match e with
  | .did (.onConnected l client) _ => Heading l m.trace ∧ session.tells l = true ∧ session.tbClient = some client
  | .ret _ => ∀ client, lastCall t m.trace = some (.thingsboardOnDisconnected client) → ∀ l, Told l m.trace
  | _ => True

theorem footprint (session : Session) : Established (system session) Boot Footprint := established_within body_uses

/-- A call starts on its own thread. -/
theorem effect_call {c : Call} {w w' : World} (h : effect session t (.call c) w = some w') :
    (c = .serviceThingsboardConnection ∧ t = .supervisor ∧ w' = w) ∨
      (t = .transport ∧ ((∃ client, c = .thingsboardOnConnected client ∧ w' = { w with link := true }) ∨
        ∃ client, session.tbClient = some client ∧ w' = { w with link := false } ∧
          (c = .thingsboardOnDisconnected client ∨ c = .thingsboardOnConnectFailure client))) := by
  cases c with
  | serviceThingsboardConnection =>
    simp only [effect, callEffect, Option.ite_none_right_eq_some, Option.some.injEq] at h
    exact .inl ⟨rfl, h.1, h.2.symm⟩
  | thingsboardOnConnected client =>
    simp only [effect, callEffect, Option.ite_none_right_eq_some, Option.some.injEq] at h
    exact .inr ⟨h.1.1, .inl ⟨client, rfl, h.2.symm⟩⟩
  | thingsboardOnDisconnected client =>
    simp only [effect, callEffect, Option.ite_none_right_eq_some, Option.some.injEq] at h
    exact .inr ⟨h.1.1, .inr ⟨client, h.1.2, h.2.symm, .inl rfl⟩⟩
  | thingsboardOnConnectFailure client =>
    simp only [effect, callEffect, Option.ite_none_right_eq_some, Option.some.injEq] at h
    exact .inr ⟨h.1.1, .inr ⟨client, h.1.2, h.2.symm, .inr rfl⟩⟩

/-- What an event can change, and which event changes it. -/
structure Changes (t : Tid) (e : Event) (w w' : World) : Prop where
  link : w'.link = w.link ∨ begins (t, e) = true
  tb : w'.tb = w.tb ∨
    (∃ client, e = .did (.onConnected .tbApplication client) () ∧ w'.tb = tellTbApplication client true w.tb) ∨
    ∃ client, e = .did (.onDisconnected .tbApplication client) () ∧ w'.tb = tellTbApplication client false w.tb

theorem effect_changes {e : Event} {w w' : World} (h : effect session t e w = some w') : Changes t e w w' := by
  cases e with
  | call c =>
    rcases effect_call h with ⟨-, -, rfl⟩ | ⟨rfl, ⟨_, -, rfl⟩ | ⟨_, -, rfl, -⟩⟩
    · exact ⟨.inl rfl, .inl rfl⟩
    all_goals exact ⟨.inr rfl, .inl rfl⟩
  | did o r =>
    cases o with
    | onConnected l client =>
      cases l with
      | tbApplication =>
        obtain rfl := Option.some.inj h
        exact ⟨.inl rfl, .inr (.inl ⟨client, rfl, rfl⟩)⟩
      | otaManager =>
        obtain rfl := Option.some.inj h
        exact ⟨.inl rfl, .inl rfl⟩
    | onDisconnected l client =>
      cases l with
      | tbApplication =>
        obtain rfl := Option.some.inj h
        exact ⟨.inl rfl, .inr (.inr ⟨client, rfl, rfl⟩)⟩
      | otaManager =>
        obtain rfl := Option.some.inj h
        exact ⟨.inl rfl, .inl rfl⟩
    | storePending value =>
      obtain rfl := Option.some.inj h
      exact ⟨.inl rfl, .inl rfl⟩
    | exchangePending | loadTbClient | loadNeedsProvisioning =>
      simp only [effect, stepEffect, Option.ite_none_right_eq_some, Option.some.injEq] at h
      obtain ⟨-, rfl⟩ := h
      exact ⟨.inl rfl, .inl rfl⟩
    | tbClientIsConnected client =>
      simp only [effect, stepEffect, Option.ite_none_left_eq_some, Option.some.injEq] at h
      obtain ⟨-, rfl⟩ := h
      exact ⟨.inl rfl, .inl rfl⟩
  | ret s =>
    obtain rfl := Option.some.inj h
    exact ⟨.inl rfl, .inl rfl⟩

/-- Each call runs on its own thread. -/
theorem lastCall_thread {Φ : Promise} (hm : Hist (system session) Boot Φ m) {c : Call}
    (hc : lastCall t m.trace = some c) : c = .serviceThingsboardConnection ↔ t = .supervisor := by
  refine Hist.during (A := fun _ => c = .serviceThingsboardConnection ↔ t = .supervisor) ?_
    (fun _ _ _ _ _ _ _ _ h => h) hm hc
  intro m w _ he
  rcases effect_call he with ⟨rfl, rfl, -⟩ | ⟨rfl, ⟨_, rfl, -⟩ | ⟨_, -, -, rfl | rfl⟩⟩ <;> simp

/-- The callbacks that report that the link is down. -/
def Call.reportsDown (client : TbClient) (c : Call) : Prop :=
  c = .thingsboardOnDisconnected client ∨ c = .thingsboardOnConnectFailure client

/-- They come from the session's client, and the link is down until the next callback. -/
theorem reportsDown {Φ : Promise} (hm : Hist (system session) Boot Φ m) {c : Call} {client : TbClient}
    (hc : lastCall .transport m.trace = some c) (hd : c.reportsDown client) :
    session.tbClient = some client ∧ m.world.link = false := by
  refine Hist.during (A := fun m => session.tbClient = some client ∧ m.world.link = false) ?_ ?_ hm hc
  · intro m w _ he
    rw [Moment.after_world]
    rcases effect_call he with ⟨-, ht, -⟩ | ⟨-, ⟨_, rfl, -⟩ | ⟨client', hs, rfl, hc'⟩⟩
    · cases ht
    · rcases hd with hd | hd <;> cases hd
    · rcases hd with rfl | rfl <;> rcases hc' with hc' | hc' <;> cases hc' <;> exact ⟨hs, rfl⟩
  · intro m t e w _ he _ hno h
    have hb : ¬ begins (t, e) = true := by
      intro hb
      cases t <;> cases e <;> first | exact hno _ rfl rfl | cases hb
    rw [Moment.after_world, (effect_changes he).link.resolve_right hb]
    exact h

/-! ## The promise is kept -/

/-- Only the supervisor tells a listener of a connect. -/
theorem tellsConnect_supervisor {Φ : Promise} {e : Event} (hm : Hist (system session) Boot Φ m) (hf : Footprint t e m)
    (he : tellsConnect l (t, e) = true) : t = .supervisor := by
  unfold tellsConnect at he
  split at he
  · rename_i heq
    cases heq
    obtain ⟨c, hc, hof⟩ := hf
    refine (lastCall_thread hm hc).1 ?_
    cases c with
    | serviceThingsboardConnection => rfl
    | _ => simp [Op.of] at hof
  · cases he

variable {K Φ : Promise}

theorem stable_heading : Stable (system session) Boot Footprint Φ .supervisor fun m => Heading l m.trace := by
  intro t' e m w ht hd _ h
  refine Since.later ?_ h
  have hno : tellsConnect l (t', e) = false := by
    by_contra htell
    exact ht (tellsConnect_supervisor hd.hist hd.known (by simpa using htell))
  have hret : supervisorReturns (t', e) = false := by
    cases t' with
    | supervisor => exact absurd rfl ht
    | transport => rfl
  simp [hno, hret]

theorem stable_told : Stable (system session) Boot K Φ .transport fun m => Told l m.trace := by
  intro t' e m w ht _ _ h
  refine Since.later ?_ h
  cases t' with
  | supervisor => rfl
  | transport => exact absurd rfl ht

theorem stable_lastCall {c : Call} : Stable (system session) Boot K Φ t fun m => lastCall t m.trace = some c :=
  fun _ _ _ _ ht _ _ h => (lastCall_other ht _).trans h

theorem happens {e : Event} {w : World} (hd : Does (system session) Boot K Φ t e m w) :
    effect session t e m.world = some w := hd.effect

/-- In thread `t`'s call `c`. -/
def Busy (t : Tid) (c : Call) (m : Moment) : Prop := lastCall t m.trace = some c

/-- A call other than a disconnect may return at any time. -/
theorem busy_ret {c : Call} {s : Unit} (hne : ∀ client, c ≠ .thingsboardOnDisconnected client) (h : Busy t c m) :
    Ordered session t (.ret s) m := by
  intro client hc
  rw [h] at hc
  exact absurd (Option.some.inj hc) (hne client)

/-- A program that tells no listener of a connect. -/
theorem silent {α : Type} {c : Call} {p : Act α} (hp : p.Uses fun o => ∀ l client, o ≠ .onConnected l client) :
    Triple (system session) Boot Footprint (Ordered session) t (Busy t c) p fun _ => Busy t c := by
  refine .uses stable_lastCall (hp.mono fun o ho m r w hd h => ⟨?_, h⟩)
  cases o with
  | onConnected l client => exact absurd rfl (ho l client)
  | _ => trivial

/-- In the supervisor's call, for the session's client. -/
def Serving (session : Session) (client : TbClient) (m : Moment) : Prop :=
  Busy .supervisor .serviceThingsboardConnection m ∧ session.tbClient = some client

theorem stable_serving {client : TbClient} : Stable (system session) Boot K Φ .supervisor (Serving session client) :=
  stable_lastCall.and (stable_const _)

/-- The supervisor's call reads the client before it tells anyone. -/
theorem service_tells : Triple (system session) Boot Footprint (Ordered session) .supervisor
    (Busy .supervisor .serviceThingsboardConnection) serviceThingsboardConnection
    fun _ => Busy .supervisor .serviceThingsboardConnection := by
  have busy : Stable (system session) Boot Footprint (Ordered session) .supervisor
    (Busy .supervisor .serviceThingsboardConnection) := stable_lastCall
  simp only [serviceThingsboardConnection, act, Prog.perform_bind]
  refine .keep busy (fun m r w _ h => ⟨trivial, h⟩) fun pending => ?_
  split
  · exact .ret fun _ h => h
  refine .op (fun client m => Busy .supervisor .serviceThingsboardConnection m ∧ client = session.tbClient) busy ?_
    fun client => ?_
  · intro m client w hd h
    have he := happens hd
    simp only [effect, stepEffect, Option.ite_none_right_eq_some] at he
    exact ⟨trivial, h, he.1⟩
  cases client with
  | none => exact .ret fun _ h => h.1
  | some client =>
    refine .op (fun connected m => Serving session client m ∧ (connected = true → ∀ l, Heading l m.trace))
      (busy.and (stable_const _)) ?_ fun connected => ?_
    · intro m connected w _ h
      exact ⟨trivial, ⟨h.1, h.2.symm⟩, fun hc l => .now hc⟩
    cases connected with
    | false => exact .ret fun _ h => h.1.1
    | true =>
      -- The client is connected: `tb_application` is told first, then `ota_manager` unless in bootstrap mode.
      refine .op (fun _ m => Serving session client m ∧ Heading .otaManager m.trace) ?_ ?_ fun _ => ?_
      · exact stable_serving.and fun t' e m w ht hd hp h _ l => stable_heading t' e m w ht hd hp (h rfl l)
      · rintro m _ w _ ⟨hs, hh⟩
        exact ⟨⟨hh rfl _, rfl, hs.2⟩, hs, .later rfl (hh rfl _)⟩
      refine .op (fun needs m => (Serving session client m ∧ Heading .otaManager m.trace) ∧
        needs = session.tbNeedsProvisioning) (stable_serving.and stable_heading) ?_ fun needs => ?_
      · intro m needs w hd h
        have he := happens hd
        simp only [effect, stepEffect, Option.ite_none_right_eq_some] at he
        exact ⟨trivial, ⟨h.1, .later rfl h.2⟩, he.1⟩
      cases needs with
      | true => exact .ret fun _ h => h.1.1.1
      | false =>
        refine .op (fun _ => Busy .supervisor .serviceThingsboardConnection)
          ((stable_serving.and stable_heading).and (stable_const _)) ?_ fun _ => .ret fun _ h => h
        rintro m _ w _ ⟨⟨hs, hh⟩, hneeds⟩
        exact ⟨⟨hh, by simp [Session.tells, ← hneeds], hs.2⟩, hs.1⟩

/-- A disconnect tells both listeners before it returns. -/
theorem disconnect_tells (client : TbClient) : Triple (system session) Boot Footprint (Ordered session) .transport
    (Busy .transport (.thingsboardOnDisconnected client)) (thingsboardOnDisconnected client)
    fun _ m => ∀ l, Told l m.trace := by
  have busy : Stable (system session) Boot Footprint (Ordered session) .transport
    (Busy .transport (.thingsboardOnDisconnected client)) := stable_lastCall
  refine .keep busy (fun m r w _ h => ⟨trivial, h⟩) fun _ => ?_
  refine .op (fun _ m => Told .otaManager m.trace) busy (fun m _ w _ _ => ⟨trivial, .now rfl⟩) fun _ => ?_
  refine .op (fun _ m => ∀ l, Told l m.trace) stable_told ?_ fun _ => .ret fun _ h => h
  refine fun m _ w _ h => ⟨trivial, fun l => ?_⟩
  cases l with
  | tbApplication => exact .now rfl
  | otaManager => exact .later rfl h

theorem ordered (session : Session) : Established (system session) Boot (Footprint.and (Ordered session)) := by
  refine established (footprint session) fun t c => ?_
  have start : ∀ m w, Does (system session) Boot Footprint (Ordered session) t (.call c) m w →
      Ordered session t (.call c) m ∧ Busy t c (m.after t (.call c) w) := fun m w _ => ⟨trivial, lastCall_call t c _⟩
  have other : (∀ client, c ≠ .thingsboardOnDisconnected client) →
      Triple (system session) Boot Footprint (Ordered session) t (Busy t c) (body c) (fun _ => Busy t c) →
      Fulfils (system session) Boot Footprint (Ordered session) t c := fun hne hbody =>
    Fulfils.of_triple (Busy t c) (fun _ => Busy t c) start hbody (fun _ => stable_lastCall) fun _ _ _ _ h => busy_ret hne h
  cases c with
  | serviceThingsboardConnection =>
    intro m w hd
    rcases effect_call (happens hd) with ⟨-, rfl, -⟩ | ⟨-, ⟨_, h, -⟩ | ⟨_, -, -, h | h⟩⟩
    · exact other (by simp) service_tells m w hd
    all_goals cases h
  | thingsboardOnConnected client => exact other (by simp) (silent ⟨by simp, fun _ => trivial⟩)
  | thingsboardOnDisconnected client =>
    intro m w hd
    rcases effect_call (happens hd) with ⟨h, -, -⟩ | ⟨rfl, -⟩
    · cases h
    · exact Fulfils.of_triple _ (fun _ m => ∀ l, Told l m.trace) start (disconnect_tells client)
        (fun _ t' e m w ht hd hp h l => stable_told t' e m w ht hd hp (h l)) (fun _ _ _ _ h _ _ => h) m w hd
  | thingsboardOnConnectFailure client =>
    exact other (by simp) (silent ⟨by simp, fun _ => ⟨by simp, fun _ => trivial⟩⟩)

/-! ## After a disconnect -/

/-- Both promises. -/
abbrev Kept (session : Session) : Promise := Footprint.and (Ordered session)

/-- Who is told of a disconnect is told by a callback that reports the link down. -/
theorem tellsDisconnect_down {e : Event} (hm : Hist (system session) Boot (Kept session) m) (hf : Footprint t e m)
    (he : tellsDisconnect l (t, e) = true) : ∃ client, e = .did (.onDisconnected l client) () ∧
      session.tbClient = some client ∧ m.world.link = false := by
  unfold tellsDisconnect at he
  split at he
  · rename_i l' client _ heq
    cases heq
    obtain rfl : l' = l := of_decide_eq_true he
    obtain ⟨c, hc, hof⟩ := hf
    have down : c.reportsDown client := by
      cases c with
      | serviceThingsboardConnection => cases hof
      | thingsboardOnConnected client' => simp [Op.of] at hof
      | thingsboardOnDisconnected client' =>
        refine .inl ?_
        simp only [Op.of, Bool.or_eq_true, decide_eq_true_eq, reduceCtorEq, Op.onDisconnected.injEq, false_or] at hof
        rcases hof with ⟨-, rfl⟩ | ⟨-, rfl⟩ <;> rfl
      | thingsboardOnConnectFailure client' =>
        refine .inr ?_
        simp only [Op.of, Bool.or_eq_true, decide_eq_true_eq, reduceCtorEq, Op.onDisconnected.injEq, false_or] at hof
        obtain ⟨-, rfl⟩ := hof
        rfl
    obtain rfl : t = .transport := by
      have := lastCall_thread hm hc
      cases t with
      | transport => rfl
      | supervisor =>
        have := this.2 rfl
        rcases down with rfl | rfl <;> cases this
    obtain ⟨hs, hl⟩ := reportsDown hm hc down
    exact ⟨client, rfl, hs, hl⟩
  · cases he

/-- Once the latest callback has told the listener of a disconnect, the link is down,
the supervisor is not about to tell it of a connect, and has not done so since. -/
theorem told_quiet (hm : Hist (system session) Boot (Kept session) m) (hu : Every (Undisturbed session) m.trace)
    (ht : Told l m.trace) :
    m.world.link = false ∧ (session.tells l = true → ¬ Heading l m.trace) ∧ ToldLast l m.trace := by
  induction hm with
  | start hw => cases ht
  | @step m t e w hm he hp ih =>
    have he : effect session t e m.world = some w := he
    have link := (effect_changes he).link
    -- Either the disconnect is told right now, or it was told before and nothing began since.
    by_cases hdis : tellsDisconnect l (t, e) = true
    · obtain ⟨client, rfl, -, hlink⟩ := tellsDisconnect_down hm hp.1 hdis
      have hb : begins (t, .did (.onDisconnected l client) ()) = false := by cases t <;> rfl
      refine ⟨(link.resolve_right (by simp [hb])).trans hlink, fun hl hh => ?_, .now hdis⟩
      rcases hh with hh | ⟨-, hh⟩
      · cases hh
      · exact hu.1 hl hh
    rcases ht with ht | ⟨hb, ht⟩
    · exact absurd ht hdis
    obtain ⟨hlink, hnot, hlast⟩ := ih hu.2 ht
    have hb : begins (t, e) = false := by simpa using hb
    have hlink' : (m.after t e w).world.link = false := (link.resolve_right (by simp [hb])).trans hlink
    refine ⟨hlink', fun hl hh => ?_, ?_⟩
    · rcases hh with hread | ⟨-, hh⟩
      · -- It reads that the client is connected only while the link is up.
        unfold readsConnected at hread
        split at hread
        · rename_i heq
          cases heq
          simp only [effect, stepEffect, hlink, hread, Option.ite_none_left_eq_some] at he
          exact absurd rfl he.1
        · cases hread
      · exact hnot hl hh
    · by_cases htell : tellsConnect l (t, e) = true
      · unfold tellsConnect at htell
        split at htell
        · rename_i l' client _ heq
          cases heq
          obtain rfl : l' = l := of_decide_eq_true htell
          obtain ⟨hh, hl, -⟩ := hp.2
          exact absurd hh (hnot hl)
        · cases htell
      · exact .later (by simpa using htell) hlast

/-- The module counts as connected only with the session's client. -/
theorem connected_client (hm : Hist (system session) Boot (Kept session) m) (hc : m.world.tb.connected = true) :
    m.world.tb.initialized = true ∧ m.world.tb.client = session.tbClient := by
  induction hm with
  | start hw =>
    obtain ⟨-, -, h⟩ := hw
    rw [h] at hc
    cases hc
  | @step m t e w _ he hp ih =>
    rw [Moment.after_world] at hc ⊢
    rcases (effect_changes he).tb with h | ⟨client, rfl, h⟩ | ⟨client, rfl, h⟩
    · rw [h] at hc ⊢
      exact ih hc
    · rw [h, tellTbApplication] at hc ⊢
      split
      · rename_i hne
        rw [if_pos hne] at hc
        exact ih hc
      · rename_i hne
        simp only [ne_eq, Bool.or_eq_true, Bool.not_eq_true', decide_eq_true_eq, not_or, Bool.not_eq_false,
          Decidable.not_not] at hne
        exact ⟨hne.1, hne.2.trans hp.2.2.2.symm⟩
    · rw [h, tellTbApplication] at hc ⊢
      split
      · rename_i hne
        rw [if_pos hne] at hc
        exact ih hc
      · rename_i hne
        rw [if_neg hne] at hc
        cases hc

/-- Once the latest callback has told it of a disconnect, the module is not connected. -/
theorem told_disconnected (hm : Hist (system session) Boot (Kept session) m)
    (hu : Every (Undisturbed session) m.trace) (ht : Told .tbApplication m.trace) : m.world.tb.connected = false := by
  induction hm with
  | start hw => exact hw.2.2
  | @step m t e w hm he hp ih =>
    rw [Moment.after_world]
    by_cases hdis : tellsDisconnect .tbApplication (t, e) = true
    · obtain ⟨client, rfl, hs, -⟩ := tellsDisconnect_down hm hp.1 hdis
      obtain rfl := Option.some.inj he
      rw [tellTbApplication]
      split
      · rename_i hne
        by_contra hc
        obtain ⟨hi, hclient⟩ := connected_client hm (by simpa using hc)
        simp [hi, hclient, hs] at hne
      · rfl
    · rcases ht with ht | ⟨-, ht⟩
      · exact absurd ht hdis
      have hoff := ih hu.2 ht
      rcases (effect_changes he).tb with h | ⟨client, rfl, -⟩ | ⟨client, rfl, -⟩
      · rw [h]
        exact hoff
      · exact absurd hp.2.1 ((told_quiet hm hu.2 ht).2.1 rfl)
      · exact absurd rfl hdis

/-- At rest after a disconnect, it has told both listeners. -/
theorem told_at_rest (hm : Hist (system session) Boot (Kept session) m) (hidle : Idle .transport m.trace)
    {client : TbClient} (hlast : lastCall .transport m.trace = some (.thingsboardOnDisconnected client)) (l : Listener) :
    Told l m.trace := by
  have stable : Stable (system session) Boot Footprint (Ordered session) .transport
      fun m => Busy .transport (.thingsboardOnDisconnected client) m → Told l m.trace :=
    fun t' e m w ht hd hp h hb => stable_told t' e m w ht hd hp (h ((lastCall_other ht e).symm.trans hb))
  refine stable.idle ?_ ?_ hm hidle hlast
  · intro w _ hb
    cases hb
  · intro s m w _ hp hb
    exact .later rfl (hp client hb l)

/-! ## Runs -/

/-- In a run in which no disconnect tells a listener while the supervisor is about to
tell it of a connect: when all is at rest and the latest callback was a disconnect,
the module is not connected, and `ota_manager` was told of the disconnect last. -/
theorem stale_connect {c : Config} (hr : (system session).Run Boot c) (hu : Every (Undisturbed session) c.trace)
    (hidle : ∀ t, c.running t = none) {client : TbClient}
    (hlast : lastCall .transport c.trace = some (.thingsboardOnDisconnected client)) :
    c.world.tb.connected = false ∧ ToldLast .otaManager c.trace := by
  have hm := (ordered session).hist hr
  have told := told_at_rest hm ((System.running_idle hr .transport).1 (hidle .transport)) hlast
  exact ⟨told_disconnected hm hu (told .tbApplication), (told_quiet hm hu (told .otaManager)).2.2⟩

/-! ## A disconnect behind the check -/

/-- An enrolled device with its client. -/
def onlineSession : Session := ⟨some 1, false⟩

/-- Its module, initialized for that client. -/
def onlineWorld : World := ⟨false, false, { TbAppModule.boot with initialized := true, client := some 1 }⟩

def connects : List Entry :=
  [(.transport, .call (.thingsboardOnConnected 1)), (.transport, .did (.storePending true) ()), (.transport, .ret ())]

/-- The supervisor picks the connect up and reads that the client is connected. -/
def serviceBegins : List Entry :=
  [(.supervisor, .call .serviceThingsboardConnection), (.supervisor, .did .exchangePending true),
   (.supervisor, .did .loadTbClient (some 1)), (.supervisor, .did (.tbClientIsConnected 1) true)]

def serviceTells : List Entry :=
  [(.supervisor, .did (.onConnected .tbApplication 1) ()), (.supervisor, .did .loadNeedsProvisioning false),
   (.supervisor, .did (.onConnected .otaManager 1) ()), (.supervisor, .ret ())]

def disconnects : List Entry :=
  [(.transport, .call (.thingsboardOnDisconnected 1)), (.transport, .did (.storePending false) ()),
   (.transport, .did (.onDisconnected .otaManager 1) ()), (.transport, .did (.onDisconnected .tbApplication 1) ()),
   (.transport, .ret ())]

def replayed (entries : List Entry) : Option Config := (system onlineSession).replay entries (System.boot onlineWorld)

theorem replayed_run {entries : List Entry} {c : Config} (h : replayed entries = some c) :
    (system onlineSession).Run Boot c ∧ c.trace = entries.reverse :=
  ⟨System.run_replay (.boot ⟨rfl, rfl, rfl⟩) h, (System.replay_trace h).trans (List.append_nil _)⟩

/-- Both threads are at rest. -/
def atRest (c : Config) : Bool := (c.running .supervisor).isNone && (c.running .transport).isNone

theorem atRest_idle {c : Config} (h : atRest c = true) (t : Tid) : c.running t = none := by
  simp only [atRest, Bool.and_eq_true, Option.isNone_iff_eq_none] at h
  cases t with
  | supervisor => exact h.1
  | transport => exact h.2

/-- A disconnect after the supervisor is through. -/
theorem stale_connect_home : ∃ c, replayed (connects ++ serviceBegins ++ serviceTells ++ disconnects) = some c ∧
    c.world.tb.connected = false ∧ ToldLast .otaManager c.trace := by
  have h : (replayed (connects ++ serviceBegins ++ serviceTells ++ disconnects)).map atRest = some true := by decide
  obtain ⟨c, hc, hrest⟩ := Option.map_eq_some_iff.1 h
  obtain ⟨hr, htr⟩ := replayed_run hc
  have hlast : lastCall .transport c.trace = some (.thingsboardOnDisconnected 1) := by rw [htr]; decide
  exact ⟨c, hc, stale_connect hr (by rw [htr]; decide) (atRest_idle hrest) hlast⟩

/-- The disconnect comes right after the check: the module counts as connected after
it, and `ota_manager` was told of the connect last. -/
theorem stale_connect_outlives : ∃ c, replayed (connects ++ serviceBegins ++ disconnects ++ serviceTells) = some c ∧
    (∀ t, c.running t = none) ∧ lastCall .transport c.trace = some (.thingsboardOnDisconnected 1) ∧
      c.world.tb.connected = true ∧ ¬ ToldLast .otaManager c.trace := by
  have h : (replayed (connects ++ serviceBegins ++ disconnects ++ serviceTells)).map (fun c =>
      (atRest c, c.world.tb.connected)) = some (true, true) := by decide
  obtain ⟨c, hc, hw⟩ := Option.map_eq_some_iff.1 h
  obtain ⟨hrest, hconnected⟩ := Prod.mk.inj hw
  obtain ⟨-, htr⟩ := replayed_run hc
  exact ⟨c, hc, atRest_idle hrest, by rw [htr]; decide, hconnected, by rw [htr]; decide⟩

end LedLamp.AppMain.Connection
