import LedLamp.Conc.Carried
import LedLamp.Conc.Exec
import LedLamp.Mqtt.System
/-!
# The module lock is made on first use

`System` has one lock that is always there. In `mqtt_cfg.c` it is a mutex that the first
caller creates: `mqtt_cfg_lock_ensure` loads the handle `s_lock`, creates a mutex if there
is none and publishes it by a compare-exchange; whoever loses that race deletes its own.
Here a `lock` and an `unlock` are the steps of that code, and other threads come between them.

The OSAL is not part of the repository: creation may fail, and may return any handle that is
not in use; a take waits while the mutex is held. What happens on a handle that is not in
use is left open, and `lock_published_once` says that it never is.
-/

namespace LedLamp.Mqtt

open Conc Lamp

/-- `osal_mutex_id_t`, without NULL. -/
abbrev MutexId := Nat

inductive LazyOp
  | loadLock
  | compareExchangeLock (created : MutexId)
  | osalMutexCreate (name : String)
  | osalMutexDelete (id : MutexId)
  | osalMutexTake (id : Option MutexId)
  | osalMutexGive (id : Option MutexId)
  | other (o : Op)
  deriving DecidableEq

@[reducible] def LazyRes : LazyOp → Type
  | .loadLock | .osalMutexCreate _ => Option MutexId
  | .compareExchangeLock _ => Bool
  | .other o => Res o
  | _ => Unit

abbrev LazyAct := Prog LazyOp LazyRes

abbrev lazyAct (o : LazyOp) : LazyAct (LazyRes o) := .perform o

/-! ## The lock functions -/

/-- `mqtt_cfg_lock_ensure` once it has created a mutex. -/
def publishLock (created : MutexId) : LazyAct Bool := do
  if ← lazyAct (.compareExchangeLock created) then return true
  else
    lazyAct (.osalMutexDelete created)
    return true

/-- `mqtt_cfg_lock_ensure` once it has found no handle. -/
def createLock : LazyAct Bool := do
  match ← lazyAct (.osalMutexCreate "mqtt_cfg") with
  | none => return false
  | some created => publishLock created

def mqttCfgLockEnsure : LazyAct Bool := do
  let lock ← lazyAct .loadLock
  if lock.isSome then return true else createLock

/-- `osal_mutex_take(s_lock)`. -/
def takeLock : LazyAct Unit := do
  let lock ← lazyAct .loadLock
  lazyAct (.osalMutexTake lock)

/-- `osal_mutex_give(s_lock)`. -/
def giveLock : LazyAct Unit := do
  let lock ← lazyAct .loadLock
  lazyAct (.osalMutexGive lock)

def mqttCfgLock : LazyAct Unit := do
  if ← mqttCfgLockEnsure then takeLock else return ()

def mqttCfgUnlock : LazyAct Unit := do
  let lock ← lazyAct .loadLock
  if lock.isSome then giveLock else return ()

/-! ## The module with such a lock -/

/-- A mutex of the OSAL, with the thread that created it. -/
structure Mutex where
  creator : Tid
  holder : Option Tid

/-- `s_lock`, the mutexes in use, and the rest of the world; its `lock` is not used. -/
structure LazyWorld where
  lock : Option MutexId
  mutexes : MutexId → Option Mutex
  module : World

def LazyWorld.setMutex (w : LazyWorld) (id : MutexId) (mutex : Option Mutex) : LazyWorld :=
  { w with mutexes := Function.update w.mutexes id mutex }

abbrev LazyEvent := Conc.Event LazyOp LazyRes Call Ret
abbrev LazyEntry := Conc.Entry Tid LazyOp LazyRes Call Ret
abbrev LazyMoment := Conc.Moment Tid LazyWorld LazyOp LazyRes Call Ret
abbrev LazyConfig := Conc.Config Tid LazyWorld LazyOp LazyRes Call Ret

def lazyStep (t : Tid) (w : LazyWorld) : (o : LazyOp) → LazyRes o → Option LazyWorld
  | .loadLock, value => if value = w.lock then some w else none
  | .compareExchangeLock created, adopted =>
    match w.lock, adopted with
    | none, true => some { w with lock := some created }
    | some _, false => some w
    | _, _ => none
  | .osalMutexCreate _, none => some w
  | .osalMutexCreate _, some id => if (w.mutexes id).isSome then none else some (w.setMutex id (some ⟨t, none⟩))
  | .osalMutexDelete id, _ => some (w.setMutex id none)
  | .osalMutexTake none, _ | .osalMutexGive none, _ => some w
  | .osalMutexTake (some id), _ =>
    match w.mutexes id with
    | none => some w
    | some mutex => if mutex.holder = none then some (w.setMutex id (some { mutex with holder := some t })) else none
  | .osalMutexGive (some id), _ =>
    match w.mutexes id with
    | none => some w
    | some mutex =>
      some (if mutex.holder = some t then w.setMutex id (some { mutex with holder := none }) else w)
  | .other o, r => (stepEffect t w.module o r).map fun module => { w with module }

def lazyEffect (t : Tid) (e : LazyEvent) (w : LazyWorld) : Option LazyWorld :=
  match e with
  | .call c => (effect t (.call c) w.module).map fun module => { w with module }
  | .did o r => lazyStep t w o r
  | .ret s => (effect t (.ret s) w.module).map fun module => { w with module }

/-- How the operations of the module are carried out. -/
def carry : (o : Op) → LazyAct (Res o)
  | .lock => mqttCfgLock
  | .unlock => mqttCfgUnlock
  | o => lazyAct (.other o)

def lazySystem (parse : List UInt8 → Option Json) : System Tid LazyWorld LazyOp LazyRes Call Ret :=
  (system parse).carried carry lazyEffect

/-- The static initializers: no handle. -/
def LazyBoot (w : LazyWorld) : Prop := w.lock = none ∧ w.mutexes = (fun _ => none) ∧ Boot w.module

theorem carry_other {o : Op} (hl : o ≠ .lock) (hu : o ≠ .unlock) : carry o = lazyAct (.other o) := by
  cases o with
  | lock => exact absurd rfl hl
  | unlock => exact absurd rfl hu
  | _ => rfl

/-! ## What an event changes -/

/-- The handle an event publishes. -/
def publishes : LazyEvent → Option MutexId
  | .did (.compareExchangeLock id) true => some id
  | _ => none

/-- The mutexes an event makes or ends. -/
def handlesOf : LazyEvent → Option MutexId
  | .did (.osalMutexCreate _) created => created
  | .did (.osalMutexDelete id) _ => some id
  | _ => none

/-- The creation of a mutex that fails. -/
def failsCreate : LazyEvent → Bool
  | .did (.osalMutexCreate _) none => true
  | _ => false

/-- Everything an event can change of the lock, and which event changes it. -/
structure LazyChanges (t : Tid) (e : LazyEvent) (w w' : LazyWorld) : Prop where
  lock : (publishes e = none ∧ w'.lock = w.lock) ∨
    ∃ id, e = .did (.compareExchangeLock id) true ∧ w.lock = none ∧ w'.lock = some id
  mutexes : ∀ id, (handlesOf e ≠ some id ∧ w'.mutexes id = w.mutexes id) ∨
    (∃ name, e = .did (.osalMutexCreate name) (some id) ∧ w.mutexes id = none ∧ w'.mutexes id = some ⟨t, none⟩) ∨
    (e = .did (.osalMutexDelete id) () ∧ w'.mutexes id = none) ∨
    ((e = .did (.osalMutexTake (some id)) () ∨ e = .did (.osalMutexGive (some id)) ()) ∧
      ∃ mutex holder, w.mutexes id = some mutex ∧ w'.mutexes id = some { mutex with holder := holder })

theorem LazyChanges.none {t : Tid} {e : LazyEvent} {w w' : LazyWorld} (hp : publishes e = none)
    (hh : handlesOf e = none) (hl : w'.lock = w.lock) (hm : w'.mutexes = w.mutexes) : LazyChanges t e w w' :=
  ⟨.inl ⟨hp, hl⟩, fun id => .inl ⟨by simp [hh], congrFun hm id⟩⟩

/-- Setting one mutex changes that one. -/
theorem setMutex_changes {w : LazyWorld} {id : MutexId} {mutex : Option Mutex} {t : Tid} {e : LazyEvent}
    (hp : publishes e = none) (hh : ∀ id', id' ≠ id → handlesOf e ≠ some id')
    (h : (∃ name, e = .did (.osalMutexCreate name) (some id) ∧ w.mutexes id = none ∧ mutex = some ⟨t, none⟩) ∨
      (e = .did (.osalMutexDelete id) () ∧ mutex = none) ∨
      ((e = .did (.osalMutexTake (some id)) () ∨ e = .did (.osalMutexGive (some id)) ()) ∧
        ∃ old holder, w.mutexes id = some old ∧ mutex = some { old with holder := holder })) :
    LazyChanges t e w (w.setMutex id mutex) := by
  refine ⟨.inl ⟨hp, rfl⟩, fun id' => ?_⟩
  by_cases hid : id' = id
  · subst hid
    right
    simpa [LazyWorld.setMutex] using h
  · exact .inl ⟨hh id' hid, Function.update_of_ne hid _ _⟩

theorem lazyStep_changes {t : Tid} {o : LazyOp} {r : LazyRes o} {w w' : LazyWorld} (h : lazyStep t w o r = some w') :
    LazyChanges t (.did o r) w w' := by
  cases o with
  | loadLock =>
    simp only [lazyStep, Option.ite_none_right_eq_some, Option.some.injEq] at h
    obtain ⟨-, rfl⟩ := h
    exact .none rfl rfl rfl rfl
  | compareExchangeLock created =>
    by_cases hl : w.lock = none
    · cases r with
      | true =>
        simp only [lazyStep, hl, Option.some.injEq] at h
        subst h
        exact ⟨.inr ⟨created, rfl, hl, rfl⟩, fun _ => .inl ⟨(fun h => by cases h), rfl⟩⟩
      | false => simp [lazyStep, hl] at h
    · obtain ⟨id, hl⟩ := Option.ne_none_iff_exists'.1 hl
      cases r with
      | true => simp [lazyStep, hl] at h
      | false =>
        simp only [lazyStep, hl, Option.some.injEq] at h
        subst h
        exact .none rfl rfl rfl rfl
  | osalMutexCreate name =>
    cases r with
    | none =>
      obtain rfl := Option.some.inj h
      exact .none rfl rfl rfl rfl
    | some id =>
      simp only [lazyStep, Option.ite_none_left_eq_some, Option.some.injEq] at h
      obtain ⟨hid, rfl⟩ := h
      exact setMutex_changes rfl (fun id' hne h => hne (Option.some.inj h).symm) (.inl ⟨name, rfl, by simpa using hid, rfl⟩)
  | osalMutexDelete id =>
    obtain rfl := Option.some.inj h
    exact setMutex_changes rfl (fun id' hne h => hne (Option.some.inj h).symm) (.inr (.inl ⟨rfl, rfl⟩))
  | osalMutexTake id =>
    cases id with
    | none =>
      obtain rfl := Option.some.inj h
      exact .none rfl rfl rfl rfl
    | some id =>
      cases hm : w.mutexes id with
      | none =>
        simp only [lazyStep, hm, Option.some.injEq] at h
        subst h
        exact .none rfl rfl rfl rfl
      | some mutex =>
        simp only [lazyStep, hm, Option.ite_none_right_eq_some, Option.some.injEq] at h
        obtain ⟨-, rfl⟩ := h
        exact setMutex_changes rfl (fun _ _ h => by cases h) (.inr (.inr ⟨.inl rfl, mutex, _, hm, rfl⟩))
  | osalMutexGive id =>
    cases id with
    | none =>
      obtain rfl := Option.some.inj h
      exact .none rfl rfl rfl rfl
    | some id =>
      cases hm : w.mutexes id with
      | none =>
        simp only [lazyStep, hm, Option.some.injEq] at h
        subst h
        exact .none rfl rfl rfl rfl
      | some mutex =>
        simp only [lazyStep, hm, Option.some.injEq] at h
        subst h
        split
        · exact setMutex_changes rfl (fun _ _ h => by cases h) (.inr (.inr ⟨.inr rfl, mutex, _, hm, rfl⟩))
        · exact .none rfl rfl rfl rfl
  | other o =>
    simp only [lazyStep, Option.map_eq_some_iff] at h
    obtain ⟨module, -, rfl⟩ := h
    exact .none rfl rfl rfl rfl

theorem lazyEffect_changes {t : Tid} {e : LazyEvent} {w w' : LazyWorld} (h : lazyEffect t e w = some w') :
    LazyChanges t e w w' := by
  cases e with
  | did o r => exact lazyStep_changes h
  | call c =>
    simp only [lazyEffect, Option.map_eq_some_iff] at h
    obtain ⟨module, -, rfl⟩ := h
    exact .none rfl rfl rfl rfl
  | ret s =>
    simp only [lazyEffect, Option.map_eq_some_iff] at h
    obtain ⟨module, -, rfl⟩ := h
    exact .none rfl rfl rfl rfl

/-! ## Who may use which handle -/

/-- A mutex that `t` has created and not published. -/
def Mine (t : Tid) (id : MutexId) (m : LazyMoment) : Prop :=
  m.world.mutexes id = some ⟨t, none⟩ ∧ m.world.lock ≠ some id

/-- The published handle. -/
def PublishedAs (id : MutexId) (m : LazyMoment) : Prop := m.world.lock = some id

def LockPublished (m : LazyMoment) : Prop := ∃ id, PublishedAs id m

/-- The mutexes `t` has created are deleted or published, but for those of `own`. -/
def LockSettled (t : Tid) (own : List MutexId) (m : LazyMoment) : Prop :=
  ∀ id mutex, m.world.mutexes id = some mutex → mutex.creator = t → PublishedAs id m ∨ id ∈ own

/-- Threads publish and delete only mutexes of their own, and take and give only the
published one, and leave none behind. -/
def Handles : Conc.Promise Tid LazyWorld LazyOp LazyRes Call Ret := fun t e m =>
  match e with
  | .did (.compareExchangeLock id) _ => Mine t id m
  | .did (.osalMutexDelete id) _ => Mine t id m ∧ LockPublished m
  | .did (.osalMutexTake id) _ | .did (.osalMutexGive id) _ => ∃ published, id = some published ∧ PublishedAs published m
  | .did _ _ => True
  | .call _ | .ret _ => LockSettled t [] m

section Rules
variable {parse : List UInt8 → Option Json} {K : Conc.Promise Tid LazyWorld LazyOp LazyRes Call Ret} {t : Tid}
variable {e : LazyEvent} {m : LazyMoment} {w : LazyWorld} {id : MutexId} {own : List MutexId}

theorem lazy_changes {Φ : Conc.Promise Tid LazyWorld LazyOp LazyRes Call Ret}
    (hd : Does (lazySystem parse) LazyBoot K Φ t e m w) : LazyChanges t e m.world w := lazyEffect_changes hd.effect

/-- The handle never changes once it is published. -/
theorem LazyChanges.published (h : LazyChanges t e m.world w) (hp : PublishedAs id m) : PublishedAs id (m.after t e w) := by
  rcases h.lock with ⟨-, e'⟩ | ⟨-, -, e', -⟩
  · exact e'.trans hp
  · rw [hp] at e'
    cases e'

theorem stable_publishedAs (id : MutexId) : Stable (lazySystem parse) LazyBoot K Handles t (PublishedAs id) :=
  fun _ _ _ _ _ hd _ h => (lazy_changes hd).published h

theorem stable_published : Stable (lazySystem parse) LazyBoot K Handles t LockPublished :=
  fun _ _ _ _ _ hd _ h => h.imp fun _ => (lazy_changes hd).published

/-- Nobody else touches a mutex that is not published. -/
theorem LazyChanges.mine {t' : Tid} (h : LazyChanges t' e m.world w) (hp : Handles t' e m) (ht : t' ≠ t)
    (hmine : Mine t id m) : Mine t id (m.after t' e w) := by
  obtain ⟨hm, hl⟩ := hmine
  constructor
  · rcases h.mutexes id with ⟨-, e'⟩ | ⟨name, -, e', -⟩ | ⟨rfl, -⟩ | ⟨e', -⟩
    · exact e'.trans hm
    · rw [hm] at e'
      cases e'
    · have howner := hp.1.1.symm.trans hm
      cases howner
      exact absurd rfl ht
    · rcases e' with rfl | rfl
      all_goals
        obtain ⟨published, hpub, hlock⟩ := hp
        cases hpub
        exact absurd hlock hl
  · rcases h.lock with ⟨-, e'⟩ | ⟨id', rfl, -, e'⟩
    · exact fun h => hl (e'.symm.trans h)
    · intro h
      obtain rfl := Option.some.inj (e'.symm.trans h)
      have howner := hp.1.symm.trans hm
      cases howner
      exact ht rfl

theorem stable_mine (id : MutexId) : Stable (lazySystem parse) LazyBoot K Handles t (Mine t id) :=
  fun _ _ _ _ ht hd hp h => (lazy_changes hd).mine hp ht h

/-- Only a creation adds to the mutexes of its thread. -/
theorem LazyChanges.settled {t' : Tid} (h : LazyChanges t' e m.world w) (hs : LockSettled t own m)
    (hcreate : ∀ name id, e = .did (.osalMutexCreate name) (some id) → t' ≠ t) : LockSettled t own (m.after t' e w) := by
  have keep : ∀ id, PublishedAs id m ∨ id ∈ own → PublishedAs id (m.after t' e w) ∨ id ∈ own :=
    fun id => Or.imp_left h.published
  intro id mutex hm hc
  rw [Moment.after_world] at hm
  rcases h.mutexes id with ⟨-, e'⟩ | ⟨name, he, -, e'⟩ | ⟨-, e'⟩ | ⟨-, old, holder, hold, e'⟩
  · exact keep id (hs id mutex (e'.symm.trans hm) hc)
  · obtain rfl := Option.some.inj (e'.symm.trans hm)
    exact absurd hc (hcreate name id he)
  · cases e'.symm.trans hm
  · obtain rfl := Option.some.inj (e'.symm.trans hm)
    exact keep id (hs id old hold hc)

theorem stable_lockSettled : Stable (lazySystem parse) LazyBoot K Handles t (LockSettled t own) :=
  fun _ _ _ _ ht hd _ h => (lazy_changes hd).settled h fun _ _ _ => ht

theorem settled_published (h : LockSettled t [id] m) (hp : PublishedAs id m) : LockSettled t [] m := by
  intro id' mutex hm hc
  rcases h id' mutex hm hc with hpub | hid
  · exact .inl hpub
  · obtain rfl := List.mem_singleton.1 hid
    exact .inl hp

/-- The published mutex is in use. -/
theorem published_live (hm : Hist (lazySystem parse) LazyBoot (K.and Handles) m) (hpub : PublishedAs id m) :
    (m.world.mutexes id).isSome = true := by
  induction hm with
  | start hw => cases hw.1.symm.trans hpub
  | @step m t e w hm he hp ih =>
    have hchanges : LazyChanges t e m.world w := lazyEffect_changes he
    have hlive : (m.world.mutexes id).isSome = true := by
      rcases hchanges.lock with ⟨-, e'⟩ | ⟨id', rfl, -, e'⟩
      · exact ih (e'.symm.trans hpub)
      · obtain rfl := Option.some.inj (e'.symm.trans hpub)
        have hmine : Mine t id' m := hp.2
        simp [hmine.1]
    rw [Moment.after_world]
    rcases hchanges.mutexes id with ⟨-, e'⟩ | ⟨-, -, -, e'⟩ | ⟨rfl, -⟩ | ⟨-, mutex, holder, -, e'⟩
    · rwa [e']
    · simp [e']
    · have hmine : Mine t id m := hp.2.1
      rcases hchanges.lock with ⟨-, e'⟩ | ⟨id', he', -⟩
      · exact absurd (e'.symm.trans hpub) hmine.2
      · cases he'
    · simp [e']

/-! ## The programs -/

theorem lazyStep_loadLock {r : Option MutexId} {w w' : LazyWorld} (h : lazyStep t w .loadLock r = some w') :
    r = w.lock ∧ w' = w := by
  simp only [lazyStep, Option.ite_none_right_eq_some, Option.some.injEq] at h
  exact ⟨h.1, h.2.symm⟩

theorem loaded_lock {r : Option MutexId} {Φ : Conc.Promise Tid LazyWorld LazyOp LazyRes Call Ret}
    (hd : Does (lazySystem parse) LazyBoot K Φ t (.did .loadLock r) m w) : r = m.world.lock ∧ w = m.world :=
  lazyStep_loadLock (t := t) hd.effect

/-- A thread reads the handle and acts on what it read. -/
theorem withLock_triple (use : Option MutexId → LazyOp)
    (huse : ∀ id m, (∃ published, id = some published ∧ PublishedAs published m) → ∀ r, Handles t (.did (use id) r) m)
    (hplain : ∀ id name, use id ≠ .osalMutexCreate name) :
    Triple (lazySystem parse) LazyBoot K Handles t (fun m => LockSettled t [] m ∧ LockPublished m)
      (.op .loadLock fun lock => .op (use lock) fun _ => .ret ()) fun _ m => LockSettled t [] m := by
  refine .op (fun lock m => LockSettled t [] m ∧ ∃ published, lock = some published ∧ PublishedAs published m)
    (stable_lockSettled.and stable_published) ?_ fun lock => ?_
  · rintro m r w hd ⟨hs, id, hpub⟩
    obtain ⟨rfl, rfl⟩ := loaded_lock hd
    exact ⟨trivial, hs, id, hpub, hpub⟩
  · refine .op (fun _ => LockSettled t []) (stable_lockSettled.and ?_) ?_ fun _ => .ret fun _ h => h
    · rintro t' e m w ht hd hp ⟨published, rfl, hpub⟩
      exact ⟨published, rfl, stable_publishedAs published t' e m w ht hd hp hpub⟩
    · rintro m r w hd ⟨hs, hpub⟩
      exact ⟨huse lock m hpub r, (lazy_changes hd).settled hs fun name id he =>
        absurd (Event.did.inj he).1 (hplain lock name)⟩

theorem publishLock_triple (created : MutexId) :
    Triple (lazySystem parse) LazyBoot K Handles t (fun m => LockSettled t [created] m ∧ Mine t created m)
      (publishLock created) fun b m => LockSettled t [] m ∧ (b = true → LockPublished m) := by
  refine .op (fun adopted m => LockSettled t [created] m ∧ LockPublished m ∧
    if adopted = true then PublishedAs created m else Mine t created m) (stable_lockSettled.and (stable_mine created)) ?_
    fun adopted => ?_
  · rintro m adopted w hd ⟨hs, hmine⟩
    have hs' := (lazy_changes hd).settled hs fun name id he => by cases he
    refine ⟨hmine, hs', ?_⟩
    have h : lazyStep t m.world (.compareExchangeLock created) adopted = some w := hd.effect
    cases adopted with
    | true =>
      by_cases hl : m.world.lock = none
      · simp only [lazyStep, hl, Option.some.injEq] at h
        subst h
        exact ⟨⟨created, rfl⟩, rfl⟩
      · obtain ⟨id, hl⟩ := Option.ne_none_iff_exists'.1 hl
        simp [lazyStep, hl] at h
    | false =>
      by_cases hl : m.world.lock = none
      · simp [lazyStep, hl] at h
      · obtain ⟨id, hl⟩ := Option.ne_none_iff_exists'.1 hl
        simp only [lazyStep, hl, Option.some.injEq] at h
        subst h
        exact ⟨⟨id, hl⟩, hmine⟩
  · cases adopted with
    | true => exact .ret fun m h => ⟨settled_published h.1 h.2.2, fun _ => h.2.1⟩
    | false =>
      refine .op (fun _ m => LockSettled t [] m ∧ LockPublished m)
        (stable_lockSettled.and (stable_published.and (stable_mine created))) ?_ fun _ => .ret fun m h => ⟨h.1, fun _ => h.2⟩
      rintro m r w hd ⟨hs, hpub, hmine⟩
      have hs' := (lazy_changes hd).settled hs fun name id he => by cases he
      refine ⟨⟨hmine, hpub⟩, ?_, hpub.imp fun _ => (lazy_changes hd).published⟩
      intro id mutex hm hc
      refine (hs' id mutex hm hc).imp_right fun hid => ?_
      have h : lazyStep t m.world (.osalMutexDelete created) r = some w := hd.effect
      obtain rfl := Option.some.inj h
      obtain rfl := List.mem_singleton.1 hid
      simp [LazyWorld.setMutex] at hm

theorem createLock_triple : Triple (lazySystem parse) LazyBoot K Handles t (LockSettled t []) createLock
    fun b m => LockSettled t [] m ∧ (b = true → LockPublished m) := by
  refine .op (fun created m => LockSettled t created.toList m ∧ ∀ id, created = some id → Mine t id m) stable_lockSettled ?_
    fun created => ?_
  · intro m created w hd hs
    cases created with
    | none =>
      exact ⟨trivial, (lazy_changes hd).settled hs (fun name id he => by cases he), fun id he => by cases he⟩
    | some created =>
      have h : lazyStep t m.world (.osalMutexCreate "mqtt_cfg") (some created) = some w := hd.effect
      simp only [lazyStep, Option.ite_none_left_eq_some, Option.some.injEq] at h
      obtain ⟨hfresh, rfl⟩ := h
      refine ⟨trivial, fun id mutex hm hc => ?_, ?_⟩
      · by_cases hid : id = created
        · exact .inr (by simp [hid])
        · have hm' : m.world.mutexes id = some mutex := (Function.update_of_ne hid _ _).symm.trans hm
          exact (hs id mutex hm' hc).imp_right fun h => by cases h
      · rintro id he
        obtain rfl := Option.some.inj he
        exact ⟨Function.update_self .., fun hpub => hfresh (published_live hd.hist hpub)⟩
  · cases created with
    | none => exact .ret fun m h => ⟨h.1, fun hb => by cases hb⟩
    | some created => exact (publishLock_triple created).pre fun m h => ⟨h.1, h.2 created rfl⟩

/-- A load of `s_lock`: a handle that was read is the published one. -/
theorem loadLock_triple {α : Type} {f : Option MutexId → LazyAct α}
    {Q : α → Conc.Assertion Tid LazyWorld LazyOp LazyRes Call Ret}
    (hf : ∀ lock, Triple (lazySystem parse) LazyBoot K Handles t
      (fun m => LockSettled t [] m ∧ (lock.isSome = true → LockPublished m)) (f lock) Q) :
    Triple (lazySystem parse) LazyBoot K Handles t (LockSettled t []) (lazyAct .loadLock >>= f) Q := by
  refine .op (fun lock m => LockSettled t [] m ∧ (lock.isSome = true → LockPublished m)) stable_lockSettled ?_ hf
  intro m lock w hd hs
  obtain ⟨rfl, rfl⟩ := loaded_lock hd
  exact ⟨trivial, hs, Option.isSome_iff_exists.1⟩

theorem mqttCfgLockEnsure_triple : Triple (lazySystem parse) LazyBoot K Handles t (LockSettled t []) mqttCfgLockEnsure
    fun b m => LockSettled t [] m ∧ (b = true → LockPublished m) := by
  refine loadLock_triple fun lock => ?_
  cases lock with
  | none => exact createLock_triple.pre fun m h => h.1
  | some id => exact .ret fun m h => ⟨h.1, fun _ => h.2 rfl⟩

theorem mqttCfgLock_triple :
    Triple (lazySystem parse) LazyBoot K Handles t (LockSettled t []) mqttCfgLock fun _ => LockSettled t [] := by
  refine mqttCfgLockEnsure_triple.bind _ fun ensured => ?_
  cases ensured with
  | false => exact .ret fun m h => h.1
  | true =>
    exact (withLock_triple .osalMutexTake (fun _ _ h _ => h) (fun _ _ h => by cases h)).pre
      fun m h => ⟨h.1, h.2 rfl⟩

theorem mqttCfgUnlock_triple :
    Triple (lazySystem parse) LazyBoot K Handles t (LockSettled t []) mqttCfgUnlock fun _ => LockSettled t [] := by
  refine loadLock_triple fun lock => ?_
  cases lock with
  | none => exact .ret fun m h => h.1
  | some id =>
    exact (withLock_triple .osalMutexGive (fun _ _ h _ => h) (fun _ _ h => by cases h)).pre
      fun m h => ⟨h.1, h.2 rfl⟩

theorem carry_triple (o : Op) :
    Triple (lazySystem parse) LazyBoot K Handles t (LockSettled t []) (carry o) fun _ => LockSettled t [] := by
  by_cases hl : o = .lock
  · subst hl
    exact mqttCfgLock_triple
  by_cases hu : o = .unlock
  · subst hu
    exact mqttCfgUnlock_triple
  rw [carry_other hl hu]
  refine .op (fun _ => LockSettled t []) stable_lockSettled (fun m r w hd hs => ⟨trivial, ?_⟩) fun _ => .ret fun _ h => h
  exact (lazy_changes hd).settled hs fun name id he => by cases he

end Rules

/-- A thread that runs no call has published or deleted what it created. -/
theorem idle_settled {parse : List UInt8 → Option Json} {t : Tid} {m : LazyMoment}
    (hm : Hist (lazySystem parse) LazyBoot (Sequential.and Handles) m) (hi : Idle t m.trace) : LockSettled t [] m :=
  stable_lockSettled.idle (fun w hw id mutex hmutex _ => by simp [hw.2.1] at hmutex)
    (fun s m w hd hs => (lazy_changes hd).settled hs fun name id he => by cases he) hm hi

theorem established_handles {parse : List UInt8 → Option Json} :
    Established (lazySystem parse) LazyBoot (Sequential.and Handles) := by
  refine established established_sequential fun t call => ?_
  refine Fulfils.of_triple (LockSettled t []) (fun _ => LockSettled t []) (fun m w hd => ?_)
    (Triple.hoist carry_triple (body parse call)) (fun _ => stable_lockSettled) fun _ _ _ _ hs => hs
  have hidle := idle_settled hd.hist (hd.known call rfl)
  exact ⟨hidle, (lazy_changes hd).settled hidle fun name id he => by cases he⟩

/-! ## In the trace -/

def publishedIn (trace : List LazyEntry) : List MutexId := trace.filterMap fun entry => publishes entry.2

/-- The handle an event takes or gives. -/
def locks : LazyEvent → Option (Option MutexId)
  | .did (.osalMutexTake id) _ | .did (.osalMutexGive id) _ => some id
  | _ => none

/-- The mutex that `t` created under this handle is in use. -/
def InUse (t : Tid) (id : MutexId) : List LazyEntry → Prop :=
  Since (fun entry => entry.2 ≠ .did (.osalMutexDelete id) ()) fun entry _ =>
    entry.1 = t ∧ ∃ name, entry.2 = .did (.osalMutexCreate name) (some id)

section Traces
variable {t : Tid} {e : LazyEvent} {m : LazyMoment} {w w' : LazyWorld} {id : MutexId} {past : List LazyEntry}

theorem publishedIn_cons (h : LazyChanges t e w w') (hpast : publishedIn past = w.lock.toList) :
    publishedIn ((t, e) :: past) = w'.lock.toList := by
  unfold publishedIn at hpast ⊢
  rcases h.lock with ⟨hp, hl⟩ | ⟨id, rfl, hnone, hsome⟩
  · simp only [List.filterMap_cons, hp, hl, hpast]
  · have hp : publishes (.did (.compareExchangeLock id) true) = some id := rfl
    simp only [List.filterMap_cons, hp, hpast, hnone, hsome, Option.toList]

theorem inUse_cons {t' : Tid} (h : LazyChanges t' e w w')
    (hpast : InUse t id past ↔ ∃ mutex, w.mutexes id = some mutex ∧ mutex.creator = t) :
    InUse t id ((t', e) :: past) ↔ ∃ mutex, w'.mutexes id = some mutex ∧ mutex.creator = t := by
  have skip : handlesOf e ≠ some id → (InUse t id ((t', e) :: past) ↔ InUse t id past) := fun hh => by
    refine since_skip (fun he => hh (congrArg handlesOf he)) fun hc => ?_
    obtain ⟨-, name, he⟩ := hc
    exact hh (congrArg handlesOf he)
  rcases h.mutexes id with ⟨hh, e'⟩ | ⟨name, rfl, hnone, e'⟩ | ⟨rfl, e'⟩ | ⟨he, old, holder, hold, e'⟩
  · rw [skip hh, hpast, e']
  · have hno : ¬ InUse t id past := by simp [hpast, hnone]
    rw [InUse, since_cons, e']
    constructor
    · rintro (⟨rfl, -⟩ | ⟨-, hin⟩)
      · exact ⟨_, rfl, rfl⟩
      · exact absurd hin hno
    · rintro ⟨mutex, hm, rfl⟩
      obtain rfl := Option.some.inj hm
      exact .inl ⟨rfl, name, rfl⟩
  · rw [InUse, since_cons, e']
    simp
  · have hh : handlesOf e ≠ some id := by rcases he with rfl | rfl <;> exact fun h => by cases h
    rw [skip hh, hpast, e', hold]
    simp

/-- What an event passes to the OSAL is in use: it takes and gives the one published
mutex, and deletes one of its thread's own. -/
def PassesLive (entry : LazyEntry) (past : List LazyEntry) : Prop :=
  (∀ handle ∈ locks entry.2, ∃ id t, handle = some id ∧ publishedIn past = [id] ∧ InUse t id past) ∧
    ∀ id, entry.2 = .did (.osalMutexDelete id) () →
      InUse entry.1 id past ∧ publishedIn past ≠ [id] ∧ publishedIn past ≠ []

/-- What the trace says of the world. -/
structure LockTold (m : LazyMoment) : Prop where
  published : publishedIn m.trace = m.world.lock.toList
  inUse : ∀ t id, InUse t id m.trace ↔ ∃ mutex, m.world.mutexes id = some mutex ∧ mutex.creator = t
  passes : Every PassesLive m.trace

theorem told_passes {parse : List UInt8 → Option Json} {K : Conc.Promise Tid LazyWorld LazyOp LazyRes Call Ret}
    (hm : Hist (lazySystem parse) LazyBoot (K.and Handles) m) (h : LockTold m) (hp : Handles t e m) :
    PassesLive (t, e) m.trace := by
  have live : ∀ handle, (∃ published, handle = some published ∧ PublishedAs published m) →
      ∃ id t, handle = some id ∧ publishedIn m.trace = [id] ∧ InUse t id m.trace := by
    rintro handle ⟨id, rfl, hpub⟩
    obtain ⟨mutex, hmutex⟩ := Option.isSome_iff_exists.1 (published_live hm hpub)
    refine ⟨id, mutex.creator, rfl, ?_, (h.inUse _ id).2 ⟨mutex, hmutex, rfl⟩⟩
    rw [h.published, show m.world.lock = some id from hpub]
    rfl
  constructor
  · intro handle hh
    cases e with
    | did o r =>
      cases o with
      | osalMutexTake id =>
        obtain rfl := Option.some.inj hh
        exact live _ hp
      | osalMutexGive id =>
        obtain rfl := Option.some.inj hh
        exact live _ hp
      | _ => cases hh
    | _ => cases hh
  · rintro id rfl
    obtain ⟨⟨hmutex, hne⟩, published, hpub⟩ := hp
    have hlock : m.world.lock = some published := hpub
    refine ⟨(h.inUse t id).2 ⟨_, hmutex, rfl⟩, ?_, ?_⟩
    · rw [h.published, hlock]
      intro e
      exact hne (hlock.trans (congrArg some (List.singleton_inj.1 e)))
    · rw [h.published, hlock]
      exact List.cons_ne_nil _ _

theorem hist_told {parse : List UInt8 → Option Json} {K : Conc.Promise Tid LazyWorld LazyOp LazyRes Call Ret}
    (hm : Hist (lazySystem parse) LazyBoot (K.and Handles) m) : LockTold m := by
  induction hm with
  | start hw =>
    obtain ⟨hl, hmutexes, -⟩ := hw
    exact ⟨by simp [publishedIn, hl], fun t id => by simp [InUse, hmutexes], trivial⟩
  | step hm he hp ih =>
    have hchanges := lazyEffect_changes he
    exact ⟨publishedIn_cons hchanges ih.published, fun t id => inUse_cons hchanges (ih.inUse t id),
      told_passes hm ih hp.2, ih.passes⟩

end Traces

/-- What each step of a validation returns when nothing fails; the next handle is the first
that is not in use. -/
def granting : (o : LazyOp) → LazyWorld → Option (LazyRes o)
  | .loadLock, w => some w.lock
  | .compareExchangeLock _, w => some w.lock.isNone
  | .osalMutexCreate _, w => some (if (w.mutexes 0).isNone then some 0 else some 1)
  | .osalMutexDelete _, _ | .osalMutexTake _, _ | .osalMutexGive _, _ => some ()
  | .other (.writeVerifiedApplied _), _ | .other .mqttConfigInvalidateVerified, _ => some ()
  | .other .lampControlForceInactive, w => some (lampControlForceInactive w.module.lamp).1
  | _, _ => none

def goes (id steps : Nat) : List (Tid × Option Call) := List.replicate steps (.task id, none)

/-- Two tasks validate no configuration; both find no handle and create a mutex each. -/
def raceForLock : List (Tid × Option Call) :=
  (.task 0, some (.validate none)) :: goes 0 1 ++ (.task 1, some (.validate none)) :: goes 1 2 ++ goes 0 2 ++
    goes 1 11 ++ goes 0 9

def raceStart : LazyWorld := ⟨none, fun _ => none, .boot (.boot fun _ => .ok)⟩

theorem raceForLock_run : ∃ c, (lazySystem fun _ => none).Run LazyBoot c ∧
    c.trace.filterMap (fun entry => handlesOf entry.2) = [0, 1, 0] ∧ c.world.lock = some 1 ∧
    (c.trace.any fun entry => failsCreate entry.2) = false := by
  have h : (turns (lazySystem fun _ => none) granting raceForLock (System.boot raceStart)).map (fun c =>
      (c.trace.filterMap (fun entry => handlesOf entry.2), c.world.lock, c.trace.any fun entry => failsCreate entry.2)) =
        some ([0, 1, 0], some 1, false) := by decide +kernel
  obtain ⟨c, hc, hw⟩ := Option.map_eq_some_iff.1 h
  simp only [Prod.mk.injEq] at hw
  have hboot : LazyBoot raceStart := ⟨rfl, rfl, _, rfl⟩
  exact ⟨c, turns_run (.boot hboot) hc, hw.1, hw.2.1, hw.2.2⟩

/-- In every interleaving, and whichever creations fail: a handle is published at most
once and stays; the OSAL is only passed mutexes in use, the published one to take and
give, one of its own to the loser of the race to delete; and a thread at rest has left no
mutex behind but the published. -/
theorem lock_published_once {parse : List UInt8 → Option Json} {c : LazyConfig} (hr : (lazySystem parse).Run LazyBoot c) :
    publishedIn c.trace = c.world.lock.toList ∧ Every PassesLive c.trace ∧
      ∀ t id, Idle t c.trace → InUse t id c.trace → c.world.lock = some id := by
  have hm := established_handles.hist hr
  have htold := hist_told hm
  refine ⟨htold.published, htold.passes, fun t id hidle hin => ?_⟩
  obtain ⟨mutex, hmutex, hcreator⟩ := (htold.inUse t id).1 hin
  exact (idle_settled hm hidle id mutex hmutex hcreator).resolve_right fun h => by cases h

theorem lock_published_once_race : ∃ c, (lazySystem fun _ => none).Run LazyBoot c ∧
    c.trace.filterMap (fun entry => handlesOf entry.2) = [0, 1, 0] ∧ publishedIn c.trace = [1] ∧ Every PassesLive c.trace := by
  obtain ⟨c, hr, hh, hl, -⟩ := raceForLock_run
  obtain ⟨hpublished, hpasses, -⟩ := lock_published_once hr
  exact ⟨c, hr, hh, by rw [hpublished, hl]; rfl, hpasses⟩

end LedLamp.Mqtt
