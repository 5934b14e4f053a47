import LedLamp.Conc.Exec
/-!
# Calls that hold one lock

A module with one lock: each of its calls takes the lock, works on the state the lock
guards, gives the lock back and returns. The lock keeps nobody out by itself: an operation
on the state is never refused for it, and giving it back frees it, whoever holds it.

`Linearized` says that each call of a trace takes effect at one point between its start
and its return, and in which order they do. `linearizable` is the theorem: in every
interleaving there is such an order in which the calls, run one after the other, return
what they returned and leave the state there is.
-/

namespace Conc

variable {Tid St Op : Type} {Res : Op → Type} {Call Ret : Type} {α β : Type}

/-! ## Programs on the guarded state -/

/-- From `s` the program can return `a'` and leave `s'`. -/
def Prog.Leads (effect : (o : Op) → Res o → St → Option St) : Prog Op Res α → St → α → St → Prop
  | .ret a, s, a', s' => a' = a ∧ s' = s
  | .op o k, s, a', s' => ∃ r s₁, effect o r s = some s₁ ∧ (k r).Leads effect s₁ a' s'

/-- `p` is under way from `s`: `q` is left of it, and the state is `s'`. -/
inductive Prog.Way (effect : (o : Op) → Res o → St → Option St) (p : Prog Op Res α) (s : St) :
    Prog Op Res α → St → Prop
  | start : p.Way effect s p s
  | step {o : Op} {k : Res o → Prog Op Res α} {r : Res o} {s₁ s₂ : St} : p.Way effect s (.op o k) s₁ →
      effect o r s₁ = some s₂ → p.Way effect s (k r) s₂

section Way
variable {effect : (o : Op) → Res o → St → Option St} {p q : Prog Op Res α} {s s₁ s' : St} {a : α}

/-- Where the rest of a program leads, the program leads. -/
theorem Prog.Way.leads (h : p.Way effect s q s₁) (hq : q.Leads effect s₁ a s') : p.Leads effect s a s' := by
  induction h with
  | start => exact hq
  | step _ he ih => exact ih ⟨_, _, he, hq⟩

/-- What each operation keeps holds all the way. -/
theorem Prog.Way.keeps {A : St → Prop} (hA : ∀ o r v v', effect o r v = some v' → A v → A v')
    (h : p.Way effect s q s₁) (hs : A s) : A s₁ := by
  induction h with
  | start => exact hs
  | step _ he ih => exact hA _ _ _ _ he ih

theorem Prog.Leads.keeps {A : St → Prop} (hA : ∀ o r v v', effect o r v = some v' → A v → A v')
    (h : p.Leads effect s a s') (hs : A s) : A s' := by
  induction p generalizing s with
  | ret b =>
    obtain ⟨-, rfl⟩ := h
    exact hs
  | op o k ih =>
    obtain ⟨r, v, he, h⟩ := h
    exact ih r h (hA o r s v he hs)

end Way

section Determined
variable (exec : (o : Op) → St → Res o × St)

/-- What the program returns and leaves when the state determines every result. -/
def Prog.run : Prog Op Res α → St → α × St
  | .ret a, s => (a, s)
  | .op o k, s => (k (exec o s).1).run (exec o s).2

@[simp] theorem Prog.run_ret (a : α) (s : St) : (Prog.ret a : Prog Op Res α).run exec s = (a, s) := rfl

@[simp] theorem Prog.run_op (o : Op) (k : Res o → Prog Op Res α) (s : St) :
    (Prog.op o k).run exec s = (k (exec o s).1).run exec (exec o s).2 := rfl

@[simp] theorem Prog.run_perform (o : Op) (s : St) : (Prog.perform o : Prog Op Res (Res o)).run exec s = exec o s := rfl

@[simp] theorem Prog.run_bind (p : Prog Op Res α) (f : α → Prog Op Res β) (s : St) :
    (p >>= f).run exec s = (f (p.run exec s).1).run exec (p.run exec s).2 := by
  induction p generalizing s with
  | ret a => rfl
  | op o k ih => exact ih _ _

@[simp] theorem Prog.run_ite (c : Prop) [Decidable c] (p q : Prog Op Res α) (s : St) :
    (if c then p else q).run exec s = if c then p.run exec s else q.run exec s := by
  split <;> rfl

/-- The effect of operations whose result the state determines. -/
def determined [∀ o, DecidableEq (Res o)] (o : Op) (r : Res o) (s : St) : Option St :=
  if r = (exec o s).1 then some (exec o s).2 else none

variable {exec} [∀ o, DecidableEq (Res o)]

theorem determined_eq_some {o : Op} {r : Res o} {s s' : St} :
    determined exec o r s = some s' ↔ r = (exec o s).1 ∧ s' = (exec o s).2 := by
  rw [determined, Option.ite_none_right_eq_some, Option.some.injEq]
  exact and_congr_right fun _ => eq_comm

theorem leads_determined {p : Prog Op Res α} {s s' : St} {a : α} :
    p.Leads (determined exec) s a s' ↔ p.run exec s = (a, s') := by
  induction p generalizing s with
  | ret b =>
    rw [Prog.Leads, Prog.run_ret, Prod.mk.injEq]
    exact and_congr eq_comm eq_comm
  | op o k ih =>
    rw [Prog.run_op, ← ih]
    constructor
    · rintro ⟨r, s₁, he, h⟩
      obtain ⟨rfl, rfl⟩ := determined_eq_some.1 he
      exact h
    · exact fun h => ⟨_, _, determined_eq_some.2 ⟨rfl, rfl⟩, h⟩

end Determined

/-! ## The lock -/

/-- An operation of a module with one lock: on the lock, or on what it guards. -/
inductive LockOp (Op : Type) where
  | take
  | give
  | inside (o : Op)
  deriving DecidableEq

@[reducible] def LockRes (Res : Op → Type) : LockOp Op → Type
  | .inside o => Res o
  | _ => Unit

/-- What is left of a call inside its lock: `p`, and the lock is given back. -/
def Prog.release (p : Prog Op Res α) : Prog (LockOp Op) (LockRes Res) α :=
  p.hoist (fun o => .perform (.inside o)) >>= fun a => .op .give fun _ => .ret a

/-- A call that holds the lock for all it does. -/
def Prog.holding (p : Prog Op Res α) : Prog (LockOp Op) (LockRes Res) α := .op .take fun _ => p.release

structure Guarded (Tid St : Type) where
  holder : Option Tid
  state : St

/-- The module under any number of threads. -/
def lockSystem (body : Call → Prog Op Res Ret) (effect : (o : Op) → Res o → St → Option St) :
    System Tid (Guarded Tid St) (LockOp Op) (LockRes Res) Call Ret where
  body call := (body call).holding
  effect t e w :=
    match e with
    | .did .take _ => if w.holder.isNone then some { w with holder := some t } else none
    | .did .give _ => some { w with holder := none }
    | .did (.inside o) r => (effect o r w.state).map fun state => { w with state }
    | _ => some w

/-! ## Linearized traces -/

/-- Where a thread is with its call: at rest, before the call takes effect, after it. -/
inductive Phase (Call Ret : Type) where
  | idle
  | pending (call : Call)
  | effected (s : Ret)

section Linearized
variable [DecidableEq Tid]

/-- In the trace each call takes effect at one point, after it starts and before it
returns, with the result it returns; the history lists them in that order, newest first.
A call that has not returned yet may have taken effect. -/
inductive Linearized : List (Entry Tid Op Res Call Ret) → List (Tid × Call × Ret) → (Tid → Phase Call Ret) → Prop
  | nil : Linearized [] [] fun _ => .idle
  | call {trace history phase} {t : Tid} {call : Call} : Linearized trace history phase → phase t = .idle →
      Linearized ((t, .call call) :: trace) history (Function.update phase t (.pending call))
  | did {trace history phase} {t : Tid} {o : Op} {r : Res o} : Linearized trace history phase →
      Linearized ((t, .did o r) :: trace) history phase
  | point {trace history phase} {t : Tid} {call : Call} {s : Ret} : Linearized trace history phase →
      phase t = .pending call → Linearized trace ((t, call, s) :: history) (Function.update phase t (.effected s))
  | ret {trace history phase} {t : Tid} {s : Ret} : Linearized trace history phase → phase t = .effected s →
      Linearized ((t, .ret s) :: trace) history (Function.update phase t .idle)

/-- The calls of the history, run one after the other from `s₀`, return what it says and
leave the state. -/
inductive Serial (body : Call → Prog Op Res Ret) (effect : (o : Op) → Res o → St → Option St) (s₀ : St) :
    List (Tid × Call × Ret) → St → Prop
  | nil : Serial body effect s₀ [] s₀
  | cons {history s s'} {t : Tid} {call : Call} {r : Ret} : Serial body effect s₀ history s →
      (body call).Leads effect s r s' → Serial body effect s₀ ((t, call, r) :: history) s'

omit [DecidableEq Tid] in
/-- A serial run is cut where its history is. -/
theorem Serial.split {body : Call → Prog Op Res Ret} {effect : (o : Op) → Res o → St → Option St} {s₀ s : St}
    {newer older : List (Tid × Call × Ret)} (h : Serial body effect s₀ (newer ++ older) s) :
    ∃ s₁, Serial body effect s₀ older s₁ ∧ Serial body effect s₁ newer s := by
  induction newer generalizing s with
  | nil => exact ⟨s, h, .nil⟩
  | cons c newer ih =>
    cases h with
    | cons h hl =>
      obtain ⟨s₁, hold, hnew⟩ := ih h
      exact ⟨s₁, hold, .cons hnew hl⟩

omit [DecidableEq Tid] in
theorem Serial.keeps {body : Call → Prog Op Res Ret} {effect : (o : Op) → Res o → St → Option St} {A : St → Prop}
    (hA : ∀ o r v v', effect o r v = some v' → A v → A v') {s₀ s : St} {history : List (Tid × Call × Ret)}
    (h : Serial body effect s₀ history s) (hs : A s₀) : A s := by
  induction h with
  | nil => exact hs
  | cons _ hl ih => exact hl.keeps hA ih

end Linearized

/-! ## The order of the calls -/

section Order
variable [DecidableEq Tid] {trace : List (Entry Tid Op Res Call Ret)} {history : List (Tid × Call × Ret)}
  {phase : Tid → Phase Call Ret} {t : Tid}

/-- The call an entry starts, and what it returns. -/
def Event.started : Event Op Res Call Ret → Option Call
  | .call c => some c
  | _ => none

def Event.returned : Event Op Res Call Ret → Option Ret
  | .ret s => some s
  | _ => none

/-- The call that thread `t` is in the middle of. -/
def inFlight (t : Tid) : List (Entry Tid Op Res Call Ret) → Option Call
  | [] => none
  | (t', .call call) :: past => if t' = t then some call else inFlight t past
  | (t', .ret _) :: past => if t' = t then none else inFlight t past
  | _ :: past => inFlight t past

/-- An entry that starts no call outside `φ`. -/
def Starts (φ : Call → Prop) (entry : Entry Tid Op Res Call Ret) : Prop := ∀ call ∈ entry.2.started, φ call

/-- `t` starts `call` while only calls in `φ` are in flight, and only such calls start since. -/
def Among (φ : Call → Prop) (t : Tid) (call : Call) : List (Entry Tid Op Res Call Ret) → Prop :=
  Since (fun entry => Starts φ entry ∧ (entry.1 = t → entry.2.started = none)) fun entry past =>
    entry.1 = t ∧ entry.2.started = some call ∧ ∀ other ∈ past, ∀ call' ∈ inFlight other.1 past, φ call'

/-- `t` called `call` and got `r`, and from its start on only calls in `φ` came beside it
or after it. -/
def Answered (φ : Call → Prop) (t : Tid) (call : Call) (r : Ret) : List (Entry Tid Op Res Call Ret) → Prop :=
  Since (Starts φ) fun entry past => entry.1 = t ∧ entry.2.returned = some r ∧ Among φ t call past

instance (φ : Call → Prop) [DecidablePred φ] [DecidableEq Ret] (t : Tid) (call : Call) [DecidablePred (· = some call)]
    (r : Ret) (trace : List (Entry Tid Op Res Call Ret)) : Decidable (Answered φ t call r trace) := by
  unfold Answered Among Starts
  infer_instance

/-- Setting another phase makes no thread wait with a call. -/
theorem pending_update {t₁ : Tid} {p : Phase Call Ret} {call : Call} (hp : ∀ call, p ≠ .pending call)
    (h : Function.update phase t₁ p t = .pending call) : t ≠ t₁ ∧ phase t = .pending call := by
  by_cases ht : t = t₁
  · rw [ht, Function.update_self] at h
    exact absurd h (hp call)
  · rw [Function.update_of_ne ht] at h
    exact ⟨ht, h⟩

theorem pending_call {t₁ : Tid} {call₁ call : Call} (h : Function.update phase t₁ (.pending call₁) t = .pending call) :
    t = t₁ ∧ call₁ = call ∨ t ≠ t₁ ∧ phase t = .pending call := by
  by_cases ht : t = t₁
  · rw [ht, Function.update_self] at h
    exact .inl ⟨ht, Phase.pending.inj h⟩
  · rw [Function.update_of_ne ht] at h
    exact .inr ⟨ht, h⟩

/-- A thread whose call has not taken effect is in the middle of it. -/
theorem Linearized.inFlight (h : Linearized trace history phase) {call : Call} (hp : phase t = .pending call) :
    inFlight t trace = some call ∧ ∃ entry ∈ trace, entry.1 = t := by
  induction h with
  | nil => cases hp
  | @call _ _ _ t' _ _ _ ih =>
    rcases pending_call hp with ⟨rfl, rfl⟩ | ⟨ht, hp⟩
    · exact ⟨by simp [Conc.inFlight], _, .head _, rfl⟩
    · obtain ⟨e, entry, hm, he⟩ := ih hp
      exact ⟨by simpa [Conc.inFlight, Ne.symm ht] using e, entry, .tail _ hm, he⟩
  | did _ ih =>
    obtain ⟨e, entry, hm, he⟩ := ih hp
    exact ⟨e, entry, .tail _ hm, he⟩
  | point _ _ ih => exact ih (pending_update (fun _ h => by cases h) hp).2
  | @ret _ _ _ t' _ _ _ ih =>
    obtain ⟨ht, hp⟩ := pending_update (fun _ h => by cases h) hp
    obtain ⟨e, entry, hm, he⟩ := ih hp
    exact ⟨by simpa [Conc.inFlight, Ne.symm ht] using e, entry, .tail _ hm, he⟩

/-- Up to its return, `t` waits with `call` or has its place in the history, with none but
calls in `φ` after it. -/
theorem Linearized.among {φ : Call → Prop} {call : Call} (h : Linearized trace history phase) (ha : Among φ t call trace) :
    (∀ t' call', t' ≠ t → phase t' = .pending call' → φ call') ∧
    (phase t = .pending call ∨ ∃ r newer older, history = newer ++ (t, call, r) :: older ∧ (∀ c ∈ newer, φ c.2.1) ∧
      (phase t = .effected r ∨ phase t = .idle)) := by
  induction h with
  | nil => cases ha
  | @call trace history phase t₁ call₁ hl hp ih =>
    rcases ha with ⟨rfl, e, hin⟩ | ⟨⟨hs, ht⟩, ha⟩
    · obtain rfl : call₁ = call := Option.some.inj e
      refine ⟨fun t' call' ht h => ?_, .inl (by rw [Function.update_self])⟩
      rw [Function.update_of_ne ht] at h
      obtain ⟨hf, other, hm, rfl⟩ := hl.inFlight h
      exact hin other hm call' hf
    · obtain ⟨hpend, hown⟩ := ih ha
      have hne : t ≠ t₁ := fun e => by cases ht e.symm
      rw [Function.update_of_ne hne]
      refine ⟨fun t' call' ht' h => ?_, hown⟩
      rcases pending_call h with ⟨-, rfl⟩ | ⟨-, h⟩
      · exact hs call₁ rfl
      · exact hpend t' call' ht' h
  | did _ ih =>
    rcases ha with ⟨-, e, -⟩ | ⟨-, ha⟩
    · cases e
    · exact ih ha
  | @point trace history phase t₁ call₁ r₁ _ hp ih =>
    obtain ⟨hpend, hown⟩ := ih ha
    refine ⟨fun t' call' ht' h => hpend t' call' ht' (pending_update (fun _ h => by cases h) h).2, ?_⟩
    by_cases e : t = t₁
    · subst e
      obtain rfl : call₁ = call := by
        rcases hown with h | ⟨r, -, -, -, -, h | h⟩ <;> rw [hp] at h <;> cases h
        rfl
      exact .inr ⟨r₁, [], history, rfl, by simp, .inl (Function.update_self ..)⟩
    · rw [Function.update_of_ne e]
      have hφ : φ call₁ := hpend t₁ call₁ (Ne.symm e) hp
      rcases hown with h | ⟨r, newer, older, rfl, hnew, h⟩
      · exact .inl h
      · refine .inr ⟨r, (t₁, call₁, r₁) :: newer, older, rfl, fun c hc => ?_, h⟩
        rcases List.mem_cons.1 hc with rfl | hc
        · exact hφ
        · exact hnew c hc
  | @ret trace history phase t₁ r₁ _ hp ih =>
    rcases ha with ⟨-, e, -⟩ | ⟨-, ha⟩
    · cases e
    obtain ⟨hpend, hown⟩ := ih ha
    refine ⟨fun t' call' ht' h => hpend t' call' ht' (pending_update (fun _ h => by cases h) h).2, ?_⟩
    by_cases e : t = t₁
    · subst e
      rcases hown with h | ⟨r, newer, older, rfl, hnew, -⟩
      · rw [hp] at h
        cases h
      · exact .inr ⟨r, newer, older, rfl, hnew, .inr (Function.update_self ..)⟩
    · rw [Function.update_of_ne e]
      exact hown

/-- A call that came among calls in `φ` only has none but them after it in the history,
and none but them to come. -/
theorem Linearized.answered {φ : Call → Prop} {call : Call} {r : Ret} (h : Linearized trace history phase)
    (ha : Answered φ t call r trace) : (∀ t' call', phase t' = .pending call' → φ call') ∧
      ∃ newer older, history = newer ++ (t, call, r) :: older ∧ ∀ c ∈ newer, φ c.2.1 := by
  induction h with
  | nil => cases ha
  | @call trace history phase t₁ call₁ hl hp ih =>
    rcases ha with ⟨-, e, -⟩ | ⟨hs, ha⟩
    · cases e
    obtain ⟨hpend, hhist⟩ := ih ha
    refine ⟨fun t' call' h => ?_, hhist⟩
    rcases pending_call h with ⟨-, rfl⟩ | ⟨-, h⟩
    · exact hs call₁ rfl
    · exact hpend t' call' h
  | did _ ih =>
    rcases ha with ⟨-, e, -⟩ | ⟨-, ha⟩
    · cases e
    · exact ih ha
  | @point trace history phase t₁ call₁ r₁ _ hp ih =>
    obtain ⟨hpend, newer, older, rfl, hnew⟩ := ih ha
    refine ⟨fun t' call' h => hpend t' call' (pending_update (fun _ h => by cases h) h).2,
      (t₁, call₁, r₁) :: newer, older, rfl, fun c hc => ?_⟩
    rcases List.mem_cons.1 hc with rfl | hc
    · exact hpend t₁ call₁ hp
    · exact hnew c hc
  | @ret trace history phase t₁ r₁ hl hp ih =>
    have hkept : ∀ t' call', Function.update phase t₁ .idle t' = .pending call' → t' ≠ t₁ ∧ phase t' = .pending call' :=
      fun _ _ h => pending_update (fun _ h => by cases h) h
    rcases ha with ⟨rfl, e, ha⟩ | ⟨-, ha⟩
    · obtain rfl : r₁ = r := Option.some.inj e
      obtain ⟨hpend, hown⟩ := hl.among ha
      refine ⟨fun t' call' h => hpend t' call' (hkept t' call' h).1 (hkept t' call' h).2, ?_⟩
      rcases hown with h | ⟨r', newer, older, rfl, hnew, h | h⟩ <;> rw [hp] at h <;> cases h
      exact ⟨newer, older, rfl, hnew⟩
    · obtain ⟨hpend, hhist⟩ := ih ha
      exact ⟨fun t' call' h => hpend t' call' (hkept t' call' h).2, hhist⟩

end Order

/-! ## Every interleaving is linearizable -/

section Stage
variable (body : Call → Prog Op Res Ret) (effect : (o : Op) → Res o → St → Option St)

/-- What a thread still runs, at its phase: `s` is the state the calls up to now left, and
the thread inside the lock is on the way from there to where its call leads. -/
inductive Stage (w : Guarded Tid St) (s : St) (t : Tid) :
    Phase Call Ret → Option (Prog (LockOp Op) (LockRes Res) Ret) → Prop
  | idle (out : w.holder ≠ some t) : Stage w s t .idle none
  | waiting {call : Call} (out : w.holder ≠ some t) : Stage w s t (.pending call) (some (body call).holding)
  | inside {call : Call} {q : Prog Op Res Ret} (held : w.holder = some t) (way : (body call).Way effect s q w.state) :
      Stage w s t (.pending call) (some q.release)
  | effected {r : Ret} (out : w.holder ≠ some t) : Stage w s t (.effected r) (some (.ret r))

variable {body effect} {w w' : Guarded Tid St} {s s' : St} {t : Tid} {phase : Phase Call Ret}
  {running : Option (Prog (LockOp Op) (LockRes Res) Ret)}

/-- A thread outside the lock does not depend on the state. -/
theorem Stage.outside (h : Stage body effect w s t phase running) (hw : w.holder ≠ some t) (hw' : w'.holder ≠ some t) :
    Stage body effect w' s' t phase running := by
  cases h with
  | idle => exact .idle hw'
  | waiting => exact .waiting hw'
  | inside held => exact absurd held hw
  | effected => exact .effected hw'

end Stage

section Linearizable
variable [DecidableEq Tid] [DecidableEq Op] [DecidableEq Ret] {body : Call → Prog Op Res Ret}
  {effect : (o : Op) → Res o → St → Option St} {Start : Guarded Tid St → Prop}

/-- What explains a configuration: an order in which its calls took effect, the state they
lead to, and how far each thread is from there. -/
structure Explains (body : Call → Prog Op Res Ret) (effect : (o : Op) → Res o → St → Option St)
    (c : Config Tid (Guarded Tid St) (LockOp Op) (LockRes Res) Call Ret) (history : List (Tid × Call × Ret))
    (phase : Tid → Phase Call Ret) (s₀ s : St) : Prop where
  linear : Linearized c.trace history phase
  serial : Serial body effect s₀ history s
  free : c.world.holder = none → c.world.state = s
  stage : ∀ t, Stage body effect c.world s t (phase t) (c.running t)

/-- One more step is explained, with at most one more call taking effect. -/
theorem Explains.step {c c' : Config Tid (Guarded Tid St) (LockOp Op) (LockRes Res) Call Ret} {t : Tid}
    {e : Event (LockOp Op) (LockRes Res) Call Ret} {history : List (Tid × Call × Ret)} {phase : Tid → Phase Call Ret}
    {s₀ s : St} (hx : Explains body effect c history phase s₀ s) (hs : (lockSystem body effect).step c (t, e) = some c') :
    ∃ history' phase' s', Explains body effect c' history' phase' s₀ s' := by
  obtain ⟨next, w, ha, he, rfl⟩ := System.step_eq_some hs
  dsimp only at ha he
  have hstage := hx.stage t
  -- The other threads stay where they are, if the step does not reach into their lock.
  have others : ∀ {w' : Guarded Tid St} {s' : St} {phase' : Tid → Phase Call Ret}, (∀ t' ≠ t, phase' t' = phase t') →
      (∀ t' ≠ t, c.world.holder ≠ some t' ∧ w'.holder ≠ some t' ∨ w' = c.world ∧ s' = s) →
      Stage body effect w' s' t (phase' t) next →
      ∀ t', Stage body effect w' s' t' (phase' t') (Function.update c.running t next t') := by
    intro w' s' phase' hphase hkeep hown t'
    by_cases ht : t' = t
    · subst ht
      simpa using hown
    · rw [Function.update_of_ne ht, hphase t' ht]
      rcases hkeep t' ht with ⟨h, h'⟩ | ⟨rfl, rfl⟩
      · exact (hx.stage t').outside h h'
      · exact hx.stage t'
  rcases System.advance_cases ha with ⟨call, hrun, rfl, rfl⟩ | ⟨o, k, r, hrun, rfl, rfl⟩ | ⟨r, hrun, rfl, rfl⟩
  · obtain rfl : c.world = w := Option.some.inj he
    rw [hrun] at hstage
    generalize hp : phase t = p at hstage
    cases hstage with
    | idle out =>
      refine ⟨history, _, s, .call hx.linear hp, hx.serial, hx.free, others (fun t' ht => Function.update_of_ne ht _ _)
        (fun _ _ => .inr ⟨rfl, rfl⟩) ?_⟩
      rw [Function.update_self]
      exact .waiting out
  · rw [hrun] at hstage
    generalize hp : phase t = p at hstage
    generalize hq : (some (Prog.op o k) : Option (Prog (LockOp Op) (LockRes Res) Ret)) = running at hstage
    cases hstage with
    | idle => cases hq
    | effected => cases hq
    | @waiting call out =>
      cases hq
      have hfree : c.world.holder = none := by
        by_contra hne
        simp [lockSystem, hne] at he
      obtain rfl : w = { c.world with holder := some t } := by
        have := Option.some.inj ((if_pos (by rw [hfree]; rfl)).symm.trans he)
        exact this.symm
      refine ⟨history, phase, s, .did hx.linear, hx.serial, fun h => ?_, others (fun _ _ => rfl) ?_ ?_⟩
      · cases h
      · exact fun t' ht => .inl ⟨by simp [hfree], fun h => ht (Option.some.inj h).symm⟩
      · rw [hp]
        rw [← hx.free hfree]
        exact .inside rfl .start
    | @inside call q held way =>
      have alone : ∀ t' ≠ t, c.world.holder ≠ some t' := fun t' ht h => ht (Option.some.inj (held ▸ h)).symm
      cases q with
      | ret a =>
        cases hq
        obtain rfl : w = { c.world with holder := none } := (Option.some.inj he).symm
        refine ⟨(t, call, a) :: history, _, c.world.state, .did (.point hx.linear hp),
          .cons hx.serial (way.leads ⟨rfl, rfl⟩), fun _ => rfl, others (fun t' ht => Function.update_of_ne ht _ _) ?_ ?_⟩
        · exact fun t' ht => .inl ⟨alone t' ht, by simp⟩
        · rw [Function.update_self]
          exact .effected fun h => by cases h
      | op o' k' =>
        cases hq
        obtain ⟨st, hst, rfl⟩ := Option.map_eq_some_iff.1 he
        refine ⟨history, phase, s, .did hx.linear, hx.serial, fun h => ?_, others (fun _ _ => rfl) ?_ ?_⟩
        · exact absurd (held.symm.trans h) (by simp)
        · exact fun t' ht => .inl ⟨alone t' ht, alone t' ht⟩
        · rw [hp]
          exact .inside held (way.step hst)
  · obtain rfl : c.world = w := Option.some.inj he
    rw [hrun] at hstage
    generalize hp : phase t = p at hstage
    generalize hq : (some (Prog.ret r) : Option (Prog (LockOp Op) (LockRes Res) Ret)) = running at hstage
    cases hstage with
    | idle => cases hq
    | waiting => cases hq
    | @inside call q held way => cases q <;> cases hq
    | effected out =>
      cases hq
      refine ⟨history, _, s, .ret hx.linear hp, hx.serial, hx.free, others (fun t' ht => Function.update_of_ne ht _ _)
        (fun _ _ => .inr ⟨rfl, rfl⟩) ?_⟩
      rw [Function.update_self]
      exact .idle out

/-- Every interleaving is linearizable, from a start at which nobody holds the lock. -/
theorem linearizable {c : Config Tid (Guarded Tid St) (LockOp Op) (LockRes Res) Call Ret}
    (hstart : ∀ w, Start w → w.holder = none) (hr : (lockSystem body effect).Run Start c) :
    ∃ w₀ history phase s, Start w₀ ∧ Explains body effect c history phase w₀.state s := by
  induction hr with
  | @boot w hw =>
    refine ⟨w, [], fun _ => .idle, w.state, hw, .nil, .nil, fun _ => rfl, fun t => .idle ?_⟩
    simp [System.boot, hstart w hw]
  | step hr hs ih =>
    obtain ⟨w₀, history, phase, s, hw, hx⟩ := ih
    obtain ⟨history', phase', s', hx'⟩ := hx.step hs
    exact ⟨w₀, history', phase', s', hw, hx'⟩

end Linearizable

end Conc
