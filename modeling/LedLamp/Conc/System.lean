import LedLamp.Conc.Prog
/-!
# Systems of threads

Threads run calls against a shared world, one operation at a time and in any
order. A `System` gives the program of each call and the effect of each event;
an effect of `none` means that the event cannot happen now, so a blocking
operation is one that is refused until it may go on. An operation's result is
part of its event: what the outside world answers is any result the effect
accepts.

A configuration carries the trace of what happened, newest event first.
`Since φ ψ` reads a trace backwards: `ψ` happened, and only `φ` ever since.
-/

namespace Conc

/-- What a thread does: start a call, perform an operation, return. -/
inductive Event (Op : Type) (Res : Op → Type) (Call Ret : Type) where
  | call (c : Call)
  | did (o : Op) (r : Res o)
  | ret (s : Ret)

structure System (Tid World Op : Type) (Res : Op → Type) (Call Ret : Type) where
  body : Call → Prog Op Res Ret
  effect : Tid → Event Op Res Call Ret → World → Option World

variable {Tid World Op : Type} {Res : Op → Type} {Call Ret : Type}

/-! ## Traces -/

abbrev Entry (Tid Op : Type) (Res : Op → Type) (Call Ret : Type) := Tid × Event Op Res Call Ret

section Since

variable {ε : Type}

/-- An entry `e` with `ψ e past` happened, and every later entry satisfies `φ`. -/
def Since (φ : ε → Prop) (ψ : ε → List ε → Prop) : List ε → Prop
  | [] => False
  | e :: past => ψ e past ∨ (φ e ∧ Since φ ψ past)

variable {φ φ' : ε → Prop} {ψ ψ' : ε → List ε → Prop}

@[simp] theorem since_nil : Since φ ψ [] ↔ False := Iff.rfl

@[simp] theorem since_cons (e : ε) (past : List ε) : Since φ ψ (e :: past) ↔ ψ e past ∨ (φ e ∧ Since φ ψ past) :=
  Iff.rfl

theorem Since.now {e : ε} {past : List ε} (h : ψ e past) : Since φ ψ (e :: past) := .inl h

theorem Since.later {e : ε} {past : List ε} (he : φ e) (h : Since φ ψ past) : Since φ ψ (e :: past) := .inr ⟨he, h⟩

theorem since_skip {e : ε} {past : List ε} (hφ : φ e) (hψ : ¬ ψ e past) : Since φ ψ (e :: past) ↔ Since φ ψ past := by
  rw [since_cons]
  exact ⟨fun h => (h.resolve_left hψ).2, fun h => .inr ⟨hφ, h⟩⟩

theorem Since.mono (hφ : ∀ e, φ e → φ' e) (hψ : ∀ e past, ψ e past → ψ' e past) {tr : List ε}
    (h : Since φ ψ tr) : Since φ' ψ' tr := by
  induction tr with
  | nil => exact h
  | cons e tr ih =>
    rcases h with h | ⟨h, h'⟩
    · exact .inl (hψ e tr h)
    · exact .inr ⟨hφ e h, ih h'⟩

instance Since.decide [DecidablePred φ] [∀ e past, Decidable (ψ e past)] : ∀ tr : List ε, Decidable (Since φ ψ tr)
  | [] => .isFalse id
  | e :: past =>
    have : Decidable (Since φ ψ past) := Since.decide past
    inferInstanceAs (Decidable (ψ e past ∨ (φ e ∧ Since φ ψ past)))

/-- Each entry of a trace satisfies `P`, given what was before it. -/
def Every (P : ε → List ε → Prop) : List ε → Prop
  | [] => True
  | e :: past => P e past ∧ Every P past

@[simp] theorem every_cons (P : ε → List ε → Prop) (e : ε) (past : List ε) :
    Every P (e :: past) ↔ P e past ∧ Every P past := Iff.rfl

instance Every.decide {P : ε → List ε → Prop} [∀ e past, Decidable (P e past)] : ∀ tr : List ε, Decidable (Every P tr)
  | [] => .isTrue trivial
  | e :: past =>
    have : Decidable (Every P past) := Every.decide past
    inferInstanceAs (Decidable (P e past ∧ Every P past))

theorem Every.mono {P Q : ε → List ε → Prop} (h : ∀ e past, P e past → Q e past) {tr : List ε} (hp : Every P tr) :
    Every Q tr := by
  induction tr with
  | nil => trivial
  | cons e tr ih => exact ⟨h e tr hp.1, ih hp.2⟩

/-- Where `P` holds throughout and yields `Q` at each entry, `Q` holds throughout. -/
theorem Every.imp {P Q : ε → List ε → Prop} {tr : List ε} (h : Every (fun e past => P e past → Q e past) tr)
    (hp : Every P tr) : Every Q tr := by
  induction tr with
  | nil => trivial
  | cons e tr ih => exact ⟨h.1 hp.1, ih h.2 hp.2⟩

end Since

section Calls
variable [DecidableEq Tid]

/-- The last call that thread `t` started. -/
def lastCall (t : Tid) : List (Entry Tid Op Res Call Ret) → Option Call
  | [] => none
  | (t', .call c) :: past => if t' = t then some c else lastCall t past
  | _ :: past => lastCall t past

/-- The last that thread `t` did is to return, if anything. -/
def Idle (t : Tid) : List (Entry Tid Op Res Call Ret) → Prop
  | [] => True
  | (t', .ret _) :: past => t' = t ∨ Idle t past
  | (t', _) :: past => t' ≠ t ∧ Idle t past

variable {t t' : Tid} {past : List (Entry Tid Op Res Call Ret)}

theorem lastCall_call (t : Tid) (c : Call) (past : List (Entry Tid Op Res Call Ret)) :
    lastCall t ((t, .call c) :: past) = some c := by simp [lastCall]

@[simp] theorem lastCall_did (o : Op) (r : Res o) : lastCall t ((t', .did o r) :: past) = lastCall t past := rfl

@[simp] theorem lastCall_ret (s : Ret) : lastCall t ((t', .ret s) :: past) = lastCall t past := rfl

theorem lastCall_other (ht : t' ≠ t) (e : Event Op Res Call Ret) : lastCall t ((t', e) :: past) = lastCall t past := by
  cases e with
  | call c => simp [lastCall, ht]
  | did o r => rfl
  | ret s => rfl

omit [DecidableEq Tid] in
theorem idle_other (ht : t' ≠ t) (e : Event Op Res Call Ret) : Idle t ((t', e) :: past) ↔ Idle t past := by
  cases e <;> simp [Idle, ht]

end Calls

/-! ## Runs -/

structure Config (Tid World Op : Type) (Res : Op → Type) (Call Ret : Type) where
  world : World
  trace : List (Entry Tid Op Res Call Ret)
  running : Tid → Option (Prog Op Res Ret)

/-- The program after an event of it, if that is the event it does next. -/
def Prog.follow [DecidableEq Op] [DecidableEq Ret] : Prog Op Res Ret → Event Op Res Call Ret →
    Option (Option (Prog Op Res Ret))
  | .op o k, .did o' r => if h : o' = o then some (some (k (h ▸ r))) else none
  | .ret s, .ret s' => if s' = s then some none else none
  | _, _ => none

namespace System

variable [DecidableEq Tid] [DecidableEq Op] [DecidableEq Ret] (S : System Tid World Op Res Call Ret)

/-- What a thread runs after an event: an idle one may start a call, a running
one goes on with its program. -/
def advance (running : Option (Prog Op Res Ret)) (e : Event Op Res Call Ret) : Option (Option (Prog Op Res Ret)) :=
  match running, e with
  | none, .call c => some (some (S.body c))
  | none, _ => none
  | some p, e => p.follow e

/-- One event of one thread. -/
def step (c : Config Tid World Op Res Call Ret) (entry : Entry Tid Op Res Call Ret) :
    Option (Config Tid World Op Res Call Ret) :=
  match S.advance (c.running entry.1) entry.2, S.effect entry.1 entry.2 c.world with
  | some p, some world => some ⟨world, entry :: c.trace, Function.update c.running entry.1 p⟩
  | _, _ => none

/-- No thread has done anything yet. -/
def boot (w : World) : Config Tid World Op Res Call Ret := ⟨w, [], fun _ => none⟩

/-- A sequence of events, oldest first. -/
def replay (entries : List (Entry Tid Op Res Call Ret)) (c : Config Tid World Op Res Call Ret) :
    Option (Config Tid World Op Res Call Ret) :=
  entries.foldlM S.step c

/-- The configurations reached from a start world by any interleaving. -/
inductive Run (Start : World → Prop) : Config Tid World Op Res Call Ret → Prop
  | boot {w : World} (h : Start w) : Run Start (boot w)
  | step {c c' : Config Tid World Op Res Call Ret} {entry : Entry Tid Op Res Call Ret} :
      Run Start c → S.step c entry = some c' → Run Start c'

variable {S}

omit [DecidableEq Tid] in
/-- A thread's next event: the start of a call, its next operation, its return. -/
theorem advance_cases {running : Option (Prog Op Res Ret)} {e : Event Op Res Call Ret}
    {next : Option (Prog Op Res Ret)} (h : S.advance running e = some next) :
    (∃ c, running = none ∧ e = .call c ∧ next = some (S.body c)) ∨
    (∃ o k r, running = some (.op o k) ∧ e = .did o r ∧ next = some (k r)) ∨
    (∃ s, running = some (.ret s) ∧ e = .ret s ∧ next = none) := by
  cases running with
  | none =>
    cases e with
    | call c => exact .inl ⟨c, rfl, rfl, by simpa [advance] using h.symm⟩
    | did o r => simp [advance] at h
    | ret s => simp [advance] at h
  | some p =>
    cases p with
    | ret s =>
      cases e with
      | ret s' =>
        simp only [advance, Prog.follow, Option.ite_none_right_eq_some, Option.some.injEq] at h
        obtain ⟨rfl, rfl⟩ := h
        exact .inr (.inr ⟨_, rfl, rfl, rfl⟩)
      | call c => simp [advance, Prog.follow] at h
      | did o r => simp [advance, Prog.follow] at h
    | op o k =>
      cases e with
      | did o' r =>
        simp only [advance, Prog.follow] at h
        split at h
        · rename_i heq
          subst heq
          exact .inr (.inl ⟨_, k, r, rfl, rfl, by simpa using h.symm⟩)
        · cases h
      | call c => simp [advance, Prog.follow] at h
      | ret s => simp [advance, Prog.follow] at h

theorem step_eq_some {c c' : Config Tid World Op Res Call Ret} {entry : Entry Tid Op Res Call Ret}
    (h : S.step c entry = some c') :
    ∃ next world, S.advance (c.running entry.1) entry.2 = some next ∧ S.effect entry.1 entry.2 c.world = some world ∧
      c' = ⟨world, entry :: c.trace, Function.update c.running entry.1 next⟩ := by
  unfold step at h
  split at h
  · rename_i next world h1 h2
    exact ⟨next, world, h1, h2, by simpa using h.symm⟩
  · cases h

theorem replay_trace {entries : List (Entry Tid Op Res Call Ret)} {c c' : Config Tid World Op Res Call Ret}
    (h : S.replay entries c = some c') : c'.trace = entries.reverse ++ c.trace := by
  induction entries generalizing c with
  | nil =>
    obtain rfl : c = c' := by simpa [replay] using h
    rfl
  | cons e entries ih =>
    simp only [replay, List.foldlM_cons, Option.bind_eq_bind, Option.bind_eq_some_iff] at h
    obtain ⟨c₁, h1, h2⟩ := h
    obtain ⟨next, world, -, -, rfl⟩ := step_eq_some h1
    rw [ih h2, List.reverse_cons, List.append_assoc]
    rfl

/-- The threads at rest are those that do not run a program. -/
theorem running_idle {Start : World → Prop} {c : Config Tid World Op Res Call Ret} (hr : S.Run Start c) (t : Tid) :
    c.running t = none ↔ Idle t c.trace := by
  induction hr with
  | boot hw => exact iff_of_true rfl trivial
  | @step c c' entry hr hs ih =>
    obtain ⟨next, world, ha, -, rfl⟩ := step_eq_some hs
    obtain ⟨t', e⟩ := entry
    dsimp only at ha ⊢
    by_cases ht : t' = t
    · subst ht
      rw [Function.update_self]
      rcases advance_cases ha with ⟨c, -, rfl, rfl⟩ | ⟨o, k, r, -, rfl, rfl⟩ | ⟨s, -, rfl, rfl⟩ <;> simp [Idle]
    · rw [Function.update_of_ne (Ne.symm ht), idle_other ht]
      exact ih

/-- What a replay computes is a run. -/
theorem run_replay {Start : World → Prop} {entries : List (Entry Tid Op Res Call Ret)}
    {c c' : Config Tid World Op Res Call Ret} (hc : S.Run Start c) (h : S.replay entries c = some c') :
    S.Run Start c' := by
  induction entries generalizing c with
  | nil =>
    obtain rfl : c = c' := by simpa [replay] using h
    exact hc
  | cons e entries ih =>
    simp only [replay, List.foldlM_cons, Option.bind_eq_bind, Option.bind_eq_some_iff] at h
    obtain ⟨c₁, h1, h2⟩ := h
    exact ih (hc.step h1) h2

end System

/-- A thread that did nothing is at rest. -/
theorem idle_absent {t : Tid} {tr : List (Entry Tid Op Res Call Ret)} (h : ∀ entry ∈ tr, entry.1 ≠ t) : Idle t tr := by
  induction tr with
  | nil => trivial
  | cons entry tr ih => exact (idle_other (h entry (.head _)) entry.2).2 (ih fun e he => h e (.tail _ he))

/-! ## Fewer calls -/

section Restrict
variable {Call' : Type}

def Event.map (f : Call' → Call) : Event Op Res Call' Ret → Event Op Res Call Ret
  | .call c => .call (f c)
  | .did o r => .did o r
  | .ret s => .ret s

/-- The system in which only the calls `f c` start. -/
def System.restrict (S : System Tid World Op Res Call Ret) (f : Call' → Call) : System Tid World Op Res Call' Ret where
  body c := S.body (f c)
  effect t e w := S.effect t (e.map f) w

def Config.map (f : Call' → Call) (c : Config Tid World Op Res Call' Ret) : Config Tid World Op Res Call Ret :=
  ⟨c.world, c.trace.map fun entry => (entry.1, entry.2.map f), c.running⟩

namespace System

variable [DecidableEq Tid] [DecidableEq Op] [DecidableEq Ret] {S : System Tid World Op Res Call Ret} {f : Call' → Call}

omit [DecidableEq Tid] in
theorem advance_restrict (running : Option (Prog Op Res Ret)) (e : Event Op Res Call' Ret) :
    (S.restrict f).advance running e = S.advance running (e.map f) := by
  cases running with
  | none => cases e <;> rfl
  | some p => cases p <;> cases e <;> rfl

/-- What the restricted system does, the whole one can do. -/
theorem run_restrict {Start : World → Prop} {c : Config Tid World Op Res Call' Ret} (hr : (S.restrict f).Run Start c) :
    S.Run Start (c.map f) := by
  induction hr with
  | boot hw => exact .boot hw
  | @step c c' entry _ hs ih =>
    obtain ⟨next, world, ha, he, rfl⟩ := step_eq_some hs
    rw [advance_restrict] at ha
    have he' : S.effect entry.1 (entry.2.map f) c.world = some world := he
    have hs' : S.step (c.map f) (entry.1, entry.2.map f) = some (Config.map f
        ⟨world, entry :: c.trace, Function.update c.running entry.1 next⟩) := by simp [step, Config.map, ha, he']
    exact ih.step hs'

end System

end Restrict

end Conc
