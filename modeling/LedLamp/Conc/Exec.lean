import LedLamp.Conc.Guarantee
/-!
# Programs run alone

`Path` is what a program does under some answers to its operations: the operations,
oldest first, and its result. `Exec` is what it does when no other thread comes in
between, with the world after it. A call run alone is a run of the system
(`Exec.run`), and a call that returns in a run did a path of its program (`returns_path`).
-/

namespace Conc

variable {Tid World Op : Type} {Res : Op → Type} {Call Ret : Type} {α β : Type}

/-- An operation with its result. -/
structure Done (Op : Type) (Res : Op → Type) where
  op : Op
  res : Res op

/-- The program performs `done` and returns `a`. -/
def Prog.Path : Prog Op Res α → List (Done Op Res) → α → Prop
  | .ret a, done, a' => done = [] ∧ a' = a
  | .op o k, done, a' => ∃ r rest, done = ⟨o, r⟩ :: rest ∧ (k r).Path rest a'

/-- What the program does, and returns, when every operation has a fixed answer. -/
def Prog.under (answer : (o : Op) → Res o) : Prog Op Res α → List (Done Op Res) × α
  | .ret a => ([], a)
  | .op o k => (⟨o, answer o⟩ :: ((k (answer o)).under answer).1, ((k (answer o)).under answer).2)

/-- What the program does, and returns, when each operation is answered in view of what was
done before it. -/
def Prog.against (answer : List (Done Op Res) → (o : Op) → Res o) (past : List (Done Op Res)) :
    Prog Op Res α → List (Done Op Res) × α
  | .ret a => ([], a)
  | .op o k =>
    let d : Done Op Res := ⟨o, answer past o⟩
    let rest := (k (answer past o)).against answer (past ++ [d])
    (d :: rest.1, rest.2)

/-- Thread `t` runs the program alone from `w`: it performs `done`, returns `a` and
leaves `w'`. -/
def Exec (S : System Tid World Op Res Call Ret) (t : Tid) : Prog Op Res α → World → List (Done Op Res) → α → World → Prop
  | .ret a, w, done, a', w' => done = [] ∧ a' = a ∧ w' = w
  | .op o k, w, done, a', w' => ∃ r w₁ rest, S.effect t (.did o r) w = some w₁ ∧ done = ⟨o, r⟩ :: rest ∧
      Exec S t (k r) w₁ rest a' w'

variable {S : System Tid World Op Res Call Ret} {t : Tid} {w w' : World} {done : List (Done Op Res)} {a : α}

@[simp] theorem exec_ret (b : α) : Exec S t (.ret b) w done a w' ↔ done = [] ∧ a = b ∧ w' = w := Iff.rfl

@[simp] theorem exec_op (o : Op) (k : Res o → Prog Op Res α) : Exec S t (.op o k) w done a w' ↔
    ∃ r w₁ rest, S.effect t (.did o r) w = some w₁ ∧ done = ⟨o, r⟩ :: rest ∧ Exec S t (k r) w₁ rest a w' := Iff.rfl

@[simp] theorem exec_bind {p : Prog Op Res α} {f : α → Prog Op Res β} {b : β} : Exec S t (p >>= f) w done b w' ↔
    ∃ d₁ a w₁ d₂, done = d₁ ++ d₂ ∧ Exec S t p w d₁ a w₁ ∧ Exec S t (f a) w₁ d₂ b w' := by
  induction p generalizing w done with
  | ret a =>
    constructor
    · exact fun h => ⟨[], a, w, done, rfl, ⟨rfl, rfl, rfl⟩, h⟩
    · rintro ⟨_, _, _, d₂, rfl, ⟨rfl, rfl, rfl⟩, h⟩
      exact h
  | op o k ih =>
    simp only [Prog.op_bind, exec_op, ih]
    constructor
    · rintro ⟨r, w₁, rest, he, rfl, d₁, a, w₂, d₂, rfl, h₁, h₂⟩
      exact ⟨⟨o, r⟩ :: d₁, a, w₂, d₂, rfl, ⟨r, w₁, d₁, he, rfl, h₁⟩, h₂⟩
    · rintro ⟨_, a, w₂, d₂, rfl, ⟨r, w₁, d₁, he, rfl, h₁⟩, h₂⟩
      exact ⟨r, w₁, d₁ ++ d₂, he, rfl, d₁, a, w₂, d₂, rfl, h₁, h₂⟩

@[simp] theorem exec_perform {o : Op} {r : Res o} : Exec S t (.perform o) w done r w' ↔
    S.effect t (.did o r) w = some w' ∧ done = [⟨o, r⟩] := by
  constructor
  · rintro ⟨r', w₁, rest, he, rfl, rfl, rfl, rfl⟩
    exact ⟨he, rfl⟩
  · rintro ⟨he, rfl⟩
    exact ⟨r, w', [], he, rfl, rfl, rfl, rfl⟩

namespace Prog

@[simp] theorem path_ret (b : α) : (ret b : Prog Op Res α).Path done a ↔ done = [] ∧ a = b := Iff.rfl

@[simp] theorem path_op (o : Op) (k : Res o → Prog Op Res α) :
    (op o k).Path done a ↔ ∃ r rest, done = ⟨o, r⟩ :: rest ∧ (k r).Path rest a := Iff.rfl

@[simp] theorem path_bind {p : Prog Op Res α} {f : α → Prog Op Res β} {b : β} :
    (p >>= f).Path done b ↔ ∃ d₁ a d₂, done = d₁ ++ d₂ ∧ p.Path d₁ a ∧ (f a).Path d₂ b := by
  induction p generalizing done with
  | ret a =>
    constructor
    · exact fun h => ⟨[], a, done, rfl, ⟨rfl, rfl⟩, h⟩
    · rintro ⟨_, _, d₂, rfl, ⟨rfl, rfl⟩, h⟩
      exact h
  | op o k ih =>
    simp only [op_bind, path_op, ih]
    constructor
    · rintro ⟨r, rest, rfl, d₁, a, d₂, rfl, h₁, h₂⟩
      exact ⟨⟨o, r⟩ :: d₁, a, d₂, rfl, ⟨r, d₁, rfl, h₁⟩, h₂⟩
    · rintro ⟨_, a, d₂, rfl, ⟨r, d₁, rfl, h₁⟩, h₂⟩
      exact ⟨r, d₁ ++ d₂, rfl, d₁, a, d₂, rfl, h₁, h₂⟩

@[simp] theorem path_perform {o : Op} {r : Res o} : (perform o : Prog Op Res _).Path done r ↔ done = [⟨o, r⟩] := by
  constructor
  · rintro ⟨r', rest, rfl, rfl, rfl⟩
    rfl
  · rintro rfl
    exact ⟨r, [], rfl, rfl, rfl⟩

theorem under_path (answer : (o : Op) → Res o) (p : Prog Op Res α) :
    p.Path (p.under answer).1 (p.under answer).2 := by
  induction p with
  | ret a => exact ⟨rfl, rfl⟩
  | op o k ih => exact ⟨answer o, _, rfl, ih (answer o)⟩

theorem under_bind (answer : (o : Op) → Res o) (p : Prog Op Res α) (f : α → Prog Op Res β) : (p >>= f).under answer =
    ((p.under answer).1 ++ ((f (p.under answer).2).under answer).1, ((f (p.under answer).2).under answer).2) := by
  induction p with
  | ret a => rfl
  | op o k ih => rw [op_bind, under, ih, under, List.cons_append]

theorem against_path (answer : List (Done Op Res) → (o : Op) → Res o) (past : List (Done Op Res)) (p : Prog Op Res α) :
    p.Path (p.against answer past).1 (p.against answer past).2 := by
  induction p generalizing past with
  | ret a => exact ⟨rfl, rfl⟩
  | op o k ih => exact ⟨answer past o, _, rfl, ih (answer past o) _⟩

theorem against_fixed (answer : (o : Op) → Res o) (past : List (Done Op Res)) (p : Prog Op Res α) :
    p.against (fun _ => answer) past = p.under answer := by
  induction p generalizing past with
  | ret a => rfl
  | op o k ih => rw [against, under, ih]

theorem under_answer {answer : (o : Op) → Res o} {p : Prog Op Res α} :
    ∀ d ∈ (p.under answer).1, d = ⟨d.op, answer d.op⟩ := by
  induction p with
  | ret a => simp [under]
  | op o k ih =>
    intro d hd
    rcases List.mem_cons.1 hd with rfl | hd
    · rfl
    · exact ih (answer o) d hd

end Prog

theorem Exec.path {p : Prog Op Res α} (h : Exec S t p w done a w') : p.Path done a := by
  induction p generalizing w done with
  | ret b => exact ⟨h.1, h.2.1⟩
  | op o k ih =>
    obtain ⟨r, w₁, rest, -, rfl, h⟩ := h
    exact ⟨r, rest, rfl, ih r h⟩

/-- A program whose operations can be taken in any world comes to its end. -/
theorem Exec.total {P : Op → Prop} {p : Prog Op Res α} (hp : p.Uses P)
    (hs : ∀ o v, P o → ∃ r v', S.effect t (.did o r) v = some v') (w : World) : ∃ done a w', Exec S t p w done a w' := by
  induction p generalizing w with
  | ret b => exact ⟨[], b, w, rfl, rfl, rfl⟩
  | op o k ih =>
    obtain ⟨r, v, he⟩ := hs o w hp.1
    obtain ⟨rest, a, w', h⟩ := ih r (hp.2 r) v
    exact ⟨⟨o, r⟩ :: rest, a, w', r, v, rest, he, rfl, h⟩

/-- What is done is of the kind the program uses. -/
theorem Exec.uses {P : Op → Prop} {p : Prog Op Res α} (h : Exec S t p w done a w') (hp : p.Uses P) :
    ∀ d ∈ done, P d.op := by
  induction p generalizing w done with
  | ret b =>
    obtain ⟨rfl, -, -⟩ := h
    simp
  | op o k ih =>
    obtain ⟨r, w₁, rest, -, rfl, h⟩ := h
    intro d hd
    rcases List.mem_cons.1 hd with rfl | hd
    · exact hp.1
    · exact ih r h (hp.2 r) d hd

/-- Operations that keep `A` of the world keep it together. -/
theorem Exec.keeps {P : Op → Prop} {A : World → Prop} {p : Prog Op Res α} (h : Exec S t p w done a w') (hp : p.Uses P)
    (hA : ∀ o r v v', P o → S.effect t (.did o r) v = some v' → A v → A v') (ha : A w) : A w' := by
  induction p generalizing w done with
  | ret b =>
    obtain ⟨-, -, rfl⟩ := h
    exact ha
  | op o k ih =>
    obtain ⟨r, w₁, rest, he, -, h⟩ := h
    exact ih r h (hp.2 r) (hA o r w w₁ hp.1 he ha)

/-- Operations that change nothing leave the world as it was. -/
theorem Exec.unchanged {P : Op → Prop} {p : Prog Op Res α} (h : Exec S t p w done a w') (hp : p.Uses P)
    (hP : ∀ o r v v', P o → S.effect t (.did o r) v = some v' → v' = v) : w' = w :=
  h.keeps (A := (· = w)) hp (fun o r v v' ho he hv => (hP o r v v' ho he).trans hv) rfl

section Run
variable [DecidableEq Tid]

/-- What thread `t` has done since the last call it started, oldest first. -/
def doneBy (t : Tid) : List (Entry Tid Op Res Call Ret) → List (Done Op Res)
  | [] => []
  | (t', .did o r) :: past => if t' = t then doneBy t past ++ [⟨o, r⟩] else doneBy t past
  | (t', .call _) :: past => if t' = t then [] else doneBy t past
  | _ :: past => doneBy t past

theorem doneBy_other {t t' : Tid} (ht : t' ≠ t) (e : Event Op Res Call Ret) (past : List (Entry Tid Op Res Call Ret)) :
    doneBy t ((t', e) :: past) = doneBy t past := by
  cases e <;> simp [doneBy, ht]

variable [DecidableEq Op] [DecidableEq Ret] {Start : World → Prop}

/-- What a thread has left to do completes what it has done to a path of its call. -/
theorem running_path {c : Config Tid World Op Res Call Ret} (hr : S.Run Start c) {p : Prog Op Res Ret}
    (hp : c.running t = some p) : ∃ call, lastCall t c.trace = some call ∧
      ∀ done s, p.Path done s → (S.body call).Path (doneBy t c.trace ++ done) s := by
  induction hr generalizing p with
  | boot hw => cases hp
  | @step c c' entry hr hs ih =>
    obtain ⟨next, world, ha, -, rfl⟩ := System.step_eq_some hs
    obtain ⟨t', e⟩ := entry
    dsimp only at ha hp ⊢
    by_cases ht : t' = t
    · subst ht
      rw [Function.update_self] at hp
      subst hp
      rcases System.advance_cases ha with ⟨call, -, rfl, e⟩ | ⟨o, k, r, hrun, rfl, e⟩ | ⟨s, -, rfl, e⟩
      · obtain rfl := Option.some.inj e
        exact ⟨call, lastCall_call _ _ _, fun done s h => by simpa [doneBy] using h⟩
      · obtain rfl := Option.some.inj e
        obtain ⟨call, hcall, h⟩ := ih hrun
        refine ⟨call, hcall, fun done s hd => ?_⟩
        have := h (⟨o, r⟩ :: done) s ⟨r, done, rfl, hd⟩
        simpa [doneBy] using this
      · cases e
    · rw [Function.update_of_ne (Ne.symm ht)] at hp
      obtain ⟨call, hcall, h⟩ := ih hp
      exact ⟨call, by rw [lastCall_other ht, hcall], by rw [doneBy_other ht]; exact h⟩

/-- A call that returns in a run did a path of its program, whatever came in between. -/
theorem returns_path {c c' : Config Tid World Op Res Call Ret} (hr : S.Run Start c) {s : Ret}
    (hs : S.step c (t, .ret s) = some c') :
    ∃ call, lastCall t c.trace = some call ∧ (S.body call).Path (doneBy t c.trace) s := by
  obtain ⟨next, world, ha, -, -⟩ := System.step_eq_some hs
  rcases System.advance_cases ha with ⟨call, -, h, -⟩ | ⟨o, k, r, -, h, -⟩ | ⟨s', hrun, h, -⟩
  · cases h
  · cases h
  · cases h
    obtain ⟨call, hcall, h⟩ := running_path hr hrun
    exact ⟨call, hcall, by simpa using h [] s ⟨rfl, rfl⟩⟩

/-- What a thread does alone in the middle of a call is part of a run. -/
theorem Exec.steps {p : Prog Op Res Ret} {s : Ret} {c : Config Tid World Op Res Call Ret} (hr : S.Run Start c)
    (hp : c.running t = some p) (h : Exec S t p c.world done s w') :
    ∃ c', S.Run Start c' ∧ c'.world = w' ∧ c'.running = Function.update c.running t (some (.ret s)) ∧
      c'.trace = (done.map fun d => (t, .did d.op d.res)).reverse ++ c.trace := by
  induction p generalizing c done with
  | ret b =>
    obtain ⟨rfl, rfl, rfl⟩ := h
    exact ⟨c, hr, rfl, (Function.update_eq_self_iff.2 hp.symm).symm, by simp⟩
  | op o k ih =>
    obtain ⟨r, w₁, rest, he, rfl, h⟩ := h
    have hs : S.step c (t, .did o r) = some ⟨w₁, (t, .did o r) :: c.trace, Function.update c.running t (some (k r))⟩ := by
      simp [System.step, System.advance, Prog.follow, hp, he]
    obtain ⟨c', hr', hw, hrun, htr⟩ := ih r (hr.step hs) (by simp) h
    exact ⟨c', hr', hw, by simpa using hrun, by simpa using htr⟩

/-- A call run alone, from its start to its return. -/
theorem Exec.run {call : Call} {s : Ret} {w₁ w₂ : World} {c : Config Tid World Op Res Call Ret} (hr : S.Run Start c)
    (hi : c.running t = none) (hcall : S.effect t (.call call) c.world = some w₁)
    (h : Exec S t (S.body call) w₁ done s w₂) (hret : S.effect t (.ret s) w₂ = some w') :
    ∃ c', S.Run Start c' ∧ c'.world = w' ∧ c'.running = c.running ∧
      c'.trace = (t, .ret s) :: (done.map fun d => (t, .did d.op d.res)).reverse ++ (t, .call call) :: c.trace := by
  have hs : S.step c (t, .call call) = some ⟨w₁, (t, .call call) :: c.trace, Function.update c.running t (some (S.body call))⟩ := by
    simp [System.step, System.advance, hi, hcall]
  obtain ⟨c', hr', hw, hrun, htr⟩ := h.steps (hr.step hs) (by simp)
  subst hw
  have hs' : S.step c' (t, .ret s) = some ⟨w', (t, .ret s) :: c'.trace, Function.update c'.running t none⟩ := by
    simp [System.step, System.advance, Prog.follow, hrun, hret]
  refine ⟨_, hr'.step hs', rfl, ?_, by simp [htr]⟩
  funext t'
  by_cases ht : t' = t
  · simp [ht, hi]
  · simp [ht, hrun]

end Run

/-! ## Computed -/

/-- The program run alone, with the answers of `answer`. -/
def alone (S : System Tid World Op Res Call Ret) (answer : (o : Op) → World → Option (Res o)) (t : Tid) :
    Prog Op Res α → World → Option (List (Done Op Res) × α × World)
  | .ret a, w => some ([], a, w)
  | .op o k, w => do
    let r ← answer o w
    let w₁ ← S.effect t (.did o r) w
    let (rest, a, w') ← alone S answer t (k r) w₁
    return (⟨o, r⟩ :: rest, a, w')

/-- The calls run one after the other. -/
def serial (S : System Tid World Op Res Call Ret) (answer : (o : Op) → World → Option (Res o)) :
    List (Tid × Call) → World → Option World
  | [], w => some w
  | (t, call) :: calls, w => do
    let w₁ ← S.effect t (.call call) w
    let (_, s, w₂) ← alone S answer t (S.body call) w₁
    let w₃ ← S.effect t (.ret s) w₂
    serial S answer calls w₃

variable {answer : (o : Op) → World → Option (Res o)}

theorem alone_exec {p : Prog Op Res α} (h : alone S answer t p w = some (done, a, w')) : Exec S t p w done a w' := by
  induction p generalizing w done with
  | ret b =>
    cases h
    exact ⟨rfl, rfl, rfl⟩
  | op o k ih =>
    simp only [alone, Option.bind_eq_bind, Option.bind_eq_some_iff] at h
    obtain ⟨r, -, w₁, he, ⟨rest, a', w''⟩, hrest, h⟩ := h
    cases h
    exact ⟨r, w₁, rest, he, rfl, ih r hrest⟩

theorem serial_run [DecidableEq Tid] [DecidableEq Op] [DecidableEq Ret] {Start : World → Prop} {calls : List (Tid × Call)}
    {c : Config Tid World Op Res Call Ret} (hr : S.Run Start c) (hi : ∀ t, c.running t = none)
    (h : serial S answer calls c.world = some w') : ∃ c', S.Run Start c' ∧ c'.world = w' := by
  induction calls generalizing c with
  | nil =>
    cases h
    exact ⟨c, hr, rfl⟩
  | cons head calls ih =>
    obtain ⟨t, call⟩ := head
    simp only [serial, Option.bind_eq_bind, Option.bind_eq_some_iff] at h
    obtain ⟨w₁, hcall, ⟨d, s, w₂⟩, hbody, w₃, hret, h⟩ := h
    obtain ⟨c', hr', rfl, hrun, -⟩ := (alone_exec hbody).run hr (hi t) hcall hret
    exact ih hr' (fun t => by rw [hrun]; exact hi t) h

section Turns
variable [DecidableEq Tid] [DecidableEq Op] [DecidableEq Ret]

/-- What a thread does next: an idle one starts the call, a running one goes on. -/
def nextEvent (answer : (o : Op) → World → Option (Res o)) (w : World) :
    Option (Prog Op Res Ret) → Option Call → Option (Event Op Res Call Ret)
  | none, call => call.map .call
  | some (.op o _), _ => (answer o w).map (.did o)
  | some (.ret s), _ => some (.ret s)

/-- The threads do one event each in the order given. -/
def turns (S : System Tid World Op Res Call Ret) (answer : (o : Op) → World → Option (Res o)) :
    List (Tid × Option Call) → Config Tid World Op Res Call Ret → Option (Config Tid World Op Res Call Ret)
  | [], c => some c
  | (t, call) :: rest, c => do
    let e ← nextEvent answer c.world (c.running t) call
    let c' ← S.step c (t, e)
    turns S answer rest c'

theorem turns_run {Start : World → Prop} {rest : List (Tid × Option Call)} {c c' : Config Tid World Op Res Call Ret}
    (hr : S.Run Start c) (h : turns S answer rest c = some c') : S.Run Start c' := by
  induction rest generalizing c with
  | nil =>
    cases h
    exact hr
  | cons head rest ih =>
    simp only [turns, Option.bind_eq_bind, Option.bind_eq_some_iff] at h
    obtain ⟨e, -, c₁, hs, h⟩ := h
    exact ih (hr.step hs) h

end Turns

end Conc
