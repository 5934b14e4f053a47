import LedLamp.Conc.System
/-!
# Rely and guarantee

To show that every event of every interleaving keeps a promise `Φ`, it is enough
to follow each call's program on its own, between any steps of other threads
that kept the promise so far. `Wp` is that condition on a program, `Triple` states
it from an assertion about the moment, and `established` is the soundness
theorem. A promise `K` that is established already may be used for a further one.

Other threads must not break an assertion while its thread waits (`Stable`).
-/

namespace Conc

variable {Tid World Op : Type} {Res : Op → Type} {Call Ret : Type}

/-- What an assertion is about: the world and the events that led to it. -/
structure Moment (Tid World Op : Type) (Res : Op → Type) (Call Ret : Type) where
  world : World
  trace : List (Entry Tid Op Res Call Ret)

abbrev Assertion (Tid World Op : Type) (Res : Op → Type) (Call Ret : Type) :=
  Moment Tid World Op Res Call Ret → Prop

/-- A promise about events: `Φ t e m` says that thread `t` may do `e` at moment `m`. -/
abbrev Promise (Tid World Op : Type) (Res : Op → Type) (Call Ret : Type) :=
  Tid → Event Op Res Call Ret → Moment Tid World Op Res Call Ret → Prop

/-- The moment after thread `t` did `e`. -/
def Moment.after (m : Moment Tid World Op Res Call Ret) (t : Tid) (e : Event Op Res Call Ret) (w : World) :
    Moment Tid World Op Res Call Ret := ⟨w, (t, e) :: m.trace⟩

@[simp] theorem Moment.after_world (m : Moment Tid World Op Res Call Ret) (t : Tid) (e : Event Op Res Call Ret)
    (w : World) : (m.after t e w).world = w := rfl

@[simp] theorem Moment.after_trace (m : Moment Tid World Op Res Call Ret) (t : Tid) (e : Event Op Res Call Ret)
    (w : World) : (m.after t e w).trace = (t, e) :: m.trace := rfl

def Config.moment (c : Config Tid World Op Res Call Ret) : Moment Tid World Op Res Call Ret := ⟨c.world, c.trace⟩

/-- Both promises. -/
def Promise.and (K Φ : Promise Tid World Op Res Call Ret) : Promise Tid World Op Res Call Ret :=
  fun t e m => K t e m ∧ Φ t e m

/-- A thread that starts a call is at rest. -/
def Sequential : Promise Tid World Op Res Call Ret := fun t e m => ∀ c, e = .call c → Idle t m.trace

/-! ## Histories -/

section Histories
variable (S : System Tid World Op Res Call Ret) (Start : World → Prop)

/-- The moments that sequences of events reach which all keep the promise. -/
inductive Hist (Φ : Promise Tid World Op Res Call Ret) : Assertion Tid World Op Res Call Ret
  | start {w : World} (h : Start w) : Hist Φ ⟨w, []⟩
  | step {m : Moment Tid World Op Res Call Ret} {t : Tid} {e : Event Op Res Call Ret} {w : World} :
      Hist Φ m → S.effect t e m.world = some w → Φ t e m → Hist Φ (m.after t e w)

/-- Every step of every run keeps the promise. -/
def Established [DecidableEq Tid] [DecidableEq Op] [DecidableEq Ret] (Φ : Promise Tid World Op Res Call Ret) : Prop :=
  ∀ c t e c', S.Run Start c → S.step c (t, e) = some c' → Φ t e c.moment

end Histories

variable {S : System Tid World Op Res Call Ret} {Start : World → Prop}

theorem Hist.mono {Φ Ψ : Promise Tid World Op Res Call Ret} (h : ∀ t e m, Φ t e m → Ψ t e m)
    {m : Moment Tid World Op Res Call Ret} (hm : Hist S Start Φ m) : Hist S Start Ψ m := by
  induction hm with
  | start hw => exact .start hw
  | step _ he hp ih => exact ih.step he (h _ _ _ hp)

/-- A promise about the trace holds of every entry of it. -/
theorem Hist.every {Φ : Promise Tid World Op Res Call Ret}
    {P : Entry Tid Op Res Call Ret → List (Entry Tid Op Res Call Ret) → Prop}
    (h : ∀ t e m, Φ t e m → P (t, e) m.trace) {m : Moment Tid World Op Res Call Ret} (hm : Hist S Start Φ m) :
    Every P m.trace := by
  induction hm with
  | start hw => trivial
  | step _ _ hp ih => exact ⟨h _ _ _ hp, ih⟩

/-- What holds when a call starts, and is kept by all but a further call of its thread,
holds while it is the thread's last call. -/
theorem Hist.during [DecidableEq Tid] {Φ : Promise Tid World Op Res Call Ret} {t : Tid} {c : Call}
    {A : Assertion Tid World Op Res Call Ret}
    (starts : ∀ m w, Hist S Start Φ m → S.effect t (.call c) m.world = some w → A (m.after t (.call c) w))
    (kept : ∀ m t' e w, Hist S Start Φ m → S.effect t' e m.world = some w → Φ t' e m →
      (∀ c', e = .call c' → t' ≠ t) → A m → A (m.after t' e w))
    {m : Moment Tid World Op Res Call Ret} (hm : Hist S Start Φ m) (hc : lastCall t m.trace = some c) : A m := by
  induction hm with
  | start hw => cases hc
  | @step m t' e w hm he hp ih =>
    rw [Moment.after_trace] at hc
    by_cases ht : t' = t
    · subst ht
      cases e with
      | call c' =>
        obtain rfl : c' = c := by simpa [lastCall_call] using hc
        exact starts m w hm he
      | did o r => exact kept m t' _ w hm he hp (fun _ h => by cases h) (ih hc)
      | ret s => exact kept m t' _ w hm he hp (fun _ h => by cases h) (ih hc)
    · exact kept m t' e w hm he hp (fun _ _ => ht) (ih ((lastCall_other ht e).symm.trans hc))

section Established
variable [DecidableEq Tid] [DecidableEq Op] [DecidableEq Ret]

theorem established_true : Established S Start fun _ _ _ => True := fun _ _ _ _ _ _ => trivial

theorem established_sequential : Established S Start Sequential := by
  rintro c t e c' hr hs call rfl
  obtain ⟨next, world, ha, -, -⟩ := System.step_eq_some hs
  rcases System.advance_cases ha with ⟨_, hrun, -, -⟩ | ⟨_, _, _, -, h, -⟩ | ⟨_, -, h, -⟩
  · exact (System.running_idle hr t).1 hrun
  · cases h
  · cases h

theorem Established.hist {Φ : Promise Tid World Op Res Call Ret} (h : Established S Start Φ)
    {c : Config Tid World Op Res Call Ret} (hr : S.Run Start c) : Hist S Start Φ c.moment := by
  induction hr with
  | boot hw => exact .start hw
  | @step c c' entry hr hs ih =>
    obtain ⟨next, world, -, he, rfl⟩ := System.step_eq_some hs
    exact ih.step (t := entry.1) (e := entry.2) he (h c entry.1 entry.2 _ hr hs)

end Established

/-! ## Programs between other threads -/

section Rely
variable (S : System Tid World Op Res Call Ret) (Start : World → Prop)
variable (K Φ : Promise Tid World Op Res Call Ret)

/-- Thread `t` can do `e` at a promising moment, with world `w` after it. -/
structure Does (t : Tid) (e : Event Op Res Call Ret) (m : Moment Tid World Op Res Call Ret) (w : World) : Prop where
  hist : Hist S Start (K.and Φ) m
  effect : S.effect t e m.world = some w
  known : K t e m

/-- The moments other threads may lead to before `t` goes on. -/
inductive Rely (t : Tid) (m₀ : Moment Tid World Op Res Call Ret) : Assertion Tid World Op Res Call Ret
  | refl : Rely t m₀ m₀
  | step {m : Moment Tid World Op Res Call Ret} {t' : Tid} {e : Event Op Res Call Ret} {w : World} :
      Rely t m₀ m → t' ≠ t → Does S Start K Φ t' e m w → Φ t' e m → Rely t m₀ (m.after t' e w)

/-- No promising step of another thread breaks `A`. -/
def Stable (t : Tid) (A : Assertion Tid World Op Res Call Ret) : Prop :=
  ∀ t' e m w, t' ≠ t → Does S Start K Φ t' e m w → Φ t' e m → A m → A (m.after t' e w)

/-- Whatever the other threads do in between, each step of `p` keeps the promise
`Φ` if it keeps `K`, and `p` ends in `Q`. -/
def Wp {α : Type} (t : Tid) : Prog Op Res α → (α → Assertion Tid World Op Res Call Ret) →
    Assertion Tid World Op Res Call Ret
  | .ret a, Q => Q a
  | .op o k, Q => fun m₀ => ∀ m, Rely S Start K Φ t m₀ m → ∀ r w, Does S Start K Φ t (.did o r) m w →
      Φ t (.did o r) m ∧ Wp t (k r) Q (m.after t (.did o r) w)

/-- The return of a call keeps the promise, whenever it happens. -/
def Returns (t : Tid) (s : Ret) : Assertion Tid World Op Res Call Ret := fun m₀ =>
  ∀ m, Rely S Start K Φ t m₀ m → ∀ w, Does S Start K Φ t (.ret s) m w → Φ t (.ret s) m

/-- From any moment of a promising history where `A` holds. -/
def Triple {α : Type} (t : Tid) (A : Assertion Tid World Op Res Call Ret) (p : Prog Op Res α)
    (Q : α → Assertion Tid World Op Res Call Ret) : Prop :=
  ∀ m, Hist S Start (K.and Φ) m → A m → Wp S Start K Φ t p Q m

/-- A call keeps the promise from its start to its return. -/
def Fulfils (t : Tid) (call : Call) : Prop :=
  ∀ m w, Does S Start K Φ t (.call call) m w →
    Φ t (.call call) m ∧ Wp S Start K Φ t (S.body call) (Returns S Start K Φ t) (m.after t (.call call) w)

/-- An operation that keeps the promise and `A` wherever it is done. -/
def Keeps (t : Tid) (A : Assertion Tid World Op Res Call Ret) (o : Op) : Prop :=
  ∀ m r w, Does S Start K Φ t (.did o r) m w → A m → Φ t (.did o r) m ∧ A (m.after t (.did o r) w)

end Rely

variable {K Φ : Promise Tid World Op Res Call Ret} {t : Tid}

theorem Does.step {e : Event Op Res Call Ret} {m : Moment Tid World Op Res Call Ret} {w : World}
    (hd : Does S Start K Φ t e m w) (hp : Φ t e m) : Hist S Start (K.and Φ) (m.after t e w) :=
  hd.hist.step hd.effect ⟨hd.known, hp⟩

theorem Stable.rely {A : Assertion Tid World Op Res Call Ret} (hA : Stable S Start K Φ t A)
    {m₀ m : Moment Tid World Op Res Call Ret} (hr : Rely S Start K Φ t m₀ m) (ha : A m₀) : A m := by
  induction hr with
  | refl => exact ha
  | step hr ht hd hp ih => exact hA _ _ _ _ ht hd hp ih

theorem Stable.and {A B : Assertion Tid World Op Res Call Ret} (hA : Stable S Start K Φ t A)
    (hB : Stable S Start K Φ t B) : Stable S Start K Φ t fun m => A m ∧ B m :=
  fun t' e m w ht hd hp h => ⟨hA t' e m w ht hd hp h.1, hB t' e m w ht hd hp h.2⟩

theorem stable_true : Stable S Start K Φ t fun _ => True := fun _ _ _ _ _ _ _ _ => trivial

theorem stable_const (P : Prop) : Stable S Start K Φ t fun _ => P := fun _ _ _ _ _ _ _ h => h

/-- A thread at rest satisfies what holds at every start and after each of its returns. -/
theorem Stable.idle {A : Assertion Tid World Op Res Call Ret} (hA : Stable S Start K Φ t A)
    (hstart : ∀ w, Start w → A ⟨w, []⟩)
    (hret : ∀ s m w, Does S Start K Φ t (.ret s) m w → Φ t (.ret s) m → A (m.after t (.ret s) w))
    {m : Moment Tid World Op Res Call Ret} (hm : Hist S Start (K.and Φ) m) (hi : Idle t m.trace) : A m := by
  induction hm with
  | start hw => exact hstart _ hw
  | @step m t' e w hm he hp ih =>
    by_cases ht : t' = t
    · subst ht
      cases e with
      | ret s => exact hret s m w ⟨hm, he, hp.1⟩ hp.2
      | call c => exact absurd rfl hi.1
      | did o r => exact absurd rfl hi.1
    · exact hA t' e m w ht ⟨hm, he, hp.1⟩ hp.2 (ih ((idle_other ht e).1 hi))

/-! ## Rules -/

section Rules
variable {α β : Type} {A B : Assertion Tid World Op Res Call Ret}

theorem Wp.mono {p : Prog Op Res α} {Q R : α → Assertion Tid World Op Res Call Ret}
    (hQ : ∀ a m, Hist S Start (K.and Φ) m → R a m → Q a m) {m : Moment Tid World Op Res Call Ret}
    (hm : Hist S Start (K.and Φ) m) (hw : Wp S Start K Φ t p R m) : Wp S Start K Φ t p Q m := by
  induction p generalizing m with
  | ret a => exact hQ a m hm hw
  | op o k ih =>
    intro m' hr r w hd
    obtain ⟨hΦ, hw'⟩ := hw m' hr r w hd
    exact ⟨hΦ, ih r (hd.step hΦ) hw'⟩

theorem Triple.conseq {p : Prog Op Res α} {Q R : α → Assertion Tid World Op Res Call Ret}
    (hp : Triple S Start K Φ t B p R) (hA : ∀ m, Hist S Start (K.and Φ) m → A m → B m)
    (hQ : ∀ a m, Hist S Start (K.and Φ) m → R a m → Q a m) : Triple S Start K Φ t A p Q :=
  fun m hm ha => (hp m hm (hA m hm ha)).mono hQ hm

theorem Triple.pre {p : Prog Op Res α} {Q : α → Assertion Tid World Op Res Call Ret} (hA : ∀ m, A m → B m)
    (hp : Triple S Start K Φ t B p Q) : Triple S Start K Φ t A p Q := fun m hm ha => hp m hm (hA m ha)

theorem Triple.ret {a : α} {Q : α → Assertion Tid World Op Res Call Ret} (h : ∀ m, A m → Q a m) :
    Triple S Start K Φ t A (.ret a) Q := fun m _ ha => h m ha

/-- One operation: other threads keep `A`, and the operation leads from `A` to `B`. -/
theorem Triple.op {o : Op} {k : Res o → Prog Op Res α} {Q : α → Assertion Tid World Op Res Call Ret}
    (B : Res o → Assertion Tid World Op Res Call Ret) (hA : Stable S Start K Φ t A)
    (ho : ∀ m r w, Does S Start K Φ t (.did o r) m w → A m →
      Φ t (.did o r) m ∧ B r (m.after t (.did o r) w))
    (hk : ∀ r, Triple S Start K Φ t (B r) (k r) Q) : Triple S Start K Φ t A (.op o k) Q := by
  intro m₀ _ ha m hr r w hd
  obtain ⟨hΦ, hB⟩ := ho m r w hd (hA.rely hr ha)
  exact ⟨hΦ, hk r _ (hd.step hΦ) hB⟩

/-- One operation, and what follows it. -/
theorem Triple.perform {o : Op} {f : Res o → Prog Op Res α} {Q : α → Assertion Tid World Op Res Call Ret}
    (B : Res o → Assertion Tid World Op Res Call Ret) (hA : Stable S Start K Φ t A)
    (ho : ∀ m r w, Does S Start K Φ t (.did o r) m w → A m →
      Φ t (.did o r) m ∧ B r (m.after t (.did o r) w))
    (hf : ∀ r, Triple S Start K Φ t (B r) (f r) Q) : Triple S Start K Φ t A (.perform o >>= f) Q := .op B hA ho hf

/-- One operation that keeps `A`. -/
theorem Triple.keep {o : Op} {k : Res o → Prog Op Res α} {Q : α → Assertion Tid World Op Res Call Ret}
    (hA : Stable S Start K Φ t A) (ho : Keeps S Start K Φ t A o) (hk : ∀ r, Triple S Start K Φ t A (k r) Q) :
    Triple S Start K Φ t A (.op o k) Q := .op (fun _ => A) hA ho hk

theorem Triple.bind {p : Prog Op Res α} {f : α → Prog Op Res β} (R : α → Assertion Tid World Op Res Call Ret)
    {Q : β → Assertion Tid World Op Res Call Ret} (hp : Triple S Start K Φ t A p R)
    (hf : ∀ a, Triple S Start K Φ t (R a) (f a) Q) : Triple S Start K Φ t A (p >>= f) Q := by
  intro m hm ha
  have hw := hp m hm ha
  clear hp ha
  induction p generalizing m with
  | ret a => exact hf a m hm hw
  | op o k ih =>
    intro m' hr r w hd
    obtain ⟨hΦ, hw'⟩ := hw m' hr r w hd
    exact ⟨hΦ, ih r _ (hd.step hΦ) hw'⟩

/-- What an assertion says apart from the moment can be used throughout. -/
theorem Triple.exists {ι : Sort*} {A : ι → Assertion Tid World Op Res Call Ret} {p : Prog Op Res α}
    {Q : α → Assertion Tid World Op Res Call Ret} (h : ∀ i, Triple S Start K Φ t (A i) p Q) :
    Triple S Start K Φ t (fun m => ∃ i, A i m) p Q := fun m hm ⟨i, ha⟩ => h i m hm ha

theorem Triple.given {P : Prop} {p : Prog Op Res α} {Q : α → Assertion Tid World Op Res Call Ret}
    (h : P → Triple S Start K Φ t A p Q) : Triple S Start K Φ t (fun m => P ∧ A m) p Q :=
  fun m hm ⟨hp, ha⟩ => h hp m hm ha

/-- An assertion that nothing `p` or the other threads do breaks can be added. -/
theorem Triple.frame {p : Prog Op Res α} {Q : α → Assertion Tid World Op Res Call Ret} (hB : Stable S Start K Φ t B)
    (hop : ∀ o m r w, Does S Start K Φ t (.did o r) m w → B m → B (m.after t (.did o r) w))
    (hp : Triple S Start K Φ t A p Q) : Triple S Start K Φ t (fun m => A m ∧ B m) p fun a m => Q a m ∧ B m := by
  rintro m hm ⟨ha, hb⟩
  have hw := hp m hm ha
  clear hp ha
  induction p generalizing m with
  | ret a => exact ⟨hw, hb⟩
  | op o k ih =>
    intro m' hr r w hd
    obtain ⟨hΦ, hw'⟩ := hw m' hr r w hd
    exact ⟨hΦ, ih r _ (hd.step hΦ) (hop o m' r w hd (hB.rely hr hb)) hw'⟩

/-- A program of operations that keep `A`, and its results. -/
theorem Triple.yields {p : Prog Op Res α} {P : α → Prop} (hA : Stable S Start K Φ t A)
    (hp : p.Uses (Keeps S Start K Φ t A)) (hy : p.Yields P) :
    Triple S Start K Φ t A p fun a m => A m ∧ P a := by
  induction p with
  | ret a => exact .ret fun _ ha => ⟨ha, hy⟩
  | op o k ih => exact .op (fun _ => A) hA hp.1 fun r => ih r (hp.2 r) (hy r)

/-- A program of operations that keep `A`, whatever it does. -/
theorem Triple.uses {p : Prog Op Res α} (hA : Stable S Start K Φ t A) (hp : p.Uses (Keeps S Start K Φ t A)) :
    Triple S Start K Φ t A p fun _ => A := by
  induction p with
  | ret a => exact .ret fun _ ha => ha
  | op o k ih => exact .op (fun _ => A) hA hp.1 fun r => ih r (hp.2 r)

/-- A program whose steps keep the promise anywhere, with nothing known after it. -/
theorem Triple.free {p : Prog Op Res α} (hp : p.Uses (Keeps S Start K Φ t fun _ => True)) :
    Triple S Start K Φ t A p fun _ _ => True :=
  (Triple.uses stable_true hp).conseq (fun _ _ _ => trivial) fun _ _ _ _ => trivial

/-- The usual way to fulfil a promise: a triple from what holds right after the
call event to something stable that lets the call return. -/
theorem Fulfils.of_triple {call : Call} (A : Assertion Tid World Op Res Call Ret)
    (R : Ret → Assertion Tid World Op Res Call Ret)
    (hcall : ∀ m w, Does S Start K Φ t (.call call) m w → Φ t (.call call) m ∧ A (m.after t (.call call) w))
    (hbody : Triple S Start K Φ t A (S.body call) R) (hR : ∀ s, Stable S Start K Φ t (R s))
    (hret : ∀ s m w, Does S Start K Φ t (.ret s) m w → R s m → Φ t (.ret s) m) :
    Fulfils S Start K Φ t call := by
  intro m w hd
  obtain ⟨hΦ, ha⟩ := hcall m w hd
  refine ⟨hΦ, (hbody _ (hd.step hΦ) ha).mono ?_ (hd.step hΦ)⟩
  intro s m₀ _ hRs m' hr w' hd'
  exact hret s m' w' hd' ((hR s).rely hr hRs)

end Rules

/-! ## Soundness -/

section Soundness
variable [DecidableEq Tid] [DecidableEq Op] [DecidableEq Ret]

/-- What the threads of a run still owe: each is somewhere in a program that keeps
the promise. -/
structure Owed (c : Config Tid World Op Res Call Ret) (S : System Tid World Op Res Call Ret) (Start : World → Prop)
    (K Φ : Promise Tid World Op Res Call Ret) : Prop where
  hist : Hist S Start (K.and Φ) c.moment
  threads : ∀ t p, c.running t = some p →
    ∃ m₀, Rely S Start K Φ t m₀ c.moment ∧ Wp S Start K Φ t p (Returns S Start K Φ t) m₀

/-- One step keeps the promise and what is owed after it. -/
theorem owed_step (h : ∀ t call, Fulfils S Start K Φ t call) {c c' : Config Tid World Op Res Call Ret} {t : Tid}
    {e : Event Op Res Call Ret} (ho : Owed c S Start K Φ) (hs : S.step c (t, e) = some c')
    (hK : K t e c.moment) : Φ t e c.moment ∧ Owed c' S Start K Φ := by
  obtain ⟨next, w, ha, he, rfl⟩ := System.step_eq_some hs
  have hd : Does S Start K Φ t e c.moment w := ⟨ho.hist, he, hK⟩
  -- What thread `t` does next keeps the promise, and it owes the rest of its program.
  have own : Φ t e c.moment ∧ ∀ p, next = some p → Wp S Start K Φ t p (Returns S Start K Φ t) (c.moment.after t e w) := by
    rcases System.advance_cases ha with ⟨call, -, rfl, rfl⟩ | ⟨o, k, r, hrun, rfl, rfl⟩ | ⟨s, hrun, rfl, rfl⟩
    · obtain ⟨hΦ, hw⟩ := h t call _ _ hd
      exact ⟨hΦ, fun p hp => by cases hp; exact hw⟩
    · obtain ⟨m₀, hr, hw⟩ := ho.threads t _ hrun
      obtain ⟨hΦ, hw'⟩ := hw _ hr r w hd
      exact ⟨hΦ, fun p hp => by cases hp; exact hw'⟩
    · obtain ⟨m₀, hr, hw⟩ := ho.threads t _ hrun
      exact ⟨hw _ hr w hd, fun p hp => by cases hp⟩
  refine ⟨own.1, hd.step own.1, fun t' p hp => ?_⟩
  dsimp only at hp
  by_cases ht : t' = t
  · subst ht
    rw [Function.update_self] at hp
    exact ⟨_, .refl, own.2 p hp⟩
  · rw [Function.update_of_ne ht] at hp
    obtain ⟨m₀, hr, hw⟩ := ho.threads t' p hp
    exact ⟨m₀, hr.step (Ne.symm ht) hd own.1, hw⟩

/-- If every call fulfils the promise, every run keeps it. -/
theorem established (hK : Established S Start K) (h : ∀ t call, Fulfils S Start K Φ t call) :
    Established S Start (K.and Φ) := by
  have owed : ∀ c, S.Run Start c → Owed c S Start K Φ := by
    intro c hr
    induction hr with
    | boot hw => exact ⟨.start hw, fun t p hp => by cases hp⟩
    | step hr hs ih => exact (owed_step h ih hs (hK _ _ _ _ hr hs)).2
  intro c t e c' hr hs
  have hk := hK c t e c' hr hs
  exact ⟨hk, (owed_step h (owed c hr) hs hk).1⟩

/-- An operation is one of those of its thread's call. -/
def Within (of : Call → Op → Prop) : Promise Tid World Op Res Call Ret := fun t e m =>
  match e with
  | .did o _ => ∃ call, lastCall t m.trace = some call ∧ of call o
  | _ => True

/-- Where each call uses only its own operations, every run stays within them. -/
theorem established_within {of : Call → Op → Prop} (h : ∀ call, (S.body call).Uses (of call)) :
    Established S Start (Within of) := by
  have hf : ∀ t call, Fulfils S Start (fun _ _ _ => True) (Within of) t call := by
    intro t call
    have stable : Stable S Start (fun _ _ _ => True) (Within of) t fun m => lastCall t m.trace = some call :=
      fun t' e m w ht _ _ h => (lastCall_other ht e).trans h
    refine Fulfils.of_triple (fun m => lastCall t m.trace = some call) (fun _ m => lastCall t m.trace = some call)
      (fun m w _ => ⟨trivial, lastCall_call t call _⟩) (.uses stable ?_) (fun _ => stable) fun _ _ _ _ _ => trivial
    exact (h call).mono fun o ho m r w _ hl => ⟨⟨call, hl, ho⟩, hl⟩
  exact fun c t e c' hr hs => (established established_true hf c t e c' hr hs).2

end Soundness

end Conc
