import LedLamp.Conc.Guarantee
/-!
# Operations made of finer steps

An operation can itself be a program. `System.carried` is a system in which each operation
`o` is carried out by the steps of `f o`, and other threads come between them. If one of
these steps is where the operation takes effect, and the others cannot be told from
nothing, then the finer system does what the coarser one does: `carried_run`. `shown`
reads a trace of the finer system as one of the coarser.

`Between` is what must hold of a thread between two operations, of what is left of its
program; `Doing t o k done q` is what must hold of it while `q` is left of `f o`, with `k`
to follow. `done` is the result of `o` once it has taken effect.
-/

namespace Conc

variable {Tid World Op World' Op' : Type} {Res : Op → Type} {Res' : Op' → Type} {Call Ret α : Type}

/-- The system in which each operation is carried out by a program. -/
def System.carried (S : System Tid World Op Res Call Ret) (f : (o : Op) → Prog Op' Res' (Res o))
    (effect : Tid → Event Op' Res' Call Ret → World' → Option World') : System Tid World' Op' Res' Call Ret where
  body call := (S.body call).hoist f
  effect := effect

@[simp] theorem hoist_ret (f : (o : Op) → Prog Op' Res' (Res o)) (a : α) :
    (Prog.ret a : Prog Op Res α).hoist f = .ret a := rfl

@[simp] theorem hoist_op (f : (o : Op) → Prog Op' Res' (Res o)) (o : Op) (k : Res o → Prog Op Res α) :
    (Prog.op o k).hoist f = f o >>= fun r => (k r).hoist f := rfl

/-- What each `f o` keeps, a program carried out by them keeps. -/
theorem Triple.hoist {S' : System Tid World' Op' Res' Call Ret} {Start' : World' → Prop} {K Φ : Promise Tid World' Op' Res' Call Ret}
    {t : Tid} {A : Assertion Tid World' Op' Res' Call Ret} {f : (o : Op) → Prog Op' Res' (Res o)}
    (hf : ∀ o, Triple S' Start' K Φ t A (f o) fun _ => A) (p : Prog Op Res α) :
    Triple S' Start' K Φ t A (p.hoist f) fun _ => A := by
  induction p with
  | ret a => exact .ret fun _ ha => ha
  | op o k ih => exact (hf o).bind _ ih

/-! ## Programs that keep in step -/

/-- Each operation of the program moves a state on, from `s` to `s'` in all; where `next`
has no state, it may not be performed. -/
def Prog.Paced {σ : Type} (next : σ → Op → Option σ) : σ → Prog Op Res α → σ → Prop
  | s, .ret _, s' => s = s'
  | s, .op o k, s' => ∃ s₁, next s o = some s₁ ∧ ∀ r, (k r).Paced next s₁ s'

theorem Prog.Paced.bind {σ β : Type} {next : σ → Op → Option σ} {s s₁ s₂ : σ} {p : Prog Op Res α} {g : α → Prog Op Res β}
    (hp : p.Paced next s s₁) (hg : ∀ a, (g a).Paced next s₁ s₂) : (p >>= g).Paced next s s₂ := by
  induction p generalizing s with
  | ret a =>
    cases hp
    exact hg a
  | op o k ih =>
    obtain ⟨s', hn, hk⟩ := hp
    exact ⟨s', hn, fun r => ih r (hk r)⟩

/-- A program whose operations leave the state alone. -/
theorem Prog.Uses.paced {σ : Type} {next : σ → Op → Option σ} {s : σ} {p : Prog Op Res α}
    (hp : p.Uses fun o => next s o = some s) : p.Paced next s s := by
  induction p with
  | ret a => rfl
  | op o k ih => exact ⟨s, hp.1, fun r => ih r (hp.2 r)⟩

/-! ## What a trace shows -/

section Shown
variable (takes : (o' : Op') → Res' o' → Option ((o : Op) × Res o))

/-- What an event is in the coarser system, if anything: a step is the operation that
takes effect at it. -/
def Event.shown : Event Op' Res' Call Ret → Option (Event Op Res Call Ret)
  | .call c => some (.call c)
  | .did o r => (takes o r).map fun effect => .did effect.1 effect.2
  | .ret s => some (.ret s)

def shown (trace : List (Entry Tid Op' Res' Call Ret)) : List (Entry Tid Op Res Call Ret) :=
  trace.filterMap fun entry => (entry.2.shown takes).map fun e => (entry.1, e)

variable {takes} {t : Tid} {past : List (Entry Tid Op' Res' Call Ret)}

theorem shown_some {e' : Event Op' Res' Call Ret} {e : Event Op Res Call Ret} (h : e'.shown takes = some e) :
    shown takes ((t, e') :: past) = (t, e) :: shown takes past := by simp [shown, h]

theorem shown_none {e' : Event Op' Res' Call Ret} (h : e'.shown takes = none) :
    shown takes ((t, e') :: past) = shown takes past := by simp [shown, h]

theorem shown_did {o' : Op'} {x : Res' o'} {o : Op} {r : Res o} (h : takes o' x = some ⟨o, r⟩) :
    shown takes ((t, .did o' x) :: past) = (t, .did o r) :: shown takes past :=
  shown_some (by simp [Event.shown, h])

theorem shown_hidden {o' : Op'} {x : Res' o'} (h : takes o' x = none) :
    shown takes ((t, .did o' x) :: past) = shown takes past :=
  shown_none (by simp [Event.shown, h])

end Shown

/-! ## Carrying out -/

section Carries
variable (S : System Tid World Op Res Call Ret) (f : (o : Op) → Prog Op' Res' (Res o))
variable (effect : Tid → Event Op' Res' Call Ret → World' → Option World')
variable (takes : (o' : Op') → Res' o' → Option ((o : Op) × Res o))
variable (K : Promise Tid World' Op' Res' Call Ret) (R : World' → World → Prop)
variable (Between : Tid → Prog Op Res Ret → Assertion Tid World' Op' Res' Call Ret)
variable (Doing : Tid → (o : Op) → (Res o → Prog Op Res Ret) → Option (Res o) → Prog Op' Res' (Res o) →
  Assertion Tid World' Op' Res' Call Ret)

/-- The programs `f o` carry out the operations, where each event keeps `K`. -/
structure Carries : Prop where
  called : ∀ {t call m v' w}, R m.world w → effect t (.call call) m.world = some v' → K t (.call call) m →
    ∃ v, S.effect t (.call call) w = some v ∧ R v' v ∧ Between t (S.body call) (m.after t (.call call) v')
  returned : ∀ {t s m v' w}, R m.world w → effect t (.ret s) m.world = some v' → K t (.ret s) m →
    ∃ v, S.effect t (.ret s) w = some v ∧ R v' v
  enters : ∀ {t o k m}, Between t (.op o k) m → Doing t o k none (f o) m
  leaves : ∀ {t o k done x m}, Doing t o k done (.ret x) m → done = some x ∧ Between t (k x) m
  step : ∀ {t o k done o' k' x m v' w}, Doing t o k done (.op o' k') m → R m.world w →
    effect t (.did o' x) m.world = some v' → K t (.did o' x) m →
    (takes o' x = none ∧ R v' w ∧ Doing t o k done (k' x) (m.after t (.did o' x) v')) ∨
    (done = none ∧ ∃ r v, takes o' x = some ⟨o, r⟩ ∧ S.effect t (.did o r) w = some v ∧ R v' v ∧
      Doing t o k (some r) (k' x) (m.after t (.did o' x) v'))
  -- What other threads do leaves a thread where it stands.
  between_stable : ∀ {t t' p e m v'}, t' ≠ t → effect t' e m.world = some v' → K t' e m → Between t p m →
    Between t p (m.after t' e v')
  doing_stable : ∀ {t t' o k done q e m v'}, t' ≠ t → effect t' e m.world = some v' → K t' e m →
    Doing t o k done q m → Doing t o k done q (m.after t' e v')

/-- Where a thread stands: what it runs in the finer system, and in the coarser. -/
inductive Carried (t : Tid) (m : Moment Tid World' Op' Res' Call Ret) :
    Option (Prog Op' Res' Ret) → Option (Prog Op Res Ret) → Prop
  | idle : Carried t m none none
  | between {p : Prog Op Res Ret} : Between t p m → Carried t m (some (p.hoist f)) (some p)
  | before {o : Op} {k : Res o → Prog Op Res Ret} {q : Prog Op' Res' (Res o)} : Doing t o k none q m →
      Carried t m (some (q >>= fun x => (k x).hoist f)) (some (.op o k))
  | after {o : Op} {k : Res o → Prog Op Res Ret} {q : Prog Op' Res' (Res o)} {r : Res o} : Doing t o k (some r) q m →
      Carried t m (some (q >>= fun x => (k x).hoist f)) (some (k r))

end Carries

variable {S : System Tid World Op Res Call Ret} {f : (o : Op) → Prog Op' Res' (Res o)}
variable {effect : Tid → Event Op' Res' Call Ret → World' → Option World'}
variable {takes : (o' : Op') → Res' o' → Option ((o : Op) × Res o)}
variable {K : Promise Tid World' Op' Res' Call Ret} {R : World' → World → Prop}
variable {Between : Tid → Prog Op Res Ret → Assertion Tid World' Op' Res' Call Ret}
variable {Doing : Tid → (o : Op) → (Res o → Prog Op Res Ret) → Option (Res o) → Prog Op' Res' (Res o) →
  Assertion Tid World' Op' Res' Call Ret}
variable {t : Tid} {m : Moment Tid World' Op' Res' Call Ret}

section Standing
variable (hc : Carries S f effect takes K R Between Doing)
include hc

/-- A running thread is about to return in both systems, or in the middle of an operation. -/
theorem Carried.stands {p' : Prog Op' Res' Ret} {running : Option (Prog Op Res Ret)}
    (h : Carried f Between Doing t m (some p') running) :
    (∃ s, p' = .ret s ∧ running = some (.ret s)) ∨
      ∃ o k o' q, p' = .op o' (fun x => q x >>= fun r => (k r).hoist f) ∧
        ((running = some (.op o k) ∧ Doing t o k none (.op o' q) m) ∨
          ∃ r, running = some (k r) ∧ Doing t o k (some r) (.op o' q) m) := by
  -- Between two operations, the thread is at the start of the next one.
  have starts : ∀ p, Between t p m → p' = p.hoist f → running = some p →
      (∃ s, p' = .ret s ∧ running = some (.ret s)) ∨
        ∃ o k o' q, p' = .op o' (fun x => q x >>= fun r => (k r).hoist f) ∧
          ((running = some (.op o k) ∧ Doing t o k none (.op o' q) m) ∨
            ∃ r, running = some (k r) ∧ Doing t o k (some r) (.op o' q) m) := by
    intro p hb hp hrun
    cases p with
    | ret s => exact .inl ⟨s, hp, hrun⟩
    | op o k =>
      have hd := hc.enters hb
      rw [hoist_op] at hp
      generalize f o = q at hd hp
      cases q with
      | ret x => cases (hc.leaves hd).1
      | op o₁ q => exact .inr ⟨o, k, o₁, q, hp, .inl ⟨hrun, hd⟩⟩
  generalize hr : some p' = running' at h
  cases h with
  | idle => cases hr
  | between hb => exact starts _ hb (Option.some.inj hr) rfl
  | @before o k q hd =>
    cases q with
    | ret x => cases (hc.leaves hd).1
    | op o₁ q => exact .inr ⟨o, k, o₁, q, Option.some.inj hr, .inl ⟨rfl, hd⟩⟩
  | @after o k q r hd =>
    cases q with
    | ret x =>
      obtain ⟨hx, hb⟩ := hc.leaves hd
      obtain rfl := Option.some.inj hx
      exact starts _ hb (Option.some.inj hr) rfl
    | op o₁ q => exact .inr ⟨o, k, o₁, q, Option.some.inj hr, .inr ⟨r, rfl, hd⟩⟩

/-- What a thread that is about to take a step is in the middle of. -/
theorem Carried.op {running : Option (Prog Op Res Ret)} {o' : Op'} {k' : Res' o' → Prog Op' Res' Ret}
    (h : Carried f Between Doing t m (some (.op o' k')) running) :
    ∃ o k q, (∀ x, k' x = q x >>= fun r => (k r).hoist f) ∧
      ((running = some (.op o k) ∧ Doing t o k none (.op o' q) m) ∨
        ∃ r, running = some (k r) ∧ Doing t o k (some r) (.op o' q) m) := by
  rcases h.stands hc with ⟨s, hp, -⟩ | ⟨o, k, o₁, q, hp, hd⟩ <;> cases hp
  exact ⟨o, k, q, fun _ => rfl, hd⟩

/-- A thread that is about to return is so in both systems. -/
theorem Carried.ret {running : Option (Prog Op Res Ret)} {s : Ret}
    (h : Carried f Between Doing t m (some (.ret s)) running) : running = some (.ret s) := by
  rcases h.stands hc with ⟨s', hp, hrun⟩ | ⟨o, k, o₁, q, hp, -⟩ <;> cases hp
  exact hrun

theorem Carried.stable {t' : Tid} {e : Event Op' Res' Call Ret} {v' : World'}
    (ht : t' ≠ t) (he : effect t' e m.world = some v') (hk : K t' e m) {running' : Option (Prog Op' Res' Ret)}
    {running : Option (Prog Op Res Ret)} (h : Carried f Between Doing t m running' running) :
    Carried f Between Doing t (m.after t' e v') running' running := by
  cases h with
  | idle => exact .idle
  | between hb => exact .between (hc.between_stable ht he hk hb)
  | before hd => exact .before (hc.doing_stable ht he hk hd)
  | after hd => exact .after (hc.doing_stable ht he hk hd)

end Standing

/-! ## Whole runs -/

section Runs
variable [DecidableEq Tid] [DecidableEq Op] [DecidableEq Op'] [DecidableEq Ret]
variable {Start : World → Prop} {Start' : World' → Prop}

/-- A configuration of the coarser system that shows one of the finer. -/
structure Shows (f : (o : Op) → Prog Op' Res' (Res o)) (takes : (o' : Op') → Res' o' → Option ((o : Op) × Res o))
    (R : World' → World → Prop) (Between : Tid → Prog Op Res Ret → Assertion Tid World' Op' Res' Call Ret)
    (Doing : Tid → (o : Op) → (Res o → Prog Op Res Ret) → Option (Res o) → Prog Op' Res' (Res o) →
      Assertion Tid World' Op' Res' Call Ret)
    (c' : Config Tid World' Op' Res' Call Ret) (c : Config Tid World Op Res Call Ret) : Prop where
  world : R c'.world c.world
  trace : c.trace = shown takes c'.trace
  threads : ∀ t, Carried f Between Doing t c'.moment (c'.running t) (c.running t)

/-- A step of the finer system is a step of the coarser, or none. -/
theorem Shows.step (hc : Carries S f effect takes K R Between Doing) {c' c'' : Config Tid World' Op' Res' Call Ret}
    {c : Config Tid World Op Res Call Ret} {t : Tid} {e : Event Op' Res' Call Ret}
    (hs : Shows f takes R Between Doing c' c) (h : (S.carried f effect).step c' (t, e) = some c'')
    (hk : K t e c'.moment) :
    Shows f takes R Between Doing c'' c ∨ ∃ entry d, S.step c entry = some d ∧ Shows f takes R Between Doing c'' d := by
  obtain ⟨next, v', ha, he, rfl⟩ := System.step_eq_some h
  dsimp only at ha
  replace he : effect t e c'.moment.world = some v' := he
  -- The other threads stay where they stand.
  have others : ∀ (p : Option (Prog Op' Res' Ret)) (q : Option (Prog Op Res Ret)),
      Carried f Between Doing t (c'.moment.after t e v') p q → ∀ t', Carried f Between Doing t' (c'.moment.after t e v')
        (Function.update c'.running t p t') (Function.update c.running t q t') := by
    intro p q hown t'
    by_cases ht : t' = t
    · subst ht
      simpa using hown
    · rw [Function.update_of_ne ht, Function.update_of_ne ht]
      exact (hs.threads t').stable hc (Ne.symm ht) he hk
  have own := hs.threads t
  rcases System.advance_cases ha with ⟨call, hrun, rfl, rfl⟩ | ⟨o', k', x, hrun, rfl, rfl⟩ | ⟨s, hrun, rfl, rfl⟩
  · rw [hrun] at own
    generalize hq : c.running t = q at own
    cases own
    obtain ⟨v, hv, hR, hb⟩ := hc.called hs.world he hk
    refine .inr ⟨(t, .call call), ⟨v, (t, .call call) :: c.trace, Function.update c.running t (some (S.body call))⟩,
      ?_, ⟨hR, ?_, others _ _ (.between hb)⟩⟩
    · simp [System.step, System.advance, hq, hv]
    · exact (congrArg _ hs.trace).trans (shown_some rfl).symm
  · rw [hrun] at own
    obtain ⟨o, k, q, hk', hdoing⟩ := own.op hc
    rcases hdoing with ⟨hq, hd⟩ | ⟨r, hq, hd⟩
    · rcases hc.step hd hs.world he hk with ⟨htakes, hR, hd'⟩ | ⟨-, r, v, htakes, hv, hR, hd'⟩
      · have hthreads := others _ _ (.before hd')
        rw [← hk', ← hq, Function.update_eq_self] at hthreads
        exact .inl ⟨hR, hs.trace.trans (shown_hidden htakes).symm, hthreads⟩
      · refine .inr ⟨(t, .did o r), ⟨v, (t, .did o r) :: c.trace, Function.update c.running t (some (k r))⟩,
          ?_, ⟨hR, ?_, ?_⟩⟩
        · simp [System.step, System.advance, Prog.follow, hq, hv]
        · exact (congrArg _ hs.trace).trans (shown_did htakes).symm
        · rw [hk']
          exact others _ _ (.after hd')
    · rcases hc.step hd hs.world he hk with ⟨htakes, hR, hd'⟩ | ⟨hdone, -⟩
      · have hthreads := others _ _ (.after hd')
        rw [← hk', ← hq, Function.update_eq_self] at hthreads
        exact .inl ⟨hR, hs.trace.trans (shown_hidden htakes).symm, hthreads⟩
      · cases hdone
  · rw [hrun] at own
    have hq := own.ret hc
    obtain ⟨v, hv, hR⟩ := hc.returned hs.world he hk
    refine .inr ⟨(t, .ret s), ⟨v, (t, .ret s) :: c.trace, Function.update c.running t none⟩,
      ?_, ⟨hR, ?_, others _ _ .idle⟩⟩
    · simp [System.step, System.advance, Prog.follow, hq, hv]
    · exact (congrArg _ hs.trace).trans (shown_some rfl).symm

/-- What the finer system does, the coarser one does. `hk` gives the promise of a step
from what is in the trace after it. -/
theorem carried_run (hc : Carries S f effect takes K R Between Doing) {Clean : Entry Tid Op' Res' Call Ret → Prop}
    (hstart : ∀ w', Start' w' → ∃ w, Start w ∧ R w' w)
    (hk : ∀ c t e c', (S.carried f effect).Run Start' c → (S.carried f effect).step c (t, e) = some c' → Clean (t, e) →
      K t e c.moment) {c' : Config Tid World' Op' Res' Call Ret} (hr : (S.carried f effect).Run Start' c')
    (hclean : ∀ entry ∈ c'.trace, Clean entry) : ∃ c, S.Run Start c ∧ Shows f takes R Between Doing c' c := by
  induction hr with
  | boot hw =>
    obtain ⟨w, hw, hR⟩ := hstart _ hw
    exact ⟨System.boot w, .boot hw, hR, rfl, fun _ => .idle⟩
  | @step c' c'' entry hr hs ih =>
    obtain ⟨t, e⟩ := entry
    have htrace : c''.trace = (t, e) :: c'.trace := by
      obtain ⟨next, v', -, -, rfl⟩ := System.step_eq_some hs
      rfl
    rw [htrace, List.forall_mem_cons] at hclean
    obtain ⟨c, hrun, hshows⟩ := ih hclean.2
    rcases hshows.step hc hs (hk _ _ _ _ hr hs hclean.1) with h | ⟨entry, d, hstep, h⟩
    · exact ⟨c, hrun, h⟩
    · exact ⟨d, hrun.step hstep, h⟩

end Runs

end Conc
