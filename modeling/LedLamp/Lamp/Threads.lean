import LedLamp.Lamp.Steps
/-!
# The lamp under any number of threads

Every operation takes `s_lamp_lock`, and each access to `s_lamp` and each HAL call inside
is a step of its own. `threads_linearizable` is what the lock is for: whatever the threads
do, each operation takes effect at one point between its call and its return, so `Control`
describes all that can be seen of the lamp. `threads_fail_off` is the ordering guarantee of
the lock's comment: once a force-inactive has returned `LAMP_OK` the output is off, at each
step, with an apply of another thread begun before it and still in flight.
-/

namespace LedLamp.Lamp

open Conc

variable {Tid : Type} [DecidableEq Tid]

/-- The lamp, called by any thread at any time. -/
def lampThreads : System Tid (Guarded Tid Machine) (LockOp Steps.Op) (LockRes Steps.Res) Call Steps.Ret :=
  lockSystem Steps.body (determined Steps.Op.exec)

/-- The lock is free, and the lamp has its static initializer. -/
def Fresh (w : Guarded Tid Machine) : Prop := ∃ outcome, w = ⟨none, .boot outcome⟩

/-- The operations of a history, oldest first. -/
def calls (history : List (Tid × Call × Steps.Ret)) : List Call := (history.map fun c => c.2.1).reverse

omit [DecidableEq Tid] in
theorem run_calls_cons (t : Tid) (c : Call) (r : Steps.Ret) (history : List (Tid × Call × Steps.Ret)) (m : Machine) :
    run (calls ((t, c, r) :: history)) m = c.next (run (calls history) m) := by
  simp [run, calls]

theorem leads_call {c : Call} {m m' : Machine} {r : Steps.Ret} :
    (Steps.body c).Leads (determined Steps.Op.exec) m r m' ↔ c.answer m = r ∧ c.next m = m' := by
  rw [leads_determined, body_run, Prod.mk.injEq]

omit [DecidableEq Tid] in
/-- The serial runs of the lamp are those of `Control`. -/
theorem serial_run_calls {history : List (Tid × Call × Steps.Ret)} {m m' : Machine}
    (h : Serial Steps.body (determined Steps.Op.exec) m history m') : run (calls history) m = m' := by
  induction h with
  | nil => rfl
  | cons _ hl ih =>
    rw [run_calls_cons, ih]
    exact (leads_call.1 hl).2

/-! ## One at a time -/

instance : DecidablePred (· = some Call.forceInactive)
  | some .forceInactive => isTrue rfl
  | none | some (.init _) | some (.applyState _ _) | some .releaseFailOff | some .deinit | some (.getAppliedState _) =>
    isFalse (fun h => by cases h)

/-- A call that asks for light. -/
def Call.lights : Call → Bool
  | .applyState (some requested) _ => requested.power
  | _ => false

/-- What each step returns when the lamp is on its own. -/
def obliging : (o : LockOp Steps.Op) → Guarded Bool Machine → Option (LockRes Steps.Res o)
  | .take, _ => some ()
  | .give, _ => some ()
  | .inside o, w => some (o.exec w.state).1

def goesOn (t : Bool) (steps : Nat) : List (Bool × Option Call) := List.replicate steps (t, none)

/-- One thread initializes a lamp on pin 4 and lights it; the other forces it inactive. The
apply has given the lock back and not yet returned when the force-inactive comes. -/
def lateApply : List (Bool × Option Call) :=
  (false, some (.init (some ⟨some 4, (none, none, none), 1, 5000, .activeHigh⟩))) :: goesOn false 11 ++
    (false, some (.applyState (some ⟨true, 100, 255, 255, 255⟩) none)) :: goesOn false 9 ++
    (true, some .forceInactive) :: goesOn true 8

/-- In every interleaving the operations take effect one at a time, each between its call
and its return. What each returns is what it returns when they run in that order, and so is
the lamp whenever nobody is inside. -/
theorem threads_linearizable {c : Config Tid (Guarded Tid Machine) (LockOp Steps.Op) (LockRes Steps.Res) Call Steps.Ret}
    (hr : lampThreads.Run Fresh c) : ∃ outcome history phase, Linearized c.trace history phase ∧
      (∀ newer t call r older, history = newer ++ (t, call, r) :: older →
        r = call.answer (run (calls older) (.boot outcome))) ∧
      (c.world.holder = none → c.world.state = run (calls history) (.boot outcome)) := by
  have hfree : ∀ w : Guarded Tid Machine, Fresh w → w.holder = none := by
    rintro w ⟨outcome, rfl⟩
    rfl
  obtain ⟨w₀, history, phase, m, ⟨outcome, rfl⟩, hx⟩ := linearizable hfree hr
  refine ⟨outcome, history, phase, hx.linear, ?_, fun h => (hx.free h).trans (serial_run_calls hx.serial).symm⟩
  rintro newer t call r older rfl
  obtain ⟨m₁, hall, -⟩ := hx.serial.split
  cases hall with
  | cons hold hl =>
    rw [serial_run_calls hold]
    exact (leads_call.1 hl).1.symm

theorem threads_linearizable_late : ∃ c outcome history phase, lampThreads.Run Fresh c ∧
    (inFlight false c.trace).any Call.lights = true ∧
    Linearized c.trace history phase ∧ c.world.state = run (calls history) (.boot outcome) := by
  have h : (turns lampThreads obliging lateApply (System.boot ⟨none, .boot fun _ => .ok⟩)).map (fun c =>
      (c.world.holder, (inFlight false c.trace).any Call.lights)) = some (none, true) := by decide +kernel
  obtain ⟨c, hc, hw⟩ := Option.map_eq_some_iff.1 h
  have hboot : Fresh (⟨none, .boot fun _ => .ok⟩ : Guarded Bool Machine) := ⟨_, rfl⟩
  have hr := turns_run (.boot hboot) hc
  obtain ⟨outcome, history, phase, hl, -, hstate⟩ := threads_linearizable hr
  exact ⟨c, outcome, history, phase, hr, congrArg Prod.snd hw, hl, hstate (congrArg Prod.fst hw)⟩

/-! ## Off at each step -/

/-- The operations that can end a latched barrier. -/
def Call.lifts : Call → Bool
  | .releaseFailOff | .init _ => true
  | _ => false

theorem not_lifts {c : Call} (h : c.lifts = false) (m : Machine) : ¬ Lifts c m := by
  rintro (rfl | ⟨config, rfl, -⟩) <;> cases h

omit [DecidableEq Tid] in
theorem serial_held {history : List (Tid × Call × Steps.Ret)} {m m' : Machine}
    (h : Serial Steps.body (determined Steps.Op.exec) m history m') (hc : ∀ c ∈ history, c.2.1.lifts = false) :
    Held m m' := by
  induction h with
  | nil => exact .refl
  | cons _ hl ih =>
    rw [← (leads_call.1 hl).2]
    exact .call _ (ih fun c hm => hc c (.tail _ hm)) (not_lifts (hc _ (.head _)) _)

/-- The channels are as the last HAL call left them. -/
def Recorded (h : Hal) : Prop := h.channels = h.moments.headD ⟨fun _ => 0, fun _ => false⟩

theorem halCall_call (c : Steps.HalCall) (h : Hal) : ∃ effect, c.exec h = h.call effect := by
  cases c with
  | init config => exact ⟨fun c => ⟨Function.update c.duty config.pin 0, Function.update c.live config.pin true⟩, rfl⟩
  | setDuty pin duty => exact ⟨fun c => { c with duty := Function.update c.duty pin duty }, rfl⟩
  | forceInactive pin => exact ⟨fun c => { c with duty := Function.update c.duty pin 0 }, rfl⟩
  | deinit pin => exact ⟨fun c => ⟨Function.update c.duty pin 0, Function.update c.live pin false⟩, rfl⟩

theorem exec_recorded {o : Steps.Op} {r : Steps.Res o} {m m' : Machine} (h : determined Steps.Op.exec o r m = some m')
    (hm : Recorded m.hal) : Recorded m'.hal := by
  obtain ⟨-, rfl⟩ := determined_eq_some.1 h
  cases o with
  | load => exact hm
  | store s => exact hm
  | hal c =>
    obtain ⟨effect, e⟩ := halCall_call c m.hal
    rw [Steps.exec_hal, e]
    rfl

/-- The HAL calls made stay made. -/
theorem exec_moments {o : Steps.Op} {r : Steps.Res o} {m m' : Machine} (h : determined Steps.Op.exec o r m = some m') :
    m.hal.moments <:+ m'.hal.moments := by
  obtain ⟨-, rfl⟩ := determined_eq_some.1 h
  cases o with
  | load => exact List.suffix_refl _
  | store s => exact List.suffix_refl _
  | hal c =>
    obtain ⟨effect, e⟩ := halCall_call c m.hal
    rw [Steps.exec_hal, e]
    exact List.suffix_cons _ _

/-- An operation on the way to an end it reaches quietly is off at each step, if it was off
at the start. -/
theorem way_off {c : Call} {q : Steps.Act Steps.Ret} {m m' : Machine} (hw : (Steps.body c).Way (determined Steps.Op.exec) m q m')
    (hm : Recorded m.hal) (hq : Quiet m.hal (c.next m).hal) (h0 : Off m.hal.channels) : Off m'.hal.channels := by
  have hm' : Recorded m'.hal := hw.keeps (A := fun v => Recorded v.hal) (fun _ _ _ _ => exec_recorded) hm
  have hstart : m.hal.moments <:+ m'.hal.moments :=
    hw.keeps (A := fun v => m.hal.moments <:+ v.hal.moments) (fun _ _ _ _ he h => h.trans (exec_moments he)) (List.suffix_refl _)
  have hleads : q.Leads (determined Steps.Op.exec) m' (q.run Steps.Op.exec m').1 (q.run Steps.Op.exec m').2 :=
    leads_determined.2 rfl
  have hend : m'.hal.moments <:+ (c.next m).hal.moments := by
    rw [(leads_call.1 (hw.leads hleads)).2]
    exact hleads.keeps (A := fun v => m'.hal.moments <:+ v.hal.moments) (fun _ _ _ _ he h => h.trans (exec_moments he))
      (List.suffix_refl _)
  obtain ⟨since, hsince, hnew⟩ := hq.moments
  obtain ⟨early, hearly⟩ := hstart
  obtain ⟨late, hlate⟩ := hend
  have e : since = late ++ early := by
    have he : since ++ m.hal.moments = late ++ early ++ m.hal.moments := by
      rw [← hsince, ← hlate, ← hearly, List.append_assoc]
    exact List.append_cancel_right he
  rw [hm', ← hearly]
  cases early with
  | nil =>
    rw [List.nil_append, ← hm]
    exact h0
  | cons now early => exact (hnew now (by simp [e])).off h0

/-- The ordering guarantee. Once a force-inactive has returned `LAMP_OK`, with no release
and no init beside it or after it, every pin is off at each step, whatever other threads
are in the middle of. -/
theorem threads_fail_off {c : Config Tid (Guarded Tid Machine) (LockOp Steps.Op) (LockRes Steps.Res) Call Steps.Ret}
    {t : Tid} (hr : lampThreads.Run Fresh c)
    (h : Answered (fun call => call.lifts = false) t .forceInactive (.ok, none) c.trace) :
    Off c.world.state.hal.channels := by
  have hfree : ∀ w : Guarded Tid Machine, Fresh w → w.holder = none := by
    rintro w ⟨outcome, rfl⟩
    rfl
  obtain ⟨w₀, history, phase, m, ⟨outcome, rfl⟩, hx⟩ := linearizable hfree hr
  obtain ⟨hpend, newer, older, rfl, hnew⟩ := hx.linear.answered h
  obtain ⟨m₂, hall, hheld⟩ := hx.serial.split
  cases hall with
  | @cons _ m₁ _ _ _ _ hold hl =>
    obtain ⟨hok, rfl⟩ := leads_call.1 hl
    have hreach : Reachable m₁ := serial_run_calls hold ▸ reachable_run (.boot outcome) _
    obtain ⟨h0, hlatched, -⟩ := forceInactive_ok (reachable_tracked hreach) (congrArg Prod.fst hok)
    obtain ⟨hquiet, hbarrier⟩ := held_latched (serial_held hheld hnew) hlatched
    have hoff : Off m.hal.channels := hquiet.channels.off h0
    cases hholder : c.world.holder with
    | none =>
      rw [hx.free hholder]
      exact hoff
    | some t' =>
      have hstage := hx.stage t'
      generalize hp : phase t' = p at hstage
      generalize c.running t' = running at hstage
      cases hstage with
      | idle out => exact absurd hholder out
      | waiting out => exact absurd hholder out
      | effected out => exact absurd hholder out
      | inside held way =>
        have hboot : Recorded (Machine.boot outcome).hal := rfl
        have hrecorded : Recorded m.hal :=
          hx.serial.keeps (A := fun v => Recorded v.hal) (fun _ _ _ _ => exec_recorded) hboot
        exact way_off way hrecorded (latched_step _ hbarrier (not_lifts (hpend t' _ hp) m)).1 hoff

theorem threads_fail_off_late : ∃ c, lampThreads.Run Fresh c ∧
    (inFlight false c.trace).any Call.lights = true ∧ Off c.world.state.hal.channels := by
  have h : (turns lampThreads obliging lateApply (System.boot ⟨none, .boot fun _ => .ok⟩)).map (fun c =>
      (decide (Answered (fun call => call.lifts = false) true .forceInactive (.ok, none) c.trace),
        (inFlight false c.trace).any Call.lights)) = some (true, true) := by decide +kernel
  obtain ⟨c, hc, hw⟩ := Option.map_eq_some_iff.1 h
  simp only [Prod.mk.injEq, decide_eq_true_eq] at hw
  have hboot : Fresh (⟨none, .boot fun _ => .ok⟩ : Guarded Bool Machine) := ⟨_, rfl⟩
  have hr := turns_run (.boot hboot) hc
  exact ⟨c, hr, hw.2, threads_fail_off hr hw.1⟩

end LedLamp.Lamp
