import LedLamp.Lamp.Effects
/-!
# The fail-off barrier

`Tracked` holds in every reachable state: an energized pin is one the lamp
tracks, and a deinitialized lamp tracks none. So a fail-off that succeeds turns
the whole lamp off, and while the barrier is latched every operation is quiet:
`barrier_holds` says that nothing is energized again, at any moment, until the
barrier is released or a deinitialized lamp is initialized.
-/

namespace LedLamp.Lamp

/-! ## Energized pins are tracked -/

structure Tracked (m : Machine) : Prop where
  energized : ∀ pin, m.hal.channels.duty pin ≠ 0 → pin ∈ m.lamp.pins
  released : m.lamp.initialized = false → m.lamp.pins = []

/-- Every pin is off. -/
def Off (c : Channels) : Prop := ∀ pin, c.duty pin = 0

theorem Below.off {c d : Channels} (h : Below d c) (h0 : Off c) : Off d := by
  intro pin
  rcases h pin with e | e
  · exact e.trans (h0 pin)
  · exact e

theorem Tracked.off {m : Machine} (ht : Tracked m) (hi : m.lamp.initialized = false) : Off m.hal.channels := by
  intro pin
  by_contra hne
  have := ht.energized pin hne
  rw [ht.released hi] at this
  cases this

theorem Tracked.of_off {m : Machine} (h0 : Off m.hal.channels)
    (hr : m.lamp.initialized = false → m.lamp.pins = []) : Tracked m :=
  ⟨fun pin hne => absurd (h0 pin) hne, hr⟩

/-- Quiet HAL calls keep the invariant while the lamp keeps its channels. -/
theorem Tracked.quiet {m m' : Machine} (ht : Tracked m) (hq : Quiet m.hal m'.hal)
    (hp : m'.lamp.pins = m.lamp.pins) (hi : m'.lamp.initialized = m.lamp.initialized) : Tracked m' := by
  refine ⟨fun pin hne => ?_, fun h => by rw [hp]; exact ht.released (hi ▸ h)⟩
  rw [hp]
  exact ht.energized pin fun h0 => hne (hq.off h0)

theorem lampFailOff_pins (m : Machine) :
    (lampFailOff m).2.lamp.pins = m.lamp.pins ∧ (lampFailOff m).2.lamp.initialized = m.lamp.initialized ∧
      (lampFailOff m).2.lamp.failOffBarrier = m.lamp.failOffBarrier := by
  rcases lampFailOff_cases m with e | ⟨e, -⟩ <;> rw [e] <;> exact ⟨rfl, rfl, rfl⟩

theorem lampFailOff_tracked {m : Machine} (ht : Tracked m) : Tracked (lampFailOff m).2 :=
  ht.quiet (lampFailOff_quiet m) (lampFailOff_pins m).1 (lampFailOff_pins m).2.1

/-- Releasing drops a channel only once it is off. -/
theorem lampReleaseChannels_tracked {m : Machine} (ht : Tracked m) (hi : m.lamp.initialized = true) :
    Tracked (lampReleaseChannels m).2 := by
  refine ⟨fun pin hne => ?_, fun h => ?_⟩
  · simp only [lampReleaseChannels] at hne ⊢
    have hm : pin ∈ m.lamp.pins := ht.energized pin fun h0 => hne ((releaseChannels_quiet _ _).off h0)
    by_contra hk
    exact hne (releaseChannels_off _ _ pin hm hk)
  · rw [show (lampReleaseChannels m).2.lamp.initialized = m.lamp.initialized from rfl, hi] at h
    cases h

/-- Once nothing is kept, everything is off. -/
theorem lampReset_tracked {m : Machine} (ht : Tracked m) (hi : m.lamp.initialized = true)
    (hs : (lampReleaseChannels m).1 = .ok) : Tracked (lampResetReleasedState (lampReleaseChannels m).2) := by
  refine .of_off (fun pin => ?_) fun _ => rfl
  by_contra hne
  have hm := (lampReleaseChannels_tracked ht hi).energized pin hne
  rw [show (lampReleaseChannels m).2.lamp.pins = (releaseChannels m.lamp.pins m.hal).2.1 from rfl,
    releaseChannels_ok hs] at hm
  cases hm

theorem init_tracked {m : Machine} (ht : Tracked m) (config : Option LampControlConfig) :
    Tracked (lampControlInit config m).2 := by
  rcases lampControlInit_cases config m with ⟨status, hal, e, -, hq⟩ | ⟨hi, pins, hal, hq, e⟩
  · rw [e]; exact ht.quiet hq rfl rfl
  · have h0 : Off hal.channels := hq.channels.off (ht.off hi)
    have hf : Tracked ⟨.fresh pins, hal⟩ := .of_off h0 (by simp [LampControlState.fresh])
    rcases e with e | ⟨hs, -, e⟩
    · rw [e]; exact hf
    · have hf' := lampFailOff_tracked hf
      have hi' : (lampFailOff ⟨.fresh pins, hal⟩).2.lamp.initialized = true := (lampFailOff_pins _).2.1
      rw [e]
      dsimp only
      split
      · exact lampReset_tracked hf' hi' ‹_›
      · exact lampReleaseChannels_tracked hf' hi'

/-- Driving channels energizes tracked pins only. -/
theorem drive_tracked {m : Machine} (ht : Tracked m) (r : LampState)
    (lamp : LampControlState) (hp : lamp.pins = m.lamp.pins) (hi' : lamp.initialized = true) :
    Tracked ⟨lamp, (driveChannels r m.lamp.pins.length 0 m.lamp.pins m.hal).2⟩ := by
  refine ⟨fun pin hne => ?_, fun h => by rw [hi'] at h; cases h⟩
  by_contra hk
  rw [hp] at hk
  dsimp only at hne
  rw [driveChannels_other r _ _ _ _ hk] at hne
  exact hk (ht.energized pin hne)

theorem applyState_tracked {m : Machine} (ht : Tracked m) (requested : Option LampState)
    (out : Option LampAppliedState) : Tracked (lampControlApplyState requested out m).2.2 := by
  rcases lampControlApplyState_cases requested out m with
    ⟨-, e⟩ | ⟨-, status, -, -, e⟩ | ⟨hi, -, r, -, -, -, status, -, e⟩ | ⟨hi, -, r, -, -, -, e⟩ <;> rw [e]
  · exact ht
  · exact lampFailOff_tracked ht
  · exact lampFailOff_tracked (drive_tracked ht r _ rfl hi)
  · exact drive_tracked ht r _ rfl hi

/-- What an explicit force-inactive does: nothing on a deinitialized lamp, else
a fail-off, with the barrier latched if it succeeded. -/
theorem lampControlForceInactive_cases (m : Machine) :
    (m.lamp.initialized = false ∧ lampControlForceInactive m = (.errNotInitialized, m)) ∨
    (m.lamp.initialized = true ∧ (lampFailOff m).1 ≠ .ok ∧ lampControlForceInactive m = lampFailOff m) ∨
    (m.lamp.initialized = true ∧ (lampFailOff m).1 = .ok ∧
      lampControlForceInactive m =
        (.ok, { (lampFailOff m).2 with lamp := { (lampFailOff m).2.lamp with failOffBarrier := true } })) := by
  cases hi : m.lamp.initialized with
  | false => exact .inl ⟨rfl, by simp [lampControlForceInactive, lampControlForceInactiveLocked, hi]⟩
  | true =>
    by_cases hs : (lampFailOff m).1 = .ok
    · exact .inr (.inr ⟨rfl, hs, by simp [lampControlForceInactive, lampControlForceInactiveLocked, hi, hs]⟩)
    · exact .inr (.inl ⟨rfl, hs, by simp [lampControlForceInactive, lampControlForceInactiveLocked, hi, hs]⟩)

theorem forceInactive_tracked {m : Machine} (ht : Tracked m) : Tracked (lampControlForceInactive m).2 := by
  have hf := lampFailOff_tracked ht
  rcases lampControlForceInactive_cases m with ⟨-, e⟩ | ⟨-, -, e⟩ | ⟨-, -, e⟩ <;> rw [e]
  · exact ht
  · exact hf
  · exact hf.quiet (.refl _) rfl rfl

/-- What a deinit does: nothing on a deinitialized lamp, else release every
channel, with a fail-off over the kept ones if some release failed. -/
theorem lampControlDeinit_cases (m : Machine) :
    (m.lamp.initialized = false ∧ lampControlDeinit m = (.errNotInitialized, m)) ∨
    (m.lamp.initialized = true ∧ (lampReleaseChannels m).1 ≠ .ok ∧
      lampControlDeinit m = failOffThen (lampMapHalStatus (lampReleaseChannels m).1) (lampReleaseChannels m).2) ∨
    (m.lamp.initialized = true ∧ (lampReleaseChannels m).1 = .ok ∧
      lampControlDeinit m = (.ok, lampResetReleasedState (lampReleaseChannels m).2)) := by
  cases hi : m.lamp.initialized with
  | false => exact .inl ⟨rfl, by simp [lampControlDeinit, lampControlDeinitLocked, hi]⟩
  | true =>
    by_cases hs : (lampReleaseChannels m).1 = .ok
    · exact .inr (.inr ⟨rfl, hs, by simp [lampControlDeinit, lampControlDeinitLocked, hi, hs]⟩)
    · exact .inr (.inl ⟨rfl, hs, by simp [lampControlDeinit, lampControlDeinitLocked, hi, hs]⟩)

theorem deinit_tracked {m : Machine} (ht : Tracked m) : Tracked (lampControlDeinit m).2 := by
  rcases lampControlDeinit_cases m with ⟨-, e⟩ | ⟨hi, -, e⟩ | ⟨hi, hs, e⟩ <;> rw [e]
  · exact ht
  · exact lampFailOff_tracked (lampReleaseChannels_tracked ht hi)
  · exact lampReset_tracked ht hi hs

theorem call_tracked {m : Machine} (ht : Tracked m) (c : Call) : Tracked (c.next m) := by
  cases c with
  | init config => exact init_tracked ht config
  | applyState requested out => exact applyState_tracked ht requested out
  | forceInactive => exact forceInactive_tracked ht
  | releaseFailOff => exact ht.quiet (.refl _) rfl rfl
  | deinit => exact deinit_tracked ht
  | getAppliedState out => exact ht

/-- In every reachable state the energized pins are tracked. -/
theorem reachable_tracked {m : Machine} (hr : Reachable m) : Tracked m := by
  induction hr with
  | boot outcome => exact .of_off (fun _ => rfl) fun _ => rfl
  | call c _ ih => exact call_tracked ih c

theorem reachable_run {m : Machine} (hr : Reachable m) (calls : List Call) : Reachable (run calls m) := by
  induction calls generalizing m with
  | nil => exact hr
  | cons c calls ih => exact ih (hr.call c)

/-! ## While the barrier is latched -/

/-- The operations that end a latched barrier: a release, and an init of a
deinitialized lamp. -/
def Lifts (c : Call) (m : Machine) : Prop :=
  c = .releaseFailOff ∨ ∃ config, c = .init config ∧ m.lamp.initialized = false

/-- The states reached from `m` by operations none of which lifts the barrier. -/
inductive Held (m : Machine) : Machine → Prop
  | refl : Held m m
  | call {m' : Machine} (c : Call) : Held m m' → ¬ Lifts c m' → Held m (c.next m')

/-- A step that does not lift a latched barrier is quiet and keeps it latched. -/
theorem latched_step {m : Machine} (c : Call) (hb : m.lamp.failOffBarrier = true) (hl : ¬ Lifts c m) :
    Quiet m.hal (c.next m).hal ∧ (c.next m).lamp.failOffBarrier = true := by
  cases c with
  | init config =>
    cases hi : m.lamp.initialized with
    | false => exact absurd (.inr ⟨config, rfl, hi⟩) hl
    | true =>
      have e : (Call.init config).next m = m := lampControlInit_initialized config hi
      rw [e]; exact ⟨.refl _, hb⟩
  | applyState requested out =>
    show Quiet m.hal (lampControlApplyState requested out m).2.2.hal ∧ _ = _
    rcases lampControlApplyState_cases requested out m with
      ⟨-, e⟩ | ⟨-, status, -, -, e⟩ | ⟨-, hb', -⟩ | ⟨-, hb', -⟩
    · simp only [Call.next, Call.exec, e]; exact ⟨.refl _, hb⟩
    · simp only [Call.next, Call.exec, e, failOffThen_snd]
      exact ⟨lampFailOff_quiet m, (lampFailOff_pins m).2.2.trans hb⟩
    · rw [hb] at hb'; cases hb'
    · rw [hb] at hb'; cases hb'
  | forceInactive =>
    show Quiet m.hal (lampControlForceInactive m).2.hal ∧ (lampControlForceInactive m).2.lamp.failOffBarrier = true
    rcases lampControlForceInactive_cases m with ⟨-, e⟩ | ⟨-, -, e⟩ | ⟨-, -, e⟩ <;> rw [e]
    · exact ⟨.refl _, hb⟩
    · exact ⟨lampFailOff_quiet m, (lampFailOff_pins m).2.2.trans hb⟩
    · exact ⟨lampFailOff_quiet m, rfl⟩
  | releaseFailOff => exact absurd (.inl rfl) hl
  | deinit =>
    show Quiet m.hal (lampControlDeinit m).2.hal ∧ (lampControlDeinit m).2.lamp.failOffBarrier = true
    have hq := lampReleaseChannels_quiet m
    rcases lampControlDeinit_cases m with ⟨-, e⟩ | ⟨-, -, e⟩ | ⟨-, -, e⟩ <;> rw [e]
    · exact ⟨.refl _, hb⟩
    · exact ⟨hq.trans (lampFailOff_quiet _), (lampFailOff_pins _).2.2.trans hb⟩
    · exact ⟨hq, hb⟩
  | getAppliedState out => exact ⟨.refl _, hb⟩

theorem held_latched {m m' : Machine} (hh : Held m m') (hb : m.lamp.failOffBarrier = true) :
    Quiet m.hal m'.hal ∧ m'.lamp.failOffBarrier = true := by
  induction hh with
  | refl => exact ⟨.refl _, hb⟩
  | call c _ hl ih =>
    obtain ⟨hq, hb'⟩ := ih
    obtain ⟨hq', hb''⟩ := latched_step c hb' hl
    exact ⟨hq.trans hq', hb''⟩

/-- With the barrier latched, an initialized lamp rejects every apply. -/
theorem latched_rejects {m : Machine} (hb : m.lamp.failOffBarrier = true) (hi : m.lamp.initialized = true)
    (requested : Option LampState) (out : Option LampAppliedState) :
    (lampControlApplyState requested out m).1 = .errBlockedByFailOff ∨
      (lampControlApplyState requested out m).1 = .errFailOff := by
  simp only [lampControlApplyState, hi, hb, failOffThen]
  by_cases hs : (lampFailOff m).1 = .ok <;> simp [hs]

/-- A fail-off that reports success leaves every pin off: the tracked ones by
proof, the others because they were off before. -/
theorem lampFailOff_off {m : Machine} (ht : Tracked m) (hs : (lampFailOff m).1 = .ok) :
    Off (lampFailOff m).2.hal.channels := by
  intro pin
  rcases lampFailOff_cases m with e | ⟨e, hoff⟩
  · rw [e] at hs; cases hs
  · rw [e]
    by_cases hp : pin ∈ m.lamp.pins
    · exact hoff pin hp
    · have h0 : m.hal.channels.duty pin = 0 := by
        by_contra hne
        exact hp (ht.energized pin hne)
      exact (failOffChannels_quiet _ _).off h0

/-- An explicit force-inactive that returns `LAMP_OK` leaves everything off and
the barrier latched. -/
theorem forceInactive_ok {m : Machine} (ht : Tracked m) (hf : (lampControlForceInactive m).1 = .ok) :
    Off (lampControlForceInactive m).2.hal.channels ∧
      (lampControlForceInactive m).2.lamp.failOffBarrier = true ∧
      (lampControlForceInactive m).2.lamp.initialized = true := by
  rcases lampControlForceInactive_cases m with ⟨-, e⟩ | ⟨-, hs, e⟩ | ⟨hi, hs, e⟩
  · rw [e] at hf; cases hf
  · rw [e] at hf; exact absurd hf hs
  · rw [e]
    exact ⟨lampFailOff_off ht hs, rfl, (lampFailOff_pins m).2.1.trans hi⟩

/-- The barrier. Take any reachable state, under any fault pattern, and a
force-inactive there that returns `LAMP_OK`. In every state reached from it by
operations that do not lift the barrier, every pin is off, it was off at every
moment in between (after every single HAL call), and while the lamp is
initialized every apply is rejected. -/
theorem barrier_holds {m : Machine} (hr : Reachable m) (hf : (lampControlForceInactive m).1 = .ok)
    {m' : Machine} (hh : Held (lampControlForceInactive m).2 m') :
    Off m'.hal.channels ∧
    (∃ since, m'.hal.moments = since ++ (lampControlForceInactive m).2.hal.moments ∧ ∀ c ∈ since, Off c) ∧
    (m'.lamp.initialized = true → ∀ requested out,
      (lampControlApplyState requested out m').1 = .errBlockedByFailOff ∨
        (lampControlApplyState requested out m').1 = .errFailOff) := by
  obtain ⟨h0, hb, -⟩ := forceInactive_ok (reachable_tracked hr) hf
  obtain ⟨hq, hb'⟩ := held_latched hh hb
  refine ⟨hq.channels.off h0, ?_, fun hi requested out => latched_rejects hb' hi requested out⟩
  obtain ⟨since, e, hsince⟩ := hq.moments
  exact ⟨since, e, fun c hc => (hsince c hc).off h0⟩

/-- One channel on pin 4, lit, then forced inactive by a HAL whose first
force-inactive fails and whose retry succeeds, then asked to light again. -/
theorem barrier_holds_lit :
    let glitch : Nat → HalStatus := fun n => if n = 3 then .errInvalidPin else .ok
    let lit := run [.init (some ⟨some 4, (none, none, none), 1, 5000, .activeHigh⟩),
      .applyState (some ⟨true, 100, 255, 255, 255⟩) none] (.boot glitch)
    lit.hal.channels.duty 4 = 10000 ∧
    Off ((Call.applyState (some ⟨true, 80, 255, 255, 255⟩) none).next (lampControlForceInactive lit).2).hal.channels := by
  intro glitch lit
  have hr : Reachable lit := reachable_run (.boot glitch) _
  refine ⟨by decide, (barrier_holds hr (by decide) (.call _ .refl ?_)).1⟩
  rintro (h | ⟨config, h, -⟩) <;> cases h

end LedLamp.Lamp
