import LedLamp.Lamp.Resources
/-!
# What a failed init leaves behind

An init clears the fail-off barrier and marks the lamp initialized before the
post-init hold. When the hold fails the barrier stays cleared, and when a
deinit of the release fails too the lamp stays initialized: the next apply
drives it (`LeavesOpen`). `run_shuts` says that after every other failed init
the lamp is shut until an init succeeds, with the barrier it had before.
-/

namespace LedLamp.Lamp

open LampControlConfig

/-! ## The hold and its release, call by call -/

/-- The call after a fail-off of `channels` channels that starts at call `n`. -/
def failOffEnd (outcome : Nat → HalStatus) : (channels : Nat) → (n : Nat) → Nat
  | 0, n => n
  | channels + 1, n => failOffEnd outcome channels (n + forceCalls outcome n)

/-- The init brings every channel up, and the hold fails at channel `k`. -/
def HoldFails (config : LampControlConfig) (h : Hal) (k : Nat) : Prop :=
  k < config.channels ∧
    (∀ i < config.channels, config.channelPin i ≠ none ∧ h.outcome (h.calls + i) = .ok) ∧
    (∀ i < k, h.outcome (h.calls + config.channels + i) = .ok) ∧ h.outcome (h.calls + config.channels + k) ≠ .ok

/-- After the hold failed at channel `k` and the fail-off ran, some channel's
deinit fails. -/
def ReleaseFails (config : LampControlConfig) (h : Hal) (k : Nat) : Prop :=
  ∃ j < config.channels,
    h.outcome (failOffEnd h.outcome config.channels (h.calls + config.channels + k + 1) + j) ≠ .ok

/-- The step that leaves the lamp open: an init whose hold fails, on a lamp whose
barrier was latched, or with a release that fails too. -/
def LeavesOpen (c : Call) (m : Machine) : Prop :=
  ∃ config k, c = .init (some config) ∧ m.lamp.initialized = false ∧ config.Accepted ∧ HoldFails config m.hal k ∧
    (m.lamp.failOffBarrier = true ∨ ReleaseFails config m.hal k)

theorem holdChannels_cases (pins : List Pin) (h : Hal) :
    let r := holdChannels pins h
    r.1 = .ok ∨
    r.1 ≠ .ok ∧ r.2.outcome = h.outcome ∧ ∃ k < pins.length, (∀ i < k, h.outcome (h.calls + i) = .ok) ∧
      h.outcome (h.calls + k) ≠ .ok ∧ r.2.calls = h.calls + k + 1 := by
  induction pins generalizing h with
  | nil => exact .inl rfl
  | cons p pins ih =>
    by_cases hs : h.outcome h.calls = .ok
    · have hd : (halPwmForceInactive p h).1 = .ok := hs
      simp only [holdChannels, hd, ne_eq, not_true_eq_false, if_false]
      rcases ih (halPwmForceInactive p h).2 with hok | ⟨hne, ho, k, hk, hbefore, hstop, hcalls⟩
      · exact .inl hok
      · have hn : (halPwmForceInactive p h).2.calls = h.calls + 1 := rfl
        rw [hn] at hbefore hstop hcalls
        refine .inr ⟨hne, ho, k + 1, by simpa using hk, fun i hi => ?_, ?_, by rw [hcalls]; omega⟩
        · cases i with
          | zero => exact hs
          | succ i => rw [show h.calls + (i + 1) = h.calls + 1 + i by omega]; exact hbefore i (by omega)
        · rw [show h.calls + (k + 1) = h.calls + 1 + k by omega]; exact hstop
    · have hd : (halPwmForceInactive p h).1 ≠ .ok := hs
      simp only [holdChannels, if_pos hd]
      exact .inr ⟨hd, rfl, 0, by simp, by simp, hs, rfl⟩

theorem failOffChannels_calls (pins : List Pin) (h : Hal) :
    (failOffChannels pins h).2.calls = failOffEnd h.outcome pins.length h.calls := by
  induction pins generalizing h with
  | nil => rfl
  | cons p pins ih =>
    have ho : (forceChannelOff p h).2.outcome = h.outcome := (forceChannelOff_quiet p h).outcome
    rw [show (failOffChannels (p :: pins) h).2 = (failOffChannels pins (forceChannelOff p h).2).2 from rfl, ih, ho,
      forceChannelOff_calls]
    rfl

theorem releaseChannels_status (pins : List Pin) (h : Hal) :
    (releaseChannels pins h).1 = .ok ↔ ∀ j < pins.length, h.outcome (h.calls + j) = .ok := by
  induction pins generalizing h with
  | nil => simp [releaseChannels]
  | cons p pins ih =>
    by_cases hs : h.outcome h.calls = .ok
    · have hd : (halPwmDeinit p h).1 = .ok := hs
      simp only [releaseChannels, hd, ne_eq, not_true_eq_false, if_false]
      rw [ih]
      constructor
      · intro hall j hj
        cases j with
        | zero => exact hs
        | succ j =>
          rw [show h.calls + (j + 1) = h.calls + 1 + j by omega]
          exact hall j (by simpa using hj)
      · intro hall j hj
        have := hall (j + 1) (by simpa using hj)
        rwa [show h.calls + (j + 1) = h.calls + 1 + j by omega] at this
    · have hd : (halPwmDeinit p h).1 ≠ .ok := hs
      simp only [releaseChannels, if_pos hd]
      exact iff_of_false hd fun hall => hs (hall 0 (by simp))

/-! ## One failed init -/

/-- A failed init on an uninitialized lamp leaves it uninitialized, with the
barrier it had, if and only if it is not one that leaves the lamp open. -/
theorem failed_init_shut {m : Machine} (hi : m.lamp.initialized = false) (config : Option LampControlConfig)
    (hf : (lampControlInit config m).1 ≠ .ok) :
    ((lampControlInit config m).2.lamp.initialized = false ∧
      (lampControlInit config m).2.lamp.failOffBarrier = m.lamp.failOffBarrier) ↔
    ¬ LeavesOpen (.init config) m := by
  rcases lampControlInit_paths config m with ⟨status, -, e, hna⟩ | ⟨c, up, rfl, -, ha, hu, hpath⟩
  · rw [e]
    refine iff_of_true ⟨hi, rfl⟩ ?_
    rintro ⟨c, k, hc, -, ha, -⟩
    exact hna c (Call.init.inj hc) hi ha
  · -- Before the hold, not every channel is up.
    have stopped : (c.channelPin up.length = none ∨ m.hal.outcome (m.hal.calls + up.length) ≠ .ok) →
        up.length < c.channels → ¬ LeavesOpen (.init (some c)) m := by
      rintro hstop hlt ⟨c', k, hc, -, -, ⟨-, hall, -⟩, -⟩
      cases hc
      exact hstop.elim (hall _ hlt).1 fun hs => hs (hall _ hlt).2
    rcases hpath with ⟨hlen, hnone, e⟩ | ⟨pin, hlen, -, hs, e⟩ | ⟨-, -, e⟩ | ⟨hlen, hh, e⟩
    · rw [e]
      exact iff_of_true ⟨hi, rfl⟩ (stopped (.inl hnone) hlen)
    · rw [e]
      exact iff_of_true ⟨hi, rfl⟩ (stopped (.inr hs) hlen)
    · rw [e] at hf; exact absurd rfl hf
    · rcases holdChannels_cases up (c.bringUp up m.hal) with hok | ⟨-, ho, k, hk, hbefore, hstop, hcalls⟩
      · exact absurd hok hh
      rw [bringUp_outcome, bringUp_calls, hlen] at hbefore hstop
      rw [bringUp_outcome] at ho
      rw [bringUp_calls, hlen] at hcalls
      rw [hlen] at hk
      generalize hhal : (holdChannels up (c.bringUp up m.hal)).2 = hal at *
      have holds : HoldFails c m.hal k :=
        ⟨hk, fun i hlt => ⟨hu.pin_ne_none (hlen ▸ hlt), hu.ok i (hlen ▸ hlt)⟩, hbefore, hstop⟩
      -- The release runs right after the fail-off over the same channels.
      have hoff : (lampFailOff ⟨.fresh up, hal⟩).2.hal = (failOffChannels up hal).2 := by
        rcases lampFailOff_cases ⟨.fresh up, hal⟩ with e | ⟨e, -⟩ <;> rw [e] <;> rfl
      have released : (lampReleaseChannels (lampFailOff ⟨.fresh up, hal⟩).2).1 = .ok ↔ ¬ ReleaseFails c m.hal k := by
        rw [show (lampReleaseChannels (lampFailOff ⟨.fresh up, hal⟩).2).1 =
            (releaseChannels (lampFailOff ⟨.fresh up, hal⟩).2.lamp.pins (lampFailOff ⟨.fresh up, hal⟩).2.hal).1 from rfl,
          (lampFailOff_pins _).1, hoff, releaseChannels_status, (failOffChannels_quiet up hal).outcome,
          failOffChannels_calls, ho, hcalls, show (LampControlState.fresh up).pins = up from rfl, hlen]
        simp [ReleaseFails]
      have opened : LeavesOpen (.init (some c)) m ↔ m.lamp.failOffBarrier = true ∨ ReleaseFails c m.hal k := by
        constructor
        · rintro ⟨c', k', hc, -, -, ⟨hk', -, hbefore', hstop'⟩, hopen⟩
          cases hc
          obtain rfl := stop_unique hbefore hstop hbefore' hstop'
          exact hopen
        · exact fun hopen => ⟨c, k, rfl, hi, ha, holds, hopen⟩
      obtain ⟨-, hi', hb'⟩ := lampFailOff_pins ⟨.fresh up, hal⟩
      rw [e, opened, not_or, ← released, Bool.not_eq_true]
      dsimp only
      split
      · rename_i hrel
        simp only [hrel, and_true]
        exact ⟨fun h => h.2.symm.trans hb', fun h => ⟨rfl, hb'.trans h.symm⟩⟩
      · rename_i hrel
        refine iff_of_false (fun h => ?_) fun h => hrel h.2
        have : (lampReleaseChannels (lampFailOff ⟨.fresh up, hal⟩).2).2.lamp.initialized = true := hi'
        rw [h.1] at this
        cases this

/-! ## Runs -/

/-- No init among `later`, started at `m`, returns `LAMP_OK`. -/
def NoInit (later : List Call) (m : Machine) : Prop :=
  ∀ before config, before ++ [.init config] <+: later → (lampControlInit config (run before m)).1 ≠ .ok

/-- What a failed init should mean, at each init of a run that fails: the barrier
stays as it was, and, on a lamp that was not initialized, an apply is refused
without a HAL call or a change until an init succeeds. -/
def Shuts (calls : List Call) (m : Machine) : Prop :=
  ∀ before config later, before ++ .init config :: later <+: calls →
    (lampControlInit config (run before m)).1 ≠ .ok →
    let failed := (lampControlInit config (run before m)).2
    failed.lamp.failOffBarrier = (run before m).lamp.failOffBarrier ∧
      ((run before m).lamp.initialized = false → NoInit later failed → ∀ requested out,
        (lampControlApplyState requested out (run later failed)).1 ≠ .ok ∧
          (lampControlApplyState requested out (run later failed)).2.2 = run later failed)

/-- A lamp that is not initialized stays so until an init succeeds or leaves it open. -/
theorem uninitialized_step {m : Machine} (hi : m.lamp.initialized = false) (c : Call)
    (hf : ∀ config, c = .init config → (lampControlInit config m).1 ≠ .ok) (hc : ¬ LeavesOpen c m) :
    (c.next m).lamp.initialized = false := by
  cases c with
  | init config => exact ((failed_init_shut hi config (hf config rfl)).2 hc).1
  | applyState requested out => simp [Call.next, Call.exec, lampControlApplyState, hi]
  | forceInactive => simp [Call.next, Call.exec, lampControlForceInactive, lampControlForceInactiveLocked, hi]
  | releaseFailOff => exact hi
  | deinit => simp [Call.next, Call.exec, lampControlDeinit, lampControlDeinitLocked, hi]
  | getAppliedState out => exact hi

theorem uninitialized_run {m : Machine} (hi : m.lamp.initialized = false) (later : List Call) (hn : NoInit later m)
    (hc : ∀ before c, before ++ [c] <+: later → ¬ LeavesOpen c (run before m)) :
    (run later m).lamp.initialized = false := by
  induction later using List.reverseRecOn with
  | nil => exact hi
  | append_singleton later c ih =>
    have hp : later <+: later ++ [c] := List.prefix_append later [c]
    have hi' := ih (fun before config h => hn before config (h.trans hp)) fun before c h => hc before c (h.trans hp)
    rw [run_append]
    refine uninitialized_step hi' c ?_ (hc later c (List.prefix_refl _))
    rintro config rfl
    exact hn later config (List.prefix_refl _)

/-- Whatever HAL calls fail, in a run no init of which leaves the lamp open, every
failed init shuts the lamp until an init succeeds and keeps the barrier. -/
theorem run_shuts (outcome : Nat → HalStatus) (calls : List Call)
    (hc : ∀ before c, before ++ [c] <+: calls → ¬ LeavesOpen c (run before (.boot outcome))) :
    Shuts calls (.boot outcome) := by
  intro before config later hp hf
  have hstep : ¬ LeavesOpen (.init config) (run before (.boot outcome)) :=
    hc before _ ((List.prefix_append_right_inj before).2 (by simp) |>.trans hp)
  have hlater : ∀ before' c, before' ++ [c] <+: later →
      ¬ LeavesOpen c (run before' (lampControlInit config (run before (.boot outcome))).2) := by
    intro before' c h
    have := hc (before ++ .init config :: before') c (by
      rw [List.append_assoc]
      exact ((List.prefix_append_right_inj before).2 (List.cons_prefix_cons.2 ⟨rfl, h⟩)).trans hp)
    rwa [run_append] at this
  cases hi : (run before (.boot outcome)).lamp.initialized with
  | true => exact ⟨by rw [lampControlInit_initialized config hi], fun h => absurd h (by simp)⟩
  | false =>
    obtain ⟨hi', hb⟩ := (failed_init_shut hi config hf).2 hstep
    refine ⟨hb, fun _ hn requested out => ?_⟩
    have hr := uninitialized_run hi' later hn hlater
    simp [lampControlApplyState, hr]

/-- The HAL refuses pin 4 once: the lamp stays shut after that init. -/
theorem run_shuts_refused :
    let glitch : Nat → HalStatus := fun n => if n = 0 then .errNoResource else .ok
    let config : LampControlConfig := ⟨some 4, (none, none, none), 1, 5000, .activeHigh⟩
    (lampControlInit (some config) (.boot glitch)).1 = .errNoResource ∧
      Shuts [.init (some config)] (.boot glitch) := by
  intro glitch config
  refine ⟨by decide, run_shuts glitch _ fun before c hp => ?_⟩
  obtain ⟨rfl, rfl⟩ := prefix_singleton hp
  rintro ⟨config', k, e, -, -, ⟨hk, hup, -⟩, -⟩
  obtain rfl := Option.some.inj (Call.init.inj e)
  exact absurd (hup 0 (by decide)).2 (by decide)

/-- The lamp was forced inactive and released. The hold of its next init fails and
then the deinit: the init reports an error, and the next apply lights the lamp. -/
theorem failed_init_lights :
    let glitch : Nat → HalStatus := fun n => if n = 5 ∨ n = 7 then .other 1 else .ok
    let config : LampControlConfig := ⟨some 4, (none, none, none), 1, 5000, .activeHigh⟩
    let released : List Call := [.init (some config), .forceInactive, .deinit]
    let failed := lampControlInit (some config) (run released (.boot glitch))
    let lit := lampControlApplyState (some ⟨true, 100, 255, 255, 255⟩) none failed.2
    failed.1 = .errInternal ∧ lit.1 = .ok ∧ lit.2.2.hal.channels.duty 4 = 10000 ∧
      ¬ Shuts (released ++ [.init (some config)]) (.boot glitch) := by
  intro glitch config released failed lit
  refine ⟨by decide, by decide, by decide, fun h => ?_⟩
  obtain ⟨hb, -⟩ := h released (some config) [] (List.prefix_refl _) (by decide)
  exact absurd hb (by decide)

end LedLamp.Lamp
