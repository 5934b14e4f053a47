import LedLamp.Lamp.Control
/-!
# What each lamp operation does to the channels

Every HAL call but a non-zero `hal_pwm_set_duty` can only turn a channel off
(`Quiet`). So every operation is quiet except the apply loop, and a fail-off
that reports success leaves each channel it was given off (`failOffChannels_off`).
`Tracked` is the invariant behind the safety theorems: an energized pin is one
the lamp still tracks.
-/

namespace LedLamp.Lamp

/-! ## Quiet HAL calls -/

/-- `d` generates nothing that `c` did not: each pin keeps its duty or is off. -/
def Below (d c : Channels) : Prop := ∀ pin, d.duty pin = c.duty pin ∨ d.duty pin = 0

theorem Below.refl (c : Channels) : Below c c := fun _ => .inl rfl

theorem Below.trans {c d e : Channels} (h : Below e d) (h' : Below d c) : Below e c := by
  intro pin
  rcases h pin with he | he
  · rcases h' pin with hd | hd
    · exact .inl (he.trans hd)
    · exact .inr (he.trans hd)
  · exact .inr he

/-- Calls that lead from `h` to `h'` turn channels off at most, at each moment
between two calls too. -/
structure Quiet (h h' : Hal) : Prop where
  outcome : h'.outcome = h.outcome
  channels : Below h'.channels h.channels
  moments : ∃ new, h'.moments = new ++ h.moments ∧ ∀ c ∈ new, Below c h.channels

namespace Quiet

theorem refl (h : Hal) : Quiet h h := ⟨rfl, .refl _, [], rfl, by simp⟩

theorem trans {h₁ h₂ h₃ : Hal} (a : Quiet h₁ h₂) (b : Quiet h₂ h₃) : Quiet h₁ h₃ := by
  obtain ⟨new₁, e₁, hnew₁⟩ := a.moments
  obtain ⟨new₂, e₂, hnew₂⟩ := b.moments
  refine ⟨b.outcome.trans a.outcome, b.channels.trans a.channels, new₂ ++ new₁, ?_, ?_⟩
  · rw [e₂, e₁, List.append_assoc]
  · intro c hc
    rcases List.mem_append.1 hc with hc | hc
    · exact (hnew₂ c hc).trans a.channels
    · exact hnew₁ c hc

theorem call {effect : Channels → Channels} (he : ∀ c, Below (effect c) c) (h : Hal) :
    Quiet h (h.call effect).2 := by
  have hb : Below (h.call effect).2.channels h.channels := by
    simp only [Hal.call]
    split
    · exact he _
    · exact .refl _
  exact ⟨rfl, hb, [(h.call effect).2.channels], rfl, by simpa using hb⟩

end Quiet

theorem below_update (c : Channels) (pin : Pin) (live : Pin → Bool) :
    Below ⟨Function.update c.duty pin 0, live⟩ c := by
  intro q
  by_cases hq : q = pin
  · exact .inr (by simp [hq])
  · exact .inl (by simp [hq])

theorem halPwmInit_quiet (config : HalPwmConfig) (h : Hal) : Quiet h (halPwmInit config h).2 :=
  .call (fun c => below_update c _ _) h

theorem halPwmForceInactive_quiet (pin : Pin) (h : Hal) : Quiet h (halPwmForceInactive pin h).2 :=
  .call (fun c => below_update c _ _) h

theorem halPwmSetDuty_zero_quiet (pin : Pin) (h : Hal) : Quiet h (halPwmSetDuty pin LAMP_DUTY_MIN h).2 :=
  .call (fun c => below_update c _ _) h

theorem halPwmDeinit_quiet (pin : Pin) (h : Hal) : Quiet h (halPwmDeinit pin h).2 :=
  .call (fun c => below_update c _ _) h

/-- A quiet step keeps an off pin off. -/
theorem Quiet.off {h h' : Hal} (q : Quiet h h') {pin : Pin} (h0 : h.channels.duty pin = 0) :
    h'.channels.duty pin = 0 := by
  rcases q.channels pin with e | e
  · exact e.trans h0
  · exact e

/-- A successful call takes effect. -/
theorem Hal.call_ok {effect : Channels → Channels} {h : Hal} (hs : (h.call effect).1 = .ok) :
    (h.call effect).2.channels = effect h.channels := by
  simp only [Hal.call] at hs ⊢
  rw [if_pos hs]

/-- A failing call leaves every channel as it was. -/
theorem Hal.call_fail {effect : Channels → Channels} {h : Hal} (hs : (h.call effect).1 ≠ .ok) :
    (h.call effect).2.channels = h.channels := by
  simp only [Hal.call] at hs ⊢
  rw [if_neg hs]

/-! ## Fail-off -/

theorem forceChannelOff_quiet (pin : Pin) (h : Hal) : Quiet h (forceChannelOff pin h).2 := by
  have h1 := halPwmForceInactive_quiet pin h
  have h2 := halPwmForceInactive_quiet pin (halPwmForceInactive pin h).2
  simp only [forceChannelOff]
  split
  · split
    · exact (h1.trans h2).trans (halPwmSetDuty_zero_quiet pin _)
    · exact h1.trans h2
  · exact h1

theorem forceChannelOff_off {pin : Pin} {h : Hal} (hs : (forceChannelOff pin h).1 = .ok) :
    (forceChannelOff pin h).2.channels.duty pin = 0 := by
  have forced : ∀ h : Hal, (halPwmForceInactive pin h).1 = .ok →
      (halPwmForceInactive pin h).2.channels.duty pin = 0 := fun h e => by
    rw [show (halPwmForceInactive pin h).2.channels = _ from Hal.call_ok e]
    simp
  have zeroed : ∀ h : Hal, (halPwmSetDuty pin LAMP_DUTY_MIN h).1 = .ok →
      (halPwmSetDuty pin LAMP_DUTY_MIN h).2.channels.duty pin = 0 := fun h e => by
    rw [show (halPwmSetDuty pin LAMP_DUTY_MIN h).2.channels = _ from Hal.call_ok e]
    simp [LAMP_DUTY_MIN]
  simp only [forceChannelOff] at hs ⊢
  split at hs
  · split at hs
    · rename_i h1 h2
      simp only [h1, not_false_eq_true, if_true, h2, ne_eq]
      exact zeroed _ hs
    · rename_i h1 h2
      simp only [h1, not_false_eq_true, if_true, h2, ne_eq, if_false]
      exact forced _ hs
  · rename_i h1
    simp only [h1, if_false] at hs ⊢
    exact forced _ (by simpa using h1)

theorem failOffChannels_quiet (pins : List Pin) (h : Hal) : Quiet h (failOffChannels pins h).2 := by
  induction pins generalizing h with
  | nil => exact .refl _
  | cons pin pins ih => exact (forceChannelOff_quiet pin h).trans (ih _)

/-- A fail-off that reports success turned every channel it was given off. -/
theorem failOffChannels_off {pins : List Pin} {h : Hal} (hs : (failOffChannels pins h).1 = true) :
    ∀ pin ∈ pins, (failOffChannels pins h).2.channels.duty pin = 0 := by
  induction pins generalizing h with
  | nil => simp
  | cons pin pins ih =>
    simp only [failOffChannels, Bool.and_eq_true, decide_eq_true_eq] at hs
    intro p hp
    rcases List.mem_cons.1 hp with rfl | hp
    · exact (failOffChannels_quiet pins _).off (forceChannelOff_off hs.1)
    · exact ih hs.2 p hp

/-- What `lamp_fail_off` leaves behind: only the flag can change, and it drops
only when every tracked channel is proven off. -/
theorem lampFailOff_cases (m : Machine) :
    (lampFailOff m = (.errFailOff, { m with hal := (failOffChannels m.lamp.pins m.hal).2 })) ∨
    (lampFailOff m = (.ok, { lamp := { m.lamp with applied.outputActive := false },
                             hal := (failOffChannels m.lamp.pins m.hal).2 }) ∧
      ∀ pin ∈ m.lamp.pins, (failOffChannels m.lamp.pins m.hal).2.channels.duty pin = 0) := by
  cases hs : (failOffChannels m.lamp.pins m.hal).1 with
  | false => exact .inl (by simp [lampFailOff, hs])
  | true => exact .inr ⟨by simp [lampFailOff, hs], failOffChannels_off hs⟩

theorem lampFailOff_quiet (m : Machine) : Quiet m.hal (lampFailOff m).2.hal := by
  rcases lampFailOff_cases m with e | ⟨e, -⟩ <;> rw [e] <;> exact failOffChannels_quiet _ _

theorem failOffThen_snd (status : LampStatus) (m : Machine) : (failOffThen status m).2 = (lampFailOff m).2 := rfl

/-- What is rejected stays rejected. -/
theorem failOffThen_ne_ok {status : LampStatus} (hs : status ≠ .ok) (m : Machine) : (failOffThen status m).1 ≠ .ok := by
  unfold failOffThen
  dsimp only
  split
  · exact fun h => by cases h
  · exact hs

/-! ## Release and init -/

theorem releaseChannels_quiet (pins : List Pin) (h : Hal) : Quiet h (releaseChannels pins h).2.2 := by
  induction pins generalizing h with
  | nil => exact .refl _
  | cons pin pins ih =>
    simp only [releaseChannels]
    split <;> exact (halPwmDeinit_quiet pin h).trans (ih _)

/-- A channel that is not kept was released, so it is off. -/
theorem releaseChannels_off (pins : List Pin) (h : Hal) :
    ∀ pin ∈ pins, pin ∉ (releaseChannels pins h).2.1 → (releaseChannels pins h).2.2.channels.duty pin = 0 := by
  induction pins generalizing h with
  | nil => simp
  | cons p pins ih =>
    intro pin hpin hk
    simp only [releaseChannels] at hk ⊢
    split at hk
    · rename_i hs
      simp only [hs, if_true, ne_eq, not_false_eq_true] at hk ⊢
      simp only [List.mem_cons, not_or] at hk
      rcases List.mem_cons.1 hpin with rfl | hpin
      · exact absurd rfl hk.1
      · exact ih _ pin hpin hk.2
    · rename_i hs
      simp only [hs, if_false] at hk ⊢
      rcases List.mem_cons.1 hpin with rfl | hpin
      · have hok : (halPwmDeinit pin h).1 = .ok := by simpa using hs
        refine (releaseChannels_quiet pins _).off ?_
        rw [show (halPwmDeinit pin h).2.channels = _ from Hal.call_ok hok]
        simp
      · exact ih _ pin hpin hk

/-- No error means that nothing is kept. -/
theorem releaseChannels_ok {pins : List Pin} {h : Hal} (hs : (releaseChannels pins h).1 = .ok) :
    (releaseChannels pins h).2.1 = [] := by
  induction pins generalizing h with
  | nil => rfl
  | cons p pins ih =>
    simp only [releaseChannels] at hs ⊢
    split at hs
    · rename_i h1; exact absurd hs h1
    · rename_i h1
      simp only [h1, if_false]
      exact ih hs

theorem rollbackChannels_quiet (pins : List Pin) (h : Hal) : Quiet h (rollbackChannels pins h) := by
  induction pins generalizing h with
  | nil => exact .refl _
  | cons pin pins ih => exact (halPwmDeinit_quiet pin h).trans (ih _)

theorem initChannels_quiet (config : LampControlConfig) (n : Nat) (todo : List Nat) (done : List Pin) (h : Hal) :
    Quiet h (initChannels config n todo done h).2 := by
  induction todo generalizing done h with
  | nil => exact .refl _
  | cons index rest ih =>
    simp only [initChannels]
    cases configPin config n index with
    | none => exact .refl _
    | some pin =>
      dsimp only
      split
      · exact (halPwmInit_quiet _ h).trans (rollbackChannels_quiet done _)
      · exact (halPwmInit_quiet _ h).trans (ih _ _)

theorem lampMapHalStatus_ne_ok {hs : HalStatus} (h : hs ≠ .ok) : lampMapHalStatus hs ≠ .ok := by
  cases hs <;> simp [lampMapHalStatus] at h ⊢

theorem initChannels_error {config : LampControlConfig} {n : Nat} {todo : List Nat} {done : List Pin}
    {h hal : Hal} {status : LampStatus} (hr : initChannels config n todo done h = (.error status, hal)) :
    status ≠ .ok := by
  induction todo generalizing done h with
  | nil => simp [initChannels] at hr
  | cons index rest ih =>
    simp only [initChannels] at hr
    cases hp : configPin config n index with
    | none =>
      simp only [hp, Prod.mk.injEq, Except.error.injEq] at hr
      simp [← hr.1]
    | some pin =>
      simp only [hp] at hr
      split at hr
      · rename_i hs
        simp only [Prod.mk.injEq, Except.error.injEq] at hr
        rw [← hr.1]
        exact lampMapHalStatus_ne_ok hs
      · exact ih hr

theorem holdChannels_quiet (pins : List Pin) (h : Hal) : Quiet h (holdChannels pins h).2 := by
  induction pins generalizing h with
  | nil => exact .refl _
  | cons pin pins ih =>
    simp only [holdChannels]
    split
    · exact halPwmForceInactive_quiet pin h
    · exact (halPwmForceInactive_quiet pin h).trans (ih _)

theorem lampReleaseChannels_quiet (m : Machine) : Quiet m.hal (lampReleaseChannels m).2.hal :=
  releaseChannels_quiet _ _

/-- An init on an initialized lamp is refused and changes nothing. -/
theorem lampControlInit_initialized (config : Option LampControlConfig) {m : Machine}
    (hi : m.lamp.initialized = true) : (lampControlInit config m).2 = m := by
  cases config <;> simp [lampControlInit, lampControlInitLocked, hi]

/-- What an init can do: nothing to the lamp but HAL calls, or set it up with
fresh pins, or (the hold failed) fail off and release those pins again. -/
theorem lampControlInit_cases (config : Option LampControlConfig) (m : Machine) :
    (∃ status hal, lampControlInit config m = (status, { m with hal }) ∧ status ≠ .ok ∧ Quiet m.hal hal) ∨
    (m.lamp.initialized = false ∧ ∃ pins hal, Quiet m.hal hal ∧
      (lampControlInit config m = (.ok, { lamp := .fresh pins, hal }) ∨
       ∃ hs, hs ≠ HalStatus.ok ∧
        let m' := (lampReleaseChannels (lampFailOff { lamp := .fresh pins, hal }).2).2
        lampControlInit config m = (lampMapHalStatus hs,
          if (lampReleaseChannels (lampFailOff { lamp := .fresh pins, hal }).2).1 = .ok
          then lampResetReleasedState m' else m'))) := by
  have refused : ∀ status : LampStatus, status ≠ .ok →
      ∃ st hal, (status, m) = (st, { m with hal }) ∧ st ≠ .ok ∧ Quiet m.hal hal :=
    fun status hne => ⟨status, m.hal, rfl, hne, .refl _⟩
  simp only [lampControlInit, lampControlInitLocked]
  cases config with
  | none => exact .inl (refused _ (by simp))
  | some config =>
    dsimp only
    split
    · exact .inl (refused _ (by simp))
    · rename_i hi
      have hi : m.lamp.initialized = false := by simpa using hi
      generalize (if config.channelCount = LAMP_CONTROL_MAX_CHANNELS then 3 else 1) = n
      split
      · exact .inl (refused _ (by simp))
      split
      · exact .inl (refused _ (by simp))
      split
      · exact .inl (refused _ (by simp))
      have hq := initChannels_quiet config n (List.range n) [] m.hal
      cases hr : initChannels config n (List.range n) [] m.hal with
      | mk result hal =>
        rw [hr] at hq
        cases result with
        | error status => exact .inl ⟨status, hal, rfl, initChannels_error hr, hq⟩
        | ok pins =>
          right
          refine ⟨hi, pins, (holdChannels pins hal).2, hq.trans (holdChannels_quiet pins hal), ?_⟩
          dsimp only
          split
          · exact .inr ⟨_, ‹_›, rfl⟩
          · exact .inl rfl

/-! ## Apply -/

/-- A set of channels drives no pin outside the list. -/
theorem driveChannels_other (requested : LampState) (n index : Nat) (pins : List Pin) (h : Hal) {pin : Pin}
    (hp : pin ∉ pins) : (driveChannels requested n index pins h).2.channels.duty pin = h.channels.duty pin := by
  induction pins generalizing index h with
  | nil => rfl
  | cons p pins ih =>
    simp only [List.mem_cons, not_or] at hp
    have h1 : (halPwmSetDuty p (channelDuty requested n index) h).2.channels.duty pin = h.channels.duty pin := by
      by_cases hs : (halPwmSetDuty p (channelDuty requested n index) h).1 = .ok
      · rw [show (halPwmSetDuty p (channelDuty requested n index) h).2.channels = _ from Hal.call_ok hs]
        simp [hp.1]
      · rw [show (halPwmSetDuty p (channelDuty requested n index) h).2.channels = _ from Hal.call_fail hs]
    simp only [driveChannels]
    split
    · exact h1
    · rw [ih _ _ hp.2, h1]

/-- The apply loop over every channel of the lamp. -/
abbrev Machine.drive (m : Machine) (requested : LampState) : HalStatus × Hal :=
  driveChannels requested m.lamp.pins.length 0 m.lamp.pins m.hal

/-- What an apply can do: refuse an uninitialized lamp, refuse the request and
fail off, fail off after the loop stopped at some channel, or drive every
channel and record the state. -/
theorem lampControlApplyState_cases (requested : Option LampState) (out : Option LampAppliedState) (m : Machine) :
    (m.lamp.initialized = false ∧ lampControlApplyState requested out m = (.errNotInitialized, out, m)) ∨
    (m.lamp.initialized = true ∧ ∃ status, status ≠ .ok ∧
      (∀ r, requested = some r → m.lamp.failOffBarrier = false → lampStateIsValid r = false) ∧
      lampControlApplyState requested out m = ((failOffThen status m).1, out, (failOffThen status m).2)) ∨
    (m.lamp.initialized = true ∧ m.lamp.failOffBarrier = false ∧ ∃ r, requested = some r ∧
      lampStateIsValid r = true ∧ (m.drive r).1 ≠ .ok ∧ ∃ status, status ≠ .ok ∧
      lampControlApplyState requested out m =
        ((failOffThen status { m with hal := (m.drive r).2 }).1, out,
          (failOffThen status { m with hal := (m.drive r).2 }).2)) ∨
    (m.lamp.initialized = true ∧ m.lamp.failOffBarrier = false ∧ ∃ r, requested = some r ∧
      lampStateIsValid r = true ∧ (m.drive r).1 = .ok ∧
      lampControlApplyState requested out m =
        (.ok, out.map fun _ => appliedOf r m.lamp.pins.length,
          { lamp := { m.lamp with applied := appliedOf r m.lamp.pins.length }, hal := (m.drive r).2 })) := by
  cases hi : m.lamp.initialized with
  | false => exact .inl ⟨rfl, by simp [lampControlApplyState, hi]⟩
  | true =>
    right
    -- The barrier is looked at before the request is.
    cases hb : m.lamp.failOffBarrier with
    | true =>
      left
      exact ⟨rfl, .errBlockedByFailOff, by simp, by simp, by simp [lampControlApplyState, hi, hb]⟩
    | false =>
      cases requested with
      | none =>
        left
        exact ⟨rfl, .errInvalidArgument, by simp, by simp,
          by simp [lampControlApplyState, lampControlApplyStateLocked, hi, hb]⟩
      | some r =>
        cases hv : lampStateIsValid r with
        | false =>
          left
          exact ⟨rfl, .errOutOfRange, by simp, by simp [hv],
            by simp [lampControlApplyState, lampControlApplyStateLocked, hi, hb, hv]⟩
        | true =>
          right
          by_cases hs : (m.drive r).1 = .ok
          · exact .inr ⟨rfl, rfl, r, rfl, hv, hs,
              by simp [lampControlApplyState, lampControlApplyStateLocked, hi, hb, hv, hs]⟩
          · exact .inl ⟨rfl, rfl, r, rfl, hv, hs, lampMapHalStatus (m.drive r).1, lampMapHalStatus_ne_ok hs,
              by simp [lampControlApplyState, lampControlApplyStateLocked, hi, hb, hv, hs]⟩

end LedLamp.Lamp
