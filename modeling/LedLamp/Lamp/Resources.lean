import LedLamp.Lamp.Truthful
/-!
# Which PWM channels the lamp owns

A channel the lamp has initialized and not deinitialized should be one it
tracks, or no later operation can release it (`Owned`). The paths that release
channels keep those whose deinit fails, so they keep `Owned`. The init loop
does not: it returns at a missing pin without deinitializing the channels
before it, and its rollback forgets a channel whose deinit fails (`Leaks`).
`run_owned` says that nothing else breaks `Owned`.
-/

namespace LedLamp.Lamp

/-- The live channels are the tracked pins of an initialized lamp, each once. -/
structure Owned (m : Machine) : Prop where
  tracked : ∀ pin, m.hal.channels.live pin = true ↔ m.lamp.initialized = true ∧ pin ∈ m.lamp.pins
  nodup : m.lamp.pins.Nodup

/-! ## The init loop, channel by channel -/

namespace LampControlConfig

/-- How many channels an init takes. -/
def channels (config : LampControlConfig) : Nat :=
  if config.channelCount = LAMP_CONTROL_MAX_CHANNELS then 3 else 1

/-- The checks before the init loop. -/
def Accepted (config : LampControlConfig) : Prop :=
  ¬ (config.channels = 1 ∧ config.pin = none) ∧ config.frequencyHz ≠ 0 ∧
    (config.polarity = .activeHigh ∨ config.polarity = .activeLow)

/-- The pin of channel `index`. -/
abbrev channelPin (config : LampControlConfig) (index : Nat) : HalPin :=
  configPin config config.channels index

/-- The HAL after `hal_pwm_init` was called for each of `pins`. -/
def bringUp (config : LampControlConfig) (pins : List Pin) (h : Hal) : Hal :=
  pins.foldl (fun h pin => (halPwmInit ⟨pin, config.frequencyHz, config.polarity⟩ h).2) h

/-- From `h`, the first channels come up, on `pins`. -/
structure Up (config : LampControlConfig) (h : Hal) (pins : List Pin) : Prop where
  pins_eq : pins.map some = (List.range pins.length).map config.channelPin
  ok : ∀ i < pins.length, h.outcome (h.calls + i) = .ok

/-- What the lamp relies on: `hal_pwm_init` on a pin that holds a live channel
fails, whichever channels this init has brought up before. -/
def RefusesLive (config : LampControlConfig) (h : Hal) : Prop :=
  ∀ pins pin, config.Up h pins → pins.length < config.channels → config.channelPin pins.length = some pin →
    (config.bringUp pins h).channels.live pin = true →
    (halPwmInit ⟨pin, config.frequencyHz, config.polarity⟩ (config.bringUp pins h)).1 ≠ .ok

/-- The init loop from `h` on leaves a live channel behind: it stops at channel
`k` with channels before it up, because the pin is missing, or because the HAL
refuses it and then a deinit of the rollback. -/
def Strands (config : LampControlConfig) (h : Hal) : Prop :=
  ∃ k < config.channels, (∀ i < k, config.channelPin i ≠ none ∧ h.outcome (h.calls + i) = .ok) ∧
    (config.channelPin k = none ∧ 0 < k ∨
      config.channelPin k ≠ none ∧ h.outcome (h.calls + k) ≠ .ok ∧ ∃ j < k, h.outcome (h.calls + k + 1 + j) ≠ .ok)

end LampControlConfig

open LampControlConfig

/-- The step that leaves a channel behind: an init that gets as far as its loop,
on a lamp that is not initialized. -/
def Leaks (c : Call) (m : Machine) : Prop :=
  ∃ config, c = .init (some config) ∧ m.lamp.initialized = false ∧ config.Accepted ∧ config.Strands m.hal

/-- The HAL refuses live pins throughout an operation. -/
def Call.RefusesLive (c : Call) (m : Machine) : Prop :=
  ∀ config, c = .init (some config) → m.lamp.initialized = false → config.Accepted → config.RefusesLive m.hal

variable {config : LampControlConfig} {h : Hal} {pins : List Pin} {pin : Pin}

@[simp] theorem bringUp_nil : config.bringUp [] h = h := rfl

@[simp] theorem bringUp_concat : config.bringUp (pins ++ [pin]) h =
    (halPwmInit ⟨pin, config.frequencyHz, config.polarity⟩ (config.bringUp pins h)).2 := by
  simp [bringUp]

@[simp] theorem bringUp_outcome : (config.bringUp pins h).outcome = h.outcome := by
  induction pins using List.reverseRecOn with
  | nil => rfl
  | append_singleton pins pin ih => rw [bringUp_concat]; exact ih

@[simp] theorem bringUp_calls : (config.bringUp pins h).calls = h.calls + pins.length := by
  induction pins using List.reverseRecOn with
  | nil => rfl
  | append_singleton pins pin ih =>
    rw [bringUp_concat, show (halPwmInit _ (config.bringUp pins h)).2.calls = _ from Hal.call_calls _ _, ih]
    simp; omega

/-- The status `hal_pwm_init` returns once `pins` are up. -/
theorem bringUp_status : (halPwmInit ⟨pin, config.frequencyHz, config.polarity⟩ (config.bringUp pins h)).1 =
    h.outcome (h.calls + pins.length) := by
  rw [show (halPwmInit _ (config.bringUp pins h)).1 = _ from Hal.call_status _ _, bringUp_outcome, bringUp_calls]

namespace LampControlConfig.Up

theorem nil : config.Up h [] := ⟨rfl, by simp⟩

theorem concat (hu : config.Up h pins) (hp : config.channelPin pins.length = some pin)
    (hs : h.outcome (h.calls + pins.length) = .ok) : config.Up h (pins ++ [pin]) := by
  constructor
  · simp [List.range_succ, hu.pins_eq, hp]
  · intro i hi
    rcases Nat.lt_succ_iff_lt_or_eq.1 (by simpa using hi) with hi | rfl
    · exact hu.ok i hi
    · exact hs

theorem of_concat (hu : config.Up h (pins ++ [pin])) :
    config.Up h pins ∧ config.channelPin pins.length = some pin ∧ h.outcome (h.calls + pins.length) = .ok := by
  have he := hu.pins_eq
  simp only [List.map_append, List.map_cons, List.map_nil, List.length_append, List.length_cons, List.length_nil,
    Nat.zero_add, List.range_succ] at he
  obtain ⟨h1, h2⟩ := List.append_inj he (by simp)
  refine ⟨⟨h1, fun i hi => hu.ok i (by simp; omega)⟩, ?_, hu.ok _ (by simp)⟩
  simpa using h2.symm

/-- Every channel that came up has a pin. -/
theorem pin_ne_none (hu : config.Up h pins) {i : Nat} (hi : i < pins.length) : config.channelPin i ≠ none := by
  have := congrArg (fun l => l[i]?) hu.pins_eq
  simp only [List.getElem?_map, List.getElem?_range hi, List.getElem?_eq_getElem hi, Option.map_some,
    Option.some.injEq] at this
  simp [← this]

end LampControlConfig.Up

/-- Where the init loop stops: at its end with every channel up, at a channel
without a pin, or at a channel the HAL refuses, after the rollback. -/
theorem initChannels_cases (len : Nat) (hu : config.Up h pins) :
    let r := initChannels config config.channels (List.range' pins.length len) pins.reverse (config.bringUp pins h)
    ∃ up, config.Up h up ∧
      (up.length = pins.length + len ∧ r = (.ok up, config.bringUp up h) ∨
       up.length < pins.length + len ∧ config.channelPin up.length = none ∧
        r = (.error .errInvalidArgument, config.bringUp up h) ∨
       ∃ pin, up.length < pins.length + len ∧ config.channelPin up.length = some pin ∧
        h.outcome (h.calls + up.length) ≠ .ok ∧
        r = (.error (lampMapHalStatus (h.outcome (h.calls + up.length))), rollbackChannels up.reverse
          (halPwmInit ⟨pin, config.frequencyHz, config.polarity⟩ (config.bringUp up h)).2)) := by
  induction len generalizing pins with
  | zero => exact ⟨pins, hu, .inl ⟨rfl, by simp [initChannels]⟩⟩
  | succ len ih =>
    rw [List.range'_succ]
    simp only [initChannels]
    cases hp : config.channelPin pins.length with
    | none => exact ⟨pins, hu, .inr (.inl ⟨by omega, hp, by simp [hp]⟩)⟩
    | some pin =>
      by_cases hs : h.outcome (h.calls + pins.length) = .ok
      · have := ih (hu.concat hp hs)
        simp only [List.length_append, List.length_cons, List.length_nil, Nat.zero_add, List.reverse_append,
          List.reverse_cons, List.reverse_nil, List.nil_append, List.singleton_append, bringUp_concat] at this
        simp only [hp, bringUp_status, hs, ne_eq, not_true_eq_false, if_false]
        rwa [show pins.length + (len + 1) = pins.length + 1 + len by omega]
      · refine ⟨pins, hu, .inr (.inr ⟨pin, by omega, hp, hs, ?_⟩)⟩
        simp [hp, bringUp_status, hs]

/-- The loop can stop at one channel only. -/
theorem LampControlConfig.Up.stop_unique (hu : config.Up h pins)
    (hstop : config.channelPin pins.length = none ∨ h.outcome (h.calls + pins.length) ≠ .ok) {k : Nat}
    (hk : ∀ i < k, config.channelPin i ≠ none ∧ h.outcome (h.calls + i) = .ok)
    (hs : config.channelPin k = none ∨ h.outcome (h.calls + k) ≠ .ok) : k = pins.length := by
  rcases Nat.lt_trichotomy k pins.length with hlt | heq | hgt
  · exact absurd (hu.ok k hlt) (hs.resolve_left (hu.pin_ne_none hlt))
  · exact heq
  · obtain ⟨h1, h2⟩ := hk _ hgt
    exact absurd h2 (hstop.resolve_left h1)

/-- Every path of an init: refused before its loop, stopped in the loop, held
and done, or failed in the hold and released again. -/
theorem lampControlInit_paths (config : Option LampControlConfig) (m : Machine) :
    (∃ status, status ≠ .ok ∧ lampControlInit config m = (status, m) ∧
      ∀ c, config = some c → m.lamp.initialized = false → ¬ c.Accepted) ∨
    ∃ c up, config = some c ∧ m.lamp.initialized = false ∧ c.Accepted ∧ c.Up m.hal up ∧
      (up.length < c.channels ∧ c.channelPin up.length = none ∧
        lampControlInit config m = (.errInvalidArgument, { m with hal := c.bringUp up m.hal }) ∨
       (∃ pin, up.length < c.channels ∧ c.channelPin up.length = some pin ∧
        m.hal.outcome (m.hal.calls + up.length) ≠ .ok ∧
        let hal := (halPwmInit ⟨pin, c.frequencyHz, c.polarity⟩ (c.bringUp up m.hal)).2
        lampControlInit config m = (lampMapHalStatus (m.hal.outcome (m.hal.calls + up.length)),
          { m with hal := rollbackChannels up.reverse hal })) ∨
       up.length = c.channels ∧ (holdChannels up (c.bringUp up m.hal)).1 = .ok ∧
        lampControlInit config m = (.ok, ⟨.fresh up, (holdChannels up (c.bringUp up m.hal)).2⟩) ∨
       up.length = c.channels ∧ (holdChannels up (c.bringUp up m.hal)).1 ≠ .ok ∧
        let m' := lampReleaseChannels (lampFailOff ⟨.fresh up, (holdChannels up (c.bringUp up m.hal)).2⟩).2
        lampControlInit config m = (lampMapHalStatus (holdChannels up (c.bringUp up m.hal)).1,
          if m'.1 = .ok then lampResetReleasedState m'.2 else m'.2)) := by
  simp only [lampControlInit, lampControlInitLocked]
  cases config with
  | none => exact .inl ⟨_, by simp, rfl, by simp⟩
  | some c =>
    cases hi : m.lamp.initialized with
    | true => exact .inl ⟨.errAlreadyInitialized, by simp, by simp, by simp⟩
    | false =>
      simp only [Bool.false_eq_true, if_false]
      rw [← show c.channels = if c.channelCount = LAMP_CONTROL_MAX_CHANNELS then 3 else 1 from rfl]
      have refused : ¬ c.Accepted → ∃ status, status ≠ .ok ∧ (LampStatus.errInvalidArgument, m) = (status, m) ∧
          ∀ c', some c = some c' → True → ¬ c'.Accepted :=
        fun hna => ⟨_, by simp, rfl, fun c' e _ => Option.some.inj e ▸ hna⟩
      split
      · exact .inl (refused fun ha => ha.1 ‹_›)
      split
      · exact .inl (refused fun ha => ha.2.1 ‹_›)
      split
      · rename_i hp
        exact .inl (refused fun ha => ha.2.2.elim hp.1 hp.2)
      rename_i h1 h2 h3
      have ha : c.Accepted := ⟨h1, h2, by by_contra hne; exact h3 ⟨fun e => hne (.inl e), fun e => hne (.inr e)⟩⟩
      right
      -- Accepted: where the loop stops decides, and after a full loop the hold.
      obtain ⟨up, hu, hr⟩ := initChannels_cases c.channels (show c.Up m.hal [] from .nil)
      simp only [List.length_nil, Nat.zero_add, List.reverse_nil, bringUp_nil, ← List.range_eq_range'] at hr
      refine ⟨c, up, rfl, trivial, ha, hu, ?_⟩
      rcases hr with ⟨hlen, e⟩ | ⟨hlen, hnone, e⟩ | ⟨pin, hlen, hsome, hs, e⟩ <;> rw [e]
      · right; right
        dsimp only
        by_cases hh : (holdChannels up (c.bringUp up m.hal)).1 = .ok
        · exact .inl ⟨hlen, hh, by simp [hh]⟩
        · exact .inr ⟨hlen, hh, by simp [hh]⟩
      · exact .inl ⟨hlen, hnone, rfl⟩
      · exact .inr (.inl ⟨pin, hlen, hsome, hs, rfl⟩)

/-! ## Live channels -/

/-- Channels that came up on a HAL without live channels are the live ones, on
different pins. -/
theorem bringUp_live (hr : config.RefusesLive h) (hl : ∀ pin, h.channels.live pin = false) (hu : config.Up h pins)
    (hn : pins.length ≤ config.channels) :
    pins.Nodup ∧ ∀ pin, (config.bringUp pins h).channels.live pin = true ↔ pin ∈ pins := by
  induction pins using List.reverseRecOn with
  | nil => exact ⟨List.nodup_nil, by simp [hl]⟩
  | append_singleton pins p ih =>
    simp only [List.length_append, List.length_cons, List.length_nil] at hn
    obtain ⟨hu', hp, hs⟩ := hu.of_concat
    obtain ⟨hnd, hlive⟩ := ih hu' (by omega)
    have hfresh : p ∉ pins := fun hmem =>
      hr pins p hu' (by omega) hp ((hlive p).2 hmem) (bringUp_status.trans hs)
    refine ⟨List.nodup_append.2 ⟨hnd, by simp, ?_⟩, fun pin => ?_⟩
    · rintro a ha b hb rfl
      exact hfresh (List.mem_singleton.1 hb ▸ ha)
    · rw [bringUp_concat, show (halPwmInit _ (config.bringUp pins h)).2.channels = _ from
        Hal.call_ok (bringUp_status.trans hs)]
      by_cases hpin : pin = p
      · simp [hpin]
      · simp [hpin, hlive]

/-- A rollback leaves nothing live when it has every live channel and no deinit fails. -/
theorem rollbackChannels_clear (hn : pins.Nodup) (hl : ∀ pin ∈ pins, h.channels.live pin = true) :
    (∀ pin, (rollbackChannels pins h).channels.live pin = false) ↔
      (∀ pin, h.channels.live pin = true → pin ∈ pins) ∧ ∀ j < pins.length, h.outcome (h.calls + j) = .ok := by
  induction pins generalizing h with
  | nil => simp [rollbackChannels]
  | cons p pins ih =>
    rw [List.nodup_cons] at hn
    have hne : ∀ q ∈ pins, q ≠ p := fun q hq e => hn.1 (e ▸ hq)
    have later : ∀ j, (halPwmDeinit p h).2.outcome ((halPwmDeinit p h).2.calls + j) = h.outcome (h.calls + (j + 1)) := by
      intro j
      rw [show (halPwmDeinit p h).2.calls = h.calls + 1 from rfl, Nat.add_assoc, Nat.add_comm 1 j]; rfl
    by_cases hs : h.outcome h.calls = .ok
    · have hc : (halPwmDeinit p h).2.channels.live = Function.update h.channels.live p false :=
        congrArg Channels.live (Hal.call_ok hs)
      rw [rollbackChannels, ih hn.2 fun q hq => by
        rw [hc, Function.update_of_ne (hne q hq)]; exact hl q (by simp [hq])]
      refine and_congr ⟨fun hall q hq => ?_, fun hall q hq => ?_⟩ ⟨fun hall j hj => ?_, fun hall j hj => ?_⟩
      · by_cases hqp : q = p
        · simp [hqp]
        · exact List.mem_cons_of_mem _ (hall q (by rwa [hc, Function.update_of_ne hqp]))
      · by_cases hqp : q = p
        · rw [hc, hqp] at hq; simp at hq
        · rw [hc, Function.update_of_ne hqp] at hq
          exact (List.mem_cons.1 (hall q hq)).resolve_left hqp
      · cases j with
        | zero => exact hs
        | succ j => rw [← later]; exact hall j (by simpa using hj)
      · rw [later]; exact hall (j + 1) (by simpa using hj)
    · -- The first channel stays live and is forgotten.
      have hc : (halPwmDeinit p h).2.channels = h.channels := Hal.call_fail hs
      rw [rollbackChannels, ih hn.2 fun q hq => by rw [hc]; exact hl q (by simp [hq])]
      refine iff_of_false (fun hall => hn.1 (hall.1 p (by rw [hc]; exact hl p (by simp)))) fun hall => hs ?_
      exact hall.2 0 (by simp)

/-- Releasing keeps exactly the channels whose deinit fails. -/
theorem releaseChannels_live (pins : List Pin) (h : Hal) :
    (releaseChannels pins h).2.1.Sublist pins ∧
      (pins.Nodup → (∀ pin ∈ pins, h.channels.live pin = true) → ∀ pin,
        (releaseChannels pins h).2.2.channels.live pin = true ↔
          pin ∈ (releaseChannels pins h).2.1 ∨ h.channels.live pin = true ∧ pin ∉ pins) := by
  induction pins generalizing h with
  | nil => exact ⟨.refl _, by simp [releaseChannels]⟩
  | cons p pins ih =>
    obtain ⟨hsub, hlive⟩ := ih (halPwmDeinit p h).2
    by_cases hs : (halPwmDeinit p h).1 = .ok
    · have hc : (halPwmDeinit p h).2.channels.live = Function.update h.channels.live p false :=
        congrArg Channels.live (Hal.call_ok hs)
      simp only [releaseChannels, hs, ne_eq, not_true_eq_false, if_false]
      refine ⟨hsub.trans (List.sublist_cons_self _ _), fun hn hl pin => ?_⟩
      rw [List.nodup_cons] at hn
      have hne : ∀ q ∈ pins, q ≠ p := fun q hq e => hn.1 (e ▸ hq)
      rw [hlive hn.2 fun q hq => by
        rw [hc, Function.update_of_ne (hne q hq)]; exact hl q (by simp [hq]), hc]
      by_cases hpin : pin = p
      · simp [hpin]
      · simp [hpin]
    · have hc : (halPwmDeinit p h).2.channels = h.channels := Hal.call_fail hs
      simp only [releaseChannels, hs, ne_eq, not_false_eq_true, if_true]
      refine ⟨hsub.cons_cons _, fun hn hl pin => ?_⟩
      rw [List.nodup_cons] at hn
      rw [hlive hn.2 fun q hq => by rw [hc]; exact hl q (by simp [hq]), hc]
      by_cases hpin : pin = p
      · simp [hpin, hn.1, hl p (by simp)]
      · simp [hpin]

/-! ## What each operation does to the live channels -/

/-- A HAL call that only sets a duty. -/
theorem Hal.call_live {effect : Channels → Channels} (he : ∀ c, (effect c).live = c.live) (h : Hal) :
    (h.call effect).2.channels.live = h.channels.live := by
  rw [Hal.call_channels]
  split
  · exact he _
  · rfl

theorem forceChannelOff_live (p : Pin) (h : Hal) :
    (forceChannelOff p h).2.channels.live = h.channels.live := by
  have force : ∀ h, (halPwmForceInactive p h).2.channels.live = h.channels.live := Hal.call_live fun _ => rfl
  have zero : ∀ h, (halPwmSetDuty p LAMP_DUTY_MIN h).2.channels.live = h.channels.live := Hal.call_live fun _ => rfl
  simp only [forceChannelOff]
  split
  · split
    · rw [zero, force, force]
    · rw [force, force]
  · rw [force]

theorem failOffChannels_live (pins : List Pin) (h : Hal) :
    (failOffChannels pins h).2.channels.live = h.channels.live := by
  induction pins generalizing h with
  | nil => rfl
  | cons p pins ih => exact (ih _).trans (forceChannelOff_live p h)

theorem holdChannels_live (pins : List Pin) (h : Hal) :
    (holdChannels pins h).2.channels.live = h.channels.live := by
  have force : ∀ p h, (halPwmForceInactive p h).2.channels.live = h.channels.live := fun _ => Hal.call_live fun _ => rfl
  induction pins generalizing h with
  | nil => rfl
  | cons p pins ih =>
    simp only [holdChannels]
    split
    · exact force p h
    · exact (ih _).trans (force p h)

theorem driveChannels_live (requested : LampState) (n index : Nat) (pins : List Pin) (h : Hal) :
    (driveChannels requested n index pins h).2.channels.live = h.channels.live := by
  have drive : ∀ p d h, (halPwmSetDuty p d h).2.channels.live = h.channels.live :=
    fun _ _ => Hal.call_live fun _ => rfl
  induction pins generalizing index h with
  | nil => rfl
  | cons p pins ih =>
    simp only [driveChannels]
    split
    · exact drive _ _ h
    · exact (ih _ _).trans (drive _ _ h)

/-- An operation that neither starts nor ends a channel. -/
theorem Owned.keep {m m' : Machine} (ho : Owned m) (hl : m'.hal.channels.live = m.hal.channels.live)
    (hp : m'.lamp.pins = m.lamp.pins) (hi : m'.lamp.initialized = m.lamp.initialized) : Owned m' :=
  ⟨fun pin => by rw [hl, hp, hi]; exact ho.tracked pin, hp ▸ ho.nodup⟩

theorem lampFailOff_live (m : Machine) : (lampFailOff m).2.hal.channels.live = m.hal.channels.live := by
  rcases lampFailOff_cases m with e | ⟨e, -⟩ <;> rw [e] <;> exact failOffChannels_live _ _

theorem lampFailOff_owned {m : Machine} (ho : Owned m) : Owned (lampFailOff m).2 :=
  ho.keep (lampFailOff_live m) (lampFailOff_pins m).1 (lampFailOff_pins m).2.1

theorem lampReleaseChannels_owned {m : Machine} (ho : Owned m) (hi : m.lamp.initialized = true) :
    Owned (lampReleaseChannels m).2 := by
  obtain ⟨hsub, hlive⟩ := releaseChannels_live m.lamp.pins m.hal
  refine ⟨fun pin => ?_, ho.nodup.sublist hsub⟩
  simp only [lampReleaseChannels]
  rw [hlive ho.nodup (fun q hq => (ho.tracked q).2 ⟨hi, hq⟩) pin, ho.tracked pin]
  simp [hi]

theorem lampReset_owned {m : Machine} (ho : Owned m) (hi : m.lamp.initialized = true)
    (hs : (lampReleaseChannels m).1 = .ok) : Owned (lampResetReleasedState (lampReleaseChannels m).2) := by
  have hkept : (lampReleaseChannels m).2.lamp.pins = [] := releaseChannels_ok hs
  refine ⟨fun pin => ?_, List.nodup_nil⟩
  have := (lampReleaseChannels_owned ho hi).tracked pin
  rw [hkept] at this
  simpa [lampResetReleasedState] using this

theorem applyState_owned {m : Machine} (ho : Owned m) (requested : Option LampState) (out : Option LampAppliedState) :
    Owned (lampControlApplyState requested out m).2.2 := by
  have hd : ∀ r, (m.drive r).2.channels.live = m.hal.channels.live := fun r => driveChannels_live r _ _ _ _
  rcases lampControlApplyState_cases requested out m with
    ⟨-, e⟩ | ⟨-, status, -, -, e⟩ | ⟨-, -, r, -, -, -, status, -, e⟩ | ⟨-, -, r, -, -, -, e⟩ <;> rw [e]
  · exact ho
  · exact lampFailOff_owned ho
  · exact lampFailOff_owned (m := { m with hal := (m.drive r).2 }) (ho.keep (hd r) rfl rfl)
  · exact ho.keep (hd r) rfl rfl

theorem forceInactive_owned {m : Machine} (ho : Owned m) : Owned (lampControlForceInactive m).2 := by
  have hf := lampFailOff_owned ho
  rcases lampControlForceInactive_cases m with ⟨-, e⟩ | ⟨-, -, e⟩ | ⟨-, -, e⟩ <;> rw [e]
  · exact ho
  · exact hf
  · exact hf.keep rfl rfl rfl

theorem deinit_owned {m : Machine} (ho : Owned m) : Owned (lampControlDeinit m).2 := by
  rcases lampControlDeinit_cases m with ⟨-, e⟩ | ⟨hi, -, e⟩ | ⟨hi, hs, e⟩ <;> rw [e]
  · exact ho
  · exact lampFailOff_owned (lampReleaseChannels_owned ho hi)
  · exact lampReset_owned ho hi hs

/-- An init on a lamp that owns nothing leaves it owning what it tracks unless
its loop leaves a channel behind. -/
theorem init_owned {m : Machine} (ho : Owned m) (config : Option LampControlConfig)
    (hr : (Call.init config).RefusesLive m) : Owned (lampControlInit config m).2 ↔ ¬ Leaks (.init config) m := by
  rcases lampControlInit_paths config m with ⟨status, -, e, hna⟩ | ⟨c, up, rfl, hi, ha, hu, hpath⟩
  · rw [e]
    exact iff_of_true ho (by rintro ⟨c, hc, hi, ha, -⟩; exact hna c (Call.init.inj hc) hi ha)
  · have hr : c.RefusesLive m.hal := hr c rfl hi ha
    have hl : ∀ pin, m.hal.channels.live pin = false := fun pin => by
      have := ho.tracked pin
      simpa [hi] using this
    have leaks : Leaks (.init (some c)) m ↔ c.Strands m.hal := by
      refine ⟨?_, fun hs => ⟨c, rfl, hi, ha, hs⟩⟩
      rintro ⟨c', e, -, -, hs⟩
      cases e
      exact hs
    -- An uninitialized lamp owns what it tracks when nothing is live.
    have released : ∀ hal : Hal, Owned { m with hal } ↔ ∀ pin, hal.channels.live pin = false := fun hal =>
      ⟨fun h pin => by simpa [hi] using h.tracked pin, fun h => ⟨fun pin => by simp [h, hi], ho.nodup⟩⟩
    have held : ∀ hal, up.length = c.channels → hal.channels.live = (c.bringUp up m.hal).channels.live →
        Owned ⟨.fresh up, hal⟩ := fun hal hlen hlive => by
      obtain ⟨hnd, hup⟩ := bringUp_live hr hl hu (by omega)
      exact ⟨fun pin => by simp [hlive, hup, LampControlState.fresh], hnd⟩
    have full : up.length = c.channels → ¬ c.Strands m.hal := by
      rintro hlen ⟨k, hk, -, hstop⟩
      have hk' : k < up.length := hlen ▸ hk
      rcases hstop with ⟨hnone, -⟩ | ⟨-, hs, -⟩
      · exact hu.pin_ne_none hk' hnone
      · exact hs (hu.ok k hk')
    have before : ∀ i < up.length, c.channelPin i ≠ none ∧ m.hal.outcome (m.hal.calls + i) = .ok :=
      fun i hlt => ⟨hu.pin_ne_none hlt, hu.ok i hlt⟩
    rw [leaks]
    rcases hpath with ⟨hlen, hnone, e⟩ | ⟨pin, hlen, hsome, hs, e⟩ | ⟨hlen, hh, e⟩ | ⟨hlen, hh, e⟩ <;> rw [e]
    · rw [released]
      obtain ⟨-, hup⟩ := bringUp_live hr hl hu (by omega)
      constructor
      · rintro hall ⟨k, -, hk, hstop⟩
        obtain rfl : k = up.length := hu.stop_unique (.inl hnone) hk (hstop.imp (·.1) (·.2.1))
        obtain ⟨pin, hpin⟩ : ∃ pin, pin ∈ up :=
          List.exists_mem_of_length_pos (hstop.elim (·.2) fun h => absurd hnone h.1)
        exact absurd ((hup pin).2 hpin) (by simp [hall pin])
      · intro hns pin
        have h0 : up = [] := by
          by_contra hne
          exact hns ⟨up.length, hlen, before, .inl ⟨hnone, List.length_pos_iff.2 hne⟩⟩
        rw [h0, bringUp_nil]
        exact hl pin
    · rw [released]
      obtain ⟨hnd, hup⟩ := bringUp_live hr hl hu (by omega)
      have hlive : ∀ q, (halPwmInit ⟨pin, c.frequencyHz, c.polarity⟩ (c.bringUp up m.hal)).2.channels.live q = true ↔
          q ∈ up := by
        rw [show (halPwmInit _ (c.bringUp up m.hal)).2.channels = _ from
          Hal.call_fail (fun e => hs (bringUp_status.symm.trans e))]
        exact hup
      rw [rollbackChannels_clear (List.pairwise_reverse.2 (hnd.imp Ne.symm)) fun q hq => (hlive q).2 (by simpa using hq)]
      have hcalls : ∀ j, (halPwmInit ⟨pin, c.frequencyHz, c.polarity⟩ (c.bringUp up m.hal)).2.outcome
          ((halPwmInit ⟨pin, c.frequencyHz, c.polarity⟩ (c.bringUp up m.hal)).2.calls + j) =
          m.hal.outcome (m.hal.calls + up.length + 1 + j) := by
        intro j
        simp [halPwmInit]
      constructor
      · rintro ⟨-, hall⟩ ⟨k, -, hk, hstop⟩
        obtain rfl : k = up.length := hu.stop_unique (.inr hs) hk (hstop.imp (·.1) (·.2.1))
        rcases hstop with ⟨hnone, -⟩ | ⟨-, -, j, hj, hfail⟩
        · rw [hsome] at hnone; cases hnone
        · exact hfail ((hcalls j).symm.trans (hall j (by simpa using hj)))
      · refine fun hns => ⟨fun q hq => by simpa using (hlive q).1 hq, fun j hj => ?_⟩
        by_contra hfail
        exact hns ⟨up.length, hlen, before, .inr ⟨by simp [hsome], hs, j, by simpa using hj,
          fun hok => hfail ((hcalls j).trans hok)⟩⟩
    · exact iff_of_true (held _ hlen (holdChannels_live _ _)) (full hlen)
    · refine iff_of_true ?_ (full hlen)
      have hf := lampFailOff_owned (held _ hlen (holdChannels_live up (c.bringUp up m.hal)))
      have hi' : (lampFailOff ⟨.fresh up, (holdChannels up (c.bringUp up m.hal)).2⟩).2.lamp.initialized = true :=
        (lampFailOff_pins _).2.1
      dsimp only
      split
      · exact lampReset_owned hf hi' ‹_›
      · exact lampReleaseChannels_owned hf hi'

/-! ## Runs -/

/-- An operation on a lamp that owns what it tracks keeps that unless it leaks. -/
theorem owned_step {m : Machine} (ho : Owned m) (c : Call) (hr : c.RefusesLive m) :
    Owned (c.next m) ↔ ¬ Leaks c m := by
  cases c with
  | init config => exact init_owned ho config hr
  | applyState requested out => exact iff_of_true (applyState_owned ho requested out) (by rintro ⟨_, e, -⟩; cases e)
  | forceInactive => exact iff_of_true (forceInactive_owned ho) (by rintro ⟨_, e, -⟩; cases e)
  | releaseFailOff => exact iff_of_true (ho.keep rfl rfl rfl) (by rintro ⟨_, e, -⟩; cases e)
  | deinit => exact iff_of_true (deinit_owned ho) (by rintro ⟨_, e, -⟩; cases e)
  | getAppliedState out => exact iff_of_true ho (by rintro ⟨_, e, -⟩; cases e)

/-- Whatever HAL calls fail, as long as an init of a live pin does, the lamp owns
exactly what it tracks after every operation of a run if and only if no init of
the run leaves a channel behind. -/
theorem run_owned (outcome : Nat → HalStatus) (calls : List Call)
    (hr : ∀ before c, before ++ [c] <+: calls → c.RefusesLive (run before (.boot outcome))) :
    (∀ before, before <+: calls → Owned (run before (.boot outcome))) ↔
      ∀ before c, before ++ [c] <+: calls → ¬ Leaks c (run before (.boot outcome)) :=
  run_throughout ⟨fun pin => by simp [Machine.boot, Hal.reset], List.nodup_nil⟩
    fun before c hp ho => owned_step ho c (hr before c hp)

/-- A pin is live after an init loop if it came up in it or was live before. -/
theorem bringUp_live_mem (hl : (config.bringUp pins h).channels.live pin = true) :
    pin ∈ pins ∨ h.channels.live pin = true := by
  induction pins using List.reverseRecOn with
  | nil => exact .inr hl
  | append_singleton pins p ih =>
    rw [bringUp_concat] at hl
    by_cases hpin : pin = p
    · exact .inl (by simp [hpin])
    · have hkept : (config.bringUp pins h).channels.live pin = true := by
        simp only [halPwmInit, Hal.call_channels] at hl
        split at hl
        · exact (Function.update_of_ne hpin _ _).symm.trans hl
        · exact hl
      exact (ih hkept).imp_left fun hm => by simp [hm]

/-- A configuration with a pin of its own for each channel never asks for a live
one while the lamp owns nothing. -/
theorem LampControlConfig.RefusesLive.of_distinct (hl : ∀ pin, h.channels.live pin = false)
    (hd : ∀ i < config.channels, ∀ j < i, config.channelPin i ≠ config.channelPin j) : config.RefusesLive h := by
  intro pins pin hu hn hp hlive
  rcases bringUp_live_mem hlive with hm | hm
  · obtain ⟨j, hj, e⟩ := List.getElem_of_mem hm
    have := congrArg (fun l => l[j]?) hu.pins_eq
    simp only [List.getElem?_map, List.getElem?_range hj, List.getElem?_eq_getElem hj, Option.map_some, e,
      Option.some.injEq] at this
    exact absurd (hp.trans this) (hd _ hn j hj)
  · rw [hl] at hm; cases hm

theorem prefix_singleton {before : List Call} {c c' : Call} (hp : before ++ [c] <+: [c']) : before = [] ∧ c = c' := by
  cases before with
  | nil => simpa using hp
  | cons b before => simpa using hp.length_le

/-- Green is refused once and the rollback works: the failed init owns nothing. -/
theorem run_owned_green_refused :
    let glitch : Nat → HalStatus := fun n => if n = 1 then .errNoResource else .ok
    let rgb : LampControlConfig := ⟨none, (some 30, some 31, some 32), 3, 5000, .activeHigh⟩
    (lampControlInit (some rgb) (.boot glitch)).1 = .errNoResource ∧
      Owned (run [.init (some rgb)] (.boot glitch)) := by
  intro glitch rgb
  refine ⟨by decide, (run_owned glitch _ fun before c hp => ?_).2 (fun before c hp => ?_) _ (List.prefix_refl _)⟩
  · obtain ⟨rfl, rfl⟩ := prefix_singleton hp
    intro config e _ _
    obtain rfl := Option.some.inj (Call.init.inj e)
    exact .of_distinct (fun _ => rfl) (by decide)
  · obtain ⟨rfl, rfl⟩ := prefix_singleton hp
    rintro ⟨config, e, -, -, hs⟩
    obtain rfl := Option.some.inj (Call.init.inj e)
    revert hs
    simp only [Strands]
    decide

/-- Green has no pin: the init fails after red came up, and red stays live with
no lamp that tracks it. -/
theorem red_left_live : ¬ ∀ (outcome : Nat → HalStatus) (calls : List Call),
    (∀ before c, before ++ [c] <+: calls → c.RefusesLive (run before (.boot outcome))) →
      ∀ before, before <+: calls → Owned (run before (.boot outcome)) := by
  intro h
  let rgb : LampControlConfig := ⟨none, (some 30, none, some 32), 3, 5000, .activeHigh⟩
  have ho := h (fun _ => .ok) [.init (some rgb)] (fun before c hp => ?_) _ (List.prefix_refl _)
  · exact absurd ((ho.tracked 30).1 (by decide)).1 (by decide)
  · obtain ⟨rfl, rfl⟩ := prefix_singleton hp
    intro config e _ _
    obtain rfl := Option.some.inj (Call.init.inj e)
    exact .of_distinct (fun _ => rfl) (by decide)

end LedLamp.Lamp
