import LedLamp.Lamp.Barrier
import Mathlib.Data.List.Induction
/-!
# What `output_active` reports

The lamp should never record an output as inactive that may be energized
(`Truthful`). Every operation keeps that, except one path of the apply: the
flag is written only after the last channel, so an apply that starts on an
inactive lamp, lights a channel, fails on a later one and then cannot turn the
lit one off again leaves the flag at `false` (`Interrupted`). A run is truthful
throughout exactly when no step of it is interrupted (`run_truthful`).
-/

namespace LedLamp.Lamp

/-- An initialized lamp that records its output as inactive is off. -/
def Truthful (m : Machine) : Prop :=
  m.lamp.initialized = true → m.lamp.applied.outputActive = false → Off m.hal.channels

/-! ## The interrupted apply -/

/-- The request makes channel `index` of a multi-channel lamp generate a duty:
the rounded product of brightness and colour is not zero. -/
def Lights (requested : LampState) (index : Nat) : Prop :=
  requested.power = true ∧ 128 ≤ requested.brightnessPercent.toNat * 100 * (color requested index).toNat

/-- Among the first `k` channels the last one on `pin` is lit. -/
def LitAmong (requested : LampState) (pins : List Pin) (k : Nat) (pin : Pin) : Prop :=
  ∃ j < k, pins[j]? = some pin ∧ Lights requested j ∧ ∀ i, j < i → i < k → pins[i]? ≠ some pin

/-- How many HAL calls the fail-off of one channel makes, from call `n` on. -/
def forceCalls (outcome : Nat → HalStatus) (n : Nat) : Nat :=
  if outcome n = .ok then 1 else if outcome (n + 1) = .ok then 2 else 3

/-- Force inactive, its retry and the 0 % duty all fail. -/
def ForceFails (outcome : Nat → HalStatus) (n : Nat) : Prop :=
  outcome n ≠ .ok ∧ outcome (n + 1) ≠ .ok ∧ outcome (n + 2) ≠ .ok

/-- A fail-off over `pins` that starts at call `n` never turns `pin` off. -/
def Unproven (outcome : Nat → HalStatus) (pin : Pin) : Nat → List Pin → Prop
  | _, [] => True
  | n, p :: pins => (p = pin → ForceFails outcome n) ∧ Unproven outcome pin (n + forceCalls outcome n) pins

/-- An apply of `requested` from call `n` on: channel `k` is the first whose duty
fails, and a channel lit before it stays on through the fail-off. -/
def LeavesLit (outcome : Nat → HalStatus) (n : Nat) (pins : List Pin) (requested : LampState) : Prop :=
  ∃ k < pins.length, (∀ i < k, outcome (n + i) = .ok) ∧ outcome (n + k) ≠ .ok ∧
    ∃ pin, LitAmong requested pins k pin ∧ Unproven outcome pin (n + k + 1) pins

/-- The step that leaves a lit channel behind an inactive record. -/
def Interrupted (c : Call) (m : Machine) : Prop :=
  ∃ requested out, c = .applyState (some requested) out ∧
    m.lamp.initialized = true ∧ m.lamp.failOffBarrier = false ∧ m.lamp.applied.outputActive = false ∧
    requested.brightnessPercent ≤ LAMP_BRIGHTNESS_MAX ∧
    LeavesLit m.hal.outcome m.hal.calls m.lamp.pins requested

/-! ## The fail-off, channel by channel -/

@[simp] theorem Hal.call_calls (effect : Channels → Channels) (h : Hal) :
    (h.call effect).2.calls = h.calls + 1 := rfl

@[simp] theorem Hal.call_outcome (effect : Channels → Channels) (h : Hal) :
    (h.call effect).2.outcome = h.outcome := rfl

@[simp] theorem Hal.call_status (effect : Channels → Channels) (h : Hal) :
    (h.call effect).1 = h.outcome h.calls := rfl

theorem Hal.call_channels (effect : Channels → Channels) (h : Hal) :
    (h.call effect).2.channels = if h.outcome h.calls = .ok then effect h.channels else h.channels := rfl

theorem forceChannelOff_calls (p : Pin) (h : Hal) :
    (forceChannelOff p h).2.calls = h.calls + forceCalls h.outcome h.calls := by
  unfold forceChannelOff forceCalls halPwmForceInactive halPwmSetDuty
  by_cases h1 : h.outcome h.calls = .ok
  · simp [h1]
  · by_cases h2 : h.outcome (h.calls + 1) = .ok
    · simp [h1, h2]
    · simp [h1, h2]

theorem forceChannelOff_fails (p : Pin) (h : Hal) :
    (forceChannelOff p h).1 ≠ .ok ↔ ForceFails h.outcome h.calls := by
  unfold forceChannelOff ForceFails halPwmForceInactive halPwmSetDuty
  by_cases h1 : h.outcome h.calls = .ok
  · simp [h1]
  · by_cases h2 : h.outcome (h.calls + 1) = .ok
    · simp [h1, h2]
    · simp [h1, h2, Nat.add_assoc]

/-- The fail-off of one channel leaves the others alone, and this one too when
it fails. -/
theorem forceChannelOff_keeps (p : Pin) (h : Hal) {pin : Pin} (hk : p = pin → ForceFails h.outcome h.calls) :
    (forceChannelOff p h).2.channels.duty pin = h.channels.duty pin := by
  by_cases hp : p = pin
  · obtain ⟨h1, h2, h3⟩ := hk hp
    unfold forceChannelOff halPwmForceInactive halPwmSetDuty
    simp [h1, h2, h3, Hal.call_channels, Nat.add_assoc]
  · have hp : pin ≠ p := fun e => hp e.symm
    unfold forceChannelOff halPwmForceInactive halPwmSetDuty
    by_cases h1 : h.outcome h.calls = .ok
    · simp [h1, Hal.call_channels, hp]
    · by_cases h2 : h.outcome (h.calls + 1) = .ok
      · simp [h1, h2, Hal.call_channels, hp]
      · by_cases h3 : h.outcome (h.calls + 1 + 1) = .ok <;> simp [h1, h2, h3, Hal.call_channels, hp]

/-- A pin the fail-off never turns off keeps its duty. -/
theorem failOffChannels_keeps {pins : List Pin} {h : Hal} {pin : Pin} (hu : Unproven h.outcome pin h.calls pins) :
    (failOffChannels pins h).2.channels.duty pin = h.channels.duty pin := by
  induction pins generalizing h with
  | nil => rfl
  | cons p pins ih =>
    obtain ⟨hp, hrest⟩ := hu
    have ho : (forceChannelOff p h).2.outcome = h.outcome := (forceChannelOff_quiet p h).outcome
    simp only [failOffChannels]
    rw [ih (by rw [ho, forceChannelOff_calls]; exact hrest), forceChannelOff_keeps p h hp]

/-- A pin some channel's fail-off turns off is off at the end. -/
theorem failOffChannels_proves {pins : List Pin} {h : Hal} {pin : Pin}
    (hu : ¬ Unproven h.outcome pin h.calls pins) : (failOffChannels pins h).2.channels.duty pin = 0 := by
  induction pins generalizing h with
  | nil => exact absurd trivial hu
  | cons p pins ih =>
    have ho : (forceChannelOff p h).2.outcome = h.outcome := (forceChannelOff_quiet p h).outcome
    simp only [failOffChannels]
    by_cases hp : p = pin → ForceFails h.outcome h.calls
    · refine ih ?_
      rw [ho, forceChannelOff_calls]
      exact fun hrest => hu ⟨hp, hrest⟩
    · rw [Classical.not_imp, ← forceChannelOff_fails p h, not_not] at hp
      obtain ⟨rfl, hok⟩ := hp
      exact (failOffChannels_quiet pins _).off (forceChannelOff_off hok)

/-! ## The apply loop, channel by channel -/

/-- The channels after the duties of `pins` are set, from channel `index` on. -/
def driven (requested : LampState) (channelCount : Nat) : Nat → List Pin → Channels → Channels
  | _, [], c => c
  | index, pin :: pins, c =>
    driven requested channelCount (index + 1) pins
      { c with duty := Function.update c.duty pin (channelDuty requested channelCount index) }

/-- Where the apply loop stops: at its end, or at the first channel that fails,
with every channel before it driven. -/
theorem driveChannels_cases (requested : LampState) (n index : Nat) (pins : List Pin) (h : Hal) :
    let r := driveChannels requested n index pins h
    (r.1 = .ok ∧ (∀ i < pins.length, h.outcome (h.calls + i) = .ok) ∧
      r.2.channels = driven requested n index pins h.channels) ∨
    (r.1 ≠ .ok ∧ r.2.outcome = h.outcome ∧ ∃ k < pins.length, (∀ i < k, h.outcome (h.calls + i) = .ok) ∧
      h.outcome (h.calls + k) ≠ .ok ∧ r.2.calls = h.calls + k + 1 ∧
      r.2.channels = driven requested n index (pins.take k) h.channels) := by
  induction pins generalizing index h with
  | nil => exact .inl ⟨rfl, by simp, rfl⟩
  | cons p pins ih =>
    by_cases hs : h.outcome h.calls = .ok
    · have hd : (halPwmSetDuty p (channelDuty requested n index) h).1 = .ok := hs
      have hc : (halPwmSetDuty p (channelDuty requested n index) h).2.channels =
          { h.channels with duty := Function.update h.channels.duty p (channelDuty requested n index) } :=
        Hal.call_ok hs
      have shift : ∀ k, (∀ i < k, h.outcome (h.calls + 1 + i) = .ok) → ∀ i < k + 1, h.outcome (h.calls + i) = .ok := by
        intro k hk i hi
        cases i with
        | zero => exact hs
        | succ i =>
          rw [show h.calls + (i + 1) = h.calls + 1 + i by omega]
          exact hk i (by omega)
      simp only [driveChannels, hd, ne_eq, not_true_eq_false, if_false]
      rcases ih (index + 1) (halPwmSetDuty p (channelDuty requested n index) h).2 with
        ⟨h1, h2, h3⟩ | ⟨h1, ho, k, hk, h2, h3, h4, h5⟩
      · exact .inl ⟨h1, shift _ h2, by rw [h3, hc]; rfl⟩
      · refine .inr ⟨h1, ho, k + 1, by simpa using hk, shift k h2, ?_, ?_, ?_⟩
        · rw [show h.calls + (k + 1) = h.calls + 1 + k by omega]; exact h3
        · rw [h4]; simp only [halPwmSetDuty, Hal.call_calls]; omega
        · rw [h5, hc]; rfl
    · right
      have hd : (halPwmSetDuty p (channelDuty requested n index) h).1 ≠ .ok := hs
      simp only [driveChannels, if_pos hd]
      exact ⟨hd, rfl, 0, by simp, by simp, by simpa using hs, rfl, Hal.call_fail hs⟩

theorem driven_other (requested : LampState) (n index : Nat) (pins : List Pin) (c : Channels) {pin : Pin}
    (hp : pin ∉ pins) : (driven requested n index pins c).duty pin = c.duty pin := by
  induction pins generalizing index c with
  | nil => rfl
  | cons p pins ih =>
    simp only [List.mem_cons, not_or] at hp
    rw [driven, ih _ _ hp.2]
    simp [hp.1]

/-- A driven pin is lit exactly when the last channel on it is. -/
theorem driven_mem (requested : LampState) (n index : Nat) (pins : List Pin) (c : Channels) {pin : Pin}
    (hp : pin ∈ pins) : (driven requested n index pins c).duty pin ≠ 0 ↔
      ∃ j < pins.length, pins[j]? = some pin ∧ channelDuty requested n (index + j) ≠ 0 ∧
        ∀ i, j < i → i < pins.length → pins[i]? ≠ some pin := by
  induction pins generalizing index c with
  | nil => cases hp
  | cons p pins ih =>
    rw [driven]
    by_cases hm : pin ∈ pins
    · rw [ih _ _ hm]
      constructor
      · rintro ⟨j, hj, hat, hd, hlast⟩
        refine ⟨j + 1, by simpa using hj, by simpa using hat, ?_, ?_⟩
        · rw [show index + (j + 1) = index + 1 + j by omega]; exact hd
        · intro i hi hlen
          obtain ⟨i, rfl⟩ : ∃ i', i = i' + 1 := ⟨i - 1, by omega⟩
          simpa using hlast i (by omega) (by simpa using hlen)
      · rintro ⟨j, hj, hat, hd, hlast⟩
        cases j with
        | zero =>
          -- The pin occurs again further on, so its last channel is not this one.
          obtain ⟨i, hi, e⟩ := List.getElem_of_mem hm
          exact absurd (by simp [hi, e]) (hlast (i + 1) (by omega) (by simpa using hi))
        | succ j =>
          refine ⟨j, by simpa using hj, by simpa using hat, ?_, ?_⟩
          · rw [show index + 1 + j = index + (j + 1) by omega]; exact hd
          · intro i hi hlen
            simpa using hlast (i + 1) (by omega) (by simpa using hlen)
    · obtain rfl : pin = p := (List.mem_cons.1 hp).resolve_right hm
      rw [driven_other _ _ _ _ _ hm]
      constructor
      · intro hd
        refine ⟨0, by simp, rfl, by simpa using hd, ?_⟩
        intro i hi _ e
        obtain ⟨i, rfl⟩ : ∃ i', i = i' + 1 := ⟨i - 1, by omega⟩
        exact hm (List.mem_of_getElem? (by simpa using e))
      · rintro ⟨j, hj, hat, hd, -⟩
        cases j with
        | zero => simpa using hd
        | succ j => exact absurd (List.mem_of_getElem? (by simpa using hat)) hm

/-- The colour arithmetic does not overflow. -/
theorem channelDuty_rounded {requested : LampState} (hv : requested.brightnessPercent ≤ LAMP_BRIGHTNESS_MAX)
    {n : Nat} (hn : n ≠ 1) (hp : requested.power = true) (index : Nat) : (channelDuty requested n index).toNat =
      (requested.brightnessPercent.toNat * 100 * (color requested index).toNat + 127) / 255 := by
  have hb : requested.brightnessPercent.toNat ≤ 100 := by simpa [LAMP_BRIGHTNESS_MAX, UInt8.le_iff_toNat_le] using hv
  have hc : (color requested index).toNat ≤ 255 := by have := (color requested index).toNat_lt; omega
  have hbc : requested.brightnessPercent.toNat * 100 * (color requested index).toNat ≤ 100 * 100 * 255 :=
    Nat.mul_le_mul (Nat.mul_le_mul_right 100 hb) hc
  rw [channelDuty, if_pos hp, if_neg hn]
  simp only [LAMP_DUTY_SCALE, UInt32.toNat_div, UInt32.toNat_add, UInt32.toNat_mul, UInt8.toNat_toUInt32,
    UInt32.reduceToNat]
  rw [Nat.mod_eq_of_lt (a := requested.brightnessPercent.toNat * 100) (by omega),
    Nat.mod_eq_of_lt (a := _ * _) (by omega), Nat.mod_eq_of_lt (by omega)]

/-- The duty a multi-channel apply computes, in its 32-bit arithmetic, is zero
exactly when the exact product rounds to zero. -/
theorem channelDuty_ne_zero {requested : LampState} (hv : requested.brightnessPercent ≤ LAMP_BRIGHTNESS_MAX)
    {n : Nat} (hn : n ≠ 1) (index : Nat) : channelDuty requested n index ≠ 0 ↔ Lights requested index := by
  cases hp : requested.power with
  | false => simp [channelDuty, Lights, hp, LAMP_DUTY_MIN]
  | true =>
    rw [ne_eq, ← UInt32.toNat_inj, channelDuty_rounded hv hn hp, Lights, hp, UInt32.toNat_zero]
    generalize requested.brightnessPercent.toNat * 100 * (color requested index).toNat = product
    simp only [true_and]
    omega

/-- From an inactive lamp, the channels an apply drives before channel `k` leave
`pin` on exactly when the last of them on `pin` is lit. -/
theorem driven_lit {requested : LampState} (hv : requested.brightnessPercent ≤ LAMP_BRIGHTNESS_MAX) {pins : List Pin}
    {k : Nat} (hk : k < pins.length) {c : Channels} (h0 : Off c) (pin : Pin) :
    (driven requested pins.length 0 (pins.take k) c).duty pin ≠ 0 ↔ LitAmong requested pins k pin := by
  have hlen : (pins.take k).length = k := by simp; omega
  by_cases hp : pin ∈ pins.take k
  · have hn : pins.length ≠ 1 := by
      intro h1
      obtain rfl : k = 0 := by omega
      simp at hp
    rw [driven_mem _ _ _ _ _ hp, hlen]
    unfold LitAmong
    refine exists_congr fun j => and_congr_right fun hj => ?_
    rw [List.getElem?_take_of_lt hj, Nat.zero_add, channelDuty_ne_zero hv hn]
    refine and_congr_right fun _ => and_congr_right fun _ => forall_congr' fun i => forall_congr' fun _ => ?_
    exact forall_congr' fun hi => by rw [List.getElem?_take_of_lt hi]
  · rw [driven_other _ _ _ _ _ hp]
    constructor
    · intro h; exact absurd (h0 pin) h
    · rintro ⟨j, hj, hat, -⟩
      exact absurd (List.mem_of_getElem? (by rw [List.getElem?_take_of_lt hj]; exact hat)) hp

/-- A request the lamp records as inactive gives every channel duty zero. -/
theorem appliedOf_inactive {requested : LampState} {n : Nat} (h : (appliedOf requested n).outputActive = false)
    (index : Nat) : channelDuty requested n index = 0 := by
  unfold channelDuty
  cases hp : requested.power with
  | false => rfl
  | true =>
    by_cases hb : requested.brightnessPercent = 0
    · rw [hb]
      by_cases hn : n = 1 <;> simp [hn]
    · have hb' : LAMP_BRIGHTNESS_MIN < requested.brightnessPercent := by
        simp only [LAMP_BRIGHTNESS_MIN, UInt8.lt_iff_toNat_lt, ← UInt8.toNat_inj] at hb ⊢
        simp at hb ⊢
        omega
      simp only [appliedOf, hp, hb', decide_true, Bool.true_and, Bool.or_eq_false_iff, beq_eq_false_iff_ne, ne_eq,
        bne_eq_false_iff_eq] at h
      obtain ⟨⟨⟨hn, hr⟩, hg⟩, hblue⟩ := h
      have hc : color requested index = 0 := by
        unfold color
        split <;> assumption
      simp [hn, hc]

/-! ## What each operation does to the record -/

/-- Quiet calls keep a record that stays inactive only if it was inactive. -/
theorem Truthful.quiet {m m' : Machine} (hf : Truthful m) (hq : Quiet m.hal m'.hal)
    (hi : m'.lamp.initialized = true → m.lamp.initialized = true)
    (ha : m'.lamp.applied.outputActive = false → m.lamp.applied.outputActive = false) : Truthful m' :=
  fun hi' ha' => hq.channels.off (hf (hi hi') (ha ha'))

theorem lampFailOff_truthful {m : Machine} (ht : Tracked m) (hf : Truthful m) : Truthful (lampFailOff m).2 := by
  by_cases hs : (lampFailOff m).1 = .ok
  · exact fun _ _ => lampFailOff_off ht hs
  · rcases lampFailOff_cases m with e | ⟨e, -⟩
    · rw [e]; exact hf.quiet (failOffChannels_quiet _ _) id id
    · rw [e] at hs; exact absurd rfl hs

theorem init_truthful {m : Machine} (ht : Tracked m) (hf : Truthful m) (config : Option LampControlConfig) :
    Truthful (lampControlInit config m).2 := by
  rcases lampControlInit_cases config m with ⟨status, hal, e, -, hq⟩ | ⟨hi, pins, hal, hq, e⟩
  · rw [e]; exact hf.quiet hq id id
  · -- The new channels start inactive, so whatever the hold did, everything is off.
    have h0 : Off hal.channels := hq.channels.off (ht.off hi)
    rcases e with e | ⟨hs, -, e⟩
    · rw [e]; exact fun _ _ => h0
    · have h1 := (lampFailOff_quiet ⟨.fresh pins, hal⟩).channels.off h0
      have h2 := (lampReleaseChannels_quiet (lampFailOff ⟨.fresh pins, hal⟩).2).channels.off h1
      rw [e]
      dsimp only
      split
      · intro hi'; cases hi'
      · exact fun _ _ => h2

theorem forceInactive_truthful {m : Machine} (ht : Tracked m) (hf : Truthful m) :
    Truthful (lampControlForceInactive m).2 := by
  have hf' := lampFailOff_truthful ht hf
  rcases lampControlForceInactive_cases m with ⟨-, e⟩ | ⟨-, -, e⟩ | ⟨-, -, e⟩ <;> rw [e]
  · exact hf
  · exact hf'
  · exact hf'.quiet (.refl _) id id

theorem deinit_truthful {m : Machine} (ht : Tracked m) (hf : Truthful m) : Truthful (lampControlDeinit m).2 := by
  rcases lampControlDeinit_cases m with ⟨-, e⟩ | ⟨hi, -, e⟩ | ⟨hi, hs, e⟩ <;> rw [e]
  · exact hf
  · exact lampFailOff_truthful (lampReleaseChannels_tracked ht hi)
      (hf.quiet (lampReleaseChannels_quiet m) (fun _ => hi) id)
  · intro hi'; cases hi'

/-- An apply that drove every channel records what it drove. -/
theorem drive_truthful {m : Machine} (ht : Tracked m) {requested : LampState} (hs : (m.drive requested).1 = .ok) :
    Truthful { lamp := { m.lamp with applied := appliedOf requested m.lamp.pins.length },
               hal := (m.drive requested).2 } := by
  intro _ ha pin
  rcases driveChannels_cases requested m.lamp.pins.length 0 m.lamp.pins m.hal with ⟨-, -, hc⟩ | ⟨hne, -⟩
  · by_contra hd
    rw [hc] at hd
    by_cases hp : pin ∈ m.lamp.pins
    · obtain ⟨j, -, -, hj, -⟩ := (driven_mem _ _ _ _ _ hp).1 hd
      exact hj (appliedOf_inactive ha _)
    · rw [driven_other _ _ _ _ _ hp] at hd
      exact hp (ht.energized pin hd)
  · exact absurd hs hne

/-- The loop can stop at one channel only: the first whose call fails. -/
theorem stop_unique {outcome : Nat → HalStatus} {n k k' : Nat} (hk : ∀ i < k, outcome (n + i) = .ok)
    (hs : outcome (n + k) ≠ .ok) (hk' : ∀ i < k', outcome (n + i) = .ok) (hs' : outcome (n + k') ≠ .ok) :
    k = k' := by
  rcases Nat.lt_trichotomy k k' with h | h | h
  · exact absurd (hk' k h) hs
  · exact h
  · exact absurd (hk k' h) hs'

/-- After a loop that stopped, the fail-off leaves a truthful record exactly when
no lit channel survives it behind a record that was inactive before. -/
theorem stopped_truthful {m : Machine} (ht : Tracked m) (hf : Truthful m) (hi : m.lamp.initialized = true)
    {requested : LampState} (hv : requested.brightnessPercent ≤ LAMP_BRIGHTNESS_MAX)
    (hs : (m.drive requested).1 ≠ .ok) :
    Truthful (lampFailOff { m with hal := (m.drive requested).2 }).2 ↔
      ¬ (m.lamp.applied.outputActive = false ∧ LeavesLit m.hal.outcome m.hal.calls m.lamp.pins requested) := by
  have ht' : Tracked { m with hal := (m.drive requested).2 } := drive_tracked ht requested _ rfl hi
  cases ha : m.lamp.applied.outputActive with
  | true =>
    refine iff_of_true ?_ (by simp)
    by_cases hok : (lampFailOff { m with hal := (m.drive requested).2 }).1 = .ok
    · exact fun _ _ => lampFailOff_off ht' hok
    · rcases lampFailOff_cases { m with hal := (m.drive requested).2 } with e | ⟨e, -⟩
      · rw [e]; intro _ ha'; exact absurd (ha.symm.trans ha') (by simp)
      · rw [e] at hok; exact absurd rfl hok
  | false =>
    rcases driveChannels_cases requested m.lamp.pins.length 0 m.lamp.pins m.hal with
      ⟨hok, -⟩ | ⟨-, ho, k, hk, hbefore, hstop, hcalls, hc⟩
    · exact absurd hok hs
    have h0 := hf hi ha
    -- A pin is on after the fail-off exactly when it was lit and no call turned it off.
    have lit : ∀ pin, (failOffChannels m.lamp.pins (m.drive requested).2).2.channels.duty pin ≠ 0 ↔
        LitAmong requested m.lamp.pins k pin ∧ Unproven m.hal.outcome pin (m.hal.calls + k + 1) m.lamp.pins := by
      intro pin
      rw [← ho, ← hcalls, ← driven_lit hv hk h0 pin, ← hc]
      by_cases hu : Unproven (m.drive requested).2.outcome pin (m.drive requested).2.calls m.lamp.pins
      · rw [failOffChannels_keeps hu]; exact ⟨fun h => ⟨h, hu⟩, fun h => h.1⟩
      · rw [failOffChannels_proves hu]; exact ⟨fun h => absurd rfl h, fun h => absurd h.2 hu⟩
    have off : Truthful (lampFailOff { m with hal := (m.drive requested).2 }).2 ↔
        Off (failOffChannels m.lamp.pins (m.drive requested).2).2.channels := by
      rcases lampFailOff_cases { m with hal := (m.drive requested).2 } with e | ⟨e, -⟩ <;> rw [e]
      · exact ⟨fun h => h hi ha, fun h _ _ => h⟩
      · exact ⟨fun h => h hi rfl, fun h _ _ => h⟩
    rw [off]
    constructor
    · rintro hoff ⟨-, k', -, hbefore', hstop', pin, hlit⟩
      obtain rfl := stop_unique hbefore hstop hbefore' hstop'
      exact (lit pin).2 hlit (hoff pin)
    · intro hno pin
      by_contra hd
      exact hno ⟨rfl, k, hk, hbefore, hstop, pin, (lit pin).1 hd⟩

/-! ## Runs -/

/-- A step from a truthful state leads to a truthful state unless it is interrupted. -/
theorem truthful_step {m : Machine} (ht : Tracked m) (hf : Truthful m) (c : Call) :
    Truthful (c.next m) ↔ ¬ Interrupted c m := by
  cases c with
  | init config => exact iff_of_true (init_truthful ht hf config) (by rintro ⟨_, _, e, -⟩; cases e)
  | forceInactive => exact iff_of_true (forceInactive_truthful ht hf) (by rintro ⟨_, _, e, -⟩; cases e)
  | releaseFailOff => exact iff_of_true (hf.quiet (.refl _) id id) (by rintro ⟨_, _, e, -⟩; cases e)
  | deinit => exact iff_of_true (deinit_truthful ht hf) (by rintro ⟨_, _, e, -⟩; cases e)
  | getAppliedState out => exact iff_of_true hf (by rintro ⟨_, _, e, -⟩; cases e)
  | applyState requested out =>
    show Truthful (lampControlApplyState requested out m).2.2 ↔ _
    rcases lampControlApplyState_cases requested out m with
      ⟨hi, e⟩ | ⟨-, status, -, hrefused, e⟩ | ⟨hi, hb, r, hr, hv, hs, status, -, e⟩ | ⟨hi, -, r, hr, -, hs, e⟩ <;>
      rw [e]
    · refine iff_of_true hf ?_
      rintro ⟨_, _, -, hi', -⟩
      rw [hi] at hi'; cases hi'
    · refine iff_of_true (lampFailOff_truthful ht hf) ?_
      rintro ⟨r, _, heq, -, hb, -, hv, -⟩
      cases heq
      have := hrefused r rfl hb
      simp [lampStateIsValid, hv] at this
    · have hv : r.brightnessPercent ≤ LAMP_BRIGHTNESS_MAX := by simpa [lampStateIsValid] using hv
      rw [failOffThen_snd, stopped_truthful ht hf hi hv hs, not_iff_not]
      constructor
      · rintro ⟨ha, hl⟩; exact ⟨r, out, by rw [hr], hi, hb, ha, hv, hl⟩
      · rintro ⟨r', _, heq, -, -, ha, -, hl⟩
        cases heq; cases hr
        exact ⟨ha, hl⟩
    · refine iff_of_true (drive_truthful ht hs) ?_
      rintro ⟨r', _, heq, -, -, -, -, k, hk, hbefore, hstop, -⟩
      cases heq; cases hr
      rcases driveChannels_cases r m.lamp.pins.length 0 m.lamp.pins m.hal with ⟨-, hall, -⟩ | ⟨hne, -⟩
      · exact hstop (hall k hk)
      · exact hne hs

theorem run_append (before after : List Call) (m : Machine) :
    run (before ++ after) m = run after (run before m) := List.foldl_append

/-- What holds at the start and is broken by bad steps only holds throughout a
run if and only if no step of the run is bad. -/
theorem run_throughout {P : Machine → Prop} {Bad : Call → Machine → Prop} {m : Machine} {calls : List Call}
    (h0 : P m) (step : ∀ before c, before ++ [c] <+: calls → P (run before m) →
      (P (c.next (run before m)) ↔ ¬ Bad c (run before m))) :
    (∀ before, before <+: calls → P (run before m)) ↔
      ∀ before c, before ++ [c] <+: calls → ¬ Bad c (run before m) := by
  constructor
  · intro h before c hp
    rw [← step before c hp (h before ((List.prefix_append before [c]).trans hp))]
    have := h (before ++ [c]) hp
    rwa [run_append] at this
  · intro h before
    induction before using List.reverseRecOn with
    | nil => exact fun _ => h0
    | append_singleton before c ih =>
      intro hp
      rw [run_append]
      exact (step before c hp (ih ((List.prefix_append before [c]).trans hp))).2 (h before c hp)

/-- Whatever HAL calls fail, every state of a run records its output truthfully
if and only if no step of the run is interrupted. -/
theorem run_truthful (outcome : Nat → HalStatus) (calls : List Call) :
    (∀ before, before <+: calls → Truthful (run before (.boot outcome))) ↔
      ∀ before c, before ++ [c] <+: calls → ¬ Interrupted c (run before (.boot outcome)) := by
  have tracked : ∀ before, Tracked (run before (.boot outcome)) :=
    fun before => reachable_tracked (reachable_run (.boot outcome) before)
  exact run_throughout (fun hi => by cases hi) fun before c _ hf => truthful_step (tracked before) hf c

/-- A single-channel lamp is never interrupted: its one channel is the one that fails. -/
theorem single_not_interrupted {m : Machine} (h1 : m.lamp.pins.length = 1) (c : Call) : ¬ Interrupted c m := by
  rintro ⟨requested, out, -, -, -, -, -, k, hk, -, -, pin, ⟨j, hj, -⟩, -⟩
  omega

/-- Red is lit, green fails, and neither force-inactive, its retry nor 0 % turns
red off: the apply returns `LAMP_ERR_FAIL_OFF`, with the output recorded as inactive. -/
theorem red_left_lit :
    let glitch : Nat → HalStatus := fun n => if 7 ≤ n ∧ n ≤ 10 then .other 1 else .ok
    let rgb : Call := .init (some ⟨none, (some 30, some 31, some 32), 3, 5000, .activeHigh⟩)
    let white : Call := .applyState (some ⟨true, 100, 255, 255, 255⟩) none
    (white.exec (run [rgb] (.boot glitch))).1 = .errFailOff ∧
      (run [rgb, white] (.boot glitch)).hal.channels.duty 30 = 10000 ∧
      ¬ Truthful (run [rgb, white] (.boot glitch)) := by
  intro glitch rgb white
  refine ⟨by decide, by decide, fun h => ?_⟩
  exact absurd (h (by decide) (by decide) 30) (by decide)

end LedLamp.Lamp
