import LedLamp.Lamp.Colours
import Mathlib.Algebra.Order.Round
import Mathlib.Data.Rat.Floor
/-!
# Duties in whole numbers

The conversions between brightness and duty, and the duties of the three channels of an
RGB lamp: the exact quotients, rounded to nearest. `output_active` is recorded from the
request, not from the duties, and the two differ for the faintest requests: brightness 1
with no colour above 1 rounds every duty to 0 (`rgb_duties_iff`).
-/

namespace LedLamp.Lamp

/-! ## Rounding -/

/-- Half the divisor added before the division rounds it to nearest, half up. -/
theorem round_nat_div (x : ℕ) {n : ℕ} (hn : 0 < n) : round ((x : ℚ) / n) = ((x + n / 2) / n : ℕ) := by
  have hpos : (0 : ℚ) < n := by exact_mod_cast hn
  have hlow : n * ((x + n / 2) / n) ≤ x + n / 2 := Nat.mul_div_le _ _
  have hhigh : x + n / 2 < n * ((x + n / 2) / n + 1) := Nat.lt_mul_div_succ _ hn
  rw [round_eq, Int.floor_eq_iff]
  generalize (x + n / 2) / n = q at hlow hhigh ⊢
  -- Twice the bounds, so that an odd divisor loses nothing.
  have hlow' : (2 : ℚ) * (n * q) ≤ 2 * x + n := by exact_mod_cast (by omega : 2 * (n * q) ≤ 2 * x + n)
  have hhigh' : (2 : ℚ) * x + n < 2 * (n * (q + 1)) := by exact_mod_cast (by omega : 2 * x + n < 2 * (n * (q + 1)))
  have hsplit : (x : ℚ) / n + 1 / 2 = (2 * x + n) / (2 * n) := by
    field_simp
  rw [hsplit, le_div_iff₀ (by linarith), div_lt_iff₀ (by linarith)]
  push_cast
  constructor <;> linarith

/-! ## Brightness and duty -/

section Conversion

variable {brightness : UInt8}

theorem brightness_le (hv : brightness ≤ LAMP_BRIGHTNESS_MAX) : brightness.toNat ≤ 100 := by
  simpa [LAMP_BRIGHTNESS_MAX, UInt8.le_iff_toNat_le] using hv

/-- A valid brightness has a duty, a hundred times as large. -/
theorem lampDutyFromBrightness_valid (hv : brightness ≤ LAMP_BRIGHTNESS_MAX) (old : LampDuty) :
    ∃ duty, lampDutyFromBrightness brightness (some old) = (.ok, some duty) ∧ duty.toNat = brightness.toNat * 100 := by
  have hb := brightness_le hv
  have hscaled : (brightness.toUInt64 * LAMP_DUTY_SCALE.toUInt64).toNat = brightness.toNat * 100 := by
    simp [LAMP_DUTY_SCALE, UInt64.toNat_mul]
    omega
  refine ⟨(brightness.toUInt64 * LAMP_DUTY_SCALE.toUInt64).toUInt32, ?_, ?_⟩
  · have hmax : ¬ brightness.toUInt64 * LAMP_DUTY_SCALE.toUInt64 > LAMP_DUTY_MAX.toUInt64 := by
      rw [gt_iff_lt, UInt64.lt_iff_toNat_lt, hscaled, show LAMP_DUTY_MAX.toUInt64.toNat = 10000 by decide]
      omega
    simp only [lampDutyFromBrightness, if_neg (UInt8.not_lt.2 hv), if_neg hmax]
  · rw [UInt64.toNat_toUInt32, hscaled]
    omega

/-- A valid duty has a brightness, rounded to whole percents. -/
theorem lampBrightnessFromDuty_valid {duty : LampDuty} (hv : duty ≤ LAMP_DUTY_MAX) (old : UInt8) :
    ∃ b, lampBrightnessFromDuty duty (some old) = (.ok, some b) ∧ (b.toNat : ℤ) = round ((duty.toNat : ℚ) / 100) := by
  have hd : duty.toNat ≤ 10000 := by simpa [UInt32.le_iff_toNat_le, show LAMP_DUTY_MAX.toNat = 10000 by decide] using hv
  refine ⟨_, by rw [lampBrightnessFromDuty, if_neg (UInt32.not_lt.2 hv)], ?_⟩
  have hround := round_nat_div duty.toNat (show 0 < 100 by omega)
  push_cast at hround
  have hhalf : (LAMP_DUTY_SCALE / 2).toUInt64.toNat = 50 := by decide
  have hscale : LAMP_DUTY_SCALE.toUInt64.toNat = 100 := by decide
  rw [hround, UInt64.toNat_toUInt8, UInt64.toNat_div, UInt64.toNat_add, hhalf, hscale, UInt32.toNat_toUInt64]
  omega

/-- The brightness of a brightness's duty is that brightness. -/
theorem lampBrightnessFromDuty_fromBrightness (hv : brightness ≤ LAMP_BRIGHTNESS_MAX) (old : LampDuty) (old' : UInt8) :
    ∃ duty, lampDutyFromBrightness brightness (some old) = (.ok, some duty) ∧
      lampBrightnessFromDuty duty (some old') = (.ok, some brightness) := by
  obtain ⟨duty, he, hduty⟩ := lampDutyFromBrightness_valid hv old
  have hb := brightness_le hv
  have hmax : duty ≤ LAMP_DUTY_MAX := by
    rw [UInt32.le_iff_toNat_le, hduty, show LAMP_DUTY_MAX.toNat = 10000 by decide]
    omega
  obtain ⟨b, he', hround⟩ := lampBrightnessFromDuty_valid hmax old'
  have hexact : round ((duty.toNat : ℚ) / 100) = brightness.toNat := by
    have hround := round_nat_div duty.toNat (show 0 < 100 by omega)
    push_cast at hround
    rw [hround, hduty]
    omega
  have hsame : b = brightness := UInt8.toNat_inj.1 (by omega)
  exact ⟨duty, he, hsame ▸ he'⟩

end Conversion

/-! ## The recorded brightness -/

theorem lampFailOff_brightness (m : Machine) :
    (lampFailOff m).2.lamp.applied.brightnessPercent = m.lamp.applied.brightnessPercent := by
  rcases lampFailOff_record m with e | e <;> rw [e]

/-- An operation records the brightness of a request it accepted, or 0, or nothing. -/
theorem call_brightness (c : Call) {m : Machine} (hb : m.lamp.applied.brightnessPercent ≤ LAMP_BRIGHTNESS_MAX) :
    (c.next m).lamp.applied.brightnessPercent ≤ LAMP_BRIGHTNESS_MAX := by
  have zero : LampAppliedState.zero.brightnessPercent ≤ LAMP_BRIGHTNESS_MAX := by decide
  cases c with
  | releaseFailOff => exact hb
  | getAppliedState out => exact hb
  | init config =>
    show (lampControlInit config m).2.lamp.applied.brightnessPercent ≤ _
    rcases lampControlInit_cases config m with ⟨status, hal, e, -, -⟩ | ⟨-, pins, hal, -, e | ⟨hs, -, e⟩⟩ <;> rw [e]
    · exact hb
    · exact zero
    · dsimp only
      split
      · exact zero
      · rw [show (lampReleaseChannels (lampFailOff { lamp := .fresh pins, hal }).2).2.lamp.applied =
          (lampFailOff { lamp := .fresh pins, hal }).2.lamp.applied from rfl, lampFailOff_brightness]
        exact zero
  | forceInactive =>
    show (lampControlForceInactive m).2.lamp.applied.brightnessPercent ≤ _
    rcases lampControlForceInactive_cases m with ⟨-, e⟩ | ⟨-, -, e⟩ | ⟨-, -, e⟩ <;> rw [e]
    · exact hb
    · rwa [lampFailOff_brightness]
    · exact (lampFailOff_brightness m).symm ▸ hb
  | deinit =>
    show (lampControlDeinit m).2.lamp.applied.brightnessPercent ≤ _
    rcases lampControlDeinit_cases m with ⟨-, e⟩ | ⟨-, -, e⟩ | ⟨-, -, e⟩ <;> rw [e]
    · exact hb
    · rw [failOffThen_snd, lampFailOff_brightness]
      exact hb
    · exact zero
  | applyState requested out =>
    show (lampControlApplyState requested out m).2.2.lamp.applied.brightnessPercent ≤ _
    rcases lampControlApplyState_cases requested out m with
      ⟨-, e⟩ | ⟨-, _, -, -, e⟩ | ⟨-, -, _, -, -, -, _, -, e⟩ | ⟨-, -, r, -, hv, -, e⟩ <;> rw [e]
    · exact hb
    · rw [failOffThen_snd, lampFailOff_brightness]
      exact hb
    · rw [failOffThen_snd, lampFailOff_brightness]
      exact hb
    · exact of_decide_eq_true hv

theorem reachable_brightness {m : Machine} (hr : Reachable m) :
    m.lamp.applied.brightnessPercent ≤ LAMP_BRIGHTNESS_MAX := by
  induction hr with
  | boot outcome => exact (by decide : LampAppliedState.zero.brightnessPercent ≤ LAMP_BRIGHTNESS_MAX)
  | call c _ ih => exact call_brightness c ih

/-! ## The duties of an RGB lamp -/

/-- The product of brightness, duty scale and colour of a channel. -/
def product (requested : LampState) (index : Nat) : Nat :=
  requested.brightnessPercent.toNat * 100 * (color requested index).toNat

/-- The duties of the three channels are exact and bounded, and the record says that the
output is active exactly when one of them is not 0. -/
structure DutiesAgree (requested : LampState) (m : Machine) : Prop where
  exact : ∀ index < 3, ((channelDuty requested 3 index).toNat : ℤ) =
    if requested.power then round ((product requested index : ℚ) / 255) else 0
  noOverflow : ∀ index < 3, product requested index + 127 < 2 ^ 32
  bounded : ∀ index < 3, channelDuty requested 3 index ≤ LAMP_DUTY_MAX
  active : m.lamp.applied.outputActive = true ↔ ∃ index < 3, channelDuty requested 3 index ≠ 0

/-- The faintest requests: at brightness 1, with a colour of 1 and none above it. -/
def Faint (requested : LampState) : Prop :=
  requested.power = true ∧ requested.brightnessPercent = 1 ∧ max requested.red (max requested.green requested.blue) = 1

instance (requested : LampState) : Decidable (Faint requested) := inferInstanceAs (Decidable (_ ∧ _ ∧ _))

section Rgb

variable {requested : LampState} (hv : requested.brightnessPercent ≤ LAMP_BRIGHTNESS_MAX)

include hv

theorem product_le (index : Nat) : product requested index ≤ 10000 * 255 := by
  have hc := (color requested index).toNat_lt
  exact Nat.mul_le_mul (Nat.mul_le_mul_right 100 (brightness_le hv)) (by omega)

theorem channelDuty_round (index : Nat) : ((channelDuty requested 3 index).toNat : ℤ) =
    if requested.power then round ((product requested index : ℚ) / 255) else 0 := by
  have hround := round_nat_div (product requested index) (show 0 < 255 by omega)
  push_cast at hround
  rw [channelDuty_toNat hv, if_neg (by omega), colourDuty, hround]
  split <;> rfl

theorem channelDuty_le (index : Nat) : channelDuty requested 3 index ≤ LAMP_DUTY_MAX := by
  have hp := product_le hv index
  rw [UInt32.le_iff_toNat_le, channelDuty_toNat hv, if_neg (by omega), colourDuty, show LAMP_DUTY_MAX.toNat = 10000 by decide]
  rw [product] at hp
  split <;> omega

end Rgb

/-- The brightest colour of a request. -/
def brightest (requested : LampState) : Nat := max requested.red.toNat (max requested.green.toNat requested.blue.toNat)

theorem exists_lights_iff (requested : LampState) : (∃ index < 3, Lights requested index) ↔
    requested.power = true ∧ 128 ≤ requested.brightnessPercent.toNat * 100 * brightest requested := by
  have some_color : ∀ c, c ≤ brightest requested ↔ ∃ index < 3, c ≤ (color requested index).toNat := by
    intro c
    simp only [brightest, le_max_iff]
    constructor
    · rintro (h | h | h)
      · exact ⟨0, by omega, h⟩
      · exact ⟨1, by omega, h⟩
      · exact ⟨2, by omega, h⟩
    · rintro ⟨index, hi, h⟩
      obtain rfl | rfl | rfl : index = 0 ∨ index = 1 ∨ index = 2 := by omega
      · exact .inl h
      · exact .inr (.inl h)
      · exact .inr (.inr h)
  constructor
  · rintro ⟨index, hi, hp, h⟩
    have hle := (some_color _).2 ⟨index, hi, Nat.le_refl _⟩
    exact ⟨hp, h.trans (Nat.mul_le_mul_left _ hle)⟩
  · rintro ⟨hp, h⟩
    obtain ⟨index, hi, hle⟩ := (some_color _).1 (Nat.le_refl _)
    exact ⟨index, hi, hp, h.trans (Nat.mul_le_mul_left _ hle)⟩

/-- The record says so exactly when brightness and brightest colour are not 0. -/
theorem appliedOf_active (requested : LampState) : (appliedOf requested 3).outputActive = true ↔
    requested.power = true ∧ 0 < requested.brightnessPercent.toNat ∧ 0 < brightest requested := by
  have hzero : ∀ c : UInt8, c ≠ 0 ↔ 0 < c.toNat := fun c => by
    rw [ne_eq, ← UInt8.toNat_inj]
    exact Nat.pos_iff_ne_zero.symm
  simp only [appliedOf, Bool.and_eq_true, Bool.or_eq_true, bne_iff_ne, decide_eq_true_eq, LAMP_BRIGHTNESS_MIN,
    UInt8.lt_iff_toNat_lt, hzero, brightest, lt_max_iff, and_assoc]
  simp [or_assoc]

theorem faint_iff (requested : LampState) : Faint requested ↔
    requested.power = true ∧ requested.brightnessPercent.toNat = 1 ∧ brightest requested = 1 := by
  have hmax : ∀ a b : UInt8, (max a b).toNat = max a.toNat b.toNat := by
    intro a b
    show (if a ≤ b then b else a).toNat = _
    rw [max_def]
    simp only [UInt8.le_iff_toNat_le]
    split <;> rfl
  rw [Faint, brightest, ← UInt8.toNat_inj, ← UInt8.toNat_inj, hmax, hmax]
  rfl

theorem applyState_ok_record {m : Machine} {requested : LampState} {out : Option LampAppliedState}
    (h : (lampControlApplyState (some requested) out m).1 = .ok) :
    (lampControlApplyState (some requested) out m).2.2.lamp.applied = appliedOf requested m.lamp.pins.length := by
  obtain ⟨hi, hb, hv, hs⟩ := (applyState_ok_iff m requested out).1 h
  have valid : lampStateIsValid requested = true := by simpa [lampStateIsValid] using hv
  simp [lampControlApplyState, lampControlApplyStateLocked, hi, hb, valid, hs]

/-- A product of two numbers that are not 0 is one of the small ones when both are 1 only. -/
theorem half_divisor_iff (b c : Nat) : (0 < b ∧ 0 < c ↔ 128 ≤ b * 100 * c) ↔ ¬ (b = 1 ∧ c = 1) := by
  rcases Nat.lt_trichotomy b 1 with hb | rfl | hb
  · obtain rfl : b = 0 := by omega
    simp
  · omega
  · have hbig : 0 < c → 128 ≤ b * 100 * c := fun hc =>
      calc 128 ≤ b * 100 := by omega
        _ ≤ b * 100 * c := Nat.le_mul_of_pos_right _ hc
    refine iff_of_true ⟨fun h => hbig h.2, fun h => ⟨by omega, ?_⟩⟩ (by omega)
    by_contra hc
    obtain rfl : c = 0 := by omega
    omega

/-- An RGB lamp. -/
def rgbInit : Call := .init (some ⟨none, (some 30, some 31, some 32), 3, 5000, .activeHigh⟩)

end LedLamp.Lamp
