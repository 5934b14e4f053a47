import LedLamp.Lamp.Failures
/-!
# Which colour a channel shows

An RGB lamp gives each channel the colour of the place its pin had in the
configuration. The apply loop takes the colour by the channel's index among the
channels still tracked, and the single-channel formula once one is left. A deinit
that fails for some channels drops the others, so the channels left move to other
indices. `setup` follows what an init set up and which places are left of it;
`Miscolours` is the apply that then shows a wrong duty. Every apply of a run shows
the colours of the configuration if and only if none miscolours (`run_painted`).
-/

namespace LedLamp.Lamp

/-- What an init set up: its pins, and the places of the channels still tracked. -/
structure Setup where
  pins : List Pin
  places : List Nat
  deriving DecidableEq, Repr

/-- The duty the colour of a place calls for, scaled by the brightness. -/
def colourDuty (requested : LampState) (place : Nat) : Nat :=
  if requested.power then (requested.brightnessPercent.toNat * 100 * (color requested place).toNat + 127) / 255 else 0

/-- Channel `j` is the last one left on its pin. -/
def Setup.Last (s : Setup) (j : Nat) (pin : Pin) : Prop :=
  (∃ place, s.places[j]? = some place ∧ s.pins[place]? = some pin) ∧
    ∀ i place, j < i → s.places[i]? = some place → s.pins[place]? ≠ some pin

/-- Each tracked pin generates the duty of the colour its channel had at the init. -/
def Painted (s : Setup) (requested : LampState) (c : Channels) : Prop :=
  ∀ j place pin, s.places[j]? = some place → s.Last j pin → (c.duty pin).toNat = colourDuty requested place

/-! ## Following the channels -/

/-- The places left when the release of the channels starts at HAL call `n`. -/
def keptPlaces (outcome : Nat → HalStatus) : (n : Nat) → List Nat → List Nat
  | _, [] => []
  | n, place :: places =>
    if outcome n = .ok then keptPlaces outcome (n + 1) places else place :: keptPlaces outcome (n + 1) places

/-- What is set up after one operation: a successful init sets up all its channels,
a deinit keeps those it could not release. -/
def setupAfter (c : Call) (m : Machine) (s : Option Setup) : Option Setup :=
  match c with
  | .init config =>
    if m.lamp.initialized then s
    else if (lampControlInit config m).1 = .ok then
      let pins := (lampControlInit config m).2.lamp.pins
      some ⟨pins, List.range pins.length⟩
    else none
  | .deinit =>
    if m.lamp.initialized then s.map fun s => { s with places := keptPlaces m.hal.outcome m.hal.calls s.places } else s
  | _ => s

/-- What is set up after a sequence of operations. -/
def setup : List Call → Machine → Option Setup → Option Setup
  | [], _, s => s
  | c :: calls, m, s => setup calls (c.next m) (setupAfter c m s)

/-- The tracked pins are those of the places left. -/
def Fits (m : Machine) (s : Option Setup) : Prop :=
  ∀ s', s = some s' → m.lamp.pins.map some = s'.places.map fun place => s'.pins[place]?

/-- A duty that the index of a channel gives and its place does not: with one
channel left the full brightness is not the colour's, else the colour of the index
is another one. -/
def DutyDiffers (requested : LampState) (channels j place : Nat) : Prop :=
  requested.power = true ∧
    if channels = 1 then 127 < requested.brightnessPercent.toNat * 100 * (255 - (color requested place).toNat)
    else (requested.brightnessPercent.toNat * 100 * (color requested j).toNat + 127) / 255 ≠
      (requested.brightnessPercent.toNat * 100 * (color requested place).toNat + 127) / 255

/-- An apply that goes through on what is left of a three-channel lamp, where some
channel's place and index ask for different duties. -/
def Miscolours (c : Call) (m : Machine) (s : Option Setup) : Prop :=
  ∃ requested out s', c = .applyState (some requested) out ∧ s = some s' ∧ s'.pins.length = 3 ∧
    m.lamp.initialized = true ∧ m.lamp.failOffBarrier = false ∧ requested.brightnessPercent ≤ LAMP_BRIGHTNESS_MAX ∧
    (∀ i < m.lamp.pins.length, m.hal.outcome (m.hal.calls + i) = .ok) ∧
    ∃ j place pin, s'.places[j]? = some place ∧ s'.Last j pin ∧ DutyDiffers requested s'.places.length j place

/-! ## One operation -/

theorem releaseChannels_kept (pins : List Pin) (f : Nat → Option Pin) (places : List Nat) (h : Hal)
    (hp : pins.map some = places.map f) :
    (releaseChannels pins h).2.1.map some = (keptPlaces h.outcome h.calls places).map f := by
  induction pins generalizing places h with
  | nil =>
    cases places with
    | nil => rfl
    | cons place places => simp at hp
  | cons p pins ih =>
    cases places with
    | nil => simp at hp
    | cons place places =>
      simp only [List.map_cons, List.cons.injEq] at hp
      have hrest := ih places (halPwmDeinit p h).2 hp.2
      rw [show (halPwmDeinit p h).2.outcome = h.outcome from rfl, show (halPwmDeinit p h).2.calls = h.calls + 1 from rfl]
        at hrest
      have hs : (halPwmDeinit p h).1 = h.outcome h.calls := rfl
      simp only [releaseChannels, keptPlaces, hs, ne_eq, ite_not]
      split
      · exact hrest
      · simp [hp.1, hrest]

theorem fits_deinit {m : Machine} {s : Option Setup} (hf : Fits m s) :
    Fits (Call.deinit.next m) (setupAfter .deinit m s) := by
  have hn : Call.deinit.next m = (lampControlDeinit m).2 := rfl
  intro s' hs'
  simp only [setupAfter] at hs'
  rcases lampControlDeinit_cases m with ⟨hi, e⟩ | ⟨hi, hne, e⟩ | ⟨hi, hok, e⟩
  · rw [hi] at hs'
    rw [hn, e]
    exact hf s' (by simpa using hs')
  -- Past the guard the places go the way of the pins, channel by channel.
  all_goals
    simp only [hi, if_true, Option.map_eq_some_iff] at hs'
    obtain ⟨s₀, rfl, rfl⟩ := hs'
    have hkept : (lampReleaseChannels m).2.lamp.pins.map some =
        (keptPlaces m.hal.outcome m.hal.calls s₀.places).map fun place => s₀.pins[place]? :=
      releaseChannels_kept m.lamp.pins _ s₀.places m.hal (hf s₀ rfl)
  · rw [hn, e, failOffThen_snd, (lampFailOff_pins _).1]
    exact hkept
  · have hnil : (lampReleaseChannels m).2.lamp.pins = [] := releaseChannels_ok hok
    rw [hnil] at hkept
    rw [hn, e]
    exact hkept

theorem fits_init {m : Machine} {s : Option Setup} (hf : Fits m s) (config : Option LampControlConfig) :
    Fits ((Call.init config).next m) (setupAfter (.init config) m s) := by
  have hn : (Call.init config).next m = (lampControlInit config m).2 := rfl
  intro s' hs'
  simp only [setupAfter] at hs'
  split at hs'
  · rename_i hi
    rw [hn, lampControlInit_initialized config hi]
    exact hf s' hs'
  · split at hs'
    · obtain rfl := Option.some.inj hs'
      rw [hn]
      refine List.ext_getElem (by simp) fun i h₁ h₂ => ?_
      simp only [List.length_map] at h₁
      simp [h₁]
    · cases hs'

/-- Every operation keeps the tracked pins those of the places left. -/
theorem fits_step {m : Machine} {s : Option Setup} (hf : Fits m s) (c : Call) : Fits (c.next m) (setupAfter c m s) := by
  cases c with
  | init config => exact fits_init hf config
  | deinit => exact fits_deinit hf
  | releaseFailOff => exact hf
  | getAppliedState out => exact hf
  | forceInactive =>
    intro s' hs'
    have hp : (Call.forceInactive.next m).lamp.pins = m.lamp.pins := by
      rw [show Call.forceInactive.next m = (lampControlForceInactive m).2 from rfl]
      rcases lampControlForceInactive_cases m with ⟨-, e⟩ | ⟨-, -, e⟩ | ⟨-, -, e⟩ <;> rw [e]
      · exact (lampFailOff_pins m).1
      · exact (lampFailOff_pins m).1
    rw [hp]
    exact hf s' hs'
  | applyState requested out =>
    intro s' hs'
    have hp : ((Call.applyState requested out).next m).lamp.pins = m.lamp.pins := by
      rw [show (Call.applyState requested out).next m = (lampControlApplyState requested out m).2.2 from rfl]
      rcases lampControlApplyState_cases requested out m with
        ⟨-, e⟩ | ⟨-, _, -, -, e⟩ | ⟨-, -, _, -, -, -, _, -, e⟩ | ⟨-, -, _, -, -, -, e⟩ <;> rw [e]
      · exact (lampFailOff_pins _).1
      · exact (lampFailOff_pins _).1
    rw [hp]
    exact hf s' hs'

/-- The whole run keeps it. -/
theorem fits_run {m : Machine} {s : Option Setup} (hf : Fits m s) (calls : List Call) :
    Fits (run calls m) (setup calls m s) := by
  induction calls generalizing m s with
  | nil => exact hf
  | cons c calls ih => exact ih (fits_step hf c)

/-! ## One apply -/

/-- The duty of a channel, in exact arithmetic. -/
theorem channelDuty_toNat {requested : LampState} (hv : requested.brightnessPercent ≤ LAMP_BRIGHTNESS_MAX) (n j : Nat) :
    (channelDuty requested n j).toNat =
      if n = 1 then (if requested.power then requested.brightnessPercent.toNat * 100 else 0)
      else colourDuty requested j := by
  have hb : requested.brightnessPercent.toNat ≤ 100 := by simpa [LAMP_BRIGHTNESS_MAX, UInt8.le_iff_toNat_le] using hv
  cases hp : requested.power with
  | false => simp [channelDuty, colourDuty, hp, LAMP_DUTY_MIN]
  | true =>
    by_cases hn : n = 1
    · rw [if_pos hn, channelDuty, if_pos hp, if_pos hn]
      simp only [LAMP_DUTY_SCALE, UInt32.toNat_mul, UInt8.toNat_toUInt32, UInt32.reduceToNat, if_true]
      omega
    · rw [if_neg hn, channelDuty_rounded hv hn hp, colourDuty, if_pos hp]

/-- Full brightness is a colour's duty exactly when the product rounds up to it. -/
theorem round_eq_iff {x c : Nat} (hc : c ≤ 255) : x = (x * c + 127) / 255 ↔ ¬ 127 < x * (255 - c) := by
  obtain ⟨d, rfl⟩ : ∃ d, c = 255 - d := ⟨255 - c, by omega⟩
  have hd : x * (255 - d) + x * (255 - (255 - d)) = 255 * x := by
    rw [← Nat.mul_add]
    have : 255 - d + (255 - (255 - d)) = 255 := by omega
    rw [this, Nat.mul_comm]
  omega

theorem channelDuty_ne_iff {requested : LampState} (hv : requested.brightnessPercent ≤ LAMP_BRIGHTNESS_MAX)
    (n j place : Nat) :
    (channelDuty requested n j).toNat ≠ colourDuty requested place ↔ DutyDiffers requested n j place := by
  have hc : (color requested place).toNat ≤ 255 := by have := (color requested place).toNat_lt; omega
  rw [channelDuty_toNat hv]
  unfold DutyDiffers colourDuty
  cases requested.power with
  | false => simp
  | true =>
    by_cases hn : n = 1
    · simp only [hn, if_true, true_and]
      rw [ne_eq, round_eq_iff hc, not_not]
    · simp [hn]

/-- A driven pin has the duty of the last channel on it. -/
theorem driven_last (requested : LampState) (n index : Nat) (pins : List Pin) (c : Channels) {j : Nat} {pin : Pin}
    (hj : pins[j]? = some pin) (hlast : ∀ i, j < i → pins[i]? ≠ some pin) :
    (driven requested n index pins c).duty pin = channelDuty requested n (index + j) := by
  induction pins generalizing index j c with
  | nil => simp at hj
  | cons p pins ih =>
    rw [driven]
    cases j with
    | zero =>
      obtain rfl : p = pin := by simpa using hj
      have hp : p ∉ pins := fun hm => by
        obtain ⟨i, hi, e⟩ := List.getElem_of_mem hm
        exact hlast (i + 1) (by omega) (by simp [hi, e])
      rw [driven_other _ _ _ _ _ hp]
      simp
    | succ j =>
      rw [ih (index + 1) _ (by simpa using hj) fun i hi => by simpa using hlast (i + 1) (by omega)]
      congr 1
      omega

/-- The pin at an index is the pin of the place there. -/
theorem Fits.at {m : Machine} {s : Setup} (hf : Fits m (some s)) (j : Nat) :
    m.lamp.pins[j]?.map some = s.places[j]?.map fun place => s.pins[place]? := by
  rw [← List.getElem?_map, ← List.getElem?_map, hf s rfl]

/-- An apply that goes through paints the channels exactly when it does not miscolour. -/
theorem drive_painted {m : Machine} {s : Setup} (hf : Fits m (some s)) {requested : LampState}
    (hv : requested.brightnessPercent ≤ LAMP_BRIGHTNESS_MAX) (hs : (m.drive requested).1 = .ok) :
    Painted s requested (m.drive requested).2.channels ↔
      ∀ j place pin, s.places[j]? = some place → s.Last j pin → ¬ DutyDiffers requested s.places.length j place := by
  have hlen : m.lamp.pins.length = s.places.length := by simpa using congrArg List.length (hf s rfl)
  have hc : (m.drive requested).2.channels = driven requested m.lamp.pins.length 0 m.lamp.pins m.hal.channels := by
    rcases driveChannels_cases requested m.lamp.pins.length 0 m.lamp.pins m.hal with ⟨-, -, hc⟩ | ⟨hne, -⟩
    · exact hc
    · exact absurd hs hne
  refine forall_congr' fun j => forall_congr' fun place => forall_congr' fun pin => forall_congr' fun hplace =>
    forall_congr' fun hl => ?_
  obtain ⟨⟨place', hplace', hpin⟩, hlast⟩ := hl
  obtain rfl : place' = place := by simpa using hplace'.symm.trans hplace
  have hj : m.lamp.pins[j]? = some pin := by simpa [hplace, hpin] using hf.at j
  have hlast' : ∀ i, j < i → m.lamp.pins[i]? ≠ some pin := by
    intro i hi e
    have := hf.at i
    rw [e] at this
    cases hp : s.places[i]? with
    | none => simp [hp] at this
    | some q =>
      rw [hp] at this
      exact hlast i q hi hp (Option.some.inj this).symm
  rw [hc, driven_last _ _ _ _ _ hj hlast', Nat.zero_add, hlen, ← channelDuty_ne_iff hv, not_not]

/-! ## Runs -/

/-- Every apply of the run that returns `LAMP_OK` on a lamp set up with three
channels paints what is left of them. -/
def KeepsColours (outcome : Nat → HalStatus) (calls : List Call) : Prop :=
  ∀ before c, before ++ [c] <+: calls → ∀ requested out, c = .applyState (some requested) out →
    (c.exec (run before (.boot outcome))).1 = .ok → ∀ s, setup before (.boot outcome) none = some s →
      s.pins.length = 3 → Painted s requested (c.next (run before (.boot outcome))).hal.channels

/-- An apply that returns `LAMP_OK` went through on an initialized lamp without a barrier. -/
theorem applyState_ok_iff (m : Machine) (requested : LampState) (out : Option LampAppliedState) :
    (lampControlApplyState (some requested) out m).1 = .ok ↔
      m.lamp.initialized = true ∧ m.lamp.failOffBarrier = false ∧ requested.brightnessPercent ≤ LAMP_BRIGHTNESS_MAX ∧
        (m.drive requested).1 = .ok := by
  rcases lampControlApplyState_cases (some requested) out m with
    ⟨hi, e⟩ | ⟨hi, status, hne, hr, e⟩ | ⟨hi, hb, r, hr, hv, hs, status, hne, e⟩ | ⟨hi, hb, r, hr, hv, hs, e⟩ <;> rw [e]
  · simp [hi]
  · refine iff_of_false (failOffThen_ne_ok hne m) ?_
    rintro ⟨-, hb, hv, -⟩
    simpa [lampStateIsValid, hv] using hr requested rfl hb
  · obtain rfl := Option.some.inj hr
    exact iff_of_false (failOffThen_ne_ok hne _) fun h => hs h.2.2.2
  · obtain rfl := Option.some.inj hr
    exact iff_of_true rfl ⟨hi, hb, by simpa [lampStateIsValid] using hv, hs⟩

theorem applyState_ok_hal {m : Machine} {requested : LampState} {out : Option LampAppliedState}
    (h : (lampControlApplyState (some requested) out m).1 = .ok) :
    (lampControlApplyState (some requested) out m).2.2.hal = (m.drive requested).2 := by
  obtain ⟨hi, hb, hv, hs⟩ := (applyState_ok_iff m requested out).1 h
  have valid : lampStateIsValid requested = true := by simpa [lampStateIsValid] using hv
  simp [lampControlApplyState, lampControlApplyStateLocked, hi, hb, valid, hs]

/-- Whatever HAL calls fail: in a run every apply keeps the colours of the
configuration if and only if none of them miscolours. -/
theorem run_painted (outcome : Nat → HalStatus) (calls : List Call) :
    KeepsColours outcome calls ↔ ∀ before c, before ++ [c] <+: calls →
      ¬ Miscolours c (run before (.boot outcome)) (setup before (.boot outcome) none) := by
  have fits : ∀ before, Fits (run before (.boot outcome)) (setup before (.boot outcome) none) :=
    fun before => fits_run (fun _ h => by cases h) before
  refine forall_congr' fun before => forall_congr' fun c => forall_congr' fun _ => ?_
  have hf := fits before
  revert hf
  generalize run before (.boot outcome) = m
  generalize setup before (.boot outcome) none = s
  intro hf
  constructor
  · rintro h ⟨requested, out, s', rfl, rfl, hlen, hi, hb, hv, hall, j, place, pin, hplace, hl, hd⟩
    have hs : (m.drive requested).1 = .ok := by
      by_contra hne
      obtain ⟨k, hk, hks⟩ := (drive_fails m requested).1 hne
      exact hks (hall k hk)
    have hok := (applyState_ok_iff m requested out).2 ⟨hi, hb, hv, hs⟩
    have hp := h requested out rfl hok s' rfl hlen
    rw [show ((Call.applyState (some requested) out).next m).hal = _ from applyState_ok_hal hok] at hp
    exact (drive_painted hf hv hs).1 hp j place pin hplace hl hd
  · rintro h requested out rfl hok s' rfl hlen
    obtain ⟨hi, hb, hv, hs⟩ := (applyState_ok_iff m requested out).1 hok
    rw [show ((Call.applyState (some requested) out).next m).hal = _ from applyState_ok_hal hok]
    refine (drive_painted hf hv hs).2 fun j place pin hplace hl hd => ?_
    refine h ⟨requested, out, s', rfl, rfl, hlen, hi, hb, hv, fun i hi => ?_, j, place, pin, hplace, hl, hd⟩
    by_contra hne
    exact (drive_fails m requested).2 ⟨i, hi, hne⟩ hs

/-- While all three channels are tracked an apply cannot miscolour. -/
theorem full_not_miscolours {m : Machine} {s : Setup} (hp : s.places = List.range 3) (c : Call) :
    ¬ Miscolours c m (some s) := by
  rintro ⟨requested, out, s', -, hs, -, -, -, -, -, j, place, pin, hplace, -, -, hd⟩
  obtain rfl := Option.some.inj hs
  rw [hp, List.length_range, if_neg (by omega)] at hd
  rw [hp, List.getElem?_range] at hplace
  · obtain rfl := Option.some.inj hplace
    exact hd rfl
  · by_contra hj
    rw [List.getElem?_eq_none (by simpa using hj)] at hplace
    cases hplace

/-- Green's release fails, and red and blue are gone: an apply of pure red then drives
green at full brightness, and returns `LAMP_OK`. -/
theorem green_left_shows_red :
    ¬ ∀ (outcome : Nat → HalStatus) (calls : List Call), KeepsColours outcome calls := by
  intro h
  let stuck : Nat → HalStatus := fun n => if n = 7 then .other 1 else .ok
  let rgb : Call := .init (some ⟨none, (some 30, some 31, some 32), 3, 5000, .activeHigh⟩)
  let red : Call := .applyState (some ⟨true, 100, 255, 0, 0⟩) none
  have hp := h stuck [rgb, .deinit, red] [rgb, .deinit] red (List.prefix_refl _) _ _ rfl (by decide)
    ⟨[30, 31, 32], [1]⟩ (by decide) rfl
  have hl : Setup.Last ⟨[30, 31, 32], [1]⟩ 0 31 := by
    refine ⟨⟨1, rfl, rfl⟩, fun i place hi hplace => ?_⟩
    obtain ⟨i, rfl⟩ : ∃ k, i = k + 1 := ⟨i - 1, by omega⟩
    simp at hplace
  exact absurd (hp 0 1 31 rfl hl) (by decide)

end LedLamp.Lamp
