import LedLamp.Lamp.FailedInit
/-!
# What a failed operation leaves behind

`lamp_control_apply_state`, `lamp_control_force_inactive` and
`lamp_control_deinit` share one contract (`FailureContract`): an error other
than `LAMP_ERR_FAIL_OFF` means that the output is off, `LAMP_ERR_FAIL_OFF` means
that the fail-off ran and some channel could not be forced off, and no error
changes what the lamp recorded but the flag, which can only drop. `FailsOff`
says when an operation runs the fail-off, and from where.
-/

namespace LedLamp.Lamp

/-- An operation on an initialized lamp runs the fail-off, from `m₁` on. -/
inductive FailsOff (m : Machine) : Call → Machine → Prop
  | forceInactive : FailsOff m .forceInactive m
  | blocked (requested : Option LampState) (out : Option LampAppliedState) (hb : m.lamp.failOffBarrier = true) :
      FailsOff m (.applyState requested out) m
  | null (out : Option LampAppliedState) (hb : m.lamp.failOffBarrier = false) : FailsOff m (.applyState none out) m
  | outOfRange (requested : LampState) (out : Option LampAppliedState) (hb : m.lamp.failOffBarrier = false)
      (hv : LAMP_BRIGHTNESS_MAX < requested.brightnessPercent) : FailsOff m (.applyState (some requested) out) m
  | setDuty (requested : LampState) (out : Option LampAppliedState) (k : Nat) (hb : m.lamp.failOffBarrier = false)
      (hv : requested.brightnessPercent ≤ LAMP_BRIGHTNESS_MAX) (hk : k < m.lamp.pins.length)
      (hs : m.hal.outcome (m.hal.calls + k) ≠ .ok) :
      FailsOff m (.applyState (some requested) out) { m with hal := (m.drive requested).2 }
  | release (j : Nat) (hj : j < m.lamp.pins.length) (hs : m.hal.outcome (m.hal.calls + j) ≠ .ok) :
      FailsOff m .deinit (lampReleaseChannels m).2

/-- What an operation promises about its status and the machine after it. -/
structure FailureContract (c : Call) (m : Machine) : Prop where
  /-- An error other than a failed fail-off: everything is off. -/
  off : (c.exec m).1 ≠ .ok → (c.exec m).1 ≠ .errFailOff →
    Off (c.next m).hal.channels ∧ (c.next m).lamp.applied.outputActive = false
  /-- A failed fail-off: it ran, and all three attempts failed on some channel. -/
  failOff : (c.exec m).1 = .errFailOff ↔ ∃ m₁, FailsOff m c m₁ ∧ ∃ j < m₁.lamp.pins.length,
    ForceFails m₁.hal.outcome (failOffEnd m₁.hal.outcome j m₁.hal.calls)
  /-- Each channel is attempted, on the HAL that the channels before it left. -/
  attempts : ∀ m₁, FailsOff m c m₁ → ∀ before pin after, m₁.lamp.pins = before ++ pin :: after →
    (c.next m).hal = (failOffChannels after (forceChannelOff pin (failOffChannels before m₁.hal).2).2).2
  /-- An error leaves the record as it was, but for a flag that drops. -/
  record : (c.exec m).1 ≠ .ok → (c.next m).lamp.applied.power = m.lamp.applied.power ∧
    (c.next m).lamp.applied.brightnessPercent = m.lamp.applied.brightnessPercent ∧
    (c.next m).lamp.applied.red = m.lamp.applied.red ∧ (c.next m).lamp.applied.green = m.lamp.applied.green ∧
    (c.next m).lamp.applied.blue = m.lamp.applied.blue ∧
    ((c.next m).lamp.applied.outputActive = true → m.lamp.applied.outputActive = true)

/-! ## The fail-off -/

/-- The loop goes on whatever a channel answers. -/
theorem failOffChannels_append (before after : List Pin) (h : Hal) :
    (failOffChannels (before ++ after) h).2 = (failOffChannels after (failOffChannels before h).2).2 := by
  induction before generalizing h with
  | nil => rfl
  | cons p before ih => exact ih (forceChannelOff p h).2

/-- The loop reports a failure exactly when all three attempts fail on some channel. -/
theorem failOffChannels_fails (pins : List Pin) (h : Hal) :
    (failOffChannels pins h).1 = false ↔ ∃ j < pins.length, ForceFails h.outcome (failOffEnd h.outcome j h.calls) := by
  induction pins generalizing h with
  | nil => simp [failOffChannels]
  | cons p pins ih =>
    have ho : (forceChannelOff p h).2.outcome = h.outcome := (forceChannelOff_quiet p h).outcome
    have hrest := ih (forceChannelOff p h).2
    rw [ho, forceChannelOff_calls] at hrest
    simp only [failOffChannels, Bool.and_eq_false_iff, decide_eq_false_iff_not, hrest]
    rw [← ne_eq, forceChannelOff_fails]
    constructor
    · rintro (hp | ⟨j, hj, hf⟩)
      · exact ⟨0, by simp, hp⟩
      · exact ⟨j + 1, by simpa using hj, hf⟩
    · rintro ⟨j, hj, hf⟩
      cases j with
      | zero => exact .inl hf
      | succ j => exact .inr ⟨j, by simpa using hj, hf⟩

theorem lampFailOff_fails (m : Machine) : (lampFailOff m).1 = .errFailOff ↔
    ∃ j < m.lamp.pins.length, ForceFails m.hal.outcome (failOffEnd m.hal.outcome j m.hal.calls) := by
  rw [← failOffChannels_fails]
  cases hs : (failOffChannels m.lamp.pins m.hal).1 <;> simp [lampFailOff, hs]

theorem lampFailOff_hal (m : Machine) : (lampFailOff m).2.hal = (failOffChannels m.lamp.pins m.hal).2 := by
  rcases lampFailOff_cases m with e | ⟨e, -⟩ <;> rw [e]

/-- The fail-off leaves the record as it was, but for a flag that drops. -/
theorem lampFailOff_record (m : Machine) : (lampFailOff m).2.lamp.applied = m.lamp.applied ∨
    (lampFailOff m).2.lamp.applied = { m.lamp.applied with outputActive := false } := by
  rcases lampFailOff_cases m with e | ⟨e, -⟩ <;> rw [e]
  · exact .inl rfl
  · exact .inr rfl

theorem failOffThen_ok {m : Machine} {status : LampStatus} (hs : (lampFailOff m).1 = .ok) :
    (failOffThen status m).1 = status := by
  simp [failOffThen, hs]

theorem failOffThen_fails {m : Machine} {status : LampStatus} (hs : (lampFailOff m).1 ≠ .ok) :
    (failOffThen status m).1 = .errFailOff := by
  simp [failOffThen, hs]

theorem lampMapHalStatus_ne_failOff (hs : HalStatus) : lampMapHalStatus hs ≠ .errFailOff := by
  cases hs <;> simp [lampMapHalStatus]

/-! ## The contract, for an operation that fails off -/

/-- What the fail-off does after the operation came to it. -/
structure FailsOffAt (c : Call) (m m₁ : Machine) : Prop where
  here : FailsOff m c m₁
  only : ∀ m₂, FailsOff m c m₂ → m₂ = m₁
  record : m₁.lamp.applied = m.lamp.applied
  hal : (c.next m).hal = (lampFailOff m₁).2.hal
  applied : (c.next m).lamp.applied = (lampFailOff m₁).2.lamp.applied
  fails : (c.exec m).1 = .errFailOff ↔ (lampFailOff m₁).1 = .errFailOff

variable {c : Call} {m m₁ : Machine}

/-- A rejection is a fail-off with a status of its own. -/
theorem FailsOffAt.reject {s : LampStatus} (he : (c.exec m) = failOffThen s m₁) (here : FailsOff m c m₁)
    (only : ∀ m₂, FailsOff m c m₂ → m₂ = m₁) (record : m₁.lamp.applied = m.lamp.applied)
    (hs : s ≠ .errFailOff) : FailsOffAt c m m₁ := by
  have hn : c.next m = (lampFailOff m₁).2 := by rw [Call.next, he, failOffThen_snd]
  refine ⟨here, only, record, by rw [hn], by rw [hn], ?_⟩
  rw [he]
  by_cases hok : (lampFailOff m₁).1 = .ok
  · rw [failOffThen_ok hok, hok]
    exact iff_of_false hs (by simp)
  · rw [failOffThen_fails hok]
    rcases lampFailOff_cases m₁ with e | ⟨e, -⟩
    · rw [e]
    · exact absurd (congrArg Prod.fst e) hok

theorem FailsOffAt.contract (h : FailsOffAt c m m₁) (ht : Tracked m₁) : FailureContract c m where
  off := by
    intro _ hne
    have hok : (lampFailOff m₁).1 = .ok := by
      rcases lampFailOff_cases m₁ with e | ⟨e, -⟩
      · exact absurd (h.fails.2 (congrArg Prod.fst e)) hne
      · exact congrArg Prod.fst e
    refine ⟨by rw [h.hal]; exact lampFailOff_off ht hok, ?_⟩
    rcases lampFailOff_cases m₁ with e | ⟨e, -⟩
    · rw [e] at hok
      cases hok
    · rw [h.applied, e]
  failOff := by
    rw [h.fails, lampFailOff_fails]
    constructor
    · exact fun hf => ⟨m₁, h.here, hf⟩
    · rintro ⟨m₂, h₂, hf⟩
      rwa [h.only m₂ h₂] at hf
  attempts := by
    intro m₂ h₂ before pin after hp
    rw [h.hal, lampFailOff_hal, ← h.only m₂ h₂, hp, failOffChannels_append]
    rfl
  record := by
    intro _
    rw [h.applied, ← h.record]
    rcases lampFailOff_record m₁ with e | e <;> rw [e] <;> simp

/-- An operation that succeeds and does not fail off keeps the contract. -/
theorem FailureContract.of_ok (hs : (c.exec m).1 = .ok) (hn : ∀ m₁, ¬ FailsOff m c m₁) : FailureContract c m where
  off := fun h => absurd hs h
  failOff := by
    rw [hs]
    exact iff_of_false (by simp) fun ⟨m₁, h, _⟩ => hn m₁ h
  attempts := fun m₁ h => absurd h (hn m₁)
  record := fun h => absurd hs h

/-! ## The three operations -/

/-- The loop of the apply stops exactly when some channel's call fails. -/
theorem drive_fails (m : Machine) (requested : LampState) : (m.drive requested).1 ≠ .ok ↔
    ∃ k < m.lamp.pins.length, m.hal.outcome (m.hal.calls + k) ≠ .ok := by
  rcases driveChannels_cases requested m.lamp.pins.length 0 m.lamp.pins m.hal with
    ⟨hok, hall, -⟩ | ⟨hne, -, k, hk, -, hstop, -⟩
  · exact iff_of_false (not_not.2 hok) fun ⟨k, hk, hs⟩ => hs (hall k hk)
  · exact iff_of_true hne ⟨k, hk, hstop⟩

theorem release_fails (m : Machine) : (lampReleaseChannels m).1 ≠ .ok ↔
    ∃ j < m.lamp.pins.length, m.hal.outcome (m.hal.calls + j) ≠ .ok := by
  rw [show (lampReleaseChannels m).1 = (releaseChannels m.lamp.pins m.hal).1 from rfl, ne_eq, releaseChannels_status]
  simp

theorem forceInactive_contract (ht : Tracked m) (hi : m.lamp.initialized = true) :
    FailureContract .forceInactive m := by
  have only : ∀ m₂, FailsOff m .forceInactive m₂ → m₂ = m := fun m₂ h => by cases h; rfl
  have he : Call.forceInactive.exec m = lampControlForceInactive m := rfl
  have hn : Call.forceInactive.next m = (lampControlForceInactive m).2 := rfl
  refine FailsOffAt.contract ⟨.forceInactive, only, rfl, ?_, ?_, ?_⟩ ht
  · rw [hn]
    rcases lampControlForceInactive_cases m with ⟨hi', -⟩ | ⟨-, -, e⟩ | ⟨-, -, e⟩
    · rw [hi] at hi'; cases hi'
    · rw [e]
    · rw [e]
  · rw [hn]
    rcases lampControlForceInactive_cases m with ⟨hi', -⟩ | ⟨-, -, e⟩ | ⟨-, -, e⟩
    · rw [hi] at hi'; cases hi'
    · rw [e]
    · rw [e]
  · rw [he]
    simp [lampControlForceInactive, lampControlForceInactiveLocked, hi]

theorem deinit_contract (ht : Tracked m) (hi : m.lamp.initialized = true) : FailureContract .deinit m := by
  by_cases hs : (lampReleaseChannels m).1 = .ok
  · refine .of_ok (by simp [Call.exec, lampControlDeinit, lampControlDeinitLocked, hi, hs]) ?_
    rintro m₁ ⟨⟩
    exact (release_fails m).2 ⟨_, ‹_›, ‹_›⟩ hs
  · obtain ⟨j, hj, hjs⟩ := (release_fails m).1 hs
    have only : ∀ m₂, FailsOff m .deinit m₂ → m₂ = (lampReleaseChannels m).2 := fun m₂ h => by cases h; rfl
    refine (FailsOffAt.reject (s := lampMapHalStatus (lampReleaseChannels m).1) ?_ (.release j hj hjs) only rfl
      (lampMapHalStatus_ne_failOff _)).contract (lampReleaseChannels_tracked ht hi)
    simp [Call.exec, lampControlDeinit, lampControlDeinitLocked, hi, hs]

theorem applyState_contract (ht : Tracked m) (hi : m.lamp.initialized = true) (requested : Option LampState)
    (out : Option LampAppliedState) : FailureContract (.applyState requested out) m := by
  have rejected : ∀ {status : LampStatus} {m₁ : Machine},
      lampControlApplyState requested out m = ((failOffThen status m₁).1, out, (failOffThen status m₁).2) →
      (Call.applyState requested out).exec m = failOffThen status m₁ := fun e => by simp only [Call.exec, e]
  -- The barrier comes before every check of the request.
  cases hb : m.lamp.failOffBarrier with
  | true =>
    refine (FailsOffAt.reject (s := .errBlockedByFailOff) (rejected ?_) (.blocked requested out hb) ?_ rfl
      (by simp)).contract ht
    · simp [lampControlApplyState, hi, hb]
    · intro m₂ h
      cases h <;> simp_all
  | false =>
    cases requested with
    | none =>
      refine (FailsOffAt.reject (s := .errInvalidArgument) (rejected ?_) (.null out hb) ?_ rfl (by simp)).contract ht
      · simp [lampControlApplyState, lampControlApplyStateLocked, hi, hb]
      · intro m₂ h
        cases h <;> rfl
    | some r =>
      by_cases hv : r.brightnessPercent ≤ LAMP_BRIGHTNESS_MAX
      · have valid : lampStateIsValid r = true := by simpa [lampStateIsValid] using hv
        by_cases hs : (m.drive r).1 = .ok
        · refine .of_ok (by simp [Call.exec, lampControlApplyState, lampControlApplyStateLocked, hi, hb, valid, hs]) ?_
          intro m₁ h
          cases h with
          | blocked _ _ hb' => simp [hb] at hb'
          | outOfRange _ _ _ hv' => exact absurd hv' (UInt8.not_lt.2 hv)
          | setDuty _ _ k _ _ hk hks => exact (drive_fails m r).2 ⟨k, hk, hks⟩ hs
        · obtain ⟨k, hk, hks⟩ := (drive_fails m r).1 hs
          refine (FailsOffAt.reject (s := lampMapHalStatus (m.drive r).1) (rejected ?_) (.setDuty r out k hb hv hk hks)
            ?_ rfl (lampMapHalStatus_ne_failOff _)).contract (drive_tracked ht r _ rfl hi)
          · simp [lampControlApplyState, lampControlApplyStateLocked, hi, hb, valid, hs]
          · intro m₂ h
            cases h with
            | blocked _ _ hb' => simp [hb] at hb'
            | outOfRange _ _ _ hv' => exact absurd hv' (UInt8.not_lt.2 hv)
            | setDuty => rfl
      · have invalid : lampStateIsValid r = false := by simpa [lampStateIsValid] using hv
        refine (FailsOffAt.reject (s := .errOutOfRange) (rejected ?_) (.outOfRange r out hb (UInt8.not_le.1 hv)) ?_ rfl
          (by simp)).contract ht
        · simp [lampControlApplyState, lampControlApplyStateLocked, hi, hb, invalid]
        · intro m₂ h
          cases h with
          | blocked => rfl
          | outOfRange => rfl
          | setDuty _ _ _ _ hv' => exact absurd hv' hv

/-- An apply that fails leaves `*applied_out` alone. -/
theorem applyState_out {requested : Option LampState} {out : Option LampAppliedState}
    (hs : (lampControlApplyState requested out m).1 ≠ .ok) : (lampControlApplyState requested out m).2.1 = out := by
  rcases lampControlApplyState_cases requested out m with
    ⟨-, e⟩ | ⟨-, _, -, -, e⟩ | ⟨-, -, _, -, -, -, _, -, e⟩ | ⟨-, -, _, -, -, -, e⟩ <;> rw [e] at hs ⊢
  exact absurd rfl hs

/-- The failure contract of the lamp operations, from every state an initialized
lamp can be in and for every pattern of HAL failures. -/
theorem failure_contract (hr : Reachable m) (hi : m.lamp.initialized = true) :
    (∀ requested out, FailureContract (.applyState requested out) m ∧
      ((lampControlApplyState requested out m).1 ≠ .ok → (lampControlApplyState requested out m).2.1 = out)) ∧
    FailureContract .forceInactive m ∧ FailureContract .deinit m := by
  have ht := reachable_tracked hr
  exact ⟨fun requested out => ⟨applyState_contract ht hi requested out, applyState_out⟩, forceInactive_contract ht hi,
    deinit_contract ht hi⟩

/-- An RGB lamp whose second fail-off cannot turn green off. -/
theorem failure_contract_rgb :
    let glitch : Nat → HalStatus := fun n => if 7 ≤ n ∧ n ≤ 9 then .other 1 else .ok
    let rgb : Call := .init (some ⟨none, (some 30, some 31, some 32), 3, 5000, .activeHigh⟩)
    let m := run [rgb] (.boot glitch)
    (Call.forceInactive.exec m).1 = .errFailOff ∧
      (∀ requested out, FailureContract (.applyState requested out) m ∧
        ((lampControlApplyState requested out m).1 ≠ .ok → (lampControlApplyState requested out m).2.1 = out)) ∧
      FailureContract .forceInactive m ∧ FailureContract .deinit m := by
  intro glitch rgb m
  exact ⟨by decide, failure_contract (reachable_run (.boot glitch) [rgb]) (by decide)⟩

end LedLamp.Lamp
