import LedLamp.TbApplication.Disconnect
import LedLamp.TbApplication.OtaUpdates
import LedLamp.TbApplication.Requests
/-!
# The firmware hint

An update that carries a firmware key raises `s_tb.firmware_hint`, and
`tb_application_take_firmware_hint` reads and clears it in one section of the mutex.
So of all takes between an `init` and the next `deinit`, on any threads, exactly the
first after a raise reports it (`hint_exact`).
-/

namespace LedLamp.TbApplication

open Conc Lamp
open Mqtt (Tid)

variable {cJsonParse : List UInt8 → Option Json} {build : Build} {t : Tid} {m : Moment}

/-! ## What a trace says -/

def stores (s : Store) : Entry → Bool
  | (_, .did (.store s') _) => s' = s
  | _ => false

/-- The flag was set to true, and not to false since. -/
def SetSince (flag : Bool → Store) : List Entry → Prop :=
  Since (fun e => !stores (flag false) e) fun e _ => stores (flag true) e = true

/-- The hint was raised, and not cleared since. -/
def Raised : List Entry → Prop := SetSince .firmwareHint

/-- An `init` set `initialized`, and no `deinit` cleared it since. -/
def Active : List Entry → Prop := SetSince .initialized

/-- Thread `t`'s take started while the module was active. -/
def TakesActive (t : Tid) : List Entry → Prop :=
  Since (fun e => !isCall t e) fun e past => e = (t, .call .takeFirmwareHint) ∧ Active past

/-- In its call, thread `t` cleared the hint, and found it raised in an active module if
`hint` says so. -/
def Reports (t : Tid) (hint : Bool) : List Entry → Prop :=
  Since (fun e => !isCall t e) fun e past => e = (t, .did (.store (.firmwareHint false)) ()) ∧
    (hint = true ↔ Active past ∧ Raised past)

/-- What the firmware hint promises of each event. -/
structure HintExact (cJsonParse : List UInt8 → Option Json) (t : Tid) (e : Event) (past : List Entry) : Prop where
  ignored : ∀ text s, e = .ret s → lastCall t past = some (.parseState (some text) .update) →
    (s = .parsed .ignored ↔ OnlyOta cJsonParse text)
  raises : ∀ text s, e = .ret s → lastCall t past = some (.parseState (some text) .update) →
    (raise ∈ doneBy t past ↔ AnnouncesFirmware cJsonParse text)
  raised : e = .did (.store (.firmwareHint true)) () →
    ∃ text, lastCall t past = some (.parseState (some text) .update) ∧ AnnouncesFirmware cJsonParse text
  cleared : e = .did (.store (.firmwareHint false)) () → Active past → lastCall t past = some .takeFirmwareHint
  reported : ∀ hint, e = .ret (.bool hint) → TakesActive t past → Reports t hint past

/-! ## The world and the trace -/

/-- `flag` is the assignment to the member `get`. -/
structure Flag (get : TbAppModule → Bool) (flag : Bool → Store) : Prop where
  boot : get .boot = false
  set : ∀ value tb, get ((flag value).set tb) = value
  other : ∀ s tb, (∀ value, s ≠ flag value) → get (s.set tb) = get tb
  create : ∀ tb : TbAppModule, get { tb with lock := true } = get tb

theorem flag_firmwareHint : Flag (·.firmwareHint) .firmwareHint where
  boot := rfl
  set _ _ := rfl
  other s _ h := by
    cases s with
    | firmwareHint value => exact absurd rfl (h value)
    | _ => rfl
  create _ := rfl

theorem flag_initialized : Flag (·.initialized) .initialized where
  boot := rfl
  set _ _ := rfl
  other s _ h := by
    cases s with
    | initialized value => exact absurd rfl (h value)
    | _ => rfl
  create _ := rfl

section Flags
variable {get : TbAppModule → Bool} {flag : Bool → Store}

/-- An event other than its assignments leaves a flag as it is. -/
theorem Flag.same (hf : Flag get flag) {e : Event} {w w' : World} (h : Changes t e w w')
    (hne : ∀ value, e ≠ .did (.store (flag value)) ()) : get w'.tb = get w.tb := by
  rcases h.tb with h' | ⟨s, rfl, h'⟩ | ⟨-, h'⟩
  · rw [h']
  · rw [h']
    refine hf.other s _ fun value hs => ?_
    subst hs
    exact hne value rfl
  · rw [h', hf.create]

/-- A flag is set where the trace says so. -/
theorem Flag.setSince (hf : Flag get flag) {K : Promise} (hm : Hist (system cJsonParse build) Boot K m) :
    get m.world.tb = true ↔ SetSince flag m.trace := by
  have hne : flag true ≠ flag false := by
    intro h
    have := hf.set true .boot
    rw [h, hf.set] at this
    cases this
  induction hm with
  | start hw =>
    obtain ⟨lamp, -, rfl⟩ := hw
    exact iff_of_false (by simp [World.boot, hf.boot]) id
  | @step m t e w _ he _ ih =>
    rw [Moment.after_world, Moment.after_trace, SetSince, since_cons]
    -- Only a store of this flag moves it, and the store itself is what the trace is read for.
    by_cases h : ∃ value, e = .did (.store (flag value)) ()
    · obtain ⟨value, rfl⟩ := h
      obtain rfl : _ = w := Option.some.inj he
      rw [hf.set]
      cases value with
      | true => simp [stores]
      | false => simp [stores, hne.symm]
    · have hno : ∀ value, stores (flag value) (t, e) = false := by
        intro value
        cases e with
        | did o r =>
          cases o with
          | store s => exact decide_eq_false fun hs => h ⟨value, by rw [hs]⟩
          | _ => rfl
        | _ => rfl
      rw [hf.same (effect_changes he) fun value he => h ⟨value, he⟩]
      exact ih.trans (by simp [hno, SetSince])

end Flags

/-! ## The promise -/

/-- Both flags are written under the mutex only, and `initialized` is set once the mutex
exists. The hint is raised by an update with a firmware key, and cleared by a take or
before the module is active. A take reports what it found. -/
def HintHeld (cJsonParse : List UInt8 → Option Json) : Promise := fun t e m =>
  match e with
  | .did (.store (.firmwareHint true)) _ => Inside t m ∧
      ∃ text, lastCall t m.trace = some (.parseState (some text) .update) ∧ AnnouncesFirmware cJsonParse text
  | .did (.store (.firmwareHint false)) _ => Inside t m ∧
      (m.world.tb.initialized = true → lastCall t m.trace = some .takeFirmwareHint)
  | .did (.store (.initialized value)) _ => Inside t m ∧ (value = true → m.world.tb.lock = true)
  | .ret (.bool hint) => TakesActive t m.trace → Reports t hint m.trace
  | _ => True

/-- A write of one of the two flags. -/
def Op.guarded : Op → Bool
  | .store (.firmwareHint _) | .store (.initialized _) => true
  | _ => false

/-- The mutex exists. -/
def Up (m : Moment) : Prop := m.world.tb.lock = true

theorem Up.after {t : Tid} {e : Event} {w : World} (he : effect t e m.world = some w) (h : Up m) : Up (m.after t e w) := by
  unfold Up at h ⊢
  rw [Moment.after_world]
  rcases (effect_changes he).tb with h' | ⟨s, -, h'⟩ | ⟨-, h'⟩
  · rw [h', h]
  · rw [h']
    cases s <;> exact h
  · rw [h']

/-- The module is active only once the mutex exists. -/
theorem initialized_up {K : Promise} (hm : Hist (system cJsonParse build) Boot (K.and (HintHeld cJsonParse)) m)
    (hi : m.world.tb.initialized = true) : Up m := by
  induction hm with
  | start hw =>
    obtain ⟨lamp, -, rfl⟩ := hw
    cases hi
  | @step m t e w hm he hp ih =>
    by_cases h : ∃ value, e = .did (.store (.initialized value)) ()
    · obtain ⟨value, rfl⟩ := h
      obtain rfl : _ = w := Option.some.inj he
      exact Up.after he (hp.2.2 hi)
    · rw [Moment.after_world, flag_initialized.same (effect_changes he) fun value he => h ⟨value, he⟩] at hi
      exact (ih hi).after he

section Walk
variable {K : Promise}

theorem stable_up : Stable (system cJsonParse build) Boot K (HintHeld cJsonParse) t Up :=
  fun _ _ _ _ _ hd _ h => h.after (happens hd)

/-- Only a call of `t` starts a take. -/
theorem takesActive_skip {entry : Entry} {past : List Entry} (hc : isCall t entry = false) :
    TakesActive t (entry :: past) ↔ TakesActive t past := by
  refine since_skip (by simp [hc]) ?_
  rintro ⟨rfl, -⟩
  simp [isCall] at hc

theorem takesActive_call {past : List Entry} (h : TakesActive t past) : lastCall t past = some .takeFirmwareHint := by
  induction past with
  | nil => cases h
  | cons entry past ih =>
    rcases h with ⟨rfl, -⟩ | ⟨hc, h⟩
    · exact lastCall_call t _ past
    · obtain ⟨t', e⟩ := entry
      cases e with
      | call c =>
        have ht : t' ≠ t := by simpa [isCall] using hc
        rw [lastCall_other ht]
        exact ih h
      | _ => exact ih h

/-- Thread `t` is in call `c`; if that is a take that started while the module was active,
the mutex exists. -/
def During (t : Tid) (c : Call) (m : Moment) : Prop := lastCall t m.trace = some c ∧ (TakesActive t m.trace → Up m)

/-- An event that is no call of `t` leaves it in its call. -/
theorem During.after {c : Call} {t' : Tid} {e : Event} {w : World} (he : effect t' e m.world = some w)
    (hc : isCall t (t', e) = false) (h : During t c m) : During t c (m.after t' e w) := by
  refine ⟨?_, fun hs => (h.2 ((takesActive_skip hc).1 hs)).after he⟩
  rw [Moment.after_trace, ← h.1]
  cases e with
  | call c' => exact lastCall_other (of_decide_eq_false hc) _
  | _ => rfl

theorem isCall_other {t' : Tid} (ht : t' ≠ t) (e : Event) : isCall t (t', e) = false := by
  cases e <;> simp [isCall, ht]

theorem stable_during {c : Call} : Stable (system cJsonParse build) Boot K (HintHeld cJsonParse) t (During t c) :=
  fun _ e _ _ ht hd _ h => h.after (happens hd) (isCall_other ht e)

/-- Inside a section of `t`, with the two flags as in `tb`. -/
def Seen (t : Tid) (tb : TbAppModule) (m : Moment) : Prop :=
  Inside t m ∧ m.world.tb.initialized = tb.initialized ∧ m.world.tb.firmwareHint = tb.firmwareHint

/-- No other thread writes a guarded flag inside a section of `t`. -/
theorem unguarded_of_inside {t' : Tid} {e : Event} (ht : t' ≠ t) (hp : HintHeld cJsonParse t' e m) (hi : Inside t m) :
    (∀ value, e ≠ .did (.store (.initialized value)) ()) ∧ ∀ value, e ≠ .did (.store (.firmwareHint value)) () := by
  -- The promise of a write puts its thread inside, where `t` is.
  have other : m.world.lock ≠ some t' := fun h => ht (Option.some.inj (h.symm.trans hi))
  constructor
  · rintro value rfl
    exact other hp.1
  · rintro value rfl
    cases value <;> exact other hp.1

theorem stable_seen (tb : TbAppModule) : Stable (system cJsonParse build) Boot K (HintHeld cJsonParse) t (Seen t tb) := by
  intro t' e m w ht hd hp h
  obtain ⟨hinit, hhint⟩ := unguarded_of_inside ht hp h.1
  exact ⟨stable_inside t' e m w ht hd hp h.1, (flag_initialized.same (changes hd) hinit).trans h.2.1,
    (flag_firmwareHint.same (changes hd) hhint).trans h.2.2⟩

/-- An operation of no concern keeps the promise. -/
theorem unguarded_held {o : Op} (ho : o.guarded = false) (r : Res o) : HintHeld cJsonParse t (.did o r) m := by
  cases o with
  | store s =>
    cases s with
    | firmwareHint value => cases ho
    | initialized value => cases ho
    | _ => trivial
  | _ => trivial

/-- A step that is not a return, from an assertion it keeps. -/
theorem keeps_unguarded {A : Moment → Prop} {o : Op} (ho : o.guarded = false)
    (hA : ∀ m r w, effect t (.did o r) m.world = some w → A m → A (m.after t (.did o r) w)) :
    Keeps (system cJsonParse build) Boot K (HintHeld cJsonParse) t A o :=
  fun m r w hd h => ⟨unguarded_held ho r, hA m r w (happens hd) h⟩

/-- A program that writes neither flag. -/
theorem unguarded_free {α : Type} {A : Moment → Prop} {p : Act α} (hp : p.Uses (·.guarded = false)) :
    Triple (system cJsonParse build) Boot K (HintHeld cJsonParse) t A p fun _ _ => True :=
  .free (hp.mono fun _ ho => keeps_unguarded ho fun _ _ _ _ h => h)

/-- A footprint without the two writes. -/
theorem unguarded_uses {α : Type} {P : Op → Bool} {p : Act α} (hp : p.Uses (P · = true))
    (hhint : ∀ value, P (.store (.firmwareHint value)) = false)
    (hinit : ∀ value, P (.store (.initialized value)) = false) : p.Uses (·.guarded = false) := by
  refine hp.mono fun o ho => ?_
  unfold Op.guarded
  split
  · rw [hhint] at ho
    cases ho
  · rw [hinit] at ho
    cases ho
  · rfl

/-! ### The steps -/

/-- After the mutex is taken, `t` is inside. -/
theorem take_inside {α : Type} {A : Moment → Prop} {k : Unit → Act α} {Q : α → Moment → Prop}
    (hA : Stable (system cJsonParse build) Boot K (HintHeld cJsonParse) t A)
    (hk : Triple (system cJsonParse build) Boot K (HintHeld cJsonParse) t (fun m => Inside t m ∧ A m) (k ()) Q)
    (hkeep : ∀ m w, effect t (.did .osalMutexTake ()) m.world = some w → A m → A (m.after t (.did .osalMutexTake ()) w)) :
    Triple (system cJsonParse build) Boot K (HintHeld cJsonParse) t A (.op .osalMutexTake k) Q := by
  refine .op (fun _ m => Inside t m ∧ A m) hA ?_ fun _ => hk
  intro m r w hd h
  refine ⟨trivial, ?_, hkeep m w (happens hd) h⟩
  obtain ⟨-, rfl⟩ := effect_take (happens hd)
  rfl

/-- The scan of an update raises the hint under the mutex, if there is a firmware key. -/
theorem otaOnlyUpdate_held (text : List UInt8) :
    Triple (system cJsonParse build) Boot K (HintHeld cJsonParse) t (During t (.parseState (some text) .update))
      (tbAppIsOtaOnlyUpdate cJsonParse text) fun _ _ => True := by
  unfold tbAppIsOtaOnlyUpdate
  split
  · exact .ret fun _ _ => trivial
  · rename_i hlen
    split
    · rename_i members hparse
      dsimp only
      split
      · rename_i hfirmware
        have hannounces : AnnouncesFirmware cJsonParse text :=
          ⟨_, (updateOf_iff (Nat.not_lt.1 hlen) hparse).2 rfl, otaScan_snd.1 hfirmware⟩
        refine take_inside stable_during ?_ fun m w he h => h.after he rfl
        refine .op (fun _ _ => True) (stable_inside.and stable_during) ?_ fun _ => unguarded_free ⟨rfl, fun _ => trivial⟩
        exact fun m r w hd h => ⟨⟨h.1, text, h.2.1, hannounces⟩, trivial⟩
      · exact .ret fun _ _ => trivial
    · exact .ret fun _ _ => trivial

theorem deinit_held : Triple (system cJsonParse build) Boot K (HintHeld cJsonParse) t (fun _ => True) tbApplicationDeinit
    fun _ _ => True := by
  unfold tbApplicationDeinit
  simp only [Prog.perform_bind]
  refine .keep stable_true (keeps_unguarded rfl fun _ _ _ _ h => h) fun tb => ?_
  split
  · refine .keep stable_true (keeps_unguarded rfl fun _ _ _ _ h => h) fun _ => ?_
    refine take_inside stable_true (.pre (fun _ h => h.1) ?_) fun _ _ _ h => h
    refine .op (fun _ _ => True) stable_inside (fun m r w hd hi => ⟨⟨hi, nofun⟩, trivial⟩) fun _ => ?_
    exact unguarded_free ⟨rfl, fun _ => ⟨rfl, fun _ => ⟨rfl, fun _ => ⟨rfl, fun _ => trivial⟩⟩⟩⟩
  · exact .ret fun _ h => h

/-! ### `tb_application_init` -/

/-- Inside a section of `t`, with the mutex there and the module not yet active. -/
def Fresh (t : Tid) (m : Moment) : Prop := Inside t m ∧ Up m ∧ m.world.tb.initialized = false

theorem stable_fresh : Stable (system cJsonParse build) Boot K (HintHeld cJsonParse) t (Fresh t) := by
  intro t' e m w ht hd hp h
  obtain ⟨hinit, -⟩ := unguarded_of_inside ht hp h.1
  exact ⟨stable_inside t' e m w ht hd hp h.1, h.2.1.after (happens hd),
    (flag_initialized.same (changes hd) hinit).trans h.2.2⟩

/-- A write of another member. -/
theorem store_fresh {s : Store} {α : Type} {k : Unit → Act α} {Q : α → Moment → Prop} (hs : Op.guarded (.store s) = false)
    (hk : Triple (system cJsonParse build) Boot K (HintHeld cJsonParse) t (Fresh t) (k ()) Q) :
    Triple (system cJsonParse build) Boot K (HintHeld cJsonParse) t (Fresh t) (.op (.store s) k) Q := by
  refine .keep stable_fresh (keeps_unguarded hs fun m r w he h => ?_) fun _ => hk
  have hinit : ∀ value, (.did (.store s) () : Event) ≠ .did (.store (.initialized value)) () := by
    rintro value he
    cases he
    cases hs
  refine ⟨?_, h.2.1.after he, (flag_initialized.same (effect_changes he) hinit).trans h.2.2⟩
  obtain rfl : _ = w := Option.some.inj he
  exact h.1

theorem initLocked_held (config : TbApplicationConfig) (client : TbClient) :
    Triple (system cJsonParse build) Boot K (HintHeld cJsonParse) t Up (initLocked build config client) fun _ _ => True := by
  unfold initLocked
  simp only [Prog.perform_bind]
  refine take_inside stable_up ?_ fun m w he h => h.after he
  refine .op (fun tb m => Inside t m ∧ Up m ∧ m.world.tb.initialized = tb.initialized)
    (stable_inside.and stable_up) ?_ fun tb => ?_
  · intro m tb w hd h
    obtain ⟨rfl, rfl⟩ := effect_load (happens hd)
    exact ⟨trivial, h.1, h.2, rfl⟩
  split
  · exact unguarded_free ⟨rfl, fun _ => trivial⟩
  · rename_i hinit
    refine .pre (B := Fresh t) (fun m h => ⟨h.1, h.2.1, h.2.2.trans (Bool.eq_false_iff.2 hinit)⟩) ?_
    refine store_fresh rfl <| store_fresh rfl <| store_fresh rfl <| store_fresh rfl <| store_fresh rfl <|
      store_fresh rfl <| store_fresh rfl <| store_fresh rfl ?_
    -- The hint is cleared while `initialized` is still false, and only then it is set.
    refine .op (fun _ => Fresh t) stable_fresh ?_ fun _ => .op (fun _ _ => True) stable_fresh ?_ fun _ => ?_
    · intro m r w hd h
      refine ⟨⟨h.1, fun hi => ?_⟩, ?_⟩
      · rw [h.2.2] at hi
        cases hi
      · obtain rfl : _ = w := Option.some.inj (happens hd)
        exact h
    · exact fun m r w hd h => ⟨⟨h.1, fun _ => h.2.1⟩, trivial⟩
    refine .keep stable_true (keeps_unguarded rfl fun _ _ _ _ h => h) fun _ => ?_
    refine .keep stable_true (keeps_unguarded rfl fun _ _ _ _ h => h) fun status => ?_
    have hregister := unguarded_uses (registerRpcHandlers_uses (rpcMethods build) status) (fun _ => rfl) fun _ => rfl
    refine .bind (fun _ _ => True) (unguarded_free hregister) fun status => ?_
    split
    -- A registration that failed takes `initialized` back, in a section of its own.
    · refine .keep stable_true (keeps_unguarded rfl fun _ _ _ _ h => h) fun _ => ?_
      refine take_inside stable_true (.pre (fun _ h => h.1) ?_) fun _ _ _ h => h
      refine .op (fun _ _ => True) stable_inside (fun m r w hd hi => ⟨⟨hi, nofun⟩, trivial⟩) fun _ => ?_
      exact unguarded_free ⟨rfl, fun _ => ⟨rfl, fun _ => trivial⟩⟩
    · exact .ret fun _ h => h

theorem init_held (config : Option TbApplicationConfig) :
    Triple (system cJsonParse build) Boot K (HintHeld cJsonParse) t (fun _ => True) (tbApplicationInit build config)
      fun _ _ => True := by
  unfold tbApplicationInit
  split
  · exact .ret fun _ h => h
  split
  · exact .ret fun _ h => h
  simp only [Prog.perform_bind]
  refine .op (fun tb m => tb.lock = true → Up m) stable_true ?_ fun tb => ?_
  · intro m tb w hd _
    obtain ⟨rfl, rfl⟩ := effect_load (happens hd)
    exact ⟨trivial, fun h => h⟩
  split
  · rename_i hlock
    exact .pre (fun m h => h hlock) (initLocked_held _ _)
  · refine .op (fun created m => created = true → Up m) ?_ ?_ fun created => ?_
    · exact fun t' e m w ht hd hp h hl => stable_up t' e m w ht hd hp (h hl)
    · intro m created w hd _
      refine ⟨trivial, ?_⟩
      rintro rfl
      obtain rfl : _ = w := Option.some.inj (happens hd)
      rfl
    split
    · rename_i hcreated
      exact .pre (fun m h => h hcreated) (initLocked_held _ _)
    · exact .ret fun _ _ => trivial

/-! ### `tb_application_take_firmware_hint` -/

theorem stable_reports (hint : Bool) :
    Stable (system cJsonParse build) Boot K (HintHeld cJsonParse) t fun m => Reports t hint m.trace :=
  fun _ e _ _ ht _ _ h => .later (by simp [isCall_other ht e]) h

/-- The take clears the hint and reports what the flags were. -/
theorem clear_reports {tb : TbAppModule} (hm : Hist (system cJsonParse build) Boot (K.and (HintHeld cJsonParse)) m)
    (h : Seen t tb m) :
    Reports t (tb.initialized && tb.firmwareHint) ((t, .did (.store (.firmwareHint false)) ()) :: m.trace) := by
  refine .now ⟨rfl, ?_⟩
  rw [Bool.and_eq_true, ← h.2.1, ← h.2.2, flag_initialized.setSince hm, flag_firmwareHint.setSince hm]
  exact Iff.rfl

theorem takeFirmwareHint_held :
    Triple (system cJsonParse build) Boot K (HintHeld cJsonParse) t (During t .takeFirmwareHint) tbApplicationTakeFirmwareHint
      fun hint m => TakesActive t m.trace → Reports t hint m.trace := by
  unfold tbApplicationTakeFirmwareHint
  simp only [Prog.perform_bind]
  refine .op (fun tb m => During t .takeFirmwareHint m ∧ (tb.lock = false → ¬ TakesActive t m.trace))
    stable_during ?_ fun tb => ?_
  · intro m tb w hd h
    obtain ⟨rfl, rfl⟩ := effect_load (happens hd)
    have h' := h.after (happens hd) rfl
    refine ⟨trivial, h', fun hl hs => ?_⟩
    have hup : m.world.tb.lock = true := h'.2 hs
    rw [hl] at hup
    cases hup
  split
  · refine .pre (fun _ h => h.1) (take_inside stable_during ?_ fun m w he h => h.after he rfl)
    refine .op (fun tb m => During t .takeFirmwareHint m ∧ Seen t tb m) (stable_inside.and stable_during) ?_ fun tb => ?_
    · intro m tb w hd h
      obtain ⟨rfl, rfl⟩ := effect_load (happens hd)
      exact ⟨trivial, h.2.after (happens hd) rfl, h.1, rfl, rfl⟩
    refine .op (fun _ m => Reports t (tb.initialized && tb.firmwareHint) m.trace)
      (stable_during.and (stable_seen tb)) ?_ fun _ => ?_
    · exact fun m r w hd h => ⟨⟨h.2.1, fun _ => h.1.1⟩, clear_reports hd.hist h.2⟩
    refine .keep (stable_reports _) (keeps_unguarded rfl fun m r w _ h => .later rfl h) fun _ => ?_
    exact .ret fun _ h _ => h
  · rename_i hlock
    exact .ret fun m h hs => absurd hs (h.2 (Bool.eq_false_iff.2 hlock))

/-! ### The calls -/

/-- If the call is a take that started while the module was active, its answer is reported. -/
def Answers (t : Tid) (c : Call) (s : Ret) (m : Moment) : Prop :=
  ∀ hint, s = .bool hint → c = .takeFirmwareHint → TakesActive t m.trace → Reports t hint m.trace

theorem body_held (c : Call) :
    Triple (system cJsonParse build) Boot K (HintHeld cJsonParse) t (During t c) (body cJsonParse build c) (Answers t c) := by
  -- The calls other than a take have nothing to answer.
  have other : ∀ {p : Act Ret}, c ≠ .takeFirmwareHint →
      Triple (system cJsonParse build) Boot K (HintHeld cJsonParse) t (During t c) p (fun _ _ => True) →
      Triple (system cJsonParse build) Boot K (HintHeld cJsonParse) t (During t c) p (Answers t c) :=
    fun hc hp => hp.conseq (fun _ _ h => h) fun _ _ _ _ _ _ h => absurd h hc
  have free : ∀ {p : Act Ret}, c ≠ .takeFirmwareHint → p.Uses (·.guarded = false) →
      Triple (system cJsonParse build) Boot K (HintHeld cJsonParse) t (During t c) p (Answers t c) :=
    fun hc hp => other hc (unguarded_free hp)
  cases c with
  | takeFirmwareHint =>
    refine takeFirmwareHint_held.bind _ fun hint => .ret fun m h hint' e _ hs => ?_
    cases e
    exact h hs
  | init config => exact other nofun ((init_held config).pre (fun _ _ => trivial) |>.bind _ fun _ => .ret fun _ h => h)
  | deinit => exact other nofun (deinit_held.pre (fun _ _ => trivial) |>.bind _ fun _ => .ret fun _ h => h)
  | parseState json source =>
    refine other nofun (Triple.bind (fun _ _ => True) ?_ fun _ => .ret fun _ h => h)
    unfold tbAppParseStateCallback
    cases source with
    | update =>
      cases json with
      | none => exact .ret fun _ _ => trivial
      | some text =>
        refine (otaOnlyUpdate_held text).bind _ fun only => ?_
        split <;> exact .ret fun _ h => h
    | _ => exact .ret fun _ _ => trivial
  | onConnected client =>
    have h := unguarded_uses (tbApplicationOnConnected_uses client) (fun _ => rfl) fun _ => rfl
    exact free nofun (h.bind fun _ => trivial)
  | onDisconnected client =>
    have h := unguarded_uses (tbApplicationOnDisconnected_uses client) (fun _ => rfl) fun _ => rfl
    exact free nofun (h.bind fun _ => trivial)
  | setOutputSuspended suspended =>
    have h := unguarded_uses (tbApplicationSetOutputSuspended_uses suspended) (fun _ => rfl) fun _ => rfl
    exact free nofun (h.bind fun _ => trivial)
  | applyState state outputSuspended =>
    have h := unguarded_uses (tbAppApplyState_uses state outputSuspended) (fun _ => rfl) fun _ => rfl
    exact free nofun (h.bind fun _ => trivial)
  | publishAppliedAttributes state =>
    have h := unguarded_uses (tbAppPublishAppliedAttributes_uses build state) (fun _ => rfl) fun _ => rfl
    exact free nofun (h.bind fun _ => trivial)
  | onServerRpc entry paramsJson requestId =>
    have h := unguarded_uses (tbAppOnServerRpc_uses cJsonParse build requestId entry paramsJson) (fun _ => rfl) fun _ => rfl
    exact free nofun (h.bind fun _ => trivial)
  | otaOnIndicator on => exact free nofun ⟨rfl, fun _ => ⟨rfl, fun _ => trivial⟩⟩
  | mqttCfgOnDisconnect => exact free nofun ⟨rfl, fun _ => ⟨rfl, fun _ => ⟨rfl, fun _ => trivial⟩⟩⟩
  | transportConnected => exact free nofun trivial
  | lampControl call => exact free nofun ⟨rfl, fun _ => trivial⟩

theorem stable_answers (c : Call) (s : Ret) :
    Stable (system cJsonParse build) Boot K (HintHeld cJsonParse) t (Answers t c s) := by
  intro t' e m w ht hd hp h hint hs hc htake
  have hcall := isCall_other ht e
  exact .later (by simp [hcall]) (h hint hs hc ((takesActive_skip hcall).1 htake))

end Walk

/-- Every run keeps the promise. -/
theorem hint_held (cJsonParse : List UInt8 → Option Json) (build : Build) :
    Established (system cJsonParse build) Boot (Promise.and (fun _ _ _ => True) (HintHeld cJsonParse)) := by
  refine established established_true fun t c => ?_
  have hlast : Stable (system cJsonParse build) Boot (fun _ _ _ => True) (HintHeld cJsonParse) t
      fun m => lastCall t m.trace = some c :=
    fun _ e _ _ ht _ _ h => (lastCall_other ht e).trans h
  refine Fulfils.of_triple (fun m => During t c m ∧ lastCall t m.trace = some c)
    (fun s m => Answers t c s m ∧ lastCall t m.trace = some c) ?_ ((body_held c).frame hlast fun _ _ _ _ _ h => h)
    (fun s => (stable_answers c s).and hlast) ?_
  · intro m w hd
    have hcall := lastCall_call t c m.trace
    refine ⟨trivial, ⟨hcall, fun hs => ?_⟩, hcall⟩
    rcases hs with ⟨-, hactive⟩ | ⟨hc, -⟩
    · exact (initialized_up hd.hist ((flag_initialized.setSince hd.hist).2 hactive)).after (happens hd)
    · simp [isCall] at hc
  · rintro s m w hd ⟨h, hcall⟩
    cases s with
    | bool hint =>
      intro htake
      exact h hint rfl (Option.some.inj (hcall.symm.trans (takesActive_call htake))) htake
    | _ => trivial

/-! ## Runs -/

/-- In every run, on any threads: exactly the updates that carry only OTA keys are
ignored, exactly those that carry a firmware key raise the hint, and while the module
is active only a take clears it, which reports whether it was raised since it was last cleared. -/
theorem hint_exact {c c' : Config} (hr : (system cJsonParse build).Run Boot c) {e : Event}
    (hs : (system cJsonParse build).step c (t, e) = some c') : HintExact cJsonParse t e c.trace := by
  have hheld := hint_held cJsonParse build
  have hp := (hheld c t e c' hr hs).2
  -- A call that returns did a path of its program.
  have path : ∀ text s, e = .ret s → lastCall t c.trace = some (.parseState (some text) .update) →
      (body cJsonParse build (.parseState (some text) .update)).Path (doneBy t c.trace) s := by
    rintro text s rfl hcall
    obtain ⟨call, hcall', hpath⟩ := returns_path hr hs
    obtain rfl := Option.some.inj (hcall'.symm.trans hcall)
    exact hpath
  refine ⟨fun text s he hcall => (update_path (path text s he hcall)).1,
    fun text s he hcall => (update_path (path text s he hcall)).2, ?_, ?_, ?_⟩
  · rintro rfl
    exact hp.2
  · rintro rfl hactive
    exact hp.2 ((flag_initialized.setSince (hheld.hist hr)).2 hactive)
  · rintro hint rfl
    exact hp

def firmwareText : List UInt8 := ascii "\x7b\"fw_version\":\"2\",\"power\":true\x7d"

/-- A task starts the call and does this many events of it. -/
def taskDoes (call : Call) (events : Nat) : List (Tid × Option Call) :=
  (.task 0, some call) :: List.replicate events (.task 0, none)

/-- The module is initialized, an update announces firmware, and a take is about to return. -/
def takeTurns : List (Tid × Option Call) :=
  taskDoes (.init (some ⟨some 1, false, none⟩)) 21 ++ taskDoes (.parseState (some firmwareText) .update) 4 ++
    taskDoes .takeFirmwareHint 5

theorem hint_exact_taken : ∃ c c', (system parseFirst pwmBuild).Run Boot c ∧
    (system parseFirst pwmBuild).step c (.task 0, .ret (.bool true)) = some c' ∧
    HintExact parseFirst (.task 0) (.ret (.bool true)) c.trace := by
  have h : ((turns (system parseFirst pwmBuild) obliging takeTurns (System.boot (.boot pwmLamp))).bind fun c =>
      (system parseFirst pwmBuild).step c (.task 0, .ret (.bool true))).isSome = true := by decide +kernel
  obtain ⟨c', h⟩ := Option.isSome_iff_exists.1 h
  obtain ⟨c, hc, hs⟩ := Option.bind_eq_some_iff.1 h
  have hboot : Boot (.boot pwmLamp) := ⟨_, reachable_run (.boot _) _, rfl⟩
  have hr := turns_run (.boot hboot) hc
  exact ⟨c, c', hr, hs, hint_exact hr hs⟩

end LedLamp.TbApplication
