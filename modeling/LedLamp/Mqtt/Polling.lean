import LedLamp.Mqtt.Discipline
/-!
# The poll loop up to the release

Only an iteration of a connect's poll loop releases the lamp's fail-off barrier. The
rules here follow it from its reads to the release for any promise about the
moments of release, so that a proof has to say only what it carries along.
-/

namespace LedLamp.Mqtt

open Conc Lamp

variable (parse : List UInt8 → Option Json)

/-! ## Promises about the release -/

/-- A promise about the moments at which a thread releases the barrier. -/
def Releasing (P : Tid → Moment → Prop) : Promise := fun t e m =>
  match e with
  | .did .lampControlReleaseFailOff _ => P t m
  | _ => True

section Releasing
variable {parse} {P : Tid → Moment → Prop} {t : Tid}

/-- Any step but the release keeps the promise. -/
theorem releasing_did {o : Op} (ho : o ≠ .lampControlReleaseFailOff) (r : Res o) (m : Moment) :
    Releasing P t (.did o r) m := by
  cases o with
  | lampControlReleaseFailOff => exact absurd rfl ho
  | _ => trivial

theorem keeps_silent {o : Op} (ho : o ≠ .lampControlReleaseFailOff) :
    Keeps (system parse) Boot Base (Releasing P) t (fun _ => True) o :=
  fun m r _ _ _ => ⟨releasing_did ho r m, trivial⟩

theorem free_silent {α : Type} {p : Act α} {A : Assertion} (hp : p.Uses (· ≠ .lampControlReleaseFailOff)) :
    Triple (system parse) Boot Base (Releasing P) t A p fun _ _ => True :=
  .free (hp.mono fun _ ho => keeps_silent ho)

theorem free_failure {α : Type} {p : Act α} {A : Assertion} (hp : p.Uses (·.byFailure)) :
    Triple (system parse) Boot Base (Releasing P) t A p fun _ _ => True :=
  free_silent (hp.mono fun _ ho => by rintro rfl; cases ho)

/-- Only a connect releases the barrier, so only its program has to be followed. -/
theorem established_releasing (hconnect : ∀ t timeoutMs, t ≠ .transport →
    Triple (system parse) Boot Base (Releasing P) t (fun _ => True) (mqttCfgConnect timeoutMs) fun _ _ => True) :
    Established (system parse) Boot (Base.and (Releasing P)) := by
  refine established (base parse) fun t c m w hd => ?_
  have hother : (∀ timeoutMs, c ≠ .connect timeoutMs) →
      Triple (system parse) Boot Base (Releasing P) t (fun _ => True) (body parse c) fun _ _ => True := by
    refine fun hne => free_silent ((body_uses parse c).mono fun o ho => ?_)
    rintro rfl
    cases c with
    | connect timeoutMs => exact hne timeoutMs rfl
    | _ => cases ho
  have hbody : Triple (system parse) Boot Base (Releasing P) t (fun _ => True) (body parse c) fun _ _ => True := by
    cases c with
    | connect timeoutMs =>
      rcases effect_call hd.effect with ⟨-, hc, -⟩ | ⟨ht, -, -⟩
      · simp [World.callsBack, Call.isCallback] at hc
      · exact (hconnect t timeoutMs ht).bind _ fun _ => .ret fun _ _ => trivial
    | _ => exact hother (by simp)
  exact Fulfils.of_triple (fun _ => True) (fun _ _ => True) (fun m w _ => ⟨trivial, trivial⟩) hbody
    (fun _ => stable_true) (fun _ _ _ _ _ => trivial) m w hd

end Releasing

/-! ## An iteration of the poll loop -/

/-- The transport matched the verified snapshot when `t` last compared it, which was
since it took the lock. -/
def Matched (t : Tid) : List Entry → Prop :=
  Since (fun e => !isDid t .lock e && !isDid t .mqttConfigVerifiedIsCurrent e)
    fun e _ => e = (t, .did .mqttConfigVerifiedIsCurrent true)

/-- The steps of the poll loop up to the release. -/
def Op.byPoll : Op → Bool
  | .lock | .unlock | .osalTaskDelayMs _ | .loadGen _ | .load .connectFailed | .mqttAppIsConnected
  | .mqttConfigVerifiedIsCurrent | .readVerifiedApplied | .store .waitingForConnection false => true
  | _ => false

/-- The steps of an iteration after its reads of the generations. -/
def Op.afterRead : Op → Bool
  | .load .connectFailed | .mqttAppIsConnected | .mqttConfigVerifiedIsCurrent | .readVerifiedApplied
  | .store .waitingForConnection false => true
  | _ => false

theorem afterRead_byPoll {o : Op} (h : o.afterRead = true) : o.byPoll = true := by
  unfold Op.afterRead at h
  split at h <;> first | rfl | cases h

theorem isDid_afterRead {t t' : Tid} {o : Op} (ho : o.afterRead = true) (r : Res o) :
    isDid t (.loadGen .connected) (t', .did o r) = false := by
  have hne : o ≠ .loadGen .connected := by rintro rfl; cases ho
  simp [hne]

/-- Inside an iteration that read the generations `r` and `c`: `A` holds of the loop,
and `C c asked` of the iteration, with `asked` once the transport said it is connected. -/
structure Iterating (t : Tid) (A : Assertion) (C : UInt32 → Bool → Assertion) (r c : UInt32) (asked : Bool)
    (m : Moment) : Prop where
  locked : Locked t m
  gen : m.world.gen .apply = r
  outer : A m
  inner : C c asked m

/-- What an iteration knows where it releases the barrier. -/
structure Accepting (t : Tid) (C : UInt32 → Bool → Assertion) (m : Moment) : Prop where
  latch : m.world.verifiedApplied = true
  matched : Matched t m.trace
  connected : ∃ c, c ≠ 0 ∧ m.world.gen .apply = c ∧ C c true m

section Iteration
variable {parse} {P : Tid → Moment → Prop} {t : Tid} {A : Assertion} {C : UInt32 → Bool → Assertion}

/-- Under the lock no one else raises the generation. -/
theorem stable_gen {Φ : Promise} {r : UInt32} :
    Stable (system parse) Boot Base Φ t fun m => Locked t m ∧ m.world.gen .apply = r := by
  intro t' e m w ht hd hp h
  refine ⟨stable_locked t' e m w ht hd hp h.1, ?_⟩
  rcases (changes hd).gen .apply with e' | ⟨v, rfl, -⟩
  · exact e'.trans h.2
  · have hl : m.world.lock = some t' := hd.known.2.1
    rw [h.1] at hl
    cases hl; exact absurd rfl ht

/-- Nor writes the latch. -/
theorem stable_latch {Φ : Promise} {b : Bool} :
    Stable (system parse) Boot Base Φ t fun m => Locked t m ∧ m.world.verifiedApplied = b := by
  intro t' e m w ht hd hp h
  refine ⟨stable_locked t' e m w ht hd hp h.1, ?_⟩
  rcases (changes hd).verifiedApplied with e' | ⟨v, rfl, -⟩
  · exact e'.trans h.2
  · have hl : m.world.lock = some t' := hd.known.2.1
    rw [h.1] at hl
    cases hl; exact absurd rfl ht

theorem stable_matched {Φ : Promise} : Stable (system parse) Boot Base Φ t fun m => Matched t m.trace :=
  fun _ e _ _ ht _ _ h => h.later (by simp [isDid_other ht])

/-- How a promise about the release is kept: `A` holds throughout the loop, and `C` is
set up by the read of the connected generation and by the answer that the
transport is connected. -/
structure Carries (parse : List UInt8 → Option Json) (P : Tid → Moment → Prop) (t : Tid) (A : Assertion)
    (C : UInt32 → Bool → Assertion) : Prop where
  outer : Stable (system parse) Boot Base (Releasing P) t A
  keeps : ∀ o : Op, o.byPoll = true → Keeps (system parse) Boot Base (Releasing P) t A o
  inner : ∀ c asked, Stable (system parse) Boot Base (Releasing P) t fun m => Locked t m ∧ C c asked m
  after : ∀ c asked, ∀ o : Op, o.afterRead = true → ∀ m r w,
    Does (system parse) Boot Base (Releasing P) t (.did o r) m w → C c asked m → C c asked (m.after t (.did o r) w)
  read : ∀ m c w, Does (system parse) Boot Base (Releasing P) t (.did (.loadGen .connected) c) m w → A m →
    C c false (m.after t (.did (.loadGen .connected) c) w)
  asked : ∀ m c w, Does (system parse) Boot Base (Releasing P) t (.did .mqttAppIsConnected true) m w →
    C c false m → C c true (m.after t (.did .mqttAppIsConnected true) w)
  release : ∀ m, Accepting t C m → P t m

variable {r c : UInt32} {asked : Bool}

theorem stable_iterating (h : Carries parse P t A C) :
    Stable (system parse) Boot Base (Releasing P) t (Iterating t A C r c asked) := by
  intro t' e m w ht hd hp hi
  have hg := stable_gen t' e m w ht hd hp ⟨hi.locked, hi.gen⟩
  exact ⟨hg.1, hg.2, h.outer t' e m w ht hd hp hi.outer, (h.inner c asked t' e m w ht hd hp ⟨hi.locked, hi.inner⟩).2⟩

theorem Iterating.did (h : Carries parse P t A C) {o : Op} {v : Res o} {m : Moment} {w : World} (ho : o.afterRead = true)
    (hd : Does (system parse) Boot Base (Releasing P) t (.did o v) m w) (hi : Iterating t A C r c asked m) :
    Iterating t A C r c asked (m.after t (.did o v) w) := by
  refine ⟨hi.locked.did hd (by rintro rfl; cases ho), ?_, (h.keeps o (afterRead_byPoll ho) m v w hd hi.outer).2,
    h.after c asked o ho m v w hd hi.inner⟩
  rcases (changes hd).gen .apply with e' | ⟨v, e', -⟩
  · exact e'.trans hi.gen
  · cases e'; cases ho

/-- The success branch, from what the iteration has read. -/
theorem pollAccept_releasing (h : Carries parse P t A C) (hr : r ≠ 0) :
    Triple (system parse) Boot Base (Releasing P) t
      (fun m => Iterating t A C r r true m ∧ m.world.verifiedApplied = true ∧ Matched t m.trace) pollAccept
      fun _ _ => True := by
  have stable : Stable (system parse) Boot Base (Releasing P) t
      fun m => Iterating t A C r r true m ∧ m.world.verifiedApplied = true ∧ Matched t m.trace := by
    intro t' e m w ht hd hp hi
    exact ⟨stable_iterating h t' e m w ht hd hp hi.1, (stable_latch t' e m w ht hd hp ⟨hi.1.locked, hi.2.1⟩).2,
      stable_matched t' e m w ht hd hp hi.2.2⟩
  refine .keep stable ?_ fun _ => ?_
  · intro m v w hd hi
    refine ⟨trivial, hi.1.did h rfl hd, ?_, hi.2.2.later (by simp)⟩
    rcases (changes hd).verifiedApplied with e' | ⟨b, e', -⟩
    · exact e'.trans hi.2.1
    · cases e'
  refine .op (fun _ _ => True) stable ?_ fun _ => free_silent ⟨by simp, fun _ => trivial⟩
  exact fun m v w hd hi => ⟨h.release m ⟨hi.2.1, hi.2.2, r, hr, hi.1.gen, hi.1.inner⟩, trivial⟩

theorem pollConnected_releasing (h : Carries parse P t A C) :
    Triple (system parse) Boot Base (Releasing P) t (Iterating t A C r c false) (pollConnected r c)
      fun connected m => Iterating t A C r c connected m ∧ (connected = true → c = r) := by
  unfold pollConnected
  split
  · rename_i heq
    refine .op (fun connected m => Iterating t A C r c connected m ∧ (connected = true → c = r)) (stable_iterating h) ?_
      fun _ => .ret fun _ h => h
    intro m connected w hd hi
    have hi' := hi.did h rfl hd
    cases connected with
    | false => exact ⟨trivial, hi', fun _ => heq⟩
    | true => exact ⟨trivial, ⟨hi'.locked, hi'.gen, hi'.outer, h.asked m c w hd hi.inner⟩, fun _ => heq⟩
  · exact .ret fun m h => ⟨h, by simp⟩

/-- The choice between the success branch and the refusal. -/
theorem pollLatch_releasing (h : Carries parse P t A C) (current : Bool) :
    Triple (system parse) Boot Base (Releasing P) t
      (fun m => Iterating t A C r r true m ∧ (current = true → Matched t m.trace))
      (do if (← act .readVerifiedApplied) && current then pollAccept else pollRefuse) fun _ _ => True := by
  refine .op (fun latch m => Iterating t A C r r true m ∧ (current = true → Matched t m.trace) ∧
    (latch = true → r ≠ 0 ∧ m.world.verifiedApplied = true)) ?_ ?_ fun latch => ?_
  · exact (stable_iterating h).and fun t' e m w ht hd hp hc hcur => stable_matched t' e m w ht hd hp (hc hcur)
  · intro m latch w hd hi
    have hi' := hi.1.did h rfl hd
    obtain ⟨rfl, rfl⟩ := effect_readVerifiedApplied (happens hd)
    refine ⟨trivial, hi', fun hcur => (hi.2 hcur).later (by simp), fun hl => ⟨?_, hl⟩⟩
    exact hi.1.gen ▸ latched_started (hd.hist.mono fun _ _ _ h => h.1) hl
  · show Triple _ _ _ _ _ _ (if (latch && current) = true then pollAccept else pollRefuse) _
    split
    · rename_i hl
      obtain ⟨rfl, rfl⟩ : latch = true ∧ current = true := by simpa using hl
      intro m hm hi
      exact pollAccept_releasing h (hi.2.2 rfl).1 m hm ⟨hi.1, (hi.2.2 rfl).2, hi.2.1 rfl⟩
    · exact free_failure pollRefuse_uses

theorem pollOnce_releasing (h : Carries parse P t A C) (timeoutMs waited : UInt32) {again : Act MqttCfgStatus}
    (hagain : Triple (system parse) Boot Base (Releasing P) t A again fun _ _ => True) :
    Triple (system parse) Boot Base (Releasing P) t A (pollOnce timeoutMs waited again) fun _ _ => True := by
  unfold pollOnce
  simp only [Prog.perform_bind]
  refine .op (fun _ m => Locked t m ∧ A m) h.outer ?_ fun _ => ?_
  · exact fun m v w hd hi => ⟨trivial, locked hd, (h.keeps _ rfl m v w hd hi).2⟩
  refine .op (fun r m => (Locked t m ∧ m.world.gen .apply = r) ∧ A m) (stable_locked.and h.outer) ?_ fun r => ?_
  · intro m v w hd hi
    have ha := (h.keeps _ rfl m v w hd hi.2).2
    obtain ⟨rfl, rfl⟩ := effect_loadGen (happens hd)
    exact ⟨trivial, ⟨hi.1, rfl⟩, ha⟩
  refine .op (fun c => Iterating t A C r c false) (stable_gen.and h.outer) ?_ fun c => ?_
  · intro m c w hd hi
    have ha := (h.keeps _ rfl m c w hd hi.2).2
    have hc := h.read m c w hd hi.2
    obtain ⟨rfl, rfl⟩ := effect_loadGen (happens hd)
    exact ⟨trivial, hi.1.1, hi.1.2, ha, hc⟩
  refine .op (fun _ => Iterating t A C r c false) (stable_iterating h) (fun m v w hd hi => ⟨trivial, hi.did h rfl hd⟩)
    fun failed => ?_
  refine (pollConnected_releasing h).bind _ fun connected => ?_
  refine .op (fun current m => (Iterating t A C r c connected m ∧ (connected = true → c = r)) ∧
    (current = true → Matched t m.trace)) ((stable_iterating h).and (stable_const _)) ?_ fun current => ?_
  · refine fun m v w hd hi => ⟨trivial, ⟨hi.1.did h rfl hd, hi.2⟩, ?_⟩
    rintro rfl
    exact .now rfl
  split
  · rename_i hconn
    subst hconn
    intro m hm hi
    obtain rfl := hi.1.2 rfl
    exact pollLatch_releasing h current m hm ⟨hi.1.1, hi.2⟩
  · split
    · exact free_failure pollFailed_uses
    · split
      · exact free_failure pollTimeout_uses
      · exact hagain.conseq (fun _ _ h => h.1.1.outer) fun _ _ _ h => h

theorem pollLoop_releasing (h : Carries parse P t A C) (timeoutMs : UInt32) (fuel : Nat) (waited : UInt32) :
    Triple (system parse) Boot Base (Releasing P) t A (pollLoop timeoutMs fuel waited) fun _ _ => True :=
  pollLoop_triple h.outer h.outer (h.keeps _ rfl) (fun _ => h.keeps _ rfl) (free_failure pollTimeout_uses)
    (fun waited _ => pollOnce_releasing h timeoutMs waited) fuel waited

/-- A connect whose start sets up `A`. -/
theorem mqttCfgConnect_releasing {timeoutMs : UInt32}
    (hstart : Triple (system parse) Boot Base (Releasing P) t (fun _ => True) (connectStart timeoutMs) fun _ _ => True) :
    Triple (system parse) Boot Base (Releasing P) t (fun _ => True) (mqttCfgConnect timeoutMs) fun _ _ => True :=
  mqttCfgConnect_keeps stable_true (fun _ ho => keeps_silent (by rintro rfl; simp [Op.byEntry] at ho))
    (free_failure connectRefuse_uses) hstart

/-- A start that needs nothing set up. -/
theorem connectStart_releasing (h : Carries parse P t (fun _ => True) C) (timeoutMs : UInt32) :
    Triple (system parse) Boot Base (Releasing P) t (fun _ => True) (connectStart timeoutMs) fun _ _ => True := by
  have hbegin : connectBegin.Uses (· ≠ .lampControlReleaseFailOff) := by simp [connectBegin]
  refine .keep stable_true (keeps_silent (by simp)) fun _ => (free_silent hbegin).bind _ fun _ => ?_
  refine .keep stable_true (keeps_silent (by simp)) fun _ => .keep stable_true (keeps_silent (by simp)) fun _ => ?_
  exact pollLoop_releasing h _ _ _

end Iteration

end LedLamp.Mqtt
