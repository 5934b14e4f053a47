import LedLamp.Conc.System
/-!
# Feeds of a watchdog

A trace, newest event first, in which some events feed a watchdog and the others are
charged an amount of time. `FedWithin` says that between consecutive feeds less than
the window is charged; `fedWithin_iff_every` reads it off as each feed happens.
-/

namespace Conc

variable {ε : Type} {feeds : ε → Bool} {charge : ε → Nat} {window : Nat}

def charged (charge : ε → Nat) : List ε → Nat
  | [] => 0
  | e :: events => charge e + charged charge events

/-- What is charged since the last feed, or since the start. -/
def sinceFeed (feeds : ε → Bool) (charge : ε → Nat) : List ε → Nat
  | [] => 0
  | e :: past => if feeds e then 0 else charge e + sinceFeed feeds charge past

/-- Between any two consecutive feeds less than `window` is charged. -/
def FedWithin (feeds : ε → Bool) (charge : ε → Nat) (window : Nat) (tr : List ε) : Prop :=
  ∀ later feed between feed' earlier, tr = later ++ feed :: (between ++ feed' :: earlier) →
    feeds feed = true → feeds feed' = true → (∀ e ∈ between, feeds e = false) → charged charge between < window

/-! ## Charges -/

@[simp] theorem charged_nil : charged charge [] = 0 := rfl

@[simp] theorem charged_cons (e : ε) (events : List ε) :
    charged charge (e :: events) = charge e + charged charge events := rfl

@[simp] theorem charged_append (events past : List ε) :
    charged charge (events ++ past) = charged charge events + charged charge past := by
  induction events with
  | nil => simp
  | cons e events ih => simp [ih, Nat.add_assoc]

theorem charged_map {δ : Type} (f : δ → ε) (events : List δ) :
    charged charge (events.map f) = charged (fun e => charge (f e)) events := by
  induction events with
  | nil => rfl
  | cons e events ih => simp [ih]

theorem charged_eq_zero {events : List ε} (h : ∀ e ∈ events, charge e = 0) : charged charge events = 0 := by
  induction events with
  | nil => rfl
  | cons e events ih =>
    rw [List.forall_mem_cons] at h
    rw [charged_cons, h.1, ih h.2]

theorem sinceFeed_feed {e : ε} (he : feeds e = true) (past : List ε) : sinceFeed feeds charge (e :: past) = 0 :=
  if_pos he

theorem sinceFeed_append {events : List ε} (h : ∀ e ∈ events, feeds e = false) (past : List ε) :
    sinceFeed feeds charge (events ++ past) = charged charge events + sinceFeed feeds charge past := by
  induction events with
  | nil => simp
  | cons e events ih =>
    rw [List.forall_mem_cons] at h
    simp [sinceFeed, h.1, ih h.2, Nat.add_assoc]

/-- The last feed of a trace. -/
theorem last_feed {tr : List ε} (h : ∃ e ∈ tr, feeds e = true) :
    ∃ between feed earlier, tr = between ++ feed :: earlier ∧ (∀ e ∈ between, feeds e = false) ∧ feeds feed = true := by
  induction tr with
  | nil => simp at h
  | cons e tr ih =>
    cases he : feeds e with
    | true => exact ⟨[], e, tr, rfl, by simp, he⟩
    | false =>
      obtain ⟨between, feed, earlier, rfl, hq, hf⟩ := ih (by simpa [he] using h)
      exact ⟨e :: between, feed, earlier, rfl, by simpa [he] using hq, hf⟩

/-! ## Feeds in time -/

theorem fedWithin_nil : FedWithin feeds charge window [] := by
  intro later feed between feed' earlier h
  simp at h

/-- An event that feeds nothing. -/
theorem fedWithin_quiet {e : ε} (he : feeds e = false) (tr : List ε) :
    FedWithin feeds charge window (e :: tr) ↔ FedWithin feeds charge window tr := by
  constructor
  · intro h later feed between feed' earlier ht
    exact h (e :: later) feed between feed' earlier (by rw [ht, List.cons_append])
  · intro h later feed between feed' earlier ht hf
    cases later with
    | nil =>
      obtain ⟨rfl, -⟩ := List.cons.inj ht
      rw [he] at hf
      cases hf
    | cons e' later =>
      obtain ⟨-, ht⟩ := List.cons.inj ht
      exact h later feed between feed' earlier ht hf

/-- A feed that is not the first ends the time since the last one. -/
theorem fedWithin_feed {e : ε} (he : feeds e = true) (tr : List ε) :
    FedWithin feeds charge window (e :: tr) ↔
      ((∃ e ∈ tr, feeds e = true) → sinceFeed feeds charge tr < window) ∧ FedWithin feeds charge window tr := by
  constructor
  · intro h
    refine ⟨fun hfed => ?_, fun later feed between feed' earlier ht =>
      h (e :: later) feed between feed' earlier (by rw [ht, List.cons_append])⟩
    obtain ⟨between, feed, earlier, rfl, hq, hf⟩ := last_feed hfed
    rw [sinceFeed_append hq, sinceFeed_feed hf, Nat.add_zero]
    exact h [] e between feed earlier rfl he hf hq
  · rintro ⟨hlast, h⟩ later feed between feed' earlier ht hf hf' hq
    cases later with
    | nil =>
      obtain ⟨rfl, rfl⟩ := List.cons.inj ht
      have hin := hlast ⟨feed', by simp, hf'⟩
      rwa [sinceFeed_append hq, sinceFeed_feed hf', Nat.add_zero] at hin
    | cons e' later =>
      obtain ⟨-, ht⟩ := List.cons.inj ht
      exact h later feed between feed' earlier ht hf hf' hq

theorem fedWithin_append {events : List ε} (h : ∀ e ∈ events, feeds e = false) (tr : List ε) :
    FedWithin feeds charge window (events ++ tr) ↔ FedWithin feeds charge window tr := by
  induction events with
  | nil => rfl
  | cons e events ih =>
    rw [List.forall_mem_cons] at h
    rw [List.cons_append, fedWithin_quiet h.1, ih h.2]

/-- Each feed is in time as it happens. -/
theorem fedWithin_iff_every {tr : List ε} : FedWithin feeds charge window tr ↔
    Every (fun e past => feeds e = true → (∃ e ∈ past, feeds e = true) → sinceFeed feeds charge past < window) tr := by
  induction tr with
  | nil => exact iff_of_true fedWithin_nil trivial
  | cons e tr ih =>
    rw [every_cons, ← ih]
    cases he : feeds e with
    | true => simpa using fedWithin_feed he tr
    | false => simpa using fedWithin_quiet he tr

instance FedWithin.decide (tr : List ε) : Decidable (FedWithin feeds charge window tr) :=
  have : Decidable (Every (fun e past => feeds e = true → (∃ e ∈ past, feeds e = true) →
      sinceFeed feeds charge past < window) tr) := Every.decide tr
  decidable_of_iff _ fedWithin_iff_every.symm

end Conc
