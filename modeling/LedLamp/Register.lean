import Mathlib.Data.Option.Basic
/-!
# A register that remembers what it held before

What a document store is for: a value that writes replace as a whole and reads return, and
behind it the value it held before, for the day the first one is damaged. A write that is
refused changes nothing. One that is cut off happened or did not, and nobody is told.

A run lists its events newest first.
-/

/-- The value, and the one before it if there is a copy. -/
structure Register (α : Type) where
  now : α
  before : Option α

namespace Register

variable {α : Type}

inductive Event (α : Type) where
  | read (result : Option α)
  | wrote (a : α)
  | refused
  | lost (a : α)

inductive Step : Register α → Event α → Register α → Prop
  | read {r : Register α} {result : Option α} (h : ∀ a ∈ result, a = r.now) : Step r (.read result) r
  | wrote {r : Register α} (a : α) : Step r (.wrote a) ⟨a, some r.now⟩
  | refused {r : Register α} : Step r .refused r
  | lost {r : Register α} (a : α) : Step r (.lost a) r
  | copied {r : Register α} (a : α) : Step r (.lost a) ⟨r.now, some r.now⟩
  | done {r : Register α} (a : α) : Step r (.lost a) ⟨a, some r.now⟩

inductive Run (r₀ : Register α) : List (Event α) → Register α → Prop
  | nil : Run r₀ [] r₀
  | step {events : List (Event α)} {r r' : Register α} {e : Event α} : Run r₀ events r → Step r e r' →
      Run r₀ (e :: events) r'

/-- The values the events may have put into the register. -/
def written : List (Event α) → List α
  | [] => []
  | .wrote a :: events => a :: written events
  | .lost a :: events => a :: written events
  | _ :: events => written events

theorem mem_written_cons {a : α} {events : List (Event α)} (e : Event α) (h : a ∈ written events) :
    a ∈ written (e :: events) := by
  cases e <;> simp [written, h]

theorem mem_written_append {a : α} {events : List (Event α)} (later : List (Event α)) (h : a ∈ written events) :
    a ∈ written (later ++ events) := by
  induction later with
  | nil => exact h
  | cons e later ih => exact mem_written_cons e ih

variable {r₀ r : Register α} {events : List (Event α)}

/-- While nothing is written the value stays, and every read that succeeds returns it. -/
theorem Run.settled (h : Run r₀ events r) (hw : written events = []) :
    r = r₀ ∧ ∀ a, .read (some a) ∈ events → a = r₀.now := by
  induction h with
  | nil => exact ⟨rfl, by simp⟩
  | step _ hs ih =>
    cases hs with
    | read hread =>
      obtain ⟨rfl, hreads⟩ := ih hw
      refine ⟨rfl, fun a ha => ?_⟩
      rcases List.mem_cons.1 ha with e | ha
      · exact hread a (Event.read.inj e).symm
      · exact hreads a ha
    | refused =>
      obtain ⟨rfl, hreads⟩ := ih hw
      exact ⟨rfl, fun a ha => hreads a (by simpa using ha)⟩
    | wrote a => cases hw
    | lost a => cases hw
    | copied a => cases hw
    | done a => cases hw

/-- The value is the one at the start, or one that was written. -/
theorem Run.now_mem (h : Run r₀ events r) : r.now = r₀.now ∨ r.now ∈ written events := by
  induction h with
  | nil => exact .inl rfl
  | step _ hs ih =>
    cases hs with
    | read _ => exact ih
    | refused => exact ih
    | wrote a => exact .inr (List.mem_cons_self ..)
    | lost a => exact ih.imp_right (List.mem_cons_of_mem _)
    | copied a => exact ih.imp_right (List.mem_cons_of_mem _)
    | done a => exact .inr (List.mem_cons_self ..)

end Register
