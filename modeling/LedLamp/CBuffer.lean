import LedLamp.Json
/-!
# Reads and stores within a buffer

A pointer into an array is what is left of the array from there on. The C string
functions and loops below read through it byte by byte, and `none` is a read behind
the end of the array. A function that takes a C string may read as far as its
terminator, so it needs one. Within the array each computes what its counterpart in
`Json` computes. A store writes a run of bytes from an index on, and `none` is a store
behind the end.
-/

namespace LedLamp.CBuffer

def strnlen : List UInt8 → Nat → Option Nat
  | _, 0 => some 0
  | [], _ + 1 => none
  | c :: s, n + 1 => if c = 0 then some 0 else do return (← strnlen s n) + 1

def strlen : List UInt8 → Option Nat
  | [] => none
  | c :: s => if c = 0 then some 0 else do return (← strlen s) + 1

/-- `strchr(s, c) != NULL`, for a `c` other than 0. -/
def strchr (s : List UInt8) (c : UInt8) : Option Bool := do
  let len ← strlen s
  return (s.take len).contains c

/-- `strstr(s, needle) != NULL`. -/
def strstr (needle s : List UInt8) : Option Bool := do
  let len ← strlen s
  return LedLamp.strstr needle (s.take len)

/-- `strncmp(s, text, strlen(text)) == 0`. -/
def strncmp (s text : List UInt8) : Option Bool := do
  let len ← strnlen s text.length
  return text.isPrefixOf (s.take len)

/-- A loop over the first `n` bytes; the inner `none` is its `return` from the loop. -/
def forBytes {σ : Type} (body : σ → UInt8 → Option σ) : List UInt8 → Nat → σ → Option (Option σ)
  | _, 0, locals => some (some locals)
  | [], _ + 1, _ => none
  | c :: s, n + 1, locals =>
    match body locals c with
    | none => some none
    | some locals' => forBytes body s n locals'

/-- `bytes` stored in the array from index `i` on. -/
def store (s : List UInt8) (i : Nat) (bytes : List UInt8) : Option (List UInt8) :=
  if i + bytes.length ≤ s.length then some (s.take i ++ bytes ++ s.drop (i + bytes.length)) else none

/-! ## Within the array -/

variable {s : List UInt8} {n : Nat}

theorem cstr_cons {c : UInt8} (hc : c ≠ 0) : cstr (c :: s) = c :: cstr s := by
  simp [cstr, hc]

/-- A terminated array is its text, the terminator, and whatever is behind it. -/
theorem terminated (h : 0 ∈ s) : ∃ rest, s = cstr s ++ 0 :: rest := by
  induction s with
  | nil => cases h
  | cons c s ih =>
    by_cases hc : c = 0
    · exact ⟨s, by simp [cstr, hc]⟩
    · obtain ⟨rest, e⟩ := ih (by simpa [Ne.symm hc] using h)
      exact ⟨rest, by rw [cstr_cons hc, List.cons_append, ← e]⟩

/-- The length is read when a terminator or the bound comes before the end. -/
theorem strnlen_eq (h : 0 ∈ s ∨ n ≤ s.length) : strnlen s n = some (LedLamp.strnlen s n) := by
  induction s generalizing n with
  | nil =>
    obtain rfl : n = 0 := by simpa using h
    rfl
  | cons c s ih =>
    cases n with
    | zero => rfl
    | succ n =>
      by_cases hc : c = 0
      · simp [strnlen, LedLamp.strnlen, LedLamp.strlen, cstr, hc]
      · have h' : 0 ∈ s ∨ n ≤ s.length := by simpa [Ne.symm hc] using h
        simp [strnlen, hc, ih h', LedLamp.strnlen, LedLamp.strlen, cstr_cons hc]

theorem strlen_eq (h : 0 ∈ s) : strlen s = some (LedLamp.strlen s) := by
  induction s with
  | nil => cases h
  | cons c s ih =>
    by_cases hc : c = 0
    · simp [strlen, LedLamp.strlen, cstr, hc]
    · have h' : 0 ∈ s := by simpa [Ne.symm hc] using h
      simp [strlen, hc, ih h', LedLamp.strlen, cstr_cons hc]

theorem take_strlen (s : List UInt8) : s.take (LedLamp.strlen s) = cstr s :=
  (List.prefix_iff_eq_take.1 (List.takeWhile_prefix _)).symm

theorem strlen_le (s : List UInt8) : LedLamp.strlen s ≤ s.length :=
  (List.takeWhile_prefix _).length_le

theorem strchr_eq (h : 0 ∈ s) (c : UInt8) : strchr s c = some ((cstr s).contains c) := by
  simp [strchr, strlen_eq h, take_strlen]

theorem strstr_eq (h : 0 ∈ s) (needle : List UInt8) : strstr needle s = some (LedLamp.strstr needle (cstr s)) := by
  simp [strstr, strlen_eq h, take_strlen]

theorem take_strnlen (s : List UInt8) (n : Nat) : s.take (LedLamp.strnlen s n) = (cstr s).take n := by
  induction s generalizing n with
  | nil => simp [cstr]
  | cons c s ih =>
    cases n with
    | zero => rfl
    | succ n =>
      by_cases hc : c = 0
      · simp [LedLamp.strnlen, LedLamp.strlen, cstr, hc]
      · have hlen : LedLamp.strnlen (c :: s) (n + 1) = LedLamp.strnlen s n + 1 := by
          simp [LedLamp.strnlen, LedLamp.strlen, cstr_cons hc]
        rw [hlen, List.take_succ_cons, cstr_cons hc, List.take_succ_cons, ih]

theorem strnlen_min (s : List UInt8) (n : Nat) : LedLamp.strnlen s n = min (LedLamp.strlen s) n := by
  have hle : LedLamp.strnlen s n ≤ s.length := (strlen_le _).trans (List.length_take_le' n s)
  have hlen := congrArg List.length (take_strnlen s n)
  rw [List.length_take, List.length_take, Nat.min_eq_left hle, Nat.min_comm] at hlen
  exact hlen

theorem strncmp_eq {text : List UInt8} (h : 0 ∈ s ∨ text.length ≤ s.length) :
    strncmp s text = some (text.isPrefixOf (cstr s)) := by
  simp only [strncmp, strnlen_eq h, Option.bind_eq_bind, Option.bind_some, Option.pure_def, Option.some.injEq]
  rw [Bool.eq_iff_iff, List.isPrefixOf_iff_prefix, List.isPrefixOf_iff_prefix, take_strnlen, List.prefix_take_iff,
    and_iff_left le_rfl]

theorem forBytes_eq {σ : Type} (body : σ → UInt8 → Option σ) (h : n ≤ s.length) (locals : σ) :
    forBytes body s n locals = some ((s.take n).foldlM body locals) := by
  induction s generalizing n locals with
  | nil =>
    obtain rfl : n = 0 := by simpa using h
    rfl
  | cons c s ih =>
    cases n with
    | zero => rfl
    | succ n =>
      rw [List.take_succ_cons, List.foldlM_cons, forBytes]
      cases body locals c with
      | none => rfl
      | some locals' => exact ih (by simpa using h) locals'

/-! ## Stores -/

section Store
variable {s' bytes : List UInt8} {i : Nat}

theorem store_eq_some_iff : store s i bytes = some s' ↔
    i + bytes.length ≤ s.length ∧ s' = s.take i ++ bytes ++ s.drop (i + bytes.length) := by
  unfold store
  split
  · next h => simp [h, eq_comm]
  · next h => simp [h]

theorem store_fits (h : i + bytes.length ≤ s.length) : ∃ s', store s i bytes = some s' := ⟨_, if_pos h⟩

theorem store_length (h : store s i bytes = some s') : s'.length = s.length := by
  obtain ⟨hle, rfl⟩ := store_eq_some_iff.1 h
  simp only [List.length_append, List.length_take, List.length_drop]
  omega

/-- What is before the stored bytes is kept, and they follow it. -/
theorem take_store (h : store s i bytes = some s') (hn : n ≤ bytes.length) :
    s'.take (i + n) = s.take i ++ bytes.take n := by
  obtain ⟨hle, rfl⟩ := store_eq_some_iff.1 h
  have hi : (s.take i).length = i := List.length_take_of_le (by omega)
  rw [List.append_assoc, List.take_append, hi, List.take_of_length_le (by omega), Nat.add_sub_cancel_left,
    List.take_append_of_le_length hn]

end Store

end LedLamp.CBuffer
