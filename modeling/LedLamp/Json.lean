import Mathlib.Algebra.Ring.Int.Defs
import Mathlib.Data.List.TakeWhile
/-!
# Parsed JSON and C strings

cJSON is not part of the repository. What the code reads of it is the item tree:
the type of an item, its text as decoded bytes, its number as `valuedouble` and
`valueint`, and an object's members in the order of the document, duplicates
kept. Text is read through C string functions, which stop at the first 0 byte.
-/

namespace LedLamp

/-- A string literal's bytes. The repository's literals are ASCII. -/
def ascii (s : String) : List UInt8 := s.toList.map fun c => UInt8.ofNat c.toNat

/-! ## C strings -/

/-- The text before the first 0 byte, or the whole buffer when it has none. -/
def cstr (s : List UInt8) : List UInt8 := s.takeWhile (· ≠ 0)

def strlen (s : List UInt8) : Nat := (cstr s).length

def strnlen (s : List UInt8) (n : Nat) : Nat := strlen (s.take n)

theorem cstr_of_not_mem {s : List UInt8} (h : (0 : UInt8) ∉ s) : cstr s = s := by
  unfold cstr
  rw [List.takeWhile_eq_self_iff]
  intro c hc
  simp only [ne_eq, decide_not, Bool.not_eq_eq_eq_not, Bool.not_true, decide_eq_false_iff_not]
  rintro rfl
  exact h hc

theorem zero_not_mem_cstr (s : List UInt8) : (0 : UInt8) ∉ cstr s := by
  intro h
  simpa using List.mem_takeWhile_imp h

@[simp] theorem cstr_cstr (s : List UInt8) : cstr (cstr s) = cstr s := cstr_of_not_mem (zero_not_mem_cstr s)

@[simp] theorem strlen_cstr (s : List UInt8) : strlen (cstr s) = strlen s := by rw [strlen, cstr_cstr]; rfl

/-- `strstr(s, needle) != NULL`, on the text of `s`. -/
def strstr (needle : List UInt8) : List UInt8 → Bool
  | [] => needle.isEmpty
  | c :: s => needle.isPrefixOf (c :: s) || strstr needle s

/-- A `char` array of a C struct; its content need not be terminated. -/
structure CharArray (cap : Nat) where
  chars : List UInt8
  full : chars.length = cap
  deriving DecidableEq

namespace CharArray

def str {cap : Nat} (a : CharArray cap) : List UInt8 := cstr a.chars

/-- What `strncpy` into a zeroed array leaves, its last byte set to 0. -/
def ofStr (cap : Nat) (s : List UInt8) : CharArray cap where
  chars := ((s.take (cap - 1)) ++ List.replicate cap 0).take cap
  full := by simp

/-- A text that fits is what the array then holds. -/
theorem ofStr_str {cap : Nat} {s : List UInt8} (h0 : (0 : UInt8) ∉ s) (hlen : s.length < cap) : (ofStr cap s).str = s := by
  obtain ⟨k, rfl⟩ : ∃ k, cap = s.length + (k + 1) := ⟨cap - s.length - 1, by omega⟩
  have hne : ∀ c ∈ s, decide (c ≠ 0) = true := fun c hc => decide_eq_true fun e => h0 (e ▸ hc)
  have hs : s.take (s.length + (k + 1) - 1) = s := List.take_of_length_le (by omega)
  have hs' : s.take (s.length + (k + 1)) = s := List.take_of_length_le (by omega)
  simp only [str, ofStr, cstr, hs, List.take_append, hs']
  rw [List.takeWhile_append_of_pos hne]
  simp [List.replicate_succ]

end CharArray

/-! ## Items -/

/-- A `valuedouble`: `num / 2 ^ pow`, or the infinity a literal overflows to. -/
inductive Number
  | finite (num : Int) (pow : Nat)
  | infinite (negative : Bool)
  deriving DecidableEq, Repr

namespace Number

/-- The double compared with an integer constant. -/
def cmp : Number → Int → Ordering
  | finite num pow, k => compare num (k * 2 ^ pow)
  | infinite negative, _ => if negative then .lt else .gt

/-- The number cut towards zero, `(int)valuedouble`. -/
def truncate : Number → Int
  | finite num pow => num.tdiv (2 ^ pow)
  | infinite _ => 0

/-- A number equal to its truncation compares like it. -/
theorem cmp_of_integral {v : Number} (hv : v.cmp v.truncate = .eq) (k : Int) : v.cmp k = compare v.truncate k := by
  cases v with
  | infinite negative => cases negative <;> simp [cmp] at hv
  | finite num pow =>
    have hpow : (0 : Int) < 2 ^ pow := Int.pow_pos (by omega)
    generalize (finite num pow).truncate = t at hv ⊢
    simp only [cmp, Int.compare_eq_eq] at hv ⊢
    subst hv
    rcases Int.lt_trichotomy t k with hlt | rfl | hgt
    · rw [Int.compare_eq_lt.2 hlt, Int.compare_eq_lt.2 (Int.mul_lt_mul_of_pos_right hlt hpow)]
    · rw [Int.compare_eq_eq.2 rfl, Int.compare_eq_eq.2 rfl]
    · rw [Int.compare_eq_gt.2 hgt, Int.compare_eq_gt.2 (Int.mul_lt_mul_of_pos_right hgt hpow)]

theorem ne_infinite_of_integral {v : Number} (hv : v.cmp v.truncate = .eq) (negative : Bool) : v ≠ .infinite negative := by
  rintro rfl
  cases negative <;> simp [cmp] at hv

/-- `valueint`: cJSON saturates at the bounds of `int`. -/
def valueInt (n : Number) : Int :=
  if n.cmp 2147483647 ≠ .lt then 2147483647
  else if n.cmp (-2147483648) ≠ .gt then -2147483648
  else n.truncate

/-- `valuedouble == (double)valueint`. -/
def integral (n : Number) : Bool := n.cmp n.valueInt = .eq

end Number

inductive Json
  | null
  | bool (b : Bool)
  | number (n : Number)
  | string (s : List UInt8)
  | array (items : List Json)
  | object (members : List (List UInt8 × Json))

namespace Json

def members : Json → List (List UInt8 × Json)
  | object members => members
  | _ => []

/-- `cJSON_GetObjectItemCaseSensitive`: the first member of that name. -/
def item (root : Json) (key : List UInt8) : Option Json :=
  (root.members.find? fun m => cstr m.1 = cstr key).map (·.2)

mutual

/-- Equality, computed. -/
def same : Json → Json → Bool
  | null, null => true
  | bool b, bool b' => b = b'
  | number n, number n' => n = n'
  | string s, string s' => s = s'
  | array items, array items' => sameItems items items'
  | object members, object members' => sameMembers members members'
  | _, _ => false

def sameItems : List Json → List Json → Bool
  | [], [] => true
  | x :: xs, y :: ys => same x y && sameItems xs ys
  | _, _ => false

def sameMembers : List (List UInt8 × Json) → List (List UInt8 × Json) → Bool
  | [], [] => true
  | (key, x) :: xs, (key', y) :: ys => key = key' && same x y && sameMembers xs ys
  | _, _ => false

end

mutual

theorem same_iff (a b : Json) : same a b = true ↔ a = b := by
  cases a <;> cases b <;> simp [same, sameItems_iff, sameMembers_iff]

theorem sameItems_iff (xs ys : List Json) : sameItems xs ys = true ↔ xs = ys := by
  cases xs <;> cases ys <;> simp [sameItems, same_iff, sameItems_iff]

theorem sameMembers_iff (xs ys : List (List UInt8 × Json)) : sameMembers xs ys = true ↔ xs = ys := by
  match xs, ys with
  | [], [] => simp [sameMembers]
  | [], _ :: _ => simp [sameMembers]
  | _ :: _, [] => simp [sameMembers]
  | (key, x) :: xs, (key', y) :: ys => simp [sameMembers, same_iff x y, sameMembers_iff xs ys]

end

instance : DecidableEq Json := fun a b => decidable_of_iff _ (same_iff a b)

end Json

end LedLamp
