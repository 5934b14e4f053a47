import Mathlib.Algebra.Ring.Nat
import LedLamp.Json
/-!
# The text of flat JSON objects

The compact text of an object whose members are strings of printable ASCII and
integers, and a reader of such texts. Inside a string only the quote and the
backslash need an escape; an integer is written in decimal. `readObject_print`
is the round trip: the reader gets back the members that were written, in their
order.
-/

namespace LedLamp.JsonText

def quote : UInt8 := 0x22
def backslash : UInt8 := 0x5C
def comma : UInt8 := 0x2C
def minus : UInt8 := 0x2D
def colon : UInt8 := 0x3A
def braceOpen : UInt8 := 0x7B
def braceClose : UInt8 := 0x7D

def isPrintable (c : UInt8) : Bool := 0x20 ≤ c && c ≤ 0x7E

def isDigit (c : UInt8) : Bool := 0x30 ≤ c && c ≤ 0x39

/-- The value of a member. -/
inductive Scalar
  | string (s : List UInt8)
  | int (n : Int32)
  deriving DecidableEq

abbrev Member := List UInt8 × Scalar

/-- The item cJSON holds for a value. -/
def Scalar.item : Scalar → Json
  | string s => .string s
  | int n => .number (.finite n.toInt 0)

/-- The item cJSON holds for an object of such members. -/
def object (members : List Member) : Json := .object (members.map fun m => (m.1, m.2.item))

/-- The value behind an item, when it is one of these. -/
def Scalar.ofItem : Json → Option Scalar
  | .string s => some (.string s)
  | .number (.finite n 0) => some (.int (Int32.ofInt n))
  | _ => none

@[simp] theorem Scalar.ofItem_item (v : Scalar) : ofItem v.item = some v := by
  cases v <;> simp [item, ofItem]

/-- Names and strings are printable. -/
def Member.Printable (m : Member) : Prop :=
  m.1.all isPrintable ∧ ∀ s, m.2 = .string s → s.all isPrintable

/-! ## Writing -/

def escape (c : UInt8) : List UInt8 := if c = quote ∨ c = backslash then [backslash, c] else [c]

def printString (s : List UInt8) : List UInt8 := quote :: s.flatMap escape ++ [quote]

/-- The decimal digits of a number, most significant first. -/
def digits (n : Nat) : List UInt8 :=
  if n < 10 then [0x30 + n.toUInt8] else digits (n / 10) ++ [0x30 + (n % 10).toUInt8]

def printInt (n : Int) : List UInt8 := if n < 0 then minus :: digits n.natAbs else digits n.natAbs

def Scalar.print : Scalar → List UInt8
  | string s => printString s
  | int n => printInt n.toInt

def printMember (m : Member) : List UInt8 := printString m.1 ++ colon :: m.2.print

def printMembers : List Member → List UInt8
  | [] => []
  | [m] => printMember m
  | m :: m' :: members => printMember m ++ comma :: printMembers (m' :: members)

def printObject (members : List Member) : List UInt8 := braceOpen :: printMembers members ++ [braceClose]

/-! ## Reading -/

/-- What follows `c` at the front of the text. -/
def expect (c : UInt8) : List UInt8 → Option (List UInt8)
  | [] => none
  | d :: rest => if d = c then some rest else none

/-- The string up to the closing quote, and what follows it. -/
def readString : List UInt8 → Option (List UInt8 × List UInt8)
  | [] => none
  | [c] => if c = quote then some ([], []) else none
  | c :: e :: rest =>
    if c = quote then some ([], e :: rest)
    else if c = backslash then
      if e = quote ∨ e = backslash then (readString rest).map fun r => (e :: r.1, r.2) else none
    else if isPrintable c then (readString (e :: rest)).map fun r => (c :: r.1, r.2)
    else none

/-- A number without leading zeros, and what follows it. -/
def readNat (text : List UInt8) : Option (Nat × List UInt8) :=
  let ds := text.takeWhile isDigit
  if ds = [] ∨ ds.head? = some 0x30 ∧ 1 < ds.length then none
  else some (ds.foldl (fun n d => 10 * n + (d.toNat - 0x30)) 0, text.dropWhile isDigit)

/-- An integer that fits into 32 bits, and what follows it. -/
def readInt (text : List UInt8) : Option (Int32 × List UInt8) :=
  match expect minus text with
  | some rest => do
    let (n, rest) ← readNat rest
    if n ≤ 2 ^ 31 then some (Int32.ofInt (-n), rest) else none
  | none => do
    let (n, rest) ← readNat text
    if n < 2 ^ 31 then some (Int32.ofInt n, rest) else none

def readScalar (text : List UInt8) : Option (Scalar × List UInt8) :=
  match expect quote text with
  | some rest => (readString rest).map fun r => (.string r.1, r.2)
  | none => (readInt text).map fun r => (.int r.1, r.2)

def readMembers : (fuel : Nat) → List UInt8 → Option (List Member)
  | 0, _ => none
  | fuel + 1, text => do
    let rest ← expect quote text
    let (key, rest) ← readString rest
    let rest ← expect colon rest
    let (value, rest) ← readScalar rest
    if rest = [braceClose] then some [(key, value)]
    else do
      let rest ← expect comma rest
      let members ← readMembers fuel rest
      some ((key, value) :: members)

def readObject (text : List UInt8) : Option (List Member) := do
  let rest ← expect braceOpen text
  if rest = [braceClose] then some [] else readMembers rest.length rest

/-! ## The round trip -/

/-- The text goes on with no digit. -/
def NoDigit (rest : List UInt8) : Prop := ∀ c ∈ rest.head?, isDigit c = false

theorem readString_char {c : UInt8} (hq : c ≠ quote) (hb : c ≠ backslash) (hc : isPrintable c = true)
    {text : List UInt8} (ht : text ≠ []) : readString (c :: text) = (readString text).map fun r => (c :: r.1, r.2) := by
  cases text with
  | nil => exact absurd rfl ht
  | cons e rest => simp [readString, hq, hb, hc]

theorem readString_print {s : List UInt8} (hs : s.all isPrintable = true) (rest : List UInt8) :
    readString (s.flatMap escape ++ quote :: rest) = some (s, rest) := by
  induction s with
  | nil => cases rest <;> simp [readString]
  | cons c s ih =>
    simp only [List.all_cons, Bool.and_eq_true] at hs
    simp only [List.flatMap_cons, List.append_assoc, escape]
    split
    · rename_i hc
      simp only [List.cons_append, List.nil_append, readString, show backslash ≠ quote by decide, if_false, if_true,
        if_pos hc]
      rw [ih hs.2]
      rfl
    · rename_i hc
      rw [not_or] at hc
      simp only [List.cons_append, List.nil_append]
      rw [readString_char hc.1 hc.2 hs.1 (by simp), ih hs.2]
      rfl

theorem toNat_digit {k : Nat} (hk : k < 10) : (0x30 + k.toUInt8 : UInt8).toNat = 0x30 + k := by
  simp [UInt8.toNat_add]
  omega

theorem isDigit_digit {k : Nat} (hk : k < 10) : isDigit (0x30 + k.toUInt8) = true := by
  simp only [isDigit, Bool.and_eq_true, decide_eq_true_eq, UInt8.le_iff_toNat_le, toNat_digit hk]
  constructor
  · simp
  · simp; omega

theorem digits_isDigit (n : Nat) : ∀ c ∈ digits n, isDigit c = true := by
  induction n using Nat.strong_induction_on with
  | _ n ih =>
    rw [digits]
    split
    · intro c hc
      rw [List.mem_singleton.1 hc]
      exact isDigit_digit (by assumption)
    · intro c hc
      rcases List.mem_append.1 hc with hc | hc
      · exact ih (n / 10) (by omega) c hc
      · rw [List.mem_singleton.1 hc]
        exact isDigit_digit (by omega)

theorem digits_ne_nil (n : Nat) : digits n ≠ [] := by
  rw [digits]
  split <;> simp

theorem digits_head (n : Nat) (hn : n ≠ 0) : (digits n).head? ≠ some 0x30 := by
  induction n using Nat.strong_induction_on with
  | _ n ih =>
    rw [digits]
    split
    · rename_i hlt
      intro h
      have := congrArg UInt8.toNat (Option.some.inj h)
      rw [toNat_digit hlt] at this
      simp at this
      omega
    · have := ih (n / 10) (by omega) (by omega)
      cases h : digits (n / 10) with
      | nil => exact absurd h (digits_ne_nil _)
      | cons d ds => rwa [h] at this

/-- The decimal digits are what a number is printed as. -/
theorem ascii_toString (n : Nat) : ascii (toString n) = digits n := by
  have hdigit : ∀ d < 10, UInt8.ofNat (Nat.digitChar d).toNat = 0x30 + d.toUInt8 := by decide
  have hrepr : (toString n).toList = Nat.toDigits 10 n := by simp [toString, Nat.repr]
  rw [ascii, hrepr]
  clear hrepr
  induction n using Nat.strongRecOn with
  | _ n ih =>
    rw [Nat.toDigits_eq_if (by decide), digits]
    split
    · rename_i h
      rw [List.map_singleton, hdigit n h]
    · rename_i h
      rw [List.map_append, ih (n / 10) (by omega), List.map_singleton, hdigit _ (Nat.mod_lt n (by omega))]

theorem digits_value (n : Nat) : (digits n).foldl (fun n d => 10 * n + (d.toNat - 0x30)) 0 = n := by
  induction n using Nat.strong_induction_on with
  | _ n ih =>
    rw [digits]
    split
    · rename_i hn
      simp [toNat_digit hn]
    · rw [List.foldl_append, ih (n / 10) (by omega)]
      simp only [List.foldl_cons, List.foldl_nil, toNat_digit (Nat.mod_lt n (by omega : 10 > 0))]
      omega

theorem readNat_digits (n : Nat) {rest : List UInt8} (hr : NoDigit rest) : readNat (digits n ++ rest) = some (n, rest) := by
  have hstop : rest.takeWhile isDigit = [] ∧ rest.dropWhile isDigit = rest := by
    cases rest with
    | nil => simp
    | cons c rest => simp [hr c (by simp)]
  have htake : (digits n ++ rest).takeWhile isDigit = digits n := by
    rw [List.takeWhile_append_of_pos (digits_isDigit n), hstop.1, List.append_nil]
  have hdrop : (digits n ++ rest).dropWhile isDigit = rest := by
    rw [List.dropWhile_append_of_pos (digits_isDigit n), hstop.2]
  have hlead : ¬ (digits n = [] ∨ (digits n).head? = some 0x30 ∧ 1 < (digits n).length) := by
    rintro (h | ⟨h, hlen⟩)
    · exact digits_ne_nil n h
    · by_cases hn : n = 0
      · rw [hn, digits] at hlen
        simp at hlen
      · exact digits_head n hn h
  simp only [readNat, htake, hdrop, if_neg hlead, digits_value]

/-- A decimal text starts with a digit. -/
theorem digits_cons (n : Nat) (rest : List UInt8) : ∃ c text, digits n ++ rest = c :: text ∧ isDigit c = true := by
  cases h : digits n with
  | nil => exact absurd h (digits_ne_nil n)
  | cons c text => exact ⟨c, text ++ rest, rfl, digits_isDigit n c (by simp [h])⟩

theorem readInt_print (n : Int32) {rest : List UInt8} (hr : NoDigit rest) :
    readInt (printInt n.toInt ++ rest) = some (n, rest) := by
  have hlo := n.le_toInt
  have hhi := n.toInt_lt
  unfold printInt
  split
  · rename_i hneg
    have hn : -(n.toInt.natAbs : Int) = n.toInt := by omega
    simp only [List.cons_append, readInt, expect, if_true]
    rw [readNat_digits _ hr]
    simp only [Option.bind_eq_bind, Option.bind_some, if_pos (show n.toInt.natAbs ≤ 2 ^ 31 by omega), hn,
      Int32.ofInt_toInt]
  · rename_i hpos
    have hn : (n.toInt.natAbs : Int) = n.toInt := by omega
    obtain ⟨c, text, e, hc⟩ := digits_cons n.toInt.natAbs rest
    have hminus : expect minus (digits n.toInt.natAbs ++ rest) = none := by
      rw [e, expect, if_neg]
      rintro rfl
      exact absurd hc (by decide)
    simp only [readInt, hminus]
    rw [readNat_digits _ hr]
    simp only [Option.bind_eq_bind, Option.bind_some, if_pos (show n.toInt.natAbs < 2 ^ 31 by omega), hn,
      Int32.ofInt_toInt]

theorem readScalar_print {v : Scalar} (hv : ∀ s, v = .string s → s.all isPrintable = true) {rest : List UInt8}
    (hr : NoDigit rest) : readScalar (v.print ++ rest) = some (v, rest) := by
  cases v with
  | string s =>
    simp only [Scalar.print, printString, List.cons_append, List.append_assoc, readScalar, expect, if_true]
    rw [List.nil_append, readString_print (hv s rfl)]
    rfl
  | int n =>
    have hquote : expect quote (printInt n.toInt ++ rest) = none := by
      unfold printInt
      split
      · rfl
      · obtain ⟨c, text, e, hc⟩ := digits_cons n.toInt.natAbs rest
        rw [e, expect, if_neg]
        rintro rfl
        exact absurd hc (by decide)
    simp only [Scalar.print, readScalar, hquote]
    rw [readInt_print n hr]
    rfl

theorem readMembers_print {members : List Member} (hp : ∀ m ∈ members, m.Printable) (hne : members ≠ []) {fuel : Nat}
    (hf : members.length ≤ fuel) : readMembers fuel (printMembers members ++ [braceClose]) = some members := by
  induction members generalizing fuel with
  | nil => exact absurd rfl hne
  | cons m members ih =>
    obtain ⟨fuel, rfl⟩ : ∃ f, fuel = f + 1 := ⟨fuel - 1, by simp at hf; omega⟩
    obtain ⟨hkey, hval⟩ := hp m (by simp)
    cases members with
    | nil =>
      simp only [printMembers, printMember, printString, List.cons_append, List.append_assoc, List.nil_append,
        readMembers, expect, if_true, Option.bind_eq_bind, Option.bind_some]
      rw [readString_print hkey]
      simp only [Option.bind_some, if_true]
      rw [readScalar_print hval (by simp [NoDigit, isDigit, braceClose])]
      simp
    | cons m' members =>
      simp only [printMembers, printMember, printString, List.cons_append, List.append_assoc, List.nil_append,
        readMembers, expect, if_true, Option.bind_eq_bind, Option.bind_some]
      rw [readString_print hkey]
      simp only [Option.bind_some, if_true]
      rw [readScalar_print hval (by simp [NoDigit, isDigit, comma])]
      have hrest : readMembers fuel (printMembers (m' :: members) ++ [braceClose]) = some (m' :: members) :=
        ih (fun m hm => hp m (by simp [hm])) (by simp) (by simpa using hf)
      have hmore : comma :: (printMembers (m' :: members) ++ [braceClose]) ≠ [braceClose] := by simp
      simp [hmore, hrest]

theorem length_printMembers (members : List Member) : members.length ≤ (printMembers members).length := by
  induction members using printMembers.induct with
  | case1 => simp
  | case2 m => simp [printMembers, printMember, printString]
  | case3 m m' members ih =>
    simp only [printMembers, List.length_append, List.length_cons] at ih ⊢
    omega

/-- A reader of a written object gets back its members. -/
theorem readObject_print {members : List Member} (hp : ∀ m ∈ members, m.Printable) :
    readObject (printObject members) = some members := by
  simp only [printObject, List.cons_append, readObject, expect, if_true, Option.bind_eq_bind, Option.bind_some]
  cases members with
  | nil => simp [printMembers]
  | cons m members =>
    have hne : printMembers (m :: members) ++ [braceClose] ≠ [braceClose] := by
      have := length_printMembers (m :: members)
      intro h
      rw [List.append_left_eq_self.1 h] at this
      simp at this
    rw [if_neg hne]
    refine readMembers_print hp (by simp) ?_
    have := length_printMembers (m :: members)
    simp at this ⊢
    omega

/-- A parse of flat objects, of a text with its terminator. -/
def readText (text : List UInt8) : Option Json := (readObject text.dropLast).map object

/-- A printer of flat objects. -/
def printText : Json → Option (List UInt8)
  | .object members => (members.mapM fun m => (Scalar.ofItem m.2).map fun v => (m.1, v)).map printObject
  | _ => none

theorem readText_eq {text : List UInt8} {members : List Member} (h : readObject text = some members) :
    readText (text ++ [0]) = some (object members) := by
  rw [readText, List.dropLast_concat, h, Option.map_some]

theorem printText_object (members : List Member) : printText (object members) = some (printObject members) := by
  have back : (members.map fun m => (m.1, m.2.item)).mapM
      (fun m => (Scalar.ofItem m.2).map fun v => (m.1, v)) = some members := by
    induction members with
    | nil => rfl
    | cons m members ih =>
      rw [List.map_cons, List.mapM_cons, ih, Scalar.ofItem_item]
      rfl
  rw [object, printText, back, Option.map_some]

/-! ## The written bytes -/

theorem printable_ne_zero {c : UInt8} (hc : isPrintable c = true) : c ≠ 0 := by
  rintro rfl
  exact absurd hc (by decide)

theorem digit_ne_zero {c : UInt8} (hc : isDigit c = true) : c ≠ 0 := by
  rintro rfl
  exact absurd hc (by decide)

theorem printString_no_zero {s : List UInt8} (hs : s.all isPrintable = true) : 0 ∉ printString s := by
  have hq : (0 : UInt8) ≠ quote := by decide
  have hb : (0 : UInt8) ≠ backslash := by decide
  simp only [printString, List.cons_append, List.mem_cons, List.mem_append, List.mem_flatMap, hq, false_or,
    List.not_mem_nil, or_false]
  rintro ⟨c, hc, hmem⟩
  have hc0 := printable_ne_zero (List.all_eq_true.1 hs c hc)
  unfold escape at hmem
  split at hmem <;> simp [hb, hc0.symm] at hmem

theorem printInt_no_zero (n : Int) : 0 ∉ printInt n := by
  have hd : (0 : UInt8) ∉ digits n.natAbs := fun h => digit_ne_zero (digits_isDigit _ _ h) rfl
  have hm : (0 : UInt8) ≠ minus := by decide
  unfold printInt
  split
  · simp [hd, hm]
  · exact hd

theorem printMember_no_zero {m : Member} (hp : m.Printable) : 0 ∉ printMember m := by
  have hc : (0 : UInt8) ≠ colon := by decide
  have hv : (0 : UInt8) ∉ m.2.print := by
    cases hv : m.2 with
    | string s => exact printString_no_zero (hp.2 s hv)
    | int n => exact printInt_no_zero n.toInt
  simp [printMember, printString_no_zero hp.1, hc, hv]

theorem printMembers_no_zero {members : List Member} (hp : ∀ m ∈ members, m.Printable) : 0 ∉ printMembers members := by
  have hc : (0 : UInt8) ≠ comma := by decide
  induction members using printMembers.induct with
  | case1 => simp [printMembers]
  | case2 m => exact printMember_no_zero (hp m (by simp))
  | case3 m m' members ih =>
    have := ih fun m hm => hp m (by simp [hm])
    simp [printMembers, printMember_no_zero (hp m (by simp)), hc, this]

theorem printObject_no_zero {members : List Member} (hp : ∀ m ∈ members, m.Printable) : 0 ∉ printObject members := by
  have h1 : (0 : UInt8) ≠ braceOpen := by decide
  have h2 : (0 : UInt8) ≠ braceClose := by decide
  simp [printObject, h1, h2, printMembers_no_zero hp]

/-- An escaped character takes two bytes at most. -/
theorem length_printString_le (s : List UInt8) : (printString s).length ≤ 2 * s.length + 2 := by
  have : (s.flatMap escape).length ≤ 2 * s.length := by
    induction s with
    | nil => simp
    | cons c s ih =>
      have hc : (escape c).length ≤ 2 := by
        unfold escape
        split <;> simp
      simp only [List.flatMap_cons, List.length_append, List.length_cons]
      omega
  simp only [printString, List.length_append, List.length_cons, List.length_nil]
  omega

theorem length_digits_le {k n : Nat} (hk : 0 < k) (hn : n < 10 ^ k) : (digits n).length ≤ k := by
  induction k generalizing n with
  | zero => omega
  | succ k ih =>
    rw [digits]
    split
    · simp
    · have hk' : 0 < k := by
        rcases Nat.eq_zero_or_pos k with rfl | h
        · omega
        · exact h
      have := ih hk' (show n / 10 < 10 ^ k from Nat.div_lt_of_lt_mul (by rw [Nat.pow_succ] at hn; omega))
      simp
      omega

theorem length_printInt_le (n : Int32) : (printInt n.toInt).length ≤ 11 := by
  have hlo := n.le_toInt
  have hhi := n.toInt_lt
  have := length_digits_le (k := 10) (n := n.toInt.natAbs) (by omega) (by omega)
  unfold printInt
  split <;> simp <;> omega

end LedLamp.JsonText
