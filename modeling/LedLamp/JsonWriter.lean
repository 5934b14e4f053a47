import LedLamp.JsonReader
/-!
# Texts that denote an item

A text denotes an item when a reader takes it for that item wherever a byte stands
behind it that cannot belong to a number. Words and decimal numerals do, and so does
an object written member by member without white space (`denotes_object`).
-/

namespace LedLamp.JsonSyntax

open JsonText (quote backslash comma colon braceOpen braceClose isPrintable digits escape printInt printString)

/-- The reader skips no byte above the blank, and takes printable bytes for themselves. -/
structure Lexis.Standard (L : Lexis) : Prop where
  space : ∀ {c}, L.space c = true → c ≤ 0x20
  raw : ∀ {c}, isPrintable c = true → L.raw c = true

/-- No number goes on here. -/
def Ends (rest : List UInt8) : Prop := ∀ c ∈ rest.head?, isNumberByte c = false

/-- The reader takes the decimal numeral of `n` for `n`. -/
def Lexis.ReadsDecimal (L : Lexis) (n : Nat) : Prop :=
  ∀ rest, Ends rest → L.number (digits n ++ rest) = some (.finite n 0, rest)

/-- The reader takes the decimal numeral of `n`, with its sign, for `n`. -/
def Lexis.ReadsInteger (L : Lexis) (n : Int) : Prop :=
  ∀ rest, Ends rest → L.number (printInt n ++ rest) = some (.finite n 0, rest)

def Denotes (L : Lexis) (text : List UInt8) (v : Json) : Prop := ∀ rest, Ends rest → Reads L .item (text ++ rest) v rest

variable {L : Lexis}

/-! ## Words and numbers -/

theorem denotes_word {word : List UInt8} {v : Json} (hw : (word, v) ∈ words) : Denotes L word v :=
  fun rest _ => .word hw rest

theorem denotes_number {n : Nat} (hn : L.ReadsDecimal n) : Denotes L (digits n) (.number (.finite n 0)) :=
  fun rest hr => .number (hn rest hr)

theorem denotes_integer {n : Int} (hn : L.ReadsInteger n) : Denotes L (printInt n) (.number (.finite n 0)) :=
  fun rest hr => .number (hn rest hr)

/-- A string with its quotes and backslashes escaped, where the reader takes every other
byte for itself. -/
theorem denotes_string {s : List UInt8} (hs : ∀ c ∈ s, L.raw c = true) : Denotes L (printString s) (.string s) := by
  have escaped : ∀ (s : List UInt8) (rest : List UInt8), (∀ c ∈ s, L.raw c = true) →
      ReadsString L (s.flatMap escape ++ quote :: rest) s rest := by
    intro s rest
    induction s with
    | nil => exact fun _ => .close rest
    | cons c s ih =>
      intro hs
      have hc : char L ((c :: s).flatMap escape ++ quote :: rest) = some ([c], s.flatMap escape ++ quote :: rest) := by
        rw [List.flatMap_cons, List.append_assoc]
        by_cases he : c = quote ∨ c = backslash
        · rw [escape, if_pos he]
          rcases he with rfl | rfl <;> rfl
        · rw [escape, if_neg he]
          rw [not_or] at he
          simp [char, he.1, he.2, hs c (by simp)]
      exact .char hc (ih fun d hd => hs d (by simp [hd]))
  intro rest _
  rw [printString, List.append_assoc, List.cons_append]
  exact .string (escaped s rest hs)

/-! ## Objects -/

/-- A name that is written as it is. -/
def Name (key : List UInt8) : Prop := ∀ c ∈ key, isPrintable c = true ∧ c ≠ quote ∧ c ≠ backslash

theorem printString_name {key : List UInt8} (hk : Name key) : printString key = quote :: key ++ [quote] := by
  have hescape : key.flatMap escape = key := by
    induction key with
    | nil => rfl
    | cons c key ih =>
      obtain ⟨-, hq, hb⟩ := hk c (by simp)
      rw [List.flatMap_cons, ih fun d hd => hk d (by simp [hd]), escape, if_neg (by simp [hq, hb])]
      rfl
  rw [printString, hescape]

/-- A member: its name and the text of its value. -/
structure Written (L : Lexis) where
  key : List UInt8
  text : List UInt8
  value : Json
  name : Name key
  denotes : Denotes L text value

def Written.member (m : Written L) : List UInt8 × Json := (m.key, m.value)

def memberText (m : Written L) : List UInt8 := quote :: m.key ++ quote :: colon :: m.text

def membersText (m : Written L) : List (Written L) → List UInt8
  | [] => memberText m
  | next :: ms => memberText m ++ comma :: membersText next ms

def objectText (m : Written L) (ms : List (Written L)) : List UInt8 := braceOpen :: membersText m ms ++ [braceClose]

theorem readsString_name (hL : L.Standard) {key : List UInt8} (hk : Name key) (rest : List UInt8) :
    ReadsString L (key ++ quote :: rest) key rest := by
  induction key with
  | nil => exact .close rest
  | cons c key ih =>
    obtain ⟨hp, hq, hb⟩ := hk c (by simp)
    have hc : char L (c :: (key ++ quote :: rest)) = some ([c], key ++ quote :: rest) := by
      simp [char, hq, hb, hL.raw hp]
    exact .char hc (ih fun d hd => hk d (by simp [hd]))

/-- A token above the blank is not skipped. -/
theorem skip_token (hL : L.Standard) {c : UInt8} (hc : 0x20 < c) (rest : List UInt8) : skip L (c :: rest) = c :: rest := by
  have hno : L.space c ≠ true := fun h => UInt8.not_lt.2 (hL.space h) hc
  rw [skip, List.dropWhile_cons, if_neg hno]

theorem Reads.skip_item (hL : L.Standard) {text rest : List UInt8} {v : Json} (h : Reads L .item text v rest) :
    skip L text = text := by
  obtain ⟨c, text', rfl, hc⟩ := h.head
  refine skip_token hL ?_ text'
  rcases hc with rfl | rfl | rfl | rfl | rfl | rfl | hc
  iterate 6 decide
  simp only [isNumberByte, JsonText.isDigit, Bool.or_eq_true, Bool.and_eq_true, decide_eq_true_eq, UInt8.le_iff_toNat_le,
    ← UInt8.toNat_inj, UInt8.reduceToNat, UInt8.lt_iff_toNat_lt] at hc ⊢
  omega

theorem reads_members (hL : L.Standard) (m : Written L) (ms : List (Written L)) (rest : List UInt8) :
    Reads L .members (membersText m ms ++ braceClose :: rest) (.object ((m :: ms).map Written.member)) rest := by
  have ends : ∀ {c : UInt8} {rest}, isNumberByte c = false → Ends (c :: rest) := by
    intro c rest hc d hd
    cases hd
    exact hc
  -- The front of the text up to the value, whatever stands behind it.
  have front : ∀ (m : Written L) (tail : List UInt8), Ends tail →
      skip L (memberText m ++ tail) = quote :: (m.key ++ quote :: colon :: (m.text ++ tail)) ∧
      ReadsString L (m.key ++ quote :: colon :: (m.text ++ tail)) m.key (colon :: (m.text ++ tail)) ∧
      skip L (colon :: (m.text ++ tail)) = colon :: (m.text ++ tail) ∧
      Reads L .item (skip L (m.text ++ tail)) m.value tail := by
    intro m tail ht
    have hv := m.denotes tail ht
    refine ⟨?_, readsString_name hL m.name _, skip_token hL (by decide) _, ?_⟩
    · rw [memberText, List.append_assoc, List.cons_append, List.cons_append, List.cons_append]
      exact skip_token hL (by decide) _
    · rw [hv.skip_item hL]
      exact hv
  induction ms generalizing m with
  | nil =>
    obtain ⟨hq, hk, hc, hv⟩ := front m (braceClose :: rest) (ends (by decide))
    exact .lastMember hq hk hc hv (skip_token hL (by decide) rest)
  | cons next ms ih =>
    rw [membersText, List.append_assoc, List.cons_append]
    obtain ⟨hq, hk, hc, hv⟩ := front m (comma :: (membersText next ms ++ braceClose :: rest)) (ends (by decide))
    exact .nextMember hq hk hc hv (skip_token hL (by decide) _) (ih next)

/-- An object written out denotes the object of what its values denote. -/
theorem denotes_object (hL : L.Standard) (m : Written L) (ms : List (Written L)) :
    Denotes L (objectText m ms) (.object ((m :: ms).map Written.member)) := by
  intro rest _
  rw [objectText, List.append_assoc, List.cons_append]
  exact .object (reads_members hL m ms rest)

/-- A text that denotes an item is the first item of itself, and leaves nothing. -/
theorem Denotes.first (hL : L.Standard) {text : List UInt8} {v : Json} (h : Denotes L text v) : First L text v [] := by
  have hr := h [] (by simp [Ends])
  rw [List.append_nil] at hr
  rw [First, hr.skip_item hL]
  exact hr

/-- A member whose value is printed the same way. -/
theorem printMember_written (m : Written L) {v : JsonText.Scalar} (hv : v.print = m.text) :
    JsonText.printMember (m.key, v) = memberText m := by
  rw [JsonText.printMember, printString_name m.name, hv, memberText]
  simp

/-- The members that follow are each put behind a comma. -/
theorem membersText_eq (m : Written L) (ms : List (Written L)) :
    membersText m ms = memberText m ++ ms.flatMap fun next => comma :: memberText next := by
  induction ms generalizing m with
  | nil => simp [membersText]
  | cons next ms ih => rw [membersText, ih, List.flatMap_cons, List.cons_append]

/-! ## The reader for integers -/

theorem standard_cJsonIntegers : cJsonIntegers.Standard :=
  ⟨fun h => by simpa [cJsonIntegers, Lexis.integers] using h, fun _ => rfl⟩

theorem integer_cJsonIntegers (n : Int) : cJsonIntegers.ReadsInteger n := fun rest hr => by
  have hstop : JsonText.NoDigit rest := by
    intro c hc
    have := hr c hc
    simp only [isNumberByte, Bool.or_eq_false_iff] at this
    exact this.1.1.1.1.1
  show integer (printInt n ++ rest) = _
  by_cases hn : n < 0
  · have hminus : JsonText.expect JsonText.minus (JsonText.minus :: (digits n.natAbs ++ rest)) =
        some (digits n.natAbs ++ rest) := rfl
    rw [printInt, if_pos hn, List.cons_append, integer, hminus]
    dsimp only
    rw [JsonText.readNat_digits _ hstop, Option.map_some]
    dsimp only
    rw [show -((n.natAbs : Nat) : Int) = n by omega]
  · obtain ⟨c, text, e, hc⟩ := JsonText.digits_cons n.natAbs rest
    have hminus : JsonText.expect JsonText.minus (digits n.natAbs ++ rest) = none := by
      rw [e, JsonText.expect, if_neg]
      rintro rfl
      exact absurd hc (by decide)
    rw [printInt, if_neg hn, integer, hminus]
    dsimp only
    rw [JsonText.readNat_digits _ hstop, Option.map_some]
    dsimp only
    rw [show ((n.natAbs : Nat) : Int) = n by omega]

theorem decimal_cJsonIntegers (n : Nat) : cJsonIntegers.ReadsDecimal n := integer_cJsonIntegers n

end LedLamp.JsonSyntax
