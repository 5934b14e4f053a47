import LedLamp.JsonText
/-!
# JSON texts

The grammar of JSON texts over bytes, with the item each text denotes. What
readers of JSON differ in is a `Lexis`: which bytes are white space, which stand
for themselves in a string, and how a number literal is read. `Reads` relates the
front of a text to its item and to what follows it; a document is one item with
white space around it. Members keep their order and their duplicates.
-/

namespace LedLamp.JsonSyntax

open JsonText (quote backslash comma colon braceOpen braceClose)

def bracketOpen : UInt8 := 0x5B
def bracketClose : UInt8 := 0x5D

/-- The bytes of number literals. -/
def isNumberByte (c : UInt8) : Bool :=
  JsonText.isDigit c || c = 0x2D || c = 0x2B || c = 0x2E || c = 0x65 || c = 0x45

/-- What a reader of JSON is free to choose: the bytes it skips between tokens,
the bytes a string may hold as themselves (besides the quote and the backslash), and
the number at the front of a text with what follows it. -/
structure Lexis where
  space : UInt8 → Bool
  raw : UInt8 → Bool
  number : List UInt8 → Option (Number × List UInt8)
  space_plain : ∀ {c}, space c = true → c ≠ quote ∧ c ≠ backslash
  number_literal : ∀ {text n rest}, number text = some (n, rest) →
    ∃ literal, literal ≠ [] ∧ literal.all isNumberByte = true ∧ text = literal ++ rest

variable (L : Lexis)

/-- The text after white space. -/
def skip (text : List UInt8) : List UInt8 := text.dropWhile L.space

/-! ## Strings -/

def hexDigit (c : UInt8) : Option Nat :=
  if 0x30 ≤ c ∧ c ≤ 0x39 then some (c.toNat - 0x30)
  else if 0x41 ≤ c ∧ c ≤ 0x46 then some (c.toNat - 0x37)
  else if 0x61 ≤ c ∧ c ≤ 0x66 then some (c.toNat - 0x57)
  else none

/-- Four hexadecimal digits. -/
def hex4 : List UInt8 → Option (Nat × List UInt8)
  | a :: b :: c :: d :: rest => do
    let a ← hexDigit a
    let b ← hexDigit b
    let c ← hexDigit c
    let d ← hexDigit d
    return (((a * 16 + b) * 16 + c) * 16 + d, rest)
  | _ => none

/-- The UTF-8 of a code point. -/
def utf8 (n : Nat) : List UInt8 :=
  if n < 0x80 then [.ofNat n]
  else if n < 0x800 then [.ofNat (0xC0 + n / 0x40), .ofNat (0x80 + n % 0x40)]
  else if n < 0x10000 then [.ofNat (0xE0 + n / 0x1000), .ofNat (0x80 + n / 0x40 % 0x40), .ofNat (0x80 + n % 0x40)]
  else [.ofNat (0xF0 + n / 0x40000), .ofNat (0x80 + n / 0x1000 % 0x40), .ofNat (0x80 + n / 0x40 % 0x40),
    .ofNat (0x80 + n % 0x40)]

/-- What `\uXXXX` stands for, from its digits on: a high surrogate needs a low one
after it, and a low one cannot stand alone. -/
def unicode (text : List UInt8) : Option (List UInt8 × List UInt8) := do
  let (high, rest) ← hex4 text
  if 0xD800 ≤ high ∧ high < 0xDC00 then
    match rest with
    | 0x5C :: 0x75 :: rest => do
      let (low, rest) ← hex4 rest
      if 0xDC00 ≤ low ∧ low < 0xE000 then some (utf8 (0x10000 + (high - 0xD800) * 0x400 + (low - 0xDC00)), rest)
      else none
    | _ => none
  else if 0xDC00 ≤ high ∧ high < 0xE000 then none
  else some (utf8 high, rest)

/-- What a one-letter escape stands for. -/
def letter (e : UInt8) : Option UInt8 :=
  if e = quote ∨ e = backslash ∨ e = 0x2F then some e
  else if e = 0x62 then some 0x08
  else if e = 0x66 then some 0x0C
  else if e = 0x6E then some 0x0A
  else if e = 0x72 then some 0x0D
  else if e = 0x74 then some 0x09
  else none

/-- One character of a string: the bytes it stands for, and what follows it. -/
def char : List UInt8 → Option (List UInt8 × List UInt8)
  | [] => none
  | c :: rest =>
    if c = quote then none
    else if c ≠ backslash then if L.raw c then some ([c], rest) else none
    else match rest with
      | [] => none
      | e :: rest => if e = 0x75 then unicode rest else (letter e).map fun b => ([b], rest)

/-- A string from its first character on, up to the closing quote. -/
inductive ReadsString : List UInt8 → List UInt8 → List UInt8 → Prop
  | close (rest : List UInt8) : ReadsString (quote :: rest) [] rest
  | char {text bytes text' s rest : List UInt8} (hc : char L text = some (bytes, text'))
      (hs : ReadsString text' s rest) : ReadsString text (bytes ++ s) rest

/-! ## Items -/

/-- The words, with the items they denote. -/
def words : List (List UInt8 × Json) := [(ascii "null", .null), (ascii "true", .bool true), (ascii "false", .bool false)]

/-- The parts of the grammar: an item, and the items or members up to the closing
bracket of the array or object they belong to. -/
inductive Part
  | item
  | items
  | members

/-- The front of the text is this part, and denotes this item; the items and
members still to come denote the array and the object of them. -/
inductive Reads : Part → List UInt8 → Json → List UInt8 → Prop
  | word {word : List UInt8} {v : Json} (hw : (word, v) ∈ words) (rest : List UInt8) : Reads .item (word ++ rest) v rest
  | number {text rest : List UInt8} {n : Number} (hn : L.number text = some (n, rest)) :
      Reads .item text (.number n) rest
  | string {text s rest : List UInt8} (hs : ReadsString L text s rest) : Reads .item (quote :: text) (.string s) rest
  | emptyArray {text rest : List UInt8} (hc : skip L text = bracketClose :: rest) :
      Reads .item (bracketOpen :: text) (.array []) rest
  | array {text rest : List UInt8} {v : Json} (hi : Reads .items text v rest) : Reads .item (bracketOpen :: text) v rest
  | emptyObject {text rest : List UInt8} (hc : skip L text = braceClose :: rest) :
      Reads .item (braceOpen :: text) (.object []) rest
  | object {text rest : List UInt8} {v : Json} (hm : Reads .members text v rest) : Reads .item (braceOpen :: text) v rest
  | lastItem {text text' rest : List UInt8} {v : Json} (hv : Reads .item (skip L text) v text')
      (hc : skip L text' = bracketClose :: rest) : Reads .items text (.array [v]) rest
  | nextItem {text text' text'' rest : List UInt8} {v : Json} {vs : List Json} (hv : Reads .item (skip L text) v text')
      (hc : skip L text' = comma :: text'') (hr : Reads .items text'' (.array vs) rest) :
      Reads .items text (.array (v :: vs)) rest
  | lastMember {text key text₁ text₂ text₃ text₄ rest : List UInt8} {v : Json} (hq : skip L text = quote :: text₁)
      (hk : ReadsString L text₁ key text₂) (hc : skip L text₂ = colon :: text₃)
      (hv : Reads .item (skip L text₃) v text₄) (he : skip L text₄ = braceClose :: rest) :
      Reads .members text (.object [(key, v)]) rest
  | nextMember {text key text₁ text₂ text₃ text₄ text₅ rest : List UInt8} {v : Json} {members : List (List UInt8 × Json)}
      (hq : skip L text = quote :: text₁) (hk : ReadsString L text₁ key text₂) (hc : skip L text₂ = colon :: text₃)
      (hv : Reads .item (skip L text₃) v text₄) (he : skip L text₄ = comma :: text₅)
      (hr : Reads .members text₅ (.object members) rest) : Reads .members text (.object ((key, v) :: members)) rest

/-- The first item of a text, and what follows it. -/
def First (text : List UInt8) (v : Json) (rest : List UInt8) : Prop := Reads L .item (skip L text) v rest

/-- White space only. -/
def Blank (text : List UInt8) : Prop := text.all L.space = true

/-- The whole text is one item, with white space around it. -/
def Document (text : List UInt8) (v : Json) : Prop := ∃ rest, First L text v rest ∧ Blank L rest

/-! ## What is left is a suffix -/

variable {L}

theorem skip_suffix (text : List UInt8) : skip L text <:+ text := List.dropWhile_suffix _

/-- Four digits, as values. -/
theorem hex4_digits {text rest : List UInt8} {n : Nat} (h : hex4 text = some (n, rest)) :
    ∃ a b c d x y z w, text = a :: b :: c :: d :: rest ∧ hexDigit a = some x ∧ hexDigit b = some y ∧
      hexDigit c = some z ∧ hexDigit d = some w ∧ n = ((x * 16 + y) * 16 + z) * 16 + w := by
  match text with
  | a :: b :: c :: d :: text =>
    simp only [hex4, Option.bind_eq_bind, Option.bind_eq_some_iff, Option.pure_def, Option.some.injEq, Prod.mk.injEq] at h
    obtain ⟨x, hx, y, hy, z, hz, w, hw, e, rfl⟩ := h
    exact ⟨a, b, c, d, x, y, z, w, rfl, hx, hy, hz, hw, e.symm⟩
  | [] | [_] | [_, _] | [_, _, _] => simp [hex4] at h

theorem hex4_suffix {text rest : List UInt8} {n : Nat} (h : hex4 text = some (n, rest)) :
    ∃ digits, digits.length = 4 ∧ text = digits ++ rest := by
  obtain ⟨a, b, c, d, _, _, _, _, rfl, -⟩ := hex4_digits h
  exact ⟨[a, b, c, d], rfl, rfl⟩

theorem unicode_suffix {text bytes rest : List UInt8} (h : unicode text = some (bytes, rest)) : rest <:+ text := by
  simp only [unicode, Option.bind_eq_bind, Option.bind_eq_some_iff] at h
  obtain ⟨⟨high, rest₁⟩, h₁, h⟩ := h
  obtain ⟨digits, -, rfl⟩ := hex4_suffix h₁
  dsimp only at h
  split at h
  · split at h
    · simp only [Option.bind_eq_some_iff] at h
      obtain ⟨⟨low, rest₂⟩, h₂, h⟩ := h
      obtain ⟨digits', -, rfl⟩ := hex4_suffix h₂
      simp only [Option.ite_none_right_eq_some, Option.some.injEq, Prod.mk.injEq] at h
      obtain ⟨-, -, rfl⟩ := h
      exact ⟨digits ++ 0x5C :: 0x75 :: digits', by simp⟩
    · cases h
  · split at h
    · cases h
    · simp only [Option.some.injEq, Prod.mk.injEq] at h
      obtain ⟨-, rfl⟩ := h
      exact ⟨digits, rfl⟩

/-- A character takes at least one byte off the text. -/
theorem char_suffix {text bytes rest : List UInt8} (h : char L text = some (bytes, rest)) :
    ∃ c text', text = c :: text' ∧ c ≠ quote ∧ rest <:+ text' := by
  match text with
  | [] => simp [char] at h
  | c :: text' =>
    refine ⟨c, text', rfl, ?_, ?_⟩
    · rintro rfl
      simp [char] at h
    simp only [char, Option.ite_none_left_eq_some] at h
    obtain ⟨-, h⟩ := h
    split at h
    · simp only [Option.ite_none_right_eq_some, Option.some.injEq, Prod.mk.injEq] at h
      obtain ⟨-, -, rfl⟩ := h
      exact List.suffix_refl _
    · match text' with
      | [] => cases h
      | e :: text'' =>
        dsimp only at h
        split at h
        · exact (unicode_suffix h).trans (List.suffix_cons e text'')
        · simp only [Option.map_eq_some_iff, Prod.mk.injEq] at h
          obtain ⟨b, -, -, rfl⟩ := h
          exact List.suffix_cons e text''

theorem ReadsString.suffix {text s rest : List UInt8} (h : ReadsString L text s rest) : rest <:+ text := by
  induction h with
  | close rest => exact List.suffix_cons quote rest
  | char hc _ ih =>
    obtain ⟨c, text', rfl, -, hs⟩ := char_suffix hc
    exact ih.trans (hs.trans (List.suffix_cons c text'))

/-- What follows the next token is left of the text. -/
theorem suffix_of_skip {text rest : List UInt8} {c : UInt8} (h : skip L text = c :: rest) : rest <:+ text :=
  (List.suffix_cons c rest).trans (h ▸ skip_suffix text)

theorem Reads.suffix {part : Part} {text rest : List UInt8} {v : Json} (h : Reads L part text v rest) : rest <:+ text := by
  induction h with
  | word _ rest => exact List.suffix_append _ rest
  | number hn =>
    obtain ⟨literal, -, -, rfl⟩ := L.number_literal hn
    exact List.suffix_append _ _
  | string hs => exact hs.suffix.trans (List.suffix_cons _ _)
  | emptyArray hc => exact (suffix_of_skip hc).trans (List.suffix_cons _ _)
  | array _ ih => exact ih.trans (List.suffix_cons _ _)
  | emptyObject hc => exact (suffix_of_skip hc).trans (List.suffix_cons _ _)
  | object _ ih => exact ih.trans (List.suffix_cons _ _)
  | lastItem _ hc ih => exact (suffix_of_skip hc).trans (ih.trans (skip_suffix _))
  | nextItem _ hc _ ih ih' => exact ih'.trans ((suffix_of_skip hc).trans (ih.trans (skip_suffix _)))
  | lastMember hq hk hc _ he ih =>
    exact (suffix_of_skip he).trans (ih.trans ((skip_suffix _).trans ((suffix_of_skip hc).trans
      (hk.suffix.trans (suffix_of_skip hq)))))
  | nextMember hq hk hc _ he _ ih ih' =>
    exact ih'.trans ((suffix_of_skip he).trans (ih.trans ((skip_suffix _).trans ((suffix_of_skip hc).trans
      (hk.suffix.trans (suffix_of_skip hq))))))

/-! ## Integers -/

/-- An integer without leading zeros at the front of the text, and what follows it. -/
def integer (text : List UInt8) : Option (Number × List UInt8) :=
  match JsonText.expect JsonText.minus text with
  | some rest => (JsonText.readNat rest).map fun r => (.finite (-r.1) 0, r.2)
  | none => (JsonText.readNat text).map fun r => (.finite r.1 0, r.2)

theorem readNat_literal {text rest : List UInt8} {n : Nat} (h : JsonText.readNat text = some (n, rest)) :
    ∃ literal, literal ≠ [] ∧ literal.all isNumberByte = true ∧ text = literal ++ rest := by
  simp only [JsonText.readNat, Option.ite_none_left_eq_some, Option.some.injEq, Prod.mk.injEq, not_or] at h
  obtain ⟨⟨hne, -⟩, -, rfl⟩ := h
  refine ⟨_, hne, List.all_eq_true.2 fun c hc => ?_, List.takeWhile_append_dropWhile.symm⟩
  simp [isNumberByte, List.mem_takeWhile_imp hc]

theorem integer_literal {text rest : List UInt8} {n : Number} (h : integer text = some (n, rest)) :
    ∃ literal, literal ≠ [] ∧ literal.all isNumberByte = true ∧ text = literal ++ rest := by
  unfold integer at h
  split at h
  · rename_i text' hm
    simp only [Option.map_eq_some_iff, Prod.mk.injEq] at h
    obtain ⟨⟨k, rest'⟩, hr, -, rfl⟩ := h
    obtain ⟨literal, -, hall, rfl⟩ := readNat_literal hr
    refine ⟨JsonText.minus :: literal, by simp, by simp [hall, isNumberByte, JsonText.minus], ?_⟩
    cases text with
    | nil => cases hm
    | cons c text =>
      simp only [JsonText.expect, Option.ite_none_right_eq_some, Option.some.injEq] at hm
      obtain ⟨rfl, rfl⟩ := hm
      rfl
  · simp only [Option.map_eq_some_iff, Prod.mk.injEq] at h
    obtain ⟨⟨k, rest'⟩, hr, -, rfl⟩ := h
    exact readNat_literal hr

/-- A reader of JSON whose numbers are integers. -/
def Lexis.integers (space raw : UInt8 → Bool) (hspace : ∀ {c}, space c = true → c ≠ quote ∧ c ≠ backslash) : Lexis where
  space := space
  raw := raw
  number := integer
  space_plain := hspace
  number_literal := integer_literal

/-- The white space and the raw bytes of cJSON, with integers for numbers: every byte up
to the blank is skipped, NUL bytes with it, and a string holds any byte. -/
def cJsonIntegers : Lexis :=
  .integers (fun c => c ≤ 0x20) (fun _ => true) (by
    intro c h
    constructor <;>
    · rintro rfl
      exact absurd h (by decide))

end LedLamp.JsonSyntax
