import LedLamp.JsonNul
/-!
# Valid JSON texts

The productions of JSON, over whole texts: every text they derive, with the strings it
holds, names and values alike, in the order of the text. Nothing is asked of a text but
its syntax: names may repeat, numbers may be of any size, and a string is the characters
written in it and the code units of its escapes, so that a surrogate may stand alone. A
scan for NUL characters finds those of the strings of every such text (`NulScan.text`).
-/

namespace LedLamp.JsonSyntax

open JsonText (quote backslash comma colon braceOpen braceClose isDigit minus)

def isSpace (c : UInt8) : Bool := c = 0x20 || c = 0x09 || c = 0x0A || c = 0x0D

/-- A run of digits. -/
def Digits (text : List UInt8) : Prop := text ≠ [] ∧ text.all isDigit = true

/-- A number: an integer without leading zeros, then a fraction and an exponent or none. -/
def NumberLiteral (text : List UInt8) : Prop :=
  ∃ sign int frac exp, text = sign ++ int ++ frac ++ exp ∧ (sign = [] ∨ sign = [minus]) ∧
    (Digits int ∧ (int.head? = some 0x30 → int = [0x30])) ∧
    (frac = [] ∨ ∃ digits, frac = 0x2E :: digits ∧ Digits digits) ∧
    (exp = [] ∨ ∃ e sign digits, exp = e :: sign ++ digits ∧ (e = 0x65 ∨ e = 0x45) ∧
      (sign = [] ∨ sign = [0x2B] ∨ sign = [minus]) ∧ Digits digits)

/-- The inside of a string literal, with its characters: a byte as itself, an escape as
what it stands for. -/
inductive Chars : List UInt8 → List Nat → Prop
  | nil : Chars [] []
  | byte {c : UInt8} {text : List UInt8} {units : List Nat} (hc : 0x20 ≤ c) (hq : c ≠ quote) (hb : c ≠ backslash)
      (h : Chars text units) : Chars (c :: text) (c.toNat :: units)
  | letter {e b : UInt8} {text : List UInt8} {units : List Nat} (he : letter e = some b) (h : Chars text units) :
      Chars (backslash :: e :: text) (b.toNat :: units)
  | unicode {digits text : List UInt8} {n : Nat} {units : List Nat} (hd : hex4 digits = some (n, []))
      (h : Chars text units) : Chars (backslash :: 0x75 :: (digits ++ text)) (n :: units)

/-- The text is this part, and holds these strings. -/
inductive Derives : Part → List UInt8 → List (List Nat) → Prop
  | word {word : List UInt8} {v : Json} (hw : (word, v) ∈ words) : Derives .item word []
  | number {text : List UInt8} (hn : NumberLiteral text) : Derives .item text []
  | string {text : List UInt8} {units : List Nat} (hs : Chars text units) :
      Derives .item (quote :: (text ++ [quote])) [units]
  | emptyArray {ws : List UInt8} (hw : ws.all isSpace = true) : Derives .item (bracketOpen :: (ws ++ [bracketClose])) []
  | array {text : List UInt8} {strings : List (List Nat)} (h : Derives .items text strings) :
      Derives .item (bracketOpen :: (text ++ [bracketClose])) strings
  | emptyObject {ws : List UInt8} (hw : ws.all isSpace = true) : Derives .item (braceOpen :: (ws ++ [braceClose])) []
  | object {text : List UInt8} {strings : List (List Nat)} (h : Derives .members text strings) :
      Derives .item (braceOpen :: (text ++ [braceClose])) strings
  | lastItem {ws text ws' : List UInt8} {strings : List (List Nat)} (hw : ws.all isSpace = true)
      (h : Derives .item text strings) (hw' : ws'.all isSpace = true) : Derives .items (ws ++ text ++ ws') strings
  | nextItem {ws text ws' rest : List UInt8} {strings strings' : List (List Nat)} (hw : ws.all isSpace = true)
      (h : Derives .item text strings) (hw' : ws'.all isSpace = true) (hr : Derives .items rest strings') :
      Derives .items (ws ++ text ++ ws' ++ comma :: rest) (strings ++ strings')
  | lastMember {ws key ws₁ ws₂ text ws' : List UInt8} {name : List Nat} {strings : List (List Nat)}
      (hw : ws.all isSpace = true) (hk : Chars key name) (hw₁ : ws₁.all isSpace = true) (hw₂ : ws₂.all isSpace = true)
      (h : Derives .item text strings) (hw' : ws'.all isSpace = true) :
      Derives .members (ws ++ quote :: (key ++ quote :: (ws₁ ++ colon :: (ws₂ ++ text ++ ws')))) (name :: strings)
  | nextMember {ws key ws₁ ws₂ text ws' rest : List UInt8} {name : List Nat} {strings strings' : List (List Nat)}
      (hw : ws.all isSpace = true) (hk : Chars key name) (hw₁ : ws₁.all isSpace = true) (hw₂ : ws₂.all isSpace = true)
      (h : Derives .item text strings) (hw' : ws'.all isSpace = true) (hr : Derives .members rest strings') :
      Derives .members (ws ++ quote :: (key ++ quote :: (ws₁ ++ colon :: (ws₂ ++ text ++ ws' ++ comma :: rest))))
        (name :: (strings ++ strings'))

/-- A valid text, holding these strings: one item with white space around it. -/
def ValidText (text : List UInt8) (strings : List (List Nat)) : Prop :=
  ∃ ws item ws', text = ws ++ item ++ ws' ∧ ws.all isSpace = true ∧ ws'.all isSpace = true ∧ Derives .item item strings

/-! ## Scans of valid texts -/

theorem hex4_append {digits : List UInt8} {n : Nat} (h : hex4 digits = some (n, [])) (rest : List UInt8) :
    hex4 (digits ++ rest) = some (n, rest) := by
  obtain ⟨a, b, c, d, x, y, z, w, rfl, hx, hy, hz, hw, rfl⟩ := hex4_digits h
  simp [hex4, hx, hy, hz, hw]

/-- Bytes of a kind that excludes quotes and backslashes. -/
theorem all_plain {p : UInt8 → Bool} {text : List UInt8} (hq : p quote = false) (hb : p backslash = false)
    (h : text.all p = true) : text.all (fun c => c ≠ quote && c ≠ backslash) = true := by
  refine List.all_eq_true.2 fun c hc => ?_
  have := List.all_eq_true.1 h c hc
  rw [Bool.and_eq_true, decide_eq_true_eq, decide_eq_true_eq]
  constructor
  · rintro rfl
    rw [hq] at this
    cases this
  · rintro rfl
    rw [hb] at this
    cases this

theorem NumberLiteral.bytes {text : List UInt8} (h : NumberLiteral text) : text.all isNumberByte = true := by
  obtain ⟨sign, int, frac, exp, rfl, hsign, ⟨hint, -⟩, hfrac, hexp⟩ := h
  have digit : ∀ {ds : List UInt8}, Digits ds → ∀ c ∈ ds, isNumberByte c = true := fun hd c hc => by
    simp [isNumberByte, List.all_eq_true.1 hd.2 c hc]
  refine List.all_eq_true.2 fun c hc => ?_
  simp only [List.mem_append] at hc
  rcases hc with ((hc | hc) | hc) | hc
  · rcases hsign with rfl | rfl
    · cases hc
    · obtain rfl := List.mem_singleton.1 hc
      rfl
  · exact digit hint c hc
  · rcases hfrac with rfl | ⟨ds, rfl, hd⟩
    · cases hc
    rcases List.mem_cons.1 hc with rfl | hc
    · rfl
    · exact digit hd c hc
  · rcases hexp with rfl | ⟨e, sign', ds, rfl, he, hs, hd⟩
    · cases hc
    simp only [List.cons_append, List.mem_cons, List.mem_append] at hc
    rcases hc with rfl | hc | hc
    · rcases he with rfl | rfl <;> rfl
    · rcases hs with rfl | rfl | rfl
      · cases hc
      · obtain rfl := List.mem_singleton.1 hc
        rfl
      · obtain rfl := List.mem_singleton.1 hc
        rfl
    · exact digit hd c hc

namespace NulScan

variable {outside inside : List UInt8 → Bool} (S : NulScan (· ≠ 0) outside inside)

include S

theorem blank {ws : List UInt8} (hw : ws.all isSpace = true) (rest : List UInt8) : outside (ws ++ rest) = outside rest :=
  S.pass (all_plain (by decide) (by decide) hw) rest

/-- The scan finds the NUL characters of a string literal, and goes on behind it. -/
theorem chars {text : List UInt8} {units : List Nat} (h : Chars text units) (rest : List UInt8) :
    inside (text ++ quote :: rest) = (units.contains 0 || outside rest) := by
  induction h with
  | nil => exact S.closing rest
  | @byte c text units hc hq hb _ ih =>
    have h0 : c ≠ 0 := by
      rintro rfl
      exact absurd hc (by decide)
    have hn : c.toNat ≠ 0 := fun e => h0 (UInt8.toNat_inj.1 e)
    rw [List.cons_append, S.byte h0 hq hb, ih]
    simp [h0, hn.symm]
  | @letter e b text units he _ ih =>
    obtain ⟨hu, hb⟩ := letter_nul he
    have hn : b.toNat ≠ 0 := fun e => hb (UInt8.toNat_inj.1 e)
    rw [List.cons_append, List.cons_append, S.letter hu, ih]
    simp [hn.symm]
  | @unicode digits text n units hd _ ih =>
    have hd' := hex4_append hd (text ++ quote :: rest)
    rw [List.cons_append, List.cons_append, List.append_assoc, S.unicode hd', ih]
    simp [eq_comm, Bool.or_assoc]

/-- The scan finds the NUL characters of the strings of a part, and goes on behind it. -/
theorem derives {part : Part} {text : List UInt8} {strings : List (List Nat)} (h : Derives part text strings)
    (rest : List UInt8) : outside (text ++ rest) = (strings.any (·.contains 0) || outside rest) := by
  induction h generalizing rest with
  | word hw =>
    simp only [words, List.mem_cons, Prod.mk.injEq, List.not_mem_nil, or_false] at hw
    rcases hw with ⟨rfl, rfl⟩ | ⟨rfl, rfl⟩ | ⟨rfl, rfl⟩ <;> exact S.pass (by decide) rest
  | number hn => exact S.pass (all_plain (by decide) (by decide) hn.bytes) rest
  | string hs =>
    simp only [List.cons_append, List.append_assoc, List.nil_append]
    rw [S.opening, S.chars hs]
    simp
  | emptyArray hw =>
    simp only [List.cons_append, List.append_assoc, List.nil_append]
    rw [S.plain (by decide) (by decide), S.blank hw, S.plain (by decide) (by decide)]
    simp
  | array _ ih =>
    simp only [List.cons_append, List.append_assoc, List.nil_append]
    rw [S.plain (by decide) (by decide), ih, S.plain (by decide) (by decide)]
  | emptyObject hw =>
    simp only [List.cons_append, List.append_assoc, List.nil_append]
    rw [S.plain (by decide) (by decide), S.blank hw, S.plain (by decide) (by decide)]
    simp
  | object _ ih =>
    simp only [List.cons_append, List.append_assoc, List.nil_append]
    rw [S.plain (by decide) (by decide), ih, S.plain (by decide) (by decide)]
  | lastItem hw _ hw' ih =>
    simp only [List.append_assoc]
    rw [S.blank hw, ih, S.blank hw']
  | nextItem hw _ hw' _ ih ih' =>
    simp only [List.cons_append, List.append_assoc]
    rw [S.blank hw, ih, S.blank hw', S.plain (by decide) (by decide), ih', List.any_append, Bool.or_assoc]
  | lastMember hw hk hw₁ hw₂ _ hw' ih =>
    simp only [List.cons_append, List.append_assoc]
    rw [S.blank hw, S.opening, S.chars hk, S.blank hw₁, S.plain (by decide) (by decide), S.blank hw₂, ih, S.blank hw',
      List.any_cons, Bool.or_assoc]
  | nextMember hw hk hw₁ hw₂ _ hw' _ ih ih' =>
    simp only [List.cons_append, List.append_assoc]
    rw [S.blank hw, S.opening, S.chars hk, S.blank hw₁, S.plain (by decide) (by decide), S.blank hw₂, ih, S.blank hw',
      S.plain (by decide) (by decide), ih', List.any_cons, List.any_append, Bool.or_assoc, Bool.or_assoc]

/-- Of a valid text the scan finds the NUL characters of its strings, and nothing else. -/
theorem text {text : List UInt8} {strings : List (List Nat)} (h : ValidText text strings) (hnil : outside [] = false) :
    outside text = strings.any (·.contains 0) := by
  obtain ⟨ws, item, ws', rfl, hw, hw', hd⟩ := h
  have hend : outside ws' = false := by
    have := S.blank hw' []
    rwa [List.append_nil, hnil] at this
  rw [List.append_assoc, S.blank hw, S.derives hd, hend, Bool.or_false]

end NulScan

end LedLamp.JsonSyntax
