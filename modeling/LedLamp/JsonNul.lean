import LedLamp.JsonSyntax
/-!
# NUL bytes in the strings of a text

A string of a document may denote text with a NUL byte in it, which every C string
function then takes for its end: through the escape `\u0000`, or through a raw NUL
where the reader lets one pass. A scan of the raw text looks for these without
parsing. `NulScan` says what one step of such a scan has to do; `NulScan.reads`
is then that on a text the grammar derives, the scan finds exactly the NUL bytes of
its strings and names, and in a written text none (`NulScan.printObject`).
-/

namespace LedLamp

mutual

/-- Some string or member name of the item, at any depth, has a NUL byte. -/
def Json.holdsNul : Json → Bool
  | .string s => s.contains 0
  | .array items => itemsHoldNul items
  | .object members => membersHoldNul members
  | _ => false

def Json.itemsHoldNul : List Json → Bool
  | [] => false
  | v :: vs => v.holdsNul || itemsHoldNul vs

def Json.membersHoldNul : List (List UInt8 × Json) → Bool
  | [] => false
  | (key, v) :: members => key.contains 0 || v.holdsNul || membersHoldNul members

end

/-- A member of an object without NUL bytes has none. -/
theorem Json.membersHoldNul_mem {members : List (List UInt8 × Json)} (h : membersHoldNul members = false) :
    ∀ m ∈ members, (0 : UInt8) ∉ m.1 ∧ m.2.holdsNul = false := by
  induction members with
  | nil => simp
  | cons m members ih =>
    obtain ⟨key, v⟩ := m
    simp only [membersHoldNul, Bool.or_eq_false_iff] at h
    obtain ⟨⟨hkey, hv⟩, hrest⟩ := h
    intro m hm
    rcases List.mem_cons.1 hm with rfl | hm
    · exact ⟨by simpa using hkey, hv⟩
    · exact ih hrest m hm

theorem Json.membersHoldNul_iff {members : List (List UInt8 × Json)} : membersHoldNul members = false ↔
    ∀ m ∈ members, (0 : UInt8) ∉ m.1 ∧ m.2.holdsNul = false := by
  refine ⟨membersHoldNul_mem, fun h => ?_⟩
  induction members with
  | nil => rfl
  | cons m members ih =>
    obtain ⟨hkey, hv⟩ := h m (by simp)
    simp [membersHoldNul, hkey, hv, ih fun m hm => h m (by simp [hm])]

namespace JsonSyntax

open JsonText (quote backslash comma colon braceOpen braceClose isPrintable)

variable {L : Lexis}

/-! ## Escapes -/

theorem hexDigit_lt {c : UInt8} {n : Nat} (h : hexDigit c = some n) : n < 16 := by
  simp only [hexDigit, UInt8.le_iff_toNat_le, UInt8.reduceToNat] at h
  split at h
  · cases h; omega
  split at h
  · cases h; omega
  split at h
  · cases h; omega
  · cases h

/-- Only the digit 0 has the value 0. -/
theorem hexDigit_zero {c : UInt8} : hexDigit c = some 0 ↔ c = 0x30 := by
  constructor
  · intro h
    rw [← UInt8.toNat_inj]
    simp only [hexDigit, UInt8.le_iff_toNat_le, UInt8.reduceToNat] at h ⊢
    split at h
    · have := Option.some.inj h; omega
    split at h
    · have := Option.some.inj h; omega
    split at h
    · have := Option.some.inj h; omega
    · cases h
  · rintro rfl
    rfl

/-- A hexadecimal digit is no backslash and no `u`. -/
theorem hexDigit_plain {c : UInt8} {n : Nat} (h : hexDigit c = some n) : c ≠ backslash ∧ c ≠ 0 ∧ c ≠ quote := by
  refine ⟨?_, ?_, ?_⟩ <;>
  · rintro rfl
    exact absurd h (by decide +revert)

/-- The value is 0 exactly when the digits are `0000`. -/
theorem hex4_zero {text rest : List UInt8} {n : Nat} (h : hex4 text = some (n, rest)) :
    n = 0 ↔ [0x30, 0x30, 0x30, 0x30].isPrefixOf text = true := by
  obtain ⟨a, b, c, d, x, y, z, w, rfl, hx, hy, hz, hw, rfl⟩ := hex4_digits h
  simp only [List.isPrefixOf_cons_cons, List.isPrefixOf_nil_left, Bool.and_true, Bool.and_eq_true, beq_iff_eq]
  constructor
  · intro hn
    obtain ⟨rfl, rfl, rfl, rfl⟩ : x = 0 ∧ y = 0 ∧ z = 0 ∧ w = 0 := by omega
    exact ⟨(hexDigit_zero.1 hx).symm, (hexDigit_zero.1 hy).symm, (hexDigit_zero.1 hz).symm, (hexDigit_zero.1 hw).symm⟩
  · rintro ⟨rfl, rfl, rfl, rfl⟩
    have value : ∀ {v}, hexDigit 0x30 = some v → v = 0 := fun hv => by
      rw [hexDigit_zero.2 rfl] at hv
      exact (Option.some.inj hv).symm
    rw [value hx, value hy, value hz, value hw]

/-- The UTF-8 of a code point has a NUL byte only for U+0000. -/
theorem utf8_nul {n : Nat} (hn : n < 0x110000) : (utf8 n).contains 0 = decide (n = 0) := by
  have zero : ∀ k, k < 256 → ((0 : UInt8) = UInt8.ofNat k ↔ k = 0) := by
    intro k hk
    rw [← UInt8.toNat_inj, UInt8.toNat_ofNat', Nat.mod_eq_of_lt (by omega)]
    simp [eq_comm]
  rw [Bool.eq_iff_iff, List.contains_iff_mem, decide_eq_true_eq, utf8]
  split
  · rw [List.mem_singleton, zero n (by omega)]
  split
  · simp only [List.mem_cons, List.not_mem_nil, or_false]
    rw [zero (0xC0 + n / 0x40) (by omega), zero (0x80 + n % 0x40) (by omega)]
    omega
  split
  · simp only [List.mem_cons, List.not_mem_nil, or_false]
    rw [zero (0xE0 + n / 0x1000) (by omega), zero (0x80 + n / 0x40 % 0x40) (by omega), zero (0x80 + n % 0x40) (by omega)]
    omega
  · simp only [List.mem_cons, List.not_mem_nil, or_false]
    rw [zero (0xF0 + n / 0x40000) (by omega), zero (0x80 + n / 0x1000 % 0x40) (by omega),
      zero (0x80 + n / 0x40 % 0x40) (by omega), zero (0x80 + n % 0x40) (by omega)]
    omega

/-- A `\uXXXX` escape stands for a NUL byte exactly when its digits are `0000`, and
then for nothing else. What is left of it after its digits is nothing, or one more
escape whose digits are not `0000`. -/
theorem unicode_nul {text bytes rest : List UInt8} (h : unicode text = some (bytes, rest)) :
    ∃ n rest₁, hex4 text = some (n, rest₁) ∧ bytes.contains 0 = decide (n = 0) ∧
      (rest = rest₁ ∨ ∃ low rest₂, rest₁ = backslash :: 0x75 :: rest₂ ∧ hex4 rest₂ = some (low, rest) ∧ low ≠ 0) := by
  simp only [unicode, Option.bind_eq_bind, Option.bind_eq_some_iff] at h
  obtain ⟨⟨high, rest₁⟩, h₁, h⟩ := h
  refine ⟨high, rest₁, h₁, ?_⟩
  have hlt : high < 0x10000 := by
    obtain ⟨_, _, _, _, x, y, z, w, -, hx, hy, hz, hw, rfl⟩ := hex4_digits h₁
    have := hexDigit_lt hx
    have := hexDigit_lt hy
    have := hexDigit_lt hz
    have := hexDigit_lt hw
    omega
  dsimp only at h
  split at h
  · rename_i hhigh
    split at h
    · rename_i rest₂
      simp only [Option.bind_eq_some_iff, Option.ite_none_right_eq_some, Option.some.injEq, Prod.mk.injEq] at h
      obtain ⟨⟨low, rest₃⟩, h₂, hlow, rfl, rfl⟩ := h
      refine ⟨?_, .inr ⟨low, rest₂, rfl, h₂, by omega⟩⟩
      rw [utf8_nul (by omega), decide_eq_decide]
      omega
    · cases h
  · split at h
    · cases h
    · simp only [Option.some.injEq, Prod.mk.injEq] at h
      obtain ⟨rfl, rfl⟩ := h
      exact ⟨utf8_nul (by omega), .inl rfl⟩

/-- A one-letter escape never stands for a NUL byte, and its letter is no `u`. -/
theorem letter_nul {e b : UInt8} (h : letter e = some b) : e ≠ 0x75 ∧ b ≠ 0 := by
  revert h
  simp only [letter]
  split
  · rename_i he
    rintro ⟨⟩
    rcases he with rfl | rfl | rfl <;> decide
  repeat'
    split
    · rename_i he
      rintro ⟨⟩
      exact ⟨by rw [he]; decide, by decide⟩
  exact fun h => by cases h

/-- What a character of a string can be: a byte as itself, or one of the two escapes. -/
theorem char_cases {text bytes rest : List UInt8} (h : char L text = some (bytes, rest)) :
    (∃ c, c ≠ quote ∧ c ≠ backslash ∧ text = c :: rest ∧ bytes = [c]) ∨
    (∃ e b, text = backslash :: e :: rest ∧ letter e = some b ∧ bytes = [b]) ∨
    (∃ text', text = backslash :: 0x75 :: text' ∧ unicode text' = some (bytes, rest)) := by
  cases text with
  | nil => simp [char] at h
  | cons c text =>
    simp only [char, Option.ite_none_left_eq_some] at h
    obtain ⟨hq, h⟩ := h
    split at h
    · rename_i hb
      simp only [Option.ite_none_right_eq_some, Option.some.injEq, Prod.mk.injEq] at h
      obtain ⟨-, rfl, rfl⟩ := h
      exact .inl ⟨c, hq, hb, rfl, rfl⟩
    · rename_i hb
      obtain rfl : c = backslash := by simpa using hb
      cases text with
      | nil => cases h
      | cons e text =>
        dsimp only at h
        split at h
        · rename_i he
          exact .inr (.inr ⟨text, by rw [he], h⟩)
        · simp only [Option.map_eq_some_iff, Prod.mk.injEq] at h
          obtain ⟨b, hl, rfl, rfl⟩ := h
          exact .inr (.inl ⟨e, b, rfl, hl, rfl⟩)

/-! ## Scans -/

/-- What a scan for NUL bytes does in one step, outside and inside a string, on
texts whose bytes satisfy `P`. -/
structure NulScan (P : UInt8 → Prop) (outside inside : List UInt8 → Bool) : Prop where
  plain : ∀ {c rest}, c ≠ quote → c ≠ backslash → outside (c :: rest) = outside rest
  opening : ∀ rest, outside (quote :: rest) = inside rest
  closing : ∀ rest, inside (quote :: rest) = outside rest
  byte : ∀ {c rest}, P c → c ≠ quote → c ≠ backslash → inside (c :: rest) = (decide (c = 0) || inside rest)
  letter : ∀ {e rest}, e ≠ 0x75 → inside (backslash :: e :: rest) = inside rest
  unicode : ∀ {text n rest}, hex4 text = some (n, rest) →
    inside (backslash :: 0x75 :: text) = (decide (n = 0) || inside rest)

namespace NulScan

variable {P : UInt8 → Prop} {outside inside : List UInt8 → Bool} (S : NulScan P outside inside)

include S

/-- A character of a string: the scan finds the NUL byte it stands for. -/
theorem char {text bytes rest : List UInt8} (hp : ∀ c ∈ text, P c) (h : char L text = some (bytes, rest)) :
    inside text = (bytes.contains 0 || inside rest) := by
  rcases char_cases h with ⟨c, hq, hb, rfl, rfl⟩ | ⟨e, b, rfl, hl, rfl⟩ | ⟨text', rfl, hu⟩
  · rw [S.byte (hp c (by simp)) hq hb]
    simp [eq_comm]
  · obtain ⟨he, hb⟩ := letter_nul hl
    rw [S.letter he]
    simp [hb.symm]
  · obtain ⟨n, rest₁, h₁, hn, rfl | ⟨low, rest₂, rfl, h₂, hlow⟩⟩ := unicode_nul hu
    · rw [S.unicode h₁, hn]
    · rw [S.unicode h₁, S.unicode h₂, hn, decide_eq_false hlow, Bool.false_or]

theorem skip (text : List UInt8) : outside (skip L text) = outside text := by
  induction text with
  | nil => rfl
  | cons c text ih =>
    unfold JsonSyntax.skip at ih ⊢
    rw [List.dropWhile_cons]
    split
    · rename_i hc
      rw [ih, S.plain (L.space_plain hc).1 (L.space_plain hc).2]
    · rfl

/-- White space and one byte that is neither quote nor backslash are passed over. -/
theorem token {text rest : List UInt8} {c : UInt8} (h : JsonSyntax.skip L text = c :: rest) (hq : c ≠ quote)
    (hb : c ≠ backslash) : outside text = outside rest := by
  rw [← S.skip, h, S.plain hq hb]

theorem pass {token : List UInt8} (ht : token.all (fun c => c ≠ quote && c ≠ backslash) = true) (rest : List UInt8) :
    outside (token ++ rest) = outside rest := by
  induction token with
  | nil => rfl
  | cons c token ih =>
    simp only [List.all_cons, Bool.and_eq_true, decide_eq_true_eq] at ht
    rw [List.cons_append, S.plain ht.1.1 ht.1.2, ih ht.2]

theorem string {text s rest : List UInt8} (h : ReadsString L text s rest) (hp : ∀ c ∈ text, P c) :
    inside text = (s.contains 0 || outside rest) := by
  induction h with
  | close rest => simp [S.closing]
  | @char text bytes text' s rest hc _ ih =>
    obtain ⟨c, t, e, -, hs⟩ := char_suffix hc
    have hp' : ∀ c ∈ text', P c := fun d hd => hp d (by rw [e]; exact List.mem_cons_of_mem c (hs.subset hd))
    rw [S.char hp hc, ih hp', List.contains_append, Bool.or_assoc]

/-- On a text that the grammar derives, the scan finds the NUL bytes of its strings. -/
theorem reads {part : Part} {text rest : List UInt8} {v : Json} (h : Reads L part text v rest) (hp : ∀ c ∈ text, P c) :
    outside text = (v.holdsNul || outside rest) := by
  have left : ∀ {text text' : List UInt8}, text' <:+ text → (∀ c ∈ text, P c) → ∀ c ∈ text', P c :=
    fun hs hp c hc => hp c (hs.subset hc)
  induction h with
  | word hw rest =>
    simp only [words, List.mem_cons, Prod.mk.injEq, List.not_mem_nil, or_false] at hw
    rcases hw with ⟨rfl, rfl⟩ | ⟨rfl, rfl⟩ | ⟨rfl, rfl⟩ <;> exact S.pass (by decide) rest
  | number hn =>
    obtain ⟨literal, -, hall, rfl⟩ := L.number_literal hn
    refine S.pass (List.all_eq_true.2 fun c hc => ?_) _
    have hn := List.all_eq_true.1 hall c hc
    rw [Bool.and_eq_true, decide_eq_true_eq, decide_eq_true_eq]
    constructor <;>
    · rintro rfl
      exact absurd hn (by decide)
  | string hs =>
    rw [S.opening, S.string hs (left (List.suffix_cons _ _) hp)]
    rfl
  | emptyArray hc =>
    rw [S.plain (by decide) (by decide), S.token hc (by decide) (by decide)]
    rfl
  | array _ ih =>
    rw [S.plain (by decide) (by decide), ih (left (List.suffix_cons _ _) hp)]
  | emptyObject hc =>
    rw [S.plain (by decide) (by decide), S.token hc (by decide) (by decide)]
    rfl
  | object _ ih =>
    rw [S.plain (by decide) (by decide), ih (left (List.suffix_cons _ _) hp)]
  | lastItem _ hc ih =>
    rw [← S.skip, ih (left (skip_suffix (L := L) _) hp), S.token hc (by decide) (by decide)]
    simp [Json.holdsNul, Json.itemsHoldNul]
  | nextItem hv hc _ ih ih' =>
    have hp₁ := left (skip_suffix (L := L) _) hp
    rw [← S.skip, ih hp₁, S.token hc (by decide) (by decide), ih' (left ((suffix_of_skip hc).trans hv.suffix) hp₁)]
    simp [Json.holdsNul, Json.itemsHoldNul, Bool.or_assoc]
  | lastMember hq hk hc hv he ih =>
    have hp₁ := left (suffix_of_skip hq) hp
    have hp₃ := left (suffix_of_skip hc) (left hk.suffix hp₁)
    rw [← S.skip, hq, S.opening, S.string hk hp₁, S.token hc (by decide) (by decide), ← S.skip,
      ih (left (skip_suffix (L := L) _) hp₃), S.token he (by decide) (by decide)]
    simp [Json.holdsNul, Json.membersHoldNul, Bool.or_assoc]
  | nextMember hq hk hc hv he _ ih ih' =>
    have hp₁ := left (suffix_of_skip hq) hp
    have hp₃ := left (suffix_of_skip hc) (left hk.suffix hp₁)
    have hp₄ := left (skip_suffix (L := L) _) hp₃
    rw [← S.skip, hq, S.opening, S.string hk hp₁, S.token hc (by decide) (by decide), ← S.skip, ih hp₄,
      S.token he (by decide) (by decide), ih' (left ((suffix_of_skip he).trans hv.suffix) hp₄)]
    simp [Json.holdsNul, Json.membersHoldNul, Bool.or_assoc]

/-- Of a whole document the scan finds the NUL bytes, and nothing else. -/
theorem document {text : List UInt8} {v : Json} (h : Document L text v) (hp : ∀ c ∈ text, P c)
    (hnil : outside [] = false) : outside text = v.holdsNul := by
  obtain ⟨rest, hf, hb⟩ := h
  have hrest : JsonSyntax.skip L rest = [] := by
    rw [JsonSyntax.skip, List.dropWhile_eq_nil_iff]
    exact List.all_eq_true.1 hb
  rw [← S.skip, S.reads hf fun c hc => hp c ((skip_suffix text).subset hc), ← S.skip rest, hrest, hnil, Bool.or_false]

/-! ### Written texts -/

section Written

variable (hP : ∀ c, isPrintable c = true → P c)

include hP

/-- Each character is passed over with the backslash it is escaped by. -/
theorem escaped {s : List UInt8} (hs : s.all isPrintable = true) (rest : List UInt8) :
    inside (s.flatMap JsonText.escape ++ quote :: rest) = outside rest := by
  induction s with
  | nil => exact S.closing rest
  | cons c s ih =>
    simp only [List.all_cons, Bool.and_eq_true] at hs
    have h0 := JsonText.printable_ne_zero hs.1
    simp only [List.flatMap_cons, List.append_assoc, JsonText.escape]
    split
    · rename_i hc
      have hu : c ≠ 0x75 := by rcases hc with rfl | rfl <;> decide
      rw [List.cons_append, List.cons_append, List.nil_append, S.letter hu, ih hs.2]
    · rename_i hc
      rw [not_or] at hc
      rw [List.cons_append, List.nil_append, S.byte (hP c hs.1) hc.1 hc.2, decide_eq_false h0, Bool.false_or, ih hs.2]

theorem printString {s : List UInt8} (hs : s.all isPrintable = true) (rest : List UInt8) :
    outside (JsonText.printString s ++ rest) = outside rest := by
  rw [JsonText.printString, List.append_assoc, List.cons_append, S.opening]
  exact S.escaped hP hs rest

omit hP in
theorem printInt (n : Int) (rest : List UInt8) : outside (JsonText.printInt n ++ rest) = outside rest := by
  have plain : ∀ c ∈ JsonText.digits n.natAbs, c ≠ quote ∧ c ≠ backslash := by
    intro c hc
    have hd := JsonText.digits_isDigit _ _ hc
    constructor <;>
    · rintro rfl
      exact absurd hd (by decide)
  have hdigits : outside (JsonText.digits n.natAbs ++ rest) = outside rest :=
    S.pass (List.all_eq_true.2 fun c hc => by simpa using plain c hc) rest
  unfold JsonText.printInt
  split
  · rw [List.cons_append, S.plain (by decide) (by decide), hdigits]
  · exact hdigits

theorem printMember {m : JsonText.Member} (hm : m.Printable) (rest : List UInt8) :
    outside (JsonText.printMember m ++ rest) = outside rest := by
  have hv : outside (m.2.print ++ rest) = outside rest := by
    cases hv : m.2 with
    | string s => exact S.printString hP (hm.2 s hv) rest
    | int n => exact S.printInt n.toInt rest
  rw [JsonText.printMember, List.append_assoc, S.printString hP hm.1, List.cons_append,
    S.plain (by decide) (by decide), hv]

theorem printMembers {members : List JsonText.Member} (hm : ∀ m ∈ members, m.Printable) (rest : List UInt8) :
    outside (JsonText.printMembers members ++ rest) = outside rest := by
  induction members using JsonText.printMembers.induct with
  | case1 => rfl
  | case2 m => exact S.printMember hP (hm m (by simp)) rest
  | case3 m m' members ih =>
    rw [JsonText.printMembers, List.append_assoc, S.printMember hP (hm m (by simp)), List.cons_append,
      S.plain (by decide) (by decide), ih fun m'' h => hm m'' (List.mem_cons_of_mem m h)]

/-- In a written text the scan finds nothing. -/
theorem printObject {members : List JsonText.Member} (hm : ∀ m ∈ members, m.Printable) (hnil : outside [] = false) :
    outside (JsonText.printObject members) = false := by
  rw [JsonText.printObject, List.cons_append, S.plain (by decide) (by decide), S.printMembers hP hm,
    S.plain (by decide) (by decide), hnil]

end Written

end NulScan

/-! ## The scan of all bytes -/

/-- Some string literal holds a raw NUL or the escape of one: the scan goes on past
NUL bytes, to the end of the text. -/
def nulScan (inString escaped : Bool) : List UInt8 → Bool
  | [] => false
  | c :: rest =>
    if !inString then nulScan (c = quote) false rest
    else if escaped then (c = 0x75 && [0x30, 0x30, 0x30, 0x30].isPrefixOf rest) || nulScan true false rest
    else if c = quote then nulScan false false rest
    else c = 0 || nulScan true (c = backslash) rest

/-- Passing over the digits of an escape. -/
theorem nulScan_hex4 {text rest : List UInt8} {n : Nat} (h : hex4 text = some (n, rest)) :
    nulScan true false text = nulScan true false rest := by
  obtain ⟨a, b, c, d, x, y, z, w, rfl, hx, hy, hz, hw, -⟩ := hex4_digits h
  have step : ∀ {c n} (rest : List UInt8), hexDigit c = some n → nulScan true false (c :: rest) = nulScan true false rest := by
    intro c n rest hc
    obtain ⟨hb, h0, hq⟩ := hexDigit_plain hc
    simp [nulScan, hb, h0, hq]
  rw [step _ hx, step _ hy, step _ hz, step _ hw]

theorem nulScan_nulScan : NulScan (fun _ => True) (nulScan false false) (nulScan true false) where
  plain := by
    intro c rest hq _
    simp [nulScan, hq]
  opening := by
    intro rest
    simp [nulScan]
  closing := by
    intro rest
    simp [nulScan]
  byte := by
    intro c rest _ hq hb
    simp [nulScan, hq, hb]
  letter := by
    intro e rest he
    simp [nulScan, backslash, quote, he]
  unicode := by
    intro text n rest h
    rw [← nulScan_hex4 h]
    have hz := hex4_zero h
    by_cases hn : n = 0
    · simp [nulScan, backslash, quote, hz.1 hn, hn]
    · have : [0x30, 0x30, 0x30, 0x30].isPrefixOf text = false := by
        rw [Bool.eq_false_iff]
        exact fun e => hn (hz.2 e)
      simp [nulScan, backslash, quote, this, hn]

end JsonSyntax

end LedLamp
