import LedLamp.JsonSyntax
/-!
# A reader of JSON texts

The grammar read left to right. `read_iff` and `document_iff` say that the reader
and the grammar agree: it accepts what the grammar derives, with the same item, and
nothing else. So a text denotes one item at most. A call takes no more steps than
the bytes it reads, so `fuel` never runs out on a text that has a derivation.
-/

namespace LedLamp.JsonSyntax

open JsonText (quote backslash comma colon braceOpen braceClose)

variable (L : Lexis)

def readString : (fuel : Nat) → List UInt8 → Option (List UInt8 × List UInt8)
  | 0, _ => none
  | fuel + 1, text =>
    if text.head? = some quote then some ([], text.tail)
    else do
      let (bytes, rest) ← char L text
      let (s, rest) ← readString fuel rest
      return (bytes ++ s, rest)

/-- The word at the front of the text. -/
def readWord (text : List UInt8) : Option (Json × List UInt8) :=
  words.findSome? fun w => if w.1.isPrefixOf text then some (w.2, text.drop w.1.length) else none

/-- The next token is `c`. -/
def expect (c : UInt8) (text : List UInt8) : Option (List UInt8) :=
  if (skip L text).head? = some c then some (skip L text).tail else none

def read : (fuel : Nat) → Part → List UInt8 → Option (Json × List UInt8)
  | 0, _, _ => none
  | fuel + 1, .item, text =>
    if text.head? = some quote then (readString L fuel text.tail).map fun r => (.string r.1, r.2)
    else if text.head? = some bracketOpen then
      match expect L bracketClose text.tail with
      | some rest => some (.array [], rest)
      | none => read fuel .items text.tail
    else if text.head? = some braceOpen then
      match expect L braceClose text.tail with
      | some rest => some (.object [], rest)
      | none => read fuel .members text.tail
    else match readWord text with
      | some r => some r
      | none => (L.number text).map fun r => (.number r.1, r.2)
  | fuel + 1, .items, text => do
    let (v, rest) ← read fuel .item (skip L text)
    match expect L bracketClose rest with
    | some rest => some (.array [v], rest)
    | none =>
      match ← read fuel .items (← expect L comma rest) with
      | (.array vs, rest) => some (.array (v :: vs), rest)
      | _ => none
  | fuel + 1, .members, text => do
    let (key, rest) ← readString L fuel (← expect L quote text)
    let (v, rest) ← read fuel .item (skip L (← expect L colon rest))
    match expect L braceClose rest with
    | some rest => some (.object [(key, v)], rest)
    | none =>
      match ← read fuel .members (← expect L comma rest) with
      | (.object members, rest) => some (.object ((key, v) :: members), rest)
      | _ => none

/-- The first item of the text, and what follows it. -/
def first (text : List UInt8) : Option (Json × List UInt8) := read L text.length .item (skip L text)

/-- The item that is the whole text. -/
def document (text : List UInt8) : Option Json :=
  match first L text with
  | some (v, rest) => if rest.all L.space then some v else none
  | none => none

variable {L}

/-! ## What is read is derived -/

theorem head_eq {c : UInt8} {text : List UInt8} (h : text.head? = some c) : text = c :: text.tail := by
  cases text with
  | nil => cases h
  | cons d text => rw [show d = c from Option.some.inj h]; rfl

theorem expect_iff {c : UInt8} {text rest : List UInt8} : expect L c text = some rest ↔ skip L text = c :: rest := by
  simp only [expect, Option.ite_none_right_eq_some, Option.some.injEq]
  constructor
  · rintro ⟨hc, rfl⟩
    exact head_eq hc
  · intro h
    rw [h]
    exact ⟨rfl, rfl⟩

theorem expect_other {c d : UInt8} {text rest : List UInt8} (h : skip L text = d :: rest) (hd : d ≠ c) :
    expect L c text = none := by
  rw [expect, h, if_neg]
  simpa using hd

theorem readString_sound {fuel : Nat} {text s rest : List UInt8} (h : readString L fuel text = some (s, rest)) :
    ReadsString L text s rest := by
  induction fuel generalizing text s with
  | zero => simp [readString] at h
  | succ fuel ih =>
    simp only [readString] at h
    split at h
    · rename_i hq
      simp only [Option.some.injEq, Prod.mk.injEq] at h
      obtain ⟨rfl, rfl⟩ := h
      rw [head_eq hq]
      exact .close _
    · simp only [Option.bind_eq_bind, Option.bind_eq_some_iff, Option.pure_def, Option.some.injEq, Prod.mk.injEq] at h
      obtain ⟨⟨bytes, text'⟩, hc, ⟨s', rest'⟩, hs, rfl, rfl⟩ := h
      exact .char hc (ih hs)

theorem readWord_sound {text rest : List UInt8} {v : Json} (h : readWord text = some (v, rest)) :
    Reads L .item text v rest := by
  obtain ⟨⟨word, v'⟩, hw, h⟩ := List.exists_of_findSome?_eq_some h
  simp only [Option.ite_none_right_eq_some, Option.some.injEq, Prod.mk.injEq] at h
  obtain ⟨hp, rfl, rfl⟩ := h
  obtain ⟨rest, rfl⟩ := List.isPrefixOf_iff_prefix.1 hp
  simpa using Reads.word (L := L) hw rest

section Sound

/-! With less fuel the reader is sound already. -/

variable {fuel : Nat} {text rest : List UInt8} {v : Json}
  (ih : ∀ {part : Part} {text rest : List UInt8} {v : Json}, read L fuel part text = some (v, rest) → Reads L part text v rest)

include ih

theorem item_sound (h : read L (fuel + 1) .item text = some (v, rest)) : Reads L .item text v rest := by
  simp only [read] at h
  split at h
  · rename_i hq
    simp only [Option.map_eq_some_iff, Prod.mk.injEq] at h
    obtain ⟨⟨s, rest'⟩, hs, rfl, rfl⟩ := h
    rw [head_eq hq]
    exact .string (readString_sound hs)
  split at h
  · rename_i hb
    rw [head_eq hb]
    split at h
    · rename_i hc
      simp only [Option.some.injEq, Prod.mk.injEq] at h
      obtain ⟨rfl, rfl⟩ := h
      exact .emptyArray (expect_iff.1 hc)
    · exact .array (ih h)
  split at h
  · rename_i hb
    rw [head_eq hb]
    split at h
    · rename_i hc
      simp only [Option.some.injEq, Prod.mk.injEq] at h
      obtain ⟨rfl, rfl⟩ := h
      exact .emptyObject (expect_iff.1 hc)
    · exact .object (ih h)
  split at h
  · rename_i hw
    rw [h] at hw
    exact readWord_sound hw
  · simp only [Option.map_eq_some_iff, Prod.mk.injEq] at h
    obtain ⟨⟨n, rest'⟩, hn, rfl, rfl⟩ := h
    exact .number hn

theorem items_sound (h : read L (fuel + 1) .items text = some (v, rest)) : Reads L .items text v rest := by
  simp only [read, Option.bind_eq_bind, Option.bind_eq_some_iff] at h
  obtain ⟨⟨v', text'⟩, hv, h⟩ := h
  dsimp only at h
  split at h
  · rename_i hc
    simp only [Option.some.injEq, Prod.mk.injEq] at h
    obtain ⟨rfl, rfl⟩ := h
    exact .lastItem (ih hv) (expect_iff.1 hc)
  · simp only [Option.bind_eq_some_iff] at h
    obtain ⟨text'', hc, ⟨vs, rest'⟩, hr, h⟩ := h
    split at h
    · rename_i e
      simp only [Option.some.injEq, Prod.mk.injEq] at h
      obtain ⟨rfl, rfl⟩ := h
      cases e
      exact .nextItem (ih hv) (expect_iff.1 hc) (ih hr)
    · cases h

theorem members_sound (h : read L (fuel + 1) .members text = some (v, rest)) : Reads L .members text v rest := by
  simp only [read, Option.bind_eq_bind, Option.bind_eq_some_iff] at h
  obtain ⟨text₁, hq, ⟨key, text₂⟩, hk, text₃, hc, ⟨v', text₄⟩, hv, h⟩ := h
  dsimp only at h
  split at h
  · rename_i he
    simp only [Option.some.injEq, Prod.mk.injEq] at h
    obtain ⟨rfl, rfl⟩ := h
    exact .lastMember (expect_iff.1 hq) (readString_sound hk) (expect_iff.1 hc) (ih hv) (expect_iff.1 he)
  · simp only [Option.bind_eq_some_iff] at h
    obtain ⟨text₅, he, ⟨vs, rest'⟩, hr, h⟩ := h
    split at h
    · rename_i e
      simp only [Option.some.injEq, Prod.mk.injEq] at h
      obtain ⟨rfl, rfl⟩ := h
      cases e
      exact .nextMember (expect_iff.1 hq) (readString_sound hk) (expect_iff.1 hc) (ih hv) (expect_iff.1 he) (ih hr)
    · cases h

end Sound

theorem read_sound {fuel : Nat} {part : Part} {text rest : List UInt8} {v : Json}
    (h : read L fuel part text = some (v, rest)) : Reads L part text v rest := by
  induction fuel generalizing part text v rest with
  | zero => simp [read] at h
  | succ fuel ih =>
    cases part with
    | item => exact item_sound ih h
    | items => exact items_sound ih h
    | members => exact members_sound ih h

/-! ## What is derived is read -/

theorem ReadsString.lt {text s rest : List UInt8} (h : ReadsString L text s rest) : rest.length < text.length := by
  induction h with
  | close rest => simp
  | char hc _ ih =>
    obtain ⟨c, text', rfl, -, hs⟩ := char_suffix hc
    have := hs.length_le
    simp only [List.length_cons]
    omega

theorem readString_complete {text s rest : List UInt8} (h : ReadsString L text s rest) {k : Nat}
    (hf : text.length ≤ k + rest.length) : readString L k text = some (s, rest) := by
  induction h generalizing k with
  | close rest =>
    obtain ⟨k, rfl⟩ : ∃ f, k = f + 1 := ⟨k - 1, by simp at hf; omega⟩
    simp [readString]
  | char hc hs ih =>
    have hlt := hs.lt
    obtain ⟨c, t, rfl, hq, ht⟩ := char_suffix hc
    have hle := ht.length_le
    simp only [List.length_cons] at hf
    obtain ⟨k, rfl⟩ : ∃ f, k = f + 1 := ⟨k - 1, by omega⟩
    simp [readString, hq, hc, ih (k := k) (by omega)]

/-- How an item can begin. -/
theorem Reads.head {text rest : List UInt8} {v : Json} (h : Reads L .item text v rest) :
    ∃ c text', text = c :: text' ∧
      (c = quote ∨ c = bracketOpen ∨ c = braceOpen ∨ c = 0x6E ∨ c = 0x74 ∨ c = 0x66 ∨ isNumberByte c = true) := by
  cases h with
  | word hw rest =>
    simp only [words, List.mem_cons, Prod.mk.injEq, List.not_mem_nil, or_false] at hw
    rcases hw with ⟨rfl, -⟩ | ⟨rfl, -⟩ | ⟨rfl, -⟩
    · exact ⟨0x6E, ascii "ull" ++ rest, rfl, by simp⟩
    · exact ⟨0x74, ascii "rue" ++ rest, rfl, by simp⟩
    · exact ⟨0x66, ascii "alse" ++ rest, rfl, by simp⟩
  | number hn =>
    obtain ⟨literal, hne, hall, rfl⟩ := L.number_literal hn
    cases literal with
    | nil => exact absurd rfl hne
    | cons c literal =>
      simp only [List.all_cons, Bool.and_eq_true] at hall
      exact ⟨c, literal ++ rest, rfl, by simp [hall.1]⟩
  | string hs => exact ⟨_, _, rfl, by simp⟩
  | emptyArray hc => exact ⟨_, _, rfl, by simp⟩
  | array hi => exact ⟨_, _, rfl, by simp⟩
  | emptyObject hc => exact ⟨_, _, rfl, by simp⟩
  | object hm => exact ⟨_, _, rfl, by simp⟩

/-- The items of an array that is not empty do not begin with its end. -/
theorem Reads.not_close {text rest : List UInt8} {v : Json} (h : Reads L .items text v rest) :
    expect L bracketClose text = none := by
  have item : ∀ {v' rest'}, Reads L .item (skip L text) v' rest' → expect L bracketClose text = none := by
    intro v' rest' hv
    obtain ⟨c, t, e, hc⟩ := hv.head
    refine expect_other e ?_
    rintro rfl
    exact absurd hc (by decide)
  cases h with
  | lastItem hv => exact item hv
  | nextItem hv => exact item hv

theorem Reads.not_close_members {text rest : List UInt8} {v : Json} (h : Reads L .members text v rest) :
    expect L braceClose text = none := by
  cases h with
  | lastMember hq => exact expect_other hq (by decide)
  | nextMember hq => exact expect_other hq (by decide)

theorem expect_lt {c : UInt8} {text rest : List UInt8} (h : skip L text = c :: rest) : rest.length < text.length := by
  have := (skip_suffix (L := L) text).length_le
  rw [h, List.length_cons] at this
  omega

/-- A member's key is behind its quote, and the value behind its colon. -/
theorem member_lt {text key text₁ text₂ text₃ : List UInt8} (hq : skip L text = quote :: text₁)
    (hk : ReadsString L text₁ key text₂) (hc : skip L text₂ = colon :: text₃) :
    text₁.length < text.length ∧ text₂.length < text₁.length ∧ (skip L text₃).length < text₂.length :=
  ⟨expect_lt hq, hk.lt, (skip_suffix text₃).length_le.trans_lt (expect_lt hc)⟩

theorem Reads.lt {part : Part} {text rest : List UInt8} {v : Json} (h : Reads L part text v rest) :
    rest.length < text.length := by
  have skipped : ∀ text, (skip L text).length ≤ text.length := fun text => (skip_suffix text).length_le
  -- Every constructor takes at least its first byte, and skipping takes none back.
  induction h with
  | word hw rest =>
    simp only [words, List.mem_cons, Prod.mk.injEq, List.not_mem_nil, or_false] at hw
    rcases hw with ⟨rfl, -⟩ | ⟨rfl, -⟩ | ⟨rfl, -⟩ <;> simp [ascii] <;> omega
  | number hn =>
    obtain ⟨literal, hne, -, rfl⟩ := L.number_literal hn
    have := List.length_pos_iff.2 hne
    simp only [List.length_append]
    omega
  | string hs =>
    have := hs.lt
    simp only [List.length_cons]
    omega
  | emptyArray hc | emptyObject hc =>
    have := expect_lt hc
    simp only [List.length_cons]
    omega
  | array _ ih | object _ ih =>
    simp only [List.length_cons]
    omega
  | @lastItem text _ _ _ _ hc ih =>
    have := skipped text
    have := expect_lt hc
    omega
  | @nextItem text _ _ _ _ _ _ hc _ ih ih' =>
    have := skipped text
    have := expect_lt hc
    omega
  | lastMember hq hk hc _ he ih =>
    have := member_lt hq hk hc
    have := expect_lt he
    omega
  | nextMember hq hk hc _ he _ ih ih' =>
    have := member_lt hq hk hc
    have := expect_lt he
    omega

theorem readWord_complete {word : List UInt8} {v : Json} (hw : (word, v) ∈ words) (rest : List UInt8) :
    readWord (word ++ rest) = some (v, rest) := by
  simp only [words, List.mem_cons, Prod.mk.injEq, List.not_mem_nil, or_false] at hw
  rcases hw with ⟨rfl, rfl⟩ | ⟨rfl, rfl⟩ | ⟨rfl, rfl⟩ <;> rfl

/-- No word begins like a number. -/
theorem readWord_number {c : UInt8} (hc : isNumberByte c = true) (text : List UInt8) : readWord (c :: text) = none := by
  have hn : (0x6E : UInt8) ≠ c ∧ (0x74 : UInt8) ≠ c ∧ (0x66 : UInt8) ≠ c := by
    refine ⟨?_, ?_, ?_⟩ <;>
    · rintro rfl
      exact absurd hc (by decide)
  have word : ∀ (w : List UInt8) (d : UInt8), d ≠ c → (d :: w).isPrefixOf (c :: text) = false := by
    intro w d hd
    simp [List.isPrefixOf, hd]
  simp only [readWord, words, List.findSome?_cons, List.findSome?_nil]
  rw [show ascii "null" = 0x6E :: ascii "ull" from rfl, show ascii "true" = 0x74 :: ascii "rue" from rfl,
    show ascii "false" = 0x66 :: ascii "alse" from rfl, word _ _ hn.1, word _ _ hn.2.1, word _ _ hn.2.2]
  rfl

theorem read_array (fuel : Nat) (text : List UInt8) : read L (fuel + 1) .item (bracketOpen :: text) =
    match expect L bracketClose text with
    | some rest => some (.array [], rest)
    | none => read L fuel .items text := by
  simp [read, bracketOpen, quote]

theorem read_object (fuel : Nat) (text : List UInt8) : read L (fuel + 1) .item (braceOpen :: text) =
    match expect L braceClose text with
    | some rest => some (.object [], rest)
    | none => read L fuel .members text := by
  simp [read, braceOpen, bracketOpen, quote]

/-- What begins with no quote and no bracket is a word or a number. -/
theorem read_token {text : List UInt8} (ht : ∀ c ∈ [quote, bracketOpen, braceOpen], text.head? ≠ some c) (fuel : Nat) :
    read L (fuel + 1) .item text = (readWord text).orElse fun _ => (L.number text).map fun r => (.number r.1, r.2) := by
  simp only [read]
  rw [if_neg (ht quote (by simp)), if_neg (ht bracketOpen (by simp)), if_neg (ht braceOpen (by simp))]
  cases readWord text <;> rfl

theorem read_complete {part : Part} {text rest : List UInt8} {v : Json} (h : Reads L part text v rest) {fuel : Nat}
    (hf : text.length ≤ fuel + rest.length) : read L fuel part text = some (v, rest) := by
  have skipped : ∀ text, (skip L text).length ≤ text.length := fun text => (skip_suffix text).length_le
  -- Every part takes a byte, so there is fuel for its first step.
  obtain ⟨fuel, rfl⟩ : ∃ f, fuel = f + 1 := ⟨fuel - 1, by have := h.lt; omega⟩
  induction h generalizing fuel with
  | @word w v hw rest =>
    have ht : ∀ c ∈ [quote, bracketOpen, braceOpen], (w ++ rest).head? ≠ some c := by
      simp only [words, List.mem_cons, Prod.mk.injEq, List.not_mem_nil, or_false] at hw
      rcases hw with ⟨rfl, -⟩ | ⟨rfl, -⟩ | ⟨rfl, -⟩ <;> simp [ascii, quote, bracketOpen, braceOpen]
    rw [read_token ht, readWord_complete hw]
    rfl
  | @number text rest n hn =>
    obtain ⟨literal, hne, hall, rfl⟩ := L.number_literal hn
    cases literal with
    | nil => exact absurd rfl hne
    | cons c literal =>
      simp only [List.all_cons, Bool.and_eq_true] at hall
      have ht : ∀ d ∈ [quote, bracketOpen, braceOpen], (c :: literal ++ rest).head? ≠ some d := by
        intro d hd e
        obtain rfl : c = d := Option.some.inj e
        have hno : [quote, bracketOpen, braceOpen].all (fun d => !isNumberByte d) = true := by decide
        have := List.all_eq_true.1 hno c hd
        rw [hall.1] at this
        cases this
      rw [read_token ht, hn, List.cons_append, readWord_number hall.1]
      rfl
  | string hs =>
    have hread := readString_complete hs (k := fuel) (by simp only [List.length_cons] at hf; omega)
    simp [read, hread]
  | emptyArray hc => rw [read_array, expect_iff.2 hc]
  | array hi ih =>
    have hlt := hi.lt
    simp only [List.length_cons] at hf
    obtain ⟨fuel, rfl⟩ : ∃ f, fuel = f + 1 := ⟨fuel - 1, by omega⟩
    rw [read_array, hi.not_close]
    exact ih fuel (by omega)
  | emptyObject hc => rw [read_object, expect_iff.2 hc]
  | object hm ih =>
    have hlt := hm.lt
    simp only [List.length_cons] at hf
    obtain ⟨fuel, rfl⟩ : ∃ f, fuel = f + 1 := ⟨fuel - 1, by omega⟩
    rw [read_object, hm.not_close_members]
    exact ih fuel (by omega)
  | @lastItem text text' rest v hv hc ih =>
    have hlt := hv.lt
    have hclose := expect_lt hc
    have hskip := skipped text
    obtain ⟨fuel, rfl⟩ : ∃ f, fuel = f + 1 := ⟨fuel - 1, by omega⟩
    rw [read, ih fuel (by omega)]
    simp [expect_iff.2 hc]
  | @nextItem text text' text'' rest v vs hv hc hr ih ih' =>
    have hlt := hv.lt
    have hcomma := expect_lt hc
    have hskip := skipped text
    have hrest := hr.lt
    obtain ⟨fuel, rfl⟩ : ∃ f, fuel = f + 1 := ⟨fuel - 1, by omega⟩
    rw [read, ih fuel (by omega)]
    simp [expect_other hc (by decide : comma ≠ bracketClose), expect_iff.2 hc, ih' fuel (by omega)]
  | @lastMember text key text₁ text₂ text₃ text₄ rest v hq hk hc hv he ih =>
    obtain ⟨h₁, h₂, h₃⟩ := member_lt hq hk hc
    have hlt := hv.lt
    have h₄ := expect_lt he
    obtain ⟨fuel, rfl⟩ : ∃ f, fuel = f + 1 := ⟨fuel - 1, by omega⟩
    rw [read, expect_iff.2 hq]
    simp [readString_complete hk (k := fuel + 1) (by omega), expect_iff.2 hc, ih fuel (by omega), expect_iff.2 he]
  | @nextMember text key text₁ text₂ text₃ text₄ text₅ rest v members hq hk hc hv he hr ih ih' =>
    obtain ⟨h₁, h₂, h₃⟩ := member_lt hq hk hc
    have hlt := hv.lt
    have h₄ := expect_lt he
    have hrest := hr.lt
    obtain ⟨fuel, rfl⟩ : ∃ f, fuel = f + 1 := ⟨fuel - 1, by omega⟩
    rw [read, expect_iff.2 hq]
    simp [readString_complete hk (k := fuel + 1) (by omega), expect_iff.2 hc, ih fuel (by omega),
      expect_other he (by decide : comma ≠ braceClose), expect_iff.2 he, ih' fuel (by omega)]

/-! ## The reader and the grammar agree -/

theorem first_iff {text rest : List UInt8} {v : Json} : first L text = some (v, rest) ↔ First L text v rest := by
  constructor
  · exact read_sound
  · intro h
    refine read_complete h ?_
    have := (skip_suffix (L := L) text).length_le
    omega

theorem document_iff {text : List UInt8} {v : Json} : document L text = some v ↔ Document L text v := by
  unfold document Document Blank
  constructor
  · intro h
    split at h
    · rename_i v' rest hf
      simp only [Option.ite_none_right_eq_some, Option.some.injEq] at h
      obtain ⟨hb, rfl⟩ := h
      exact ⟨rest, first_iff.1 hf, hb⟩
    · cases h
  · rintro ⟨rest, hf, hb⟩
    rw [first_iff.2 hf]
    exact if_pos hb

/-- A text begins with one item at most. -/
theorem First.unique {text rest rest' : List UInt8} {v v' : Json} (h : First L text v rest) (h' : First L text v' rest') :
    v = v' ∧ rest = rest' := by
  have e := (first_iff.2 h).symm.trans (first_iff.2 h')
  simpa using e

theorem Document.unique {text : List UInt8} {v v' : Json} (h : Document L text v) (h' : Document L text v') : v = v' :=
  Option.some.inj ((document_iff.2 h).symm.trans (document_iff.2 h'))

end LedLamp.JsonSyntax
