import LedLamp.JsonWriter
import LedLamp.TbApplication.States
/-!
# The client attributes

What the module publishes of an applied state comes back from the server under
`"client"` when a session starts, and is then the first source of the state. The
published text always fits its buffer, and the sync parser reads the published state
out of the response (`client_round_trip`).
-/

namespace LedLamp.TbApplication

open Conc JsonSyntax Lamp
open JsonText (braceOpen braceClose colon comma quote)

variable {L : Lexis} {cJsonParse : List UInt8 → Option Json} {build : Build} {state : LampState}

/-- A reader of JSON as far as the attributes go: it reads the numbers of a byte. -/
structure Reader (L : Lexis) : Prop where
  standard : L.Standard
  decimal : ∀ n < 256, L.ReadsDecimal n

/-! ## The text -/

theorem numberText_eq (n : UInt8) : numberText n = JsonText.digits n.toNat := JsonText.ascii_toString n.toNat

theorem length_numberText (n : UInt8) : (numberText n).length ≤ 3 := by
  rw [numberText_eq]
  have hn := n.toNat_lt
  exact JsonText.length_digits_le (by omega) (by omega)

theorem length_boolText (b : Bool) : (boolText b).length ≤ 5 := by cases b <;> decide

/-- The attributes are far from filling their buffer. -/
theorem appliedAttributesJson_length (build : Build) (state : LampState) :
    (appliedAttributesJson build state).length < 160 := by
  have h1 := length_boolText state.power
  have h2 := length_numberText state.brightnessPercent
  have h3 := length_numberText state.red
  have h4 := length_numberText state.green
  have h5 := length_numberText state.blue
  cases hb : build.lampTypeRgb <;>
  · simp [appliedAttributesJson, hb, ascii]
    omega

def booleanMember (key : String) (hk : Name (ascii key)) (b : Bool) : Written L where
  key := ascii key
  text := boolText b
  value := .bool b
  name := hk
  denotes := denotes_word (by cases b <;> simp [boolText, words])

def byteMember (hL : Reader L) (key : String) (hk : Name (ascii key)) (n : UInt8) : Written L where
  key := ascii key
  text := numberText n
  value := number n
  name := hk
  denotes := by
    rw [numberText_eq]
    exact denotes_number (hL.decimal n.toNat n.toNat_lt)

/-- The members of the attributes. -/
def attributeMembers (build : Build) (state : LampState) : List (List UInt8 × Json) :=
  [(ascii "power", .bool state.power), (ascii "brightness", number state.brightnessPercent)] ++
    rgbItems build state.red state.green state.blue

/-- A name without quotes and backslashes, checked. -/
theorem name_of_all {key : List UInt8} (h : key.all (fun c => JsonText.isPrintable c && c != quote && c != JsonText.backslash) = true) :
    Name key := by
  intro c hc
  have := List.all_eq_true.1 h c hc
  simpa [and_assoc] using this

theorem appliedAttributesJson_denotes (hL : Reader L) (build : Build) (state : LampState) :
    Denotes L (appliedAttributesJson build state) (.object (attributeMembers build state)) := by
  let power : Written L := booleanMember "power" (name_of_all rfl) state.power
  let brightness := byteMember hL "brightness" (name_of_all rfl) state.brightnessPercent
  let red := byteMember hL "red" (name_of_all rfl) state.red
  let green := byteMember hL "green" (name_of_all rfl) state.green
  let blue := byteMember hL "blue" (name_of_all rfl) state.blue
  cases hb : build.lampTypeRgb with
  | true =>
    have htext : appliedAttributesJson build state = objectText power [brightness, red, green, blue] := by
      simp [appliedAttributesJson, hb, objectText, membersText, memberText, power, brightness, red, green, blue,
        booleanMember, byteMember, ascii, braceOpen, braceClose, colon, comma, quote]
    have hmembers : attributeMembers build state = [power, brightness, red, green, blue].map Written.member := by
      simp [attributeMembers, rgbItems, hb, Written.member, power, brightness, red, green, blue, booleanMember, byteMember]
    rw [htext, hmembers]
    exact denotes_object hL.standard power [brightness, red, green, blue]
  | false =>
    have htext : appliedAttributesJson build state = objectText power [brightness] := by
      simp [appliedAttributesJson, hb, objectText, membersText, memberText, power, brightness, booleanMember, byteMember,
        ascii, braceOpen, braceClose, colon, comma, quote]
    have hmembers : attributeMembers build state = [power, brightness].map Written.member := by
      simp [attributeMembers, rgbItems, hb, Written.member, power, brightness, booleanMember, byteMember]
    rw [htext, hmembers]
    exact denotes_object hL.standard power [brightness]

/-- A connected module sends the attributes of every applied state. -/
theorem tbAppPublishAppliedAttributes_sends (build : Build) (state : LampState) :
    tbAppPublishAppliedAttributes build (some state) = (do
      if ← tbAppIsConnected then
        act (.tbAttributesSendJson (← act .load).client (appliedAttributesJson build state))) := by
  simp only [tbAppPublishAppliedAttributes, appliedAttributesJson_length, if_true]

/-! ## The response -/

/-- The response to a request of the client attributes. -/
def clientResponse (json : List UInt8) : List UInt8 := ascii "\x7b\"client\":" ++ json ++ ascii "\x7d"

theorem clientResponse_denotes (hL : L.Standard) {json : List UInt8} {v : Json} (hj : Denotes L json v) :
    Denotes L (clientResponse json) (.object [(ascii "client", v)]) := by
  let client : Written L := ⟨ascii "client", json, v, name_of_all rfl, hj⟩
  have htext : clientResponse json = objectText client [] := by
    simp [clientResponse, objectText, membersText, memberText, client, ascii, braceOpen, braceClose, colon, quote]
  rw [htext]
  exact denotes_object hL client []

theorem no_zero_number (n : UInt8) : 0 ∉ numberText n := by
  rw [numberText_eq]
  exact fun h => JsonText.digit_ne_zero (JsonText.digits_isDigit n.toNat 0 h) rfl

theorem clientResponse_no_zero (build : Build) (state : LampState) :
    0 ∉ clientResponse (appliedAttributesJson build state) := by
  have hbool : 0 ∉ boolText state.power := by cases state.power <;> decide
  have hnumber := no_zero_number
  cases hb : build.lampTypeRgb <;>
  · simp only [clientResponse, appliedAttributesJson, hb, if_true, Bool.false_eq_true, if_false, List.mem_append, hbool,
      hnumber, or_false]
    decide

/-- What a build reads back of a state: its colours only where it has them. -/
def published (build : Build) (state : LampState) : LampState :=
  if build.lampTypeRgb then state else { state with red := 255, green := 255, blue := 255 }

theorem attributes_stateOf (hb : state.brightnessPercent ≤ LAMP_BRIGHTNESS_MAX) :
    StateOf build (.object (attributeMembers build state)) (published build state) := by
  have number_integer : ∀ {attrs : Json} {key : String} {n : UInt8}, attrs.item (ascii key) = some (number n) →
      Integer attrs key n := fun h => ⟨_, h, by simp [Number.cmp]⟩
  cases hrgb : build.lampTypeRgb with
  | true =>
    simp only [published, hrgb, if_true, attributeMembers, rgbItems]
    exact ⟨rfl, number_integer rfl, hb, .inr ⟨hrgb, number_integer rfl, number_integer rfl, number_integer rfl⟩⟩
  | false =>
    simp only [published, hrgb, Bool.false_eq_true, if_false, attributeMembers, rgbItems]
    exact ⟨rfl, number_integer rfl, hb, .inl ⟨fun h => absurd (hrgb.symm.trans h) (by decide), rfl⟩⟩

/-- The attributes published of a valid state fit their buffer, and the sync parser
reads the state back out of the response that carries them. -/
theorem client_round_trip (hL : Reader L) (hparse : ReadsFirst L cJsonParse) (build : Build) (state : LampState)
    (hb : state.brightnessPercent ≤ LAMP_BRIGHTNESS_MAX) :
    (appliedAttributesJson build state).length < 160 ∧ ∃ back,
      tbAppParseStateCallback cJsonParse build (some (clientResponse (appliedAttributesJson build state))) .client =
        .ret (.valid back) ∧
      back.power = state.power ∧ back.brightnessPercent = state.brightnessPercent ∧
      (build.lampTypeRgb = true → back.red = state.red ∧ back.green = state.green ∧ back.blue = state.blue) := by
  have hlen := appliedAttributesJson_length build state
  have htext := cstr_of_not_mem (clientResponse_no_zero build state)
  have hfirst := (clientResponse_denotes hL.standard (appliedAttributesJson_denotes hL build state)).first hL.standard
  rw [← htext] at hfirst
  have hwrap : (clientResponse (appliedAttributesJson build state)).length = (appliedAttributesJson build state).length + 11 := by
    simp [clientResponse, ascii]
  have hbound : strlen (clientResponse (appliedAttributesJson build state)) ≤ TB_APPLICATION_MAX_PAYLOAD_BYTES := by
    rw [strlen, htext, hwrap, TB_APPLICATION_MAX_PAYLOAD_BYTES]
    omega
  have hsel : Selects (.object [(ascii "client", .object (attributeMembers build state))]) (some (ascii "client"))
      (attributeMembers build state) := rfl
  have hstate := tbAppParseStateScope_iff.2 ⟨_, _, _, rfl, hbound, (hparse _ _).2 ⟨_, hfirst⟩, hsel, attributes_stateOf hb⟩
  refine ⟨hlen, published build state, ?_, ?_⟩
  · rw [tbAppParseStateCallback, hstate]
    rfl
  · unfold published
    cases hrgb : build.lampTypeRgb <;> simp

theorem reader_cJsonIntegers : Reader cJsonIntegers := ⟨standard_cJsonIntegers, fun n _ => decimal_cJsonIntegers n⟩

theorem client_round_trip_colour : ∃ back, tbAppParseStateCallback parseFirst rgbBuild
      (some (clientResponse (appliedAttributesJson rgbBuild ⟨true, 30, 1, 2, 3⟩))) .client = .ret (.valid back) ∧
    back.blue = 3 := by
  obtain ⟨-, back, hback, -, -, hrgb⟩ := client_round_trip reader_cJsonIntegers reads_parseFirst rgbBuild
    ⟨true, 30, 1, 2, 3⟩ (by decide)
  exact ⟨back, hback, (hrgb rfl).2.2⟩

end LedLamp.TbApplication
