import LedLamp.AppConfig.Schema
import LedLamp.JsonMembers
/-!
# The typed check, the serializer and the validators agree

A device document passes the typed check exactly when its serialized text is
accepted by the validator, and then the validator reads the same strings out of
it. A manufacturing document always serializes; its text is accepted exactly
when both values are in range.

cJSON is taken to be a JSON library: it parses the text of a flat object to that
object (`Parses`) and prints such an object as its compact text (`Prints`).
-/

namespace LedLamp.AppConfig

open JsonText
open JsonSyntax (NulScan hex4_digits hex4_zero)

/-- The parse accepts the text of every flat object, and returns the object. -/
def Parses (cJsonParseWithLengthOpts : List UInt8 → Option Json) : Prop :=
  ∀ text members, readObject text = some members →
    cJsonParseWithLengthOpts (text ++ [0]) = some (JsonText.object members)

/-- The printer writes a flat object of printable strings as its compact text. -/
def Prints (cJsonPrintBuffered : Json → Option (List UInt8)) : Prop :=
  ∀ members : List Member, (∀ m ∈ members, m.Printable) →
    cJsonPrintBuffered (JsonText.object members) = some (printObject members)

/-! ## The raw scan -/

/-- The raw scan steps over each escape as a whole. -/
theorem nulEscapeScan_nulScan : NulScan (· ≠ 0) (nulEscapeScan false 0) (nulEscapeScan true 0) where
  plain := by
    intro c rest hq _
    have hq : c ≠ 0x22 := hq
    simp [nulEscapeScan, hq]
  opening := by
    intro rest
    simp [nulEscapeScan, quote]
  closing := by
    intro rest
    simp [nulEscapeScan, quote]
  byte := by
    intro c rest h0 hq hb
    have hq : c ≠ 0x22 := hq
    have hb : c ≠ 0x5C := hb
    simp [nulEscapeScan, hq, hb, h0]
  letter := by
    intro e rest he
    simp [nulEscapeScan, backslash, he]
  unicode := by
    intro text n rest h
    obtain ⟨a, b, c, d, x, y, z, w, rfl, -⟩ := hex4_digits h
    have hz := hex4_zero h
    simp only [List.isPrefixOf_cons_cons, List.isPrefixOf_nil_left, Bool.and_true, Bool.and_eq_true, beq_iff_eq] at hz
    have hdigits : [a, b, c, d] = [0x30, 0x30, 0x30, 0x30] ↔ n = 0 := by
      rw [hz]
      simp [eq_comm]
    by_cases hn : n = 0
    · simp [nulEscapeScan, backslash, hn, hdigits.2 hn]
    · have hno := mt hdigits.1 hn
      simp [nulEscapeScan, backslash, hn, hno]

theorem printObject_no_nulEscape {members : List Member} (hp : ∀ m ∈ members, m.Printable) :
    rawJsonHasNulEscape (printObject members) = false := by
  rw [rawJsonHasNulEscape, cstr_of_not_mem (printObject_no_zero hp)]
  exact nulEscapeScan_nulScan.printObject (fun _ => printable_ne_zero) hp rfl

/-! ## Printing and parsing back -/

variable {cJsonParseWithLengthOpts : List UInt8 → Option Json} {cJsonPrintBuffered : Json → Option (List UInt8)}

theorem printInto_object (hprint : Prints cJsonPrintBuffered) {members : List Member} (hp : ∀ m ∈ members, m.Printable)
    (hlen : (printObject members).length ≤ APP_CONFIG_MAX_FILE_BYTES) :
    printInto cJsonPrintBuffered (JsonText.object members) APP_CONFIG_WORK_BUF_BYTES = some (printObject members) := by
  have hc : cstr (printObject members) = printObject members := cstr_of_not_mem (printObject_no_zero hp)
  simp only [printInto, hprint members hp, strlen, hc]
  exact if_pos ⟨Nat.lt_succ_of_le hlen, hlen⟩

/-- On a written text a validator gets as far as its envelope. -/
theorem validateJson_object (hparse : Parses cJsonParseWithLengthOpts) {members : List Member}
    (hp : ∀ m ∈ members, m.Printable) (hlen : (printObject members).length ≤ APP_CONFIG_MAX_FILE_BYTES) {Doc : Type}
    {keys : List String} (fields : UInt32 → Json → Except AppConfigError Doc)
    (hversion : getSchemaVersion (JsonText.object members) = .ok APP_CONFIG_SCHEMA_VERSION)
    (hkeys : checkMemberKeys (JsonText.object members) (keys.map ascii) = .ok ()) :
    validateJson cJsonParseWithLengthOpts keys fields (some (printObject members)) =
      fields APP_CONFIG_SCHEMA_VERSION (JsonText.object members) := by
  have hc : cstr (printObject members) = printObject members := cstr_of_not_mem (printObject_no_zero hp)
  have hread := hparse _ _ (readObject_print hp)
  rw [JsonText.object] at hread hversion hkeys ⊢
  simp only [validateJson, strlen, hc, if_neg (Nat.not_lt.2 hlen), hread, printObject_no_nulEscape hp, hversion, hkeys]
  rfl

/-! ## The device document -/

/-- What a typed check accepts: a terminated text of 1 to `maxLen` allowed characters. -/
theorem typedStringCheck_ok_iff {cap : Nat} {s : CharArray cap} {maxLen len : Nat} {serial : Bool} :
    typedStringCheck s maxLen serial = .ok len ↔
      0 < cap ∧ 0 ∈ s.chars ∧ len = s.str.length ∧ 0 < len ∧ len ≤ maxLen ∧
        s.str.all (if serial then isSerialChar else isPrintableAscii) = true := by
  have hstr : strlen s.chars = s.str.length := rfl
  simp only [typedStringCheck, hstr]
  generalize (if serial = true then isSerialChar else isPrintableAscii) = allowed
  constructor
  · intro h
    split at h
    · cases h
    split at h
    · cases h
    split at h
    · cases h
    split at h
    · cases h
    · rename_i h1 h2 h3 h4
      cases h
      refine ⟨by omega, by simpa using h2, rfl, by omega, by omega, by simpa using h4⟩
  · rintro ⟨h1, h2, rfl, h3, h4, h5⟩
    rw [if_neg (by omega), if_neg (by simpa using h2), if_neg (by omega), if_neg (by simpa using h5)]

theorem isSerialChar_printable {c : UInt8} (hc : isSerialChar c = true) : isPrintableAscii c = true := by
  simp only [isSerialChar, isPrintableAscii, Bool.or_eq_true, Bool.and_eq_true, decide_eq_true_eq,
    UInt8.le_iff_toNat_le, ← UInt8.toNat_inj, UInt8.reduceToNat] at hc ⊢
  omega

/-- A field that passes its typed check, up to its terminator. -/
structure Field (str : List UInt8) (maxLen : Nat) (serial : Bool) : Prop where
  pos : 0 < str.length
  le : str.length ≤ maxLen
  printable : str.all isPrintableAscii = true
  charset : serial = true → str.all isSerialChar = true

theorem typedStringCheck_field {cap : Nat} {s : CharArray cap} {maxLen len : Nat} {serial : Bool}
    (h : typedStringCheck s maxLen serial = .ok len) : Field s.str maxLen serial := by
  obtain ⟨-, -, rfl, hpos, hle, hall⟩ := typedStringCheck_ok_iff.1 h
  cases serial with
  | false => exact ⟨hpos, hle, hall, by simp⟩
  | true =>
    refine ⟨hpos, hle, ?_, fun _ => hall⟩
    exact List.all_eq_true.2 fun c hc => isSerialChar_printable (List.all_eq_true.1 hall c hc)

theorem Field.no_zero {str : List UInt8} {maxLen : Nat} {serial : Bool} (hf : Field str maxLen serial) :
    (0 : UInt8) ∉ str :=
  fun h => absurd (List.all_eq_true.1 hf.printable 0 h) (by decide)

/-- The four fields of a document that passes the typed check. -/
theorem deviceDocStringsValid_fields {doc : AppConfigDeviceDoc} (h : deviceDocStringsValid doc = .ok ()) :
    Field doc.product.str APP_CONFIG_PRODUCT_MAX_LEN false ∧
      Field doc.hardwareRevision.str APP_CONFIG_HARDWARE_REVISION_MAX_LEN false ∧
      Field doc.serial.str APP_CONFIG_SERIAL_MAX_LEN true ∧
      Field doc.thingsboardName.str APP_CONFIG_THINGSBOARD_NAME_MAX_LEN false := by
  obtain ⟨_, h1, h⟩ := bind_ok_iff.1 h
  obtain ⟨_, h2, h⟩ := bind_ok_iff.1 h
  obtain ⟨_, h3, h⟩ := bind_ok_iff.1 h
  obtain ⟨_, h4, -⟩ := bind_ok_iff.1 h
  exact ⟨typedStringCheck_field h1, typedStringCheck_field h2, typedStringCheck_field h3, typedStringCheck_field h4⟩

theorem deviceMembers_printable {doc : AppConfigDeviceDoc} (h : deviceDocStringsValid doc = .ok ()) :
    ∀ m ∈ deviceMembers doc, m.Printable := by
  obtain ⟨h1, h2, h3, h4⟩ := deviceDocStringsValid_fields h
  have key : ∀ {key s : List UInt8}, key.all isPrintable = true → s.all isPrintableAscii = true →
      Member.Printable (key, .string s) := fun hk hs => ⟨hk, fun s' e => by cases e; exact hs⟩
  simp only [deviceMembers, List.forall_mem_cons]
  exact ⟨⟨by decide, fun s e => by cases e⟩, key (by decide) h1.printable, key (by decide) h2.printable,
    key (by decide) h3.printable, key (by decide) h4.printable, by simp⟩

/-- Every accepted document fits into a file. -/
theorem deviceMembers_length {doc : AppConfigDeviceDoc} (h : deviceDocStringsValid doc = .ok ()) :
    (printObject (deviceMembers doc)).length ≤ APP_CONFIG_MAX_FILE_BYTES := by
  obtain ⟨h1, h2, h3, h4⟩ := deviceDocStringsValid_fields h
  have hint := length_printInt_le APP_CONFIG_SCHEMA_VERSION.toInt32
  have string : ∀ (k : List UInt8) (v : List UInt8), k.length ≤ 20 → v.length ≤ 64 →
      (printMember (k, .string v)).length ≤ 180 := fun k v hk hv => by
    have := length_printString_le k
    have := length_printString_le v
    simp only [printMember, Scalar.print, List.length_append, List.length_cons]
    omega
  have number : (printMember (ascii "schema_version", .int APP_CONFIG_SCHEMA_VERSION.toInt32)).length ≤ 180 := by
    have := length_printString_le (ascii "schema_version")
    have : (ascii "schema_version").length = 14 := by decide
    simp only [printMember, Scalar.print, List.length_append, List.length_cons]
    omega
  have m1 := string (ascii "product") _ (by decide) (h1.le.trans (by decide))
  have m2 := string (ascii "hardware_revision") _ (by decide) (h2.le.trans (by decide))
  have m3 := string (ascii "serial") _ (by decide) (h3.le.trans (by decide))
  have m4 := string (ascii "thingsboard_name") _ (by decide) (h4.le.trans (by decide))
  simp only [deviceMembers, printObject, printMembers, List.length_append, List.length_cons, List.length_nil,
    APP_CONFIG_MAX_FILE_BYTES]
  omega

/-- What the check of a string member accepts: a field, which the array then holds. -/
theorem getBoundedString_iff {object : Json} {key : String} {maxLen : Nat} {serial : Bool} {a : CharArray (maxLen + 1)} :
    getBoundedString object key (maxLen + 1) serial = .ok a ↔
      ∃ s, object.item (ascii key) = some (.string s) ∧ Field (cstr s) maxLen serial ∧ a.Holds (cstr s) := by
  unfold getBoundedString
  split
  · rename_i s hi
    dsimp only
    rw [strlen, stringIsPrintableAscii, stringIsSerialCharset]
    simp only [hi, Option.some.injEq, Json.string.injEq, exists_eq_left']
    constructor
    · intro h
      split at h
      · cases h
      split at h
      · cases h
      split at h
      · cases h
      · rename_i hlen hprint hserial
        obtain rfl := Except.ok.inj h
        refine ⟨⟨by omega, by omega, by simpa using hprint, ?_⟩, CharArray.holds_iff.2 ⟨by omega, rfl⟩⟩
        rintro rfl
        simpa using hserial
    · rintro ⟨hf, ha⟩
      obtain ⟨hlen, rfl⟩ := CharArray.holds_iff.1 ha
      have hpos := hf.pos
      rw [if_neg (by omega), if_neg (by simpa using hf.printable), if_neg]
      cases serial with
      | false => simp
      | true => simpa using hf.charset rfl
  · rename_i hno
    refine iff_of_false (by simp) ?_
    rintro ⟨s, hi, -⟩
    exact hno s hi

/-- A validator reads a field that passed the typed check. -/
theorem getBoundedString_field {object : Json} {key : String} {maxLen : Nat} {serial : Bool} {s : List UInt8}
    (hi : object.item (ascii key) = some (.string s)) (hf : Field s maxLen serial) :
    getBoundedString object key (maxLen + 1) serial = .ok (.ofStr _ s) := by
  have hs : cstr s = s := cstr_of_not_mem hf.no_zero
  refine getBoundedString_iff.2 ⟨s, hi, ?_⟩
  rw [hs]
  exact ⟨hf, CharArray.holds_iff.2 ⟨Nat.lt_succ_of_le hf.le, rfl⟩⟩

/-- The validator accepts what the serializer writes, and reads the document's
strings out of it. -/
theorem deviceFields_members {doc : AppConfigDeviceDoc} (h : deviceDocStringsValid doc = .ok ()) :
    deviceFields APP_CONFIG_SCHEMA_VERSION (JsonText.object (deviceMembers doc)) = .ok
      { schemaVersion := APP_CONFIG_SCHEMA_VERSION, product := .ofStr _ doc.product.str,
        hardwareRevision := .ofStr _ doc.hardwareRevision.str, serial := .ofStr _ doc.serial.str,
        thingsboardName := .ofStr _ doc.thingsboardName.str } := by
  obtain ⟨h1, h2, h3, h4⟩ := deviceDocStringsValid_fields h
  have i1 : (JsonText.object (deviceMembers doc)).item (ascii "product") = some (.string doc.product.str) := rfl
  have i2 : (JsonText.object (deviceMembers doc)).item (ascii "hardware_revision") =
    some (.string doc.hardwareRevision.str) := rfl
  have i3 : (JsonText.object (deviceMembers doc)).item (ascii "serial") = some (.string doc.serial.str) := rfl
  have i4 : (JsonText.object (deviceMembers doc)).item (ascii "thingsboard_name") =
    some (.string doc.thingsboardName.str) := rfl
  simp only [deviceFields, getBoundedString_field i1 h1, getBoundedString_field i2 h2, getBoundedString_field i3 h3,
    getBoundedString_field i4 h4]
  rfl

/-- Only a document that passes the typed check is serialized. -/
theorem serializeDevice_valid {doc : AppConfigDeviceDoc} {cap : Nat} {text : List UInt8}
    (h : serializeDevice cJsonPrintBuffered doc cap = some text) : deviceDocStringsValid doc = .ok () := by
  unfold serializeDevice at h
  split at h
  · cases h
  · assumption

/-- A document that passes the typed check is written, and read back. -/
theorem device_round_trip (hparse : Parses cJsonParseWithLengthOpts) (hprint : Prints cJsonPrintBuffered)
    {doc : AppConfigDeviceDoc} (h : deviceDocStringsValid doc = .ok ()) :
    serializeDevice cJsonPrintBuffered doc APP_CONFIG_WORK_BUF_BYTES = some (printObject (deviceMembers doc)) ∧
      ∃ out, appConfigValidateDeviceJson cJsonParseWithLengthOpts (some (printObject (deviceMembers doc))) = .ok out ∧
        out.product.str = doc.product.str ∧ out.hardwareRevision.str = doc.hardwareRevision.str ∧
        out.serial.str = doc.serial.str ∧ out.thingsboardName.str = doc.thingsboardName.str := by
  obtain ⟨h1, h2, h3, h4⟩ := deviceDocStringsValid_fields h
  have hp := deviceMembers_printable h
  have hlen := deviceMembers_length h
  have hvalid : appConfigValidateDeviceJson cJsonParseWithLengthOpts (some (printObject (deviceMembers doc))) =
      deviceFields APP_CONFIG_SCHEMA_VERSION (JsonText.object (deviceMembers doc)) :=
    validateJson_object hparse hp hlen deviceFields rfl rfl
  rw [hvalid, deviceFields_members h]
  refine ⟨by simp only [serializeDevice, h]; exact printInto_object hprint hp hlen, _, rfl, ?_, ?_, ?_, ?_⟩
  · exact CharArray.ofStr_str h1.no_zero (Nat.lt_succ_of_le h1.le)
  · exact CharArray.ofStr_str h2.no_zero (Nat.lt_succ_of_le h2.le)
  · exact CharArray.ofStr_str h3.no_zero (Nat.lt_succ_of_le h3.le)
  · exact CharArray.ofStr_str h4.no_zero (Nat.lt_succ_of_le h4.le)

/-! ## The manufacturing document -/

theorem manufacturingMembers_printable (doc : AppConfigManufacturingDoc) :
    ∀ m ∈ manufacturingMembers doc, m.Printable := by
  have key : ∀ {key : List UInt8} {n : Int32}, key.all isPrintable = true → Member.Printable (key, .int n) :=
    fun hk => ⟨hk, fun s e => by cases e⟩
  simp only [manufacturingMembers, List.forall_mem_cons]
  exact ⟨key (by decide), key (by decide), key (by decide), by simp⟩

theorem manufacturingMembers_length (doc : AppConfigManufacturingDoc) :
    (printObject (manufacturingMembers doc)).length ≤ APP_CONFIG_MAX_FILE_BYTES := by
  have number : ∀ (k : List UInt8) (n : Int32), k.length ≤ 20 → (printMember (k, .int n)).length ≤ 60 := fun k n hk => by
    have := length_printString_le k
    have := length_printInt_le n
    simp only [printMember, Scalar.print, List.length_append, List.length_cons]
    omega
  have m1 := number (ascii "schema_version") APP_CONFIG_SCHEMA_VERSION.toInt32 (by decide)
  have m2 := number (ascii "manufacturing_state") doc.manufacturingState (by decide)
  have m3 := number (ascii "credential_mode") doc.credentialMode (by decide)
  simp only [manufacturingMembers, printObject, printMembers, List.length_append, List.length_cons, List.length_nil,
    APP_CONFIG_MAX_FILE_BYTES]
  omega

/-- A value of an enumeration whose last constant is `limit`. -/
def InRange (n : Int32) (limit : Nat) : Prop := 0 ≤ n.toInt ∧ n.toInt ≤ limit

theorem ofNat_toInt_toNat {n : Int32} (hn : 0 ≤ n.toInt) : UInt32.ofNat n.toInt.toNat = n.toUInt32 := by
  have h0 : (0 : Int32) ≤ n := Int32.le_iff_toInt_le.2 hn
  rw [← UInt32.toNat_inj, Int32.toNat_toUInt32_of_le h0, Int32.toNat_toInt, UInt32.toNat_ofNat']
  exact Nat.mod_eq_of_lt (by rw [← Int32.toNat_toUInt32_of_le h0]; exact UInt32.toNat_lt _)

/-- What the check of a number member accepts: an integer within the limit. -/
theorem getBoundedNumber_iff {object : Json} {key : String} {limit u : UInt32} :
    getBoundedNumber object key limit = .ok u ↔
      ∃ v, object.item (ascii key) = some (.number v) ∧ v.cmp u.toNat = .eq ∧ u ≤ limit := by
  unfold getBoundedNumber
  split
  · rename_i v hi
    simp only [hi, Option.some.injEq, Json.number.injEq, exists_eq_left', UInt32.le_iff_toNat_le]
    have hlim := limit.toNat_lt
    constructor
    · intro h
      split at h
      · cases h
      split at h
      · cases h
      · rename_i hlo hhi
        simp only [not_or, not_not] at hlo hhi
        obtain rfl := Except.ok.inj h
        obtain ⟨hn, -, hle⟩ := Number.between_iff.1 ⟨⟨(hlo.1 : v.cmp (0 : Nat) ≠ .lt), hhi⟩, rfl⟩
        rw [UInt32.toNat_ofNat_of_lt' (Nat.lt_of_le_of_lt hle hlim)]
        exact ⟨hn, hle⟩
    · rintro ⟨hn, hle⟩
      obtain ⟨⟨hlo, hhi, hi⟩, ht⟩ := Number.between_iff.2 ⟨hn, Nat.zero_le _, hle⟩
      have hlo' : ¬ (v.cmp 0 = .lt ∨ v = .infinite false) := not_or.2 ⟨hlo, Number.ne_infinite_of_integral hi false⟩
      rw [if_neg hlo', if_neg (by simp [hhi, hi]), ht, UInt32.ofNat_toNat]
  · rename_i hno
    refine iff_of_false (by simp) ?_
    rintro ⟨v, hi, -⟩
    exact hno v hi

/-- A value of an enumeration, as the unsigned number that is read for it. -/
theorem InRange.toNat {n : Int32} {limit : Nat} (h : InRange n limit) : (n.toUInt32.toNat : Int) = n.toInt := by
  rw [← ofNat_toInt_toNat h.1, UInt32.toNat_ofNat_of_lt', Int.toNat_of_nonneg h.1]
  have := n.toInt_lt
  simp only [UInt32.size]
  omega

/-- A validator reads a written `int` when it is in range, and only then. -/
theorem getBoundedNumber_int (key : String) (limit : UInt32) {object : Json} {n : Int32}
    (hi : object.item (ascii key) = some (.number (.finite n.toInt 0))) :
    (InRange n limit.toNat → getBoundedNumber object key limit = .ok n.toUInt32) ∧
      (¬ InRange n limit.toNat → ∃ e, getBoundedNumber object key limit = .error e) := by
  constructor
  · intro h
    refine getBoundedNumber_iff.2 ⟨_, hi, by simp [Number.cmp, h.toNat], ?_⟩
    rw [UInt32.le_iff_toNat_le]
    have := h.toNat
    have := h.2
    omega
  · intro h
    cases hr : getBoundedNumber object key limit with
    | error e => exact ⟨e, rfl⟩
    | ok u =>
      refine absurd ?_ h
      obtain ⟨v, hi', hv, hle⟩ := getBoundedNumber_iff.1 hr
      rw [UInt32.le_iff_toNat_le] at hle
      obtain rfl : v = .finite n.toInt 0 := by simpa using hi'.symm.trans hi
      simp only [Number.cmp, pow_zero, mul_one, Int.compare_eq_eq] at hv
      exact ⟨by omega, by omega⟩

/-- The fields of a written manufacturing document are accepted exactly when both
are in range, and then hold its values. -/
theorem manufacturingFields_members (doc : AppConfigManufacturingDoc) :
    let read := manufacturingFields APP_CONFIG_SCHEMA_VERSION (JsonText.object (manufacturingMembers doc))
    let ok := InRange doc.manufacturingState APP_CONFIG_MFG_STATE_QUARANTINED.toUInt32.toNat ∧
      InRange doc.credentialMode APP_CONFIG_CRED_MODE_MTLS.toUInt32.toNat
    (ok → read = .ok { doc with schemaVersion := APP_CONFIG_SCHEMA_VERSION }) ∧ (¬ ok → ∃ e, read = .error e) := by
  intro read ok
  have state := getBoundedNumber_int "manufacturing_state" APP_CONFIG_MFG_STATE_QUARANTINED.toUInt32
    (show (JsonText.object (manufacturingMembers doc)).item (ascii "manufacturing_state") =
      some (.number (.finite doc.manufacturingState.toInt 0)) from rfl)
  have mode := getBoundedNumber_int "credential_mode" APP_CONFIG_CRED_MODE_MTLS.toUInt32
    (show (JsonText.object (manufacturingMembers doc)).item (ascii "credential_mode") =
      some (.number (.finite doc.credentialMode.toInt 0)) from rfl)
  constructor
  · rintro ⟨hs, hm⟩
    simp only [read, manufacturingFields, state.1 hs, mode.1 hm]
    rfl
  · intro h
    by_cases hs : InRange doc.manufacturingState APP_CONFIG_MFG_STATE_QUARANTINED.toUInt32.toNat
    · obtain ⟨e, he⟩ := mode.2 fun hm => h ⟨hs, hm⟩
      simp only [read, manufacturingFields, state.1 hs, he]
      exact ⟨e, rfl⟩
    · obtain ⟨e, he⟩ := state.2 hs
      simp only [read, manufacturingFields, he]
      exact ⟨e, rfl⟩

/-- A manufacturing document is always written; it is accepted exactly when both fields
are in range, and then read back. -/
theorem manufacturing_round_trip (hparse : Parses cJsonParseWithLengthOpts) (hprint : Prints cJsonPrintBuffered)
    (doc : AppConfigManufacturingDoc) :
    let text := printObject (manufacturingMembers doc)
    serializeManufacturing cJsonPrintBuffered doc APP_CONFIG_WORK_BUF_BYTES = some text ∧
      text.length ≤ APP_CONFIG_MAX_FILE_BYTES ∧
      ((∃ out, appConfigValidateManufacturingJson cJsonParseWithLengthOpts (some text) = .ok out) ↔
        InRange doc.manufacturingState 2 ∧ InRange doc.credentialMode 2) ∧
      ∀ out, appConfigValidateManufacturingJson cJsonParseWithLengthOpts (some text) = .ok out →
        out.manufacturingState = doc.manufacturingState ∧ out.credentialMode = doc.credentialMode := by
  intro text
  have hp := manufacturingMembers_printable doc
  have hlen := manufacturingMembers_length doc
  have hvalid : appConfigValidateManufacturingJson cJsonParseWithLengthOpts (some text) =
      manufacturingFields APP_CONFIG_SCHEMA_VERSION (JsonText.object (manufacturingMembers doc)) :=
    validateJson_object hparse hp hlen manufacturingFields rfl rfl
  obtain ⟨hin, hout⟩ := manufacturingFields_members doc
  refine ⟨printInto_object hprint hp hlen, hlen, ⟨?_, fun h => ⟨_, hvalid.trans (hin h)⟩⟩, ?_⟩
  · rintro ⟨out, ho⟩
    by_contra h
    obtain ⟨e, he⟩ := hout h
    cases (hvalid.trans he).symm.trans ho
  · intro out ho
    by_cases h : InRange doc.manufacturingState 2 ∧ InRange doc.credentialMode 2
    · obtain rfl := Except.ok.inj ((hvalid.trans (hin h)).symm.trans ho)
      exact ⟨rfl, rfl⟩
    · obtain ⟨e, he⟩ := hout h
      cases (hvalid.trans he).symm.trans ho

/-! ## Both kinds -/

/-- The typed check, the serializer and the validators agree on every document. -/
theorem documents_agree (hparse : Parses cJsonParseWithLengthOpts) (hprint : Prints cJsonPrintBuffered) :
    (∀ doc : AppConfigDeviceDoc,
      (deviceDocStringsValid doc = .ok () ↔ ∃ text out,
        serializeDevice cJsonPrintBuffered doc APP_CONFIG_WORK_BUF_BYTES = some text ∧
          appConfigValidateDeviceJson cJsonParseWithLengthOpts (some text) = .ok out) ∧
      ∀ text, serializeDevice cJsonPrintBuffered doc APP_CONFIG_WORK_BUF_BYTES = some text →
        text.length ≤ APP_CONFIG_MAX_FILE_BYTES ∧
          ∃ out, appConfigValidateDeviceJson cJsonParseWithLengthOpts (some text) = .ok out ∧
            out.product.str = doc.product.str ∧ out.hardwareRevision.str = doc.hardwareRevision.str ∧
            out.serial.str = doc.serial.str ∧ out.thingsboardName.str = doc.thingsboardName.str) ∧
    ∀ doc : AppConfigManufacturingDoc, ∃ text,
      serializeManufacturing cJsonPrintBuffered doc APP_CONFIG_WORK_BUF_BYTES = some text ∧
        text.length ≤ APP_CONFIG_MAX_FILE_BYTES ∧
        ((∃ out, appConfigValidateManufacturingJson cJsonParseWithLengthOpts (some text) = .ok out) ↔
          InRange doc.manufacturingState 2 ∧ InRange doc.credentialMode 2) ∧
        ∀ out, appConfigValidateManufacturingJson cJsonParseWithLengthOpts (some text) = .ok out →
          out.manufacturingState = doc.manufacturingState ∧ out.credentialMode = doc.credentialMode := by
  constructor
  · intro doc
    constructor
    · constructor
      · intro h
        obtain ⟨hs, out, hv, -⟩ := device_round_trip hparse hprint h
        exact ⟨_, out, hs, hv⟩
      · rintro ⟨text, out, hs, -⟩
        exact serializeDevice_valid hs
    · intro text hs
      have h := serializeDevice_valid hs
      obtain ⟨hs', hv⟩ := device_round_trip hparse hprint h
      obtain rfl := Option.some.inj (hs'.symm.trans hs)
      exact ⟨deviceMembers_length h, hv⟩
  · exact fun doc => ⟨_, manufacturing_round_trip hparse hprint doc⟩

/-- A product name with quotes in it, and with what looks like a NUL escape. -/
def escapedDoc : AppConfigDeviceDoc where
  schemaVersion := APP_CONFIG_SCHEMA_VERSION
  product := .ofStr _ (ascii "lamp \\u0000 \"K\"")
  hardwareRevision := .ofStr _ (ascii "A")
  serial := .ofStr _ (ascii "K-1")
  thingsboardName := .ofStr _ (ascii "kitchen")

/-- With the flat reader and printer such a name passes through a file. -/
theorem documents_agree_escaped : ∃ text out,
    serializeDevice printText escapedDoc APP_CONFIG_WORK_BUF_BYTES = some text ∧
      appConfigValidateDeviceJson readText (some text) = .ok out ∧ out.product.str = ascii "lamp \\u0000 \"K\"" := by
  have hparse : Parses readText := fun _ _ h => readText_eq h
  have hprint : Prints printText := fun members _ => printText_object members
  obtain ⟨device, -⟩ := documents_agree hparse hprint
  obtain ⟨hiff, hread⟩ := device escapedDoc
  obtain ⟨text, -, hs, -⟩ := hiff.1 (by decide +kernel)
  obtain ⟨-, out, hv, hproduct, -⟩ := hread text hs
  exact ⟨text, out, hs, hv, hproduct.trans (by decide +kernel)⟩

end LedLamp.AppConfig
