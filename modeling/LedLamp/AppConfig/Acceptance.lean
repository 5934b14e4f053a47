import LedLamp.AppConfig.Recovery
import LedLamp.AppConfig.RoundTrip
import LedLamp.JsonReader
/-!
# Which stored bytes a validator accepts

`DeviceMembers` and `ManufacturingMembers` say of an object's members that they are
the schema's, each once, and which document they are. Stored bytes are accepted exactly
when all of them are one JSON object of such members, without NUL bytes; an object of
another schema is told apart by its first version alone (`stored_accepts`). A negative
version is no older schema but malformed (`negative_version_malformed`).
-/

namespace LedLamp.AppConfig

open JsonSyntax

/-- cJSON's strict parse, over a text and its terminator: it reads exactly the documents
of this grammar. -/
def ParsesDocuments (L : Lexis) (parse : List UInt8 → Option Json) : Prop :=
  ∀ text v, 0 ∉ text → (parse (text ++ [0]) = some v ↔ Document L text v)

/-! ## The schemas -/

section Schemas
variable (members : List (List UInt8 × Json))

/-- The member is a string that passes its check, and the array holds it. -/
def StringField (key : String) (maxLen : Nat) (serial : Bool) (a : CharArray (maxLen + 1)) : Prop :=
  ∃ s, (ascii key, .string s) ∈ members ∧ Field s maxLen serial ∧ a.Holds s

/-- The member is this number, a value of its enumeration. -/
def NumberField (key : String) (limit : Nat) (n : Int32) : Prop :=
  InRange n limit ∧ ∃ v : Number, (ascii key, .number v) ∈ members ∧ v.cmp n.toInt = .eq

/-- The members have the names of the schema, each once, and the current version. -/
structure Envelope (keys : List String) (version : UInt32) : Prop where
  names : (members.map (·.1)).Perm (keys.map ascii)
  current : version = APP_CONFIG_SCHEMA_VERSION ∧
    ∃ v : Number, (ascii "schema_version", .number v) ∈ members ∧ v.cmp APP_CONFIG_SCHEMA_VERSION.toNat = .eq

structure DeviceMembers (doc : AppConfigDeviceDoc) : Prop where
  envelope : Envelope members DEVICE_KEYS doc.schemaVersion
  product : StringField members "product" APP_CONFIG_PRODUCT_MAX_LEN false doc.product
  hardwareRevision : StringField members "hardware_revision" APP_CONFIG_HARDWARE_REVISION_MAX_LEN false doc.hardwareRevision
  serial : StringField members "serial" APP_CONFIG_SERIAL_MAX_LEN true doc.serial
  thingsboardName : StringField members "thingsboard_name" APP_CONFIG_THINGSBOARD_NAME_MAX_LEN false doc.thingsboardName

structure ManufacturingMembers (doc : AppConfigManufacturingDoc) : Prop where
  envelope : Envelope members MANUFACTURING_KEYS doc.schemaVersion
  manufacturingState : NumberField members "manufacturing_state" 2 doc.manufacturingState
  credentialMode : NumberField members "credential_mode" 2 doc.credentialMode

/-- The members of an object are this document of the kind. -/
def DocMembers : (kind : AppConfigDocKind) → kind.Doc → Prop
  | .device, doc => DeviceMembers members doc
  | .manufacturing, doc => ManufacturingMembers members doc
  | .other _, _ => False

end Schemas

/-! ## The members -/

section Members
variable {members : List (List UInt8 × Json)}

/-- The check of the names: known ones only, and no more of them than keys. -/
theorem checkMemberKeys_iff (hn : ∀ m ∈ members, (0 : UInt8) ∉ m.1) {allowed : List (List UInt8)} (hne : [] ∉ allowed) :
    checkMemberKeys (.object members) allowed = .ok () ↔
      (∀ m ∈ members, m.1 ∈ allowed) ∧ members.length ≤ allowed.length := by
  have hall : (members.all fun m => !(cstr m.1).isEmpty && allowed.contains (cstr m.1)) = true ↔
      ∀ m ∈ members, m.1 ∈ allowed := by
    rw [List.all_eq_true]
    refine forall_congr' fun m => forall_congr' fun hm => ?_
    rw [cstr_of_not_mem (hn m hm), Bool.and_eq_true, List.contains_iff_mem]
    refine and_iff_right_of_imp fun h => ?_
    cases hk : m.1 with
    | nil => exact absurd (hk ▸ h) hne
    | cons c key => rfl
  rw [← hall, checkMemberKeys, Json.members]
  by_cases h : (members.all fun m => !(cstr m.1).isEmpty && allowed.contains (cstr m.1)) = true
  · rw [h]
    by_cases hlen : members.length > allowed.length
    · simp [hlen]
    · simp [hlen, Nat.not_lt.1 hlen]
  · rw [Bool.not_eq_true] at h
    simp only [h, Bool.not_false, if_true, reduceCtorEq, Bool.false_eq_true, false_and]

/-- Where each key has a member and there are no more members than keys, there is
just one for each: the count alone excludes duplicates. -/
theorem names_perm {keys : List (List UInt8)} (hd : keys.Nodup) (hlen : members.length ≤ keys.length)
    (hall : ∀ key ∈ keys, key ∈ members.map (·.1)) : (members.map (·.1)).Perm keys :=
  ((hd.subperm hall).perm_of_length_le (by simpa using hlen)).symm

theorem checkMemberKeys_names (hn : ∀ m ∈ members, (0 : UInt8) ∉ m.1) {keys : List (List UInt8)} (hd : keys.Nodup)
    (hne : [] ∉ keys) (hall : ∀ key ∈ keys, key ∈ members.map (·.1)) :
    checkMemberKeys (.object members) keys = .ok () ↔ (members.map (·.1)).Perm keys := by
  rw [checkMemberKeys_iff hn hne]
  constructor
  · rintro ⟨-, hlen⟩
    exact names_perm hd hlen hall
  · intro h
    exact ⟨fun m hm => h.subset (List.mem_map_of_mem hm), by simpa using h.length_eq.le⟩

/-- A member that is found has its key for a name. -/
theorem name_of_item (hn : ∀ m ∈ members, (0 : UInt8) ∉ m.1) {key : List UInt8} (hk : 0 ∉ key) {v : Json}
    (h : (Json.object members).item key = some v) : key ∈ members.map (·.1) := by
  obtain ⟨before, after, rfl, -⟩ := (Json.item_first hn hk).1 h
  simp

/-! ## The version -/

/-- Only the current version gets past the envelope. -/
theorem getSchemaVersion_current {root : Json} {version : UInt32} :
    (getSchemaVersion root = .ok version ∧ ¬ version < APP_CONFIG_SCHEMA_VERSION) ↔
      version = APP_CONFIG_SCHEMA_VERSION ∧ ∃ v : Number, root.item (ascii "schema_version") = some (.number v) ∧
        v.cmp APP_CONFIG_SCHEMA_VERSION.toNat = .eq := by
  constructor
  · rintro ⟨h, hlt⟩
    -- An accepted version is integral, and of the integers the bounds leave only the current one.
    have hi : ∃ v, root.item (ascii "schema_version") = some (.number v) ∧ v.cmp v.truncate = .eq := by
      unfold getSchemaVersion at h
      split at h
      · rename_i v hi
        refine ⟨v, hi, ?_⟩
        split at h
        · cases h
        split at h
        · cases h
        split at h
        · cases h
        · rename_i hint
          exact not_not.1 hint
      · cases h
    obtain ⟨v, hi, hint⟩ := hi
    rw [getSchemaVersion_integral hi hint] at h
    split at h
    · cases h
    split at h
    · cases h
    · rename_i h0 h1
      obtain rfl := Except.ok.inj h
      have hcur : ((APP_CONFIG_SCHEMA_VERSION.toNat : Nat) : Int) = 1 := rfl
      have hne : v.truncate ≠ 0 := fun hz => hlt (by rw [hz]; decide)
      have ht : v.truncate = 1 := by omega
      rw [ht] at hint ⊢
      exact ⟨rfl, v, hi, hint⟩
  · rintro ⟨rfl, v, hi, hv⟩
    rw [getSchemaVersion_integral hi hv]
    exact ⟨rfl, by decide⟩

/-! ## The fields -/

section Fields
variable (hnul : Json.membersHoldNul members = false)

include hnul

variable (hd : (members.map (·.1)).Nodup)

include hd

theorem stringField_iff {key : String} (hk : 0 ∉ ascii key) {maxLen : Nat} {serial : Bool} {a : CharArray (maxLen + 1)} :
    getBoundedString (.object members) key (maxLen + 1) serial = .ok a ↔ StringField members key maxLen serial a := by
  rw [getBoundedString_iff]
  exact Json.member_string_iff hnul hd hk (P := fun s => Field s maxLen serial ∧ a.Holds s)

theorem numberField_iff {key : String} (hk : 0 ∉ ascii key) (limit : UInt32) (hlimit : limit.toNat < 2 ^ 31)
    {n : Int32} :
    (∃ u, getBoundedNumber (.object members) key limit = .ok u ∧ u.toInt32 = n) ↔
      NumberField members key limit.toNat n := by
  simp only [getBoundedNumber_iff, Json.member_iff hnul hd hk, NumberField, UInt32.le_iff_toNat_le]
  constructor
  · rintro ⟨u, ⟨v, hm, hv, hle⟩, rfl⟩
    have hu : u.toInt32.toInt = u.toNat := BitVec.toInt_eq_toNat_of_lt (x := u.toBitVec) (by
      rw [UInt32.toNat_toBitVec]
      omega)
    exact ⟨⟨by omega, by omega⟩, v, hm, by rw [hu]; exact hv⟩
  · rintro ⟨hr, v, hm, hv⟩
    have hn := hr.toNat
    refine ⟨n.toUInt32, ⟨v, hm, hn ▸ hv, ?_⟩, by simp⟩
    have := hr.2
    omega

end Fields

theorem names_nodup {keys : List String} (hkeys : (keys.map ascii).Nodup)
    (h : (members.map (·.1)).Perm (keys.map ascii)) : (members.map (·.1)).Nodup := h.nodup_iff.2 hkeys

/-- The envelope as the validators check it: the version, the names by their count, and
a member for each key. -/
theorem envelope_iff (hnul : Json.membersHoldNul members = false) {keys : List String} (hkeys : (keys.map ascii).Nodup)
    (hplain : ∀ key ∈ keys, 0 ∉ ascii key ∧ ascii key ≠ []) (hversion : "schema_version" ∈ keys) {version : UInt32} :
    Envelope members keys version ↔ version = APP_CONFIG_SCHEMA_VERSION ∧
      (∃ v : Number, (Json.object members).item (ascii "schema_version") = some (.number v) ∧
        v.cmp APP_CONFIG_SCHEMA_VERSION.toNat = .eq) ∧
      checkMemberKeys (.object members) (keys.map ascii) = .ok () ∧
      ∀ key ∈ keys, ((Json.object members).item (ascii key)).isSome = true := by
  have hn := Json.names_plain hnul
  have hne : [] ∉ keys.map ascii := by
    intro h
    obtain ⟨key, hk, he⟩ := List.mem_map.1 h
    exact (hplain key hk).2 he
  constructor
  · rintro ⟨hnames, hcur, v, hv, hv'⟩
    have hd := names_nodup hkeys hnames
    have hall : ∀ key ∈ keys.map ascii, key ∈ members.map (·.1) := fun key hk => hnames.symm.subset hk
    refine ⟨hcur, ⟨v, (Json.member_iff hnul hd (hplain _ hversion).1).2 hv, hv'⟩,
      (checkMemberKeys_names hn hkeys hne hall).2 hnames, fun key hk => ?_⟩
    obtain ⟨m, hm, he⟩ := List.mem_map.1 (hall _ (List.mem_map_of_mem hk))
    obtain ⟨name, v⟩ := m
    obtain rfl : name = ascii key := he
    rw [(Json.member_iff hnul hd (hplain _ hk).1).2 hm]
    rfl
  · rintro ⟨hcur, ⟨v, hi, hv⟩, hkeys', hall⟩
    -- Every key is there and there are no more names than keys, so the names are the keys.
    have hall' : ∀ key ∈ keys.map ascii, key ∈ members.map (·.1) := by
      intro name h
      obtain ⟨key, hk, rfl⟩ := List.mem_map.1 h
      obtain ⟨v, hv⟩ := Option.isSome_iff_exists.1 (hall key hk)
      exact name_of_item hn (hplain key hk).1 hv
    have hnames := (checkMemberKeys_names hn hkeys hne hall').1 hkeys'
    exact ⟨hnames, hcur, v, (Json.member_iff hnul (names_nodup hkeys hnames) (hplain _ hversion).1).1 hi, hv⟩

theorem deviceFields_iff {root : Json} {version : UInt32} {doc : AppConfigDeviceDoc} :
    deviceFields version root = .ok doc ↔ version = doc.schemaVersion ∧
      getBoundedString root "product" _ false = .ok doc.product ∧
      getBoundedString root "hardware_revision" _ false = .ok doc.hardwareRevision ∧
      getBoundedString root "serial" _ true = .ok doc.serial ∧
      getBoundedString root "thingsboard_name" _ false = .ok doc.thingsboardName := by
  simp only [deviceFields, bind_ok_iff]
  constructor
  · rintro ⟨product, h1, revision, h2, serial, h3, name, h4, h⟩
    obtain rfl := Except.ok.inj h
    exact ⟨rfl, h1, h2, h3, h4⟩
  · rintro ⟨rfl, h1, h2, h3, h4⟩
    exact ⟨_, h1, _, h2, _, h3, _, h4, rfl⟩

theorem manufacturingFields_iff {root : Json} {version : UInt32} {doc : AppConfigManufacturingDoc} :
    manufacturingFields version root = .ok doc ↔ version = doc.schemaVersion ∧
      (∃ u, getBoundedNumber root "manufacturing_state" APP_CONFIG_MFG_STATE_QUARANTINED.toUInt32 = .ok u ∧
        u.toInt32 = doc.manufacturingState) ∧
      ∃ u, getBoundedNumber root "credential_mode" APP_CONFIG_CRED_MODE_MTLS.toUInt32 = .ok u ∧
        u.toInt32 = doc.credentialMode := by
  simp only [manufacturingFields, bind_ok_iff]
  constructor
  · rintro ⟨state, h1, mode, h2, h⟩
    obtain rfl := Except.ok.inj h
    exact ⟨rfl, ⟨state, h1, rfl⟩, mode, h2, rfl⟩
  · rintro ⟨rfl, ⟨state, h1, hs⟩, mode, h2, hm⟩
    refine ⟨state, h1, mode, h2, ?_⟩
    rw [hs, hm]
    rfl

theorem getBoundedString_present {root : Json} {key : String} {maxLen : Nat} {serial : Bool} {a : CharArray (maxLen + 1)}
    (h : getBoundedString root key (maxLen + 1) serial = .ok a) : (root.item (ascii key)).isSome = true := by
  obtain ⟨s, hi, -⟩ := getBoundedString_iff.1 h
  rw [hi]
  rfl

theorem getBoundedNumber_present {root : Json} {key : String} {limit u : UInt32}
    (h : getBoundedNumber root key limit = .ok u) : (root.item (ascii key)).isSome = true := by
  obtain ⟨v, hi, -⟩ := getBoundedNumber_iff.1 h
  rw [hi]
  rfl

/-- What the checks of a validator let through, once the text is parsed. -/
def Checked {Doc : Type} (keys : List String) (fields : UInt32 → Json → Except AppConfigError Doc)
    (members : List (List UInt8 × Json)) (doc : Doc) : Prop :=
  (∃ v : Number, (Json.object members).item (ascii "schema_version") = some (.number v) ∧
    v.cmp APP_CONFIG_SCHEMA_VERSION.toNat = .eq) ∧
  checkMemberKeys (.object members) (keys.map ascii) = .ok () ∧
  fields APP_CONFIG_SCHEMA_VERSION (.object members) = .ok doc

theorem checked_device (hnul : Json.membersHoldNul members = false) {doc : AppConfigDeviceDoc} :
    Checked DEVICE_KEYS deviceFields members doc ↔ DeviceMembers members doc := by
  have hkeys : (DEVICE_KEYS.map ascii).Nodup := by decide
  have henv : ∀ version, Envelope members DEVICE_KEYS version ↔ _ :=
    fun _ => envelope_iff hnul hkeys (by decide) (by decide)
  rw [Checked, deviceFields_iff]
  constructor
  · rintro ⟨⟨v, hi, hv⟩, hnames, hver, h1, h2, h3, h4⟩
    have hall : ∀ key ∈ DEVICE_KEYS, ((Json.object members).item (ascii key)).isSome = true := by
      simp only [DEVICE_KEYS, List.forall_mem_cons]
      exact ⟨by rw [hi]; rfl, getBoundedString_present h1, getBoundedString_present h2, getBoundedString_present h3,
        getBoundedString_present h4, by simp⟩
    have h := (henv doc.schemaVersion).2 ⟨hver.symm, ⟨v, hi, hv⟩, hnames, hall⟩
    have hd := names_nodup hkeys h.names
    exact {
      envelope := h
      product := (stringField_iff hnul hd (by decide)).1 h1
      hardwareRevision := (stringField_iff hnul hd (by decide)).1 h2
      serial := (stringField_iff hnul hd (by decide)).1 h3
      thingsboardName := (stringField_iff hnul hd (by decide)).1 h4 }
  · intro h
    have hd := names_nodup hkeys h.envelope.names
    obtain ⟨hver, hcur, hnames, -⟩ := (henv doc.schemaVersion).1 h.envelope
    exact ⟨hcur, hnames, hver.symm, (stringField_iff hnul hd (by decide)).2 h.product,
      (stringField_iff hnul hd (by decide)).2 h.hardwareRevision, (stringField_iff hnul hd (by decide)).2 h.serial,
      (stringField_iff hnul hd (by decide)).2 h.thingsboardName⟩

theorem checked_manufacturing (hnul : Json.membersHoldNul members = false) {doc : AppConfigManufacturingDoc} :
    Checked MANUFACTURING_KEYS manufacturingFields members doc ↔ ManufacturingMembers members doc := by
  have hkeys : (MANUFACTURING_KEYS.map ascii).Nodup := by decide
  have henv : ∀ version, Envelope members MANUFACTURING_KEYS version ↔ _ :=
    fun _ => envelope_iff hnul hkeys (by decide) (by decide)
  rw [Checked, manufacturingFields_iff]
  constructor
  · rintro ⟨⟨v, hi, hv⟩, hnames, hver, ⟨state, h1, hs⟩, mode, h2, hm⟩
    have hall : ∀ key ∈ MANUFACTURING_KEYS, ((Json.object members).item (ascii key)).isSome = true := by
      simp only [MANUFACTURING_KEYS, List.forall_mem_cons]
      exact ⟨by rw [hi]; rfl, getBoundedNumber_present h1, getBoundedNumber_present h2, by simp⟩
    have h := (henv doc.schemaVersion).2 ⟨hver.symm, ⟨v, hi, hv⟩, hnames, hall⟩
    have hd := names_nodup hkeys h.names
    exact ⟨h, (numberField_iff hnul hd (by decide) _ (by decide)).1 ⟨state, h1, hs⟩,
      (numberField_iff hnul hd (by decide) _ (by decide)).1 ⟨mode, h2, hm⟩⟩
  · intro h
    have hd := names_nodup hkeys h.envelope.names
    obtain ⟨hver, hcur, hnames, -⟩ := (henv doc.schemaVersion).1 h.envelope
    exact ⟨hcur, hnames, hver.symm,
      (numberField_iff hnul hd (by decide) APP_CONFIG_MFG_STATE_QUARANTINED.toUInt32 (by decide)).2 h.manufacturingState,
      (numberField_iff hnul hd (by decide) APP_CONFIG_CRED_MODE_MTLS.toUInt32 (by decide)).2 h.credentialMode⟩

end Members

/-! ## The stored bytes -/

section Stored
variable {L : Lexis} {parse : List UInt8 → Option Json} {text : List UInt8}

theorem rawJsonHasNulEscape_document (h0 : 0 ∉ text) {v : Json} (hdoc : Document L text v) :
    rawJsonHasNulEscape text = v.holdsNul := by
  rw [rawJsonHasNulEscape, cstr_of_not_mem h0]
  exact nulEscapeScan_nulScan.document hdoc (fun c hc e => h0 (e ▸ hc)) rfl

section Validator
variable {Doc : Type} {keys : List String} {fields : UInt32 → Json → Except AppConfigError Doc} {doc : Doc}

/-- A validator accepts a text without NUL bytes exactly when it is bounded and the
document of an object without NUL escapes that passes the checks. -/
theorem validateJson_ok_iff (hparse : ParsesDocuments L parse) (h0 : 0 ∉ text) :
    validateJson parse keys fields (some text) = .ok doc ↔ text.length ≤ APP_CONFIG_MAX_FILE_BYTES ∧
      ∃ members, Document L text (.object members) ∧ Json.membersHoldNul members = false ∧
        Checked keys fields members doc := by
  have hc := cstr_of_not_mem h0
  have hstr : strlen text = text.length := by rw [strlen, hc]
  dsimp only [validateJson]
  rw [hstr, hc]
  split
  · rename_i hlen
    exact iff_of_false (by simp) fun h => absurd h.1 (Nat.not_le.2 hlen)
  rename_i hlen
  rw [and_iff_right (Nat.not_lt.1 hlen)]
  split
  · rename_i members hp
    have hdoc := (hparse text _ h0).1 hp
    rw [rawJsonHasNulEscape_document h0 hdoc]
    simp only [bind_ok_iff, check_ok_iff, Bool.not_eq_true]
    constructor
    · rintro ⟨hnul, version, hv, hlt, u, hk, hf⟩
      obtain ⟨rfl, hcur⟩ := getSchemaVersion_current.1 ⟨hv, hlt⟩
      exact ⟨members, hdoc, hnul, hcur, hk, hf⟩
    · rintro ⟨members', hdoc', hnul, hcur, hk, hf⟩
      cases Option.some.inj (((hparse text _ h0).2 hdoc').symm.trans hp)
      obtain ⟨hv, hlt⟩ := getSchemaVersion_current.2 ⟨rfl, hcur⟩
      exact ⟨hnul, _, hv, hlt, (), hk, hf⟩
  · rename_i hno
    refine iff_of_false (by simp) ?_
    rintro ⟨members, hdoc, -⟩
    exact hno members ((hparse text _ h0).2 hdoc)

/-- The envelope comes first: an integral version decides alone, unless it is the
current one. -/
theorem validateJson_version (hparse : ParsesDocuments L parse) (h0 : 0 ∉ text)
    (hlen : text.length ≤ APP_CONFIG_MAX_FILE_BYTES) {members : List (List UInt8 × Json)}
    (hdoc : Document L text (.object members)) (hnul : Json.membersHoldNul members = false) {v : Number} {k : Int}
    (hfirst : Json.FirstOf members (ascii "schema_version") (.number v)) (hk : v.cmp k = .eq) :
    (k < 0 → validateJson parse keys fields (some text) = .error .errMalformed) ∧
    (0 ≤ k → k < APP_CONFIG_SCHEMA_VERSION.toNat → validateJson parse keys fields (some text) = .error .errMigration) ∧
    (APP_CONFIG_SCHEMA_VERSION.toNat < k → validateJson parse keys fields (some text) = .error .errUnknownSchema) := by
  have hi := (Json.item_first (Json.names_plain hnul) (by decide)).2 hfirst
  have hcur : ((APP_CONFIG_SCHEMA_VERSION.toNat : Nat) : Int) = 1 := rfl
  have hscan : rawJsonHasNulEscape text = false := (rawJsonHasNulEscape_document h0 hdoc).trans hnul
  simp only [validateJson, strlen, cstr_of_not_mem h0, if_neg (Nat.not_lt.2 hlen), (hparse text _ h0).2 hdoc, hscan,
    getSchemaVersion_integral hi hk, hcur]
  refine ⟨fun h => ?_, fun h h' => ?_, fun h => ?_⟩
  · rw [if_pos h]
    rfl
  · obtain rfl : k = 0 := by omega
    rfl
  · rw [if_neg (show ¬ k < 0 by omega), if_pos h]
    rfl

end Validator

end Stored

/-- The bytes of a file, accepted or not, go through the validator of the kind as one text. -/
theorem validateStoredLen_text {p : Platform} {kind : AppConfigDocKind} {bytes : List UInt8}
    (hlen : bytes.length ≤ APP_CONFIG_MAX_FILE_BYTES) (h0 : 0 ∉ bytes) :
    validateStoredLen p kind bytes = validateKind p kind (some bytes) := by
  unfold validateStoredLen
  rw [if_neg (Nat.not_lt.2 hlen), if_neg fun h => h0 (by simpa using h.2)]

/-- The bytes are, to the last one, a bounded JSON object without NUL bytes and NUL
escapes, with these members. -/
structure StoredObject (L : Lexis) (bytes : List UInt8) (members : List (List UInt8 × Json)) : Prop where
  bounded : bytes.length ≤ APP_CONFIG_MAX_FILE_BYTES
  plain : 0 ∉ bytes
  document : Document L bytes (.object members)
  escapes : Json.membersHoldNul members = false

/-- The stored object is a document of the kind. -/
def StoredDoc (L : Lexis) (kind : AppConfigDocKind) (bytes : List UInt8) (doc : kind.Doc) : Prop :=
  ∃ members, StoredObject L bytes members ∧ DocMembers members kind doc

/-- The first version of the stored object is this integer. -/
def StoredVersion (L : Lexis) (bytes : List UInt8) (version : Int) : Prop :=
  ∃ members v, StoredObject L bytes members ∧ Json.FirstOf members (ascii "schema_version") (.number v) ∧
    v.cmp version = .eq

theorem validateStoredLen_iff {L : Lexis} {p : Platform} (hparse : ParsesDocuments L p.cJsonParseWithLengthOpts)
    {kind : AppConfigDocKind} {bytes : List UInt8} {doc : kind.Doc} :
    validateStoredLen p kind bytes = .ok doc ↔ StoredDoc L kind bytes doc := by
  by_cases h0 : 0 ∈ bytes
  · refine iff_of_false (fun h => ?_) fun ⟨_, h, _⟩ => h.plain h0
    rcases validateStoredLen_cases p kind bytes with ⟨status, he, -⟩ | ⟨hc, -⟩
    · rw [he] at h
      cases h
    · exact zero_not_mem_cstr bytes (hc.symm ▸ h0)
  by_cases hlen : bytes.length ≤ APP_CONFIG_MAX_FILE_BYTES
  · rw [validateStoredLen_text hlen h0]
    -- Both known kinds are the same validator with their own checks.
    have stored : ∀ {Doc : Type} {keys : List String} {fields : UInt32 → Json → Except AppConfigError Doc} {doc : Doc}
        {M : List (List UInt8 × Json) → Prop},
        (∀ {members}, Json.membersHoldNul members = false → (Checked keys fields members doc ↔ M members)) →
        (validateJson p.cJsonParseWithLengthOpts keys fields (some bytes) = .ok doc ↔
          ∃ members, StoredObject L bytes members ∧ M members) := by
      intro Doc keys fields doc M hM
      rw [validateJson_ok_iff hparse h0, and_iff_right hlen]
      constructor
      · rintro ⟨members, hdoc, hnul, hc⟩
        exact ⟨members, ⟨hlen, h0, hdoc, hnul⟩, (hM hnul).1 hc⟩
      · rintro ⟨members, h, hm⟩
        exact ⟨members, h.document, h.escapes, (hM h.escapes).2 hm⟩
    cases kind with
    | device => exact stored fun hnul => checked_device hnul
    | manufacturing => exact stored fun hnul => checked_manufacturing hnul
    | other value => exact iff_of_false (by simp [validateKind]) fun ⟨_, _, h⟩ => h
  · refine iff_of_false (fun h => ?_) fun ⟨_, h, _⟩ => hlen h.bounded
    simp [validateStoredLen, Nat.not_le.1 hlen] at h

/-- A validator accepts exactly the stored documents of its kind, and yields the document
they are; of any other stored object an integral first version decides alone what it
is refused for. -/
theorem stored_accepts {L : Lexis} {p : Platform} (hparse : ParsesDocuments L p.cJsonParseWithLengthOpts)
    {kind : AppConfigDocKind} (hk : appConfigDocPath kind ≠ none) (bytes : List UInt8) :
    (∀ doc, validateStoredLen p kind bytes = .ok doc ↔ StoredDoc L kind bytes doc) ∧
    ∀ version, StoredVersion L bytes version →
      (version < 0 → validateStoredLen p kind bytes = .error .errMalformed) ∧
      (0 ≤ version → version < APP_CONFIG_SCHEMA_VERSION.toNat →
        validateStoredLen p kind bytes = .error .errMigration) ∧
      (APP_CONFIG_SCHEMA_VERSION.toNat < version → validateStoredLen p kind bytes = .error .errUnknownSchema) := by
  refine ⟨fun doc => validateStoredLen_iff hparse, ?_⟩
  rintro version ⟨members, v, h, hfirst, hv⟩
  rw [validateStoredLen_text h.bounded h.plain]
  cases kind with
  | device => exact validateJson_version hparse h.plain h.bounded h.document h.escapes hfirst hv
  | manufacturing => exact validateJson_version hparse h.plain h.bounded h.document h.escapes hfirst hv
  | other value => exact absurd rfl hk

/-! ## A platform to run it on -/

/-- A device whose parse reads whole documents, with integers for numbers. -/
def Platform.reading : Platform :=
  { Platform.ofFiles .missing .missing with cJsonParseWithLengthOpts := fun text => document cJsonIntegers text.dropLast }

theorem Platform.reading_parses : ParsesDocuments cJsonIntegers Platform.reading.cJsonParseWithLengthOpts := by
  intro text v _
  dsimp only [Platform.reading]
  rw [List.dropLast_concat]
  exact document_iff

def manufacturedText : List UInt8 :=
  ascii "\x7b \"credential_mode\": 2,\n \"schema_version\": 1, \"manufacturing_state\": 1 \x7d\n"

theorem stored_accepts_manufactured : StoredDoc cJsonIntegers .manufacturing manufacturedText ⟨1, 1, 2⟩ := by
  have h : appConfigValidateManufacturingJson Platform.reading.cJsonParseWithLengthOpts (some manufacturedText) =
      .ok ⟨1, 1, 2⟩ := by decide +kernel
  have htext : validateStoredLen .reading .manufacturing manufacturedText = _ :=
    validateStoredLen_text (by decide +kernel) (by decide +kernel)
  exact ((stored_accepts Platform.reading_parses (by decide) manufacturedText).1 _).1 (htext.trans h)

/-- The object of a document that a reader of the grammar finds. -/
theorem stored_of_document {L : Lexis} {bytes : List UInt8} {members : List (List UInt8 × Json)}
    (hdoc : document L bytes = some (.object members)) (hlen : bytes.length ≤ APP_CONFIG_MAX_FILE_BYTES)
    (h0 : 0 ∉ bytes) (hnul : Json.membersHoldNul members = false) : StoredObject L bytes members :=
  ⟨hlen, h0, document_iff.1 hdoc, hnul⟩

def negativeText : List UInt8 := ascii "\x7b\"schema_version\":-1\x7d"

/-- A negative version is older than the current one, and still no version to migrate. -/
theorem negative_version_malformed : ¬ ∀ (L : Lexis) (p : Platform), ParsesDocuments L p.cJsonParseWithLengthOpts →
    ∀ (kind : AppConfigDocKind), appConfigDocPath kind ≠ none → ∀ bytes : List UInt8,
      (∀ doc, validateStoredLen p kind bytes = .ok doc ↔ StoredDoc L kind bytes doc) ∧
      ∀ version, StoredVersion L bytes version →
        (version < APP_CONFIG_SCHEMA_VERSION.toNat → validateStoredLen p kind bytes = .error .errMigration) ∧
        (APP_CONFIG_SCHEMA_VERSION.toNat < version → validateStoredLen p kind bytes = .error .errUnknownSchema) := by
  intro h
  have hversion : StoredVersion cJsonIntegers negativeText (-1) := by
    refine ⟨[(ascii "schema_version", .number (.finite (-1) 0))], .finite (-1) 0,
      stored_of_document (by decide +kernel) (by decide +kernel) (by decide +kernel) (by decide +kernel), ?_, by decide⟩
    exact ⟨[], [], rfl, by simp⟩
  have hmigration := ((h _ .reading Platform.reading_parses .device (by decide) negativeText).2 _ hversion).1 (by decide)
  rw [validateStoredLen_text (by decide +kernel) (by decide +kernel)] at hmigration
  have hmalformed : appConfigValidateDeviceJson Platform.reading.cJsonParseWithLengthOpts (some negativeText) =
      .error .errMalformed := by decide +kernel
  cases hmigration.symm.trans hmalformed

end LedLamp.AppConfig
