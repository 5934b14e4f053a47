import LedLamp.CBuffer
import LedLamp.JsonMembers
import Mathlib.Data.List.Nodup
/-!
# The provisioning document (`tb_provisioning.c`: checks and parsing)

The record an enrolment is made with: its schema, read through C strings as the code
reads it, and the same schema said of the members themselves (`ConfigMembers`). The two
agree on the members with every name and string cut at its first NUL byte
(`parseRoot_iff`).
-/

namespace LedLamp.TbProvisioning

def TB_PROVISIONING_SCHEMA_VERSION : UInt32 := 1
def TB_PROVISIONING_MAX_FILE_BYTES : Nat := 2048
def TB_PROVISIONING_MAX_STRING_LEN : Nat := 64
def TB_PROVISIONING_FILE_PATH : List UInt8 := ascii "/config/provisioning.json"

/-- `tb_provisioning_status_t`. -/
inductive TbProvisioningStatus
  | ok
  | notFound
  | errIo
  | errMalformed
  | errBounds
  | errUnknownSchema
  | errRequest
  | errResponse
  | errPersist
  deriving DecidableEq, Repr

/-- `tb_provisioning_config_t`. -/
structure TbProvisioningConfig where
  deviceName : CharArray (TB_PROVISIONING_MAX_STRING_LEN + 1)
  provisionDeviceKey : CharArray (TB_PROVISIONING_MAX_STRING_LEN + 1)
  provisionDeviceSecret : CharArray (TB_PROVISIONING_MAX_STRING_LEN + 1)
  deriving DecidableEq

/-! ## Checks -/

def printableValue (value : List UInt8) (maxLen : Nat) (noSpace : Bool) : Bool :=
  if (cstr value).isEmpty then false
  else
    let length := strnlen value (maxLen + 1)
    if length = 0 ∨ length > maxLen then false
    else (value.take length).all fun ch => !(ch < 0x20 || ch > 0x7E || (noSpace && ch = 0x20))

/-- `allowed` of `exact_members`. -/
def allowed : List (List UInt8) :=
  ["schema_version", "device_name", "provision_device_key", "provision_device_secret"].map ascii

/-- The loop of `exact_members`: every member is known and not named again later. -/
def knownMembers : List (List UInt8 × Json) → Bool
  | [] => true
  | (key, _) :: rest => allowed.contains (cstr key) && !rest.any (fun m => cstr m.1 = cstr key) && knownMembers rest

def exactMembers (root : Json) : Bool := knownMembers root.members && root.members.length = allowed.length

/-! ## Parsing -/

/-- A member that `cJSON_IsNumber` holds of. -/
def numberItem (root : Json) (key : String) : Option Number :=
  match root.item (ascii key) with
  | some (.number n) => some n
  | _ => none

/-- A member that `cJSON_IsString` holds of. -/
def stringItem (root : Json) (key : String) : Option (List UInt8) :=
  match root.item (ascii key) with
  | some (.string s) => some s
  | _ => none

/-- A string member with its `printable_value` check, copied into its field. -/
def valueItem (root : Json) (key : String) (noSpace : Bool) : Option (CharArray (TB_PROVISIONING_MAX_STRING_LEN + 1)) := do
  let value ← stringItem root key
  if !printableValue value TB_PROVISIONING_MAX_STRING_LEN noSpace then none
  return .ofStr _ (cstr value)

/-- What `parse_config` makes of the parsed root. -/
def parseRoot (root : Json) : Option TbProvisioningConfig := do
  if !exactMembers root then none
  let version ← numberItem root "schema_version"
  if version.cmp TB_PROVISIONING_SCHEMA_VERSION.toNat ≠ .eq then none
  let deviceName ← valueItem root "device_name" false
  let provisionDeviceKey ← valueItem root "provision_device_key" true
  let provisionDeviceSecret ← valueItem root "provision_device_secret" true
  return { deviceName, provisionDeviceKey, provisionDeviceSecret }

/-- `parse_config` of the text in the buffer: the parse stops at the first NUL byte, and
wherever the first item ends. -/
def parseConfig (cJsonParseWithLengthOpts : List UInt8 → Option Json) (json : List UInt8) : Option TbProvisioningConfig :=
  match cJsonParseWithLengthOpts (cstr json) with
  | some (.object members) => parseRoot (.object members)
  | _ => none

/-! ## The schema -/

/-- A value: not empty, within its bound, printable, and without spaces where it may
have none. -/
structure Value (maxLen : Nat) (noSpace : Bool) (s : List UInt8) : Prop where
  pos : 1 ≤ s.length
  length : s.length ≤ maxLen
  chars : ∀ c ∈ s, 0x20 ≤ c ∧ c ≤ 0x7E ∧ (noSpace = true → c ≠ 0x20)

/-- The member of this name is such a value, and the field holds it. -/
def ValueMember (members : List (List UInt8 × Json)) (key : String) (noSpace : Bool)
    (field : CharArray (TB_PROVISIONING_MAX_STRING_LEN + 1)) : Prop :=
  ∃ s, (ascii key, .string s) ∈ members ∧ Value TB_PROVISIONING_MAX_STRING_LEN noSpace s ∧ field.Holds s

/-- The members are the four of the schema, each once, and the configuration holds
their strings. -/
structure ConfigMembers (members : List (List UInt8 × Json)) (config : TbProvisioningConfig) : Prop where
  names : (members.map (·.1)).Perm allowed
  version : ∃ n, (ascii "schema_version", .number n) ∈ members ∧ n.cmp TB_PROVISIONING_SCHEMA_VERSION.toNat = .eq
  deviceName : ValueMember members "device_name" false config.deviceName
  provisionDeviceKey : ValueMember members "provision_device_key" true config.provisionDeviceKey
  provisionDeviceSecret : ValueMember members "provision_device_secret" true config.provisionDeviceSecret

theorem Value.plain {maxLen : Nat} {noSpace : Bool} {s : List UInt8} (h : Value maxLen noSpace s) : (0 : UInt8) ∉ s := fun h0 =>
  absurd (h.chars 0 h0).1 (by decide)

/-- Nothing in a configuration's members has a NUL byte. -/
theorem ConfigMembers.plain {members : List (List UInt8 × Json)} {config : TbProvisioningConfig}
    (h : ConfigMembers members config) : Json.membersHoldNul members = false := by
  have hd : (members.map (·.1)).Nodup := h.names.nodup_iff.2 (by decide)
  have only : ∀ {key v v'}, (key, v) ∈ members → (key, v') ∈ members → v = v' := fun hm hm' =>
    congrArg Prod.snd (List.inj_on_of_nodup_map hd hm hm' rfl)
  have string : ∀ {key : String} {noSpace field v}, ValueMember members key noSpace field → (ascii key, v) ∈ members →
      v.holdsNul = false := by
    rintro key noSpace field v ⟨s, hm, hv, -⟩ hm'
    rw [only hm' hm, Json.holdsNul]
    simpa using hv.plain
  refine Json.membersHoldNul_iff.2 fun m hm => ?_
  obtain ⟨key, v⟩ := m
  have hkey : key ∈ allowed := h.names.subset (List.mem_map_of_mem hm)
  have hplain : ∀ key ∈ allowed, (0 : UInt8) ∉ key := by decide
  refine ⟨hplain key hkey, ?_⟩
  simp only [allowed, List.map_cons, List.map_nil, List.mem_cons, List.not_mem_nil, or_false] at hkey
  rcases hkey with rfl | rfl | rfl | rfl
  · obtain ⟨n, hn, -⟩ := h.version
    rw [only hm hn]
    rfl
  · exact string h.deviceName hm
  · exact string h.provisionDeviceKey hm
  · exact string h.provisionDeviceSecret hm

/-! ## What the checks accept -/

theorem printableValue_iff (s : List UInt8) (maxLen : Nat) (noSpace : Bool) :
    printableValue s maxLen noSpace = true ↔ Value maxLen noSpace (cstr s) := by
  have hlen : strnlen s (maxLen + 1) = min (cstr s).length (maxLen + 1) := CBuffer.strnlen_min _ _
  have htake := CBuffer.take_strnlen s (maxLen + 1)
  simp only [printableValue, List.isEmpty_iff]
  by_cases h0 : cstr s = []
  · rw [if_pos h0]
    exact iff_of_false (by simp) fun h => by simpa [h0] using h.pos
  have hpos : 1 ≤ (cstr s).length := List.length_pos_iff.2 h0
  rw [if_neg h0]
  by_cases hn : (cstr s).length ≤ maxLen
  · have hwhole : (cstr s).take (maxLen + 1) = cstr s := List.take_of_length_le (by omega)
    have hchar : ∀ c : UInt8, (!(c < 0x20 || c > 0x7E || (noSpace && c = 0x20))) = true ↔
        0x20 ≤ c ∧ c ≤ 0x7E ∧ (noSpace = true → c ≠ 0x20) := by
      intro c
      cases noSpace <;> simp [and_assoc]
    rw [if_neg (by omega), htake, hwhole, List.all_eq_true]
    simp only [hchar]
    exact ⟨fun h => ⟨hpos, hn, h⟩, fun h => h.chars⟩
  · rw [if_pos (by omega)]
    exact iff_of_false (by simp) fun h => hn h.length

/-! ## Names and strings cut at a NUL byte -/

/-- An item as C strings show it. -/
def clip : Json → Json
  | .string s => .string (cstr s)
  | v => v

/-- A member as C strings show it. -/
def clipMember (m : List UInt8 × Json) : List UInt8 × Json := (cstr m.1, clip m.2)

section Members

variable {members : List (List UInt8 × Json)} {key : String} {config : TbProvisioningConfig}

theorem clip_names : (members.map clipMember).map (·.1) = members.map fun m => cstr m.1 := by
  simp [clipMember]

/-- Members without NUL bytes are what C strings show of them. -/
theorem clip_plain (h : Json.membersHoldNul members = false) : members.map clipMember = members := by
  refine (List.map_congr_left ?_).trans (List.map_id _)
  rintro ⟨key, v⟩ hm
  obtain ⟨hk, hv⟩ := Json.membersHoldNul_mem h _ hm
  have hclip : clip v = v := by
    cases v with
    | string s => rw [clip, cstr_of_not_mem (by simpa [Json.holdsNul] using hv)]
    | _ => rfl
  rw [clipMember, cstr_of_not_mem hk, hclip, id]

theorem item_clip (key : List UInt8) :
    (Json.object (members.map clipMember)).item key = ((Json.object members).item key).map clip := by
  have hsame : ((fun m : List UInt8 × Json => decide (cstr m.1 = cstr key)) ∘ clipMember) =
      fun m => decide (cstr m.1 = cstr key) := by
    funext m
    simp [clipMember]
  simp only [Json.item, Json.members, List.find?_map, Option.map_map, hsame]
  rfl

/-- A number that is found is the member of that name. -/
theorem numberItem_iff (hk : 0 ∉ ascii key) (hn : ∀ m ∈ members.map clipMember, (0 : UInt8) ∉ m.1)
    (hd : ((members.map clipMember).map (·.1)).Nodup) {n : Number} :
    numberItem (.object members) key = some n ↔ (ascii key, .number n) ∈ members.map clipMember := by
  rw [← Json.item_iff hn hd hk, item_clip, numberItem]
  cases (Json.object members).item (ascii key) with
  | none => simp
  | some v => cases v <;> simp [clip]

/-- A string that is found is, up to its first NUL byte, the member of that name. -/
theorem stringItem_iff (hk : 0 ∉ ascii key) (hn : ∀ m ∈ members.map clipMember, (0 : UInt8) ∉ m.1)
    (hd : ((members.map clipMember).map (·.1)).Nodup) {s : List UInt8} :
    (∃ value, stringItem (.object members) key = some value ∧ cstr value = s) ↔
      (ascii key, .string s) ∈ members.map clipMember := by
  rw [← Json.item_iff hn hd hk, item_clip, stringItem]
  cases (Json.object members).item (ascii key) with
  | none => simp
  | some v => cases v <;> simp [clip]

theorem valueItem_iff (hk : 0 ∉ ascii key) (hn : ∀ m ∈ members.map clipMember, (0 : UInt8) ∉ m.1)
    (hd : ((members.map clipMember).map (·.1)).Nodup) {noSpace : Bool}
    {field : CharArray (TB_PROVISIONING_MAX_STRING_LEN + 1)} :
    valueItem (.object members) key noSpace = some field ↔ ValueMember (members.map clipMember) key noSpace field := by
  have hread : valueItem (.object members) key noSpace = some field ↔ ∃ value, stringItem (.object members) key = some value ∧
      Value TB_PROVISIONING_MAX_STRING_LEN noSpace (cstr value) ∧ field = .ofStr _ (cstr value) := by
    simp only [valueItem, Option.bind_eq_bind, Option.bind_eq_some_iff, ← printableValue_iff]
    refine exists_congr fun value => and_congr_right fun _ => ?_
    cases printableValue value TB_PROVISIONING_MAX_STRING_LEN noSpace <;> simp [eq_comm]
  have holds : ∀ {s}, Value TB_PROVISIONING_MAX_STRING_LEN noSpace s → (field.Holds s ↔ field = .ofStr _ s) := fun hs => by
    rw [CharArray.holds_iff, and_iff_right (Nat.lt_succ_of_le hs.length)]
  rw [hread]
  constructor
  · rintro ⟨value, hs, hv, hf⟩
    exact ⟨cstr value, (stringItem_iff hk hn hd).1 ⟨value, hs, rfl⟩, hv, (holds hv).2 hf⟩
  · rintro ⟨s, hm, hv, hf⟩
    obtain ⟨value, hs, rfl⟩ := (stringItem_iff hk hn hd).2 hm
    exact ⟨value, hs, hv, (holds hv).1 hf⟩

theorem knownMembers_iff : knownMembers members = true ↔
    (∀ m ∈ members, cstr m.1 ∈ allowed) ∧ (members.map fun m => cstr m.1).Nodup := by
  induction members with
  | nil => simp [knownMembers]
  | cons m members ih =>
    obtain ⟨key, v⟩ := m
    simp only [knownMembers, Bool.and_eq_true, ih, List.contains_iff_mem, List.mem_cons, forall_eq_or_imp, List.map_cons,
      List.nodup_cons, List.mem_map, not_exists, not_and, Bool.not_eq_true', List.any_eq_false, decide_eq_true_eq]
    tauto

theorem exactMembers_iff : exactMembers (.object members) = true ↔ ((members.map clipMember).map (·.1)).Perm allowed := by
  rw [exactMembers, Bool.and_eq_true, decide_eq_true_eq, clip_names]
  simp only [Json.members]
  rw [knownMembers_iff]
  constructor
  · rintro ⟨⟨hk, hd⟩, hlen⟩
    have hsub : (members.map fun m => cstr m.1) ⊆ allowed := by
      intro key h
      obtain ⟨m, hm, rfl⟩ := List.mem_map.1 h
      exact hk m hm
    exact (hd.subperm hsub).perm_of_length_le (by simp [hlen])
  · intro h
    refine ⟨⟨fun m hm => h.subset (List.mem_map_of_mem hm), h.nodup_iff.2 (by decide)⟩, by simpa using h.length_eq⟩

theorem bind_some_iff {α β : Type} {x : Option α} {f : α → Option β} {b : β} :
    x >>= f = some b ↔ ∃ a, x = some a ∧ f a = some b := Option.bind_eq_some_iff

theorem check_some_iff {α : Type} {c : Prop} [Decidable c] {x : Option α} {a : α} :
    (do if c then none
        x : Option α) = some a ↔ ¬ c ∧ x = some a := by
  by_cases h : c <;> simp [h]

/-- The parse of a root goes by the schema, on what C strings show of its members. -/
theorem parseRoot_iff : parseRoot (.object members) = some config ↔ ConfigMembers (members.map clipMember) config := by
  have names_plain : ((members.map clipMember).map (·.1)).Perm allowed →
      (∀ m ∈ members.map clipMember, (0 : UInt8) ∉ m.1) ∧ ((members.map clipMember).map (·.1)).Nodup := by
    intro h
    refine ⟨fun m hm h0 => ?_, h.nodup_iff.2 (by decide)⟩
    obtain ⟨m', -, rfl⟩ := List.mem_map.1 hm
    exact zero_not_mem_cstr _ h0
  by_cases hnames : ((members.map clipMember).map (·.1)).Perm allowed
  swap
  · rw [parseRoot, Bool.eq_false_iff.2 (mt exactMembers_iff.1 hnames)]
    exact iff_of_false (by simp) fun h => hnames h.names
  obtain ⟨hn, hd⟩ := names_plain hnames
  have value : ∀ {key : String} {noSpace : Bool} {field : CharArray (TB_PROVISIONING_MAX_STRING_LEN + 1)}, 0 ∉ ascii key →
      (valueItem (.object members) key noSpace = some field ↔ ValueMember (members.map clipMember) key noSpace field) :=
    fun hk => valueItem_iff hk hn hd
  have hversion : ∀ {n}, numberItem (.object members) "schema_version" = some n ↔
      (ascii "schema_version", .number n) ∈ members.map clipMember := numberItem_iff (by decide) hn hd
  simp only [parseRoot, check_some_iff, exactMembers_iff.2 hnames, Bool.not_true, Bool.false_eq_true, not_false_eq_true,
    true_and, bind_some_iff, ne_eq, not_not, hversion]
  constructor
  · rintro ⟨n, hm, hv, name, hname, key, hkey, secret, hsecret, h⟩
    obtain rfl := Option.some.inj h
    exact ⟨hnames, ⟨n, hm, hv⟩, (value (by decide)).1 hname, (value (by decide)).1 hkey, (value (by decide)).1 hsecret⟩
  · intro h
    obtain ⟨n, hm, hv⟩ := h.version
    exact ⟨n, hm, hv, _, (value (by decide)).2 h.deviceName, _, (value (by decide)).2 h.provisionDeviceKey, _,
      (value (by decide)).2 h.provisionDeviceSecret, rfl⟩

end Members

end LedLamp.TbProvisioning
