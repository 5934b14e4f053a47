import LedLamp.JsonText
/-!
# The product documents (`app_config.c`: schemas, typed checks, serialization)

The pure part of the module: the two documents, the strict validators of their
JSON texts, the bounded check of a typed document and its serializer. cJSON's
whole-text parse and its compact printer are the parameters
`cJsonParseWithLengthOpts` (which gets the text with its terminator) and
`cJsonPrintBuffered`. Allocation failures are left out.
-/

namespace LedLamp.AppConfig

open JsonText (Member Scalar)

def APP_CONFIG_SCHEMA_VERSION : UInt32 := 1
def APP_CONFIG_MAX_FILE_BYTES : Nat := 2048
def APP_CONFIG_WORK_BUF_BYTES : Nat := APP_CONFIG_MAX_FILE_BYTES + 1
def APP_CONFIG_PRODUCT_MAX_LEN : Nat := 32
def APP_CONFIG_HARDWARE_REVISION_MAX_LEN : Nat := 16
def APP_CONFIG_SERIAL_MAX_LEN : Nat := 32
def APP_CONFIG_THINGSBOARD_NAME_MAX_LEN : Nat := 64
def APP_CONFIG_DEVICE_PATH : List UInt8 := ascii "/config/device.json"
def APP_CONFIG_MANUFACTURING_PATH : List UInt8 := ascii "/config/manufacturing.json"

/-- The error codes of `app_config_status_t`. -/
inductive AppConfigError
  | errInvalidArgument
  | errIo
  | errNotFound
  | errMalformed
  | errBounds
  | errUnknownSchema
  | errMigration
  | errUnsupported
  deriving DecidableEq, Repr

/-- `app_config_status_t`: its two success codes, or an error. -/
inductive AppConfigStatus
  | ok
  | okRecovered
  | error (e : AppConfigError)
  deriving DecidableEq, Repr

/-- `app_config_doc_kind_t`; a C enum can also hold a value outside its range. -/
inductive AppConfigDocKind
  | device
  | manufacturing
  | other (value : Int)
  deriving DecidableEq, Repr

def appConfigDocPath : AppConfigDocKind → Option (List UInt8)
  | .device => some APP_CONFIG_DEVICE_PATH
  | .manufacturing => some APP_CONFIG_MANUFACTURING_PATH
  | .other _ => none

/-- `app_config_mfg_state_t`, as the `int` it is. -/
abbrev AppConfigMfgState := Int32

def APP_CONFIG_MFG_STATE_UNPROVISIONED : AppConfigMfgState := 0
def APP_CONFIG_MFG_STATE_PROVISIONED : AppConfigMfgState := 1
def APP_CONFIG_MFG_STATE_QUARANTINED : AppConfigMfgState := 2

/-- `app_config_credential_mode_t`, as the `int` it is. -/
abbrev AppConfigCredentialMode := Int32

def APP_CONFIG_CRED_MODE_NONE : AppConfigCredentialMode := 0
def APP_CONFIG_CRED_MODE_PSK : AppConfigCredentialMode := 1
def APP_CONFIG_CRED_MODE_MTLS : AppConfigCredentialMode := 2

/-- `app_config_device_doc_t`. -/
structure AppConfigDeviceDoc where
  schemaVersion : UInt32
  product : CharArray (APP_CONFIG_PRODUCT_MAX_LEN + 1)
  hardwareRevision : CharArray (APP_CONFIG_HARDWARE_REVISION_MAX_LEN + 1)
  serial : CharArray (APP_CONFIG_SERIAL_MAX_LEN + 1)
  thingsboardName : CharArray (APP_CONFIG_THINGSBOARD_NAME_MAX_LEN + 1)
  deriving DecidableEq

/-- `app_config_manufacturing_doc_t`. -/
structure AppConfigManufacturingDoc where
  schemaVersion : UInt32
  manufacturingState : AppConfigMfgState
  credentialMode : AppConfigCredentialMode
  deriving DecidableEq

/-! ## JSON field helpers -/

/-- The loop of `raw_json_has_nul_escape`, inside or outside a string literal;
`skip` is how many characters of an escape it still steps over. -/
def nulEscapeScan (inString : Bool) (skip : Nat) : List UInt8 → Bool
  | [] => false
  | c :: rest =>
    if 0 < skip then nulEscapeScan inString (skip - 1) rest
    else if !inString then nulEscapeScan (c = 0x22) 0 rest
    else if c = 0x22 then nulEscapeScan false 0 rest
    else if c ≠ 0x5C then nulEscapeScan true 0 rest
    else if rest.head? ≠ some 0x75 then nulEscapeScan true 1 rest
    else if rest.length < 5 then false
    else if (rest.drop 1).take 4 = [0x30, 0x30, 0x30, 0x30] then true
    else nulEscapeScan true 5 rest

def rawJsonHasNulEscape (json : List UInt8) : Bool := nulEscapeScan false 0 (cstr json)

def isPrintableAscii (ch : UInt8) : Bool := 0x20 ≤ ch && ch ≤ 0x7E

def isSerialChar (ch : UInt8) : Bool :=
  (0x41 ≤ ch && ch ≤ 0x5A) || (0x61 ≤ ch && ch ≤ 0x7A) || (0x30 ≤ ch && ch ≤ 0x39) || ch = 0x2D

def stringIsPrintableAscii (s : List UInt8) : Bool := (cstr s).all isPrintableAscii

def stringIsSerialCharset (s : List UInt8) : Bool := (cstr s).all isSerialChar

/-- `get_bounded_string`, into a zeroed array of size `cap`. -/
def getBoundedString (object : Json) (key : String) (cap : Nat) (serial : Bool) :
    Except AppConfigError (CharArray cap) :=
  match object.item (ascii key) with
  | some (.string valuestring) =>
    let len := strlen valuestring
    if len = 0 ∨ len ≥ cap then .error .errBounds
    else if !stringIsPrintableAscii valuestring then .error .errMalformed
    else if serial && !stringIsSerialCharset valuestring then .error .errMalformed
    else .ok (.ofStr cap (cstr valuestring))
  | _ => .error .errMalformed

def getBoundedNumber (object : Json) (key : String) (limit : UInt32) : Except AppConfigError UInt32 :=
  match object.item (ascii key) with
  | some (.number v) =>
    if v.cmp 0 = .lt ∨ v = .infinite false then .error .errMalformed
    else if v.cmp limit.toNat = .gt ∨ v.cmp v.truncate ≠ .eq then .error .errBounds
    else .ok (.ofNat v.truncate.toNat)
  | _ => .error .errMalformed

def getSchemaVersion (object : Json) : Except AppConfigError UInt32 :=
  match object.item (ascii "schema_version") with
  | some (.number v) =>
    if v.cmp 0 = .lt ∨ v = .infinite false then .error .errMalformed
    else if v.cmp 9223372036854775808 ≠ .lt then .error .errUnknownSchema
    else if v.cmp v.truncate ≠ .eq then .error .errMalformed
    else if v.cmp 4294967295 = .gt then .error .errUnknownSchema
    else
      let version := UInt32.ofNat v.truncate.toNat
      if version > APP_CONFIG_SCHEMA_VERSION then .error .errUnknownSchema else .ok version
  | _ => .error .errMalformed

def checkMemberKeys (object : Json) (allowed : List (List UInt8)) : Except AppConfigError Unit :=
  if !object.members.all fun m => !(cstr m.1).isEmpty && allowed.contains (cstr m.1) then .error .errMalformed
  else if object.members.length > allowed.length then .error .errMalformed
  else .ok ()

/-! ## Validators -/

section Validators

variable (cJsonParseWithLengthOpts : List UInt8 → Option Json)

/-- The body of both validators: the bound, the strict parse, the NUL escapes,
the version envelope and the member names, then the kind's own fields. -/
def validateJson {Doc : Type} (keys : List String) (fields : UInt32 → Json → Except AppConfigError Doc)
    (json : Option (List UInt8)) : Except AppConfigError Doc :=
  match json with
  | none => .error .errInvalidArgument
  | some json =>
    if strlen json > APP_CONFIG_MAX_FILE_BYTES then .error .errBounds
    else match cJsonParseWithLengthOpts (cstr json ++ [0]) with
      | some (.object members) => do
        if rawJsonHasNulEscape json then .error .errMalformed
        let version ← getSchemaVersion (.object members)
        if version < APP_CONFIG_SCHEMA_VERSION then .error .errMigration
        checkMemberKeys (.object members) (keys.map ascii)
        fields version (.object members)
      | _ => .error .errMalformed

def DEVICE_KEYS : List String :=
  ["schema_version", "product", "hardware_revision", "serial", "thingsboard_name"]

def MANUFACTURING_KEYS : List String := ["schema_version", "manufacturing_state", "credential_mode"]

def deviceFields (version : UInt32) (root : Json) : Except AppConfigError AppConfigDeviceDoc := do
  let product ← getBoundedString root "product" _ false
  let hardwareRevision ← getBoundedString root "hardware_revision" _ false
  let serial ← getBoundedString root "serial" _ true
  let thingsboardName ← getBoundedString root "thingsboard_name" _ false
  return { schemaVersion := version, product, hardwareRevision, serial, thingsboardName }

def manufacturingFields (version : UInt32) (root : Json) : Except AppConfigError AppConfigManufacturingDoc := do
  let state ← getBoundedNumber root "manufacturing_state" APP_CONFIG_MFG_STATE_QUARANTINED.toUInt32
  let mode ← getBoundedNumber root "credential_mode" APP_CONFIG_CRED_MODE_MTLS.toUInt32
  return { schemaVersion := version, manufacturingState := state.toInt32, credentialMode := mode.toInt32 }

/-- The result is what the function writes to `*doc`, when `doc` is not NULL. -/
def appConfigValidateDeviceJson : Option (List UInt8) → Except AppConfigError AppConfigDeviceDoc :=
  validateJson cJsonParseWithLengthOpts DEVICE_KEYS deviceFields

def appConfigValidateManufacturingJson : Option (List UInt8) → Except AppConfigError AppConfigManufacturingDoc :=
  validateJson cJsonParseWithLengthOpts MANUFACTURING_KEYS manufacturingFields

end Validators

/-! ## Typed checks and serialization -/

/-- `typed_string_check` of a whole array; the result is `*out_len`. -/
def typedStringCheck {cap : Nat} (s : CharArray cap) (maxLen : Nat) (serial : Bool) : Except AppConfigError Nat :=
  if cap = 0 then .error .errBounds
  else if !s.chars.contains 0 then .error .errBounds
  else
    let len := strlen s.chars
    if len = 0 ∨ len > maxLen then .error .errBounds
    else if !s.str.all (if serial then isSerialChar else isPrintableAscii) then .error .errMalformed
    else .ok len

def deviceDocStringsValid (doc : AppConfigDeviceDoc) : Except AppConfigError Unit := do
  let _ ← typedStringCheck doc.product APP_CONFIG_PRODUCT_MAX_LEN false
  let _ ← typedStringCheck doc.hardwareRevision APP_CONFIG_HARDWARE_REVISION_MAX_LEN false
  let _ ← typedStringCheck doc.serial APP_CONFIG_SERIAL_MAX_LEN true
  let _ ← typedStringCheck doc.thingsboardName APP_CONFIG_THINGSBOARD_NAME_MAX_LEN false

/-- The members the serializer adds, in its order. -/
def deviceMembers (doc : AppConfigDeviceDoc) : List Member :=
  [(ascii "schema_version", .int APP_CONFIG_SCHEMA_VERSION.toInt32),
   (ascii "product", .string doc.product.str),
   (ascii "hardware_revision", .string doc.hardwareRevision.str),
   (ascii "serial", .string doc.serial.str),
   (ascii "thingsboard_name", .string doc.thingsboardName.str)]

def manufacturingMembers (doc : AppConfigManufacturingDoc) : List Member :=
  [(ascii "schema_version", .int APP_CONFIG_SCHEMA_VERSION.toInt32),
   (ascii "manufacturing_state", .int doc.manufacturingState),
   (ascii "credential_mode", .int doc.credentialMode)]

section Serializers

variable (cJsonPrintBuffered : Json → Option (List UInt8))

/-- The printed text, when it fits into `out`. -/
def printInto (root : Json) (cap : Nat) : Option (List UInt8) :=
  match cJsonPrintBuffered root with
  | none => none
  | some printed =>
    if strlen printed < cap ∧ strlen printed ≤ APP_CONFIG_MAX_FILE_BYTES then some (cstr printed) else none

/-- The text written to `out`; `none` is the result `false`. -/
def serializeDevice (doc : AppConfigDeviceDoc) (cap : Nat) : Option (List UInt8) :=
  match deviceDocStringsValid doc with
  | .error _ => none
  | .ok () => printInto cJsonPrintBuffered (JsonText.object (deviceMembers doc)) cap

def serializeManufacturing (doc : AppConfigManufacturingDoc) (cap : Nat) : Option (List UInt8) :=
  printInto cJsonPrintBuffered (JsonText.object (manufacturingMembers doc)) cap

end Serializers

end LedLamp.AppConfig
