import LedLamp.Json
/-!
# The broker configuration (`mqtt_cfg.c`: field checks, parsing, validation)

The pure part of the module: `mqtt_cfg_t`, the checks of its fields, the strict
schema of `/config/mqtt.json` and the policy a configuration must meet. The
functions compute what the code computes, in its order, so the first error a
document has is the one reported.
-/

namespace LedLamp.Mqtt

def MQTT_CFG_SCHEMA_VERSION : UInt32 := 1
def MQTT_CFG_MAX_FILE_BYTES : Nat := 2048
def MQTT_CFG_HOSTNAME_MAX_LEN : Nat := 128
def MQTT_CFG_CLIENT_ID_MAX_LEN : Nat := 64
def MQTT_CFG_PATH_MAX_LEN : Nat := 128
def MQTT_CFG_PORT_MIN : UInt16 := 1
def MQTT_CFG_PORT_MAX : UInt16 := 65535
def MQTT_CFG_FILE_PATH : List UInt8 := ascii "/config/mqtt.json"
def MQTT_CFG_CERT_DIR : List UInt8 := ascii "/cert"

/-- `mqtt_cfg_status_t`. -/
inductive MqttCfgStatus
  | ok
  | errInvalidArgument
  | errIo
  | errNotFound
  | errMalformed
  | errBounds
  | errUnknownSchema
  | errPlaintext
  | errSkipVerify
  | errCaPath
  | errCertPath
  | errHostname
  | errApply
  | errConnect
  | errNotApplied
  | errAuthRejected
  deriving DecidableEq, Repr

/-- `mqtt_cfg_tls_mode_t`; a hand-built struct can hold any value. -/
inductive MqttCfgTlsMode
  | mqtts
  | other (value : Int)
  deriving DecidableEq, Repr

/-- `mqtt_cfg_auth_mode_t`; a hand-built struct can hold any value. -/
inductive MqttCfgAuthMode
  | none
  | accessToken
  | mtls
  | runtime
  | other (value : Int)
  deriving DecidableEq, Repr

/-- `mqtt_cfg_t`. -/
structure MqttCfg where
  schemaVersion : UInt32
  hostname : CharArray (MQTT_CFG_HOSTNAME_MAX_LEN + 1)
  port : UInt16
  clientId : CharArray (MQTT_CFG_CLIENT_ID_MAX_LEN + 1)
  tlsMode : MqttCfgTlsMode
  authMode : MqttCfgAuthMode
  caPath : CharArray (MQTT_CFG_PATH_MAX_LEN + 1)
  clientCertPath : CharArray (MQTT_CFG_PATH_MAX_LEN + 1)
  clientKeyPath : CharArray (MQTT_CFG_PATH_MAX_LEN + 1)
  deriving DecidableEq

/-! ## Field checks -/

def mqttCfgIsPrintable (str : List UInt8) (maxLen : Nat) : Bool :=
  let len := strnlen str (maxLen + 1)
  if (cstr str).isEmpty then false
  else if len > maxLen then false
  else (str.take len).all fun ch => 0x20 ≤ ch && ch ≤ 0x7E

def mqttCfgPathUnderCert (path : List UInt8) : Bool :=
  let certDir := MQTT_CFG_CERT_DIR ++ ascii "/"
  if (cstr path).isEmpty then false
  else if strnlen path (MQTT_CFG_PATH_MAX_LEN + 1) > MQTT_CFG_PATH_MAX_LEN then false
  else if !certDir.isPrefixOf (cstr path) then false
  else if (cstr path).length = certDir.length then false
  else if strstr (ascii "..") (cstr path) then false
  else true

def mqttCfgIsDigit (ch : UInt8) : Bool := 0x30 ≤ ch && ch ≤ 0x39

def mqttCfgIsAlnum (ch : UInt8) : Bool :=
  (0x61 ≤ ch && ch ≤ 0x7A) || (0x41 ≤ ch && ch ≤ 0x5A) || mqttCfgIsDigit ch

/-- The locals of the loop of `mqtt_cfg_hostname_valid`. -/
structure HostnameScan where
  lastWasDot : Bool
  labelStart : Bool
  labelHasAlnum : Bool
  ipv4Literal : Bool
  prev : UInt8
  deriving DecidableEq, Repr

/-- One character of the loop; `none` is its `return false`. -/
def hostnameChar (s : HostnameScan) (ch : UInt8) : Option HostnameScan :=
  let alnum := mqttCfgIsAlnum ch
  if ch = 0x2E then
    if s.lastWasDot || !s.labelHasAlnum || !mqttCfgIsAlnum s.prev then none
    else some { s with lastWasDot := true, labelStart := true, labelHasAlnum := false, prev := ch }
  else if !(alnum || ch = 0x2D || ch = 0x5F) then none
  else
    let ipv4Literal := if !mqttCfgIsDigit ch then false else s.ipv4Literal
    if s.labelStart && !alnum then none
    else some { lastWasDot := false, labelStart := false, labelHasAlnum := true, ipv4Literal, prev := ch }

def mqttCfgHostnameValid (hostname : List UInt8) : Bool :=
  if !mqttCfgIsPrintable hostname MQTT_CFG_HOSTNAME_MAX_LEN then false
  else
    let name := cstr hostname
    if name = [] ∨ name.head? = some 0x2E ∨ name.getLast? = some 0x2E then false
    else if name.contains 0x3A then false
    else match name.foldlM hostnameChar ⟨false, true, false, true, 0⟩ with
      | none => false
      | some s =>
        if s.lastWasDot || !s.labelHasAlnum || !mqttCfgIsAlnum s.prev then false
        else if s.ipv4Literal then false
        else true

/-! ## The strict v1 schema -/

/-- `MQTT_CFG_KEYS`. -/
def MQTT_CFG_KEYS : List (List UInt8) :=
  ["schema_version", "hostname", "port", "tls_mode", "ca_path", "client_cert_path", "client_key_path", "client_id",
    "auth_mode", "skip_verify"].map ascii

/-- The loop of `mqtt_cfg_check_member_keys`: every member is named, known and
not named again later. -/
def memberKeysOk (allowed : List (List UInt8)) : List (List UInt8 × Json) → Bool
  | [] => true
  | (key, _) :: rest =>
    !(cstr key).isEmpty && allowed.contains (cstr key) && !rest.any (fun m => cstr m.1 = cstr key) &&
      memberKeysOk allowed rest

def mqttCfgCheckMemberKeys (object : Json) (allowed : List (List UInt8)) : Bool :=
  memberKeysOk allowed object.members && object.members.length ≤ allowed.length

/-- The scan of `mqtt_cfg_raw_json_has_nul_escape`, over the text after `escaped`. -/
def nulEscapeFrom (escaped : Bool) : List UInt8 → Bool
  | [] => false
  | c :: rest =>
    if escaped then
      if c = 0x75 ∧ [0x30, 0x30, 0x30, 0x30].isPrefixOf rest then true else nulEscapeFrom false rest
    else nulEscapeFrom (c = 0x5C) rest

def mqttCfgRawJsonHasNulEscape (json : List UInt8) : Bool := nulEscapeFrom false (cstr json)

/-- `mqtt_cfg_get_string_member`, into an array of size `cap`. -/
def mqttCfgGetStringMember (root : Json) (key : String) (cap : Nat) : Except MqttCfgStatus (CharArray cap) :=
  match root.item (ascii key) with
  | none => .ok (.ofStr cap [])
  | some (.string valuestring) =>
    if strlen valuestring ≥ cap then .error .errBounds else .ok (.ofStr cap (cstr valuestring))
  | some _ => .error .errMalformed

def parseSchemaVersion (root : Json) : Except MqttCfgStatus UInt32 :=
  match root.item (ascii "schema_version") with
  | some (.number n) =>
    match n.cmp MQTT_CFG_SCHEMA_VERSION.toNat with
    | .eq => .ok MQTT_CFG_SCHEMA_VERSION
    | .gt => .error .errUnknownSchema
    | .lt => .error .errMalformed
  | _ => .error .errMalformed

def parsePort (root : Json) : Except MqttCfgStatus UInt16 :=
  match root.item (ascii "port") with
  | some (.number n) =>
    if n.cmp MQTT_CFG_PORT_MIN.toNat = .lt ∨ n.cmp MQTT_CFG_PORT_MAX.toNat = .gt ∨ n.cmp n.truncate ≠ .eq then
      .error .errBounds
    else .ok (.ofNat n.truncate.toNat)
  | _ => .error .errMalformed

def parseTlsMode (root : Json) : Except MqttCfgStatus MqttCfgTlsMode :=
  match root.item (ascii "tls_mode") with
  | some (.string s) => if cstr s ≠ ascii "mqtts" then .error .errPlaintext else .ok .mqtts
  | _ => .error .errMalformed

/-- `skip_verify`: absent or false only. -/
def parseSkipVerify (root : Json) : Except MqttCfgStatus Unit :=
  match root.item (ascii "skip_verify") with
  | none => .ok ()
  | some (.bool b) => if b then .error .errSkipVerify else .ok ()
  | some _ => .error .errMalformed

def parseAuthMode (root : Json) : Except MqttCfgStatus MqttCfgAuthMode :=
  match root.item (ascii "auth_mode") with
  | some (.string s) =>
    if cstr s = ascii "none" then .ok .none
    else if cstr s = ascii "access_token" then .ok .accessToken
    else if cstr s = ascii "runtime" then .ok .runtime
    else if cstr s = ascii "mtls" then .ok .mtls
    else .error .errMalformed
  | _ => .error .errMalformed

def mqttCfgParseRoot (root : Json) : Except MqttCfgStatus MqttCfg := do
  if !mqttCfgCheckMemberKeys root MQTT_CFG_KEYS then .error .errMalformed
  let schemaVersion ← parseSchemaVersion root
  let hostname ← mqttCfgGetStringMember root "hostname" _
  if !mqttCfgHostnameValid hostname.chars then .error .errHostname
  let port ← parsePort root
  let clientId ← mqttCfgGetStringMember root "client_id" _
  if !mqttCfgIsPrintable clientId.chars MQTT_CFG_CLIENT_ID_MAX_LEN then .error .errBounds
  let tlsMode ← parseTlsMode root
  parseSkipVerify root
  let caPath ← mqttCfgGetStringMember root "ca_path" _
  if !mqttCfgPathUnderCert caPath.chars then .error .errCaPath
  let clientCertPath ← mqttCfgGetStringMember root "client_cert_path" _
  let clientKeyPath ← mqttCfgGetStringMember root "client_key_path" _
  let authMode ← parseAuthMode root
  return { schemaVersion, hostname, port, clientId, tlsMode, authMode, caPath, clientCertPath, clientKeyPath }

/-! ## Validation -/

def mqttCfgValidateFields (cfg : Option MqttCfg) : MqttCfgStatus :=
  match cfg with
  | none => .errInvalidArgument
  | some cfg =>
    if cfg.schemaVersion ≠ MQTT_CFG_SCHEMA_VERSION then .errUnknownSchema
    else if !mqttCfgHostnameValid cfg.hostname.chars then .errHostname
    else if cfg.port < MQTT_CFG_PORT_MIN then .errBounds
    else if cfg.tlsMode ≠ .mqtts then .errPlaintext
    else if !mqttCfgIsPrintable cfg.clientId.chars MQTT_CFG_CLIENT_ID_MAX_LEN then .errBounds
    else if cfg.authMode ≠ .none ∧ cfg.authMode ≠ .accessToken ∧ cfg.authMode ≠ .mtls ∧ cfg.authMode ≠ .runtime then
      .errMalformed
    else if !mqttCfgPathUnderCert cfg.caPath.chars then .errCaPath
    else
      let certPathPresent := !cfg.clientCertPath.str.isEmpty
      let keyPathPresent := !cfg.clientKeyPath.str.isEmpty
      if cfg.authMode = .mtls ∧ (!certPathPresent ∨ !keyPathPresent) then .errCertPath
      else if certPathPresent && !mqttCfgPathUnderCert cfg.clientCertPath.chars then .errCertPath
      else if keyPathPresent && !mqttCfgPathUnderCert cfg.clientKeyPath.chars then .errCertPath
      else .ok

end LedLamp.Mqtt
