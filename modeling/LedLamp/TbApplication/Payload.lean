import LedLamp.Json
import LedLamp.Lamp.Control
/-!
# The payloads of `tb_application.c`

What the module reads out of a parsed payload: a complete desired state of an
attribute response or update, the params of each RPC method, and the OTA keys of a
shared update. cJSON's parse is the parameter `cJsonParse`.
-/

namespace LedLamp.TbApplication

open Lamp

/-- The build's configuration: `CONFIG_KLC_LAMP_TYPE_RGB`,
`CONFIG_KLC_DEFAULT_BRIGHTNESS_PERCENT` and `CONFIG_KLC_OTA_BLINK_BRIGHTNESS_PERCENT`. -/
structure Build where
  lampTypeRgb : Bool
  defaultBrightnessPercent : UInt8
  otaBlinkBrightnessPercent : UInt8
  default_range : defaultBrightnessPercent ≤ 100
  blink_range : 1 ≤ otaBlinkBrightnessPercent ∧ otaBlinkBrightnessPercent ≤ 100

def TB_APPLICATION_MAX_PAYLOAD_BYTES : Nat := 512

/-! ## Fields -/

/-- An integer JSON number in `0..max`, as every brightness and colour has to be. -/
def integerItem (root : Json) (key : List UInt8) (max : UInt8) : Option UInt8 :=
  match root.item key with
  | some (.number n) =>
    if n.valueInt < 0 ∨ n.valueInt > max.toNat then none
    else if !n.integral then none
    else some (UInt8.ofNat n.valueInt.toNat)
  | _ => none

def boolItem (root : Json) (key : List UInt8) : Option Bool :=
  match root.item key with
  | some (.bool b) => some b
  | _ => none

def tbAppParseRgbChannel (attrs : Json) (key : List UInt8) : Option UInt8 := integerItem attrs key 255

/-! ## Desired states -/

/-- The colours of a complete state: white if none is given, else all three. -/
def tbAppParseStateRgb (attrs : Json) : Option (UInt8 × UInt8 × UInt8) :=
  let hasRed := (attrs.item (ascii "red")).isSome
  let hasGreen := (attrs.item (ascii "green")).isSome
  let hasBlue := (attrs.item (ascii "blue")).isSome
  if !hasRed && !hasGreen && !hasBlue then some (255, 255, 255)
  else if !hasRed || !hasGreen || !hasBlue then none
  else do
    let red ← tbAppParseRgbChannel attrs (ascii "red")
    let green ← tbAppParseRgbChannel attrs (ascii "green")
    let blue ← tbAppParseRgbChannel attrs (ascii "blue")
    return (red, green, blue)

/-- `tb_app_parse_state_scope` from the selected object on. -/
def tbAppParseStateAttrs (build : Build) (attrs : Json) : Option LampState := do
  let power ← boolItem attrs (ascii "power")
  let brightnessPercent ← integerItem attrs (ascii "brightness") LAMP_BRIGHTNESS_MAX
  let (red, green, blue) ← if build.lampTypeRgb then tbAppParseStateRgb attrs else some (255, 255, 255)
  return ⟨power, brightnessPercent, red, green, blue⟩

/-- The object under `"shared"`, or the root itself. -/
def sharedOrRoot (root : Json) : Json :=
  match root.item (ascii "shared") with
  | some (.object members) => .object members
  | _ => root

variable (cJsonParse : List UInt8 → Option Json)

def tbAppParseStateScope (build : Build) (json scope : Option (List UInt8)) : Option LampState :=
  match json with
  | none => none
  | some json =>
    if strlen json > TB_APPLICATION_MAX_PAYLOAD_BYTES then none
    else match cJsonParse json with
      | some (.object members) =>
        match scope with
        | some scope =>
          match (Json.object members).item scope with
          | some (.object attrs) => tbAppParseStateAttrs build (.object attrs)
          | _ => none
        | none => tbAppParseStateAttrs build (sharedOrRoot (.object members))
      | _ => none

def tbAppParseState (build : Build) (json : Option (List UInt8)) : Option LampState :=
  tbAppParseStateScope cJsonParse build json none

/-- An item that is absent, or an object without members. -/
def absentOrEmpty : Option Json → Bool
  | none => true
  | some (.object members) => members.isEmpty
  | _ => false

def tbAppParseInitialState (build : Build) (json : Option (List UInt8)) : Option LampState :=
  match json with
  | none => none
  | some json =>
    match cJsonParse json with
    | some (.object members) =>
      let root : Json := .object members
      let shared := root.item (ascii "shared")
      let client := root.item (ascii "client")
      let isInitial :=
        if shared.isSome || client.isSome then absentOrEmpty shared && absentOrEmpty client
        else members.isEmpty
      if isInitial then some ⟨false, build.defaultBrightnessPercent, 255, 255, 255⟩ else none
    | _ => none

def tbAppStatesEqual (left right : LampState) : Bool := left = right

/-! ## OTA keys -/

def isFirmwareKey (key : List UInt8) : Bool := (ascii "fw_").isPrefixOf (cstr key)

def tbAppIsOtaKey (key : List UInt8) : Bool := isFirmwareKey key || (ascii "sw_").isPrefixOf (cstr key)

/-- The keys a member stands for: its name, or the strings of a `"deleted"` array;
`none` for an element of it that is no string. -/
def otaKeys : List UInt8 × Json → List (Option (List UInt8))
  | (key, .array items) =>
    if cstr key = ascii "deleted" then
      items.map fun
        | .string s => some s
        | _ => none
    else [some key]
  | (key, _) => [some key]

/-- Whether a shared update carries only OTA keys, and whether it carries a firmware key. -/
def otaScan (members : List (List UInt8 × Json)) : Bool × Bool :=
  let keys := members.flatMap otaKeys
  (!members.isEmpty && keys.all fun key => key.any tbAppIsOtaKey, keys.any fun key => key.any isFirmwareKey)

/-! ## RPC params -/

def tbAppRpcHasField (params : Json) (key : List UInt8) : Bool := (params.item key).isSome

def tbAppRpcParsePower (params : Json) : Option Bool := boolItem params (ascii "power")

def tbAppRpcBrightnessTypeOk (params : Json) : Bool :=
  match params.item (ascii "brightness") with
  | some (.number _) => true
  | _ => false

def tbAppRpcParseBrightness (params : Json) : Option UInt8 :=
  integerItem params (ascii "brightness") LAMP_BRIGHTNESS_MAX

def tbAppRpcParseRgb (params : Json) (out : LampState) : Option LampState := do
  let red ← tbAppParseRgbChannel params (ascii "red")
  let green ← tbAppParseRgbChannel params (ascii "green")
  let blue ← tbAppParseRgbChannel params (ascii "blue")
  return { out with red, green, blue }

/-- One round of the loop in `tb_app_rpc_parse_rgb_partial`: the channel's new value,
its old one when it is not given. -/
def partialChannel (params : Json) (key : List UInt8) (channel : UInt8) : Option UInt8 :=
  if tbAppRpcHasField params key then tbAppParseRgbChannel params key else some channel

def tbAppRpcParseRgbPartial (params : Json) (out : LampState) : Option LampState := do
  let red ← partialChannel params (ascii "red") out.red
  let green ← partialChannel params (ascii "green") out.green
  let blue ← partialChannel params (ascii "blue") out.blue
  if tbAppRpcHasField params (ascii "red") || tbAppRpcHasField params (ascii "green") ||
      tbAppRpcHasField params (ascii "blue") then
    return { out with red, green, blue }
  else none

end LedLamp.TbApplication
