import LedLamp.Conc.Exec
import LedLamp.TbProvisioning.Config
/-!
# The calls of `tb_provisioning.c`

The load of the provisioning document and the write of the identity an enrolment ends
with, as programs over the file calls of the OSAL and the allocating calls of cJSON.
What these answer is left open. cJSON's parse and printer are parameters; `tb_enrollment`,
which calls the persist callback, is not part of the repository.
-/

namespace LedLamp.TbProvisioning

open Conc

def IDENTITY_PATH : List UInt8 := ascii "/config/identity.json"
def IDENTITY_TMP_PATH : List UInt8 := ascii "/config/identity.json.tmp"

/-- The file calls, and the calls of cJSON that may find no memory. A file is opened to be
read, or created and truncated to be written. -/
inductive Op
  | osalStat (path : List UInt8)
  | osalOpenRead (path : List UInt8)
  | osalOpenTruncate (path : List UInt8)
  | osalRead (count : Nat)
  | osalWrite (bytes : List UInt8)
  | osalClose
  | osalRename (source target : List UInt8)
  | cJsonBuild
  | cJsonPrint
  deriving DecidableEq

/-- What each call returns: a file's size or `none`, whether a file opened, the bytes read
or `none` on an error, the number of bytes written (negative on an error), `none` for a
close that succeeds and otherwise what it leaves of the file, whether the rename
succeeded, whether there was memory. -/
@[reducible] def Res : Op → Type
  | .osalStat _ => Option Nat
  | .osalOpenRead _ => Bool
  | .osalOpenTruncate _ => Bool
  | .osalRead _ => Option (List UInt8)
  | .osalWrite _ => Int
  | .osalClose => Option (List UInt8)
  | .osalRename _ _ => Bool
  | .cJsonBuild => Bool
  | .cJsonPrint => Bool

abbrev Act := Prog Op Res

/-- One call. -/
abbrev act (o : Op) : Act (Res o) := .perform o

/-! ## Load -/

/-- The bytes that are read, before the terminator the code puts behind them. -/
def readFile (path : List UInt8) (capacity : Nat) : Act (Option (List UInt8)) := do
  match ← act (.osalStat path) with
  | none => return none
  | some fileSize =>
    if fileSize = 0 ∨ fileSize ≥ capacity then return none
    else if ← act (.osalOpenRead path) then
      let count ← act (.osalRead fileSize)
      let _ ← act .osalClose
      return count.filter fun bytes => bytes.length ≠ 0 && bytes.length < capacity
    else return none

/-- `config` is what the pointer points to (`none` for NULL); the result carries what it
points to afterwards. -/
def tbProvisioningLoad (cJsonParseWithLengthOpts : List UInt8 → Option Json) (config : Option TbProvisioningConfig) :
    Act (TbProvisioningStatus × Option TbProvisioningConfig) := do
  match config with
  | none => return (.errMalformed, none)
  | some _ =>
    match ← act (.osalStat TB_PROVISIONING_FILE_PATH) with
    | none => return (.notFound, config)
    | some _ =>
      match ← readFile TB_PROVISIONING_FILE_PATH (TB_PROVISIONING_MAX_FILE_BYTES + 1) with
      | none => return (.errIo, config)
      | some buffer =>
        match parseConfig cJsonParseWithLengthOpts buffer with
        | none => return (.errMalformed, config)
        | some parsed => return (.ok, some parsed)

/-! ## Write -/

/-- The identity document, of a client id and a token. -/
def identityRoot (clientId accessToken : List UInt8) : Json :=
  .object [(ascii "schema_version", .number (.finite 1 0)), (ascii "client_id", .string clientId),
    (ascii "access_token", .string accessToken)]

/-- `credentialsValue` is the text of `credentials->credentials_value`. -/
def writeIdentity (cJsonPrintUnformatted : Json → List UInt8) (config : TbProvisioningConfig)
    (credentialsValue : List UInt8) : Act Bool := do
  if !(← act .cJsonBuild) then return false
  else if !(← act .cJsonPrint) then return false
  else
    let json := cJsonPrintUnformatted (identityRoot config.deviceName.str (cstr credentialsValue))
    if ← act (.osalOpenTruncate IDENTITY_TMP_PATH) then
      let written ← act (.osalWrite json)
      let _ ← act .osalClose
      if written = json.length then act (.osalRename IDENTITY_TMP_PATH IDENTITY_PATH)
      else return false
    else return false

/-- `persist_identity`: the callback of an enrolment. -/
def persistIdentity (cJsonPrintUnformatted : Json → List UInt8) (credentialsValue : List UInt8)
    (userData : TbProvisioningConfig) : Act Bool :=
  writeIdentity cJsonPrintUnformatted userData credentialsValue

end LedLamp.TbProvisioning
