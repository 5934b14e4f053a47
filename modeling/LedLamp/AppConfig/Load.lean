import LedLamp.AppConfig.Schema
/-!
# Reading, migrating and loading a document (`app_config.c`)

The storage half of the module. A path answers the OSAL calls on it with a
`FileIo`: any status, any size, any sequence of reads. The migration handler may
do anything to the buffer it is given, and something else at each call. Of
`hq_json_doc_commit`, which is not part of the repository, only the status is
known; a load lists the commits it made.
-/

namespace LedLamp.AppConfig

/-! ## The platform -/

/-- An OSAL status; `other` is every code the module does not name. -/
inductive OsalStatus
  | success
  | errNameNotFound
  | fsErrPathInvalid
  | other (code : Int)
  deriving DecidableEq, Repr

/-- One `osal_read`: a negative result, or the bytes it stores (none at the end of the file). -/
inductive ReadResult
  | error
  | data (bytes : List UInt8)
  deriving DecidableEq, Repr

/-- How the file API answers on a path: `osal_stat`, `osal_open_create`, the
successive `osal_read`s (then the end of the file) and `osal_close`. -/
structure FileIo where
  stat : OsalStatus
  size : Nat
  fd : Int
  reads : List ReadResult
  close : OsalStatus
  deriving DecidableEq, Repr

/-- `hq_json_doc_status_t`; `other` is every code the module does not name. -/
inductive HqJsonDocStatus
  | ok
  | errArgument
  | errNotFound
  | errMalformed
  | errBounds
  | errUnsupported
  | other (code : Int)
  deriving DecidableEq, Repr

/-- A migration handler at its `call`-th call: its status and what its output
buffer holds when it returns. -/
abbrev AppConfigMigrateFn := (call : Nat) → (jsonText : List UInt8) → (fromVersion : UInt32) →
  AppConfigStatus × CharArray APP_CONFIG_WORK_BUF_BYTES

/-- What the module is linked with. The path buffers hold the longest backup path,
`/config/manufacturing.json.good.old`, and its terminator. -/
structure Platform where
  osalMaxPathLen : Nat
  path_fits : 36 ≤ osalMaxPathLen
  cJsonParseWithLengthOpts : List UInt8 → Option Json
  files : (path : List UInt8) → FileIo
  hqJsonDocCommit : (path json : List UInt8) → (maxBytes : Nat) → (validator : List UInt8 → HqJsonDocStatus) →
    HqJsonDocStatus
  migrationHandler : Option AppConfigMigrateFn

/-! ## Raw file helpers -/

def statusIsMissing (rc : OsalStatus) : Bool := rc = .errNameNotFound || rc = .fsErrPathInvalid

/-- The length of the next `osal_read`: the rest of the bound, or one probe byte
once it is filled, never more than the buffer's room. -/
def readWant (cap total : Nat) : Nat :=
  let want := if total < APP_CONFIG_MAX_FILE_BYTES then APP_CONFIG_MAX_FILE_BYTES - total else 1
  let room := cap - 1
  if want > room then room else want

/-- The loop of `read_whole_file`; `buf` holds the `total` bytes read so far.
`none` is a failed read. -/
def readLoop (cap : Nat) : List ReadResult → (buf : List UInt8) → Option (List UInt8)
  | [], buf => some buf
  | read :: reads, buf =>
    if buf.length ≤ APP_CONFIG_MAX_FILE_BYTES then
      match read with
      | .error => none
      | .data bytes =>
        let stored := bytes.take (readWant cap buf.length)
        if stored = [] then some buf else readLoop cap reads (buf ++ stored)
    else some buf

/-- The contents left in `buf`, without the terminator. -/
def readWholeFile (file : FileIo) (cap : Nat) : Except AppConfigError (List UInt8) :=
  if cap = 0 then .error .errInvalidArgument
  else if file.stat ≠ .success then .error (if statusIsMissing file.stat then .errNotFound else .errIo)
  else if file.size > APP_CONFIG_MAX_FILE_BYTES then .error .errBounds
  else if file.fd < 0 then .error .errIo
  else match readLoop cap file.reads [] with
    | none => .error .errIo
    | some buf =>
      if file.close ≠ .success then .error .errIo
      else if buf.length > APP_CONFIG_MAX_FILE_BYTES then .error .errBounds
      else .ok buf

/-! ## Kind dispatch -/

/-- The document type behind `void *doc`. -/
def AppConfigDocKind.Doc : AppConfigDocKind → Type
  | .device => AppConfigDeviceDoc
  | .manufacturing => AppConfigManufacturingDoc
  | .other _ => Unit

/-- `build_variant_path`. -/
def buildVariantPath (kind : AppConfigDocKind) (suffix : String) (outCap : Nat) : Option (List UInt8) :=
  match appConfigDocPath kind with
  | none => none
  | some live =>
    let out := live ++ ascii suffix
    if 0 < out.length ∧ out.length < outCap then some out else none

variable (p : Platform)

def validateKind : (kind : AppConfigDocKind) → (json : Option (List UInt8)) → Except AppConfigError kind.Doc
  | .device, json => appConfigValidateDeviceJson p.cJsonParseWithLengthOpts json
  | .manufacturing, json => appConfigValidateManufacturingJson p.cJsonParseWithLengthOpts json
  | .other _, _ => .error .errInvalidArgument

def validateStoredLen (kind : AppConfigDocKind) (buf : List UInt8) : Except AppConfigError kind.Doc :=
  if buf.length > APP_CONFIG_MAX_FILE_BYTES then .error .errBounds
  else if 0 < buf.length ∧ buf.contains 0 then .error .errMalformed
  else validateKind p kind (some buf)

def appConfigPlatformValidator (kind : AppConfigDocKind) (json : List UInt8) : HqJsonDocStatus :=
  match validateStoredLen p kind json with
  | .ok _ => .ok
  | .error status => if status = .errBounds then .errBounds else .errMalformed

/-- A commit that was made: where, of what text, and what came of it. -/
structure Commit where
  path : List UInt8
  text : List UInt8
  status : HqJsonDocStatus
  deriving DecidableEq, Repr

/-- The switch of `app_config_platform_commit`. -/
def mapCommitStatus : HqJsonDocStatus → AppConfigStatus
  | .ok => .ok
  | .errArgument => .error .errInvalidArgument
  | .errNotFound => .error .errNotFound
  | .errMalformed => .error .errMalformed
  | .errBounds => .error .errBounds
  | .errUnsupported => .error .errUnsupported
  | .other _ => .error .errIo

def appConfigPlatformCommit (kind : AppConfigDocKind) (json : List UInt8) : AppConfigStatus × Commit :=
  let path := (appConfigDocPath kind).getD []
  let status := p.hqJsonDocCommit path (cstr json) APP_CONFIG_MAX_FILE_BYTES (appConfigPlatformValidator p kind)
  (mapCommitStatus status, { path, text := cstr json, status })

/-! ## Migration -/

def extractSchemaVersion (json : Option (List UInt8)) : Except AppConfigError UInt32 :=
  match json with
  | none => .error .errInvalidArgument
  | some json =>
    match p.cJsonParseWithLengthOpts (cstr json ++ [0]) with
    | some (.object members) => getSchemaVersion (.object members)
    | _ => .error .errMalformed

/-- `migrate_json` after `calls` calls of the handler: the output buffer, and the calls made then. -/
def migrateJson (kind : AppConfigDocKind) (json : List UInt8) (fromVersion : UInt32) (calls : Nat) :
    Except AppConfigError (CharArray APP_CONFIG_WORK_BUF_BYTES) × Nat :=
  match p.migrationHandler with
  | none => (.error .errMigration, calls)
  | some handler =>
    let (rc, out) := handler calls (cstr json) fromVersion
    if rc ≠ .ok then (.error .errMigration, calls + 1)
    else if !out.chars.contains 0 then (.error .errMigration, calls + 1)
    else match validateKind p kind (some out.chars) with
      | .error _ => (.error .errMigration, calls + 1)
      | .ok _ => (.ok out, calls + 1)

/-! ## Load -/

/-- The branch of `load_from_path` for an older schema: what `doc` gets, and the migrated text. -/
def loadLegacy (kind : AppConfigDocKind) (buf : List UInt8) (calls : Nat) :
    Except AppConfigError (kind.Doc × List UInt8) × Nat :=
  match extractSchemaVersion p (some buf) with
  | .error v => (.error v, calls)
  | .ok fromVersion =>
    match migrateJson p kind buf fromVersion calls with
    | (.error status, calls) => (.error status, calls)
    | (.ok mig, calls) =>
      match validateKind p kind (some mig.chars) with
      | .error status => (.error status, calls)
      | .ok doc => (.ok (doc, mig.chars), calls)

/-- The copy of the validated text to `out_json`, after the document is materialized. -/
def copyOut {Doc : Type} (outCap : Option Nat) (doc : Doc) (validated : List UInt8) :
    Except AppConfigError (Doc × List UInt8) :=
  match outCap with
  | none => .ok (doc, cstr validated)
  | some outCap => if strlen validated < outCap then .ok (doc, cstr validated) else .error .errIo

/-- `load_from_path`: what it writes to `doc`, the validated text (copied when
the caller has an `out_json`), and the handler calls made then. -/
def loadFromPath (kind : AppConfigDocKind) (path : List UInt8) (outCap : Option Nat) (calls : Nat) :
    Except AppConfigError (kind.Doc × List UInt8) × Nat :=
  match readWholeFile (p.files path) APP_CONFIG_WORK_BUF_BYTES with
  | .error status => (.error status, calls)
  | .ok buf =>
    match validateStoredLen p kind buf with
    | .ok doc => (copyOut outCap doc buf, calls)
    | .error status =>
      if status = .errMigration then
        match loadLegacy p kind buf calls with
        | (.error status, calls) => (.error status, calls)
        | (.ok (doc, mig), calls) => (copyOut outCap doc mig, calls)
      else (.error status, calls)

/-- The recovery loop over the backups still to try. -/
def loadBackups (kind : AppConfigDocKind) : List (List UInt8) → (calls : Nat) →
    Except AppConfigError (kind.Doc × List UInt8) × Nat
  | [], calls => (.error .errNotFound, calls)
  | backup :: backups, calls =>
    match loadFromPath p kind backup (some APP_CONFIG_WORK_BUF_BYTES) calls with
    | (.ok loaded, calls) => (.ok loaded, calls)
    | (.error status, calls) => if backups = [] then (.error status, calls) else loadBackups kind backups calls

/-- What a load did: its status, what it wrote to the caller's `*doc`, and the commits it made. -/
structure Loaded (kind : AppConfigDocKind) where
  status : AppConfigStatus
  written : Option kind.Doc
  commits : List Commit

/-- The backups of a document, in the order a recovery tries them. -/
def backupPaths (kind : AppConfigDocKind) : List (List UInt8) :=
  (buildVariantPath kind ".good" p.osalMaxPathLen).toList ++ (buildVariantPath kind ".good.old" p.osalMaxPathLen).toList

/-- `load_kind`; `doc` is whether the caller's pointer is not NULL. -/
def loadKind (kind : AppConfigDocKind) (doc : Bool) : Loaded kind :=
  if !doc then ⟨.error .errInvalidArgument, none, []⟩
  else match appConfigDocPath kind with
    | none => ⟨.error .errInvalidArgument, none, []⟩
    | some livePath =>
      match loadFromPath p kind livePath none 0 with
      | (.ok (doc, _), _) => ⟨.ok, some doc, []⟩
      | (.error status, calls) =>
        if status ≠ .errIo ∧ 0 < (backupPaths p kind).length then
          match loadBackups p kind (backupPaths p kind) calls with
          | (.error _, _) => ⟨.error status, none, []⟩
          | (.ok (recovered, validated), _) =>
            let (commitStatus, commit) := appConfigPlatformCommit p kind validated
            if commitStatus = .ok then ⟨.okRecovered, some recovered, [commit]⟩
            else ⟨commitStatus, none, [commit]⟩
        else ⟨.error status, none, []⟩

def appConfigLoadDevice (doc : Bool) : Loaded .device := loadKind p .device doc

def appConfigLoadManufacturing (doc : Bool) : Loaded .manufacturing := loadKind p .manufacturing doc

/-! ## Migration of the stored document -/

/-- What a migration did: its status, the commits it made, and the handler calls made then. -/
structure Migrated where
  status : AppConfigStatus
  commits : List Commit
  calls : Nat
  deriving DecidableEq

def appConfigMigrateStored (kind : AppConfigDocKind) (calls : Nat) : Migrated :=
  match appConfigDocPath kind with
  | none => ⟨.error .errInvalidArgument, [], calls⟩
  | some path =>
    match readWholeFile (p.files path) APP_CONFIG_WORK_BUF_BYTES with
    | .error status => ⟨.error status, [], calls⟩
    | .ok buf =>
      match validateStoredLen p kind buf with
      | .ok _ => ⟨.ok, [], calls⟩
      | .error status =>
        if status = .errMigration then
          match extractSchemaVersion p (some buf) with
          | .error v => ⟨.error v, [], calls⟩
          | .ok fromVersion =>
            match migrateJson p kind buf fromVersion calls with
            | (.error status, calls) => ⟨.error status, [], calls⟩
            | (.ok mig, calls) =>
              let (status, commit) := appConfigPlatformCommit p kind mig.chars
              ⟨status, [commit], calls⟩
        else ⟨.error status, [], calls⟩

end LedLamp.AppConfig
