import LedLamp.AppConfig.Migration
import LedLamp.AppConfig.RoundTrip
import LedLamp.Register
/-!
# The documents in storage

The commit entry points, and the module over whole runs: loads, commits and migrations of
one document, whatever the file API answers, whatever the migration handler does, with
the power failing in the middle of any of them, and anything else happening to other files.

`hq_json_doc_commit` is not part of the repository. `Replaces` is what `app_config.h`
promises of it ("Storage contract"): the live file is replaced as a whole or not at all, only
by a text the validator passed, and the last-known-good copy is the document it replaced.

`store_refines` says that such a store is a `Register`.
-/

namespace LedLamp.AppConfig

/-! ## The commit entry points -/

def AppConfigDocKind.schemaVersion : (kind : AppConfigDocKind) → kind.Doc → UInt32
  | .device, doc => AppConfigDeviceDoc.schemaVersion doc
  | .manufacturing, doc => AppConfigManufacturingDoc.schemaVersion doc
  | .other _, _ => 0

def checkCommitVersion (schemaVersion : UInt32) : Except AppConfigError Unit :=
  if schemaVersion > APP_CONFIG_SCHEMA_VERSION then .error .errUnknownSchema
  else if schemaVersion < APP_CONFIG_SCHEMA_VERSION then .error .errMigration
  else .ok ()

section Commits
variable (p : Platform) (cJsonPrintBuffered : Json → Option (List UInt8))

def serializeKind : (kind : AppConfigDocKind) → kind.Doc → (cap : Nat) → Option (List UInt8)
  | .device, doc, cap => serializeDevice cJsonPrintBuffered doc cap
  | .manufacturing, doc, cap => serializeManufacturing cJsonPrintBuffered doc cap
  | .other _, _, _ => none

/-- What a commit call did: its status and the commits it made. -/
structure Committed where
  status : AppConfigStatus
  commits : List Commit
  deriving DecidableEq

/-- The typed check of `commit_kind`, which only a device document has. -/
def typedCheck : (kind : AppConfigDocKind) → kind.Doc → Except AppConfigError Unit
  | .device, doc => deviceDocStringsValid doc
  | _, _ => .ok ()

def commitKind (kind : AppConfigDocKind) (doc : kind.Doc) : Committed :=
  match typedCheck kind doc with
  | .error status => ⟨.error status, []⟩
  | .ok () =>
    match serializeKind cJsonPrintBuffered kind doc APP_CONFIG_WORK_BUF_BYTES with
    | none => ⟨.error .errIo, []⟩
    | some json =>
      match validateKind p kind (some json) with
      | .error status => ⟨.error status, []⟩
      | .ok _ =>
        let (status, commit) := appConfigPlatformCommit p kind json
        ⟨status, [commit]⟩

/-- The body the two commit functions share; `doc` is `none` for NULL. -/
def appConfigCommit (kind : AppConfigDocKind) (doc : Option kind.Doc) : Committed :=
  match doc with
  | none => ⟨.error .errInvalidArgument, []⟩
  | some doc =>
    match checkCommitVersion (kind.schemaVersion doc) with
    | .error v => ⟨.error v, []⟩
    | .ok () => commitKind p cJsonPrintBuffered kind doc

def appConfigCommitDevice : Option AppConfigDeviceDoc → Committed := appConfigCommit p cJsonPrintBuffered .device

def appConfigCommitManufacturing : Option AppConfigManufacturingDoc → Committed :=
  appConfigCommit p cJsonPrintBuffered .manufacturing

end Commits

/-- A document as a load returns it: each array holds its string and then 0 bytes. -/
def AppConfigDocKind.stored : (kind : AppConfigDocKind) → kind.Doc → kind.Doc
  | .device, doc =>
    { schemaVersion := AppConfigDeviceDoc.schemaVersion doc, product := .ofStr _ (AppConfigDeviceDoc.product doc).str,
      hardwareRevision := .ofStr _ (AppConfigDeviceDoc.hardwareRevision doc).str,
      serial := .ofStr _ (AppConfigDeviceDoc.serial doc).str,
      thingsboardName := .ofStr _ (AppConfigDeviceDoc.thingsboardName doc).str : AppConfigDeviceDoc }
  | .manufacturing, doc => doc
  | .other _, doc => doc

/-! ## What a commit call commits -/

section Spec
variable {p : Platform} {cJsonPrintBuffered : Json → Option (List UInt8)} {kind : AppConfigDocKind} {live : List UInt8}

theorem checkCommitVersion_ok {v : UInt32} (h : checkCommitVersion v = .ok ()) : v = APP_CONFIG_SCHEMA_VERSION := by
  unfold checkCommitVersion at h
  split at h
  · cases h
  split at h
  · cases h
  · exact UInt32.le_antisymm (UInt32.not_lt.1 ‹_›) (UInt32.not_lt.1 ‹_›)

theorem printInto_cstr {root : Json} {cap : Nat} {text : List UInt8} (h : printInto cJsonPrintBuffered root cap = some text) :
    cstr text = text := by
  unfold printInto at h
  split at h
  · cases h
  split at h
  · cases h
    exact cstr_cstr _
  · cases h

theorem serializeKind_cstr {doc : kind.Doc} {cap : Nat} {text : List UInt8}
    (h : serializeKind cJsonPrintBuffered kind doc cap = some text) : cstr text = text := by
  cases kind with
  | device =>
    simp only [serializeKind, serializeDevice] at h
    split at h
    · cases h
    · exact printInto_cstr h
  | manufacturing => exact printInto_cstr h
  | other value => cases h

/-- What is serialized after the typed check is read back as the document, if it validates. -/
theorem serializeKind_stored (hparse : Parses p.cJsonParseWithLengthOpts) (hprint : Prints cJsonPrintBuffered)
    {doc out : kind.Doc} {text : List UInt8} (hversion : kind.schemaVersion doc = APP_CONFIG_SCHEMA_VERSION)
    (hs : serializeKind cJsonPrintBuffered kind doc APP_CONFIG_WORK_BUF_BYTES = some text)
    (hv : validateKind p kind (some text) = .ok out) : out = kind.stored doc := by
  cases kind with
  | device =>
    have hd : deviceDocStringsValid doc = .ok () := serializeDevice_valid hs
    obtain ⟨hs', -⟩ := device_round_trip hparse hprint hd
    obtain rfl := Option.some.inj (hs'.symm.trans hs)
    have hvalid : validateJson p.cJsonParseWithLengthOpts DEVICE_KEYS deviceFields
        (some (JsonText.printObject (deviceMembers doc))) =
        deviceFields APP_CONFIG_SCHEMA_VERSION (JsonText.object (deviceMembers doc)) :=
      validateJson_object hparse (deviceMembers_printable hd) (deviceMembers_length hd) deviceFields rfl rfl
    rw [deviceFields_members hd] at hvalid
    refine (Except.ok.inj (hvalid.symm.trans hv)).symm.trans ?_
    simp only [AppConfigDocKind.stored]
    rw [← hversion]
    rfl
  | manufacturing =>
    obtain ⟨hs', -, -, -⟩ := manufacturing_round_trip hparse hprint doc
    obtain rfl := Option.some.inj (hs'.symm.trans hs)
    have hvalid : validateJson p.cJsonParseWithLengthOpts MANUFACTURING_KEYS manufacturingFields
        (some (JsonText.printObject (manufacturingMembers doc))) =
        manufacturingFields APP_CONFIG_SCHEMA_VERSION (JsonText.object (manufacturingMembers doc)) :=
      validateJson_object hparse (manufacturingMembers_printable doc) (manufacturingMembers_length doc)
        manufacturingFields rfl rfl
    obtain ⟨hin, hout⟩ := manufacturingFields_members doc
    by_cases h : InRange doc.manufacturingState APP_CONFIG_MFG_STATE_QUARANTINED.toUInt32.toNat ∧
        InRange doc.credentialMode APP_CONFIG_CRED_MODE_MTLS.toUInt32.toNat
    · rw [hin h] at hvalid
      refine (Except.ok.inj (hvalid.symm.trans hv)).symm.trans ?_
      rw [← hversion]
      rfl
    · obtain ⟨e, he⟩ := hout h
      cases (hvalid.trans he).symm.trans hv
  | other value => cases hs

/-- A commit call fails on its own, or commits one text, from which the document is read back. -/
theorem appConfigCommit_paths (hk : appConfigDocPath kind = some live) (hparse : Parses p.cJsonParseWithLengthOpts)
    (hprint : Prints cJsonPrintBuffered) (doc : Option kind.Doc) :
    (∃ status, appConfigCommit p cJsonPrintBuffered kind doc = ⟨.error status, []⟩) ∨
    ∃ d text status, doc = some d ∧ validateStoredLen p kind text = .ok (kind.stored d) ∧
      appConfigCommit p cJsonPrintBuffered kind doc = ⟨mapCommitStatus status, [⟨live, text, status⟩]⟩ := by
  cases doc with
  | none => exact .inl ⟨_, rfl⟩
  | some d =>
    simp only [appConfigCommit, commitKind]
    cases hversion : checkCommitVersion (kind.schemaVersion d) with
    | error v => exact .inl ⟨v, rfl⟩
    | ok _ =>
      cases typedCheck kind d with
      | error status => exact .inl ⟨status, rfl⟩
      | ok _ =>
        cases hs : serializeKind cJsonPrintBuffered kind d APP_CONFIG_WORK_BUF_BYTES with
        | none => exact .inl ⟨_, rfl⟩
        | some text =>
          dsimp only
          cases hv : validateKind p kind (some text) with
          | error status => exact .inl ⟨status, rfl⟩
          | ok out =>
            have hc := serializeKind_cstr hs
            rw [serializeKind_stored hparse hprint (checkCommitVersion_ok hversion) hs hv] at hv
            refine .inr ⟨d, text, p.hqJsonDocCommit live text APP_CONFIG_MAX_FILE_BYTES (appConfigPlatformValidator p kind),
              rfl, validateStoredLen_of_text hv hc, ?_⟩
            simp only [appConfigPlatformCommit, hk, Option.getD_some, hc]

/-- A manufacturing document in range is committed. -/
theorem appConfigCommit_manufacturing (hparse : Parses p.cJsonParseWithLengthOpts) (hprint : Prints cJsonPrintBuffered)
    {doc : AppConfigManufacturingDoc} (hversion : doc.schemaVersion = APP_CONFIG_SCHEMA_VERSION)
    (hin : InRange doc.manufacturingState 2 ∧ InRange doc.credentialMode 2) :
    ∃ text status, validateStoredLen p .manufacturing text = .ok doc ∧
      status = p.hqJsonDocCommit APP_CONFIG_MANUFACTURING_PATH text APP_CONFIG_MAX_FILE_BYTES
        (appConfigPlatformValidator p .manufacturing) ∧
      appConfigCommit p cJsonPrintBuffered .manufacturing (some doc) =
        ⟨mapCommitStatus status, [⟨APP_CONFIG_MANUFACTURING_PATH, text, status⟩]⟩ := by
  obtain ⟨hprinted, -, hvalid, -⟩ := manufacturing_round_trip hparse hprint doc
  obtain ⟨out, hout⟩ := hvalid.2 hin
  have hs : serializeKind cJsonPrintBuffered .manufacturing doc APP_CONFIG_WORK_BUF_BYTES = some _ := hprinted
  have hversion' : AppConfigDocKind.manufacturing.schemaVersion doc = APP_CONFIG_SCHEMA_VERSION := hversion
  have hv : validateKind p .manufacturing (some (JsonText.printObject (manufacturingMembers doc))) = .ok doc := by
    have hv : validateKind p .manufacturing (some (JsonText.printObject (manufacturingMembers doc))) = .ok out := hout
    rw [hv, serializeKind_stored hparse hprint hversion' hs hv]
    rfl
  have hchecked : checkCommitVersion (AppConfigDocKind.manufacturing.schemaVersion doc) = .ok () := by
    show checkCommitVersion doc.schemaVersion = .ok ()
    rw [hversion]
    rfl
  refine ⟨_, _, validateStoredLen_of_text hv (serializeKind_cstr hs), rfl, ?_⟩
  simp only [appConfigCommit, hchecked, commitKind, typedCheck, hs, hv, appConfigPlatformCommit, serializeKind_cstr hs]
  rfl

end Spec

/-! ## Storage -/

/-- The files: what is stored at each path. -/
abbrev Disk := List UInt8 → Option (List UInt8)

/-- How the file API may answer on a path. Only a missing file is reported missing, and
what is read is what is stored; anything may fail. -/
def FileIo.Reports (file : FileIo) : Option (List UInt8) → Prop
  | none => file.stat ≠ .success
  | some bytes => statusIsMissing file.stat = false ∧ file.Has bytes

/-- What the module is linked with answers for these files, and parses with `parse`. -/
structure Platform.Serves (p : Platform) (parse : List UInt8 → Option Json) (disk : Disk) : Prop where
  parse : p.cJsonParseWithLengthOpts = parse
  files : ∀ path, (p.files path).Reports (disk path)

def goodPath (live : List UInt8) : List UInt8 := live ++ ascii ".good"

def goodOldPath (live : List UInt8) : List UInt8 := live ++ ascii ".good.old"

/-- The last-known-good copy: `.good`, or the one preserved at `.good.old` while there is none. -/
def lastGood (live : List UInt8) (disk : Disk) : Option (List UInt8) := disk (goodPath live) <|> disk (goodOldPath live)

/-- What a commit of `text` may make of the files: one that returns `status`, or one that
is cut off. -/
structure Replaces (valid : List UInt8 → Prop) (live text : List UInt8) (status : Option HqJsonDocStatus)
    (disk disk' : Disk) : Prop where
  ok : status = some .ok → valid text ∧ disk' live = some text ∧
    ∀ old, disk live = some old → valid old → lastGood live disk' = some old
  failed : ∀ s, status = some s → s ≠ .ok → disk' live = disk live ∧ lastGood live disk' = lastGood live disk
  cut : status = none → (disk' live = disk live ∨ valid text ∧ disk' live = some text) ∧
    ∀ old, disk live = some old → valid old → lastGood live disk' = some old ∨
      disk' live = disk live ∧ lastGood live disk' = lastGood live disk
  copies : ∀ path ∈ [goodPath live, goodOldPath live], ∀ t, disk' path = some t →
    disk (goodPath live) = some t ∨ disk (goodOldPath live) = some t ∨ disk live = some t ∧ valid t
  others : ∀ path, ¬ live <+: path → disk' path = disk path

/-! ## Runs -/

/-- A call on the document of one kind. -/
inductive Call (kind : AppConfigDocKind) where
  | load (doc : Bool)
  | commit (doc : Option kind.Doc)
  | migrateStored

/-- What a call returned, what it wrote to the caller's document, and the commits it made. -/
structure Returned (kind : AppConfigDocKind) where
  status : AppConfigStatus
  written : Option kind.Doc
  commits : List Commit

section Runs
variable (parse : List UInt8 → Option Json) (cJsonPrintBuffered : Json → Option (List UInt8)) {kind : AppConfigDocKind}

def Call.exec (p : Platform) : Call kind → Returned kind
  | .load doc =>
    let r := loadKind p kind doc
    ⟨r.status, r.written, r.commits⟩
  | .commit doc =>
    let r := appConfigCommit p cJsonPrintBuffered kind doc
    ⟨r.status, none, r.commits⟩
  | .migrateStored =>
    let r := appConfigMigrateStored p kind 0
    ⟨r.status, none, r.commits⟩

/-- What validates depends on the parse alone, so any platform will do. -/
def Platform.parsing : Platform where
  osalMaxPathLen := 36
  path_fits := Nat.le_refl 36
  cJsonParseWithLengthOpts := parse
  files _ := .missing
  hqJsonDocCommit _ _ _ _ := .ok
  migrationHandler := none

/-- The bytes are those of the document, as the validator of a commit sees it. -/
def Valid (kind : AppConfigDocKind) (bytes : List UInt8) (doc : kind.Doc) : Prop :=
  validateStoredLen (.parsing parse) kind bytes = .ok doc

abbrev Stored (kind : AppConfigDocKind) (bytes : List UInt8) : Prop := ∃ doc, Valid parse kind bytes doc

/-- The commits of a call that returned, one after the other. -/
inductive Commits (kind : AppConfigDocKind) : List Commit → Disk → Disk → Prop
  | nil {disk : Disk} : Commits kind [] disk disk
  | cons {commit : Commit} {commits : List Commit} {disk disk₁ disk₂ : Disk} :
      Replaces (Stored parse kind) commit.path commit.text (some commit.status) disk disk₁ →
      Commits kind commits disk₁ disk₂ → Commits kind (commit :: commits) disk disk₂

/-- A call with what it returned; `none` is a call in which the power failed. -/
structure Entry (kind : AppConfigDocKind) where
  call : Call kind
  returned : Option (Returned kind)

/-- What a call makes of the files: it returns, its commit is cut off, or the power fails
before it commits. -/
inductive Does (kind : AppConfigDocKind) : Disk → Entry kind → Disk → Prop
  | returns {disk disk' : Disk} {p : Platform} (call : Call kind) (hs : p.Serves parse disk)
      (hc : Commits parse kind (call.exec cJsonPrintBuffered p).commits disk disk') :
      Does kind disk ⟨call, some (call.exec cJsonPrintBuffered p)⟩ disk'
  | cut {disk disk' : Disk} {p : Platform} (call : Call kind) {commit : Commit} (hs : p.Serves parse disk)
      (hcommits : (call.exec cJsonPrintBuffered p).commits = [commit])
      (hc : Replaces (Stored parse kind) commit.path commit.text none disk disk') :
      Does kind disk ⟨call, none⟩ disk'
  | idle {disk : Disk} (call : Call kind) : Does kind disk ⟨call, none⟩ disk

/-- The runs of the module on one document, newest call first. What happens to the files
of other documents is not part of the run. -/
inductive Run (kind : AppConfigDocKind) (live : List UInt8) (disk₀ : Disk) : List (Entry kind) → Disk → Prop
  | nil : Run kind live disk₀ [] disk₀
  | outside {entries : List (Entry kind)} {disk disk' : Disk} : Run kind live disk₀ entries disk →
      (∀ path, live <+: path → disk' path = disk path) → Run kind live disk₀ entries disk'
  | step {entries : List (Entry kind)} {disk disk' : Disk} {entry : Entry kind} : Run kind live disk₀ entries disk →
      Does parse cJsonPrintBuffered kind disk entry disk' → Run kind live disk₀ (entry :: entries) disk'

end Runs

/-! ## The two documents -/


variable {parse : List UInt8 → Option Json} {cJsonPrintBuffered : Json → Option (List UInt8)} {kind : AppConfigDocKind}
  {live : List UInt8} {p : Platform} {disk disk' : Disk}

/-- A call commits on its own document only. -/
theorem exec_path (hk : appConfigDocPath kind = some live) (hparse : Parses p.cJsonParseWithLengthOpts)
    (hprint : Prints cJsonPrintBuffered) (call : Call kind) :
    ∀ commit ∈ (call.exec cJsonPrintBuffered p).commits, commit.path = live := by
  cases call with
  | load out =>
    cases out with
    | false => simp [Call.exec, loadKind]
    | true =>
      simp only [Call.exec]
      rcases loadKind_paths (p := p) hk with ⟨_, _, -, e⟩ | ⟨_, -, ⟨-, e⟩ | ⟨-, _, _, -, committed, -, e⟩⟩ <;> rw [e]
      · simp
      · simp
      · split <;> simp
  | migrateStored =>
    simp only [Call.exec]
    rcases migrateStored_paths (p := p) hk 0 with ⟨_, _, e⟩ | ⟨_, _, -, -, e⟩ | ⟨_, _, _, _, -, -, e⟩ <;> simp [e]
  | commit doc =>
    simp only [Call.exec]
    rcases appConfigCommit_paths (p := p) hk hparse hprint doc with ⟨_, e⟩ | ⟨_, _, _, -, -, e⟩ <;> simp [e]

theorem Commits.outside {commits : List Commit} (hc : Commits parse kind commits disk disk')
    (hall : ∀ commit ∈ commits, commit.path = live) {path : List UInt8} (hpath : ¬ live <+: path) :
    disk' path = disk path := by
  induction hc with
  | nil => rfl
  | cons hrep _ ih =>
    obtain ⟨rfl, hrest⟩ := List.forall_mem_cons.1 hall
    exact (ih hrest).trans (hrep.others path hpath)

/-- The paths of one document are none of the other's. -/
theorem documents_apart : ¬ APP_CONFIG_DEVICE_PATH <+: APP_CONFIG_MANUFACTURING_PATH ∧
    ¬ APP_CONFIG_MANUFACTURING_PATH <+: APP_CONFIG_DEVICE_PATH := by decide

theorem Does.outside {entry : Entry kind} {other : List UInt8} (hk : appConfigDocPath kind = some live)
    (hparse : Parses parse) (hprint : Prints cJsonPrintBuffered) (hd : Does parse cJsonPrintBuffered kind disk entry disk')
    (h : ¬ live <+: other) (h' : ¬ other <+: live) : ∀ path, other <+: path → disk' path = disk path := by
  intro path hother
  have hpath : ¬ live <+: path := fun hl => (List.prefix_or_prefix_of_prefix hl hother).elim h h'
  cases hd with
  | idle call => rfl
  | returns call hs hc => exact hc.outside (exec_path hk (hs.parse ▸ hparse) hprint call) hpath
  | cut call hs hcommits hc =>
    have hcommit := exec_path hk (hs.parse ▸ hparse) hprint call
    rw [hcommits, List.forall_mem_singleton] at hcommit
    subst hcommit
    exact hc.others path hpath

/-- So the calls on one document are outside the runs of the other. -/
theorem Run.manufacturing_outside {disk₀ : Disk} {entries : List (Entry .device)} {entry : Entry .manufacturing}
    (hparse : Parses parse) (hprint : Prints cJsonPrintBuffered)
    (hr : Run parse cJsonPrintBuffered .device APP_CONFIG_DEVICE_PATH disk₀ entries disk)
    (hd : Does parse cJsonPrintBuffered .manufacturing disk entry disk') :
    Run parse cJsonPrintBuffered .device APP_CONFIG_DEVICE_PATH disk₀ entries disk' :=
  hr.outside (hd.outside rfl hparse hprint documents_apart.2 documents_apart.1)

theorem Run.device_outside {disk₀ : Disk} {entries : List (Entry .manufacturing)} {entry : Entry .device}
    (hparse : Parses parse) (hprint : Prints cJsonPrintBuffered)
    (hr : Run parse cJsonPrintBuffered .manufacturing APP_CONFIG_MANUFACTURING_PATH disk₀ entries disk)
    (hd : Does parse cJsonPrintBuffered .device disk entry disk') :
    Run parse cJsonPrintBuffered .manufacturing APP_CONFIG_MANUFACTURING_PATH disk₀ entries disk' :=
  hr.outside (hd.outside rfl hparse hprint documents_apart.1 documents_apart.2)

/-! ## A valid live document is kept -/

theorem Platform.Serves.validates (hs : p.Serves parse disk) (bytes : List UInt8) :
    validateStoredLen p kind bytes = validateStoredLen (.parsing parse) kind bytes :=
  validateStoredLen_parse hs.parse bytes

/-- A commit fails, or commits one text that is valid for these files. -/
theorem exec_commit (hk : appConfigDocPath kind = some live) (hparse : Parses parse) (hprint : Prints cJsonPrintBuffered)
    (hs : p.Serves parse disk) (doc : Option kind.Doc) :
    (∃ status, (Call.commit doc).exec cJsonPrintBuffered p = ⟨.error status, none, []⟩) ∨
      ∃ d text status, doc = some d ∧ Valid parse kind text (kind.stored d) ∧
        (Call.commit doc).exec cJsonPrintBuffered p = ⟨mapCommitStatus status, none, [⟨live, text, status⟩]⟩ := by
  have hparse' : Parses p.cJsonParseWithLengthOpts := hs.parse ▸ hparse
  rcases appConfigCommit_paths hk hparse' hprint doc with ⟨status, e⟩ | ⟨d, text, status, hd, hstored, e⟩
  · exact .inl ⟨status, by rw [Call.exec, e]⟩
  · exact .inr ⟨d, text, status, hd, (hs.validates text).symm.trans hstored, by rw [Call.exec, e]⟩

theorem Valid.length {bytes : List UInt8} {doc : kind.Doc} (h : Valid parse kind bytes doc) :
    bytes.length ≤ APP_CONFIG_MAX_FILE_BYTES := by
  by_contra hlen
  simp [Valid, validateStoredLen, Nat.not_le.1 hlen] at h

/-- A file within the bound is read as it is, or with an I/O error. -/
theorem readWholeFile_reports {file : FileIo} {bytes : List UInt8} (h : file.Reports (some bytes))
    (hlen : bytes.length ≤ APP_CONFIG_MAX_FILE_BYTES) :
    readWholeFile file APP_CONFIG_WORK_BUF_BYTES = .ok bytes ∨ readWholeFile file APP_CONFIG_WORK_BUF_BYTES = .error .errIo := by
  obtain ⟨hmissing, hsize, pieces, hne, hreads⟩ := h
  have hloop : readLoop APP_CONFIG_WORK_BUF_BYTES file.reads [] = some bytes ∨
      readLoop APP_CONFIG_WORK_BUF_BYTES file.reads [] = none := by
    rcases hreads with ⟨hreads, rfl⟩ | ⟨later, hreads, hpre⟩
    · rw [hreads, ← List.append_nil (pieces.map _), readLoop_pieces pieces [] [] hne (by simpa using hlen)]
      exact .inl rfl
    · have hfits : ([] ++ pieces.flatten).length ≤ APP_CONFIG_MAX_FILE_BYTES := hpre.length_le.trans hlen
      rw [hreads, readLoop_pieces pieces _ [] hne hfits, readLoop, if_pos hfits]
      exact .inr rfl
  unfold readWholeFile
  rw [if_neg (by decide), hmissing, hsize, if_neg (Nat.not_lt.2 hlen)]
  split
  · exact .inr rfl
  split
  · exact .inr rfl
  rcases hloop with e | e <;> rw [e]
  · dsimp only
    rw [if_neg (Nat.not_lt.2 hlen)]
    split
    · exact .inr rfl
    · exact .inl rfl
  · exact .inr rfl

/-- With a valid live document a load returns it or fails, and touches nothing. -/
theorem loadKind_valid (hk : appConfigDocPath kind = some live) (hs : p.Serves parse disk) {bytes : List UInt8}
    {doc : kind.Doc} (hl : disk live = some bytes) (hv : Valid parse kind bytes doc) (out : Bool) :
    loadKind p kind out = ⟨.ok, some doc, []⟩ ∨ ∃ status, loadKind p kind out = ⟨.error status, none, []⟩ := by
  cases out with
  | false => exact .inr ⟨_, rfl⟩
  | true =>
    have hfile := hs.files live
    rw [hl] at hfile
    rcases readWholeFile_reports hfile hv.length with hr | hr
    · have hy : Yields p kind live 0 doc bytes := ⟨bytes, hr, .inl ⟨(hs.validates bytes).trans hv, rfl⟩⟩
      rcases loadKind_paths (p := p) hk with ⟨doc', text', hy', e⟩ | ⟨status, herr, -⟩
      · rw [(hy.unique hy').1]
        exact .inl e
      · cases ((loadFromPath_ok_iff (by simp)).2 hy).symm.trans herr
    · have herr : (loadFromPath p kind live none 0).1 = .error .errIo := by simp [loadFromPath, hr]
      rcases loadKind_paths (p := p) hk with ⟨doc', text', hy', -⟩ | ⟨status, herr', ⟨-, e⟩ | ⟨hio, -⟩⟩
      · cases ((loadFromPath_ok_iff (by simp)).2 hy').symm.trans herr
      · exact .inr ⟨_, e⟩
      · exact absurd (Except.error.inj (herr'.symm.trans herr)) hio

/-- And so does a migration. -/
theorem migrateStored_kept (hk : appConfigDocPath kind = some live) (hs : p.Serves parse disk) {bytes : List UInt8}
    {doc : kind.Doc} (hl : disk live = some bytes) (hv : Valid parse kind bytes doc) :
    (appConfigMigrateStored p kind 0).commits = [] := by
  have hfile := hs.files live
  rw [hl] at hfile
  have hvalid : validateStoredLen p kind bytes = .ok doc := (hs.validates bytes).trans hv
  rcases readWholeFile_reports hfile hv.length with hr | hr <;> simp [appConfigMigrateStored, hk, hr, hvalid]

/-! ## The store is a register -/

/-- The live document is the register's value, and the last-known-good copy the value before. -/
structure Keeps (parse : List UInt8 → Option Json) (kind : AppConfigDocKind) (live : List UInt8) (disk : Disk)
    (r : Register kind.Doc) : Prop where
  now : ∃ bytes, disk live = some bytes ∧ Valid parse kind bytes r.now
  before : ∀ b ∈ r.before, ∃ bytes, lastGood live disk = some bytes ∧ Valid parse kind bytes b

/-- What a call is to the register: a load reads, a commit writes, a migration finds
nothing to do. -/
def Entry.event : Entry kind → Register.Event kind.Doc
  | ⟨.load _, some r⟩ => .read r.written
  | ⟨.commit (some doc), some r⟩ => if r.status = .ok then .wrote (kind.stored doc) else .refused
  | ⟨.commit (some doc), none⟩ => .lost (kind.stored doc)
  | ⟨.commit none, _⟩ => .refused
  | _ => .read none

/-- A load or a migration that neither recovered the document nor rewrote it. -/
def Entry.Clean : Entry kind → Prop
  | ⟨.load _, some r⟩ => (∃ doc, r = ⟨.ok, some doc, []⟩) ∨ ∃ status, r = ⟨.error status, none, []⟩
  | ⟨.migrateStored, some r⟩ => r.commits = []
  | _ => True

/-- Files that agree on the document and its copies keep the same register. -/
theorem Keeps.congr {r : Register kind.Doc} (h : Keeps parse kind live disk r) (hl : disk' live = disk live)
    (hg : lastGood live disk' = lastGood live disk) : Keeps parse kind live disk' r :=
  ⟨hl ▸ h.now, hg ▸ h.before⟩

section Replaced
variable {r : Register kind.Doc} {text : List UInt8} {a : kind.Doc}

theorem Keeps.replaced (h : Keeps parse kind live disk r) (hv : Valid parse kind text a)
    (hc : Replaces (Stored parse kind) live text (some .ok) disk disk') : Keeps parse kind live disk' ⟨a, some r.now⟩ := by
  obtain ⟨old, hl, hold⟩ := h.now
  obtain ⟨-, hlive, hgood⟩ := hc.ok rfl
  refine ⟨⟨text, hlive, hv⟩, fun b hb => ?_⟩
  obtain rfl := Option.some.inj hb
  exact ⟨old, hgood old hl ⟨_, hold⟩, hold⟩

theorem Keeps.failed {status : HqJsonDocStatus} (h : Keeps parse kind live disk r) (hs : status ≠ .ok)
    (hc : Replaces (Stored parse kind) live text (some status) disk disk') : Keeps parse kind live disk' r := by
  obtain ⟨hl, hg⟩ := hc.failed status rfl hs
  exact h.congr hl hg

/-- However far a commit that was cut off got, the register made one step. -/
theorem Keeps.cut (h : Keeps parse kind live disk r) (hv : Valid parse kind text a)
    (hc : Replaces (Stored parse kind) live text none disk disk') :
    ∃ r', Register.Step r (.lost a) r' ∧ Keeps parse kind live disk' r' := by
  obtain ⟨old, hl, hold⟩ := h.now
  obtain ⟨hlive, hgood⟩ := hc.cut rfl
  rcases hgood old hl ⟨_, hold⟩ with hg | ⟨hsame, hg⟩
  · have hbefore : ∀ b ∈ some r.now, ∃ bytes, lastGood live disk' = some bytes ∧ Valid parse kind bytes b := by
      intro b hb
      obtain rfl := Option.some.inj hb
      exact ⟨old, hg, hold⟩
    rcases hlive with hsame | ⟨-, hnew⟩
    · exact ⟨_, .copied a, ⟨old, hsame.trans hl, hold⟩, hbefore⟩
    · exact ⟨_, .done a, ⟨text, hnew, hv⟩, hbefore⟩
  · exact ⟨r, .lost a, h.congr hsame hg⟩

end Replaced

/-- A call that was cut off before it committed did nothing. -/
theorem idle_step (r : Register kind.Doc) (call : Call kind) : Register.Step r (Entry.event ⟨call, none⟩) r := by
  cases call with
  | load out => exact .read (by simp)
  | migrateStored => exact .read (by simp)
  | commit doc =>
    cases doc with
    | none => exact .refused
    | some d => exact .lost _

/-- Each call, whatever became of it, is one step of the register. -/
theorem Keeps.step {r : Register kind.Doc} {entry : Entry kind} (hk : appConfigDocPath kind = some live)
    (hparse : Parses parse) (hprint : Prints cJsonPrintBuffered) (h : Keeps parse kind live disk r)
    (hd : Does parse cJsonPrintBuffered kind disk entry disk') :
    (∃ r', Register.Step r entry.event r' ∧ Keeps parse kind live disk' r') ∧ entry.Clean := by
  obtain ⟨bytes, hl, hv⟩ := h.now
  cases hd with
  | idle call => exact ⟨⟨r, idle_step r call, h⟩, by cases call <;> trivial⟩
  | returns call hs hc =>
    cases call with
    | load out =>
      rcases loadKind_valid hk hs hl hv out with e | ⟨status, e⟩ <;> simp only [Call.exec, e] at hc ⊢ <;> cases hc
      · exact ⟨⟨r, .read fun a ha => (Option.some.inj ha).symm, h⟩, .inl ⟨_, rfl⟩⟩
      · exact ⟨⟨r, .read (by simp), h⟩, .inr ⟨_, rfl⟩⟩
    | migrateStored =>
      have hnone := migrateStored_kept hk hs hl hv
      simp only [Call.exec, hnone] at hc
      cases hc
      exact ⟨⟨r, .read (by simp), h⟩, hnone⟩
    | commit doc =>
      refine ⟨?_, trivial⟩
      rcases exec_commit hk hparse hprint hs doc with ⟨status, e⟩ | ⟨d, text, status, rfl, hd, e⟩ <;> rw [e] at hc ⊢
      · cases hc
        refine ⟨r, ?_, h⟩
        cases doc <;> exact .refused
      · cases hc with
        | cons hrep hnil =>
          cases hnil
          by_cases hok : status = .ok
          · subst hok
            exact ⟨_, .wrote _, h.replaced hd hrep⟩
          · have hne : mapCommitStatus status ≠ .ok := fun e => hok (mapCommitStatus_ok e)
            refine ⟨r, ?_, h.failed hok hrep⟩
            rw [Entry.event, if_neg hne]
            exact .refused
  | cut call hs hcommits hc =>
    -- Only a commit commits anything.
    refine ⟨?_, by cases call <;> trivial⟩
    cases call with
    | load out => rcases loadKind_valid hk hs hl hv out with e | ⟨status, e⟩ <;> simp [Call.exec, e] at hcommits
    | migrateStored => simp [Call.exec, migrateStored_kept hk hs hl hv] at hcommits
    | commit doc =>
      rcases exec_commit hk hparse hprint hs doc with ⟨status, e⟩ | ⟨d, text, status, rfl, hd, e⟩ <;> rw [e] at hcommits
      · cases hcommits
      · obtain rfl := (List.cons.inj hcommits).1.symm
        exact h.cut hd hc

/-- From a state that keeps a register, every run does to it what its calls say, whatever
fails on the way, and keeps the register that comes out. -/
theorem Run.keeps (hk : appConfigDocPath kind = some live) (hparse : Parses parse) (hprint : Prints cJsonPrintBuffered)
    {r₀ : Register kind.Doc} {disk₀ : Disk} {entries : List (Entry kind)} (h₀ : Keeps parse kind live disk₀ r₀)
    (hr : Run parse cJsonPrintBuffered kind live disk₀ entries disk) :
    (∃ r, Register.Run r₀ (entries.map Entry.event) r ∧ Keeps parse kind live disk r) ∧ ∀ entry ∈ entries, entry.Clean := by
  induction hr with
  | nil => exact ⟨⟨r₀, .nil, h₀⟩, by simp⟩
  | outside _ hsame ih =>
    obtain ⟨⟨r, hrun, h⟩, hclean⟩ := ih
    refine ⟨⟨r, hrun, h.congr (hsame live (List.prefix_refl _)) ?_⟩, hclean⟩
    rw [lastGood, lastGood, hsame (goodPath live) (List.prefix_append _ _), hsame (goodOldPath live) (List.prefix_append _ _)]
  | step _ hd ih =>
    obtain ⟨⟨r, hrun, h⟩, hclean⟩ := ih
    obtain ⟨⟨r', hstep, h'⟩, hown⟩ := h.step hk hparse hprint hd
    exact ⟨⟨r', hrun.step hstep, h'⟩, List.forall_mem_cons.2 ⟨hown, hclean⟩⟩

theorem Run.split {disk₀ : Disk} {after before : List (Entry kind)}
    (hr : Run parse cJsonPrintBuffered kind live disk₀ (after ++ before) disk) :
    ∃ disk₁, Run parse cJsonPrintBuffered kind live disk₀ before disk₁ ∧
      Run parse cJsonPrintBuffered kind live disk₁ after disk := by
  generalize he : after ++ before = entries at hr
  induction hr generalizing after with
  | nil =>
    obtain ⟨rfl, rfl⟩ := List.append_eq_nil_iff.1 he
    exact ⟨_, .nil, .nil⟩
  | outside _ hsame ih =>
    obtain ⟨disk₁, hold, hnew⟩ := ih he
    exact ⟨disk₁, hold, hnew.outside hsame⟩
  | step hr hd ih =>
    cases after with
    | nil =>
      cases he
      exact ⟨_, hr.step hd, .nil⟩
    | cons entry after =>
      obtain ⟨rfl, htail⟩ := List.cons.inj he
      obtain ⟨disk₁, hold, hnew⟩ := ih htail
      exact ⟨disk₁, hold, hnew.step hd⟩

/-- The newest call of a run, and the run up to it. -/
theorem Run.head {disk₀ : Disk} {entries : List (Entry kind)} {entry : Entry kind}
    (hr : Run parse cJsonPrintBuffered kind live disk₀ (entry :: entries) disk) :
    ∃ disk₁ disk₂, Run parse cJsonPrintBuffered kind live disk₀ entries disk₁ ∧
      Does parse cJsonPrintBuffered kind disk₁ entry disk₂ ∧ ∀ path, live <+: path → disk path = disk₂ path := by
  generalize he : entry :: entries = all at hr
  induction hr with
  | nil => cases he
  | outside _ hsame ih =>
    obtain ⟨disk₁, disk₂, hold, hd, hfiles⟩ := ih he
    exact ⟨disk₁, disk₂, hold, hd, fun path hpath => (hsame path hpath).trans (hfiles path hpath)⟩
  | step hold hd _ =>
    obtain ⟨rfl, rfl⟩ := List.cons.inj he
    exact ⟨_, _, hold, hd, fun _ _ => rfl⟩

/-- A commit that succeeded makes a register of any files. -/
theorem Run.committed (hk : appConfigDocPath kind = some live) (hparse : Parses parse) (hprint : Prints cJsonPrintBuffered)
    {disk₀ : Disk} {before : List (Entry kind)} {doc : kind.Doc} {returned : Returned kind}
    (hr : Run parse cJsonPrintBuffered kind live disk₀ (⟨.commit (some doc), some returned⟩ :: before) disk)
    (hok : returned.status = .ok) : Keeps parse kind live disk ⟨kind.stored doc, none⟩ := by
  obtain ⟨disk₁, disk₂, -, hd, hsame⟩ := hr.head
  cases hd with
  | returns _ hs hc =>
    rcases exec_commit hk hparse hprint hs (some doc) with ⟨status, e⟩ | ⟨d, text, status, hd, hvalid, e⟩ <;>
      rw [e] at hc hok
    · cases hok
    · cases hc with
      | cons hrep hnil =>
        cases hnil
        obtain rfl := Option.some.inj hd
        obtain ⟨-, hlive, -⟩ := hrep.ok (congrArg some (mapCommitStatus_ok hok))
        exact ⟨⟨text, (hsame live (List.prefix_refl _)).trans hlive, hvalid⟩, by simp⟩

/-! ## A device named twice -/

def FileIo.of : Option (List UInt8) → FileIo
  | none => .missing
  | some [] => ⟨.success, 0, 3, [], .success⟩
  | some (byte :: bytes) => .stored (byte :: bytes)

/-- A device with these files, on which everything works. -/
def Platform.on (disk : Disk) : Platform where
  osalMaxPathLen := 64
  path_fits := Nat.le_add_right 36 28
  cJsonParseWithLengthOpts := JsonText.readText
  files path := .of (disk path)
  hqJsonDocCommit _ _ _ _ := .ok
  migrationHandler := none

theorem Platform.on_serves (disk : Disk) : (Platform.on disk).Serves JsonText.readText disk := by
  refine ⟨rfl, fun path => ?_⟩
  show (FileIo.of (disk path)).Reports (disk path)
  cases disk path with
  | none => exact fun h => by cases h
  | some bytes =>
    cases bytes with
    | nil => exact ⟨rfl, rfl, [], by simp, .inl ⟨rfl, rfl⟩⟩
    | cons byte bytes => exact ⟨rfl, (FileIo.stored_holds (by simp)).has⟩

/-- A call that returns, on files that are read without errors. -/
theorem Does.on {kind : AppConfigDocKind} {call : Call kind} {r : Returned kind} {disk disk' : Disk}
    (hr : call.exec JsonText.printText (.on disk) = r) (hc : Commits JsonText.readText kind r.commits disk disk') :
    Does JsonText.readText JsonText.printText kind disk ⟨call, some r⟩ disk' := by
  subst hr
  exact .returns call (Platform.on_serves disk) hc

def lampDoc (name : String) : AppConfigDeviceDoc where
  schemaVersion := APP_CONFIG_SCHEMA_VERSION
  product := .ofStr _ (ascii "lamp")
  hardwareRevision := .ofStr _ (ascii "A")
  serial := .ofStr _ (ascii "K-1")
  thingsboardName := .ofStr _ (ascii name)

def lampText (name : String) : List UInt8 :=
  (serializeDevice JsonText.printText (lampDoc name) APP_CONFIG_WORK_BUF_BYTES).getD []

/-- A device document and its `.good`. -/
def deviceFiles (device good : Option (List UInt8)) : Disk := fun path =>
  if path = APP_CONFIG_DEVICE_PATH then device else if path = goodPath APP_CONFIG_DEVICE_PATH then good else none

theorem lampText_stored (name : String)
    (h : (validateStoredLen (.parsing JsonText.readText) .device (lampText name)).isOk = true) :
    Stored JsonText.readText .device (lampText name) := by
  cases hv : validateStoredLen (.parsing JsonText.readText) .device (lampText name) with
  | error e => rw [hv] at h; cases h
  | ok doc => exact ⟨doc, hv⟩

@[simp] theorem deviceFiles_live (device good : Option (List UInt8)) :
    deviceFiles device good APP_CONFIG_DEVICE_PATH = device := if_pos rfl

@[simp] theorem deviceFiles_good (device good : Option (List UInt8)) :
    deviceFiles device good (goodPath APP_CONFIG_DEVICE_PATH) = good := by
  have hne : goodPath APP_CONFIG_DEVICE_PATH ≠ APP_CONFIG_DEVICE_PATH := by decide
  rw [deviceFiles, if_neg hne, if_pos rfl]

@[simp] theorem deviceFiles_goodOld (device good : Option (List UInt8)) :
    deviceFiles device good (goodOldPath APP_CONFIG_DEVICE_PATH) = none := by
  have hne : goodOldPath APP_CONFIG_DEVICE_PATH ≠ APP_CONFIG_DEVICE_PATH ∧
    goodOldPath APP_CONFIG_DEVICE_PATH ≠ goodPath APP_CONFIG_DEVICE_PATH := by decide
  rw [deviceFiles, if_neg hne.1, if_neg hne.2]

@[simp] theorem lastGood_deviceFiles (device good : Option (List UInt8)) :
    lastGood APP_CONFIG_DEVICE_PATH (deviceFiles device good) = good := by
  rw [lastGood, deviceFiles_good, deviceFiles_goodOld]
  cases good <;> rfl

/-- A commit, and the document it replaces as the last-known-good copy. -/
theorem deviceFiles_replaced {device : Option (List UInt8)} {text : List UInt8} (ht : Stored JsonText.readText .device text)
    (hold : ∀ old ∈ device, Stored JsonText.readText .device old) :
    Replaces (Stored JsonText.readText .device) APP_CONFIG_DEVICE_PATH text (some .ok) (deviceFiles device none)
      (deviceFiles (some text) device) := by
  refine ⟨fun _ => ⟨ht, by simp, fun old hl _ => by simpa using hl⟩, fun s hs hne => ?_, (fun h => by cases h), ?_, ?_⟩
  · exact absurd (Option.some.inj hs).symm hne
  · intro path hpath t hd
    simp only [List.mem_cons, List.not_mem_nil, or_false] at hpath
    rcases hpath with rfl | rfl
    · rw [deviceFiles_good] at hd
      exact .inr (.inr ⟨by rw [deviceFiles_live, hd], hold t hd⟩)
    · rw [deviceFiles_goodOld] at hd
      cases hd
  · intro path hpath
    have hlive : path ≠ APP_CONFIG_DEVICE_PATH := fun e => hpath (e ▸ List.prefix_refl _)
    have hgood : path ≠ goodPath APP_CONFIG_DEVICE_PATH := fun e => hpath (e ▸ List.prefix_append _ _)
    simp only [deviceFiles, if_neg hlive, if_neg hgood]

/-- A device document committed with this name. -/
def named (name : String) : Entry .device :=
  ⟨.commit (some (lampDoc name)), some ⟨.ok, none, [⟨APP_CONFIG_DEVICE_PATH, lampText name, .ok⟩]⟩⟩

theorem named_does {device : Option (List UInt8)} {name : String}
    (ht : (validateStoredLen (.parsing JsonText.readText) .device (lampText name)).isOk = true)
    (hold : ∀ old ∈ device, Stored JsonText.readText .device old)
    (he : appConfigCommit (.on (deviceFiles device none)) JsonText.printText .device (some (lampDoc name)) =
      ⟨.ok, [⟨APP_CONFIG_DEVICE_PATH, lampText name, .ok⟩]⟩) :
    Does JsonText.readText JsonText.printText .device (deviceFiles device none) (named name)
      (deviceFiles (some (lampText name)) device) := by
  have hr : (Call.commit (some (lampDoc name)) : Call .device).exec JsonText.printText (.on (deviceFiles device none)) =
      ⟨.ok, none, [⟨APP_CONFIG_DEVICE_PATH, lampText name, .ok⟩]⟩ := by rw [Call.exec, he]
  exact .on hr (.cons (deviceFiles_replaced (lampText_stored name ht) hold) .nil)

/-- A load of the device document. -/
def loaded (disk : Disk) : Entry .device :=
  ⟨.load true, some ((Call.load true).exec JsonText.printText (.on disk))⟩

def namedTwice : Disk := deviceFiles (some (lampText "garage")) (some (lampText "kitchen"))

/-- The device is named twice, and its document is loaded. -/
theorem namedTwice_run : Run JsonText.readText JsonText.printText .device APP_CONFIG_DEVICE_PATH (deviceFiles none none)
    [loaded namedTwice, named "garage", named "kitchen"] namedTwice := by
  have hkitchen : (validateStoredLen (.parsing JsonText.readText) .device (lampText "kitchen")).isOk = true := by
    decide +kernel
  have hgarage : (validateStoredLen (.parsing JsonText.readText) .device (lampText "garage")).isOk = true := by
    decide +kernel
  have hload : ((Call.load true : Call .device).exec JsonText.printText (.on namedTwice)).commits = [] := by decide +kernel
  have first : Does JsonText.readText JsonText.printText .device (deviceFiles none none) (named "kitchen")
      (deviceFiles (some (lampText "kitchen")) none) := named_does hkitchen (by simp) (by decide +kernel)
  have second : Does JsonText.readText JsonText.printText .device (deviceFiles (some (lampText "kitchen")) none)
      (named "garage") namedTwice :=
    named_does hgarage (by simpa using lampText_stored "kitchen" hkitchen) (by decide +kernel)
  refine ((Run.nil.step first).step second).step ?_
  refine .on rfl ?_
  rw [hload]
  exact .nil

/-- The store refines the register. From the first commit that succeeds on, whatever the
files held before it, each call does to the register what it says, whatever fails on the
way; loads and migrations write nothing. -/
theorem store_refines (hk : appConfigDocPath kind = some live) (hparse : Parses parse) (hprint : Prints cJsonPrintBuffered)
    {disk₀ : Disk} {after before : List (Entry kind)} {doc : kind.Doc} {returned : Returned kind}
    (hr : Run parse cJsonPrintBuffered kind live disk₀ (after ++ ⟨.commit (some doc), some returned⟩ :: before) disk)
    (hok : returned.status = .ok) :
    (∃ r, Register.Run ⟨kind.stored doc, none⟩ (after.map Entry.event) r ∧ Keeps parse kind live disk r) ∧
      ∀ entry ∈ after, entry.Clean := by
  obtain ⟨disk₁, hold, hnew⟩ := hr.split
  exact hnew.keeps hk hparse hprint (hold.committed hk hparse hprint hok)

theorem store_refines_twice : ∃ r : Register AppConfigDocKind.device.Doc,
    Register.Run ⟨AppConfigDocKind.device.stored (lampDoc "kitchen"), none⟩
      ([loaded namedTwice, named "garage"].map Entry.event) r ∧
      Keeps JsonText.readText .device APP_CONFIG_DEVICE_PATH namedTwice r := by
  have hparse : Parses JsonText.readText := fun _ _ h => JsonText.readText_eq h
  have hprint : Prints JsonText.printText := fun members _ => JsonText.printText_object members
  have hr : Run JsonText.readText JsonText.printText .device APP_CONFIG_DEVICE_PATH (deviceFiles none none)
      ([loaded namedTwice, named "garage"] ++ named "kitchen" :: []) namedTwice := namedTwice_run
  exact (store_refines rfl hparse hprint hr rfl).1

end LedLamp.AppConfig
