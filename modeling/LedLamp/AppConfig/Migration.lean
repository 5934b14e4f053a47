import LedLamp.AppConfig.Acceptance
/-!
# Migrating the stored document

`app_config_migrate_stored` reads the live document, hands an older one to the
registered handler and commits what the handler makes of it, if that validates.
`migrate_contract` holds whatever the handler does and the commit answers: no more
than one commit, of a valid text only, and a document that was migrated once is not migrated again.
-/

namespace LedLamp.AppConfig

variable {p : Platform} {kind : AppConfigDocKind} {path live : List UInt8} {calls : Nat}

/-! ## The stored document -/

/-- The file has these bytes: that is its size, and its reads return them piece by
piece, to the end or until one fails. Anything else of it may fail too. -/
structure FileIo.Has (file : FileIo) (bytes : List UInt8) : Prop where
  size : file.size = bytes.length
  reads : ∃ pieces : List (List UInt8), [] ∉ pieces ∧
    (file.reads = pieces.map .data ∧ pieces.flatten = bytes ∨
      ∃ later, file.reads = pieces.map .data ++ .error :: later ∧ pieces.flatten <+: bytes)

theorem FileIo.Holds.has {file : FileIo} {bytes : List UInt8} (h : file.Holds bytes) : file.Has bytes := by
  obtain ⟨-, hsize, -, -, pieces, hreads, hne, hbytes⟩ := h
  exact ⟨hsize, pieces, hne, .inl ⟨hreads, hbytes⟩⟩

/-- What a commit leaves of the live document: its text, or the document as it was. After
a commit that succeeded it is the text. -/
def Commit.Leaves (commit : Commit) (live live' : List UInt8) : Prop :=
  live' = commit.text ∨ live' = live ∧ commit.status ≠ .ok

/-- What the commits of a call leave of the live document, one after the other. -/
def Leaves : List Commit → (live live' : List UInt8) → Prop
  | [], live, live' => live' = live
  | commit :: commits, live, live' => ∃ next, commit.Leaves live next ∧ Leaves commits next live'

/-- What is read of a file is what it has. -/
theorem readWholeFile_has {file : FileIo} {bytes buf : List UInt8} (h : file.Has bytes)
    (hr : readWholeFile file APP_CONFIG_WORK_BUF_BYTES = .ok buf) : buf = bytes := by
  obtain ⟨hsize, pieces, hne, hreads⟩ := h
  unfold readWholeFile at hr
  rw [if_neg (by decide)] at hr
  split at hr
  · cases hr
  split at hr
  · cases hr
  rename_i hlen
  rw [hsize, Nat.not_lt] at hlen
  split at hr
  · cases hr
  split at hr
  · cases hr
  rename_i buf' hloop
  obtain rfl : buf' = buf := by
    split at hr
    · cases hr
    split at hr
    · cases hr
    · exact Except.ok.inj hr
  rcases hreads with ⟨hreads, rfl⟩ | ⟨later, hreads, hpre⟩
  · rw [hreads, ← List.append_nil (pieces.map _), readLoop_pieces pieces [] [] hne (by simpa using hlen)] at hloop
    simpa [readLoop] using hloop.symm
  · -- A read that fails is never taken for the end of the file.
    have hfits : ([] ++ pieces.flatten).length ≤ APP_CONFIG_MAX_FILE_BYTES := hpre.length_le.trans hlen
    rw [hreads, readLoop_pieces pieces _ [] hne hfits, readLoop, if_pos hfits] at hloop
    cases hloop

/-! ## One call -/

/-- The ways a migration ends: it fails without a commit, finds a valid document, or
commits what the handler made of an older one. -/
theorem migrateStored_paths (hk : appConfigDocPath kind = some path) (calls : Nat) :
    (∃ status calls', appConfigMigrateStored p kind calls = ⟨.error status, [], calls'⟩) ∨
    (∃ buf doc, readWholeFile (p.files path) APP_CONFIG_WORK_BUF_BYTES = .ok buf ∧ validateStoredLen p kind buf = .ok doc ∧
      appConfigMigrateStored p kind calls = ⟨.ok, [], calls⟩) ∨
    ∃ text status doc calls', validateKind p kind (some text) = .ok doc ∧ cstr text = text ∧
      appConfigMigrateStored p kind calls = ⟨mapCommitStatus status, [⟨path, text, status⟩], calls'⟩ := by
  simp only [appConfigMigrateStored, hk]
  cases hr : readWholeFile (p.files path) APP_CONFIG_WORK_BUF_BYTES with
  | error status => exact .inl ⟨status, calls, rfl⟩
  | ok buf =>
    dsimp only
    cases hv : validateStoredLen p kind buf with
    | ok doc => exact .inr (.inl ⟨buf, doc, rfl, hv, rfl⟩)
    | error status =>
      -- Only an older version is handed on; any other error is the answer.
      by_cases hs : status = .errMigration
      · simp only [if_pos hs]
        cases hx : extractSchemaVersion p (some buf) with
        | error v => exact .inl ⟨v, calls, rfl⟩
        | ok version =>
          have migrated : ∀ out, (migrateJson p kind buf version calls).1 = .ok out → _ := fun out => migrateJson_ok_iff.1
          dsimp only
          generalize migrateJson p kind buf version calls = r at migrated ⊢
          rcases r with ⟨status | mig, calls'⟩
          · exact .inl ⟨status, calls', rfl⟩
          · obtain ⟨handler, -, -, -, doc, hdoc⟩ := migrated mig rfl
            refine .inr (.inr ⟨cstr mig.chars, p.hqJsonDocCommit path (cstr mig.chars) APP_CONFIG_MAX_FILE_BYTES
              (appConfigPlatformValidator p kind), doc, calls', ?_, cstr_cstr _, ?_⟩)
            · rw [validateKind_cstr]
              exact hdoc
            · simp only [appConfigPlatformCommit, hk, Option.getD_some]
      · simp only [if_neg hs]
        exact .inl ⟨status, calls, rfl⟩

/-- A text that validates is a document as it would be stored. -/
theorem validateStoredLen_of_text {text : List UInt8} {doc : kind.Doc} (hv : validateKind p kind (some text) = .ok doc)
    (hc : cstr text = text) : validateStoredLen p kind text = .ok doc := by
  have hlen : text.length ≤ APP_CONFIG_MAX_FILE_BYTES := by
    have := validateKind_length p hv
    rwa [strlen, hc] at this
  rw [validateStoredLen_text hlen (hc ▸ zero_not_mem_cstr text), hv]

/-- What validates depends on the parse only. -/
theorem validateStoredLen_parse {p' : Platform} (hp : p'.cJsonParseWithLengthOpts = p.cJsonParseWithLengthOpts)
    (bytes : List UInt8) : validateStoredLen p' kind bytes = validateStoredLen p kind bytes := by
  unfold validateStoredLen
  cases kind with
  | device => simp only [validateKind, hp]
  | manufacturing => simp only [validateKind, hp]
  | other value => rfl

/-- A valid document that can be read is left alone. -/
theorem migrateStored_valid (hk : appConfigDocPath kind = some path) (hh : (p.files path).Holds live) {doc : kind.Doc}
    (hv : validateStoredLen p kind live = .ok doc) : appConfigMigrateStored p kind calls = ⟨.ok, [], calls⟩ := by
  have hlen : live.length ≤ APP_CONFIG_MAX_FILE_BYTES := by
    by_contra hlen
    simp [validateStoredLen, Nat.not_le.1 hlen] at hv
  simp only [appConfigMigrateStored, hk, readWholeFile_holds hh, if_pos hlen, hv]

/-! ## The contract -/

/-- What a migration promises of the stored document. -/
structure MigrateContract (p : Platform) (kind : AppConfigDocKind) (path live : List UInt8) (r : Migrated) : Prop where
  once : r.commits.length ≤ 1
  valid : ∀ commit ∈ r.commits, commit.path = path ∧ ∃ doc, validateStoredLen p kind commit.text = .ok doc
  untouched : r.commits = [] → (∀ live', Leaves r.commits live live' → live' = live) ∧
    ((∃ status, r.status = .error status) ∨ ∃ doc, validateStoredLen p kind live = .ok doc)
  again : r.status = .ok → ∀ live', Leaves r.commits live live' → ∀ p' : Platform,
    p'.cJsonParseWithLengthOpts = p.cJsonParseWithLengthOpts → (p'.files path).Holds live' →
    ∀ calls, appConfigMigrateStored p' kind calls = ⟨.ok, [], calls⟩

/-- Whatever is stored, the handler does and the commit answers, a migration keeps the
contract. -/
theorem migrate_contract (p : Platform) {kind : AppConfigDocKind} {path live : List UInt8}
    (hk : appConfigDocPath kind = some path) (hlive : (p.files path).Has live) (calls : Nat) :
    MigrateContract p kind path live (appConfigMigrateStored p kind calls) := by
  -- A later call finds a document that validates.
  have later : ∀ {live' : List UInt8} {doc : kind.Doc}, validateStoredLen p kind live' = .ok doc → ∀ p' : Platform,
      p'.cJsonParseWithLengthOpts = p.cJsonParseWithLengthOpts → (p'.files path).Holds live' →
      ∀ calls, appConfigMigrateStored p' kind calls = ⟨.ok, [], calls⟩ :=
    fun hv p' hp hh calls => migrateStored_valid hk hh ((validateStoredLen_parse hp _).trans hv)
  rcases migrateStored_paths (p := p) hk calls with
    ⟨status, calls', e⟩ | ⟨buf, doc, hr, hv, e⟩ | ⟨text, status, doc, calls', hv, hc, e⟩ <;> rw [e]
  · exact ⟨by simp, by simp, fun _ => ⟨fun _ h => h, .inl ⟨status, rfl⟩⟩, fun h => by cases h⟩
  · obtain rfl := readWholeFile_has hlive hr
    refine ⟨by simp, by simp, fun _ => ⟨fun _ h => h, .inr ⟨doc, hv⟩⟩, ?_⟩
    rintro - live' rfl
    exact later hv
  · have hstored := validateStoredLen_of_text hv hc
    refine ⟨Nat.le_refl 1, ?_, fun h => (List.cons_ne_nil _ _ h).elim, ?_⟩
    · intro commit hcommit
      obtain rfl := List.mem_singleton.1 hcommit
      exact ⟨rfl, doc, hstored⟩
    · rintro hok live' ⟨next, hnext, rfl⟩
      -- The commit succeeded, so the document is its text.
      rcases hnext with rfl | ⟨-, hne⟩
      · exact later hstored
      · exact absurd (mapCommitStatus_ok hok) hne

/-! ## A legacy document -/

def legacyText : List UInt8 := ascii "\x7b\"schema_version\":0,\"product\":\"lamp\",\"device_name\":\"kitchen\"\x7d"

/-- A device with the legacy document, and a handler that writes one of the current schema. -/
def Platform.legacy : Platform :=
  { Platform.ofFiles (.stored legacyText) .missing with
    migrationHandler := some fun _ _ _ => (.ok, .ofStr _ olderText) }

theorem migrate_contract_legacy :
    appConfigMigrateStored .legacy .device 0 = ⟨.ok, [⟨APP_CONFIG_DEVICE_PATH, olderText, .ok⟩], 1⟩ ∧
      MigrateContract .legacy .device APP_CONFIG_DEVICE_PATH legacyText (appConfigMigrateStored .legacy .device 0) := by
  have hlive : (Platform.legacy.files APP_CONFIG_DEVICE_PATH).Has legacyText :=
    (FileIo.stored_holds (by decide +kernel)).has
  exact ⟨by decide +kernel, migrate_contract .legacy rfl hlive 0⟩

end LedLamp.AppConfig
