import LedLamp.AppConfig.Load
import LedLamp.JsonMembers
import LedLamp.JsonReader
/-!
# What a load returns, writes and commits

A file yields a document when its bytes validate as stored, or are of an older
schema and the handler's output validates (`Yields`). `loadKind_contract` states
the whole of `load_kind` in these terms: the live document first, then the
first backup that yields one, committed before it is handed out.

A live document of a newer schema is one that does not yield, so an older backup
replaces it (`newer_kept`, `newer_overwritten`).
-/

namespace LedLamp.AppConfig

open JsonText (readText)

variable (p : Platform)

/-! ## What a file yields -/

/-- A validator sees its text up to the first 0 byte. -/
theorem validateJson_cstr {Doc : Type} (parse : List UInt8 → Option Json) (keys : List String)
    (fields : UInt32 → Json → Except AppConfigError Doc) (s : List UInt8) :
    validateJson parse keys fields (some (cstr s)) = validateJson parse keys fields (some s) := by
  simp only [validateJson, strlen_cstr, cstr_cstr, rawJsonHasNulEscape]

theorem validateKind_cstr (kind : AppConfigDocKind) (s : List UInt8) :
    validateKind p kind (some (cstr s)) = validateKind p kind (some s) := by
  cases kind with
  | device => exact validateJson_cstr _ _ _ s
  | manufacturing => exact validateJson_cstr _ _ _ s
  | other value => rfl

/-- A text that validates is within the bound. -/
theorem validateKind_length {kind : AppConfigDocKind} {s : List UInt8} {doc : kind.Doc}
    (h : validateKind p kind (some s) = .ok doc) : strlen s ≤ APP_CONFIG_MAX_FILE_BYTES := by
  by_contra hlen
  rw [Nat.not_le] at hlen
  cases kind with
  | device => simp [validateKind, appConfigValidateDeviceJson, validateJson, hlen] at h
  | manufacturing => simp [validateKind, appConfigValidateManufacturingJson, validateJson, hlen] at h
  | other value => simp [validateKind] at h

/-- Stored bytes that validate are one text, without a 0 byte. -/
theorem validateStoredLen_cases (kind : AppConfigDocKind) (buf : List UInt8) :
    (∃ status, validateStoredLen p kind buf = .error status ∧ status ≠ .errMigration) ∨
    cstr buf = buf ∧ validateStoredLen p kind buf = validateKind p kind (some buf) := by
  unfold validateStoredLen
  split
  · exact .inl ⟨_, rfl, by simp⟩
  split
  · exact .inl ⟨_, rfl, by simp⟩
  · rename_i h
    refine .inr ⟨cstr_of_not_mem fun hmem => h ⟨List.length_pos_of_mem hmem, by simpa using hmem⟩, rfl⟩

/-- The file at `path` yields a document with its validated text: its bytes as
they are, or what the handler, at its `calls`-th call, makes of an older schema. -/
def Yields (kind : AppConfigDocKind) (path : List UInt8) (calls : Nat) (doc : kind.Doc) (text : List UInt8) : Prop :=
  ∃ bytes, readWholeFile (p.files path) APP_CONFIG_WORK_BUF_BYTES = .ok bytes ∧
    (validateStoredLen p kind bytes = .ok doc ∧ text = bytes ∨
     validateStoredLen p kind bytes = .error .errMigration ∧ validateKind p kind (some text) = .ok doc ∧
      ∃ handler version out, p.migrationHandler = some handler ∧
        extractSchemaVersion p (some bytes) = .ok version ∧ handler calls bytes version = (.ok, out) ∧
        0 ∈ out.chars ∧ text = out.str)

variable {p} {kind : AppConfigDocKind} {path : List UInt8} {calls : Nat} {doc : kind.Doc} {text : List UInt8}

/-- The text a file yields validates, to the same document. -/
theorem Yields.valid (h : Yields p kind path calls doc text) :
    validateKind p kind (some text) = .ok doc ∧ cstr text = text := by
  obtain ⟨bytes, -, ⟨hv, rfl⟩ | ⟨-, hv, _, _, out, -, -, -, -, rfl⟩⟩ := h
  · rcases validateStoredLen_cases p kind text with ⟨status, he, -⟩ | ⟨hc, he⟩
    · rw [he] at hv; cases hv
    · exact ⟨he ▸ hv, hc⟩
  · exact ⟨hv, cstr_cstr _⟩

theorem Yields.unique {doc' : kind.Doc} {text' : List UInt8} (h : Yields p kind path calls doc text)
    (h' : Yields p kind path calls doc' text') : doc = doc' ∧ text = text' := by
  obtain ⟨bytes, hr, h⟩ := h
  obtain ⟨bytes', hr', h'⟩ := h'
  obtain rfl : bytes = bytes' := Except.ok.inj (hr.symm.trans hr')
  rcases h with ⟨hv, rfl⟩ | ⟨he, hv, handler, version, out, hh, hx, hm, -, rfl⟩ <;>
    rcases h' with ⟨hv', rfl⟩ | ⟨he', hv', handler', version', out', hh', hx', hm', -, rfl⟩
  · exact ⟨Except.ok.inj (hv.symm.trans hv'), rfl⟩
  · rw [hv] at he'; cases he'
  · rw [he] at hv'; cases hv'
  · obtain rfl := Option.some.inj (hh.symm.trans hh')
    obtain rfl := Except.ok.inj (hx.symm.trans hx')
    obtain rfl := (Prod.mk.inj (hm.symm.trans hm')).2
    exact ⟨Except.ok.inj (hv.symm.trans hv'), rfl⟩

/-! ## Loading one file -/

/-- The copy to `out_json` has room for every text that validates. -/
theorem copyOut_valid {outCap : Option Nat} (hcap : ∀ c ∈ outCap, APP_CONFIG_MAX_FILE_BYTES < c) {s : List UInt8}
    (hv : validateKind p kind (some s) = .ok doc) : copyOut outCap doc s = .ok (doc, cstr s) := by
  cases outCap with
  | none => rfl
  | some c => exact if_pos (Nat.lt_of_le_of_lt (validateKind_length p hv) (hcap c rfl))

/-- A migration succeeds exactly when the handler reports success and leaves a
terminated text of the current schema. -/
theorem migrateJson_ok_iff {json : List UInt8} {version : UInt32} {out : CharArray APP_CONFIG_WORK_BUF_BYTES} :
    (migrateJson p kind json version calls).1 = .ok out ↔
      ∃ handler, p.migrationHandler = some handler ∧ handler calls (cstr json) version = (.ok, out) ∧
        0 ∈ out.chars ∧ ∃ doc, validateKind p kind (some out.chars) = .ok doc := by
  unfold migrateJson
  cases hh : p.migrationHandler with
  | none => simp
  | some handler =>
    simp only [Option.some.injEq, exists_eq_left']
    rcases hm : handler calls (cstr json) version with ⟨rc, out'⟩
    dsimp only
    split
    · rename_i hrc
      exact iff_of_false (by simp) fun h => hrc (congrArg Prod.fst h.1)
    split
    · rename_i h0
      refine iff_of_false (by simp) ?_
      rintro ⟨e, hmem, -⟩
      cases e
      simp [hmem] at h0
    · rename_i hrc h0
      split
      · rename_i status hv
        refine iff_of_false (by simp) ?_
        rintro ⟨e, -, d, hd⟩
        cases e
        rw [hv] at hd; cases hd
      · rename_i d hv
        constructor
        · intro e
          cases e
          exact ⟨by rw [Classical.not_not.1 hrc], by simpa using h0, d, hv⟩
        · rintro ⟨e, -⟩
          rw [(Prod.mk.inj e).2]

theorem loadLegacy_ok_iff {buf s : List UInt8} (hb : cstr buf = buf) :
    (loadLegacy p kind buf calls).1 = .ok (doc, s) ↔
      validateKind p kind (some s) = .ok doc ∧ ∃ handler version out, p.migrationHandler = some handler ∧
        extractSchemaVersion p (some buf) = .ok version ∧ handler calls buf version = (.ok, out) ∧
        0 ∈ out.chars ∧ s = out.chars := by
  unfold loadLegacy
  cases hx : extractSchemaVersion p (some buf) with
  | error v => simp
  | ok version =>
    have migrated : ∀ out, (migrateJson p kind buf version calls).1 = .ok out ↔ _ := fun out => migrateJson_ok_iff
    dsimp only
    generalize migrateJson p kind buf version calls = r at migrated ⊢
    rcases r with ⟨_ | mig, n⟩
    · refine iff_of_false (by simp) ?_
      rintro ⟨hv, handler, v, out, hh, hx', hm, h0, rfl⟩
      cases hx'
      have := (migrated out).2 ⟨handler, hh, by rwa [hb], h0, doc, hv⟩
      cases this
    · obtain ⟨handler, hh, hm, h0, d, hv⟩ := (migrated mig).1 rfl
      rw [hb] at hm
      simp only [hv, Except.ok.injEq, Prod.mk.injEq]
      constructor
      · rintro ⟨rfl, rfl⟩
        exact ⟨hv, handler, version, mig, hh, rfl, hm, h0, rfl⟩
      · rintro ⟨hv', handler', v, out, hh', rfl, hm', h0', rfl⟩
        cases hh.symm.trans hh'
        cases hm.symm.trans hm'
        exact ⟨Except.ok.inj (hv.symm.trans hv'), rfl⟩

/-- Stored bytes of an older schema are one text. -/
theorem cstr_of_migration {buf : List UInt8} (hm : validateStoredLen p kind buf = .error .errMigration) :
    cstr buf = buf := by
  rcases validateStoredLen_cases p kind buf with ⟨status, hv, hne⟩ | ⟨hc, -⟩
  · exact absurd (Except.error.inj (hv.symm.trans hm)) hne
  · exact hc

/-- What a file yields, in terms of the bytes read from it. -/
theorem yields_read {buf : List UInt8} (hr : readWholeFile (p.files path) APP_CONFIG_WORK_BUF_BYTES = .ok buf) :
    Yields p kind path calls doc text ↔
      validateStoredLen p kind buf = .ok doc ∧ text = buf ∨
      validateStoredLen p kind buf = .error .errMigration ∧
        ∃ s, (loadLegacy p kind buf calls).1 = .ok (doc, s) ∧ text = cstr s := by
  simp only [Yields, hr, Except.ok.injEq, exists_eq_left']
  refine or_congr Iff.rfl (and_congr_right fun hm => ?_)
  have hc := cstr_of_migration hm
  constructor
  · rintro ⟨hv, handler, version, out, hh, hx, hrun, h0, rfl⟩
    rw [CharArray.str, validateKind_cstr] at hv
    exact ⟨out.chars, (loadLegacy_ok_iff hc).2 ⟨hv, handler, version, out, hh, hx, hrun, h0, rfl⟩, rfl⟩
  · rintro ⟨s, hs, rfl⟩
    obtain ⟨hv, handler, version, out, hh, hx, hrun, h0, rfl⟩ := (loadLegacy_ok_iff hc).1 hs
    exact ⟨by rwa [validateKind_cstr], handler, version, out, hh, hx, hrun, h0, rfl⟩

/-- A load of one file succeeds exactly with what the file yields. -/
theorem loadFromPath_ok_iff {outCap : Option Nat} (hcap : ∀ c ∈ outCap, APP_CONFIG_MAX_FILE_BYTES < c) :
    (loadFromPath p kind path outCap calls).1 = .ok (doc, text) ↔ Yields p kind path calls doc text := by
  unfold loadFromPath
  cases hr : readWholeFile (p.files path) APP_CONFIG_WORK_BUF_BYTES with
  | error status => simp [Yields, hr]
  | ok buf =>
    rw [yields_read hr]
    cases hv : validateStoredLen p kind buf with
    | ok d =>
      rcases validateStoredLen_cases p kind buf with ⟨status, he, -⟩ | ⟨hc, hk⟩
      · rw [hv] at he
        cases he
      · simp [hv, copyOut_valid hcap (hk.symm.trans hv), hc, eq_comm]
    | error status =>
      by_cases hs : status = .errMigration
      · -- The bytes are of an older schema: what is loaded is what the handler made of them.
        subst hs
        have copied : ∀ d s, (loadLegacy p kind buf calls).1 = .ok (d, s) → copyOut outCap d s = .ok (d, cstr s) :=
          fun d s h => copyOut_valid hcap ((loadLegacy_ok_iff (cstr_of_migration hv)).1 h).1
        simp only [hv, if_true]
        generalize loadLegacy p kind buf calls = r at copied ⊢
        rcases r with ⟨status | ⟨d, s⟩, n⟩
        · simp
        · simp [copied d s rfl, and_assoc, eq_comm]
      · simp [hv, hs]

/-! ## The backups -/

variable (p)

/-- The handler calls made once the live document was loaded. -/
def callsAfterLive (kind : AppConfigDocKind) (live : List UInt8) : Nat := (loadFromPath p kind live none 0).2

/-- The handler calls made once `.good` was loaded too. -/
def callsAfterGood (kind : AppConfigDocKind) (live : List UInt8) : Nat :=
  (loadFromPath p kind (live ++ ascii ".good") (some APP_CONFIG_WORK_BUF_BYTES) (callsAfterLive p kind live)).2

/-- The first backup, in the order `.good` then `.good.old`, that yields a document. -/
def FirstBackup (kind : AppConfigDocKind) (live : List UInt8) (doc : kind.Doc) (text : List UInt8) : Prop :=
  Yields p kind (live ++ ascii ".good") (callsAfterLive p kind live) doc text ∨
  (¬ ∃ d t, Yields p kind (live ++ ascii ".good") (callsAfterLive p kind live) d t) ∧
    Yields p kind (live ++ ascii ".good.old") (callsAfterGood p kind live) doc text

theorem backupPaths_eq {live : List UInt8} (hk : appConfigDocPath kind = some live) :
    backupPaths p kind = [live ++ ascii ".good", live ++ ascii ".good.old"] := by
  have hlen : live.length ≤ 26 := by
    cases kind with
    | device => cases hk; decide
    | manufacturing => cases hk; decide
    | other value => cases hk
  have hgood : (ascii ".good").length = 5 := by decide
  have hold : (ascii ".good.old").length = 9 := by decide
  have hfits := p.path_fits
  have path : ∀ suffix : String, 0 < (ascii suffix).length → (ascii suffix).length ≤ 9 →
      buildVariantPath kind suffix p.osalMaxPathLen = some (live ++ ascii suffix) := by
    intro suffix hpos hle
    simp only [buildVariantPath, hk, List.length_append]
    exact if_pos ⟨by omega, by omega⟩
  rw [backupPaths, path ".good" (by omega) (by omega), path ".good.old" (by omega) (by omega)]
  rfl

variable {p}

theorem loadBackups_ok_iff {live : List UInt8} (hk : appConfigDocPath kind = some live) :
    (loadBackups p kind (backupPaths p kind) (callsAfterLive p kind live)).1 = .ok (doc, text) ↔
      FirstBackup p kind live doc text := by
  have hcap : ∀ c ∈ some APP_CONFIG_WORK_BUF_BYTES, APP_CONFIG_MAX_FILE_BYTES < c := by decide
  have good : ∀ d t, (loadFromPath p kind (live ++ ascii ".good") (some APP_CONFIG_WORK_BUF_BYTES)
      (callsAfterLive p kind live)).1 = .ok (d, t) ↔ _ := fun d t => loadFromPath_ok_iff hcap
  have old : ∀ d t, (loadFromPath p kind (live ++ ascii ".good.old") (some APP_CONFIG_WORK_BUF_BYTES)
      (callsAfterGood p kind live)).1 = .ok (d, t) ↔ _ := fun d t => loadFromPath_ok_iff hcap
  have hn : callsAfterGood p kind live = (loadFromPath p kind (live ++ ascii ".good")
      (some APP_CONFIG_WORK_BUF_BYTES) (callsAfterLive p kind live)).2 := rfl
  rw [backupPaths_eq p hk, FirstBackup]
  simp only [loadBackups]
  generalize loadFromPath p kind (live ++ ascii ".good") (some APP_CONFIG_WORK_BUF_BYTES)
    (callsAfterLive p kind live) = r at good hn ⊢
  rcases r with ⟨status | ⟨d, t⟩, n⟩
  · -- `.good` yields nothing, so `.good.old` decides.
    have hnone : ¬ ∃ d t, Yields p kind (live ++ ascii ".good") (callsAfterLive p kind live) d t := by
      rintro ⟨d, t, hy⟩
      cases (good d t).2 hy
    obtain rfl : callsAfterGood p kind live = n := hn
    simp only [List.cons_ne_nil, if_false]
    rw [← old doc text]
    generalize loadFromPath p kind (live ++ ascii ".good.old") (some APP_CONFIG_WORK_BUF_BYTES)
      (callsAfterGood p kind live) = r
    rcases r with ⟨status | loaded, n⟩
    · refine iff_of_false (by simp) ?_
      rintro (hy | ⟨-, h⟩)
      · exact hnone ⟨doc, text, hy⟩
      · cases h
    · exact ⟨fun h => .inr ⟨hnone, h⟩, fun h => h.elim (fun hy => absurd ⟨doc, text, hy⟩ hnone) (·.2)⟩
  · have hy := (good d t).1 rfl
    constructor
    · intro h
      cases h
      exact .inl hy
    · rintro (h | ⟨hnone, -⟩)
      · rw [(hy.unique h).1, (hy.unique h).2]
      · exact absurd ⟨d, t, hy⟩ hnone

/-- The text of the first backup validates. -/
theorem FirstBackup.valid {live : List UInt8} (h : FirstBackup p kind live doc text) :
    validateKind p kind (some text) = .ok doc ∧ cstr text = text := by
  rcases h with h | ⟨-, h⟩
  · exact h.valid
  · exact h.valid

/-! ## The contract -/

theorem mapCommitStatus_ok {status : HqJsonDocStatus} (h : mapCommitStatus status = .ok) : status = .ok := by
  cases status <;> simp [mapCommitStatus] at h ⊢

theorem mapCommitStatus_ne (status : HqJsonDocStatus) :
    mapCommitStatus status ≠ .okRecovered ∧ mapCommitStatus status ≠ .error .errUnknownSchema := by
  cases status <;> simp [mapCommitStatus]

/-- Every path of a load: the live document, an I/O error on it, its error when
no backup yields a document, or the first backup that does, committed. -/
theorem loadKind_paths {live : List UInt8} (hk : appConfigDocPath kind = some live) :
    (∃ doc text, Yields p kind live 0 doc text ∧ loadKind p kind true = ⟨.ok, some doc, []⟩) ∨
    ∃ status, (loadFromPath p kind live none 0).1 = .error status ∧
      ((status = .errIo ∨ ¬ ∃ doc text, FirstBackup p kind live doc text) ∧
        loadKind p kind true = ⟨.error status, none, []⟩ ∨
       status ≠ .errIo ∧ ∃ doc text, FirstBackup p kind live doc text ∧ ∃ committed,
        committed = p.hqJsonDocCommit live text APP_CONFIG_MAX_FILE_BYTES (appConfigPlatformValidator p kind) ∧
        loadKind p kind true =
          if committed = .ok then ⟨.okRecovered, some doc, [⟨live, text, .ok⟩]⟩
          else ⟨mapCommitStatus committed, none, [⟨live, text, committed⟩]⟩) := by
  have first : ∀ doc text, (loadFromPath p kind live none 0).1 = .ok (doc, text) ↔ _ :=
    fun doc text => loadFromPath_ok_iff (by simp)
  have backup : ∀ doc text, (loadBackups p kind (backupPaths p kind) (callsAfterLive p kind live)).1 =
      .ok (doc, text) ↔ _ := fun doc text => loadBackups_ok_iff hk
  have hn : callsAfterLive p kind live = (loadFromPath p kind live none 0).2 := rfl
  have hpos : 0 < (backupPaths p kind).length := by rw [backupPaths_eq p hk]; simp
  simp only [loadKind, hk, Bool.not_true, Bool.false_eq_true, if_false, hpos, and_true]
  -- The outcomes of the live document and of the backups are all the rest depends on.
  generalize loadFromPath p kind live none 0 = r at first hn ⊢
  rcases r with ⟨status | ⟨doc, text⟩, n⟩
  · right
    refine ⟨status, rfl, ?_⟩
    obtain rfl : callsAfterLive p kind live = n := hn
    by_cases hio : status = .errIo
    · exact .inl ⟨.inl hio, by simp [hio]⟩
    · simp only [ne_eq, hio, not_false_eq_true, if_true, true_and, false_or]
      generalize loadBackups p kind (backupPaths p kind) (callsAfterLive p kind live) = r at backup ⊢
      rcases r with ⟨_ | ⟨doc, text⟩, n⟩
      · refine .inl ⟨?_, rfl⟩
        rintro ⟨doc, text, hb⟩
        cases (backup doc text).2 hb
      · have hb := (backup doc text).1 rfl
        refine .inr ⟨doc, text, hb, _, rfl, ?_⟩
        simp only [appConfigPlatformCommit, hk, Option.getD_some, hb.valid.2]
        generalize p.hqJsonDocCommit live text APP_CONFIG_MAX_FILE_BYTES (appConfigPlatformValidator p kind) = committed
        by_cases hc : committed = .ok
        · simp [hc, mapCommitStatus]
        · rw [if_neg fun h => hc (mapCommitStatus_ok h), if_neg hc]
  · exact .inl ⟨doc, text, (first doc text).1 rfl, rfl⟩

/-- The live document exists and cannot be read right now: a status of the file
API other than "missing" stands in the way. -/
def FileIo.Broken (file : FileIo) : Prop :=
  file.stat ≠ .success ∧ statusIsMissing file.stat = false ∨
  file.stat = .success ∧ file.size ≤ APP_CONFIG_MAX_FILE_BYTES ∧
    (file.fd < 0 ∨ readLoop APP_CONFIG_WORK_BUF_BYTES file.reads [] = none ∨ file.close ≠ .success)

theorem readWholeFile_broken {file : FileIo} (h : file.Broken) :
    readWholeFile file APP_CONFIG_WORK_BUF_BYTES = .error .errIo := by
  unfold readWholeFile
  rw [if_neg (by decide)]
  -- Whichever of the four statuses it is, the source answers with one error.
  rcases h with ⟨hs, hm⟩ | ⟨hs, hsize, h⟩
  · simp [hs, hm]
  · rw [if_neg (by simp [hs]), if_neg (by omega)]
    cases hl : readLoop APP_CONFIG_WORK_BUF_BYTES file.reads [] with
    | none => simp
    | some buf =>
      rcases h with h | h | h
      · rw [if_pos h]
      · rw [hl] at h; cases h
      · simp [h]

/-- What a load promises about its status, `*doc` and the storage. -/
structure LoadContract (p : Platform) (kind : AppConfigDocKind) (live : List UInt8) (r : Loaded kind) : Prop where
  written : r.written.isSome = true ↔ r.status = .ok ∨ r.status = .okRecovered
  ok : r.status = .ok → r.commits = [] ∧ ∃ doc text, r.written = some doc ∧ Yields p kind live 0 doc text
  recovered : r.status = .okRecovered → ∃ doc text, r.written = some doc ∧ FirstBackup p kind live doc text ∧
    validateKind p kind (some text) = .ok doc ∧ r.commits = [⟨live, text, .ok⟩]
  broken : (p.files live).Broken → r = ⟨.error .errIo, none, []⟩
  unusable : (¬ ∃ doc text, FirstBackup p kind live doc text) → ∀ status,
    (loadFromPath p kind live none 0).1 = .error status → r = ⟨.error status, none, []⟩
  commit_fails : ∀ commit ∈ r.commits, commit.status ≠ .ok → r = ⟨mapCommitStatus commit.status, none, [commit]⟩

theorem loadKind_contract (p : Platform) {kind : AppConfigDocKind} {live : List UInt8}
    (hk : appConfigDocPath kind = some live) : LoadContract p kind live (loadKind p kind true) := by
  have broken : (p.files live).Broken → (loadFromPath p kind live none 0).1 = .error .errIo := fun hb => by
    simp [loadFromPath, readWholeFile_broken hb]
  rcases loadKind_paths (p := p) hk with
    ⟨doc, text, hy, e⟩ | ⟨status, hs, ⟨-, e⟩ | ⟨hio, doc, text, hb, committed, -, e⟩⟩
  · -- The live document loads.
    have hok : (loadFromPath p kind live none 0).1 = .ok (doc, text) := (loadFromPath_ok_iff (by simp)).2 hy
    refine ⟨?_, ?_, ?_, ?_, ?_, ?_⟩ <;> rw [e]
    · simp
    · exact fun _ => ⟨rfl, doc, text, rfl, hy⟩
    · exact fun h => by cases h
    · exact fun hb => by cases hok.symm.trans (broken hb)
    · exact fun _ status hs => by cases hok.symm.trans hs
    · simp
  · -- It does not, and no backup replaces it.
    refine ⟨?_, ?_, ?_, ?_, ?_, ?_⟩ <;> rw [e]
    · simp
    · exact fun h => by cases h
    · exact fun h => by cases h
    · exact fun hb => by rw [Except.error.inj (hs.symm.trans (broken hb))]
    · exact fun _ status' hs' => by rw [Except.error.inj (hs.symm.trans hs')]
    · simp
  · -- A backup replaces it, if it can be committed.
    have hbroken : ¬ (p.files live).Broken := fun hb => hio (Except.error.inj (hs.symm.trans (broken hb)))
    by_cases hc : committed = .ok
    · rw [if_pos hc] at e
      refine ⟨?_, ?_, ?_, ?_, ?_, ?_⟩ <;> rw [e]
      · simp
      · exact fun h => by cases h
      · exact fun _ => ⟨doc, text, rfl, hb, hb.valid.1, rfl⟩
      · exact fun h => absurd h hbroken
      · exact fun hno => absurd ⟨doc, text, hb⟩ hno
      · simp
    · rw [if_neg hc] at e
      have hok : mapCommitStatus committed ≠ .ok := fun h => hc (mapCommitStatus_ok h)
      refine ⟨?_, ?_, ?_, ?_, ?_, ?_⟩ <;> rw [e]
      · simp [hok, (mapCommitStatus_ne committed).1]
      · exact fun h => absurd h hok
      · exact fun h => absurd h (mapCommitStatus_ne committed).1
      · exact fun h => absurd h hbroken
      · exact fun hno => absurd ⟨doc, text, hb⟩ hno
      · simp

/-- Both loads keep the contract, whatever the files hold and the platform answers. -/
theorem load_contract (p : Platform) :
    LoadContract p .device APP_CONFIG_DEVICE_PATH (appConfigLoadDevice p true) ∧
      LoadContract p .manufacturing APP_CONFIG_MANUFACTURING_PATH (appConfigLoadManufacturing p true) :=
  ⟨loadKind_contract p rfl, loadKind_contract p rfl⟩

/-! ## A document of a newer schema -/

/-- The file can be read and holds `bytes`, whatever pieces the reads return. -/
def FileIo.Holds (file : FileIo) (bytes : List UInt8) : Prop :=
  file.stat = .success ∧ file.size = bytes.length ∧ 0 ≤ file.fd ∧ file.close = .success ∧
    ∃ pieces : List (List UInt8), file.reads = pieces.map .data ∧ [] ∉ pieces ∧ pieces.flatten = bytes

/-- One JSON object, with an integral `schema_version` above the current one. -/
def Newer (p : Platform) (bytes : List UInt8) : Prop :=
  (0 : UInt8) ∉ bytes ∧ ∃ members v, p.cJsonParseWithLengthOpts (bytes ++ [0]) = some (.object members) ∧
    (Json.object members).item (ascii "schema_version") = some (.number v) ∧ v.cmp v.truncate = .eq ∧
    v.cmp APP_CONFIG_SCHEMA_VERSION.toNat = .gt

/-- Pieces that fit are read one after the other, whatever is read next. -/
theorem readLoop_pieces (pieces : List (List UInt8)) (reads : List ReadResult) (buf : List UInt8) (hne : [] ∉ pieces)
    (hlen : (buf ++ pieces.flatten).length ≤ APP_CONFIG_MAX_FILE_BYTES) :
    readLoop APP_CONFIG_WORK_BUF_BYTES (pieces.map .data ++ reads) buf =
      readLoop APP_CONFIG_WORK_BUF_BYTES reads (buf ++ pieces.flatten) := by
  induction pieces generalizing buf with
  | nil => simp
  | cons piece pieces ih =>
    simp only [List.mem_cons, not_or] at hne
    have hpos : 0 < piece.length := List.length_pos_iff.2 (Ne.symm hne.1)
    simp only [List.flatten_cons, List.length_append] at hlen
    have hwhole : piece.take (readWant APP_CONFIG_WORK_BUF_BYTES buf.length) = piece := by
      refine List.take_of_length_le ?_
      have : APP_CONFIG_WORK_BUF_BYTES = APP_CONFIG_MAX_FILE_BYTES + 1 := rfl
      simp only [readWant]
      split <;> split <;> omega
    simp only [List.map_cons, List.cons_append, readLoop, hwhole, if_neg (Ne.symm hne.1), List.flatten_cons,
      ← List.append_assoc]
    rw [if_pos (by omega)]
    exact ih _ hne.2 (by simpa [List.length_append, Nat.add_assoc] using hlen)

theorem readWholeFile_holds {file : FileIo} {bytes : List UInt8} (h : file.Holds bytes) :
    readWholeFile file APP_CONFIG_WORK_BUF_BYTES =
      if bytes.length ≤ APP_CONFIG_MAX_FILE_BYTES then .ok bytes else .error .errBounds := by
  obtain ⟨hstat, hsize, hfd, hclose, pieces, hreads, hne, rfl⟩ := h
  unfold readWholeFile
  rw [if_neg (by decide), if_neg (by simp [hstat]), hsize]
  by_cases hlen : pieces.flatten.length ≤ APP_CONFIG_MAX_FILE_BYTES
  · have hread := readLoop_pieces pieces [] [] hne (by simpa using hlen)
    rw [List.append_nil, List.nil_append, readLoop] at hread
    rw [if_neg (by omega), if_neg (by omega), if_pos hlen, hreads, hread]
    simp only [hclose]
    rw [if_neg (by simp), if_neg (by omega)]
  · rw [if_pos (by omega), if_neg hlen]

/-- What an integral version is read as: itself, unless it is negative or above the
current one, however large. -/
theorem getSchemaVersion_integral {root : Json} {v : Number} {k : Int}
    (hi : root.item (ascii "schema_version") = some (.number v)) (hk : v.cmp k = .eq) :
    getSchemaVersion root =
      if k < 0 then .error .errMalformed
      else if APP_CONFIG_SCHEMA_VERSION.toNat < k then .error .errUnknownSchema
      else .ok (.ofNat k.toNat) := by
  have ht := Number.truncate_of_cmp hk
  have hint : v.cmp v.truncate = .eq := by rw [ht]; exact hk
  have hcmp : ∀ j : Int, v.cmp j = compare k j := Number.cmp_of_cmp hk
  have hfin := Number.ne_infinite_of_integral hint false
  have hcur : ((APP_CONFIG_SCHEMA_VERSION.toNat : Nat) : Int) = 1 := rfl
  have hver : 0 ≤ k → k ≤ 4294967295 → (UInt32.ofNat k.toNat > APP_CONFIG_SCHEMA_VERSION ↔ 1 < k) := by
    intro h0 hle
    have hmod : k.toNat % 2 ^ 32 = k.toNat := Nat.mod_eq_of_lt (by omega)
    have hone : APP_CONFIG_SCHEMA_VERSION.toNat = 1 := rfl
    rw [gt_iff_lt, UInt32.lt_iff_toNat_lt, UInt32.toNat_ofNat', hmod, hone]
    omega
  simp only [getSchemaVersion, hi, hcmp, ht, hfin, or_false, ne_eq, Int.compare_eq_lt, Int.compare_eq_gt,
    Int.compare_eq_eq, hcur]
  by_cases h0 : k < 0
  · rw [if_pos h0, if_pos h0]
  · rw [if_neg h0, if_neg h0]
    by_cases h1 : 1 < k
    · rw [if_pos h1]
      split
      · rfl
      · rw [if_neg (by simp)]
        split
        · rfl
        · rw [if_pos ((hver (by omega) (by omega)).2 h1)]
    · rw [if_neg (by omega), if_neg (by simp), if_neg (by omega), if_neg h1,
        if_neg (mt (hver (by omega) (by omega)).1 h1)]

/-- A version above the current one is an unknown schema, however large it is. -/
theorem getSchemaVersion_newer {root : Json} {v : Number} (hi : root.item (ascii "schema_version") = some (.number v))
    (hint : v.cmp v.truncate = .eq) (hgt : v.cmp APP_CONFIG_SCHEMA_VERSION.toNat = .gt) :
    getSchemaVersion root = .error .errUnknownSchema := by
  rw [Number.cmp_of_integral hint, Int.compare_eq_gt] at hgt
  rw [getSchemaVersion_integral hi hint, if_neg (by omega), if_pos hgt]

/-- A live document of a newer schema that is within the bound and has no NUL
escape fails with `APP_CONFIG_ERR_UNKNOWN_SCHEMA`; any other one fails too, with
another error. -/
theorem loadFromPath_newer {bytes : List UInt8} {live : List UInt8} (hk : appConfigDocPath kind = some live)
    (hh : (p.files live).Holds bytes) (hn : Newer p bytes) :
    ∃ status, (loadFromPath p kind live none 0).1 = .error status ∧ status ≠ .errIo ∧
      (status = .errUnknownSchema ↔
        bytes.length ≤ APP_CONFIG_MAX_FILE_BYTES ∧ rawJsonHasNulEscape bytes = false) := by
  obtain ⟨h0, members, v, hparse, hitem, hint, hgt⟩ := hn
  by_cases hlen : bytes.length ≤ APP_CONFIG_MAX_FILE_BYTES
  · have hstored : validateStoredLen p kind bytes = validateKind p kind (some bytes) := by
      unfold validateStoredLen
      rw [if_neg (by omega), if_neg (by simp [h0])]
    have hvalid : validateKind p kind (some bytes) =
        .error (if rawJsonHasNulEscape bytes then .errMalformed else .errUnknownSchema) := by
      have body : ∀ {Doc : Type} (keys : List String) (fields : UInt32 → Json → Except AppConfigError Doc),
          validateJson p.cJsonParseWithLengthOpts keys fields (some bytes) =
            .error (if rawJsonHasNulEscape bytes then .errMalformed else .errUnknownSchema) := by
        intro Doc keys fields
        simp only [validateJson, strlen, cstr_of_not_mem h0, if_neg (Nat.not_lt.2 hlen), hparse,
          getSchemaVersion_newer hitem hint hgt]
        cases rawJsonHasNulEscape bytes <;> rfl
      cases kind with
      | device => exact body _ _
      | manufacturing => exact body _ _
      | other value => cases hk
    refine ⟨if rawJsonHasNulEscape bytes then .errMalformed else .errUnknownSchema, ?_, ?_, ?_⟩
    · simp only [loadFromPath, readWholeFile_holds hh, if_pos hlen, hstored, hvalid]
      cases rawJsonHasNulEscape bytes <;> simp
    · cases rawJsonHasNulEscape bytes <;> simp
    · cases rawJsonHasNulEscape bytes <;> simp [hlen]
  · exact ⟨.errBounds, by simp [loadFromPath, readWholeFile_holds hh, hlen], by simp, by simp [hlen]⟩

/-- What a load of a newer live document should do: report it, write nothing and
commit nothing. -/
def Loaded.KeepsNewer (r : Loaded kind) : Prop :=
  r.status = .error .errUnknownSchema ∧ r.written = none ∧ r.commits = []

/-- A live document of a newer schema is kept if and only if it is within the
bound, has no NUL escape, and no backup yields a document. -/
theorem newer_kept {bytes : List UInt8} {live : List UInt8} (hk : appConfigDocPath kind = some live)
    (hh : (p.files live).Holds bytes) (hn : Newer p bytes) :
    (loadKind p kind true).KeepsNewer ↔
      bytes.length ≤ APP_CONFIG_MAX_FILE_BYTES ∧ rawJsonHasNulEscape bytes = false ∧
        ¬ ∃ doc text, FirstBackup p kind live doc text := by
  obtain ⟨status, hs, hio, hunknown⟩ := loadFromPath_newer hk hh hn
  rcases loadKind_paths (p := p) hk with
    ⟨doc, text, hy, -⟩ | ⟨status', hs', ⟨hno, e⟩ | ⟨-, doc, text, hb, committed, -, e⟩⟩
  · have hok : (loadFromPath p kind live none 0).1 = .ok (doc, text) := (loadFromPath_ok_iff (by simp)).2 hy
    cases hs.symm.trans hok
  · obtain rfl := Except.error.inj (hs.symm.trans hs')
    have hno := hno.resolve_left hio
    rw [e, ← and_assoc, ← hunknown]
    simp [Loaded.KeepsNewer, hno]
  · refine iff_of_false ?_ fun h => h.2.2 ⟨doc, text, hb⟩
    rw [e]
    split
    · rintro ⟨h, -⟩
      cases h
    · rintro ⟨h, -⟩
      exact (mapCommitStatus_ne committed).2 h

/-! ## Two firmware versions -/

/-- A file that is read in one piece. -/
def FileIo.stored (bytes : List UInt8) : FileIo := ⟨.success, bytes.length, 3, [.data bytes], .success⟩

def FileIo.missing : FileIo := ⟨.errNameNotFound, 0, -1, [], .success⟩

theorem FileIo.stored_holds {bytes : List UInt8} (hne : bytes ≠ []) : (FileIo.stored bytes).Holds bytes :=
  ⟨rfl, rfl, by simp [stored], rfl, [bytes], rfl, by simpa using hne.symm, by simp⟩

/-- A device with these files, a commit that works and no migration handler. -/
def Platform.ofFiles (live good : FileIo) : Platform where
  osalMaxPathLen := 64
  path_fits := by decide
  cJsonParseWithLengthOpts := readText
  files path :=
    if path = APP_CONFIG_DEVICE_PATH then live
    else if path = APP_CONFIG_DEVICE_PATH ++ ascii ".good" then good
    else .missing
  hqJsonDocCommit _ _ _ _ := .ok
  migrationHandler := none

def olderText : List UInt8 := ascii
  "\x7b\"schema_version\":1,\"product\":\"lamp\",\"hardware_revision\":\"A\",\"serial\":\"K-1\",\"thingsboard_name\":\"kitchen\"\x7d"

def newerText : List UInt8 := ascii "\x7b\"schema_version\":2,\"product\":\"lamp\",\"room\":\"kitchen\"\x7d"

theorem newerText_newer (live good : FileIo) : Newer (.ofFiles live good) newerText := by
  have hread : readText (newerText ++ [0]) = some (.object [(ascii "schema_version", .number (.finite 2 0)),
      (ascii "product", .string (ascii "lamp")), (ascii "room", .string (ascii "kitchen"))]) := by decide +kernel
  exact ⟨by decide +kernel, _, .finite 2 0, hread, by decide +kernel, by decide, by decide⟩

/-- Without a backup the newer document stays. -/
theorem newer_kept_alone : (appConfigLoadDevice (.ofFiles (.stored newerText) .missing) true).KeepsNewer := by
  refine (newer_kept rfl (FileIo.stored_holds (by decide +kernel)) (newerText_newer _ _)).2
    ⟨by decide +kernel, by decide +kernel, ?_⟩
  have missing : ∀ suffix bytes, suffix = ascii ".good" ∨ suffix = ascii ".good.old" →
      readWholeFile ((Platform.ofFiles (.stored newerText) .missing).files (APP_CONFIG_DEVICE_PATH ++ suffix))
        APP_CONFIG_WORK_BUF_BYTES ≠ .ok bytes := by
    rintro suffix bytes (rfl | rfl) h <;> cases h
  rintro ⟨doc, text, ⟨bytes, hr, -⟩ | ⟨-, bytes, hr, -⟩⟩
  · exact missing _ bytes (.inl rfl) hr
  · exact missing _ bytes (.inr rfl) hr

/-- A firmware rollback: the backup of the older firmware is committed over the
document of the newer one. -/
theorem newer_overwritten :
    let p : Platform := .ofFiles (.stored newerText) (.stored olderText)
    let r := appConfigLoadDevice p true
    (p.files APP_CONFIG_DEVICE_PATH).Holds newerText ∧ Newer p newerText ∧ r.status = .okRecovered ∧
      r.commits = [⟨APP_CONFIG_DEVICE_PATH, olderText, .ok⟩] ∧ ¬ r.KeepsNewer := by
  intro p r
  have hr : r.status = .okRecovered ∧ r.commits = [⟨APP_CONFIG_DEVICE_PATH, olderText, .ok⟩] := by decide +kernel
  refine ⟨FileIo.stored_holds (by decide +kernel), newerText_newer _ _, hr.1, hr.2, ?_⟩
  rintro ⟨h, -⟩
  cases hr.1.symm.trans h

end LedLamp.AppConfig
