import LedLamp.AppConfig.Store
/-!
# What the last-known-good copy is good for

`previous_recovered`: a live document that is damaged costs the last commit and no more,
with any number of loads, migrations and failed commits after it. `origin_committed`: in
a device that starts without documents, whatever a load returns was once given to a
commit of its kind, so nothing is made up and nothing of another kind gets in.
-/

namespace LedLamp.AppConfig

/-! ## Content errors -/

/-- An error that says something about the text, not about the storage. -/
def AppConfigError.OfContent (e : AppConfigError) : Prop := e ≠ .errIo ∧ e ≠ .errNotFound

instance : DecidablePred AppConfigError.OfContent := fun _ => inferInstanceAs (Decidable (_ ∧ _))

def OfContent {α : Type} (r : Except AppConfigError α) : Prop := ∀ e, r = .error e → e.OfContent

section OfContent
variable {α β : Type}

theorem ofContent_ok (a : α) : OfContent (.ok a) := fun _ h => by cases h

theorem ofContent_error {e : AppConfigError} (h : e.OfContent) : OfContent (.error e : Except AppConfigError α) :=
  fun _ he => Except.error.inj he ▸ h

theorem OfContent.bind {r : Except AppConfigError α} {f : α → Except AppConfigError β} (hr : OfContent r)
    (hf : ∀ a, OfContent (f a)) : OfContent (r >>= f) := by
  cases r with
  | error e => exact ofContent_error (hr e rfl)
  | ok a => exact hf a

theorem getBoundedString_ofContent (object : Json) (key : String) (cap : Nat) (serial : Bool) :
    OfContent (getBoundedString object key cap serial) := by
  unfold getBoundedString
  dsimp only
  repeat' split
  all_goals first | exact ofContent_ok _ | exact ofContent_error (by decide)

theorem getBoundedNumber_ofContent (object : Json) (key : String) (limit : UInt32) :
    OfContent (getBoundedNumber object key limit) := by
  unfold getBoundedNumber
  repeat' split
  all_goals first | exact ofContent_ok _ | exact ofContent_error (by decide)

theorem getSchemaVersion_ofContent (object : Json) : OfContent (getSchemaVersion object) := by
  unfold getSchemaVersion
  dsimp only
  repeat' split
  all_goals first | exact ofContent_ok _ | exact ofContent_error (by decide)

theorem checkMemberKeys_ofContent (object : Json) (allowed : List (List UInt8)) :
    OfContent (checkMemberKeys object allowed) := by
  unfold checkMemberKeys
  repeat' split
  all_goals first | exact ofContent_ok _ | exact ofContent_error (by decide)

theorem validateJson_ofContent {Doc : Type} (parse : List UInt8 → Option Json) (keys : List String)
    {fields : UInt32 → Json → Except AppConfigError Doc} (hf : ∀ version root, OfContent (fields version root))
    (json : Option (List UInt8)) : OfContent (validateJson parse keys fields json) := by
  unfold validateJson
  split
  · exact ofContent_error (by decide)
  split
  · exact ofContent_error (by decide)
  split
  · dsimp only
    split
    · exact ofContent_error (by decide)
    · refine OfContent.bind (getSchemaVersion_ofContent _) fun version => ?_
      split
      · exact ofContent_error (by decide)
      · exact OfContent.bind (checkMemberKeys_ofContent _ _) fun _ => hf _ _
  · exact ofContent_error (by decide)

theorem deviceFields_ofContent (version : UInt32) (root : Json) : OfContent (deviceFields version root) :=
  OfContent.bind (getBoundedString_ofContent _ _ _ _) fun _ => OfContent.bind (getBoundedString_ofContent _ _ _ _) fun _ =>
    OfContent.bind (getBoundedString_ofContent _ _ _ _) fun _ => OfContent.bind (getBoundedString_ofContent _ _ _ _) fun _ =>
      ofContent_ok _

theorem manufacturingFields_ofContent (version : UInt32) (root : Json) : OfContent (manufacturingFields version root) :=
  OfContent.bind (getBoundedNumber_ofContent _ _ _) fun _ => OfContent.bind (getBoundedNumber_ofContent _ _ _) fun _ =>
    ofContent_ok _

/-- A validator never blames the storage. -/
theorem validateStoredLen_ofContent (p : Platform) (kind : AppConfigDocKind) (buf : List UInt8) :
    OfContent (validateStoredLen p kind buf) := by
  unfold validateStoredLen
  split
  · exact ofContent_error (by decide)
  split
  · exact ofContent_error (by decide)
  cases kind with
  | device => exact validateJson_ofContent _ DEVICE_KEYS deviceFields_ofContent (some buf)
  | manufacturing => exact validateJson_ofContent _ MANUFACTURING_KEYS manufacturingFields_ofContent (some buf)
  | other value => exact ofContent_error (by decide)

end OfContent

/-! ## A damaged document -/

variable {parse : List UInt8 → Option Json} {cJsonPrintBuffered : Json → Option (List UInt8)} {kind : AppConfigDocKind}
  {live : List UInt8} {p : Platform} {disk₀ disk disk' : Disk} {after mid before entries : List (Entry kind)}

/-- The file API works: a stored file is read, a missing one is reported missing. -/
def FileIo.Works (file : FileIo) : Option (List UInt8) → Prop
  | none => statusIsMissing file.stat = true
  | some bytes => file.Holds bytes

structure Platform.Works (p : Platform) (parse : List UInt8 → Option Json) (disk : Disk) : Prop where
  parse : p.cJsonParseWithLengthOpts = parse
  files : ∀ path, (p.files path).Works (disk path)

/-- Nothing, or bytes that are no document of this schema or an older one. -/
def Damaged (parse : List UInt8 → Option Json) (kind : AppConfigDocKind) (content : Option (List UInt8)) : Prop :=
  ∀ bytes ∈ content, ∃ e, validateStoredLen (.parsing parse) kind bytes = .error e ∧ e ≠ .errMigration

theorem FileIo.Works.missing {file : FileIo} (h : file.Works none) :
    readWholeFile file APP_CONFIG_WORK_BUF_BYTES = .error .errNotFound := by
  have hne : file.stat ≠ .success := by
    intro e
    rw [FileIo.Works, e] at h
    cases h
  have hmissing : statusIsMissing file.stat = true := h
  unfold readWholeFile
  rw [if_neg (by decide), if_pos hne, if_pos hmissing]

theorem Platform.Works.yields (hp : p.Works parse disk) {path bytes : List UInt8} {doc : kind.Doc}
    (hd : disk path = some bytes) (hv : Valid parse kind bytes doc) (calls : Nat) : Yields p kind path calls doc bytes := by
  have hfile := hp.files path
  rw [hd] at hfile
  have hr := readWholeFile_holds hfile
  rw [if_pos hv.length] at hr
  exact ⟨bytes, hr, .inl ⟨(validateStoredLen_parse hp.parse bytes).trans hv, rfl⟩⟩

theorem Platform.Works.damaged (hp : p.Works parse disk) {path : List UInt8} (hbad : Damaged parse kind (disk path))
    (outCap : Option Nat) (calls : Nat) :
    ∃ status, (loadFromPath p kind path outCap calls).1 = .error status ∧ status ≠ .errIo := by
  have hfile := hp.files path
  cases hd : disk path with
  | none =>
    rw [hd] at hfile
    exact ⟨.errNotFound, by simp [loadFromPath, hfile.missing], by decide⟩
  | some bytes =>
    rw [hd] at hfile hbad
    have hr := readWholeFile_holds hfile
    obtain ⟨e, hv, hne⟩ := hbad bytes rfl
    rw [← validateStoredLen_parse hp.parse] at hv
    by_cases hlen : bytes.length ≤ APP_CONFIG_MAX_FILE_BYTES
    · rw [if_pos hlen] at hr
      exact ⟨e, by simp [loadFromPath, hr, hv, hne], (validateStoredLen_ofContent p kind bytes e hv).1⟩
    · rw [if_neg hlen] at hr
      exact ⟨.errBounds, by simp [loadFromPath, hr], by decide⟩

/-- A load that reports success has written a document. -/
theorem loadKind_written (hk : appConfigDocPath kind = some live)
    (h : (loadKind p kind true).status = .ok ∨ (loadKind p kind true).status = .okRecovered) :
    ∃ doc, (loadKind p kind true).written = some doc := by
  rcases loadKind_paths (p := p) hk with
    ⟨doc, text, -, e⟩ | ⟨status, -, ⟨-, e⟩ | ⟨-, doc, text, -, committed, -, e⟩⟩ <;> rw [e] at h ⊢
  · exact ⟨doc, rfl⟩
  · rcases h with h | h <;> cases h
  · split at h
    · rename_i hc
      exact ⟨doc, by rw [if_pos hc]⟩
    · rename_i hc
      exact absurd h (not_or.2 ⟨fun h => hc (mapCommitStatus_ok h), (mapCommitStatus_ne committed).1⟩)

/-- While the file API works, a valid document is loaded. -/
theorem Platform.Works.load (hp : p.Works parse disk) (hk : appConfigDocPath kind = some live) {bytes : List UInt8}
    {doc : kind.Doc} (hl : disk live = some bytes) (hv : Valid parse kind bytes doc) :
    loadKind p kind true = ⟨.ok, some doc, []⟩ := by
  have hy := hp.yields hl hv 0
  rcases loadKind_paths (p := p) hk with ⟨doc', text, hy', e⟩ | ⟨status, herr, -⟩
  · rw [(hy.unique hy').1]
    exact e
  · cases ((loadFromPath_ok_iff (by simp)).2 hy).symm.trans herr

/-- While the file API works, the last-known-good copy is the first backup. -/
theorem Platform.Works.firstBackup (hp : p.Works parse disk) {bytes : List UInt8} {doc : kind.Doc}
    (hg : lastGood live disk = some bytes) (hv : Valid parse kind bytes doc) : FirstBackup p kind live doc bytes := by
  rw [lastGood] at hg
  cases hgood : disk (goodPath live) with
  | some good =>
    rw [hgood] at hg
    obtain rfl : good = bytes := Option.some.inj hg
    exact .inl (hp.yields hgood hv _)
  | none =>
    rw [hgood] at hg
    refine .inr ⟨?_, hp.yields hg hv _⟩
    rintro ⟨d, t, buf, hr, -⟩
    have hfile := hp.files (goodPath live)
    rw [hgood] at hfile
    cases hr.symm.trans hfile.missing

theorem FirstBackup.unique {doc doc' : kind.Doc} {text text' : List UInt8} (h : FirstBackup p kind live doc text)
    (h' : FirstBackup p kind live doc' text') : doc = doc' ∧ text = text' := by
  rcases h with h | ⟨hno, h⟩ <;> rcases h' with h' | ⟨hno', h'⟩
  · exact h.unique h'
  · exact absurd ⟨doc, text, h⟩ hno'
  · exact absurd ⟨doc', text', h'⟩ hno
  · exact h.unique h'

/-- A load of a damaged document commits the last-known-good copy again, and returns it
once that is done. -/
theorem load_damaged (hk : appConfigDocPath kind = some live) (hp : p.Works parse disk)
    (hbad : Damaged parse kind (disk live)) {bytes : List UInt8} {doc : kind.Doc} (hg : lastGood live disk = some bytes)
    (hv : Valid parse kind bytes doc) : ∃ status, loadKind p kind true =
      if status = .ok then ⟨.okRecovered, some doc, [⟨live, bytes, .ok⟩]⟩
      else ⟨mapCommitStatus status, none, [⟨live, bytes, status⟩]⟩ := by
  have hfirst := hp.firstBackup hg hv
  obtain ⟨status, herr, hio⟩ := hp.damaged hbad none 0
  rcases loadKind_paths (p := p) hk with
    ⟨d, t, hy, -⟩ | ⟨status', herr', ⟨hno, -⟩ | ⟨-, d, t, hb, committed, -, e⟩⟩
  · cases ((loadFromPath_ok_iff (by simp)).2 hy).symm.trans herr
  · obtain rfl := Except.error.inj (herr.symm.trans herr')
    exact absurd ⟨doc, bytes, hfirst⟩ (hno.resolve_left hio)
  · obtain ⟨rfl, rfl⟩ := hfirst.unique hb
    exact ⟨committed, e⟩

theorem goodPath_ne (live : List UInt8) : goodPath live ≠ live := by
  simpa [goodPath] using (by decide : ascii ".good" ≠ [])

theorem goodOldPath_ne (live : List UInt8) : goodOldPath live ≠ live := by
  simpa [goodOldPath] using (by decide : ascii ".good.old" ≠ [])

theorem Platform.on_works (disk : Disk) : (Platform.on disk).Works JsonText.readText disk := by
  refine ⟨rfl, fun path => ?_⟩
  show (FileIo.of (disk path)).Works (disk path)
  cases disk path with
  | none => rfl
  | some bytes =>
    cases bytes with
    | nil => exact ⟨rfl, rfl, by simp [FileIo.of], rfl, [], rfl, by simp, rfl⟩
    | cons byte bytes => exact FileIo.stored_holds (by simp)

/-- A damaged live document costs the last commit and no more. After two commits that
succeeded, with anything but further commits that took effect between and after them, and
whatever then happens to the live file, a load restores the document of the first. -/
theorem previous_recovered (hk : appConfigDocPath kind = some live) (hparse : Parses parse) (hprint : Prints cJsonPrintBuffered)
    {older newer : kind.Doc} {r₁ r₂ : Returned kind}
    (hr : Run parse cJsonPrintBuffered kind live disk₀ (after ++ ⟨.commit (some newer), some r₂⟩ :: (mid ++
      ⟨.commit (some older), some r₁⟩ :: before)) disk) (h₁ : r₁.status = .ok) (h₂ : r₂.status = .ok)
    (hmid : Register.written (mid.map Entry.event) = []) (hafter : Register.written (after.map Entry.event) = [])
    {damaged : Disk} (hsame : ∀ path, path ≠ live → damaged path = disk path) (hbad : Damaged parse kind (damaged live))
    (hp : p.Works parse damaged) :
    ∃ bytes status, Valid parse kind bytes (kind.stored older) ∧ loadKind p kind true =
      if status = .ok then ⟨.okRecovered, some (kind.stored older), [⟨live, bytes, .ok⟩]⟩
      else ⟨mapCommitStatus status, none, [⟨live, bytes, status⟩]⟩ := by
  obtain ⟨disk₂, hr, hlast⟩ := hr.split
  rw [← List.singleton_append] at hr
  obtain ⟨disk₁, hr, hsecond⟩ := hr.split
  obtain ⟨disk₀', hfirst, hbetween⟩ := hr.split
  -- The first commit makes the register, and nothing changes it until the second.
  obtain ⟨⟨r, hrun, hkeeps⟩, -⟩ := hbetween.keeps hk hparse hprint (hfirst.committed hk hparse hprint h₁)
  obtain ⟨rfl, -⟩ := hrun.settled hmid
  obtain ⟨⟨r, hrun, hkeeps⟩, -⟩ := hsecond.keeps hk hparse hprint hkeeps
  obtain rfl : r = ⟨kind.stored newer, some (kind.stored older)⟩ := by
    simp only [List.map_singleton, Entry.event, if_pos h₂] at hrun
    cases hrun with
    | step hnil hstep =>
      cases hnil
      cases hstep
      rfl
  obtain ⟨⟨r, hrun, hkeeps⟩, -⟩ := hlast.keeps hk hparse hprint hkeeps
  obtain ⟨rfl, -⟩ := hrun.settled hafter
  obtain ⟨bytes, hg, hv⟩ := hkeeps.before _ rfl
  have hgood : lastGood live damaged = some bytes := by
    rw [lastGood, hsame _ (goodPath_ne live), hsame _ (goodOldPath_ne live)]
    exact hg
  obtain ⟨status, e⟩ := load_damaged hk hp hbad hgood hv
  exact ⟨bytes, status, hv, e⟩

/-- The device is named twice, and its live document is lost. -/
theorem previous_recovered_lost : ∃ bytes status,
    Valid JsonText.readText .device bytes (AppConfigDocKind.device.stored (lampDoc "kitchen")) ∧
    loadKind (.on (deviceFiles none (some (lampText "kitchen")))) .device true =
      if status = .ok then
        ⟨.okRecovered, some (AppConfigDocKind.device.stored (lampDoc "kitchen")), [⟨APP_CONFIG_DEVICE_PATH, bytes, .ok⟩]⟩
      else ⟨mapCommitStatus status, none, [⟨APP_CONFIG_DEVICE_PATH, bytes, status⟩]⟩ := by
  have hparse : Parses JsonText.readText := fun _ _ h => JsonText.readText_eq h
  have hprint : Prints JsonText.printText := fun members _ => JsonText.printText_object members
  have hsame : ∀ path, path ≠ APP_CONFIG_DEVICE_PATH →
      deviceFiles none (some (lampText "kitchen")) path = namedTwice path := by
    intro path hpath
    simp [namedTwice, deviceFiles, hpath]
  have hbad : Damaged JsonText.readText .device
      (deviceFiles none (some (lampText "kitchen")) APP_CONFIG_DEVICE_PATH) := by simp [Damaged]
  have hr : Run JsonText.readText JsonText.printText .device APP_CONFIG_DEVICE_PATH (deviceFiles none none)
      ([loaded namedTwice] ++ named "garage" :: ([] ++ named "kitchen" :: [])) namedTwice := namedTwice_run
  exact previous_recovered rfl hparse hprint hr rfl rfl rfl rfl hsame hbad (Platform.on_works _)

/-! ## Where documents come from -/

/-- Every document in the files of this kind is one of `docs`. -/
def Known (parse : List UInt8 → Option Json) (kind : AppConfigDocKind) (live : List UInt8) (docs : List kind.Doc)
    (disk : Disk) : Prop :=
  ∀ path ∈ [live, goodPath live, goodOldPath live], ∀ bytes, disk path = some bytes → ∃ doc ∈ docs, Valid parse kind bytes doc

variable {docs docs' : List kind.Doc}

theorem Known.mono (h : Known parse kind live docs disk) (hd : ∀ doc ∈ docs, doc ∈ docs') :
    Known parse kind live docs' disk := by
  intro path hp bytes hb
  obtain ⟨doc, hm, hv⟩ := h path hp bytes hb
  exact ⟨doc, hd doc hm, hv⟩

theorem Replaces.at_live {valid : List UInt8 → Prop} {text : List UInt8} {status : Option HqJsonDocStatus}
    (h : Replaces valid live text status disk disk') : disk' live = disk live ∨ disk' live = some text := by
  cases hs : status with
  | none => exact (h.cut hs).1.imp id (·.2)
  | some s =>
    by_cases hok : s = .ok
    · exact .inr (h.ok (by rw [hs, hok])).2.1
    · exact .inl (h.failed s hs hok).1

/-- A commit that leaves a known document live, or the one there was, keeps all documents known. -/
theorem Known.replaced {valid : List UInt8 → Prop} {text : List UInt8} {status : Option HqJsonDocStatus}
    (h : Known parse kind live docs disk) (hc : Replaces valid live text status disk disk')
    (ht : disk' live = disk live ∨ ∃ doc ∈ docs, Valid parse kind text doc) : Known parse kind live docs disk' := by
  intro path hp bytes hb
  rcases List.mem_cons.1 hp with rfl | hcopy
  · rcases ht with e | ht
    · exact h path (by simp) bytes (e ▸ hb)
    · rcases hc.at_live with e | e
      · exact h path (by simp) bytes (e ▸ hb)
      · obtain rfl := Option.some.inj (e.symm.trans hb)
        exact ht
  · rcases hc.copies path hcopy bytes hb with e | e | ⟨e, -⟩
    · exact h _ (by simp) bytes e
    · exact h _ (by simp) bytes e
    · exact h _ (by simp) bytes e

/-- What is read of the files of this kind is a known document. -/
theorem Known.read (h : Known parse kind live docs disk) (hs : p.Serves parse disk) {path buf : List UInt8}
    (hpath : path ∈ [live, goodPath live, goodOldPath live])
    (hr : readWholeFile (p.files path) APP_CONFIG_WORK_BUF_BYTES = .ok buf) : ∃ doc ∈ docs, Valid parse kind buf doc := by
  have hfile := hs.files path
  cases hd : disk path with
  | none =>
    rw [hd] at hfile
    have hstat : (p.files path).stat ≠ .success := hfile
    unfold readWholeFile at hr
    rw [if_neg (by decide), if_pos hstat] at hr
    cases hr
  | some bytes =>
    rw [hd] at hfile
    obtain rfl := readWholeFile_has hfile.2 hr
    exact h path hpath buf hd

theorem Known.yields (h : Known parse kind live docs disk) (hs : p.Serves parse disk) {path text : List UInt8}
    {calls : Nat} {doc : kind.Doc} (hpath : path ∈ [live, goodPath live, goodOldPath live])
    (hy : Yields p kind path calls doc text) : doc ∈ docs ∧ Valid parse kind text doc := by
  obtain ⟨buf, hr, hy⟩ := hy
  obtain ⟨d, hm, hv⟩ := h.read hs hpath hr
  have hv' := (hs.validates buf).trans hv
  rcases hy with ⟨hok, rfl⟩ | ⟨herr, -⟩
  · obtain rfl := Except.ok.inj (hv'.symm.trans hok)
    exact ⟨hm, hv⟩
  · cases hv'.symm.trans herr

theorem Known.firstBackup (h : Known parse kind live docs disk) (hs : p.Serves parse disk) {text : List UInt8}
    {doc : kind.Doc} (hb : FirstBackup p kind live doc text) : doc ∈ docs ∧ Valid parse kind text doc := by
  rcases hb with hy | ⟨-, hy⟩
  · exact h.yields hs (List.mem_cons_of_mem _ (List.mem_cons_self ..)) hy
  · exact h.yields hs (List.mem_cons_of_mem _ (List.mem_cons_of_mem _ (List.mem_cons_self ..))) hy

/-- Where all documents are known, a load returns one of them, and commits only them. -/
theorem Known.load (hk : appConfigDocPath kind = some live) (h : Known parse kind live docs disk) (hs : p.Serves parse disk)
    (out : Bool) : (∀ doc ∈ (loadKind p kind out).written, doc ∈ docs) ∧
      ∀ commit ∈ (loadKind p kind out).commits, commit.path = live ∧ ∃ doc ∈ docs, Valid parse kind commit.text doc := by
  cases out with
  | false => simp [loadKind]
  | true =>
    rcases loadKind_paths (p := p) hk with
      ⟨d, t, hy, e⟩ | ⟨status, -, ⟨-, e⟩ | ⟨-, d, t, hb, committed, -, e⟩⟩ <;> rw [e]
    · obtain ⟨hm, -⟩ := h.yields hs (by simp) hy
      simpa using hm
    · simp
    · obtain ⟨hm, hv⟩ := h.firstBackup hs hb
      split
      · simpa using ⟨hm, d, hm, hv⟩
      · simpa using ⟨d, hm, hv⟩

theorem Known.migrateStored (hk : appConfigDocPath kind = some live) (h : Known parse kind live docs disk)
    (hs : p.Serves parse disk) : (appConfigMigrateStored p kind 0).commits = [] := by
  cases hr : readWholeFile (p.files live) APP_CONFIG_WORK_BUF_BYTES with
  | error status => simp [appConfigMigrateStored, hk, hr]
  | ok buf =>
    obtain ⟨d, -, hv⟩ := h.read hs (by simp) hr
    simp [appConfigMigrateStored, hk, hr, (hs.validates buf).trans hv]

theorem Known.commits {commits : List Commit} (h : Known parse kind live docs disk)
    (hc : Commits parse kind commits disk disk')
    (hall : ∀ commit ∈ commits, commit.path = live ∧ ∃ doc ∈ docs, Valid parse kind commit.text doc) :
    Known parse kind live docs disk' := by
  induction hc with
  | nil => exact h
  | @cons commit commits disk disk₁ disk₂ hrep _ ih =>
    obtain ⟨⟨rfl, ht⟩, hrest⟩ := List.forall_mem_cons.1 hall
    exact ih (h.replaced hrep (.inr ht)) hrest

/-- Each call leaves only documents that were known or that it was given. -/
theorem Known.step {entry : Entry kind} (hk : appConfigDocPath kind = some live) (hparse : Parses parse)
    (hprint : Prints cJsonPrintBuffered) (h : Known parse kind live (Register.written (entries.map Entry.event)) disk)
    (hd : Does parse cJsonPrintBuffered kind disk entry disk') :
    Known parse kind live (Register.written ((entry :: entries).map Entry.event)) disk' := by
  have h' : Known parse kind live (Register.written ((entry :: entries).map Entry.event)) disk :=
    h.mono fun doc hm => Register.mem_written_cons _ hm
  cases hd with
  | idle call => exact h'
  | returns call hs hc =>
    cases call with
    | load out => exact h'.commits hc (h'.load hk hs out).2
    | migrateStored =>
      simp only [Call.exec, h.migrateStored hk hs] at hc
      cases hc
      exact h'
    | commit doc =>
      rcases exec_commit hk hparse hprint hs doc with ⟨status, e⟩ | ⟨d, text, status, rfl, hd, e⟩ <;> rw [e] at hc h' ⊢
      · cases hc
        exact h'
      · cases hc with
        | cons hrep hnil =>
          cases hnil
          refine h'.replaced hrep ?_
          by_cases hok : status = .ok
          · -- The commit succeeded, so its document is one that was written.
            refine .inr ⟨kind.stored d, ?_, hd⟩
            simp [Entry.event, hok, mapCommitStatus, Register.written]
          · exact .inl (hrep.failed status rfl hok).1
  | cut call hs hcommits hc =>
    cases call with
    | load out =>
      have hcommitted := (h'.load hk hs out).2
      simp only [Call.exec] at hcommits
      rw [hcommits, List.forall_mem_singleton] at hcommitted
      obtain ⟨rfl, ht⟩ := hcommitted
      exact h'.replaced hc (.inr ht)
    | migrateStored => simp [Call.exec, h.migrateStored hk hs] at hcommits
    | commit doc =>
      rcases exec_commit hk hparse hprint hs doc with ⟨status, e⟩ | ⟨d, text, status, rfl, hd, e⟩ <;> rw [e] at hcommits
      · cases hcommits
      · obtain rfl := (List.cons.inj hcommits).1.symm
        refine h'.replaced hc (.inr ⟨kind.stored d, ?_, hd⟩)
        simp [Entry.event, Register.written]

theorem Run.known (hk : appConfigDocPath kind = some live) (hparse : Parses parse) (hprint : Prints cJsonPrintBuffered)
    (hempty : ∀ path, live <+: path → disk₀ path = none)
    (hr : Run parse cJsonPrintBuffered kind live disk₀ entries disk) :
    Known parse kind live (Register.written (entries.map Entry.event)) disk := by
  have prefixed : ∀ path ∈ [live, goodPath live, goodOldPath live], live <+: path := by
    simp only [List.forall_mem_cons]
    exact ⟨List.prefix_refl _, List.prefix_append _ _, List.prefix_append _ _, by simp⟩
  induction hr with
  | nil =>
    intro path hpath bytes hb
    rw [hempty path (prefixed path hpath)] at hb
    cases hb
  | outside _ hsame ih =>
    intro path hpath bytes hb
    rw [hsame path (prefixed path hpath)] at hb
    exact ih path hpath bytes hb
  | step _ hd ih => exact ih.step hk hparse hprint hd

/-- In a device that starts without documents of a kind, whatever a load of that kind
returns was given before to a commit of that kind, which succeeded or was cut off. -/
theorem origin_committed (hk : appConfigDocPath kind = some live) (hparse : Parses parse) (hprint : Prints cJsonPrintBuffered)
    (hempty : ∀ path, live <+: path → disk₀ path = none) {out : Bool} {r : Returned kind}
    (hr : Run parse cJsonPrintBuffered kind live disk₀ (⟨.load out, some r⟩ :: before) disk) :
    ∀ doc ∈ r.written, doc ∈ Register.written (before.map Entry.event) := by
  obtain ⟨disk₁, _, hold, hd, -⟩ := hr.head
  cases hd with
  | returns _ hs _ => exact ((hold.known hk hparse hprint hempty).load hk hs out).1

theorem origin_committed_twice : ∃ doc ∈ ((Call.load true).exec JsonText.printText (.on namedTwice)).written,
    doc ∈ Register.written ([named "garage", named "kitchen"].map Entry.event) := by
  have hparse : Parses JsonText.readText := fun _ _ h => JsonText.readText_eq h
  have hprint : Prints JsonText.printText := fun members _ => JsonText.printText_object members
  have hempty : ∀ path, APP_CONFIG_DEVICE_PATH <+: path → deviceFiles none none path = none := by
    intro path _
    simp [deviceFiles]
  have hread : ((Call.load true : Call .device).exec JsonText.printText (.on namedTwice)).written.isSome = true := by
    decide +kernel
  obtain ⟨doc, hdoc⟩ := Option.isSome_iff_exists.1 hread
  exact ⟨doc, hdoc, origin_committed rfl hparse hprint hempty namedTwice_run doc hdoc⟩

end LedLamp.AppConfig
