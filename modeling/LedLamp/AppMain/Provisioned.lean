import LedLamp.AppConfig.Backups
import LedLamp.AppMain.Identity
/-!
# Who receives credentials

An unprovisioned, quarantined or credential-less device "never receives a token", promises
`device_identity.h`. The facade only sees what a load of the manufacturing document returns,
so the promise rests on the store. Here identity loads run among the calls on that document,
with any answers of the file API and of `tb_identity`, and the power failing in any of them.

`unprovisioned_refused`: once a document that does not provision the device is committed,
no identity load succeeds until one that does is. `token_origin`: a token that is handed
out was loaded after a document that provisions the device had been given to a commit.
-/

namespace LedLamp.AppMain

open AppConfig

/-- The document lets the device have its credentials. -/
def Provisioned (doc : AppConfigManufacturingDoc) : Prop :=
  doc.manufacturingState = APP_CONFIG_MFG_STATE_PROVISIONED ∧ doc.credentialMode ≠ APP_CONFIG_CRED_MODE_NONE

instance : DecidablePred Provisioned := fun _ => inferInstanceAs (Decidable (_ ∧ _))

/-- The answers of an identity load that loaded the manufacturing document with `r`; a load
that fails leaves the local variable at `stack`. -/
def identityAnswers (r : Returned .manufacturing) (stack : AppConfigManufacturingDoc)
    (tbIdentityLoad : Except TbIdentityError TbIdentityCredentials) : IdentityAnswers where
  appConfigLoadManufacturing := r.status
  manufacturing := r.written.getD stack
  tbIdentityLoad := tbIdentityLoad

def deviceIdentityClear (_ : DeviceIdentity) : DeviceIdentity := ⟨false, none⟩

/-- What the token provider of the MQTT client returns. -/
def deviceIdentityProvideToken (s : DeviceIdentity) : Option (List UInt8) :=
  match s.loaded, s.credentials with
  | true, some credentials => some credentials.accessToken
  | _, _ => none

/-- A call on the manufacturing document, or on the facade. An identity load in which the
power fails is a `call` as well: the load of the document that was cut off. -/
inductive IdentityEvent where
  | call (entry : Entry .manufacturing)
  | load (r : Returned .manufacturing) (stack : AppConfigManufacturingDoc)
      (tbIdentityLoad : Except TbIdentityError TbIdentityCredentials)
  | clear

def IdentityEvent.entry : IdentityEvent → Option (Entry .manufacturing)
  | .call entry => some entry
  | .load r _ _ => some ⟨.load true, some r⟩
  | .clear => none

/-- What the facade holds is lost when the power fails. -/
def IdentityEvent.next : IdentityEvent → DeviceIdentity → DeviceIdentity
  | .call ⟨_, none⟩, _ => .boot
  | .call ⟨_, some _⟩, s => s
  | .load r stack tbIdentityLoad, _ => (deviceIdentityLoad (identityAnswers r stack tbIdentityLoad)).2
  | .clear, s => deviceIdentityClear s

/-- The events after which nothing is left of what the facade held before. -/
def IdentityEvent.forgets : IdentityEvent → Bool
  | .call ⟨_, some _⟩ => false
  | _ => true

/-- What the facade holds after these events, newest first. -/
def identityAfter : List IdentityEvent → DeviceIdentity
  | [] => .boot
  | event :: past => event.next (identityAfter past)

def storeCalls (events : List IdentityEvent) : List (Entry .manufacturing) := events.filterMap IdentityEvent.entry

/-- What the events may have put into the manufacturing document. -/
def committed (events : List IdentityEvent) : List AppConfigDocKind.manufacturing.Doc :=
  Register.written ((storeCalls events).map Entry.event)

/-- A history of the device: its calls on the document are a run of the store. -/
def IdentityRun (parse : List UInt8 → Option Json) (cJsonPrintBuffered : Json → Option (List UInt8)) (disk₀ : Disk)
    (events : List IdentityEvent) (disk : Disk) : Prop :=
  Run parse cJsonPrintBuffered .manufacturing APP_CONFIG_MANUFACTURING_PATH disk₀ (storeCalls events) disk

/-! ## One load -/

theorem deviceIdentityCheckProvisioning_ok {a : IdentityAnswers} : deviceIdentityCheckProvisioning a = .ok ↔
    (a.appConfigLoadManufacturing = .ok ∨ a.appConfigLoadManufacturing = .okRecovered) ∧ Provisioned a.manufacturing := by
  unfold deviceIdentityCheckProvisioning
  split <;> simp_all [Provisioned]

/-- The token is handed out in two ways. -/
theorem token_handed {s : DeviceIdentity} {token : List UInt8}
    (h : deviceIdentityToken s = .ok token ∨ deviceIdentityProvideToken s = some token) :
    ∃ credentials, s = ⟨true, some credentials⟩ ∧ credentials.accessToken = token := by
  obtain ⟨loaded, credentials⟩ := s
  cases loaded <;> cases credentials <;> simp_all [deviceIdentityToken, deviceIdentityProvideToken]

/-- An identity load succeeds and fills the cell, or fails and empties it. -/
theorem deviceIdentityLoad_cases (a : IdentityAnswers) :
    (deviceIdentityCheckProvisioning a = .ok ∧ ∃ credentials, a.tbIdentityLoad = .ok credentials ∧
        deviceIdentityLoad a = (.ok, ⟨true, some credentials⟩)) ∨
      ∃ status, status ≠ .ok ∧ deviceIdentityLoad a = (status, ⟨false, none⟩) := by
  unfold deviceIdentityLoad
  split
  · rename_i hcheck
    cases a.tbIdentityLoad with
    | ok credentials => exact .inl ⟨hcheck, credentials, rfl, rfl⟩
    | error e => exact .inr ⟨_, by cases e <;> decide, rfl⟩
  · rename_i hcheck
    exact .inr ⟨_, hcheck, rfl⟩

theorem deviceIdentityLoad_passed {a : IdentityAnswers} (h : (deviceIdentityLoad a).1 = .ok) :
    (a.appConfigLoadManufacturing = .ok ∨ a.appConfigLoadManufacturing = .okRecovered) ∧ Provisioned a.manufacturing := by
  rcases deviceIdentityLoad_cases a with ⟨hcheck, -⟩ | ⟨status, hne, e⟩
  · exact deviceIdentityCheckProvisioning_ok.1 hcheck
  · exact absurd (by rw [← h, e]) hne

/-! ## Histories -/

variable {parse : List UInt8 → Option Json} {cJsonPrintBuffered : Json → Option (List UInt8)} {disk₀ disk : Disk}
  {events later earlier before after : List IdentityEvent} {r : Returned .manufacturing}
  {stack : AppConfigManufacturingDoc} {tbIdentityLoad : Except TbIdentityError TbIdentityCredentials}

theorem storeCalls_append (later earlier : List IdentityEvent) :
    storeCalls (later ++ earlier) = storeCalls later ++ storeCalls earlier := List.filterMap_append ..

theorem committed_append {doc : AppConfigManufacturingDoc} (later : List IdentityEvent) (h : doc ∈ committed earlier) :
    doc ∈ committed (later ++ earlier) := by
  rw [committed, storeCalls_append, List.map_append]
  exact Register.mem_written_append _ h

/-- The run up to an event of the past. -/
theorem IdentityRun.split (hr : IdentityRun parse cJsonPrintBuffered disk₀ (later ++ earlier) disk) :
    ∃ disk₁, IdentityRun parse cJsonPrintBuffered disk₀ earlier disk₁ ∧
      IdentityRun parse cJsonPrintBuffered disk₁ later disk := by
  rw [IdentityRun, storeCalls_append] at hr
  exact Run.split hr

/-- The credentials the facade holds are those of a load that succeeded, with nothing since
that makes it forget them. -/
theorem identityAfter_loaded {credentials : TbIdentityCredentials}
    (h : identityAfter events = ⟨true, some credentials⟩) : ∃ later r stack earlier,
      events = later ++ .load r stack (.ok credentials) :: earlier ∧ (∀ event ∈ later, event.forgets = false) ∧
        (deviceIdentityLoad (identityAnswers r stack (.ok credentials))).1 = .ok := by
  induction events with
  | nil => cases h
  | cons event past ih =>
    cases event with
    | clear => cases h
    | call entry =>
      obtain ⟨call, returned⟩ := entry
      cases returned with
      | none => cases h
      | some returned =>
        obtain ⟨later, r, stack, earlier, rfl, hkept, hok⟩ := ih h
        exact ⟨_ :: later, r, stack, earlier, rfl, List.forall_mem_cons.2 ⟨rfl, hkept⟩, hok⟩
    | load r stack tbIdentityLoad =>
      simp only [identityAfter, IdentityEvent.next] at h
      rcases deviceIdentityLoad_cases (identityAnswers r stack tbIdentityLoad) with
        ⟨-, credentials', hload, e⟩ | ⟨status, -, e⟩ <;> rw [e] at h <;> cases h
      obtain rfl : tbIdentityLoad = .ok credentials := hload
      exact ⟨[], r, stack, past, rfl, by simp, by rw [e]⟩

/-- Where no load of a history succeeds, nothing is held once the facade had to forget. -/
theorem identityAfter_unloaded (hload : ∀ r stack tbIdentityLoad, .load r stack tbIdentityLoad ∈ after →
      (deviceIdentityLoad (identityAnswers r stack tbIdentityLoad)).1 ≠ .ok)
    (hforgets : ∃ event ∈ after, event.forgets = true) :
    deviceIdentityIsLoaded (identityAfter (after ++ before)) = false := by
  induction after with
  | nil => simp at hforgets
  | cons event after ih =>
    cases event with
    | clear => rfl
    | call entry =>
      obtain ⟨call, returned⟩ := entry
      cases returned with
      | none => rfl
      | some returned =>
        refine ih (fun r stack tbIdentityLoad hm => hload r stack tbIdentityLoad (List.mem_cons_of_mem _ hm)) ?_
        simpa [IdentityEvent.forgets] using hforgets
    | load r stack tbIdentityLoad =>
      have hne := hload r stack tbIdentityLoad (List.mem_cons_self ..)
      rcases deviceIdentityLoad_cases (identityAnswers r stack tbIdentityLoad) with ⟨-, _, -, e⟩ | ⟨status, -, e⟩
      · exact absurd (by rw [e]) hne
      · simp [identityAfter, IdentityEvent.next, e, deviceIdentityIsLoaded]

/-! ## A device with one document -/

/-- The only file is the manufacturing document. -/
def manufacturingFile (content : Option (List UInt8)) : Disk := fun path =>
  if path = APP_CONFIG_MANUFACTURING_PATH then content else none

theorem manufacturingFile_copies (content : Option (List UInt8)) :
    ∀ path ∈ [goodPath APP_CONFIG_MANUFACTURING_PATH, goodOldPath APP_CONFIG_MANUFACTURING_PATH],
      manufacturingFile content path = none := by
  simp only [List.forall_mem_cons, manufacturingFile, goodPath_ne, goodOldPath_ne]
  simp

def storedCredentials : TbIdentityCredentials := ⟨ascii "lamp-1", ascii "secret"⟩

/-- `doc` is committed, then the identity is loaded; credentials are stored. -/
def loadedAfter (doc : AppConfigManufacturingDoc) (commits : List Commit) : List IdentityEvent :=
  [.load ⟨.ok, some doc, []⟩ doc (.ok storedCredentials), .call ⟨.commit (some doc), some ⟨.ok, none, commits⟩⟩]

def quarantinedDoc : AppConfigManufacturingDoc :=
  ⟨APP_CONFIG_SCHEMA_VERSION, APP_CONFIG_MFG_STATE_QUARANTINED, APP_CONFIG_CRED_MODE_PSK⟩

def provisionedDoc : AppConfigManufacturingDoc :=
  ⟨APP_CONFIG_SCHEMA_VERSION, APP_CONFIG_MFG_STATE_PROVISIONED, APP_CONFIG_CRED_MODE_PSK⟩

/-- The first document is committed where there is none. -/
theorem manufacturingFile_replaced {valid : List UInt8 → Prop} {text : List UInt8} (ht : valid text) :
    Replaces valid APP_CONFIG_MANUFACTURING_PATH text (some .ok) (manufacturingFile none) (manufacturingFile (some text)) where
  ok _ := ⟨ht, if_pos rfl, fun old hl => by simp [manufacturingFile] at hl⟩
  failed s hs hne := absurd (Option.some.inj hs).symm hne
  cut h := by cases h
  copies path hpath t hd := by
    rw [manufacturingFile_copies (some text) path hpath] at hd
    cases hd
  others path hpath := by
    have hne : path ≠ APP_CONFIG_MANUFACTURING_PATH := fun e => hpath (e ▸ List.prefix_refl _)
    simp [manufacturingFile, hne]

/-- A document in range is committed to the blank device, and an identity load reads it. -/
theorem committed_once (doc : AppConfigManufacturingDoc) (hversion : doc.schemaVersion = APP_CONFIG_SCHEMA_VERSION)
    (hin : InRange doc.manufacturingState 2 ∧ InRange doc.credentialMode 2) : ∃ commits disk,
    IdentityRun JsonText.readText JsonText.printText (manufacturingFile none) (loadedAfter doc commits) disk := by
  have hparse : Parses JsonText.readText := fun _ _ h => JsonText.readText_eq h
  have hprint : Prints JsonText.printText := fun members _ => JsonText.printText_object members
  obtain ⟨text, status, hstored, rfl, hcommit⟩ :=
    appConfigCommit_manufacturing (p := .on (manufacturingFile none)) hparse hprint hversion hin
  have hvalid : Valid JsonText.readText .manufacturing text doc :=
    ((Platform.on_serves (manufacturingFile none)).validates text).symm.trans hstored
  refine ⟨[⟨APP_CONFIG_MANUFACTURING_PATH, text, .ok⟩], manufacturingFile (some text), ?_⟩
  have hcommitted : (Call.commit (some doc) : Call .manufacturing).exec JsonText.printText (.on (manufacturingFile none)) =
      ⟨.ok, none, [⟨APP_CONFIG_MANUFACTURING_PATH, text, .ok⟩]⟩ := by
    rw [Call.exec, hcommit]
    rfl
  have hfile : manufacturingFile (some text) APP_CONFIG_MANUFACTURING_PATH = some text := if_pos rfl
  have hloaded : (Call.load true : Call .manufacturing).exec JsonText.printText (.on (manufacturingFile (some text))) =
      ⟨.ok, some doc, []⟩ := by
    rw [Call.exec, (Platform.on_works _).load rfl hfile hvalid]
  exact (Run.nil.step (.on hcommitted (.cons (manufacturingFile_replaced ⟨doc, hvalid⟩) .nil))).step (.on hloaded .nil)

/-! ## Credentials -/

section Since
variable {doc : AppConfigManufacturingDoc} {returned : Returned .manufacturing}

/-- From a commit that succeeded on, a load of the document returns it or one committed
since, or fails; it never recovers an older one. -/
theorem IdentityRun.load_since (hparse : Parses parse) (hprint : Prints cJsonPrintBuffered)
    (hr : IdentityRun parse cJsonPrintBuffered disk₀
      (.load r stack tbIdentityLoad :: (earlier ++ .call ⟨.commit (some doc), some returned⟩ :: before)) disk)
    (hok : returned.status = .ok) :
    (∃ now, r = ⟨.ok, some now, []⟩ ∧ (now = doc ∨ now ∈ committed earlier)) ∨ ∃ status, r = ⟨.error status, none, []⟩ := by
  obtain ⟨disk₂, _, hpast, hd, -⟩ := Run.head hr
  obtain ⟨disk₁, hcommit, hearlier⟩ := IdentityRun.split hpast
  obtain ⟨⟨reg, hrun, hkeeps⟩, -⟩ := Run.keeps rfl hparse hprint (Run.committed rfl hparse hprint hcommit hok) hearlier
  obtain ⟨⟨_, hstep, -⟩, hclean⟩ := hkeeps.step rfl hparse hprint hd
  rcases hclean with ⟨now, rfl⟩ | hfailed
  · refine .inl ⟨now, rfl, ?_⟩
    cases hstep with
    | read hread =>
      obtain rfl : now = reg.now := hread now rfl
      exact hrun.now_mem
  · exact .inr hfailed

/-- A device whose last committed document does not provision it gets no credentials,
whatever the storage, the power and `tb_identity` do: no identity load succeeds, and after
the first of them, a clear or a reboot, none are held. -/
theorem unprovisioned_refused (hparse : Parses parse) (hprint : Prints cJsonPrintBuffered)
    (hr : IdentityRun parse cJsonPrintBuffered disk₀
      (after ++ .call ⟨.commit (some doc), some returned⟩ :: before) disk)
    (hok : returned.status = .ok) (hdoc : ¬ Provisioned doc) (hlater : ∀ d ∈ committed after, ¬ Provisioned d) :
    (∀ r stack tbIdentityLoad, .load r stack tbIdentityLoad ∈ after →
      (deviceIdentityLoad (identityAnswers r stack tbIdentityLoad)).1 ≠ .ok) ∧
    ((∃ event ∈ after, event.forgets = true) →
      deviceIdentityIsLoaded (identityAfter (after ++ .call ⟨.commit (some doc), some returned⟩ :: before)) = false) := by
  have hload : ∀ r stack tbIdentityLoad, .load r stack tbIdentityLoad ∈ after →
      (deviceIdentityLoad (identityAnswers r stack tbIdentityLoad)).1 ≠ .ok := by
    intro r stack tbIdentityLoad hm hpassed
    obtain ⟨later, earlier, rfl⟩ := List.append_of_mem hm
    rw [List.append_assoc, List.cons_append] at hr
    obtain ⟨disk₁, hpast, -⟩ := hr.split
    obtain ⟨hstatus, hprovisioned⟩ := deviceIdentityLoad_passed hpassed
    rcases hpast.load_since hparse hprint hok with ⟨now, rfl, rfl | hnow⟩ | ⟨status, rfl⟩
    · exact hdoc hprovisioned
    · exact hlater now (committed_append later (committed_append [_] hnow)) hprovisioned
    · rcases hstatus with h | h <;> cases h
  exact ⟨hload, identityAfter_unloaded hload⟩

/-- The device is quarantined, and its credentials are still stored. -/
theorem unprovisioned_refused_quarantined : ∃ commits disk,
    IdentityRun JsonText.readText JsonText.printText (manufacturingFile none) (loadedAfter quarantinedDoc commits) disk ∧
      deviceIdentityIsLoaded (identityAfter (loadedAfter quarantinedDoc commits)) = false := by
  have hparse : Parses JsonText.readText := fun _ _ h => JsonText.readText_eq h
  have hprint : Prints JsonText.printText := fun members _ => JsonText.printText_object members
  obtain ⟨commits, disk, hr⟩ := committed_once quarantinedDoc rfl ⟨⟨by decide, by decide⟩, by decide, by decide⟩
  refine ⟨commits, disk, hr, ?_⟩
  have hr' : IdentityRun JsonText.readText JsonText.printText (manufacturingFile none)
      ([.load ⟨.ok, some quarantinedDoc, []⟩ quarantinedDoc (.ok storedCredentials)] ++
        .call ⟨.commit (some quarantinedDoc), some ⟨.ok, none, commits⟩⟩ :: []) disk := hr
  have hrefused := unprovisioned_refused hparse hprint hr' rfl (by decide) (fun _ hd => absurd hd List.not_mem_nil)
  exact hrefused.2 ⟨_, List.mem_singleton_self _, rfl⟩

end Since

/-- In a device that starts without a manufacturing document, a token that is handed out is
that of an identity load, with neither a clear nor a reboot since; and before that load
a document was given to a commit that provisions the device. -/
theorem token_origin (hparse : Parses parse) (hprint : Prints cJsonPrintBuffered)
    (hempty : ∀ path, APP_CONFIG_MANUFACTURING_PATH <+: path → disk₀ path = none)
    (hr : IdentityRun parse cJsonPrintBuffered disk₀ events disk) {token : List UInt8}
    (ht : deviceIdentityToken (identityAfter events) = .ok token ∨
      deviceIdentityProvideToken (identityAfter events) = some token) :
    ∃ later r stack credentials earlier, events = later ++ .load r stack (.ok credentials) :: earlier ∧
      credentials.accessToken = token ∧ (∀ event ∈ later, event.forgets = false) ∧
        ∃ doc ∈ committed earlier, r.written = some doc ∧ Provisioned doc := by
  obtain ⟨credentials, hs, rfl⟩ := token_handed ht
  obtain ⟨later, r, stack, earlier, rfl, hkept, hok⟩ := identityAfter_loaded hs
  refine ⟨later, r, stack, credentials, earlier, rfl, rfl, hkept, ?_⟩
  obtain ⟨hstatus, hprovisioned⟩ := deviceIdentityLoad_passed hok
  obtain ⟨disk₁, hpast, -⟩ := IdentityRun.split hr
  obtain ⟨disk₂, _, hearlier, hd, -⟩ := Run.head hpast
  have hknown := Run.known rfl hparse hprint hempty hearlier
  cases hd with
  | returns _ hserves _ =>
    obtain ⟨doc, hdoc⟩ := loadKind_written rfl hstatus
    obtain ⟨hwritten, -⟩ := hknown.load rfl hserves true
    simp only [identityAnswers, Call.exec, hdoc] at hprovisioned
    exact ⟨doc, hwritten doc hdoc, hdoc, hprovisioned⟩

/-- A new device is provisioned, and its token is handed out. -/
theorem token_origin_new : ∃ commits later r stack credentials earlier,
    loadedAfter provisionedDoc commits = later ++ .load r stack (.ok credentials) :: earlier ∧
      credentials.accessToken = ascii "secret" ∧ (∀ event ∈ later, event.forgets = false) ∧
        ∃ doc ∈ committed earlier, r.written = some doc ∧ Provisioned doc := by
  have hparse : Parses JsonText.readText := fun _ _ h => JsonText.readText_eq h
  have hprint : Prints JsonText.printText := fun members _ => JsonText.printText_object members
  obtain ⟨commits, disk, hr⟩ := committed_once provisionedDoc rfl ⟨⟨by decide, by decide⟩, by decide, by decide⟩
  exact ⟨commits, token_origin hparse hprint (fun _ _ => ite_self none) hr (.inl rfl)⟩

end LedLamp.AppMain
