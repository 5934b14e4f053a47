import LedLamp.JsonWriter
import LedLamp.TbProvisioning.Loading
/-!
# Persisting the identity

What the persist callback of an enrolment leaves in the files. The record is staged and
renamed over the old one, so a run that fails leaves the old one; a run that succeeds
leaves a record of the schema exactly where the close of the staged file succeeds, which
the callback does not look at, and the token is one of the schema, which it does not
check (`persist_keeps_iff`).
-/

namespace LedLamp.TbProvisioning

open Conc JsonSyntax
open JsonText (isPrintable printObject printText)

/-! ## The identity record (`device_identity.h`) -/

def DEVICE_IDENTITY_SCHEMA_VERSION : Nat := 1
def DEVICE_IDENTITY_MAX_FILE_BYTES : Nat := 2048
def DEVICE_IDENTITY_CLIENT_ID_MAX_LEN : Nat := 64
def DEVICE_IDENTITY_TOKEN_MAX_LEN : Nat := 128

/-- The strict schema: three members, each once. -/
structure IdentityMembers (members : List (List UInt8 × Json)) : Prop where
  names : (members.map (·.1)).Perm (["schema_version", "client_id", "access_token"].map ascii)
  version : ∃ n, (ascii "schema_version", .number n) ∈ members ∧ n.cmp DEVICE_IDENTITY_SCHEMA_VERSION = .eq
  clientId : ∃ s, (ascii "client_id", .string s) ∈ members ∧ Value DEVICE_IDENTITY_CLIENT_ID_MAX_LEN false s
  accessToken : ∃ s, (ascii "access_token", .string s) ∈ members ∧ Value DEVICE_IDENTITY_TOKEN_MAX_LEN true s

/-- The whole content is a record of the schema, within the file bound. -/
structure IdentityRecord (L : Lexis) (content : List UInt8) : Prop where
  size : content.length ≤ DEVICE_IDENTITY_MAX_FILE_BYTES
  document : ∃ members, Document L content (.object members) ∧ IdentityMembers members

/-- cJSON's printer on an identity document: the text is a document of the same item, and
printable strings are written with a backslash before quotes and backslashes. -/
structure PrintsIdentity (L : Lexis) (cJsonPrintUnformatted : Json → List UInt8) : Prop where
  document : ∀ clientId accessToken, 0 ∉ clientId → 0 ∉ accessToken →
    Document L (cJsonPrintUnformatted (identityRoot clientId accessToken)) (identityRoot clientId accessToken)
  printable : ∀ clientId accessToken, clientId.all isPrintable → accessToken.all isPrintable →
    cJsonPrintUnformatted (identityRoot clientId accessToken) = printObject [(ascii "schema_version", .int 1),
      (ascii "client_id", .string clientId), (ascii "access_token", .string accessToken)]

section Record

variable {L : Lexis} {print : Json → List UInt8} {clientId accessToken : List UInt8}

theorem Value.printable {maxLen : Nat} {noSpace : Bool} {s : List UInt8} (h : Value maxLen noSpace s) :
    s.all isPrintable = true :=
  List.all_eq_true.2 fun c hc => by simp [isPrintable, (h.chars c hc).1, (h.chars c hc).2.1]

theorem identityMembers_root {members : List (List UInt8 × Json)} (he : identityRoot clientId accessToken = .object members) :
    IdentityMembers members ↔ Value DEVICE_IDENTITY_CLIENT_ID_MAX_LEN false clientId ∧
      Value DEVICE_IDENTITY_TOKEN_MAX_LEN true accessToken := by
  obtain rfl := Json.object.inj he
  have keys : ascii "schema_version" ≠ ascii "client_id" ∧ ascii "schema_version" ≠ ascii "access_token" ∧
      ascii "client_id" ≠ ascii "access_token" := by decide
  obtain ⟨h12, h13, h23⟩ := keys
  constructor
  · intro h
    obtain ⟨a, ha, hclient⟩ := h.clientId
    obtain ⟨b, hb, htoken⟩ := h.accessToken
    simp only [List.mem_cons, Prod.mk.injEq, Json.string.injEq, reduceCtorEq, h12.symm, h23, false_and, and_false, true_and,
      List.not_mem_nil, or_false, false_or] at ha
    simp only [List.mem_cons, Prod.mk.injEq, Json.string.injEq, reduceCtorEq, h13.symm, h23.symm, false_and, and_false,
      true_and, List.not_mem_nil, or_false, false_or] at hb
    exact ⟨ha ▸ hclient, hb ▸ htoken⟩
  · rintro ⟨hclient, htoken⟩
    exact ⟨.rfl, ⟨_, List.mem_cons_self, by decide⟩, ⟨clientId, by simp, hclient⟩, ⟨accessToken, by simp, htoken⟩⟩

/-- The text of an identity is a record exactly when its strings are within the schema. -/
theorem identityRecord_iff (hprint : PrintsIdentity L print) (hc : 0 ∉ clientId) (ht : 0 ∉ accessToken) :
    IdentityRecord L (print (identityRoot clientId accessToken)) ↔
      Value DEVICE_IDENTITY_CLIENT_ID_MAX_LEN false clientId ∧ Value DEVICE_IDENTITY_TOKEN_MAX_LEN true accessToken := by
  have hdoc := hprint.document clientId accessToken hc ht
  constructor
  · rintro ⟨-, members, hdoc', hm⟩
    exact (identityMembers_root (hdoc.unique hdoc')).1 hm
  · rintro ⟨hclient, htoken⟩
    refine ⟨?_, _, hdoc, (identityMembers_root rfl).2 ⟨hclient, htoken⟩⟩
    rw [hprint.printable _ _ hclient.printable htoken.printable]
    have h1 := JsonText.length_printString_le clientId
    have h2 := JsonText.length_printString_le accessToken
    have h3 : clientId.length ≤ 64 := hclient.length
    have h4 : accessToken.length ≤ 128 := htoken.length
    have hone : (JsonText.printInt (1 : Int32).toInt).length = 1 := by simp [JsonText.printInt, JsonText.digits]
    have hnames : (JsonText.printString (ascii "schema_version")).length = 16 ∧
        (JsonText.printString (ascii "client_id")).length = 11 ∧
        (JsonText.printString (ascii "access_token")).length = 14 := by decide
    simp only [DEVICE_IDENTITY_MAX_FILE_BYTES, printObject, JsonText.printMembers, JsonText.printMember,
      JsonText.Scalar.print, List.length_append, List.length_cons, List.length_nil, hone, hnames]
    omega

end Record

/-! ## The files -/

/-- The contents of the files, and the path of the one that is open. -/
structure Files where
  content : List UInt8 → Option (List UInt8)
  opened : Option (List UInt8)

/-- What a call does to the files. A write stores as many bytes as it reports, a close
that fails leaves of the file what it may, and a rename takes place or does not. -/
def Files.step (files : Files) : Done Op Res → Files
  | ⟨.osalOpenTruncate path, true⟩ => ⟨Function.update files.content path (some []), some path⟩
  | ⟨.osalWrite bytes, written⟩ =>
    match files.opened with
    | some path =>
      let stored := (files.content path).getD [] ++ bytes.take written.toNat
      { files with content := Function.update files.content path (some stored) }
    | none => files
  | ⟨.osalClose, torn⟩ =>
    match files.opened, torn with
    | some path, some bytes => ⟨Function.update files.content path (some bytes), none⟩
    | _, _ => { files with opened := none }
  | ⟨.osalRename source target, true⟩ =>
    { files with content := Function.update (Function.update files.content source none) target (files.content source) }
  | _ => files

def Files.run (files : Files) (done : List (Done Op Res)) : Files := done.foldl Files.step files

/-! ## The run of the callback -/

/-- The identity is replaced. -/
def Renamed (done : List (Done Op Res)) : Prop := ⟨.osalRename IDENTITY_TMP_PATH IDENTITY_PATH, true⟩ ∈ done

/-- A write of all its bytes, and a close without an error. -/
def Succeeds : Done Op Res → Prop
  | ⟨.osalWrite bytes, written⟩ => written = bytes.length
  | ⟨.osalClose, torn⟩ => torn = none
  | _ => True

section Run

variable {print : Json → List UInt8} {config : TbProvisioningConfig} {credentialsValue : List UInt8}
  {done : List (Done Op Res)} {ok : Bool}

/-- The document that is staged. -/
def staged (print : Json → List UInt8) (config : TbProvisioningConfig) (credentialsValue : List UInt8) : List UInt8 :=
  print (identityRoot config.deviceName.str (cstr credentialsValue))

/-- The calls up to the close of the staged file. -/
def staging (json : List UInt8) (written : Int) (torn : Option (List UInt8)) : List (Done Op Res) :=
  [⟨.cJsonBuild, true⟩, ⟨.cJsonPrint, true⟩, ⟨.osalOpenTruncate IDENTITY_TMP_PATH, true⟩, ⟨.osalWrite json, written⟩,
    ⟨.osalClose, torn⟩]

/-- The rename of the staged file. -/
def replacing (renamed : Bool) : Done Op Res := ⟨.osalRename IDENTITY_TMP_PATH IDENTITY_PATH, renamed⟩

/-- What staging leaves: the old identity, and beside it what was written or is torn. -/
theorem run_staging (files : Files) (json : List UInt8) (written : Int) (torn : Option (List UInt8)) :
    (files.run (staging json written torn)).content IDENTITY_PATH = files.content IDENTITY_PATH ∧
      (files.run (staging json written torn)).content IDENTITY_TMP_PATH = some (torn.getD (json.take written.toNat)) := by
  have hpaths : IDENTITY_PATH ≠ IDENTITY_TMP_PATH := by decide
  cases torn <;> simp [Files.run, Files.step, staging, hpaths]

theorem run_replacing (files : Files) (json : List UInt8) (torn : Option (List UInt8)) :
    (files.run (staging json json.length torn ++ [replacing true])).content IDENTITY_PATH = some (torn.getD json) := by
  have htmp := (run_staging files json json.length torn).2
  rw [Int.toNat_natCast, List.take_length] at htmp
  rw [Files.run, List.foldl_append, List.foldl_cons, List.foldl_nil, ← Files.run, ← htmp]
  simp [Files.step, replacing]

/-- A run leaves the identity as it was and says so, or has replaced it by what it staged. -/
theorem persistIdentity_cases (h : (persistIdentity print credentialsValue config).Path done ok) :
    (ok = false ∧ ¬ Renamed done ∧ ∀ files : Files, (files.run done).content IDENTITY_PATH = files.content IDENTITY_PATH) ∨
      (ok = true ∧ ∃ torn, done = staging (staged print config credentialsValue) (staged print config credentialsValue).length
        torn ++ [replacing true]) := by
  unfold persistIdentity writeIdentity at h
  simp only [Prog.perform_bind, Prog.path_op] at h
  obtain ⟨built, d, rfl, h⟩ := h
  cases built with
  | false =>
    obtain ⟨rfl, rfl⟩ := h
    exact .inl ⟨rfl, by simp [Renamed], fun files => rfl⟩
  | true =>
  obtain ⟨printed, d, rfl, h⟩ := h
  cases printed with
  | false =>
    obtain ⟨rfl, rfl⟩ := h
    exact .inl ⟨rfl, by simp [Renamed], fun files => rfl⟩
  | true =>
  obtain ⟨opened, d, rfl, h⟩ := h
  cases opened with
  | false =>
    obtain ⟨rfl, rfl⟩ := h
    exact .inl ⟨rfl, by simp [Renamed], fun files => rfl⟩
  | true =>
  obtain ⟨written, d, rfl, torn, d', rfl, h⟩ := h
  have hstaging := fun files => (run_staging files (staged print config credentialsValue) written torn).1
  dsimp only at h
  split at h
  · rename_i hw
    obtain rfl := Prog.path_perform.1 h
    subst hw
    cases ok with
    | false =>
      exact .inl ⟨rfl, by simp [Renamed], fun files => hstaging files⟩
    | true => exact .inr ⟨rfl, torn, rfl⟩
  · obtain ⟨rfl, rfl⟩ := h
    exact .inl ⟨rfl, by simp [Renamed], hstaging⟩

end Run

/-! ## The identity after a run -/

/-- A run that fails leaves the identity, byte for byte; after one that succeeds it is a
record of the schema, and every write and close succeeded. -/
structure KeepsIdentity (L : Lexis) (files : Files) (done : List (Done Op Res)) (ok : Bool) : Prop where
  failed : ok = false → (files.run done).content IDENTITY_PATH = files.content IDENTITY_PATH
  record : ok = true → ∃ content, (files.run done).content IDENTITY_PATH = some content ∧ IdentityRecord L content
  calls : ok = true → ∀ d ∈ done, Succeeds d

/-- A configuration that was loaded names the device by a value of the schema. -/
theorem loaded_deviceName {L : Lexis} {parse : List UInt8 → Option Json} (hparse : ReadsFront L parse)
    {old config : TbProvisioningConfig} {done : List (Done Op Res)}
    (h : (tbProvisioningLoad parse (some old)).Path done (.ok, some config)) :
    Value TB_PROVISIONING_MAX_STRING_LEN false config.deviceName.str := by
  rcases tbProvisioningLoad_cases h with ⟨-, hne, -⟩ | ⟨size, d, buffer, -, -, hends⟩
  · exact absurd rfl hne
  rcases hends with ⟨config', hp, -, hout⟩ | ⟨-, hne, -⟩
  swap
  · exact absurd rfl hne
  obtain rfl := Option.some.inj hout
  obtain ⟨text, -, hp⟩ := Option.bind_eq_some_iff.1 hp
  obtain ⟨members, rest, -, hm⟩ := (parseConfig_iff hparse).1 hp
  obtain ⟨s, -, hv, hs⟩ := hm.deviceName
  rw [hs.str hv.plain]
  exact hv

section Keeps

variable {L : Lexis} {print : Json → List UInt8} {config : TbProvisioningConfig} {credentialsValue : List UInt8}
  {done : List (Done Op Res)} {ok : Bool} {files : Files}

/-- A rename that keeps the identity whole comes after a close that succeeded, and
brings a token of the schema. -/
theorem KeepsIdentity.token (hprint : PrintsIdentity L print) (hname : (0 : UInt8) ∉ config.deviceName.str)
    (h : (persistIdentity print credentialsValue config).Path done ok) (hkeeps : KeepsIdentity L files done ok)
    (hr : Renamed done) :
    ⟨.osalClose, none⟩ ∈ done ∧ Value DEVICE_IDENTITY_TOKEN_MAX_LEN true (cstr credentialsValue) := by
  rcases persistIdentity_cases h with ⟨-, hno, -⟩ | ⟨hok, torn, rfl⟩
  · exact absurd hr hno
  have htorn : torn = none := hkeeps.calls hok ⟨.osalClose, torn⟩ (by simp [staging])
  subst htorn
  obtain ⟨content, hc, hrecord⟩ := hkeeps.record hok
  rw [run_replacing, Option.getD_none] at hc
  obtain rfl := Option.some.inj hc
  exact ⟨by simp [staging], ((identityRecord_iff hprint hname (zero_not_mem_cstr credentialsValue)).1 hrecord).2⟩

/-- A run keeps the identity whole when its rename comes after such a close and with
such a token. -/
theorem KeepsIdentity.of_token (hprint : PrintsIdentity L print)
    (hname : Value DEVICE_IDENTITY_CLIENT_ID_MAX_LEN false config.deviceName.str)
    (h : (persistIdentity print credentialsValue config).Path done ok)
    (hcond : Renamed done → ⟨.osalClose, none⟩ ∈ done ∧ Value DEVICE_IDENTITY_TOKEN_MAX_LEN true (cstr credentialsValue)) :
    KeepsIdentity L files done ok := by
  rcases persistIdentity_cases h with ⟨rfl, -, hkept⟩ | ⟨rfl, torn, rfl⟩
  · exact ⟨fun _ => hkept files, by simp, by simp⟩
  obtain ⟨hclose, htoken⟩ := hcond (List.mem_append_right _ List.mem_cons_self)
  have htorn : none = torn := by simpa [staging, replacing] using hclose
  subst htorn
  have hrecord := (identityRecord_iff hprint hname.plain htoken.plain).2 ⟨hname, htoken⟩
  refine ⟨by simp, fun _ => ⟨_, run_replacing files _ _, hrecord⟩, fun _ d hd => ?_⟩
  simp only [staging, replacing, List.mem_append, List.mem_cons, List.not_mem_nil, or_false] at hd
  rcases hd with (rfl | rfl | rfl | rfl | rfl) | rfl <;> trivial

end Keeps

/-- Every configuration a load accepts, every credentials value, and every run of the
callback over any files: the identity is kept whole exactly when a rename that takes
place comes after a close that succeeded, and the token is one of the schema. -/
theorem persist_keeps_iff {L : Lexis} {parse : List UInt8 → Option Json} {print : Json → List UInt8}
    (hparse : ReadsFront L parse) (hprint : PrintsIdentity L print) {old config : TbProvisioningConfig}
    {loaded : List (Done Op Res)} (hload : (tbProvisioningLoad parse (some old)).Path loaded (.ok, some config))
    {credentialsValue : List UInt8} {done : List (Done Op Res)} {ok : Bool}
    (h : (persistIdentity print credentialsValue config).Path done ok) (files : Files) :
    KeepsIdentity L files done ok ↔
      (Renamed done → ⟨.osalClose, none⟩ ∈ done ∧ Value DEVICE_IDENTITY_TOKEN_MAX_LEN true (cstr credentialsValue)) := by
  have hname := loaded_deviceName hparse hload
  exact ⟨fun hkeeps => hkeeps.token hprint hname.plain h, KeepsIdentity.of_token hprint hname h⟩

/-- A printer of identity documents. -/
def printIdentity (root : Json) : List UInt8 := (printText root).getD []

theorem prints_printIdentity : PrintsIdentity cJsonIntegers printIdentity := by
  have hroot : ∀ clientId accessToken, printIdentity (identityRoot clientId accessToken) =
      printObject [(ascii "schema_version", .int 1), (ascii "client_id", .string clientId),
        (ascii "access_token", .string accessToken)] := fun clientId accessToken => by
    rw [printIdentity, show identityRoot clientId accessToken = JsonText.object [(ascii "schema_version", .int 1),
      (ascii "client_id", .string clientId), (ascii "access_token", .string accessToken)] from rfl,
      JsonText.printText_object, Option.getD_some]
  refine ⟨fun clientId accessToken _ _ => ?_, fun clientId accessToken _ _ => hroot clientId accessToken⟩
  let version : Written cJsonIntegers :=
    ⟨ascii "schema_version", JsonText.digits 1, _, by unfold Name; decide +kernel, denotes_number (decimal_cJsonIntegers 1)⟩
  let client : Written cJsonIntegers :=
    ⟨ascii "client_id", JsonText.printString clientId, _, by unfold Name; decide +kernel, denotes_string fun _ _ => rfl⟩
  let token : Written cJsonIntegers :=
    ⟨ascii "access_token", JsonText.printString accessToken, _, by unfold Name; decide +kernel, denotes_string fun _ _ => rfl⟩
  have htext : printIdentity (identityRoot clientId accessToken) = objectText version [client, token] := by
    have h1 := printMember_written version (v := .int 1) (by simp [version, JsonText.Scalar.print, JsonText.printInt])
    have h2 := printMember_written client (v := .string clientId) rfl
    have h3 := printMember_written token (v := .string accessToken) rfl
    rw [hroot, objectText, membersText, membersText, membersText, ← h1, ← h2, ← h3]
    rfl
  rw [htext]
  exact ⟨[], (denotes_object standard_cJsonIntegers version [client, token]).first standard_cJsonIntegers, rfl⟩

/-- What a load makes of the document for an enrolment. -/
def provisioningConfig : TbProvisioningConfig := ⟨.ofStr _ (ascii "lamp 1"), .ofStr _ (ascii "key"), .ofStr _ (ascii "secret")⟩

theorem loads_provisioning : (tbProvisioningLoad parseFront (some emptyConfig)).Path
    ((tbProvisioningLoad parseFront (some emptyConfig)).under (serving provisioningText)).1 (.ok, some provisioningConfig) := by
  have hends : ((tbProvisioningLoad parseFront (some emptyConfig)).under (serving provisioningText)).2 =
      (.ok, some provisioningConfig) := by decide +kernel
  rw [← hends]
  exact Prog.under_path (serving provisioningText) _

/-- The files of a device without an identity. -/
def noFiles : Files := ⟨fun _ => none, none⟩

theorem persist_keeps_token : KeepsIdentity cJsonIntegers noFiles
    ((persistIdentity printIdentity (ascii "token") provisioningConfig).under (serving [])).1
    ((persistIdentity printIdentity (ascii "token") provisioningConfig).under (serving [])).2 :=
  (persist_keeps_iff reads_parseFront prints_printIdentity loads_provisioning (Prog.under_path (serving []) _) noFiles).2
    fun _ => ⟨by simp [persistIdentity, writeIdentity, serving, Prog.under], by constructor <;> decide +kernel⟩

/-- A token with a blank in it is made an identity that no load takes. -/
theorem blank_token_persisted :
    ¬ ∀ (L : Lexis) (parse : List UInt8 → Option Json) (print : Json → List UInt8), ReadsFront L parse →
      PrintsIdentity L print → ∀ old config loaded, (tbProvisioningLoad parse (some old)).Path loaded (.ok, some config) →
      ∀ credentialsValue done ok, (persistIdentity print credentialsValue config).Path done ok →
      ∀ files, KeepsIdentity L files done ok := by
  intro h
  have hpath := Prog.under_path (serving []) (persistIdentity printIdentity (ascii "my token") provisioningConfig)
  have hkeeps := h _ _ _ reads_parseFront prints_printIdentity _ _ _ loads_provisioning _ _ _ hpath noFiles
  have hrenamed : Renamed ((persistIdentity printIdentity (ascii "my token") provisioningConfig).under (serving [])).1 := by
    simp [Renamed, persistIdentity, writeIdentity, serving, Prog.under, Prog.perform]
  obtain ⟨-, htoken⟩ := hkeeps.token prints_printIdentity (by decide) hpath hrenamed
  exact absurd (htoken.chars 0x20 (by decide)).2.2 (by decide)

end LedLamp.TbProvisioning
