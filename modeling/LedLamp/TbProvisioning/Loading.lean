import LedLamp.JsonReader
import LedLamp.TbProvisioning.Calls
/-!
# Loading the provisioning document

What a load accepts of a stored content is the configuration at its front, read through
C strings (`Shows`): the parse does not ask for the end of the text, and both the text and
its strings end at their first NUL byte. So a load goes by the schema exactly where
nothing is hidden behind what it looks at (`load_exact_iff`).
-/

namespace LedLamp.TbProvisioning

open Conc JsonSyntax

/-- A parse that reads the first item of a text without NUL bytes, and lets anything
follow it. -/
def ReadsFront (L : Lexis) (cJsonParseWithLengthOpts : List UInt8 → Option Json) : Prop :=
  ∀ text v, 0 ∉ text → (cJsonParseWithLengthOpts text = some v ↔ ∃ rest, First L text v rest)

/-- The stored content is a provisioning document, of this configuration. -/
structure Stored (L : Lexis) (content : List UInt8) (config : TbProvisioningConfig) : Prop where
  size : content.length ≤ TB_PROVISIONING_MAX_FILE_BYTES
  plain : 0 ∉ content
  document : ∃ members, Document L content (.object members) ∧ ConfigMembers members config

/-- The front of the content, up to a NUL byte, is an object that shows this
configuration: each name and string up to its own first NUL byte. -/
def Shows (L : Lexis) (content : List UInt8) (members : List (List UInt8 × Json)) (rest : List UInt8)
    (config : TbProvisioningConfig) : Prop :=
  First L (cstr content) (.object members) rest ∧ ConfigMembers (members.map clipMember) config

/-- More stands behind the object that is shown, in the text, behind its first NUL byte,
or in one of the strings. -/
def Hides (L : Lexis) (content : List UInt8) (members : List (List UInt8 × Json)) (rest : List UInt8) : Prop :=
  ¬ Blank L rest ∨ 0 ∈ content ∨ Json.membersHoldNul members = true

section Load

variable {L : Lexis} {parse : List UInt8 → Option Json} {content : List UInt8} {config : TbProvisioningConfig}

theorem parseConfig_iff (hparse : ReadsFront L parse) :
    parseConfig parse content = some config ↔ ∃ members rest, Shows L content members rest config := by
  have hread := fun v => hparse (cstr content) v (zero_not_mem_cstr content)
  unfold parseConfig
  constructor
  · intro h
    cases hp : parse (cstr content) with
    | none => simp [hp] at h
    | some v =>
      obtain ⟨rest, hf⟩ := (hread v).1 hp
      cases v with
      | object members =>
        rw [hp] at h
        exact ⟨members, rest, hf, parseRoot_iff.1 h⟩
      | _ => simp [hp] at h
  · rintro ⟨members, rest, hf, hm⟩
    rw [(hread _).2 ⟨rest, hf⟩]
    exact parseRoot_iff.2 hm

/-- A stored document shows itself, and hides nothing. -/
theorem Stored.shows (h : Stored L content config) : ∃ members rest, Shows L content members rest config ∧
    ¬ Hides L content members rest := by
  obtain ⟨members, ⟨rest, hf, hb⟩, hm⟩ := h.document
  refine ⟨members, rest, ⟨?_, ?_⟩, ?_⟩
  · rwa [cstr_of_not_mem h.plain]
  · rwa [clip_plain hm.plain]
  · simp [Hides, hb, h.plain, hm.plain]

/-- What hides nothing of the configuration it shows is its document. -/
theorem Shows.stored {members : List (List UInt8 × Json)} {rest : List UInt8} (h : Shows L content members rest config)
    (hsize : content.length ≤ TB_PROVISIONING_MAX_FILE_BYTES) (hno : ¬ Hides L content members rest) :
    Stored L content config := by
  simp only [Hides, not_or, not_not, Bool.not_eq_true] at hno
  obtain ⟨hb, h0, hnul⟩ := hno
  obtain ⟨hf, hm⟩ := h
  rw [cstr_of_not_mem h0] at hf
  rw [clip_plain hnul] at hm
  exact ⟨hsize, h0, members, ⟨rest, hf, hb⟩, hm⟩

/-! ## The load -/

/-- What the storage answers while it serves this content. -/
def Serves (content : List UInt8) : Done Op Res → Prop
  | ⟨.osalStat _, size⟩ => size = some content.length
  | ⟨.osalOpenRead _, opened⟩ => opened = true
  | ⟨.osalRead _, bytes⟩ => bytes = some content
  | _ => True

variable {done : List (Done Op Res)} {status : TbProvisioningStatus} {out out' : Option TbProvisioningConfig}

/-- A read of a served file gives its content, when it is within the bound. -/
theorem readFile_serves {path : List UInt8} {capacity : Nat} {buffer : Option (List UInt8)}
    (h : (readFile path capacity).Path done buffer) (hs : ∀ d ∈ done, Serves content d) :
    buffer = if content.length = 0 ∨ content.length ≥ capacity then none else some content := by
  simp only [readFile, Prog.perform_bind, Prog.path_op] at h
  obtain ⟨size, rest, rfl, h⟩ := h
  have hsize : size = some content.length := hs ⟨.osalStat path, size⟩ (by simp)
  subst hsize
  dsimp only at h
  by_cases hb : content.length = 0 ∨ content.length ≥ capacity
  · rw [if_pos hb] at h ⊢
    exact h.2
  rw [if_neg hb] at h ⊢
  obtain ⟨opened, rest, rfl, h⟩ := h
  have hopen : opened = true := hs ⟨.osalOpenRead path, opened⟩ (by simp)
  subst hopen
  dsimp only at h
  rw [if_pos rfl] at h
  obtain ⟨bytes, rest, rfl, _, _, rfl, h⟩ := h
  have hread : bytes = some content := hs ⟨.osalRead content.length, bytes⟩ (by simp)
  subst hread
  obtain ⟨-, rfl⟩ := h
  rw [not_or] at hb
  simpa [Nat.lt_of_not_le hb.2] using hb.1

/-- How a load ends: without a file, with the configuration of the bytes it read, or
refusing them. -/
theorem tbProvisioningLoad_cases {old : TbProvisioningConfig}
    (h : (tbProvisioningLoad parse (some old)).Path done (status, out')) :
    (done = [⟨.osalStat TB_PROVISIONING_FILE_PATH, none⟩] ∧ status ≠ .ok ∧ out' = some old) ∨
      ∃ size d buffer, done = ⟨.osalStat TB_PROVISIONING_FILE_PATH, some size⟩ :: d ∧
        (readFile TB_PROVISIONING_FILE_PATH (TB_PROVISIONING_MAX_FILE_BYTES + 1)).Path d buffer ∧
        ((∃ config, buffer.bind (parseConfig parse) = some config ∧ status = .ok ∧ out' = some config) ∨
          (buffer.bind (parseConfig parse) = none ∧ status ≠ .ok ∧ out' = some old)) := by
  unfold tbProvisioningLoad at h
  dsimp only at h
  rw [Prog.perform_bind, Prog.path_op] at h
  obtain ⟨size, d, rfl, h⟩ := h
  cases size with
  | none =>
    obtain ⟨rfl, h⟩ := h
    cases h
    exact .inl ⟨rfl, by simp, rfl⟩
  | some size =>
    dsimp only at h
    rw [Prog.path_bind] at h
    obtain ⟨d₁, buffer, d₂, rfl, hread, h⟩ := h
    refine .inr ⟨size, d₁, buffer, ?_⟩
    cases buffer with
    | none =>
      obtain ⟨rfl, h⟩ := h
      cases h
      exact ⟨by rw [List.append_nil], hread, .inr ⟨rfl, by simp, rfl⟩⟩
    | some buffer =>
      dsimp only at h
      rw [Option.bind_some]
      cases hp : parseConfig parse buffer with
      | none =>
        rw [hp] at h
        obtain ⟨rfl, h⟩ := h
        cases h
        exact ⟨by rw [List.append_nil], hread, .inr ⟨rfl, by simp, rfl⟩⟩
      | some parsed =>
        rw [hp] at h
        obtain ⟨rfl, h⟩ := h
        cases h
        exact ⟨by rw [List.append_nil], hread, .inl ⟨parsed, rfl, rfl, rfl⟩⟩

/-- A load that does not succeed leaves its argument alone. -/
theorem tbProvisioningLoad_refused (h : (tbProvisioningLoad parse out).Path done (status, out')) (hne : status ≠ .ok) :
    out' = out := by
  cases out with
  | none =>
    obtain ⟨-, h⟩ := h
    cases h
    rfl
  | some old =>
    rcases tbProvisioningLoad_cases h with ⟨-, -, h⟩ | ⟨_, _, _, -, -, ⟨_, -, hok, -⟩ | ⟨-, -, h⟩⟩
    · exact h
    · exact absurd hok hne
    · exact h

/-- A load of a served content is a success exactly when the content is within the
bound and shows a configuration. -/
theorem tbProvisioningLoad_serves (hparse : ReadsFront L parse) (hout : out ≠ none)
    (h : (tbProvisioningLoad parse out).Path done (status, out')) (hs : ∀ d ∈ done, Serves content d) :
    (status = .ok ∧ out' = some config) ↔
      content.length ≤ TB_PROVISIONING_MAX_FILE_BYTES ∧ ∃ members rest, Shows L content members rest config := by
  obtain ⟨old, rfl⟩ := Option.ne_none_iff_exists'.1 hout
  rw [← parseConfig_iff hparse]
  rcases tbProvisioningLoad_cases h with ⟨rfl, -⟩ | ⟨size, d, buffer, rfl, hread, hends⟩
  · have hstat : none = some content.length := hs ⟨.osalStat TB_PROVISIONING_FILE_PATH, none⟩ (by simp)
    cases hstat
  have hbuffer := readFile_serves hread fun d hd => hs d (List.mem_cons_of_mem _ hd)
  -- An empty content shows nothing.
  have hempty : content.length = 0 → parseConfig parse content ≠ some config := by
    intro h0 hp
    obtain ⟨members, rest, ⟨hf, -⟩⟩ := (parseConfig_iff hparse).1 hp
    obtain rfl := List.eq_nil_of_length_eq_zero h0
    exact absurd hf.lt (by simp [skip, cstr])
  have hbind : buffer.bind (parseConfig parse) = some config ↔
      content.length ≤ TB_PROVISIONING_MAX_FILE_BYTES ∧ parseConfig parse content = some config := by
    rw [hbuffer]
    by_cases hb : content.length = 0 ∨ content.length ≥ TB_PROVISIONING_MAX_FILE_BYTES + 1
    · rw [if_pos hb]
      refine iff_of_false (by simp) fun h => hempty ?_ h.2
      have hle := h.1
      omega
    · rw [if_neg hb, Option.bind_some, and_iff_right (by omega)]
  rw [← hbind]
  rcases hends with ⟨config', hc, rfl, rfl⟩ | ⟨hc, hne, -⟩
  · rw [hc]
    simp
  · rw [hc]
    exact iff_of_false (fun h => hne h.1) (by simp)

end Load

/-- A storage that serves this content. -/
def serving (content : List UInt8) : (o : Op) → Res o
  | .osalStat _ => some content.length
  | .osalOpenRead _ => true
  | .osalOpenTruncate _ => true
  | .osalRead _ => some content
  | .osalWrite bytes => (bytes.length : Int)
  | .osalClose => none
  | .osalRename _ _ => true
  | .cJsonBuild => true
  | .cJsonPrint => true

theorem serving_serves {α : Type} {p : Act α} (content : List UInt8) :
    ∀ d ∈ (p.under (serving content)).1, Serves content d := by
  intro d hd
  rw [Prog.under_answer d hd]
  obtain ⟨o, r⟩ := d
  cases o <;> first | rfl | trivial

/-- A load that is served the content accepts it exactly when it is a provisioning
document, and hands out its strings. -/
def Exact (L : Lexis) (parse : List UInt8 → Option Json) (content : List UInt8) : Prop :=
  ∀ out done status out', (tbProvisioningLoad parse out).Path done (status, out') → out ≠ none →
    (∀ d ∈ done, Serves content d) → ∀ config, (status = .ok ∧ out' = some config) ↔ Stored L content config

/-- Within the bound, the content shows a configuration and hides something. -/
def Slips (L : Lexis) (content : List UInt8) : Prop :=
  content.length ≤ TB_PROVISIONING_MAX_FILE_BYTES ∧
    ∃ members rest config, Shows L content members rest config ∧ Hides L content members rest

/-- Every content: the load goes by the schema exactly where nothing is hidden behind
what it shows. And every load, whatever it is served, leaves its argument alone when it
does not succeed. -/
theorem load_exact_iff {L : Lexis} {parse : List UInt8 → Option Json} (hparse : ReadsFront L parse) :
    (∀ content, Exact L parse content ↔ ¬ Slips L content) ∧
      ∀ out done status out', (tbProvisioningLoad parse out).Path done (status, out') → status ≠ .ok → out' = out := by
  refine ⟨fun content => ⟨?_, ?_⟩, fun out done status out' => tbProvisioningLoad_refused⟩
  · rintro h ⟨hsize, members, rest, config, hshows, hhides⟩
    have hpath := Prog.under_path (serving content) (tbProvisioningLoad parse (some config))
    have hserves := serving_serves (p := tbProvisioningLoad parse (some config)) content
    have hok := (tbProvisioningLoad_serves hparse (by simp) hpath hserves).2 ⟨hsize, members, rest, hshows⟩
    -- The document it would be begins with the same object, and hides nothing.
    obtain ⟨members', rest', hshows', hno⟩ := ((h _ _ _ _ hpath (by simp) hserves config).1 hok).shows
    obtain ⟨hobject, rfl⟩ := hshows.1.unique hshows'.1
    obtain rfl := Json.object.inj hobject
    exact hno hhides
  · intro hno out done status out' hpath hout hs config
    rw [tbProvisioningLoad_serves hparse hout hpath hs]
    constructor
    · rintro ⟨hsize, members, rest, hshows⟩
      exact hshows.stored hsize fun hhides => hno ⟨hsize, members, rest, config, hshows, hhides⟩
    · intro hstored
      obtain ⟨members, rest, hshows, -⟩ := hstored.shows
      exact ⟨hstored.size, members, rest, hshows⟩

/-- A document for an enrolment. -/
def provisioningText : List UInt8 :=
  ascii "\x7b\"schema_version\":1, \"device_name\":\"lamp 1\", \"provision_device_key\":\"key\"," ++
  ascii " \"provision_device_secret\":\"secret\"\x7d"

/-- The front of a text without NUL bytes, read as cJSON reads it. -/
def parseFront (text : List UInt8) : Option Json := (first cJsonIntegers text).map (·.1)

theorem reads_parseFront : ReadsFront cJsonIntegers parseFront := fun text v _ => by
  simp only [parseFront, Option.map_eq_some_iff, Prod.exists, exists_eq_right, exists_and_right]
  exact exists_congr fun rest => first_iff

theorem load_exact_provisioning : Exact cJsonIntegers parseFront provisioningText ∧
    ∀ out done status out', (tbProvisioningLoad parseFront out).Path done (status, out') → status ≠ .ok → out' = out := by
  obtain ⟨hexact, hrefused⟩ := load_exact_iff reads_parseFront
  refine ⟨(hexact provisioningText).2 ?_, hrefused⟩
  rintro ⟨-, members, rest, config, ⟨hf, -⟩, hhides⟩
  have hno : (first cJsonIntegers (cstr provisioningText)).all
      (fun r => r.2.all cJsonIntegers.space && !Json.membersHoldNul r.1.members) = true := by decide +kernel
  rw [first_iff.2 hf, Option.all_some, Bool.and_eq_true, Bool.not_eq_true'] at hno
  rcases hhides with hb | h0 | hnul
  · exact hb hno.1
  · exact absurd h0 (by decide +kernel)
  · exact absurd hnul (Bool.eq_false_iff.1 hno.2)

/-- The document, and a byte that belongs to no document. -/
def trailingText : List UInt8 := provisioningText ++ ascii "x"

/-- A record that nothing was loaded into. -/
def emptyConfig : TbProvisioningConfig := ⟨.ofStr _ [], .ofStr _ [], .ofStr _ []⟩

/-- The load that is served the content and nothing else. -/
theorem Exact.served {L : Lexis} {parse : List UInt8 → Option Json} {content : List UInt8} (h : Exact L parse content)
    {old config : TbProvisioningConfig}
    (hok : ((tbProvisioningLoad parse (some old)).under (serving content)).2.1 = .ok)
    (hout : ((tbProvisioningLoad parse (some old)).under (serving content)).2.2 = some config) : Stored L content config :=
  (h _ _ _ _ (Prog.under_path (serving content) _) (by simp) (serving_serves content) config).1 ⟨hok, hout⟩

theorem trailing_byte_accepted :
    ¬ ∀ (L : Lexis) (parse : List UInt8 → Option Json), ReadsFront L parse → ∀ content, Exact L parse content := by
  intro h
  have hok : (((tbProvisioningLoad parseFront (some emptyConfig)).under (serving trailingText)).2.1 = .ok ∧
      ((tbProvisioningLoad parseFront (some emptyConfig)).under (serving trailingText)).2.2.isSome = true) := by
    decide +kernel
  obtain ⟨config, hout⟩ := Option.isSome_iff_exists.1 hok.2
  have hstored := (h _ _ reads_parseFront trailingText).served hok.1 hout
  obtain ⟨members, rest, ⟨hf, -⟩, hno⟩ := hstored.shows
  have hrest : (first cJsonIntegers (cstr trailingText)).map (·.2) = some (ascii "x") := by decide +kernel
  rw [first_iff.2 hf] at hrest
  obtain rfl := Option.some.inj hrest
  exact hno (.inl fun hb => absurd (show (ascii "x").all cJsonIntegers.space = true from hb) (by decide))

end LedLamp.TbProvisioning
