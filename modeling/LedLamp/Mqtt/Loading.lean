import LedLamp.Conc.Exec
import LedLamp.JsonReader
import LedLamp.Mqtt.Acceptance
/-!
# Loading the stored broker document

A load of a stored text without NUL bytes succeeds exactly when the text is a
document that `Accepts` describes, and then hands out its configuration; every
other load leaves `out` alone and ends the way of `FailTail`.

The parse goes by the length of the content, the scan for NUL escapes and every
string check stop at a NUL byte. So a content with raw NUL bytes can get strings
past the scan that the checks then see only the front of (`hidden_nul_accepted`);
`load_nul_free_iff` says exactly which contents do.
-/

namespace LedLamp.Mqtt

open Conc JsonSyntax Lamp

/-! ## Refusals -/

/-- A refusal names an error. -/
def Refuses {α : Type} (x : Except MqttCfgStatus α) : Prop := x ≠ .error .ok

theorem Refuses.bind {α β : Type} {x : Except MqttCfgStatus α} {f : α → Except MqttCfgStatus β} (hx : Refuses x)
    (hf : ∀ a, Refuses (f a)) : Refuses (x >>= f) := by
  cases x with
  | error e => exact fun h => hx (by cases h; rfl)
  | ok a => exact hf a

theorem Refuses.check {α : Type} {c : Prop} [Decidable c] {e : MqttCfgStatus} {x : Except MqttCfgStatus α}
    (he : c → e ≠ .ok) (hx : Refuses x) : Refuses (do if c then .error e
                                                      x) := by
  by_cases h : c
  · simp only [h, if_true]
    intro e'
    cases e'
    exact he h rfl
  · simpa [h] using hx

theorem refuses_ok {α : Type} (a : α) : Refuses (.ok a) := nofun

theorem mqttCfgGetStringMember_refuses (root : Json) (key : String) (cap : Nat) :
    Refuses (mqttCfgGetStringMember root key cap) := by
  unfold Refuses mqttCfgGetStringMember
  split
  · nofun
  · split <;> nofun
  · nofun

theorem mqttCfgParseRoot_refuses (root : Json) : Refuses (mqttCfgParseRoot root) := by
  have text := fun key cap => mqttCfgGetStringMember_refuses root key cap
  have hversion : Refuses (parseSchemaVersion root) := by
    unfold Refuses parseSchemaVersion
    split
    · split <;> nofun
    · nofun
  have hport : Refuses (parsePort root) := by
    unfold Refuses parsePort
    split
    · split <;> nofun
    · nofun
  have hmode : Refuses (parseTlsMode root) := by
    unfold Refuses parseTlsMode
    split
    · split <;> nofun
    · nofun
  have hskip : Refuses (parseSkipVerify root) := by
    unfold Refuses parseSkipVerify
    split
    · nofun
    · split <;> nofun
    · nofun
  have hauth : Refuses (parseAuthMode root) := by
    unfold Refuses parseAuthMode
    split
    · split_ifs <;> nofun
    · nofun
  unfold mqttCfgParseRoot
  refine .check (by simp) (hversion.bind fun version => (text _ _).bind fun hostname => .check (by simp) ?_)
  refine hport.bind fun port => (text _ _).bind fun clientId => .check (by simp) ?_
  refine hmode.bind fun mode => hskip.bind fun _ => (text _ _).bind fun caPath => .check (by simp) ?_
  exact (text _ _).bind fun cert => (text _ _).bind fun key => hauth.bind fun auth => refuses_ok _

theorem mqttCfgDocument_refuses (parse : List UInt8 → Option Json) (json : List UInt8) :
    Refuses (mqttCfgDocument parse json) := by
  unfold mqttCfgDocument
  split
  · refine .check (by simp) ((mqttCfgParseRoot_refuses _).bind fun parsed => ?_)
    exact .check id (refuses_ok _)
  · nofun

/-! ## The load -/

/-- What the storage answers while it serves this content. -/
def Serves (json : List UInt8) : Done Op Res → Prop
  | ⟨.osalStat _, size⟩ => size = some json.length
  | ⟨.osalOpenCreate _, opened⟩ => opened = true
  | ⟨.malloc _, allocated⟩ => allocated = true
  | ⟨.osalRead _, bytes⟩ => bytes = some json
  | _ => True

/-- The last that a failed call did: the latch is cleared, the verified values are
invalidated, and the lamp is asked to fail off. -/
def FailTail (done : List (Done Op Res)) : Prop :=
  ∃ before answer, done = before ++ [⟨.lock, ()⟩, ⟨.writeVerifiedApplied false, ()⟩, ⟨.mqttConfigInvalidateVerified, ()⟩,
    ⟨.unlock, ()⟩, ⟨.lampControlForceInactive, answer⟩]

section Load

variable {parse : List UInt8 → Option Json} {done : List (Done Op Res)} {status : MqttCfgStatus} {out out' : Option MqttCfg}

theorem FailTail.after {before : List (Done Op Res)} (h : FailTail done) : FailTail (before ++ done) := by
  obtain ⟨d, answer, rfl⟩ := h
  exact ⟨before ++ d, answer, (List.append_assoc ..).symm⟩

theorem loadFail_path {e : MqttCfgStatus} : (loadFail e out).Path done (status, out') →
    status = e ∧ out' = out ∧ FailTail done := by
  simp only [loadFail, mqttCfgFailOff, Prog.perform_bind, Prog.op_bind, Prog.ret_bind, Prog.pure_eq, Prog.path_op,
    Prog.path_ret, Prod.mk.injEq]
  rintro ⟨_, _, rfl, _, _, rfl, _, _, rfl, _, _, rfl, answer, _, rfl, rfl, rfl, rfl⟩
  exact ⟨rfl, rfl, [], answer, rfl⟩

/-- A read of a served file gives its content, when it is within the bound. -/
theorem mqttCfgReadFile_serves {path : List UInt8} {maxLen : Nat} {json : List UInt8} {contents : Option (List UInt8)}
    (h : (mqttCfgReadFile path maxLen).Path done contents) (hs : ∀ d ∈ done, Serves json d) :
    contents = if json.length = 0 ∨ json.length ≥ maxLen then none else some json := by
  simp only [mqttCfgReadFile, Prog.perform_bind, Prog.path_op] at h
  obtain ⟨size, rest, rfl, h⟩ := h
  have hsize : size = some json.length := hs ⟨.osalStat path, size⟩ (by simp)
  subst hsize
  dsimp only at h
  by_cases hb : json.length = 0 ∨ json.length ≥ maxLen
  · rw [if_pos hb] at h ⊢
    exact h.2
  · rw [if_neg hb] at h ⊢
    obtain ⟨opened, rest, rfl, h⟩ := h
    have hopen : opened = true := hs ⟨.osalOpenCreate path, opened⟩ (by simp)
    subst hopen
    dsimp only at h
    rw [if_neg (by simp)] at h
    obtain ⟨allocated, rest, rfl, h⟩ := h
    have hmalloc : allocated = true := hs ⟨.malloc (json.length + 1), allocated⟩ (by simp)
    subst hmalloc
    dsimp only at h
    rw [if_pos rfl] at h
    obtain ⟨bytes, rest, rfl, _, _, rfl, h⟩ := h
    have hread : bytes = some json := hs ⟨.osalRead json.length, bytes⟩ (by simp)
    subst hread
    obtain ⟨-, rfl⟩ := h
    simp

/-- How a load ends: with the configuration of what it read, or with the tail of a failure. -/
theorem mqttCfgLoad_cases {old : MqttCfg} (h : (mqttCfgLoad parse (some old)).Path done (status, out')) :
    ∃ contents d₁ d₂, done = d₁ ++ d₂ ∧ (mqttCfgReadFile MQTT_CFG_FILE_PATH MQTT_CFG_MAX_FILE_BYTES).Path d₁ contents ∧
      ((∃ json cfg, contents = some json ∧ mqttCfgDocument parse json = .ok cfg ∧ status = .ok ∧ out' = some cfg) ∨
        (∀ json cfg, contents = some json → mqttCfgDocument parse json ≠ .ok cfg) ∧
          status ≠ .ok ∧ out' = some old ∧ FailTail d₂) := by
  unfold mqttCfgLoad at h
  dsimp only at h
  rw [Prog.path_bind] at h
  obtain ⟨d₁, contents, d₂, rfl, hread, h⟩ := h
  refine ⟨contents, d₁, d₂, rfl, hread, ?_⟩
  cases contents with
  | none =>
    -- The second stat only chooses between the two errors.
    simp only [Prog.perform_bind, Prog.path_op] at h
    obtain ⟨size, rest, rfl, h⟩ := h
    have fails : ∀ {e}, e ≠ .ok → (loadFail e (some old)).Path rest (status, out') →
        status ≠ .ok ∧ out' = some old ∧ FailTail (⟨.osalStat MQTT_CFG_FILE_PATH, size⟩ :: rest) := by
      intro e he hd
      obtain ⟨rfl, rfl, ht⟩ := loadFail_path hd
      exact ⟨he, rfl, (ht.after : FailTail ([_] ++ rest))⟩
    refine .inr ⟨by simp, ?_⟩
    cases size with
    | none => exact fails (e := .errNotFound) (by simp) h
    | some size => exact fails (e := .errBounds) (by simp) h
  | some json =>
    dsimp only at h
    cases hd : mqttCfgDocument parse json with
    | error e =>
      rw [hd] at h
      have he : e ≠ .ok := by
        rintro rfl
        exact mqttCfgDocument_refuses parse json hd
      obtain ⟨rfl, rfl, ht⟩ := loadFail_path h
      refine .inr ⟨fun json' cfg hj => ?_, he, rfl, ht⟩
      cases hj
      simp [hd]
    | ok parsed =>
      rw [hd] at h
      obtain ⟨-, h⟩ := h
      cases h
      exact .inl ⟨json, parsed, rfl, hd, rfl, rfl⟩

/-- A load succeeds with a configuration, or fails and leaves `out` alone. -/
theorem mqttCfgLoad_path (h : (mqttCfgLoad parse out).Path done (status, out')) :
    (status = .ok ∧ out ≠ none ∧ ∃ json cfg, mqttCfgDocument parse json = .ok cfg ∧ out' = some cfg) ∨
      (status ≠ .ok ∧ out' = out ∧ FailTail done) := by
  cases out with
  | none =>
    obtain ⟨rfl, rfl, ht⟩ := loadFail_path h
    exact .inr ⟨nofun, rfl, ht⟩
  | some old =>
    obtain ⟨_, d₁, d₂, rfl, -, ⟨json, cfg, -, hd, hs, ho⟩ | ⟨-, hs, ho, ht⟩⟩ := mqttCfgLoad_cases h
    · exact .inl ⟨hs, nofun, json, cfg, hd, ho⟩
    · exact .inr ⟨hs, ho, ht.after⟩

/-- A load of a served content is a success exactly when the content is within the
bound and its document is let through. -/
theorem mqttCfgLoad_serves {json : List UInt8} (hout : out ≠ none) (h : (mqttCfgLoad parse out).Path done (status, out'))
    (hs : ∀ d ∈ done, Serves json d) (cfg : MqttCfg) : (status = .ok ∧ out' = some cfg) ↔
      (0 < json.length ∧ json.length < MQTT_CFG_MAX_FILE_BYTES) ∧ mqttCfgDocument parse json = .ok cfg := by
  cases out with
  | none => exact absurd rfl hout
  | some old =>
    obtain ⟨contents, d₁, d₂, rfl, hread, hends⟩ := mqttCfgLoad_cases h
    have hcontents := mqttCfgReadFile_serves hread fun d hd => hs d (by simp [hd])
    have hbound : contents = some json ↔ 0 < json.length ∧ json.length < MQTT_CFG_MAX_FILE_BYTES := by
      rw [hcontents]
      split
      · exact iff_of_false nofun (by omega)
      · exact iff_of_true rfl (by omega)
    rcases hends with ⟨json', cfg', rfl, hd, rfl, rfl⟩ | ⟨hno, hne, -⟩
    · -- What was read is the served content, or nothing would have been.
      obtain rfl : json' = json := by
        split at hcontents
        · cases hcontents
        · exact Option.some.inj hcontents
      rw [and_iff_right (hbound.1 rfl), hd]
      simp
    · exact iff_of_false (fun h => hne h.1) fun ⟨hb, hd⟩ => hno json cfg (hbound.2 hb) hd

/-- Every load that the storage serves a content without NUL bytes to, below the size
limit: it succeeds exactly when the whole content is one JSON object without NUL
escapes whose members are a broker configuration, and hands that out. Every failed load,
whatever it failed on, leaves `out` alone and takes the lamp off. -/
theorem load_accepts {L : Lexis} (hparse : ReadsText L parse) (h : (mqttCfgLoad parse out).Path done (status, out')) :
    (∀ json, 0 ∉ json → json.length < MQTT_CFG_MAX_FILE_BYTES → out ≠ none → (∀ d ∈ done, Serves json d) →
      ∀ cfg, (status = .ok ∧ out' = some cfg) ↔ ∃ members, Document L json (.object members) ∧
        Json.membersHoldNul members = false ∧ Accepts members cfg) ∧
    (status = .ok → ∃ cfg, out' = some cfg) ∧
    (status ≠ .ok → out' = out ∧ FailTail done) := by
  refine ⟨?_, ?_, ?_⟩
  · intro json h0 hlen hout hs cfg
    rw [mqttCfgLoad_serves hout h hs, document_accepts hparse h0]
    refine and_iff_right_of_imp ?_
    rintro ⟨members, ⟨rest, hf, -⟩, -⟩
    have hpos := hf.lt
    have := (skip_suffix (L := L) json).length_le
    omega
  · rintro rfl
    rcases mqttCfgLoad_path h with ⟨-, -, _, cfg, -, rfl⟩ | ⟨hne, -⟩
    · exact ⟨cfg, rfl⟩
    · exact absurd rfl hne
  · intro hne
    rcases mqttCfgLoad_path h with ⟨rfl, -⟩ | ⟨-, hout⟩
    · exact absurd rfl hne
    · exact hout

end Load

/-- JSON with integers for numbers. -/
def integerJson : Lexis :=
  .integers (fun c => c = 0x20 || c = 0x09 || c = 0x0A || c = 0x0D) (fun c => 0x20 ≤ c) (by
    intro c h
    constructor <;>
    · rintro rfl
      exact absurd h (by decide))

/-- A storage that serves this content. -/
def serving (json : List UInt8) : (o : Op) → Res o
  | .osalStat _ => some json.length
  | .osalOpenCreate _ => true
  | .malloc _ => true
  | .osalRead _ => some json
  | .loadGen _ => (0 : UInt32)
  | .load _ => false
  | .readVerifiedApplied => false
  | .lampControlForceInactive => LampStatus.ok
  | .lampControlReleaseFailOff => LampStatus.ok
  | .mqttAppIsConnected => false
  | .mqttConfigApplyVerified _ => MqttVerifiedConfigStatus.ok
  | .mqttConfigVerifiedIsCurrent => false
  | .mqttConfigGetVerifiedServerUrl => none
  | .deviceIdentityToken => (false, none)
  | .lock | .unlock | .storeGen _ _ | .store _ _ | .writeVerifiedApplied _ | .mqttAppInit | .mqttAppDeinit
  | .mqttAppSetSafetyCallbacks | .mqttConfigInvalidateVerified | .osalClose | .osalTaskDelayMs _ => ()

theorem serving_serves {α : Type} {p : Act α} (json : List UInt8) :
    ∀ d ∈ (p.under (serving json)).1, Serves json d := by
  intro d hd
  rw [Prog.under_answer d hd]
  obtain ⟨o, r⟩ := d
  cases o <;> first | rfl | trivial

/-- A document with a broker in it. -/
def brokerText : List UInt8 :=
  ascii "\x7b \"schema_version\":1, \"hostname\":\"broker.local\", \"port\":8883, \"tls_mode\":\"mqtts\"," ++
  ascii " \"ca_path\":\"/cert/ca.pem\", \"client_id\":\"lamp\", \"auth_mode\":\"none\" \x7d"

def brokerCfg : MqttCfg where
  schemaVersion := 1
  hostname := .ofStr _ (ascii "broker.local")
  port := 8883
  clientId := .ofStr _ (ascii "lamp")
  tlsMode := .mqtts
  authMode := .none
  caPath := .ofStr _ (ascii "/cert/ca.pem")
  clientCertPath := .ofStr _ []
  clientKeyPath := .ofStr _ []

theorem load_accepts_broker : ∃ members, Document integerJson brokerText (.object members) ∧
    Json.membersHoldNul members = false ∧ Accepts members brokerCfg := by
  have hloaded : ((mqttCfgLoad (fun text => document integerJson text.dropLast) (some { brokerCfg with port := 0 })).under
      (serving brokerText)).2 = (.ok, some brokerCfg) := by decide +kernel
  have hpath := Prog.under_path (serving brokerText)
    (mqttCfgLoad (fun text => document integerJson text.dropLast) (some { brokerCfg with port := 0 }))
  rw [hloaded] at hpath
  have hreads : ReadsText integerJson fun text => document integerJson text.dropLast := fun text v _ => by
    dsimp only
    rw [List.dropLast_concat]
    exact document_iff
  exact ((load_accepts hreads hpath).1 brokerText (by decide +kernel) (by decide +kernel) (by simp) (serving_serves _)
    brokerCfg).1 ⟨rfl, rfl⟩

/-! ## NUL bytes in strings -/

/-- A parse that reads every content by its length, with whatever bytes are in it, as
this grammar's documents. -/
def ReadsBytes (L : Lexis) (parse : List UInt8 → Option Json) : Prop :=
  ∀ text v, parse (text ++ [0]) = some v ↔ Document L text v

/-- No load of this content succeeds on a document with a NUL byte in a string or name. -/
def LoadsNulFree (L : Lexis) (parse : List UInt8 → Option Json) (json : List UInt8) : Prop :=
  ∀ out done status out', (mqttCfgLoad parse out).Path done (status, out') → (∀ d ∈ done, Serves json d) →
    status = .ok → ∀ v, Document L json v → v.holdsNul = false

/-- A content of an admissible size whose document, read through C strings, is let
through. -/
def Admissible (L : Lexis) (json : List UInt8) : Prop :=
  (0 < json.length ∧ json.length < MQTT_CFG_MAX_FILE_BYTES) ∧ ∃ members cfg, Document L json (.object members) ∧
    mqttCfgParseRoot (.object members) = .ok cfg ∧ mqttCfgValidateFields (some cfg) = .ok

/-- Some string literal of the content holds a NUL byte or the escape of one, but the
scan for NUL escapes, which ends at the first NUL byte, does not see it. -/
def HiddenNul (json : List UInt8) : Prop :=
  nulScan false false json = true ∧ mqttCfgRawJsonHasNulEscape json = false

instance (json : List UInt8) : Decidable (HiddenNul json) := inferInstanceAs (Decidable (_ ∧ _))

/-- Without raw NUL bytes no NUL byte of a document is hidden from the scan. -/
theorem not_hiddenNul {L : Lexis} {json : List UInt8} (h0 : 0 ∉ json) {v : Json} (hdoc : Document L json v) :
    ¬ HiddenNul json := by
  rintro ⟨hs, hr⟩
  rw [nulScan_nulScan.document hdoc (fun _ _ => trivial) rfl] at hs
  rw [mqttCfgRawJsonHasNulEscape, cstr_of_not_mem h0,
    nulEscape_nulScan.document hdoc (fun c hc e => h0 (e ▸ hc)) rfl, hs] at hr
  cases hr

/-- The load that is served the content and nothing else. -/
theorem LoadsNulFree.served {L : Lexis} {parse : List UInt8 → Option Json} {json : List UInt8} (h : LoadsNulFree L parse json)
    {cfg : MqttCfg} (hok : ((mqttCfgLoad parse (some cfg)).under (serving json)).2.1 = .ok) {v : Json}
    (hdoc : Document L json v) : v.holdsNul = false :=
  h _ _ _ _ (Prog.under_path (serving json) _) (serving_serves json) hok v hdoc

/-- Exactly the admissible contents with a hidden NUL byte are loaded with one in a
string of theirs. -/
theorem load_nul_free_iff {L : Lexis} {parse : List UInt8 → Option Json} (hparse : ReadsBytes L parse)
    (json : List UInt8) : LoadsNulFree L parse json ↔ ¬ (Admissible L json ∧ HiddenNul json) := by
  constructor
  · rintro h ⟨⟨hsize, members, cfg, hdoc, hr, hv⟩, hs, hraw⟩
    have hd : mqttCfgDocument parse json = .ok cfg :=
      mqttCfgDocument_ok_iff.2 ⟨members, (hparse _ _).2 hdoc, hraw, hr, hv⟩
    have hpath := Prog.under_path (serving json) (mqttCfgLoad parse (some cfg))
    have hok := ((mqttCfgLoad_serves (by simp) hpath (serving_serves json) cfg).2 ⟨hsize, hd⟩).1
    have hno := h.served hok hdoc
    rw [← nulScan_nulScan.document hdoc (fun _ _ => trivial) rfl, hs] at hno
    cases hno
  · intro h out done status out' hpath hserves hok v hdoc
    rcases mqttCfgLoad_path hpath with ⟨-, hout, _, cfg, -, rfl⟩ | ⟨hne, -⟩
    swap
    · exact absurd hok hne
    obtain ⟨hsize, hd⟩ := (mqttCfgLoad_serves hout hpath hserves cfg).1 ⟨hok, rfl⟩
    obtain ⟨members, hp, hraw, hr, hv⟩ := mqttCfgDocument_ok_iff.1 hd
    have hdoc' := (hparse _ _).1 hp
    have hno : nulScan false false json ≠ true := fun hs => h ⟨⟨hsize, members, cfg, hdoc', hr, hv⟩, hs, hraw⟩
    rw [← nulScan_nulScan.document hdoc (fun _ _ => trivial) rfl]
    exact Bool.eq_false_iff.2 hno

theorem reads_cJsonIntegers : ReadsBytes cJsonIntegers fun text => document cJsonIntegers text.dropLast := fun text v => by
  dsimp only
  rw [List.dropLast_concat]
  exact document_iff

theorem load_nul_free_broker :
    LoadsNulFree cJsonIntegers (fun text => document cJsonIntegers text.dropLast) brokerText :=
  (load_nul_free_iff reads_cJsonIntegers brokerText).2 fun h => absurd h.2 (by decide +kernel)

/-- A NUL byte after the brace ends the scan; the host name behind it holds the escape
of a NUL, and is checked up to there. -/
def hiddenText : List UInt8 :=
  ascii "\x7b" ++ [0] ++ ascii "\"schema_version\":1, \"hostname\":\"broker.local\\u0000.example\", \"port\":8883," ++
  ascii " \"tls_mode\":\"mqtts\", \"ca_path\":\"/cert/ca.pem\", \"client_id\":\"lamp\", \"auth_mode\":\"none\"\x7d"

theorem hidden_nul_accepted :
    ¬ ∀ (L : Lexis) (parse : List UInt8 → Option Json), (∀ c, L.space c = decide (c ≤ 0x20)) → ReadsBytes L parse →
      ∀ json, LoadsNulFree L parse json := by
  intro h
  have hloads := h cJsonIntegers _ (fun _ => rfl) reads_cJsonIntegers hiddenText
  have hok : ((mqttCfgLoad (fun text => document cJsonIntegers text.dropLast) (some brokerCfg)).under
      (serving hiddenText)).2.1 = .ok := by decide +kernel
  have hdoc : (document cJsonIntegers hiddenText).any Json.holdsNul = true := by decide +kernel
  rw [Option.any_eq_true] at hdoc
  obtain ⟨v, hv, hnul⟩ := hdoc
  have hno := hloads.served hok (document_iff.1 hv)
  rw [hnul] at hno
  cases hno

end LedLamp.Mqtt
