import LedLamp.JsonMembers
import LedLamp.Mqtt.Calls
import LedLamp.Mqtt.Grammar
/-!
# Which broker documents a load accepts

`Accepts` says of an object's members, and of nothing else, that they are a broker
configuration, and which one: it mentions no lookup, no order of checks and no
conversion. What the loader makes of a text without NUL bytes is a configuration
exactly when the text is a JSON document of such an object (`document_accepts`).
-/

namespace LedLamp.Mqtt

open JsonSyntax

/-- The value of an optional text: empty where the member is absent. -/
def OptionalText (members : List (List UInt8 × Json)) (key : String) (s : List UInt8) : Prop :=
  (ascii key, .string s) ∈ members ∨ s = [] ∧ ∀ v, (ascii key, v) ∉ members

/-- The names of the authentication modes. -/
def authModes : List (List UInt8 × MqttCfgAuthMode) :=
  [(ascii "none", .none), (ascii "access_token", .accessToken), (ascii "runtime", .runtime), (ascii "mtls", .mtls)]

/-- A client file: absent, empty or below `/cert`, and not to be left out for mTLS. -/
structure ClientFile (members : List (List UInt8 × Json)) (key : String) (authMode : MqttCfgAuthMode)
    (path : CharArray (MQTT_CFG_PATH_MAX_LEN + 1)) (s : List UInt8) : Prop where
  text : OptionalText members key s
  holds : path.Holds s
  path : s = [] ∨ CertPath s
  needed : authMode = .mtls → s ≠ []

/-- The members of an object are this configuration. -/
structure Accepts (members : List (List UInt8 × Json)) (cfg : MqttCfg) : Prop where
  distinct : (members.map (·.1)).Nodup
  known : ∀ m ∈ members, m.1 ∈ MQTT_CFG_KEYS
  schemaVersion : (∃ n : Number, (ascii "schema_version", .number n) ∈ members ∧ n.cmp 1 = .eq) ∧ cfg.schemaVersion = 1
  hostname : ∃ s, (ascii "hostname", .string s) ∈ members ∧ Hostname s ∧ cfg.hostname.Holds s
  port : ∃ n : Number, (ascii "port", .number n) ∈ members ∧ n.cmp cfg.port.toNat = .eq ∧ 1 ≤ cfg.port.toNat
  clientId : ∃ s, (ascii "client_id", .string s) ∈ members ∧ Printable s MQTT_CFG_CLIENT_ID_MAX_LEN ∧ cfg.clientId.Holds s
  tlsMode : (ascii "tls_mode", .string (ascii "mqtts")) ∈ members ∧ cfg.tlsMode = .mqtts
  skipVerify : ∀ v, (ascii "skip_verify", v) ∈ members → v = .bool false
  caPath : ∃ s, (ascii "ca_path", .string s) ∈ members ∧ CertPath s ∧ cfg.caPath.Holds s
  authMode : ∃ s, (ascii "auth_mode", .string s) ∈ members ∧ (s, cfg.authMode) ∈ authModes
  clientCertPath : ∃ s, ClientFile members "client_cert_path" cfg.authMode cfg.clientCertPath s
  clientKeyPath : ∃ s, ClientFile members "client_key_path" cfg.authMode cfg.clientKeyPath s

/-! ## The member names -/

theorem memberKeysOk_iff {members : List (List UInt8 × Json)} (hn : ∀ m ∈ members, (0 : UInt8) ∉ m.1)
    {allowed : List (List UInt8)} (hne : [] ∉ allowed) :
    memberKeysOk allowed members = true ↔ (∀ m ∈ members, m.1 ∈ allowed) ∧ (members.map (·.1)).Nodup := by
  induction members with
  | nil => simp [memberKeysOk]
  | cons m members ih =>
    obtain ⟨key, v⟩ := m
    have hk : cstr key = key := cstr_of_not_mem (hn (key, v) (by simp))
    have hrest : ∀ m ∈ members, cstr m.1 = m.1 := fun m hm => cstr_of_not_mem (hn m (by simp [hm]))
    have hany : members.any (fun m => cstr m.1 = key) = false ↔ key ∉ members.map (·.1) := by
      simp only [List.any_eq_false, decide_eq_true_eq, List.mem_map, not_exists, not_and]
      exact forall_congr' fun m => forall_congr' fun hm => by rw [hrest m hm]
    have hempty : key ∈ allowed → key.isEmpty = false := by
      intro h
      cases key with
      | nil => exact absurd h hne
      | cons c key => rfl
    have ih' := ih fun m hm => hn m (by simp [hm])
    simp only [memberKeysOk, hk, Bool.and_eq_true, ih', Bool.not_eq_eq_eq_not, Bool.not_true, hany,
      List.contains_eq_mem, decide_eq_true_eq, List.mem_cons, forall_eq_or_imp, List.map_cons, List.nodup_cons]
    constructor
    · rintro ⟨⟨⟨-, hall⟩, hnot⟩, hrest, hd⟩
      exact ⟨⟨hall, hrest⟩, hnot, hd⟩
    · rintro ⟨⟨hall, hrest⟩, hnot, hd⟩
      exact ⟨⟨⟨hempty hall, hall⟩, hnot⟩, hrest, hd⟩

/-! ## Checked lookups -/

section Lookups

variable {root : Json}

theorem parseSchemaVersion_iff {version : UInt32} : parseSchemaVersion root = .ok version ↔
    (∃ n, root.item (ascii "schema_version") = some (.number n) ∧ n.cmp 1 = .eq) ∧ version = 1 := by
  unfold parseSchemaVersion
  have hv : ((MQTT_CFG_SCHEMA_VERSION.toNat : Nat) : Int) = 1 := rfl
  rcases hi : root.item (ascii "schema_version") with _ | v
  · simp
  · cases v with
    | number n =>
      dsimp only
      rw [hv]
      cases hc : n.cmp 1 with
      | eq => simp [hc, MQTT_CFG_SCHEMA_VERSION, eq_comm]
      | lt => simp [hc]
      | gt => simp [hc]
    | _ => simp

theorem parsePort_iff {port : UInt16} : parsePort root = .ok port ↔
    ∃ n, root.item (ascii "port") = some (.number n) ∧ n.cmp port.toNat = .eq ∧ 1 ≤ port.toNat := by
  unfold parsePort
  rcases hi : root.item (ascii "port") with _ | v
  · simp
  · cases v with
    | number n =>
      simp only [Option.some.injEq, Json.number.injEq, exists_eq_left']
      have hport := port.toNat_lt
      constructor
      · intro h
        split at h
        · cases h
        · rename_i hc
          simp only [not_or, not_not] at hc
          obtain rfl := Except.ok.inj h
          obtain ⟨hn, hlo, hhi⟩ := Number.between_iff.1 ⟨hc, rfl⟩
          rw [UInt16.toNat_ofNat_of_lt' (Nat.lt_succ_of_le hhi)]
          exact ⟨hn, hlo⟩
      · rintro ⟨hn, hpos⟩
        obtain ⟨hc, ht⟩ := Number.between_iff.2 ⟨hn, hpos, Nat.le_of_lt_succ hport⟩
        rw [if_neg (by rw [not_or, not_or, not_not]; exact hc), ht, UInt16.ofNat_toNat]
    | _ => simp

theorem parseTlsMode_iff {mode : MqttCfgTlsMode} : parseTlsMode root = .ok mode ↔
    (∃ s, root.item (ascii "tls_mode") = some (.string s) ∧ cstr s = ascii "mqtts") ∧ mode = .mqtts := by
  unfold parseTlsMode
  rcases hi : root.item (ascii "tls_mode") with _ | v
  · simp
  · cases v with
    | string s =>
      by_cases h : cstr s = ascii "mqtts"
      · simp [h, eq_comm]
      · simp [h]
    | _ => simp

theorem parseSkipVerify_iff {u : Unit} : parseSkipVerify root = .ok u ↔
    ∀ v, root.item (ascii "skip_verify") = some v → v = .bool false := by
  unfold parseSkipVerify
  rcases hi : root.item (ascii "skip_verify") with _ | v
  · simp
  · cases v with
    | bool b => cases b <;> simp
    | _ => simp

theorem parseAuthMode_iff {mode : MqttCfgAuthMode} : parseAuthMode root = .ok mode ↔
    ∃ s, root.item (ascii "auth_mode") = some (.string s) ∧ (cstr s, mode) ∈ authModes := by
  unfold parseAuthMode
  rcases hi : root.item (ascii "auth_mode") with _ | v
  · simp
  · cases v with
    | string s =>
      simp only [Option.some.injEq, Json.string.injEq, exists_eq_left', authModes, List.mem_cons, Prod.mk.injEq,
        List.not_mem_nil, or_false]
      generalize cstr s = name
      split_ifs with h1 h2 h3 h4
      · subst h1
        simp +decide [eq_comm]
      · subst h2
        simp +decide [eq_comm]
      · subst h3
        simp +decide [eq_comm]
      · subst h4
        simp +decide [eq_comm]
      · simp [h1, h2, h3, h4]
    | _ => simp

end Lookups

section Members

variable {members : List (List UInt8 × Json)} (hnul : Json.membersHoldNul members = false)

include hnul

theorem mqttCfgCheckMemberKeys_iff : mqttCfgCheckMemberKeys (.object members) MQTT_CFG_KEYS = true ↔
    (∀ m ∈ members, m.1 ∈ MQTT_CFG_KEYS) ∧ (members.map (·.1)).Nodup := by
  rw [mqttCfgCheckMemberKeys, Bool.and_eq_true, Json.members, memberKeysOk_iff (Json.names_plain hnul) (by decide), decide_eq_true_eq]
  exact and_iff_left_of_imp fun h => Json.length_le_keys h.2 h.1

/-! ## The members -/

variable (hd : (members.map (·.1)).Nodup)

include hd

theorem mqttCfgGetStringMember_iff {key : String} (hk : 0 ∉ ascii key) {cap : Nat} (hcap : 0 < cap) {a : CharArray cap} :
    mqttCfgGetStringMember (.object members) key cap = .ok a ↔ ∃ s, OptionalText members key s ∧ a.Holds s := by
  have hitem := fun v => Json.member_iff hnul hd hk (v := v)
  have hnone := Json.item_none (Json.names_plain hnul) hk
  unfold mqttCfgGetStringMember
  cases hi : (Json.object members).item (ascii key) with
  | none =>
    have habsent := hnone.1 hi
    rw [Except.ok.injEq]
    constructor
    · rintro rfl
      exact ⟨[], .inr ⟨rfl, habsent⟩, CharArray.holds_iff.2 ⟨hcap, rfl⟩⟩
    · rintro ⟨s, h | ⟨rfl, -⟩, hs⟩
      · exact absurd h (habsent _)
      · exact (CharArray.holds_iff.1 hs).2.symm
  | some v =>
    have hv := (hitem v).1 hi
    -- Names are distinct, so the member that is found is the only one of its name.
    have hother : ∀ {v'}, (ascii key, v') ∈ members → v' = v := fun h =>
      Option.some.inj (((hitem _).2 h).symm.trans hi)
    cases v with
    | string s =>
      have h0 := Json.string_plain hnul hv
      dsimp only
      rw [strlen, cstr_of_not_mem h0]
      constructor
      · intro h
        split at h
        · cases h
        · obtain rfl := Except.ok.inj h
          exact ⟨s, .inl hv, CharArray.holds_iff.2 ⟨by omega, rfl⟩⟩
      · rintro ⟨s', h | ⟨-, habsent⟩, hs⟩
        · cases hother h
          obtain ⟨hlen, rfl⟩ := CharArray.holds_iff.1 hs
          rw [if_neg (by omega)]
        · exact absurd hv (habsent _)
    | _ =>
      refine iff_of_false (by simp) ?_
      rintro ⟨s, h | ⟨-, habsent⟩, -⟩
      · cases hother h
      · exact habsent _ hv

omit hd in
/-- The text of an optional member has no NUL byte. -/
theorem OptionalText.no_zero {key : String} {s : List UInt8} (h : OptionalText members key s) : (0 : UInt8) ∉ s := by
  rcases h with h | ⟨rfl, -⟩
  · exact Json.string_plain hnul h
  · simp

/-- A string member with a check that refuses the empty text. -/
theorem checked_iff {key : String} (hk : 0 ∉ ascii key) {cap : Nat} (hcap : 0 < cap) {a : CharArray cap}
    {ok : List UInt8 → Bool} {G : List UInt8 → Prop} (hok : ∀ s, ok s = true ↔ G (cstr s)) (hG : ¬ G []) :
    (mqttCfgGetStringMember (.object members) key cap = .ok a ∧ ok a.chars = true) ↔
      ∃ s, (ascii key, .string s) ∈ members ∧ G s ∧ a.Holds s := by
  rw [mqttCfgGetStringMember_iff hnul hd hk hcap, hok]
  constructor
  · rintro ⟨⟨s, hs, ha⟩, hg⟩
    have hstr : cstr a.chars = s := ha.str (hs.no_zero hnul)
    rw [hstr] at hg
    rcases hs with hs | ⟨rfl, -⟩
    · exact ⟨s, hs, hg, ha⟩
    · exact absurd hg hG
  · rintro ⟨s, hs, hg, ha⟩
    have hs : OptionalText members key s := .inl hs
    have hstr : cstr a.chars = s := ha.str (hs.no_zero hnul)
    exact ⟨⟨s, hs, ha⟩, hstr ▸ hg⟩

end Members

/-! ## The root -/

/-- The parse of a root object is its checked lookups. -/
theorem mqttCfgParseRoot_iff {root : Json} {cfg : MqttCfg} : mqttCfgParseRoot root = .ok cfg ↔
    mqttCfgCheckMemberKeys root MQTT_CFG_KEYS = true ∧ parseSchemaVersion root = .ok cfg.schemaVersion ∧
    (mqttCfgGetStringMember root "hostname" _ = .ok cfg.hostname ∧ mqttCfgHostnameValid cfg.hostname.chars = true) ∧
    parsePort root = .ok cfg.port ∧
    (mqttCfgGetStringMember root "client_id" _ = .ok cfg.clientId ∧
      mqttCfgIsPrintable cfg.clientId.chars MQTT_CFG_CLIENT_ID_MAX_LEN = true) ∧
    parseTlsMode root = .ok cfg.tlsMode ∧ parseSkipVerify root = .ok () ∧
    (mqttCfgGetStringMember root "ca_path" _ = .ok cfg.caPath ∧ mqttCfgPathUnderCert cfg.caPath.chars = true) ∧
    mqttCfgGetStringMember root "client_cert_path" _ = .ok cfg.clientCertPath ∧
    mqttCfgGetStringMember root "client_key_path" _ = .ok cfg.clientKeyPath ∧
    parseAuthMode root = .ok cfg.authMode := by
  simp only [mqttCfgParseRoot, bind_ok_iff, check_ok_iff, Bool.not_eq_true', Bool.not_eq_false]
  constructor
  · rintro ⟨hk, version, hv, hostname, hh, hh', port, hp, clientId, hc, hc', mode, ht, u, hs, ca, ha, ha', cert, hcert,
      key, hkey, auth, hauth, h⟩
    cases h
    exact ⟨hk, hv, ⟨hh, hh'⟩, hp, ⟨hc, hc'⟩, ht, hs, ⟨ha, ha'⟩, hcert, hkey, hauth⟩
  · rintro ⟨hk, hv, ⟨hh, hh'⟩, hp, ⟨hc, hc'⟩, ht, hs, ⟨ha, ha'⟩, hcert, hkey, hauth⟩
    exact ⟨hk, _, hv, _, hh, hh', _, hp, _, hc, hc', _, ht, (), hs, _, ha, ha', _, hcert, _, hkey, _, hauth, rfl⟩

theorem refuse_ok_iff {c : Prop} [Decidable c] {e x : MqttCfgStatus} (he : e ≠ .ok) :
    (if c then e else x) = .ok ↔ ¬ c ∧ x = .ok := by
  by_cases h : c
  · simp [h, he]
  · simp [h]

/-- The policy, as the conditions it is made of. -/
theorem mqttCfgValidateFields_iff {cfg : MqttCfg} : mqttCfgValidateFields (some cfg) = .ok ↔
    cfg.schemaVersion = MQTT_CFG_SCHEMA_VERSION ∧ mqttCfgHostnameValid cfg.hostname.chars = true ∧
    ¬ cfg.port < MQTT_CFG_PORT_MIN ∧ cfg.tlsMode = .mqtts ∧
    mqttCfgIsPrintable cfg.clientId.chars MQTT_CFG_CLIENT_ID_MAX_LEN = true ∧
    (cfg.authMode = .none ∨ cfg.authMode = .accessToken ∨ cfg.authMode = .mtls ∨ cfg.authMode = .runtime) ∧
    mqttCfgPathUnderCert cfg.caPath.chars = true ∧
    (cfg.authMode = .mtls → cfg.clientCertPath.str ≠ [] ∧ cfg.clientKeyPath.str ≠ []) ∧
    (cfg.clientCertPath.str ≠ [] → mqttCfgPathUnderCert cfg.clientCertPath.chars = true) ∧
    (cfg.clientKeyPath.str ≠ [] → mqttCfgPathUnderCert cfg.clientKeyPath.chars = true) := by
  have hpresent : ∀ s : List UInt8, (!s.isEmpty) = true ↔ s ≠ [] := fun s => by simp
  have hmissing : ∀ s : List UInt8, (!(!s.isEmpty)) = true ↔ s = [] := fun s => by simp
  simp only [mqttCfgValidateFields, refuse_ok_iff, ne_eq, reduceCtorEq, not_false_eq_true, not_not, Bool.not_eq_true',
    Bool.not_eq_false, and_true, Bool.and_eq_true, hpresent, hmissing, not_and, not_or]
  grind

section Root

variable {members : List (List UInt8 × Json)} {cfg : MqttCfg}

/-- A client file as the parse and the policy see it. -/
theorem clientFile_iff (hnul : Json.membersHoldNul members = false) (hd : (members.map (·.1)).Nodup) {key : String}
    (hk : 0 ∉ ascii key) {mode : MqttCfgAuthMode} {path : CharArray (MQTT_CFG_PATH_MAX_LEN + 1)} :
    (mqttCfgGetStringMember (.object members) key _ = .ok path ∧ (mode = .mtls → path.str ≠ []) ∧
      (path.str ≠ [] → mqttCfgPathUnderCert path.chars = true)) ↔ ∃ s, ClientFile members key mode path s := by
  rw [mqttCfgGetStringMember_iff hnul hd hk (Nat.succ_pos _), mqttCfgPathUnderCert_iff]
  constructor
  · rintro ⟨⟨s, hs, hp⟩, hm, hc⟩
    have hstr : path.str = s := hp.str (hs.no_zero hnul)
    have hstr' : cstr path.chars = s := hstr
    rw [hstr] at hm hc
    rw [hstr'] at hc
    refine ⟨s, hs, hp, ?_, hm⟩
    by_cases h : s = []
    · exact .inl h
    · exact .inr (hc h)
  · rintro ⟨s, hs, hp, hc, hm⟩
    have hstr : path.str = s := hp.str (hs.no_zero hnul)
    have hstr' : cstr path.chars = s := hstr
    rw [hstr, hstr']
    exact ⟨⟨s, hs, hp⟩, hm, hc.resolve_left⟩

/-- What the parse and the policy let through together is what `Accepts` says. -/
theorem root_accepts (hnul : Json.membersHoldNul members = false) :
    (mqttCfgParseRoot (.object members) = .ok cfg ∧ mqttCfgValidateFields (some cfg) = .ok) ↔ Accepts members cfg := by
  rw [mqttCfgParseRoot_iff, mqttCfgValidateFields_iff, mqttCfgCheckMemberKeys_iff hnul]
  have hHostname : ¬ Hostname [] := fun h => by
    obtain ⟨c, hc, -⟩ := h.letter
    cases hc
  have hPrintable : ¬ Printable [] MQTT_CFG_CLIENT_ID_MAX_LEN := fun h => h.pos rfl
  have hCertPath : ¬ CertPath [] := fun h => by
    obtain ⟨file, -, e⟩ := h.file
    exact absurd (congrArg List.length e) (by simp [ascii])
  have item {key : String} {v : Json} (hd : (members.map (·.1)).Nodup) (hk : 0 ∉ ascii key) :
      (Json.object members).item (ascii key) = some v ↔ (ascii key, v) ∈ members := Json.member_iff hnul hd hk
  constructor
  · rintro ⟨⟨⟨hknown, hd⟩, hv, hhost, hport, hid, htls, hskip, hca, hcert, hkey, hauth⟩, -, -, -, -, -, -, -, hmtls, hc, hk⟩
    obtain ⟨⟨n, hn, hn'⟩, hver⟩ := parseSchemaVersion_iff.1 hv
    obtain ⟨p, hp, hp', hpos⟩ := parsePort_iff.1 hport
    obtain ⟨hmode, htls'⟩ := parseTlsMode_iff.1 htls
    obtain ⟨_, hmode, rfl⟩ := (Json.member_string_iff hnul hd (by decide) (P := (· = ascii "mqtts"))).1 hmode
    exact {
      distinct := hd
      known := hknown
      schemaVersion := ⟨⟨n, (item hd (by decide)).1 hn, hn'⟩, hver⟩
      hostname := (checked_iff hnul hd (by decide) (by decide) mqttCfgHostnameValid_iff hHostname).1 hhost
      port := ⟨p, (item hd (by decide)).1 hp, hp', hpos⟩
      clientId := (checked_iff hnul hd (by decide) (by decide) (mqttCfgIsPrintable_iff · _) hPrintable).1 hid
      tlsMode := ⟨hmode, htls'⟩
      skipVerify := fun v hv => parseSkipVerify_iff.1 hskip v ((item hd (by decide)).2 hv)
      caPath := (checked_iff hnul hd (by decide) (by decide) mqttCfgPathUnderCert_iff hCertPath).1 hca
      authMode := (Json.member_string_iff hnul hd (by decide)).1 (parseAuthMode_iff.1 hauth)
      clientCertPath := (clientFile_iff hnul hd (by decide)).1 ⟨hcert, fun h => (hmtls h).1, hc⟩
      clientKeyPath := (clientFile_iff hnul hd (by decide)).1 ⟨hkey, fun h => (hmtls h).2, hk⟩ }
  · intro h
    have hd := h.distinct
    obtain ⟨⟨n, hn, hn'⟩, hver⟩ := h.schemaVersion
    obtain ⟨p, hp, hp', hpos⟩ := h.port
    have hhost := (checked_iff hnul hd (by decide) (by decide) mqttCfgHostnameValid_iff hHostname).2 h.hostname
    have hid := (checked_iff hnul hd (by decide) (by decide) (mqttCfgIsPrintable_iff · _) hPrintable).2 h.clientId
    have hca := (checked_iff hnul hd (by decide) (by decide) mqttCfgPathUnderCert_iff hCertPath).2 h.caPath
    obtain ⟨hcert, hcm, hc⟩ := (clientFile_iff hnul hd (by decide)).2 h.clientCertPath
    obtain ⟨hkey, hkm, hk⟩ := (clientFile_iff hnul hd (by decide)).2 h.clientKeyPath
    have htls := parseTlsMode_iff.2 ⟨⟨_, (item hd (by decide)).2 h.tlsMode.1, by decide⟩, h.tlsMode.2⟩
    have hskip := (parseSkipVerify_iff (u := ())).2 fun v hv => h.skipVerify v ((item hd (by decide)).1 hv)
    have hauth := parseAuthMode_iff.2 ((Json.member_string_iff hnul hd (by decide)).2 h.authMode)
    have hmode : cfg.authMode = .none ∨ cfg.authMode = .accessToken ∨ cfg.authMode = .mtls ∨ cfg.authMode = .runtime := by
      obtain ⟨s, -, hs⟩ := h.authMode
      simp only [authModes, List.mem_cons, Prod.mk.injEq, List.not_mem_nil, or_false] at hs
      rcases hs with ⟨-, e⟩ | ⟨-, e⟩ | ⟨-, e⟩ | ⟨-, e⟩ <;> simp [e]
    refine ⟨⟨⟨h.known, hd⟩, parseSchemaVersion_iff.2 ⟨⟨n, (item hd (by decide)).2 hn, hn'⟩, hver⟩, hhost,
      parsePort_iff.2 ⟨p, (item hd (by decide)).2 hp, hp', hpos⟩, hid, htls, hskip, hca, hcert, hkey, hauth⟩,
      hver, hhost.2, ?_, h.tlsMode.2, hid.2, hmode, hca.2, fun e => ⟨hcm e, hkm e⟩, hc, hk⟩
    rw [UInt16.not_lt, UInt16.le_iff_toNat_le]
    exact hpos

end Root

/-! ## The text -/

/-- The raw scan takes every backslash for the start of an escape, which outside the
strings of a document there is none. -/
theorem nulEscape_nulScan : NulScan (· ≠ 0) (nulEscapeFrom false) (nulEscapeFrom false) where
  plain := by
    intro c rest _ hb
    have hb : c ≠ 0x5C := hb
    simp [nulEscapeFrom, hb]
  opening := by
    intro rest
    simp [nulEscapeFrom, JsonText.quote]
  closing := by
    intro rest
    simp [nulEscapeFrom, JsonText.quote]
  byte := by
    intro c rest h0 _ hb
    have hb : c ≠ 0x5C := hb
    simp [nulEscapeFrom, hb, h0]
  letter := by
    intro e rest he
    simp [nulEscapeFrom, JsonText.backslash, he]
  unicode := by
    intro text n rest h
    obtain ⟨a, b, c, d, x, y, z, w, rfl, hx, hy, hz, hw, -⟩ := hex4_digits h
    have plain : ∀ {c n}, hexDigit c = some n → c ≠ 0x5C := fun h => (hexDigit_plain h).1
    have hz' := hex4_zero h
    have hrest : nulEscapeFrom false (a :: b :: c :: d :: rest) = nulEscapeFrom false rest := by
      simp [nulEscapeFrom, plain hx, plain hy, plain hz, plain hw]
    rw [← hrest]
    by_cases hn : n = 0
    · simp [nulEscapeFrom, JsonText.backslash, hz'.1 hn, hn]
    · have hp : [0x30, 0x30, 0x30, 0x30].isPrefixOf (a :: b :: c :: d :: rest) = false := by
        rw [Bool.eq_false_iff]
        exact fun e => hn (hz'.2 e)
      have hno : ¬ ((0x75 : UInt8) = 0x75 ∧ [0x30, 0x30, 0x30, 0x30].isPrefixOf (a :: b :: c :: d :: rest) = true) := by
        simp [hp]
      rw [nulEscapeFrom, if_neg (by decide), nulEscapeFrom, if_pos (by decide), if_neg hno, decide_eq_false hn,
        Bool.false_or]

/-- What a load makes of a text: only an object's document without NUL escapes goes
on to the root. -/
theorem mqttCfgDocument_ok_iff {parse : List UInt8 → Option Json} {json : List UInt8} {cfg : MqttCfg} :
    mqttCfgDocument parse json = .ok cfg ↔ ∃ members, parse (json ++ [0]) = some (.object members) ∧
      mqttCfgRawJsonHasNulEscape json = false ∧ mqttCfgParseRoot (.object members) = .ok cfg ∧
      mqttCfgValidateFields (some cfg) = .ok := by
  unfold mqttCfgDocument
  split
  · rename_i members hp
    simp only [hp, Option.some.injEq, Json.object.injEq, exists_eq_left', bind_ok_iff, check_ok_iff, not_not,
      Bool.not_eq_true]
    constructor
    · rintro ⟨hnul, parsed, hr, hv, h⟩
      obtain rfl := Except.ok.inj h
      exact ⟨hnul, hr, hv⟩
    · rintro ⟨hnul, hr, hv⟩
      exact ⟨hnul, cfg, hr, hv, rfl⟩
  · rename_i hno
    refine iff_of_false (by simp) ?_
    rintro ⟨members, hp, -⟩
    exact hno members hp

/-- A parse that reads the texts without NUL bytes as this grammar's documents. -/
def ReadsText (L : Lexis) (parse : List UInt8 → Option Json) : Prop :=
  ∀ text v, 0 ∉ text → (parse (text ++ [0]) = some v ↔ Document L text v)

theorem document_accepts {L : Lexis} {parse : List UInt8 → Option Json} (hparse : ReadsText L parse) {json : List UInt8}
    (h0 : 0 ∉ json) {cfg : MqttCfg} : mqttCfgDocument parse json = .ok cfg ↔
      ∃ members, Document L json (.object members) ∧ Json.membersHoldNul members = false ∧ Accepts members cfg := by
  rw [mqttCfgDocument_ok_iff]
  refine exists_congr fun members => ?_
  rw [hparse json _ h0]
  refine and_congr_right fun hdoc => ?_
  have hscan : mqttCfgRawJsonHasNulEscape json = Json.membersHoldNul members := by
    rw [mqttCfgRawJsonHasNulEscape, cstr_of_not_mem h0]
    exact nulEscape_nulScan.document hdoc (fun c hc e => h0 (e ▸ hc)) rfl
  rw [hscan]
  exact and_congr_right fun hnul => root_accepts hnul

end LedLamp.Mqtt
