import LedLamp.CBuffer
import LedLamp.Mqtt.Grammar
/-!
# What the field checks read

The checks of host names and certificate paths, read by read (`Checked`): `none` is a
read behind the end of the field. On a field of the configuration they read within it
and compute what the checks of `Config` compute, so the grammars describe them
(`hostname_language`). The path check looks only at the text: what it accepts lies
below `/cert` unless nothing but slashes and dots follows the prefix
(`path_contained_iff`).
-/

namespace LedLamp.Mqtt

namespace Checked

def mqttCfgIsPrintable (str : List UInt8) (maxLen : Nat) : Option Bool := do
  if (← str[0]?) = 0 then return false
  let len ← CBuffer.strnlen str (maxLen + 1)
  if len > maxLen then return false
  let loop ← CBuffer.forBytes (fun _ ch => if ch < 0x20 || ch > 0x7E then none else some ()) str len ()
  return loop.isSome

def mqttCfgPathUnderCert (path : List UInt8) : Option Bool := do
  let certDir := MQTT_CFG_CERT_DIR ++ ascii "/"
  if (← path[0]?) = 0 then return false
  if (← CBuffer.strnlen path (MQTT_CFG_PATH_MAX_LEN + 1)) > MQTT_CFG_PATH_MAX_LEN then return false
  if !(← CBuffer.strncmp path certDir) then return false
  if (← path[certDir.length]?) = 0 then return false
  if ← CBuffer.strstr (ascii "..") path then return false
  return true

/-- The scan of the labels, and the checks behind it. -/
def hostnameScan (hostname : List UInt8) (len : Nat) : Option Bool := do
  match ← CBuffer.forBytes hostnameChar hostname len ⟨false, true, false, true, 0⟩ with
  | none => return false
  | some s =>
    if s.lastWasDot || !s.labelHasAlnum || !mqttCfgIsAlnum s.prev then return false
    if s.ipv4Literal then return false
    return true

def mqttCfgHostnameValid (hostname : List UInt8) : Option Bool := do
  if !(← mqttCfgIsPrintable hostname MQTT_CFG_HOSTNAME_MAX_LEN) then return false
  let len ← CBuffer.strlen hostname
  if len = 0 then return false
  if (← hostname[0]?) = 0x2E then return false
  if (← hostname[len - 1]?) = 0x2E then return false
  if ← CBuffer.strchr hostname 0x3A then return false
  hostnameScan hostname len

/-! ## Within the field -/

variable {s : List UInt8} {n : Nat}

/-- The first byte is 0 exactly when there is no text. -/
theorem head_zero (h : s ≠ []) : ∃ c, s[0]? = some c ∧ (c = 0 ↔ cstr s = []) := by
  cases s with
  | nil => exact absurd rfl h
  | cons c s => exact ⟨c, rfl, by by_cases hc : c = 0 <;> simp [cstr, hc]⟩

/-- A text within the bound ends in the field. -/
theorem zero_mem (hs : n < s.length) (h : (cstr s).length ≤ n) : 0 ∈ s := by
  by_contra h0
  rw [cstr_of_not_mem h0] at h
  omega

/-- A loop whose body only refuses bytes runs through when it refuses none. -/
theorem loop_isSome (bad : UInt8 → Bool) (text : List UInt8) :
    (text.foldlM (fun (_ : Unit) ch => if bad ch then none else some ()) ()).isSome = text.all fun ch => !bad ch := by
  induction text with
  | nil => rfl
  | cons c text ih =>
    rw [List.foldlM_cons, List.all_cons]
    cases bad c with
    | true => rfl
    | false => exact ih

theorem mqttCfgIsPrintable_eq (hs : n < s.length) :
    mqttCfgIsPrintable s n = some (Mqtt.mqttCfgIsPrintable s n) := by
  have hlen := CBuffer.strnlen_eq (n := n + 1) (.inr hs : 0 ∈ s ∨ n + 1 ≤ s.length)
  obtain ⟨c, hc, hzero⟩ := head_zero (List.length_pos_iff.1 (Nat.zero_lt_of_lt hs))
  simp only [mqttCfgIsPrintable, Mqtt.mqttCfgIsPrintable, hc, hlen, Option.bind_eq_bind, Option.bind_some,
    List.isEmpty_iff, ← hzero]
  by_cases h0 : c = 0
  · simp [h0]
  rw [if_neg h0, if_neg h0]
  by_cases hn : strnlen s (n + 1) > n
  · rw [if_pos hn, if_pos hn, Option.pure_def]
  have hle : strnlen s (n + 1) ≤ s.length := by omega
  have hchar : ∀ ch : UInt8, (!(decide (ch < 0x20) || decide (ch > 0x7E))) = (decide (0x20 ≤ ch) && decide (ch ≤ 0x7E)) := by
    intro ch
    simp only [Bool.not_or, ← decide_not, UInt8.not_lt, gt_iff_lt]
  rw [if_neg hn, if_neg hn, CBuffer.forBytes_eq _ hle, Option.bind_some, loop_isSome]
  simp only [hchar, Option.pure_def]

theorem mqttCfgPathUnderCert_eq (hs : MQTT_CFG_PATH_MAX_LEN < s.length) :
    mqttCfgPathUnderCert s = some (Mqtt.mqttCfgPathUnderCert s) := by
  have hlen := CBuffer.strnlen_eq (n := MQTT_CFG_PATH_MAX_LEN + 1) (.inr hs : 0 ∈ s ∨ _ ≤ s.length)
  obtain ⟨c, hc, hzero⟩ := head_zero (List.length_pos_iff.1 (Nat.zero_lt_of_lt hs))
  simp only [mqttCfgPathUnderCert, Mqtt.mqttCfgPathUnderCert, hc, hlen, Option.bind_eq_bind, Option.bind_some,
    List.isEmpty_iff, ← hzero]
  by_cases h0 : c = 0
  · simp [h0]
  rw [if_neg h0, if_neg h0]
  by_cases hn : strnlen s (MQTT_CFG_PATH_MAX_LEN + 1) > MQTT_CFG_PATH_MAX_LEN
  · rw [if_pos hn, if_pos hn, Option.pure_def]
  -- From here on the field is known to be terminated.
  have hmem := zero_mem hs ((strnlen_le_iff s _).1 (not_lt.1 hn))
  rw [if_neg hn, if_neg hn, CBuffer.strncmp_eq (.inl hmem), Option.bind_some]
  by_cases hp : (MQTT_CFG_CERT_DIR ++ ascii "/").isPrefixOf (cstr s) = true
  swap
  · simp [hp]
  obtain ⟨file, rfl⟩ := (List.isPrefixOf_iff_prefix.1 hp).trans (List.takeWhile_prefix _)
  have hcstr : cstr (MQTT_CFG_CERT_DIR ++ ascii "/" ++ file) = MQTT_CFG_CERT_DIR ++ ascii "/" ++ cstr file :=
    List.takeWhile_append_of_pos (by decide +kernel)
  have hfile : file ≠ [] := by
    rintro rfl
    exact absurd hmem (by decide)
  obtain ⟨d, hd, hdzero⟩ := head_zero hfile
  have hread : (MQTT_CFG_CERT_DIR ++ ascii "/" ++ file)[(MQTT_CFG_CERT_DIR ++ ascii "/").length]? = some d := by
    rw [List.getElem?_append_right le_rfl, Nat.sub_self, hd]
  rw [hp, hread, CBuffer.strstr_eq hmem, hcstr]
  by_cases hd0 : d = 0
  · simp [hd0, hdzero.1 hd0]
  · have hne : cstr file ≠ [] := fun e => hd0 (hdzero.2 e)
    cases hup : strstr (ascii "..") (MQTT_CFG_CERT_DIR ++ ascii "/" ++ cstr file) <;> simp [hd0, hne]

theorem mqttCfgHostnameValid_eq (hs : MQTT_CFG_HOSTNAME_MAX_LEN < s.length) :
    mqttCfgHostnameValid s = some (Mqtt.mqttCfgHostnameValid s) := by
  have hp := mqttCfgIsPrintable_iff s MQTT_CFG_HOSTNAME_MAX_LEN
  simp only [mqttCfgHostnameValid, Mqtt.mqttCfgHostnameValid, mqttCfgIsPrintable_eq hs, Option.bind_eq_bind,
    Option.bind_some]
  cases hprint : Mqtt.mqttCfgIsPrintable s MQTT_CFG_HOSTNAME_MAX_LEN with
  | false => simp
  | true =>
    have htext := hp.1 hprint
    have hmem := zero_mem hs htext.length
    -- The first and the last character of a text that is not empty.
    obtain ⟨c, rest, hcons⟩ := List.exists_cons_of_ne_nil htext.pos
    have hlen : strlen s ≠ 0 := by simp [strlen, hcons]
    have hhead : s[0]? = (cstr s).head? := by
      rw [← CBuffer.take_strlen s, List.head?_take, if_neg hlen, List.head?_eq_getElem?]
    have hlast : s[strlen s - 1]? = (cstr s).getLast? := by
      rw [List.getLast?_eq_getElem?, ← CBuffer.take_strlen s, List.getElem?_take, List.length_take,
        min_eq_left (CBuffer.strlen_le s), if_pos (by omega)]
    simp only [CBuffer.strlen_eq hmem, CBuffer.strchr_eq hmem, hhead, hlast, Option.bind_some,
      Bool.not_true, Bool.false_eq_true, if_false, hlen]
    obtain ⟨d, hd⟩ : ∃ d, (cstr s).getLast? = some d := ⟨_, List.getLast?_eq_some_getLast htext.pos⟩
    rw [hcons] at hd
    simp only [hcons, hd, List.head?_cons, Option.bind_some, Option.pure_def]
    by_cases hc : c = 0x2E
    · simp [hc]
    by_cases hd' : d = 0x2E
    · simp [hc, hd']
    have hends : ¬ (c :: rest = [] ∨ some c = some 0x2E ∨ some d = some 0x2E) := by simp [hc, hd']
    rw [if_neg hc, if_neg hd', if_neg hends, apply_ite some]
    -- The scan itself: the loop over the bytes is the fold over the text.
    rw [hostnameScan, CBuffer.forBytes_eq _ (CBuffer.strlen_le s), CBuffer.take_strlen, hcons, Option.bind_eq_bind,
      Option.bind_some]
    cases (c :: rest).foldlM hostnameChar ⟨false, true, false, true, 0⟩ with
    | none => rfl
    | some locals => simp only [apply_ite some, Option.pure_def]

end Checked

/-! ## Host names -/

/-- A field with a DNS name in it, ended by a terminator. -/
def HoldsHostname (field : List UInt8) : Prop :=
  ∃ name rest, field = name ++ 0 :: rest ∧ 1 ≤ name.length ∧ Hostname name

theorem holdsHostname_iff {s : List UInt8} (hs : MQTT_CFG_HOSTNAME_MAX_LEN < s.length) :
    HoldsHostname s ↔ Hostname (cstr s) := by
  constructor
  · rintro ⟨name, rest, rfl, -, h⟩
    have h0 : ∀ c ∈ name, decide (c ≠ 0) = true := by
      intro c hc
      have := (nameChar_plain (h.labels.chars c hc)).1.1
      refine decide_eq_true ?_
      rintro rfl
      exact absurd this (by decide)
    have : cstr (name ++ 0 :: rest) = name := by
      rw [cstr, List.takeWhile_append_of_pos h0]
      simp
    rwa [this]
  · intro h
    obtain ⟨⟨c, hc, -⟩, -⟩ := h.labels.alnum_ends
    obtain ⟨rest, e⟩ := CBuffer.terminated (Checked.zero_mem hs h.length)
    exact ⟨cstr s, rest, e, List.length_pos_iff.2 fun e => by simp [e] at hc, h⟩

/-- Every host name field: the check reads within it, and accepts exactly the fields
that hold a DNS name. -/
theorem hostname_language (field : CharArray (MQTT_CFG_HOSTNAME_MAX_LEN + 1)) :
    ∃ valid, Checked.mqttCfgHostnameValid field.chars = some valid ∧ (valid = true ↔ HoldsHostname field.chars) := by
  have hs : MQTT_CFG_HOSTNAME_MAX_LEN < field.chars.length := by rw [field.full]; omega
  refine ⟨_, Checked.mqttCfgHostnameValid_eq hs, ?_⟩
  rw [mqttCfgHostnameValid_iff, holdsHostname_iff hs]

/-! ## Certificate paths -/

def slash : UInt8 := 0x2F

/-- The components of a path, without the empty ones and `.`. -/
def components (path : List UInt8) : List (List UInt8) := (path.splitOn slash).filter fun c => c ≠ [] && c ≠ ascii "."

/-- The path names something strictly below `/cert`. -/
structure BelowCert (path : List UInt8) : Prop where
  up : ascii ".." ∉ components path
  below : ∃ rest, rest ≠ [] ∧ components path = ascii "cert" :: rest

/-- Nothing but slashes and single dots behind the prefix, within the bound: another
name of the directory itself. -/
structure NamesCert (path : List UInt8) : Prop where
  length : path.length ≤ MQTT_CFG_PATH_MAX_LEN
  dots : ∃ rest, rest ≠ [] ∧ path = MQTT_CFG_CERT_DIR ++ ascii "/" ++ rest ∧ (∀ c ∈ rest, c = slash ∨ c = dot) ∧
    ¬ ascii ".." <:+: rest

theorem part_of_path {path part : List UInt8} (h : part ∈ path.splitOn slash) : part <:+: path := by
  have infix_intercalate : ∀ {parts : List (List UInt8)}, part ∈ parts → part <:+: [slash].intercalate parts := by
    intro parts
    induction parts with
    | nil => simp
    | cons first parts ih =>
      intro hm
      cases parts with
      | nil =>
        obtain rfl := List.mem_singleton.1 hm
        rw [List.intercalate_singleton]
      | cons second parts =>
        rw [List.intercalate_cons_cons]
        rcases List.mem_cons.1 hm with rfl | hm
        · exact (List.prefix_append _ _).isInfix.trans (List.prefix_append _ _).isInfix
        · exact (ih hm).trans (List.suffix_append _ _).isInfix
  have hpath : [slash].intercalate (path.splitOn slash) = path := List.intercalate_splitOn slash
  rw [← hpath]
  exact infix_intercalate h

/-- A character before a path is a component of its own, or goes in front of the first one. -/
theorem splitOn_cons (c : UInt8) (path : List UInt8) : ∃ first parts, path.splitOn slash = first :: parts ∧
    (c :: path).splitOn slash = if c = slash then [] :: first :: parts else (c :: first) :: parts := by
  obtain ⟨first, parts, e⟩ := List.exists_cons_of_ne_nil (List.splitOn_ne_nil slash path)
  refine ⟨first, parts, e, ?_⟩
  rw [List.splitOn_cons_eq_if_modifyHead, e, List.modifyHead_cons]
  simp only [beq_iff_eq]

theorem slash_not_mem {path part : List UInt8} (h : part ∈ path.splitOn slash) : slash ∉ part := by
  induction path generalizing part with
  | nil =>
    obtain rfl : part = [] := by simpa using h
    simp
  | cons c path ih =>
    obtain ⟨first, parts, e, hcons⟩ := splitOn_cons c path
    rw [hcons] at h
    rw [e] at ih
    by_cases hc : c = slash
    · rw [if_pos hc] at h
      rcases List.mem_cons.1 h with rfl | h
      · simp
      · exact ih h
    · rw [if_neg hc] at h
      rcases List.mem_cons.1 h with rfl | h
      · exact List.not_mem_cons_of_ne_of_not_mem (Ne.symm hc) (ih (List.mem_cons_self ..))
      · exact ih (List.mem_cons_of_mem _ h)

/-- Every other character is in some component. -/
theorem mem_part {path : List UInt8} {c : UInt8} (h : c ∈ path) (hc : c ≠ slash) : ∃ part ∈ path.splitOn slash, c ∈ part := by
  induction path with
  | nil => cases h
  | cons d path ih =>
    obtain ⟨first, parts, e, hcons⟩ := splitOn_cons d path
    rw [e] at ih
    rw [hcons]
    by_cases hd : d = slash
    · subst hd
      rw [if_pos rfl]
      obtain ⟨part, hp, hm⟩ := ih ((List.mem_cons.1 h).resolve_left hc)
      exact ⟨part, List.mem_cons_of_mem _ hp, hm⟩
    · rw [if_neg hd]
      rcases List.mem_cons.1 h with rfl | h
      · exact ⟨c :: first, List.mem_cons_self .., List.mem_cons_self ..⟩
      · obtain ⟨part, hp, hm⟩ := ih h
        rcases List.mem_cons.1 hp with rfl | hp
        · exact ⟨d :: part, List.mem_cons_self .., List.mem_cons_of_mem _ hm⟩
        · exact ⟨part, List.mem_cons_of_mem _ hp, hm⟩

theorem components_cert (rest : List UInt8) :
    components (MQTT_CFG_CERT_DIR ++ ascii "/" ++ rest) = ascii "cert" :: components rest := by
  have hsplit : (MQTT_CFG_CERT_DIR ++ ascii "/" ++ rest).splitOn slash = [] :: ascii "cert" :: rest.splitOn slash := by
    have hempty : slash ∉ ([] : List UInt8) := List.not_mem_nil
    have hcert : slash ∉ ascii "cert" := by decide
    have hroot := List.splitOn_append_cons_self_of_not_mem hempty (ascii "cert" ++ slash :: rest)
    rw [List.splitOn_append_cons_self_of_not_mem hcert] at hroot
    exact hroot
  rw [components, hsplit]
  simp [components, ascii]

/-- Components are left exactly when there is another character than slashes and dots. -/
theorem components_eq_nil {rest : List UInt8} (hup : ¬ ascii ".." <:+: rest) :
    components rest = [] ↔ ∀ c ∈ rest, c = slash ∨ c = dot := by
  simp only [components, List.filter_eq_nil_iff, Bool.and_eq_true, decide_eq_true_eq, not_and, not_not]
  constructor
  · intro h c hc
    by_contra hno
    rw [not_or] at hno
    obtain ⟨part, hp, hm⟩ := mem_part hc hno.1
    have := h part hp (by rintro rfl; cases hm)
    subst this
    exact hno.2 (by simpa [ascii, dot] using hm)
  · intro h part hp hne
    -- A component of dots only is a single one, for two of them side by side are excluded.
    have hdots : ∀ c ∈ part, c = dot := fun c hc =>
      (h c ((part_of_path hp).subset hc)).resolve_left fun e => slash_not_mem hp (e ▸ hc)
    obtain ⟨n, rfl⟩ : ∃ n, part = List.replicate n dot := ⟨_, List.eq_replicate_of_mem hdots⟩
    rcases n with _ | _ | n
    · exact absurd rfl hne
    · rfl
    · have hpre : ascii ".." <+: List.replicate (n + 2) dot := ⟨List.replicate n dot, rfl⟩
      exact absurd (hpre.isInfix.trans (part_of_path hp)) hup

/-- What the check promises of a field: it reads within it, and what it accepts lies below `/cert`. -/
def Contained (field : CharArray (MQTT_CFG_PATH_MAX_LEN + 1)) : Prop :=
  ∃ under, Checked.mqttCfgPathUnderCert field.chars = some under ∧ (under = true → BelowCert field.str)

/-- Behind the prefix, which has no dots, two dots stay where they are. -/
theorem up_cert (rest : List UInt8) : ascii ".." <:+: MQTT_CFG_CERT_DIR ++ ascii "/" ++ rest ↔ ascii ".." <:+: rest := by
  simp [MQTT_CFG_CERT_DIR, ascii, List.infix_cons_iff]

theorem CertPath.components {path : List UInt8} (h : CertPath path) :
    ∃ rest, path = MQTT_CFG_CERT_DIR ++ ascii "/" ++ rest ∧ rest ≠ [] ∧ ¬ ascii ".." <:+: rest ∧
      components path = ascii "cert" :: components rest := by
  obtain ⟨rest, hne, rfl⟩ := h.file
  exact ⟨rest, rfl, hne, fun e => h.up ((up_cert rest).2 e), components_cert rest⟩

/-- The check keeps its promise on exactly the fields that do not name the directory. -/
theorem path_contained_iff (field : CharArray (MQTT_CFG_PATH_MAX_LEN + 1)) : Contained field ↔ ¬ NamesCert field.str := by
  have hs : MQTT_CFG_PATH_MAX_LEN < field.chars.length := by rw [field.full]; omega
  have hcheck := Checked.mqttCfgPathUnderCert_eq hs
  have haccept : mqttCfgPathUnderCert field.chars = true ↔ CertPath field.str := mqttCfgPathUnderCert_iff _
  constructor
  · rintro ⟨under, hu, hbelow⟩ ⟨hlen, rest, hne, hpath, hdots, hup⟩
    have haccepted : CertPath field.str := ⟨hlen, ⟨rest, hne, hpath⟩, fun e => hup ((up_cert rest).1 (hpath ▸ e))⟩
    obtain rfl := Option.some.inj (hcheck.symm.trans hu)
    obtain ⟨rest', hne', hb⟩ := (hbelow (haccept.2 haccepted)).below
    rw [hpath, components_cert, (components_eq_nil hup).2 hdots] at hb
    exact hne' (List.cons.inj hb).2.symm
  · intro hno
    refine ⟨_, hcheck, fun h => ?_⟩
    obtain ⟨rest, hpath, hne, hup, hcomp⟩ := (haccept.1 h).components
    have hbelow : components rest ≠ [] := fun e =>
      hno ⟨(haccept.1 h).length, rest, hne, hpath, (components_eq_nil hup).1 e, hup⟩
    refine ⟨fun hm => ?_, components rest, hbelow, hcomp⟩
    have := part_of_path (List.mem_of_mem_filter hm)
    exact (haccept.1 h).up this

/-- A second slash passes for the name of a file. -/
theorem cert_directory_accepted : ¬ ∀ field, Contained field := by
  intro h
  exact (path_contained_iff (.ofStr _ (ascii "/cert//"))).1 (h _) (by
    refine ⟨by decide, ascii "/", by decide +kernel, by decide +kernel, by decide +kernel, by decide +kernel⟩)

end LedLamp.Mqtt
