import LedLamp.Mqtt.Config
import Mathlib.Data.List.Infix
/-!
# What the field checks accept

The policy of the string fields, said without their loops: a printable text within
its bound, a logical certificate path (`CertPath`), and a DNS name (`Hostname`), which
is a list of labels and not an IPv4 literal. Each check of `mqtt_cfg.c` accepts exactly
the texts of its grammar.
-/

namespace LedLamp.Mqtt

def dot : UInt8 := 0x2E

/-- The characters of a label. -/
def isLabelChar (c : UInt8) : Bool := mqttCfgIsAlnum c || c = 0x2D || c = 0x5F

/-- A label: letters, digits, `-` and `_`, with a letter or digit at both ends. -/
structure Label (label : List UInt8) : Prop where
  chars : ∀ c ∈ label, isLabelChar c = true
  first : ∃ c, label.head? = some c ∧ mqttCfgIsAlnum c = true
  last : ∃ c, label.getLast? = some c ∧ mqttCfgIsAlnum c = true

/-- Labels separated by single dots. -/
inductive Labels : List UInt8 → Prop
  | one {label : List UInt8} (h : Label label) : Labels label
  | more {label rest : List UInt8} (h : Label label) (hr : Labels rest) : Labels (label ++ dot :: rest)

/-- A DNS name: labels within the bound, not all of digits. -/
structure Hostname (name : List UInt8) : Prop where
  length : name.length ≤ MQTT_CFG_HOSTNAME_MAX_LEN
  labels : Labels name
  letter : ∃ c ∈ name, c ≠ dot ∧ mqttCfgIsDigit c = false

/-- A printable text of 1 to `maxLen` characters. -/
structure Printable (text : List UInt8) (maxLen : Nat) : Prop where
  pos : text ≠ []
  length : text.length ≤ maxLen
  chars : ∀ c ∈ text, 0x20 ≤ c ∧ c ≤ 0x7E

/-- A file below `/cert`, with no `..` in its path. -/
structure CertPath (path : List UInt8) : Prop where
  length : path.length ≤ MQTT_CFG_PATH_MAX_LEN
  file : ∃ file, file ≠ [] ∧ path = MQTT_CFG_CERT_DIR ++ ascii "/" ++ file
  up : ¬ ascii ".." <:+: path

/-! ## Printable texts and paths -/

/-- The text of a cut buffer is the cut text. -/
theorem cstr_take (s : List UInt8) (n : Nat) : cstr (s.take n) = (cstr s).take n := by
  unfold cstr
  induction s generalizing n with
  | nil => simp
  | cons c s ih =>
    cases n with
    | zero => rfl
    | succ n =>
      simp only [List.take_succ_cons, List.takeWhile_cons]
      split
      · rw [List.take_succ_cons, ih]
      · rfl

/-- Cutting a buffer behind the bound does not hide a text that is too long. -/
theorem strnlen_le_iff (s : List UInt8) (n : Nat) : strnlen s (n + 1) ≤ n ↔ (cstr s).length ≤ n := by
  rw [strnlen, strlen, cstr_take, List.length_take]
  omega

theorem take_strnlen {s : List UInt8} {n : Nat} (h : strnlen s (n + 1) ≤ n) : s.take (strnlen s (n + 1)) = cstr s := by
  have hle := (strnlen_le_iff s n).1 h
  have hlen : strnlen s (n + 1) = (cstr s).length := by
    rw [strnlen, strlen, cstr_take, List.length_take]
    omega
  rw [hlen]
  exact (List.prefix_iff_eq_take.1 (List.takeWhile_prefix _)).symm

theorem mqttCfgIsPrintable_iff (s : List UInt8) (maxLen : Nat) :
    mqttCfgIsPrintable s maxLen = true ↔ Printable (cstr s) maxLen := by
  simp only [mqttCfgIsPrintable]
  by_cases h0 : cstr s = []
  · rw [h0]
    exact iff_of_false (by simp) fun h => h.pos rfl
  rw [if_neg (by simpa using h0)]
  by_cases hn : strnlen s (maxLen + 1) ≤ maxLen
  · rw [if_neg (by omega), take_strnlen hn]
    constructor
    · intro h
      exact ⟨h0, (strnlen_le_iff s maxLen).1 hn, by simpa using h⟩
    · intro h
      simpa using h.chars
  · rw [if_pos (by omega)]
    exact iff_of_false (by simp) fun h => hn ((strnlen_le_iff s maxLen).2 h.length)

/-- `strstr` finds the needle exactly when it is part of the text. -/
theorem strstr_iff (needle text : List UInt8) : strstr needle text = true ↔ needle <:+: text := by
  induction text with
  | nil => simp [strstr, List.infix_nil]
  | cons c text ih =>
    rw [strstr, Bool.or_eq_true, ih, List.infix_cons_iff, List.isPrefixOf_iff_prefix]

theorem mqttCfgPathUnderCert_iff (s : List UInt8) : mqttCfgPathUnderCert s = true ↔ CertPath (cstr s) := by
  simp only [mqttCfgPathUnderCert]
  generalize hc : cstr s = path
  have hlen := strnlen_le_iff s MQTT_CFG_PATH_MAX_LEN
  rw [hc] at hlen
  -- One check of the source at a time: what fails it is no such path.
  by_cases h0 : path = []
  · rw [h0]
    refine iff_of_false (by simp) fun h => ?_
    obtain ⟨file, -, e⟩ := h.file
    exact absurd (congrArg List.length e) (by simp [ascii])
  rw [if_neg (by simpa using h0)]
  by_cases hn : strnlen s (MQTT_CFG_PATH_MAX_LEN + 1) ≤ MQTT_CFG_PATH_MAX_LEN
  swap
  · rw [if_pos (by omega)]
    exact iff_of_false (by simp) fun h => hn (hlen.2 h.length)
  rw [if_neg (by omega)]
  by_cases hp : MQTT_CFG_CERT_DIR ++ ascii "/" <+: path
  swap
  · have hpre : (MQTT_CFG_CERT_DIR ++ ascii "/").isPrefixOf path = false :=
      Bool.eq_false_iff.2 fun e => hp (List.isPrefixOf_iff_prefix.1 e)
    rw [hpre]
    refine iff_of_false (by simp) fun h => hp ?_
    obtain ⟨file, -, rfl⟩ := h.file
    exact List.prefix_append _ _
  rw [if_neg (by simpa using hp)]
  obtain ⟨file, rfl⟩ := hp
  by_cases hf : file = []
  · rw [if_pos (by simp [hf])]
    refine iff_of_false (by simp) fun h => ?_
    obtain ⟨file', hne, e⟩ := h.file
    exact hne (by rw [← List.append_cancel_left e, hf])
  rw [if_neg (by simpa using hf)]
  have hup := strstr_iff (ascii "..") (MQTT_CFG_CERT_DIR ++ ascii "/" ++ file)
  by_cases hs : strstr (ascii "..") (MQTT_CFG_CERT_DIR ++ ascii "/" ++ file) = true
  · rw [if_pos hs]
    exact iff_of_false (by simp) fun h => h.up (hup.1 hs)
  · rw [if_neg hs]
    exact iff_of_true rfl ⟨hlen.1 hn, ⟨file, hf, rfl⟩, fun h => hs (hup.2 h)⟩

/-! ## Hostnames -/

/-- The locals inside a label, after the character `prev`. -/
abbrev inLabel (ipv4Literal : Bool) (prev : UInt8) : HostnameScan := ⟨false, false, true, ipv4Literal, prev⟩

/-- The locals before a label: at the start of the name, or after a dot. -/
abbrev atLabel (lastWasDot ipv4Literal : Bool) (prev : UInt8) : HostnameScan := ⟨lastWasDot, true, false, ipv4Literal, prev⟩

theorem hostnameChar_inLabel {c : UInt8} (hc : c ≠ dot) (ip : Bool) (prev : UInt8) : hostnameChar (inLabel ip prev) c =
    if isLabelChar c then some (inLabel (ip && mqttCfgIsDigit c) c) else none := by
  have hc : ¬ c = 0x2E := hc
  simp only [hostnameChar, hc, if_false, isLabelChar]
  cases mqttCfgIsDigit c <;> by_cases h : (mqttCfgIsAlnum c || decide (c = 0x2D) || decide (c = 0x5F)) = true <;> simp [h]

theorem hostnameChar_atLabel {c : UInt8} (hc : c ≠ dot) (last ip : Bool) (prev : UInt8) :
    hostnameChar (atLabel last ip prev) c = if mqttCfgIsAlnum c then some (inLabel (ip && mqttCfgIsDigit c) c) else none := by
  have hc : ¬ c = 0x2E := hc
  simp only [hostnameChar, hc, if_false]
  cases mqttCfgIsDigit c <;> by_cases h : mqttCfgIsAlnum c = true <;> simp [h]

/-- A dot ends a label whose last character is a letter or digit. -/
theorem hostnameChar_dot (ip : Bool) (prev : UInt8) : hostnameChar (inLabel ip prev) dot =
    if mqttCfgIsAlnum prev then some (atLabel true ip dot) else none := by
  by_cases h : mqttCfgIsAlnum prev = true <;> simp [hostnameChar, dot, h]

theorem hostnameChar_empty (last ip : Bool) (prev : UInt8) : hostnameChar (atLabel last ip prev) dot = none := by
  simp [hostnameChar, dot]

/-- The loop over what is left of a label. -/
theorem fold_inLabel {label : List UInt8} (hd : dot ∉ label) (ip : Bool) (prev : UInt8) :
    label.foldlM hostnameChar (inLabel ip prev) = if label.all isLabelChar then
      some (inLabel (ip && label.all mqttCfgIsDigit) (label.getLastD prev)) else none := by
  induction label generalizing ip prev with
  | nil => simp
  | cons c label ih =>
    simp only [List.mem_cons, not_or] at hd
    rw [List.foldlM_cons, hostnameChar_inLabel (Ne.symm hd.1), List.all_cons]
    by_cases hl : isLabelChar c = true
    · rw [if_pos hl, hl, Option.bind_eq_bind, Option.bind_some, ih hd.2, List.getLastD_cons, List.all_cons,
        Bool.true_and, Bool.and_assoc]
    · simp [hl]

theorem isLabelChar_alnum {c : UInt8} (h : mqttCfgIsAlnum c = true) : isLabelChar c = true := by
  simp [isLabelChar, h]

/-- The loop over a whole label. -/
theorem fold_label {label : List UInt8} (hd : dot ∉ label) (hne : label ≠ []) (last ip : Bool) (prev : UInt8)
    {s : HostnameScan} : label.foldlM hostnameChar (atLabel last ip prev) = some s ↔
      (∀ c ∈ label, isLabelChar c = true) ∧ (∃ c, label.head? = some c ∧ mqttCfgIsAlnum c = true) ∧
      s = inLabel (ip && label.all mqttCfgIsDigit) (label.getLastD 0) := by
  cases label with
  | nil => exact absurd rfl hne
  | cons c label =>
    simp only [List.mem_cons, not_or] at hd
    rw [List.foldlM_cons, hostnameChar_atLabel (Ne.symm hd.1)]
    by_cases ha : mqttCfgIsAlnum c = true
    · rw [if_pos ha, Option.bind_eq_bind, Option.bind_some, fold_inLabel hd.2]
      simp only [Option.ite_none_right_eq_some, Option.some.injEq, List.all_eq_true, List.mem_cons, forall_eq_or_imp,
        isLabelChar_alnum ha, true_and, List.head?_cons, exists_eq_left', ha, List.all_cons, List.getLastD_cons,
        Bool.and_assoc]
      exact and_congr_right fun _ => eq_comm
    · simp [ha]

/-- The last check on the locals, at the end of the name. -/
def HostnameScan.Ends (s : HostnameScan) : Prop :=
  s.lastWasDot = false ∧ s.labelHasAlnum = true ∧ mqttCfgIsAlnum s.prev = true

theorem Label.dot_not_mem {label : List UInt8} (h : Label label) : dot ∉ label :=
  fun hm => absurd (h.chars dot hm) (by decide)

theorem Label.ne_nil {label : List UInt8} (h : Label label) : label ≠ [] := by
  rintro rfl
  obtain ⟨c, hc, -⟩ := h.first
  cases hc

theorem Label.last_alnum {label : List UInt8} (h : Label label) : mqttCfgIsAlnum (label.getLastD 0) = true := by
  obtain ⟨c, hc, ha⟩ := h.last
  rwa [List.getLastD_eq_getLast?, hc]

/-- The characters an IPv4 literal is made of. -/
def isIpv4Char (c : UInt8) : Bool := c = dot || mqttCfgIsDigit c

theorem all_ipv4 {label : List UInt8} (hd : dot ∉ label) : label.all isIpv4Char = label.all mqttCfgIsDigit := by
  rw [Bool.eq_iff_iff, List.all_eq_true, List.all_eq_true]
  refine forall_congr' fun c => forall_congr' fun hc => ?_
  have : c ≠ dot := fun e => hd (e ▸ hc)
  simp [isIpv4Char, this]

/-- The loop runs through a list of labels, and knows in the end whether it was all digits. -/
theorem Labels.scan {name : List UInt8} (h : Labels name) (last ip : Bool) (prev : UInt8) :
    ∃ s, name.foldlM hostnameChar (atLabel last ip prev) = some s ∧ s.Ends ∧
      s.ipv4Literal = (ip && name.all isIpv4Char) := by
  induction h generalizing last ip prev with
  | @one label h =>
    refine ⟨_, (fold_label h.dot_not_mem h.ne_nil last ip prev).2 ⟨h.chars, h.first, rfl⟩, ⟨rfl, rfl, h.last_alnum⟩, ?_⟩
    rw [all_ipv4 h.dot_not_mem]
  | @more label rest h _ ih =>
    obtain ⟨s, hs, he, hv⟩ := ih true (ip && label.all mqttCfgIsDigit) dot
    refine ⟨s, ?_, he, ?_⟩
    · rw [List.foldlM_append, (fold_label h.dot_not_mem h.ne_nil last ip prev).2 ⟨h.chars, h.first, rfl⟩]
      simp only [Option.bind_eq_bind, Option.bind_some, List.foldlM_cons, hostnameChar_dot, h.last_alnum, if_true]
      exact hs
    · rw [hv, List.all_append, all_ipv4 h.dot_not_mem, List.all_cons]
      simp [isIpv4Char, Bool.and_assoc]

/-- Only a list of labels is run through. -/
theorem Labels.of_scan {name : List UInt8} {last ip : Bool} {prev : UInt8} {s : HostnameScan}
    (h : name.foldlM hostnameChar (atLabel last ip prev) = some s) (he : s.Ends) : Labels name := by
  -- Behind a dot the scan starts afresh: the induction is on what is left of the name.
  induction hn : name.length using Nat.strong_induction_on generalizing name last ip prev with
  | _ n ih =>
    have split : name.takeWhile (· ≠ dot) ++ name.dropWhile (· ≠ dot) = name := List.takeWhile_append_dropWhile
    have hd : dot ∉ name.takeWhile (· ≠ dot) := fun hm => by simpa using List.mem_takeWhile_imp hm
    have hrest : ∀ c ∈ (name.dropWhile (· ≠ dot)).head?, c = dot := by
      intro c hc
      have := List.head?_dropWhile_not (· ≠ dot) name
      rw [hc] at this
      simpa using this
    generalize name.takeWhile (· ≠ dot) = label at split hd
    generalize name.dropWhile (· ≠ dot) = rest at split hrest
    rw [← split, List.foldlM_append, Option.bind_eq_bind, Option.bind_eq_some_iff] at h
    obtain ⟨s₁, h₁, h₂⟩ := h
    by_cases hne : label = []
    · -- An empty label: the name ends here or goes on with a dot, and both are refused.
      subst hne
      obtain rfl : atLabel last ip prev = s₁ := Option.some.inj h₁
      cases rest with
      | nil =>
        obtain rfl := Option.some.inj h₂
        exact absurd he.2.1 (by simp)
      | cons c rest =>
        rw [hrest c rfl, List.foldlM_cons, hostnameChar_empty] at h₂
        cases h₂
    · obtain ⟨hchars, hfirst, rfl⟩ := (fold_label hd hne last ip prev).1 h₁
      have label_of : mqttCfgIsAlnum (label.getLastD 0) = true → Label label := fun ha =>
        ⟨hchars, hfirst, label.getLastD 0, by rw [List.getLastD_eq_getLast?]; exact (List.getLast?_eq_some_getLast hne) ▸ rfl, ha⟩
      cases rest with
      | nil =>
        obtain rfl := Option.some.inj h₂
        rw [← split, List.append_nil]
        exact .one (label_of he.2.2)
      | cons c rest =>
        obtain rfl := hrest c rfl
        rw [List.foldlM_cons, hostnameChar_dot, Option.bind_eq_bind] at h₂
        by_cases ha : mqttCfgIsAlnum (label.getLastD 0) = true
        · rw [if_pos ha, Option.bind_some] at h₂
          rw [← split]
          exact .more (label_of ha) (ih rest.length (by rw [← hn, ← split]; simp; omega) h₂ rfl)
        · rw [if_neg ha] at h₂
          cases h₂

theorem Labels.alnum_ends {name : List UInt8} (h : Labels name) :
    (∃ c, name.head? = some c ∧ mqttCfgIsAlnum c = true) ∧ ∃ c, name.getLast? = some c ∧ mqttCfgIsAlnum c = true := by
  induction h with
  | one h => exact ⟨h.first, h.last⟩
  | @more label rest h _ ih =>
    obtain ⟨c, hc, ha⟩ := h.first
    obtain ⟨d, hd, hb⟩ := ih.2
    exact ⟨⟨c, by simp [hc], ha⟩, d, by simp [List.getLast?_append, List.getLast?_cons, hd], hb⟩

theorem Labels.chars {name : List UInt8} (h : Labels name) : ∀ c ∈ name, isLabelChar c = true ∨ c = dot := by
  induction h with
  | one h => exact fun c hc => .inl (h.chars c hc)
  | more h _ ih =>
    intro c hc
    rcases List.mem_append.1 hc with hc | hc
    · exact .inl (h.chars c hc)
    · rcases List.mem_cons.1 hc with rfl | hc
      · exact .inr rfl
      · exact ih c hc

/-- What a name may hold is printable and no colon. -/
theorem nameChar_plain {c : UInt8} (h : isLabelChar c = true ∨ c = dot) : (0x20 ≤ c ∧ c ≤ 0x7E) ∧ c ≠ 0x3A := by
  simp only [isLabelChar, mqttCfgIsAlnum, mqttCfgIsDigit, Bool.or_eq_true, Bool.and_eq_true, decide_eq_true_eq, dot,
    UInt8.le_iff_toNat_le, ← UInt8.toNat_inj, UInt8.reduceToNat, ne_eq] at h ⊢
  omega

theorem alnum_ne_dot {c : UInt8} (h : mqttCfgIsAlnum c = true) : c ≠ dot := by
  rintro rfl
  exact absurd h (by decide)

theorem not_all_ipv4 {name : List UInt8} : name.all isIpv4Char = false ↔ ∃ c ∈ name, c ≠ dot ∧ mqttCfgIsDigit c = false := by
  simp [List.all_eq_false, isIpv4Char]

/-- The loop with its checks accepts the lists of labels that are not all digits. -/
theorem scan_iff (name : List UInt8) : (∃ s, name.foldlM hostnameChar (atLabel false true 0) = some s ∧ s.Ends ∧
    s.ipv4Literal = false) ↔ Labels name ∧ ∃ c ∈ name, c ≠ dot ∧ mqttCfgIsDigit c = false := by
  constructor
  · rintro ⟨s, hs, he, hv⟩
    have hl := Labels.of_scan hs he
    obtain ⟨s', hs', -, hv'⟩ := hl.scan false true 0
    obtain rfl := Option.some.inj (hs.symm.trans hs')
    exact ⟨hl, not_all_ipv4.1 (by rw [← hv, hv', Bool.true_and])⟩
  · rintro ⟨hl, hc⟩
    obtain ⟨s, hs, he, hv⟩ := hl.scan false true 0
    exact ⟨s, hs, he, by rw [hv, Bool.true_and, not_all_ipv4.2 hc]⟩

theorem mqttCfgHostnameValid_iff (s : List UInt8) : mqttCfgHostnameValid s = true ↔ Hostname (cstr s) := by
  have hp := mqttCfgIsPrintable_iff s MQTT_CFG_HOSTNAME_MAX_LEN
  have hscan := scan_iff (cstr s)
  simp only [mqttCfgHostnameValid]
  generalize cstr s = name at hp hscan ⊢
  have printable_of : Hostname name → Printable name MQTT_CFG_HOSTNAME_MAX_LEN := by
    intro h
    refine ⟨?_, h.length, fun c hc => (nameChar_plain (h.labels.chars c hc)).1⟩
    rintro rfl
    obtain ⟨⟨c, hc, -⟩, -⟩ := h.labels.alnum_ends
    cases hc
  by_cases hpr : mqttCfgIsPrintable s MQTT_CFG_HOSTNAME_MAX_LEN = true
  swap
  · rw [if_pos (by simpa using hpr)]
    exact iff_of_false (by simp) fun h => hpr (hp.2 (printable_of h))
  rw [if_neg (by simpa using hpr)]
  by_cases hends : name = [] ∨ name.head? = some 0x2E ∨ name.getLast? = some 0x2E
  · rw [if_pos hends]
    refine iff_of_false (by simp) fun h => ?_
    obtain ⟨⟨c, hc, ha⟩, d, hd, hb⟩ := h.labels.alnum_ends
    rcases hends with rfl | e | e
    · cases hc
    · exact alnum_ne_dot ha (Option.some.inj (hc.symm.trans e))
    · exact alnum_ne_dot hb (Option.some.inj (hd.symm.trans e))
  rw [if_neg hends]
  by_cases hcolon : name.contains 0x3A = true
  · rw [if_pos hcolon]
    exact iff_of_false (by simp) fun h => (nameChar_plain (h.labels.chars 0x3A (by simpa using hcolon))).2 rfl
  rw [if_neg hcolon]
  have hname : Hostname name ↔ Labels name ∧ ∃ c ∈ name, c ≠ dot ∧ mqttCfgIsDigit c = false :=
    ⟨fun h => ⟨h.labels, h.letter⟩, fun h => ⟨(hp.1 hpr).length, h.1, h.2⟩⟩
  rw [hname, ← hscan]
  cases name.foldlM hostnameChar (atLabel false true 0) with
  | none => simp
  | some s =>
    simp only [Option.some.injEq, exists_eq_left', HostnameScan.Ends]
    cases s.lastWasDot <;> cases s.labelHasAlnum <;> cases mqttCfgIsAlnum s.prev <;> cases s.ipv4Literal <;> simp

end LedLamp.Mqtt
