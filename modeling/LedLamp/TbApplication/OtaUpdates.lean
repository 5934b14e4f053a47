import LedLamp.TbApplication.States
/-!
# Firmware and software keys of a shared update

ThingsBoard announces packages through the shared attributes. `OnlyOta` says which
updates carry nothing else, and `AnnouncesFirmware` which carry a firmware key, also
beside others; the module ignores exactly the first and raises the firmware hint on
exactly the second (`update_path`).
-/

namespace LedLamp.TbApplication

open Conc

def FirmwareKey (key : List UInt8) : Prop := ascii "fw_" <+: cstr key

def OtaKey (key : List UInt8) : Prop := FirmwareKey key ∨ ascii "sw_" <+: cstr key

/-- The member is a `"deleted"` array of these items. -/
def Deletes (member : List UInt8 × Json) (items : List Json) : Prop :=
  cstr member.1 = ascii "deleted" ∧ member.2 = .array items

/-- An OTA key, or the deletion of OTA keys only. -/
def OtaMember (member : List UInt8 × Json) : Prop :=
  OtaKey member.1 ∨ ∃ items, Deletes member items ∧ ∀ item ∈ items, ∃ key, item = .string key ∧ OtaKey key

/-- A firmware key, or the deletion of one. -/
def FirmwareMember (member : List UInt8 × Json) : Prop :=
  FirmwareKey member.1 ∨ ∃ items key, Deletes member items ∧ .string key ∈ items ∧ FirmwareKey key

variable (cJsonParse : List UInt8 → Option Json)

/-- A bounded update with these attributes. -/
def UpdateOf (text : List UInt8) (attrs : List (List UInt8 × Json)) : Prop :=
  strlen text ≤ TB_APPLICATION_MAX_PAYLOAD_BYTES ∧
    ∃ members, cJsonParse text = some (.object members) ∧ Selects (.object members) none attrs

def OnlyOta (text : List UInt8) : Prop :=
  ∃ attrs, UpdateOf cJsonParse text attrs ∧ attrs ≠ [] ∧ ∀ member ∈ attrs, OtaMember member

def AnnouncesFirmware (text : List UInt8) : Prop :=
  ∃ attrs, UpdateOf cJsonParse text attrs ∧ ∃ member ∈ attrs, FirmwareMember member

variable {cJsonParse}

/-! ## The scan -/

theorem isFirmwareKey_iff {key : List UInt8} : isFirmwareKey key = true ↔ FirmwareKey key := List.isPrefixOf_iff_prefix

theorem tbAppIsOtaKey_iff {key : List UInt8} : tbAppIsOtaKey key = true ↔ OtaKey key := by
  rw [tbAppIsOtaKey, Bool.or_eq_true, isFirmwareKey_iff, List.isPrefixOf_iff_prefix, OtaKey]

/-- The key that an item of a `"deleted"` array names: none if it is no string. -/
def Names (item : Json) : Option (List UInt8) → Prop
  | some key => item = .string key
  | none => ∀ key, item ≠ .string key

/-- A `"deleted"` array stands for its items. -/
theorem otaKeys_deletes {member : List UInt8 × Json} {items : List Json} (h : Deletes member items)
    (key : Option (List UInt8)) : key ∈ otaKeys member ↔ ∃ item ∈ items, Names item key := by
  obtain ⟨name, v⟩ := member
  obtain ⟨hname, rfl⟩ := h
  simp only [otaKeys, if_pos hname, List.mem_map]
  refine exists_congr fun item => and_congr_right fun _ => ?_
  cases item <;> cases key <;> simp [Names]

/-- Any other member stands for its key. -/
theorem otaKeys_plain {member : List UInt8 × Json} (h : ∀ items, ¬ Deletes member items) :
    otaKeys member = [some member.1] := by
  obtain ⟨name, v⟩ := member
  cases v with
  | array items =>
    have hname : cstr name ≠ ascii "deleted" := fun hname => h items ⟨hname, rfl⟩
    simp only [otaKeys, if_neg hname]
  | _ => rfl

/-- The name of a `"deleted"` array is no OTA key. -/
theorem Deletes.key {member : List UInt8 × Json} {items : List Json} (h : Deletes member items) :
    ¬ OtaKey member.1 := by
  unfold OtaKey FirmwareKey
  rw [h.1]
  decide

theorem Deletes.unique {member : List UInt8 × Json} {items items' : List Json} (h : Deletes member items)
    (h' : Deletes member items') : items' = items := by simpa using h'.2.symm.trans h.2

theorem otaMember_iff {member : List UInt8 × Json} :
    OtaMember member ↔ ∀ key ∈ otaKeys member, key.any tbAppIsOtaKey = true := by
  by_cases h : ∃ items, Deletes member items
  · obtain ⟨items, h⟩ := h
    rw [OtaMember, or_iff_right h.key]
    simp only [otaKeys_deletes h]
    constructor
    · rintro ⟨items', h', hall⟩ key ⟨item, hitem, hname⟩
      obtain rfl := h.unique h'
      obtain ⟨k, rfl, hkey⟩ := hall item hitem
      cases key with
      | none => exact absurd rfl (hname k)
      | some key =>
        obtain rfl := Json.string.inj hname
        exact tbAppIsOtaKey_iff.2 hkey
    · intro hall
      refine ⟨items, h, fun item hitem => ?_⟩
      cases item with
      | string key => exact ⟨key, rfl, tbAppIsOtaKey_iff.1 (hall (some key) ⟨_, hitem, rfl⟩)⟩
      | _ =>
        -- An item that is no string stands for no key, which is no OTA key.
        have hkey := hall none ⟨_, hitem, nofun⟩
        cases hkey
  · rw [not_exists] at h
    rw [otaKeys_plain h, OtaMember, or_iff_left fun ⟨items, hd, _⟩ => h items hd]
    simp [tbAppIsOtaKey_iff]

theorem firmwareMember_iff {member : List UInt8 × Json} :
    FirmwareMember member ↔ ∃ key ∈ otaKeys member, key.any isFirmwareKey = true := by
  by_cases h : ∃ items, Deletes member items
  · obtain ⟨items, h⟩ := h
    rw [FirmwareMember, or_iff_right fun hkey => h.key (.inl hkey)]
    simp only [otaKeys_deletes h]
    constructor
    · rintro ⟨items', key, h', hitem, hkey⟩
      obtain rfl := h.unique h'
      exact ⟨some key, ⟨_, hitem, rfl⟩, isFirmwareKey_iff.2 hkey⟩
    · rintro ⟨key, ⟨item, hitem, hname⟩, hkey⟩
      cases key with
      | none => cases hkey
      | some key => exact ⟨items, key, h, hname ▸ hitem, isFirmwareKey_iff.1 hkey⟩
  · rw [not_exists] at h
    rw [otaKeys_plain h, FirmwareMember, or_iff_left fun ⟨items, _, hd, _⟩ => h items hd]
    simp [isFirmwareKey_iff]

theorem otaScan_fst {attrs : List (List UInt8 × Json)} :
    (otaScan attrs).1 = true ↔ attrs ≠ [] ∧ ∀ member ∈ attrs, OtaMember member := by
  simp only [otaScan, Bool.and_eq_true, Bool.not_eq_true', List.isEmpty_eq_false_iff, List.all_eq_true,
    List.forall_mem_flatMap, otaMember_iff]

theorem otaScan_snd {attrs : List (List UInt8 × Json)} :
    (otaScan attrs).2 = true ↔ ∃ member ∈ attrs, FirmwareMember member := by
  simp only [otaScan, List.any_eq_true, List.mem_flatMap, firmwareMember_iff]
  constructor
  · rintro ⟨key, ⟨member, hm, hk⟩, hkey⟩
    exact ⟨member, hm, key, hk, hkey⟩
  · rintro ⟨member, hm, key, hk, hkey⟩
    exact ⟨key, ⟨member, hm, hk⟩, hkey⟩

/-! ## The callback -/

/-- The raise of the firmware hint. -/
def raise : Done := ⟨.store (.firmwareHint true), ()⟩

variable {text : List UInt8} {done : List Done}

/-- The attributes of an update are determined by its text. -/
theorem updateOf_iff {members attrs : List (List UInt8 × Json)} (hlen : strlen text ≤ TB_APPLICATION_MAX_PAYLOAD_BYTES)
    (hparse : cJsonParse text = some (.object members)) :
    UpdateOf cJsonParse text attrs ↔ attrs = (sharedOrRoot (.object members)).members := by
  obtain ⟨attrs', h⟩ : ∃ attrs', sharedOrRoot (.object members) = .object attrs' := by
    unfold sharedOrRoot
    split
    · exact ⟨_, rfl⟩
    · exact ⟨members, rfl⟩
  simp only [UpdateOf, hlen, hparse, Option.some.injEq, Json.object.injEq, true_and, exists_eq_left', ← sharedOrRoot_iff, h]
  exact eq_comm

/-- What is no bounded object is no update. -/
theorem not_updateOf (h : strlen text ≤ TB_APPLICATION_MAX_PAYLOAD_BYTES → ∀ members, cJsonParse text ≠ some (.object members))
    (attrs : List (List UInt8 × Json)) : ¬ UpdateOf cJsonParse text attrs :=
  fun ⟨hlen, members, hparse, _⟩ => h hlen members hparse

/-- The scan of an update: its answer, and whether it raised the hint on the way. -/
theorem otaOnlyUpdate_path {only : Bool} (h : (tbAppIsOtaOnlyUpdate cJsonParse text).Path done only) :
    (only = true ↔ OnlyOta cJsonParse text) ∧ (raise ∈ done ↔ AnnouncesFirmware cJsonParse text) := by
  -- What is no update ends the scan before its first step.
  have refused : (∀ attrs, ¬ UpdateOf cJsonParse text attrs) → done = [] ∧ only = false →
      (only = true ↔ OnlyOta cJsonParse text) ∧ (raise ∈ done ↔ AnnouncesFirmware cJsonParse text) := by
    rintro hno ⟨rfl, rfl⟩
    exact ⟨iff_of_false (by simp) fun ⟨attrs, ha, _⟩ => hno attrs ha,
      iff_of_false (by simp) fun ⟨attrs, ha, _⟩ => hno attrs ha⟩
  unfold tbAppIsOtaOnlyUpdate at h
  split at h
  · rename_i hlen
    exact refused (not_updateOf fun hle => absurd hle (Nat.not_le.2 hlen)) h
  · rename_i hlen
    split at h
    · rename_i members hparse
      have hattrs : ∀ attrs, UpdateOf cJsonParse text attrs ↔ attrs = (sharedOrRoot (.object members)).members :=
        fun _ => updateOf_iff (Nat.not_lt.1 hlen) hparse
      simp only [OnlyOta, AnnouncesFirmware, hattrs, exists_eq_left, ← otaScan_fst, ← otaScan_snd]
      dsimp only at h
      split at h
      · rename_i hfirmware
        simp only [Prog.perform_bind, Prog.path_op] at h
        obtain ⟨_, _, rfl, _, _, rfl, _, _, rfl, rfl, rfl⟩ := h
        exact ⟨Iff.rfl, iff_of_true (by simp [raise]) hfirmware⟩
      · rename_i hfirmware
        obtain ⟨rfl, rfl⟩ := h
        exact ⟨Iff.rfl, iff_of_false (by simp) hfirmware⟩
    · rename_i hno
      exact refused (not_updateOf fun _ => hno) h

/-- Exactly the updates that carry only OTA keys are ignored, and exactly those that carry a
firmware key raise the hint. -/
theorem update_path {build : Build} {s : Ret} (h : (body cJsonParse build (.parseState (some text) .update)).Path done s) :
    (s = .parsed .ignored ↔ OnlyOta cJsonParse text) ∧ (raise ∈ done ↔ AnnouncesFirmware cJsonParse text) := by
  have parsed : ∀ state, parseResult state ≠ .ignored := by
    intro state
    cases state <;> simp [parseResult]
  simp only [body, tbAppParseStateCallback, Prog.path_bind] at h
  obtain ⟨_, result, _, rfl, ⟨d, only, d', rfl, hd, hresult⟩, rfl, rfl⟩ := h
  obtain ⟨honly, hraise⟩ := otaOnlyUpdate_path hd
  split at hresult
  · rename_i hb
    obtain ⟨rfl, rfl⟩ := hresult
    exact ⟨iff_of_true rfl (honly.1 hb), by simpa using hraise⟩
  · rename_i hb
    obtain ⟨rfl, rfl⟩ := hresult
    exact ⟨iff_of_false (by simpa using parsed _) (mt honly.2 hb), by simpa using hraise⟩

end LedLamp.TbApplication
