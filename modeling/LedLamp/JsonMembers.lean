import LedLamp.JsonNul
import Mathlib.Data.List.Perm.Subperm
/-!
# The members of an object

A lookup takes the first member whose name, read as a C string, is the key. Where no
name has a NUL byte it is the first of that name, and where the names are distinct as
well it is membership (`Json.item_iff`). A checked read of an object is a chain in
`Except`, which succeeds when each of its steps does.
-/

namespace LedLamp

/-! ## Chains of checks -/

theorem bind_ok_iff {ε α β : Type} {x : Except ε α} {f : α → Except ε β} {b : β} :
    x >>= f = .ok b ↔ ∃ a, x = .ok a ∧ f a = .ok b := by
  cases x with
  | error e => exact iff_of_false (by simp [bind, Except.bind]) (by simp)
  | ok a => simp [bind, Except.bind]

theorem check_ok_iff {ε α : Type} {c : Prop} [Decidable c] {e : ε} {x : Except ε α} {a : α} :
    (do if c then .error e
        x : Except ε α) = .ok a ↔ ¬ c ∧ x = .ok a := by
  by_cases h : c
  · simp only [h, if_true, not_true, false_and, iff_false]
    exact nofun
  · simp [h]

/-! ## Lookup -/

namespace Json

variable {members : List (List UInt8 × Json)} {key : List UInt8} {v : Json}

/-- The value of the first member of this name. -/
def FirstOf (members : List (List UInt8 × Json)) (key : List UInt8) (v : Json) : Prop :=
  ∃ before after, members = before ++ (key, v) :: after ∧ ∀ m ∈ before, m.1 ≠ key

theorem item_first (hn : ∀ m ∈ members, (0 : UInt8) ∉ m.1) (hk : 0 ∉ key) :
    (object members).item key = some v ↔ FirstOf members key v := by
  have hsame : ∀ m ∈ members, cstr m.1 = cstr key ↔ m.1 = key := fun m hm => by
    rw [cstr_of_not_mem (hn m hm), cstr_of_not_mem hk]
  rw [item, Option.map_eq_some_iff]
  constructor
  · rintro ⟨⟨k, v'⟩, hf, rfl⟩
    obtain ⟨hp, before, after, he, hb⟩ := List.find?_eq_some_iff_append.1 hf
    have he : members = before ++ (k, v') :: after := he
    have hkey : k = key := (hsame (k, v') (by simp [he])).1 (by simpa using hp)
    refine ⟨before, after, hkey ▸ he, fun m hm e => ?_⟩
    have := hb m hm
    rw [(hsame m (by simp [he, hm])).2 e] at this
    simp at this
  · rintro ⟨before, after, he, hb⟩
    refine ⟨(key, v), List.find?_eq_some_iff_append.2 ⟨by simp, before, after, he, fun m hm => ?_⟩, rfl⟩
    have := mt (hsame m (by simp [he, hm])).1 (hb m hm)
    simp [this]

theorem item_none (hn : ∀ m ∈ members, (0 : UInt8) ∉ m.1) (hk : 0 ∉ key) :
    (object members).item key = none ↔ ∀ v, (key, v) ∉ members := by
  have hsame : ∀ m ∈ members, cstr m.1 = cstr key ↔ m.1 = key := fun m hm => by
    rw [cstr_of_not_mem (hn m hm), cstr_of_not_mem hk]
  simp only [item, Option.map_eq_none_iff, List.find?_eq_none, decide_eq_true_eq]
  constructor
  · exact fun h v hv => h (key, v) hv rfl
  · rintro h ⟨k, v⟩ hm e
    obtain rfl : k = key := (hsame (k, v) hm).1 e
    exact h v hm

/-- Of distinct names there is no other member than the first. -/
theorem firstOf_iff (hd : (members.map (·.1)).Nodup) : FirstOf members key v ↔ (key, v) ∈ members := by
  constructor
  · rintro ⟨before, after, rfl, -⟩
    simp
  · intro h
    obtain ⟨before, after, rfl⟩ := List.append_of_mem h
    refine ⟨before, after, rfl, fun m hm e => ?_⟩
    rw [List.map_append, List.map_cons, List.nodup_append] at hd
    exact hd.2.2 m.1 (List.mem_map_of_mem hm) key (by simp) e

theorem item_iff (hn : ∀ m ∈ members, (0 : UInt8) ∉ m.1) (hd : (members.map (·.1)).Nodup) (hk : 0 ∉ key) :
    (object members).item key = some v ↔ (key, v) ∈ members := (item_first hn hk).trans (firstOf_iff hd)

/-- Distinct names among the keys are no more than the keys. -/
theorem length_le_keys {keys : List (List UInt8)} (hd : (members.map (·.1)).Nodup) (hk : ∀ m ∈ members, m.1 ∈ keys) :
    members.length ≤ keys.length := by
  have hsub : members.map (·.1) ⊆ keys := by
    intro key h
    obtain ⟨m, hm, rfl⟩ := List.mem_map.1 h
    exact hk m hm
  simpa using (List.Nodup.subperm hd hsub).length_le

/-! ## Objects without NUL bytes -/

section Plain

variable (hnul : membersHoldNul members = false)

include hnul

theorem names_plain : ∀ m ∈ members, (0 : UInt8) ∉ m.1 := fun m hm => (membersHoldNul_mem hnul m hm).1

theorem string_plain {s : List UInt8} (h : (key, string s) ∈ members) : (0 : UInt8) ∉ s := by
  simpa [holdsNul] using (membersHoldNul_mem hnul _ h).2

variable (hd : (members.map (·.1)).Nodup) (hk : 0 ∉ key)

include hd hk

/-- Of distinct names, the member that is found is the one of that name. -/
theorem member_iff : (object members).item key = some v ↔ (key, v) ∈ members := item_iff (names_plain hnul) hd hk

/-- A string that is found is read whole. -/
theorem member_string_iff {P : List UInt8 → Prop} :
    (∃ s, (object members).item key = some (string s) ∧ P (cstr s)) ↔ ∃ s, (key, string s) ∈ members ∧ P s := by
  refine exists_congr fun s => ?_
  rw [member_iff hnul hd hk]
  refine and_congr_right fun hm => ?_
  rw [cstr_of_not_mem (string_plain hnul hm)]

end Plain

end Json

/-! ## Numbers -/

/-- A double equal to an integer is cut to it. -/
theorem Number.truncate_of_cmp {n : Number} {k : Int} (h : n.cmp k = .eq) : n.truncate = k := by
  cases n with
  | infinite negative => cases negative <;> simp [cmp] at h
  | finite num pow =>
    have hpow : (0 : Int) < 2 ^ pow := Int.pow_pos (by omega)
    simp only [cmp, Int.compare_eq_eq] at h
    rw [truncate, h, Int.mul_tdiv_cancel _ (Int.ne_of_gt hpow)]

/-- A double equal to an integer compares like it. -/
theorem Number.cmp_of_cmp {n : Number} {k : Int} (h : n.cmp k = .eq) (j : Int) : n.cmp j = compare k j := by
  have ht := truncate_of_cmp h
  rw [cmp_of_integral (by rw [ht]; exact h), ht]

/-- What the checks between two bounds let through, and what it is cut to. -/
theorem Number.between_iff {n : Number} {a b k : Nat} :
    (n.cmp a ≠ .lt ∧ n.cmp b ≠ .gt ∧ n.cmp n.truncate = .eq) ∧ n.truncate.toNat = k ↔
      n.cmp k = .eq ∧ a ≤ k ∧ k ≤ b := by
  constructor
  · rintro ⟨⟨ha, hb, hn⟩, rfl⟩
    rw [cmp_of_integral hn, Ne, Int.compare_eq_lt] at ha
    rw [cmp_of_integral hn, Ne, Int.compare_eq_gt] at hb
    rw [Int.toNat_of_nonneg (by omega)]
    exact ⟨hn, by omega⟩
  · rintro ⟨hn, ha, hb⟩
    have ht := truncate_of_cmp hn
    rw [ht, cmp_of_cmp hn, cmp_of_cmp hn, Ne, Int.compare_eq_lt, Ne, Int.compare_eq_gt]
    exact ⟨⟨by omega, by omega, hn⟩, by omega⟩

/-! ## Arrays -/

/-- The array holds the text, and zeros behind it. -/
structure CharArray.Holds {cap : Nat} (a : CharArray cap) (s : List UInt8) : Prop where
  fits : s.length < cap
  chars : a.chars = s ++ List.replicate (cap - s.length) 0

theorem CharArray.holds_iff {cap : Nat} {a : CharArray cap} {s : List UInt8} :
    a.Holds s ↔ s.length < cap ∧ a = .ofStr cap s := by
  have chars_of : s.length < cap → (ofStr cap s).chars = s ++ List.replicate (cap - s.length) 0 := by
    intro h
    have hs : s.take (cap - 1) = s := List.take_of_length_le (by omega)
    have hs' : s.take cap = s := List.take_of_length_le (by omega)
    simp only [ofStr, hs, List.take_append, hs', List.take_replicate]
    rw [Nat.min_eq_left (by omega)]
  constructor
  · rintro ⟨hlen, hc⟩
    refine ⟨hlen, ?_⟩
    obtain ⟨chars, full⟩ := a
    rw [mk.injEq, chars_of hlen]
    exact hc
  · rintro ⟨hlen, rfl⟩
    exact ⟨hlen, chars_of hlen⟩

theorem CharArray.Holds.str {cap : Nat} {a : CharArray cap} {s : List UInt8} (h : a.Holds s) (h0 : (0 : UInt8) ∉ s) :
    a.str = s := by
  obtain ⟨hlen, rfl⟩ := holds_iff.1 h
  exact ofStr_str h0 hlen

end LedLamp
