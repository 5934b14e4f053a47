import LedLamp.JsonMembers
import LedLamp.JsonReader
import LedLamp.TbApplication.System
/-!
# Complete desired states

`StateOf` says which state an object is, and is what both of the module's readers of
complete states come down to: the attribute parser (`tbAppParseStateScope_iff`) and
the `setState` handler (`sync_setState_agree`). The attribute parser reads the first
JSON value of a payload and leaves the rest of it alone, so a payload is described by
the state it yields exactly when that rest is white space (`parse_whole_iff`).
-/

namespace LedLamp.TbApplication

open Conc JsonSyntax Lamp

/-! ## Numbers -/

/-- The member of this name is a number equal to `k`. -/
def Integer (attrs : Json) (key : String) (k : UInt8) : Prop :=
  ∃ n : Number, attrs.item (ascii key) = some (.number n) ∧ n.cmp k.toNat = .eq

/-- An integer within the bounds of `int` is its `valueint`. -/
theorem valueInt_of_cmp {n : Number} {k : Int} (h : n.cmp k = .eq) (hlo : -2147483648 < k) (hhi : k < 2147483647) :
    n.valueInt = k := by
  have h1 : n.cmp 2147483647 = .lt := by rw [Number.cmp_of_cmp h, Int.compare_eq_lt]; exact hhi
  have h2 : n.cmp (-2147483648) = .gt := by rw [Number.cmp_of_cmp h, Int.compare_eq_gt]; exact hlo
  rw [Number.valueInt, if_neg (by simp [h1]), if_neg (by simp [h2]), Number.truncate_of_cmp h]

theorem integerItem_iff {root : Json} {key : String} {max k : UInt8} :
    integerItem root (ascii key) max = some k ↔ Integer root key k ∧ k ≤ max := by
  unfold integerItem Integer
  rcases hi : root.item (ascii key) with _ | v
  · simp
  · cases v with
    | number n =>
      have hmax := max.toNat_lt
      simp only [Option.some.injEq, Json.number.injEq, exists_eq_left', Number.integral, UInt8.le_iff_toNat_le,
        Option.ite_none_left_eq_some, not_or, Bool.not_eq_true', decide_eq_false_iff_not, not_not]
      constructor
      · rintro ⟨⟨hlo, hhi⟩, hn, rfl⟩
        have hk : (UInt8.ofNat n.valueInt.toNat).toNat = n.valueInt.toNat := UInt8.toNat_ofNat_of_lt' (by
          simp only [UInt8.size]; omega)
        rw [hk, Int.toNat_of_nonneg (by omega)]
        exact ⟨hn, by omega⟩
      · rintro ⟨hn, hle⟩
        have hv := valueInt_of_cmp hn (by omega) (by omega)
        rw [hv]
        exact ⟨⟨by omega, by omega⟩, hn, by simp⟩
    | _ => simp

theorem boolItem_iff {root : Json} {key : List UInt8} {b : Bool} :
    boolItem root key = some b ↔ root.item key = some (.bool b) := by
  unfold boolItem
  rcases root.item key with _ | v
  · simp
  · cases v <;> simp

/-! ## States -/

/-- No colour is given. -/
def Colourless (attrs : Json) : Prop := ∀ key ∈ ["red", "green", "blue"], attrs.item (ascii key) = none

/-- The colours of a state: white where the build has none or none is given, else all three. -/
def Colours (build : Build) (attrs : Json) (red green blue : UInt8) : Prop :=
  (build.lampTypeRgb = true → Colourless attrs) ∧ (red, green, blue) = (255, 255, 255) ∨
    build.lampTypeRgb = true ∧ Integer attrs "red" red ∧ Integer attrs "green" green ∧ Integer attrs "blue" blue

/-- The object is this complete state: a boolean power, an integral brightness in range
and the colours. -/
structure StateOf (build : Build) (attrs : Json) (state : LampState) : Prop where
  power : attrs.item (ascii "power") = some (.bool state.power)
  brightness : Integer attrs "brightness" state.brightnessPercent
  range : state.brightnessPercent ≤ LAMP_BRIGHTNESS_MAX
  colours : Colours build attrs state.red state.green state.blue

theorem tbAppParseRgbChannel_iff {attrs : Json} {key : String} {k : UInt8} :
    tbAppParseRgbChannel attrs (ascii key) = some k ↔ Integer attrs key k := by
  rw [tbAppParseRgbChannel, integerItem_iff]
  refine and_iff_left ?_
  rw [UInt8.le_iff_toNat_le]
  have := k.toNat_lt
  simp only [UInt8.reduceToNat]
  omega

theorem Integer.present {attrs : Json} {key : String} {k : UInt8} (h : Integer attrs key k) :
    (attrs.item (ascii key)).isSome = true := by
  obtain ⟨n, hn, -⟩ := h
  simp [hn]

theorem colourless_iff {attrs : Json} : Colourless attrs ↔ (attrs.item (ascii "red")).isSome = false ∧
    (attrs.item (ascii "green")).isSome = false ∧ (attrs.item (ascii "blue")).isSome = false := by
  simp [Colourless]

theorem tbAppParseStateRgb_iff {attrs : Json} {red green blue : UInt8} :
    tbAppParseStateRgb attrs = some (red, green, blue) ↔
      Colourless attrs ∧ (red, green, blue) = (255, 255, 255) ∨
        Integer attrs "red" red ∧ Integer attrs "green" green ∧ Integer attrs "blue" blue := by
  rw [colourless_iff]
  have hred := fun (h : Integer attrs "red" red) => h.present
  have hgreen := fun (h : Integer attrs "green" green) => h.present
  have hblue := fun (h : Integer attrs "blue" blue) => h.present
  simp only [tbAppParseStateRgb]
  split
  · rename_i hno
    simp only [Bool.and_eq_true, Bool.not_eq_true'] at hno
    simp only [Option.some.injEq, hno, and_self, true_and, eq_comm]
    refine (or_iff_left fun h => ?_).symm
    rw [hred h.1] at hno
    cases hno.1.1
  · rename_i hsome
    simp only [Bool.and_eq_true, Bool.not_eq_true', and_assoc] at hsome
    rw [or_iff_right fun h => hsome h.1]
    split
    · rename_i hmiss
      simp only [Bool.or_eq_true, Bool.not_eq_true'] at hmiss
      refine iff_of_false (by simp) fun h => ?_
      rw [hred h.1, hgreen h.2.1, hblue h.2.2] at hmiss
      simp at hmiss
    · simp only [Option.bind_eq_bind, Option.bind_eq_some_iff, Option.pure_def, Option.some.injEq, Prod.mk.injEq,
        tbAppParseRgbChannel_iff]
      constructor
      · rintro ⟨r, hr, g, hg, b, hb, rfl, rfl, rfl⟩
        exact ⟨hr, hg, hb⟩
      · rintro ⟨hr, hg, hb⟩
        exact ⟨red, hr, green, hg, blue, hb, rfl, rfl, rfl⟩

/-- The parser yields the state the object is, and none where it is none. -/
theorem tbAppParseStateAttrs_iff {build : Build} {attrs : Json} {state : LampState} :
    tbAppParseStateAttrs build attrs = some state ↔ StateOf build attrs state := by
  have hcolours : ∀ {red green blue}, (if build.lampTypeRgb then tbAppParseStateRgb attrs else some (255, 255, 255)) =
      some (red, green, blue) ↔ Colours build attrs red green blue := by
    intro red green blue
    unfold Colours
    cases build.lampTypeRgb with
    | true => simpa using tbAppParseStateRgb_iff
    | false => simp [eq_comm]
  have heq : tbAppParseStateAttrs build attrs = (boolItem attrs (ascii "power")).bind fun power =>
      (integerItem attrs (ascii "brightness") LAMP_BRIGHTNESS_MAX).bind fun brightness =>
        (if build.lampTypeRgb then tbAppParseStateRgb attrs else some (255, 255, 255)).bind fun c =>
          some ⟨power, brightness, c.1, c.2.1, c.2.2⟩ := by
    unfold tbAppParseStateAttrs
    cases build.lampTypeRgb <;> rfl
  simp only [heq, Option.bind_eq_some_iff, boolItem_iff]
  constructor
  · rintro ⟨power, hp, brightness, hb, ⟨red, green, blue⟩, hc, h⟩
    obtain rfl := Option.some.inj h
    obtain ⟨hb, hle⟩ := integerItem_iff.1 hb
    exact ⟨hp, hb, hle, hcolours.1 hc⟩
  · intro h
    exact ⟨_, h.power, _, integerItem_iff.2 ⟨h.brightness, h.range⟩, (_, _, _), hcolours.2 h.colours, rfl⟩

/-! ## Payloads -/

/-- The object that a scope selects from the root: the one of that name, or without a
scope the one under `"shared"` if there is such an object, and otherwise the root. -/
def Selects (root : Json) (scope : Option (List UInt8)) (attrs : List (List UInt8 × Json)) : Prop :=
  match scope with
  | some scope => root.item scope = some (.object attrs)
  | none => root.item (ascii "shared") = some (.object attrs) ∨
      (∀ shared, root.item (ascii "shared") ≠ some (.object shared)) ∧ root = .object attrs

theorem sharedOrRoot_iff {members attrs : List (List UInt8 × Json)} :
    sharedOrRoot (.object members) = .object attrs ↔ Selects (.object members) none attrs := by
  unfold sharedOrRoot Selects
  rcases (Json.object members).item (ascii "shared") with _ | v
  · simp
  · cases v <;> simp

/-- The parse reads the first JSON value of the text and does not look at what follows it. -/
def ReadsFirst (L : Lexis) (cJsonParse : List UInt8 → Option Json) : Prop :=
  ∀ text v, cJsonParse text = some v ↔ ∃ rest, First L (cstr text) v rest

variable {L : Lexis} {cJsonParse : List UInt8 → Option Json} {build : Build}

/-- What the parser accepts, and the state it yields. -/
theorem tbAppParseStateScope_iff {json scope : Option (List UInt8)} {state : LampState} :
    tbAppParseStateScope cJsonParse build json scope = some state ↔ ∃ text members attrs, json = some text ∧
      strlen text ≤ TB_APPLICATION_MAX_PAYLOAD_BYTES ∧ cJsonParse text = some (.object members) ∧
      Selects (.object members) scope attrs ∧ StateOf build (.object attrs) state := by
  unfold tbAppParseStateScope
  cases json with
  | none => simp
  | some text =>
    simp only [Option.some.injEq, exists_eq_left', exists_and_left, Option.ite_none_left_eq_some, not_lt, gt_iff_lt]
    refine and_congr_right fun _ => ?_
    rcases cJsonParse text with _ | v
    · simp
    · cases v with
      | object members =>
        simp only [Option.some.injEq, Json.object.injEq, exists_eq_left']
        cases scope with
        | some scope =>
          simp only [Selects]
          rcases (Json.object members).item scope with _ | v
          · simp
          · cases v with
            | object attrs => simpa using tbAppParseStateAttrs_iff
            | _ => simp
        | none =>
          have hroot : ∃ attrs, sharedOrRoot (.object members) = .object attrs := by
            unfold sharedOrRoot
            split
            · exact ⟨_, rfl⟩
            · exact ⟨members, rfl⟩
          obtain ⟨attrs, ha⟩ := hroot
          simp only [← sharedOrRoot_iff, ha, Json.object.injEq, exists_eq_left']
          exact tbAppParseStateAttrs_iff
      | _ => simp

/-- The payload is bounded and, from its first to its last byte, one object whose selected
object is this state. -/
def Describes (L : Lexis) (build : Build) (text : List UInt8) (scope : Option (List UInt8)) (state : LampState) : Prop :=
  strlen text ≤ TB_APPLICATION_MAX_PAYLOAD_BYTES ∧ ∃ members attrs, Document L (cstr text) (.object members) ∧
    Selects (.object members) scope attrs ∧ StateOf build (.object attrs) state

/-- Behind an acceptable first value of the payload stands nothing but white space. -/
def BlankBehind (L : Lexis) (build : Build) (json scope : Option (List UInt8)) : Prop :=
  ∀ text members rest attrs state, json = some text → strlen text ≤ TB_APPLICATION_MAX_PAYLOAD_BYTES →
    First L (cstr text) (.object members) rest → Selects (.object members) scope attrs →
    StateOf build (.object attrs) state → Blank L rest

/-- In each scope, exactly the payloads without anything behind their first value are
described by the state they yield. -/
theorem parse_whole_iff (hparse : ReadsFirst L cJsonParse) (build : Build) (json scope : Option (List UInt8)) :
    (∀ state, tbAppParseStateScope cJsonParse build json scope = some state →
      ∃ text, json = some text ∧ Describes L build text scope state) ↔ BlankBehind L build json scope := by
  constructor
  · intro h text members rest attrs state hjson hlen hfirst hsel hstate
    have hp := (hparse text (.object members)).2 ⟨rest, hfirst⟩
    obtain ⟨text', e, -, members', attrs', ⟨rest', hfirst', hblank⟩, -⟩ :=
      h state (tbAppParseStateScope_iff.2 ⟨text, members, attrs, hjson, hlen, hp, hsel, hstate⟩)
    obtain rfl : text = text' := Option.some.inj (hjson.symm.trans e)
    obtain ⟨-, rfl⟩ := hfirst.unique hfirst'
    exact hblank
  · intro h state hs
    obtain ⟨text, members, attrs, hjson, hlen, hp, hsel, hstate⟩ := tbAppParseStateScope_iff.1 hs
    obtain ⟨rest, hfirst⟩ := (hparse text _).1 hp
    exact ⟨text, hjson, hlen, members, attrs, ⟨rest, hfirst, h _ _ _ _ _ hjson hlen hfirst hsel hstate⟩, hsel, hstate⟩

/-- A parse that reads the first value and no more. -/
def parseFirst (text : List UInt8) : Option Json := (first cJsonIntegers (cstr text)).map (·.1)

theorem reads_parseFirst : ReadsFirst cJsonIntegers parseFirst := by
  intro text v
  simp only [parseFirst, Option.map_eq_some_iff, Prod.exists, exists_eq_right, exists_and_right]
  exact exists_congr fun rest => first_iff

def onText : List UInt8 := ascii "\x7b\"power\":true, \"brightness\":50\x7d\n"

theorem parse_whole_on : tbAppParseStateScope parseFirst pwmBuild (some onText) none = some ⟨true, 50, 255, 255, 255⟩ ∧
    BlankBehind cJsonIntegers pwmBuild (some onText) none := by
  refine ⟨by decide +kernel, (parse_whole_iff reads_parseFirst pwmBuild (some onText) none).1 fun state hs => ?_⟩
  have hdoc : document cJsonIntegers (cstr onText) =
      some (.object [(ascii "power", .bool true), (ascii "brightness", .number (.finite 50 0))]) := by decide +kernel
  obtain ⟨text, members, attrs, e, hlen, hp, hsel, hstate⟩ := tbAppParseStateScope_iff.1 hs
  obtain rfl := Option.some.inj e
  refine ⟨onText, rfl, hlen, members, attrs, ?_, hsel, hstate⟩
  obtain ⟨rest, hfirst, hblank⟩ := document_iff.1 hdoc
  obtain ⟨rest', hfirst'⟩ := (reads_parseFirst onText _).1 hp
  obtain ⟨e, rfl⟩ := hfirst'.unique hfirst
  exact e ▸ ⟨rest', hfirst, hblank⟩

/-- A complete state with more text behind it. -/
def trailingText : List UInt8 := ascii "\x7b\"power\":true, \"brightness\":50\x7d, \"power\":false\x7d"

theorem trailing_accepted : ¬ ∀ (L : Lexis) (cJsonParse : List UInt8 → Option Json), ReadsFirst L cJsonParse →
    ∀ build json scope state, tbAppParseStateScope cJsonParse build json scope = some state →
      ∃ text, json = some text ∧ Describes L build text scope state := by
  intro h
  have hs : tbAppParseStateScope parseFirst pwmBuild (some trailingText) none = some ⟨true, 50, 255, 255, 255⟩ := by
    decide +kernel
  obtain ⟨text, e, -, members, attrs, hdoc, -⟩ := h _ _ reads_parseFirst pwmBuild (some trailingText) none _ hs
  obtain rfl := Option.some.inj e
  have hno : document cJsonIntegers (cstr trailingText) = none := by decide +kernel
  rw [document_iff.2 hdoc] at hno
  cases hno

/-! ## The `setState` handler -/

/-- The handler lets its params through: it reads what the lamp shows, and applies what it
makes of that. -/
def SetsState (build : Build) (requestId : UInt32) (params : Json) (desired : LampState → LampState) : Prop :=
  tbAppRpcHandleSetState build requestId params = do
    let current ← tbAppRpcCurrentState
    tbAppRpcApplyAndRespond build requestId (desired (current.getD ⟨false, 0, 255, 255, 255⟩))

/-- The handler refuses its params, before or after it read what the lamp shows. -/
def RefusesState (build : Build) (requestId : UInt32) (params : Json) : Prop :=
  ∃ reason, tbAppRpcHandleSetState build requestId params = tbAppRpcRespondError requestId "invalid payload" (some reason) ∨
    tbAppRpcHandleSetState build requestId params = do
      let _ ← tbAppRpcCurrentState
      tbAppRpcRespondError requestId "invalid payload" (some reason)

section SetState

variable {params : Json} {requestId : UInt32} {state : LampState}

/-- Whether the colours are part of a request. -/
def coloured (build : Build) (params : Json) : Bool :=
  build.lampTypeRgb && (tbAppRpcHasField params (ascii "red") || tbAppRpcHasField params (ascii "green") ||
    tbAppRpcHasField params (ascii "blue"))

theorem coloured_iff : coloured build params = true ↔ build.lampTypeRgb = true ∧ ¬ Colourless params := by
  rw [coloured, Bool.and_eq_true, colourless_iff]
  simp only [tbAppRpcHasField, Bool.or_eq_true, ← Bool.not_eq_true]
  tauto

/-- A colour request is refused unless it gives all three channels. -/
theorem setStateRgb_coloured (hc : coloured build params = true) {desired next : LampState} :
    setStateRgb build params desired = some next ↔ ∃ red green blue, (Integer params "red" red ∧
      Integer params "green" green ∧ Integer params "blue" blue) ∧ next = { desired with red, green, blue } := by
  unfold coloured at hc
  simp only [setStateRgb, hc, if_true]
  split
  · rename_i hmiss
    refine iff_of_false (by simp) ?_
    rintro ⟨red, green, blue, ⟨hr, hg, hb⟩, -⟩
    simp [tbAppRpcHasField, hr.present, hg.present, hb.present] at hmiss
  · simp only [tbAppRpcParseRgb, Option.bind_eq_bind, Option.bind_eq_some_iff, Option.pure_def, Option.some.injEq,
      tbAppParseRgbChannel_iff]
    constructor
    · rintro ⟨red, hr, green, hg, blue, hb, rfl⟩
      exact ⟨red, green, blue, ⟨hr, hg, hb⟩, rfl⟩
    · rintro ⟨red, green, blue, ⟨hr, hg, hb⟩, rfl⟩
      exact ⟨red, hr, green, hg, blue, hb, rfl⟩

theorem setStateRgb_plain (hc : coloured build params = false) (desired : LampState) :
    setStateRgb build params desired = some desired := by
  unfold coloured at hc
  simp [setStateRgb, hc]

/-- The state that a request for `state` makes of the current one. -/
def merged (build : Build) (params : Json) (state current : LampState) : LampState :=
  if coloured build params then state
  else { current with power := state.power, brightnessPercent := state.brightnessPercent }

theorem setStateRgb_merged (hs : StateOf build params state) (current : LampState) :
    setStateRgb build params { current with power := state.power, brightnessPercent := state.brightnessPercent } =
      some (merged build params state current) := by
  unfold merged
  by_cases hc : coloured build params = true
  · rw [if_pos hc, setStateRgb_coloured hc]
    obtain ⟨hrgb, hgiven⟩ := coloured_iff.1 hc
    rcases hs.colours with ⟨hno, -⟩ | ⟨-, hall⟩
    · exact absurd (hno hrgb) hgiven
    · exact ⟨state.red, state.green, state.blue, hall, rfl⟩
  · rw [if_neg hc, setStateRgb_plain (Bool.eq_false_iff.2 hc)]

/-- The params of a complete state are let through. -/
theorem setsState_of (hs : StateOf build params state) (requestId : UInt32) :
    SetsState build requestId params (merged build params state) := by
  have hp : tbAppRpcHasField params (ascii "power") = true := by simp [tbAppRpcHasField, hs.power]
  have hb : tbAppRpcHasField params (ascii "brightness") = true := hs.brightness.present
  have hpower : tbAppRpcParsePower params = some state.power := boolItem_iff.2 hs.power
  have hbright : tbAppRpcParseBrightness params = some state.brightnessPercent :=
    integerItem_iff.2 ⟨hs.brightness, hs.range⟩
  have htype : tbAppRpcBrightnessTypeOk params = true := by
    obtain ⟨n, hn, -⟩ := hs.brightness
    simp [tbAppRpcBrightnessTypeOk, hn]
  unfold SetsState tbAppRpcHandleSetState
  simp only [hp, hb, hpower, htype, hbright, Bool.not_true, Bool.false_eq_true, if_false, setStateRgb_merged hs]

/-- Params that are not the state of anything are refused. -/
theorem refusesState_of (hno : ∀ state, ¬ StateOf build params state) (requestId : UInt32) :
    RefusesState build requestId params := by
  unfold RefusesState tbAppRpcHandleSetState
  split
  · exact ⟨_, .inl rfl⟩
  split
  · exact ⟨_, .inl rfl⟩
  split
  · rename_i power hpower htype
    split
    · exact ⟨_, .inl rfl⟩
    · rename_i brightness hbright
      -- Only the colours can be what is wrong: without them the params are a state.
      obtain ⟨hbrightness, hrange⟩ := integerItem_iff.1 hbright
      have state_of : ∀ {red green blue}, Colours build params red green blue →
          StateOf build params ⟨power, brightness, red, green, blue⟩ := fun hc =>
        ⟨boolItem_iff.1 hpower, hbrightness, hrange, hc⟩
      have hc : coloured build params = true := by
        by_contra hc
        refine hno _ (state_of (.inl ⟨fun hrgb => ?_, rfl⟩))
        by_contra hgiven
        exact hc (coloured_iff.2 ⟨hrgb, hgiven⟩)
      have hnone : ∀ desired, setStateRgb build params desired = none := by
        intro desired
        rw [Option.eq_none_iff_forall_ne_some]
        intro next hn
        obtain ⟨red, green, blue, hall, -⟩ := (setStateRgb_coloured hc).1 hn
        exact hno _ (state_of (.inr ⟨(coloured_iff.1 hc).1, hall⟩))
      refine ⟨"invalid RGB channel", .inr ?_⟩
      simp only [hnone]
  · exact ⟨_, .inl rfl⟩

/-- The operations of a handler that lets its params through: it drives the lamp or
records the state. -/
def Op.commits : Op → Bool
  | .store (.hasApplied _) => true
  | .lamp _ (.applyState _ _) => true
  | _ => false

theorem applyAndRespond_commits (requestId : UInt32) (desired : LampState) :
    ¬ (tbAppRpcApplyAndRespond build requestId desired).Uses fun o => o.commits = false := by
  rintro ⟨-, h⟩
  have hdrive := h { TbAppModule.boot with outputSuspended := false }
  exact absurd hdrive.1 (by simp [Op.commits])

/-- No params are both let through and refused. -/
theorem setsState_not_refuses {desired : LampState → LampState} (hs : SetsState build requestId params desired) :
    ¬ RefusesState build requestId params := by
  have herror : ∀ reason, (tbAppRpcRespondError requestId "invalid payload" (some reason)).Uses fun o => o.commits = false :=
    fun reason => ⟨rfl, fun _ => ⟨rfl, fun _ => trivial⟩⟩
  have hcurrent : tbAppRpcCurrentState.Uses fun o => o.commits = false := by
    refine ⟨rfl, fun r => ?_⟩
    obtain ⟨status, applied⟩ := r
    cases status <;> trivial
  rintro ⟨reason, h⟩
  have huses : (tbAppRpcHandleSetState build requestId params).Uses fun o => o.commits = false := by
    rcases h with h | h
    · rw [h]
      exact herror reason
    · rw [h]
      exact hcurrent.bind fun _ => herror reason
  rw [hs] at huses
  exact applyAndRespond_commits _ _ (huses.2 (.ok, none))

/-- For an object without a `"shared"` member, the attribute parser and the `setState`
handler accept the same: the same power and brightness, and the same colours where the
build has them and they are given. -/
theorem sync_setState_agree {text : List UInt8} {members : List (List UInt8 × Json)}
    (hparse : cJsonParse text = some (.object members)) (hlen : strlen text ≤ TB_APPLICATION_MAX_PAYLOAD_BYTES)
    (hshared : (Json.object members).item (ascii "shared") = none) (build : Build) (requestId : UInt32) :
    ((∃ state, tbAppParseStateScope cJsonParse build (some text) none = some state) ↔
      ∃ desired, SetsState build requestId (.object members) desired) ∧
    ((∀ state, tbAppParseStateScope cJsonParse build (some text) none ≠ some state) →
      RefusesState build requestId (.object members)) ∧
    ∀ state, tbAppParseStateScope cJsonParse build (some text) none = some state →
      ∃ desired, SetsState build requestId (.object members) desired ∧ ∀ current,
        (desired current).power = state.power ∧ (desired current).brightnessPercent = state.brightnessPercent ∧
        (build.lampTypeRgb = true → ¬ Colourless (.object members) →
          (desired current).red = state.red ∧ (desired current).green = state.green ∧ (desired current).blue = state.blue) := by
  -- Without `shared` the attributes are the object itself, which is what the handler reads.
  have hscope : ∀ state, tbAppParseStateScope cJsonParse build (some text) none = some state ↔
      StateOf build (.object members) state := by
    intro state
    rw [tbAppParseStateScope_iff]
    constructor
    · rintro ⟨text', members', attrs, e, -, hp, hsel, hs⟩
      obtain rfl := Option.some.inj e
      obtain rfl : members = members' := by simpa [hparse] using hp
      rcases hsel with h | ⟨-, h⟩
      · rw [hshared] at h
        cases h
      · exact h ▸ hs
    · exact fun hs => ⟨text, members, members, rfl, hlen, hparse, .inr ⟨by simp [hshared], rfl⟩, hs⟩
  simp only [hscope, ne_eq]
  refine ⟨⟨?_, ?_⟩, fun hno => refusesState_of hno requestId, ?_⟩
  · rintro ⟨state, hs⟩
    exact ⟨_, setsState_of hs requestId⟩
  · rintro ⟨desired, hd⟩
    by_contra hno
    exact setsState_not_refuses hd (refusesState_of (fun state hs => hno ⟨state, hs⟩) requestId)
  · intro state hs
    refine ⟨_, setsState_of hs requestId, fun current => ?_⟩
    unfold merged
    by_cases hc : coloured build (.object members) = true
    · rw [if_pos hc]
      exact ⟨rfl, rfl, fun _ _ => ⟨rfl, rfl, rfl⟩⟩
    · rw [if_neg hc]
      exact ⟨rfl, rfl, fun hrgb hgiven => absurd (coloured_iff.2 ⟨hrgb, hgiven⟩) hc⟩

end SetState

/-- The RGB build. -/
def rgbBuild : Build := { pwmBuild with lampTypeRgb := true }

def colourObject : List (List UInt8 × Json) :=
  [(ascii "power", .bool true), (ascii "brightness", number 30), (ascii "red", number 1), (ascii "green", number 2),
    (ascii "blue", number 3)]

def colourText : List UInt8 :=
  ascii "\x7b\"power\":true,\"brightness\":30,\"red\":1,\"green\":2,\"blue\":3\x7d"

theorem sync_setState_agree_colours : ∃ desired, SetsState rgbBuild 1 (.object colourObject) desired ∧
    ∀ current, (desired current).green = 2 := by
  have hparse : parseFirst colourText = some (.object colourObject) := by decide +kernel
  have hs : tbAppParseStateScope parseFirst rgbBuild (some colourText) none = some ⟨true, 30, 1, 2, 3⟩ := by
    decide +kernel
  obtain ⟨desired, hd, hsame⟩ := (sync_setState_agree hparse (by decide) (by decide +kernel) rgbBuild 1).2.2 _ hs
  refine ⟨desired, hd, fun current => ((hsame current).2.2 rfl fun hno => ?_).2.1⟩
  exact absurd (hno "red" (by simp)) (by decide +kernel)

end LedLamp.TbApplication
