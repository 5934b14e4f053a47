import LedLamp.Conc.Exec
import LedLamp.Lamp.Duty
import LedLamp.TbApplication.Attributes
/-!
# The telemetry record

`tb_app_publish_telemetry`, as a program over the calls it makes under the module lock.
The text it prints is bounded by the widths of its fields, whatever they hold, and reads
back as the members it was printed from: the hardware string was cut to a charset without
quotes and backslashes when it was copied, so it is one member's value
(`telemetry_faithful`).
-/

namespace LedLamp.TbApplication

open Conc JsonSyntax Lamp
open JsonText (backslash comma digits isPrintable printInt printString quote)

def TB_APPLICATION_TELEMETRY_MAX_BYTES : Nat := 512
def TB_APPLICATION_CONNECTION_STATE_ONLINE : List UInt8 := ascii "online"

inductive TelemetryOp
  | load
  | tbClientIsConnected (client : TbClient)
  | lampControlGetAppliedState (appliedOut : Option LampAppliedState)
  | rssiFn
  | osalTaskGetTimeMs
  | tbTelemetrySendJson (client : Option TbClient) (json : List UInt8)
  deriving DecidableEq

/-- What each call returns: the provider `none` when it fails, the send whether it
succeeded. -/
@[reducible] def TelemetryRes : TelemetryOp → Type
  | .load => TbAppModule
  | .tbClientIsConnected _ => Bool
  | .lampControlGetAppliedState _ => LampStatus × Option LampAppliedState
  | .rssiFn => Option Int32
  | .osalTaskGetTimeMs => UInt32
  | .tbTelemetrySendJson _ _ => Bool

abbrev TelemetryAct := Prog TelemetryOp TelemetryRes

abbrev telemetryAct (o : TelemetryOp) : TelemetryAct (TelemetryRes o) := .perform o

/-- `rssi_suffix`, a buffer of 24 bytes. -/
def rssiSuffix : Option Int32 → List UInt8
  | none => []
  | some rssi => (ascii ",\"rssi\":" ++ printInt rssi.toInt).take (24 - 1)

/-- The text `snprintf` prints, before it is cut to the buffer. -/
def telemetryText (build : Build) (applied : LampAppliedState) (duty : LampDuty) (hardware : List UInt8) (uptimeMs : UInt32)
    (suffix : List UInt8) : List UInt8 :=
  ascii "\x7b\"power\":" ++ boolText applied.power ++ ascii ",\"brightness\":" ++ numberText applied.brightnessPercent ++
    (if build.lampTypeRgb then
      ascii ",\"red\":" ++ numberText applied.red ++ ascii ",\"green\":" ++ numberText applied.green ++
        ascii ",\"blue\":" ++ numberText applied.blue
    else []) ++
    ascii ",\"pwm_duty\":" ++ digits duty.toNat ++
    ascii ",\"connection_state\":\"" ++ TB_APPLICATION_CONNECTION_STATE_ONLINE ++
    ascii "\",\"hardware\":\"" ++ cstr hardware ++ ascii "\",\"uptime_ms\":" ++ digits uptimeMs.toNat ++ suffix ++ ascii "\x7d"

/-- The state that is reported: what was applied, or zeros. -/
def reported (read : LampStatus × Option LampAppliedState) : LampAppliedState :=
  if read.1 ≠ .ok then .zero else read.2.getD .zero

def reportedDuty (applied : LampAppliedState) : LampDuty :=
  if applied.outputActive then (lampDutyFromBrightness applied.brightnessPercent (some LAMP_DUTY_MIN)).2.getD LAMP_DUTY_MIN
  else LAMP_DUTY_MIN

/-- The end of a publish: a text that does not fit the buffer is not sent. -/
def sendFitting (json : List UInt8) : TelemetryAct Unit := do
  if json.length ≥ TB_APPLICATION_TELEMETRY_MAX_BYTES then return ()
  else
    let _ ← telemetryAct (.tbTelemetrySendJson (← telemetryAct .load).client json)
    return ()

def tbAppPublishTelemetry (build : Build) : TelemetryAct Unit := do
  if !(← telemetryAct .load).initialized then return ()
  else if !(← telemetryAct .load).connected then return ()
  else match (← telemetryAct .load).client with
    | none => return ()
    | some client =>
      if !(← telemetryAct (.tbClientIsConnected client)) then return ()
      else
        let applied := reported (← telemetryAct (.lampControlGetAppliedState (some .zero)))
        let duty := reportedDuty applied
        let rssi ← if (← telemetryAct .load).rssiFn then telemetryAct .rssiFn else pure none
        let hardware := (← telemetryAct .load).hardware
        let uptimeMs ← telemetryAct .osalTaskGetTimeMs
        sendFitting (telemetryText build applied duty hardware uptimeMs (rssiSuffix rssi))

/-! ## One publish -/

/-- What a publish finds under the lock. -/
structure Publish where
  tb : TbAppModule
  clientConnected : Bool
  lamp : Machine
  rssi : Option Int32
  uptimeMs : UInt32

namespace Publish

def answer (m : Publish) : (o : TelemetryOp) → TelemetryRes o
  | .load => m.tb
  | .tbClientIsConnected _ => m.clientConnected
  | .lampControlGetAppliedState appliedOut => lampControlGetAppliedState appliedOut m.lamp
  | .rssiFn => m.rssi
  | .osalTaskGetTimeMs => m.uptimeMs
  | .tbTelemetrySendJson _ _ => true

/-- The transport is up. -/
def online (m : Publish) : Bool := m.tb.initialized && m.tb.connected && m.tb.client.isSome && m.clientConnected

/-- The state on record, or zeros before there is one. -/
def applied (m : Publish) : LampAppliedState := if m.lamp.lamp.initialized then m.lamp.lamp.applied else .zero

/-- The signal strength, when a provider is set and gives one. -/
def signal (m : Publish) : Option Int32 := if m.tb.rssiFn then m.rssi else none

def text (m : Publish) (build : Build) : List UInt8 :=
  telemetryText build m.applied (reportedDuty m.applied) m.tb.hardware m.uptimeMs (rssiSuffix m.signal)

end Publish

/-- The texts that are sent. -/
def sent (done : List (Conc.Done TelemetryOp TelemetryRes)) : List (Option TbClient × List UInt8) :=
  done.filterMap fun d =>
    match d.op with
    | .tbTelemetrySendJson client json => some (client, json)
    | _ => none

theorem sendFitting_sent (m : Publish) (json : List UInt8) :
    sent ((sendFitting json).under m.answer).1 =
      if json.length < TB_APPLICATION_TELEMETRY_MAX_BYTES then [(m.tb.client, json)] else [] := by
  by_cases hfits : json.length < TB_APPLICATION_TELEMETRY_MAX_BYTES
  · rw [if_pos hfits, sendFitting, if_neg (Nat.not_le.2 hfits)]
    simp [Prog.under, Publish.answer, sent]
  · rw [if_neg hfits, sendFitting, if_pos (Nat.not_lt.1 hfits)]
    rfl

/-- A publish sends its text when the transport is up and the text fits, and else nothing. -/
theorem tbAppPublishTelemetry_sent (build : Build) (m : Publish) :
    sent ((tbAppPublishTelemetry build).under m.answer).1 =
      if m.online ∧ (m.text build).length < TB_APPLICATION_TELEMETRY_MAX_BYTES then [(m.tb.client, m.text build)] else [] := by
  cases hi : m.tb.initialized with
  | false => simp [tbAppPublishTelemetry, Prog.under, Publish.answer, Publish.online, sent, hi]
  | true =>
  cases hc : m.tb.connected with
  | false => simp [tbAppPublishTelemetry, Prog.under, Publish.answer, Publish.online, sent, hi, hc]
  | true =>
  cases hclient : m.tb.client with
  | none => simp [tbAppPublishTelemetry, Prog.under, Publish.answer, Publish.online, sent, hi, hc, hclient]
  | some client =>
  cases hup : m.clientConnected with
  | false => simp [tbAppPublishTelemetry, Prog.under, Publish.answer, Publish.online, sent, hi, hc, hclient, hup]
  | true =>
  have honline : m.online = true := by simp [Publish.online, hi, hc, hclient, hup]
  have happlied : reported (lampControlGetAppliedState (some .zero) m.lamp) = m.applied := by
    cases hl : m.lamp.lamp.initialized <;> simp [reported, lampControlGetAppliedState, Publish.applied, hl]
  have hsent := sendFitting_sent m (m.text build)
  rw [hclient] at hsent
  simp only [honline, true_and]
  rw [← hsent]
  cases hr : m.tb.rssiFn <;>
    simp [tbAppPublishTelemetry, Prog.under, Publish.answer, sent, hi, hc, hclient, hup, happlied, hr, Publish.text,
      Publish.signal]

/-! ## The hardware string -/

/-- The longest front of the input within the bound and of safe characters only. -/
structure LongestSafe (input hardware : List UInt8) : Prop where
  front : hardware <+: input
  bounded : hardware.length ≤ TB_APPLICATION_HARDWARE_MAX_LEN
  safe : hardware.all tbAppTelemetrySafeChar = true
  longest : ∀ p, p <+: input → p.length ≤ TB_APPLICATION_HARDWARE_MAX_LEN → p.all tbAppTelemetrySafeChar = true →
    p <+: hardware

theorem safe_printable {c : UInt8} (h : tbAppTelemetrySafeChar c = true) :
    isPrintable c = true ∧ c ≠ quote ∧ c ≠ backslash ∧ c ≠ 0 := by
  simp only [tbAppTelemetrySafeChar, isPrintable, quote, backslash, Bool.or_eq_true, Bool.and_eq_true, decide_eq_true_eq, ne_eq,
    UInt8.le_iff_toNat_le, ← UInt8.toNat_inj, UInt8.reduceToNat] at h ⊢
  omega

theorem prefix_takeWhile {f : UInt8 → Bool} {p s : List UInt8} (hp : p <+: s) (hf : p.all f = true) :
    p <+: s.takeWhile f := by
  obtain ⟨rest, rfl⟩ := hp
  rw [List.takeWhile_append_of_pos (List.all_eq_true.1 hf)]
  exact List.prefix_append _ _

theorem tbAppCopyTelemetryString_longest (src : Option (List UInt8)) :
    LongestSafe (src.getD []) (tbAppCopyTelemetryString src (TB_APPLICATION_HARDWARE_MAX_LEN + 1)) := by
  have hsrc : (src.map cstr).getD [] = cstr (src.getD []) := by cases src <;> rfl
  rw [tbAppCopyTelemetryString, hsrc, Nat.add_sub_cancel]
  generalize src.getD [] = input
  have hfront : ((cstr input).take TB_APPLICATION_HARDWARE_MAX_LEN).takeWhile tbAppTelemetrySafeChar <+:
      (cstr input).take TB_APPLICATION_HARDWARE_MAX_LEN := List.takeWhile_prefix _
  refine ⟨?_, ?_, List.all_takeWhile, fun p hp hlen hsafe => ?_⟩
  · exact hfront.trans ((List.take_prefix _ _).trans (List.takeWhile_prefix _))
  · exact hfront.length_le.trans (List.length_take_le _ _)
  · -- A safe front has no NUL byte, so the end of the C string does not cut it.
    have hstring : p <+: cstr input := prefix_takeWhile hp (List.all_eq_true.2 fun c hc => by
      simpa using (safe_printable (List.all_eq_true.1 hsafe c hc)).2.2.2)
    exact prefix_takeWhile (List.prefix_take_iff.2 ⟨hstring, hlen⟩) hsafe

/-! ## The text -/

/-- A reader of JSON as far as the record goes: it reads integers of 32 bits. -/
structure RecordReader (L : Lexis) : Prop where
  standard : L.Standard
  integer : ∀ n : Int, n.natAbs < 2 ^ 32 → L.ReadsInteger n

/-- The duty of an applied state: its brightness in duty units, while the output is active. -/
def appliedDuty (applied : LampAppliedState) : Nat :=
  if applied.outputActive then applied.brightnessPercent.toNat * LAMP_DUTY_SCALE.toNat else 0

/-- The members of the record. -/
def record (build : Build) (applied : LampAppliedState) (hardware : List UInt8) (uptimeMs : UInt32) (rssi : Option Int32) :
    List (List UInt8 × Json) :=
  [(ascii "power", .bool applied.power), (ascii "brightness", number applied.brightnessPercent)] ++
    rgbItems build applied.red applied.green applied.blue ++
    [(ascii "pwm_duty", .number (.finite (appliedDuty applied) 0)),
      (ascii "connection_state", .string (ascii "online")), (ascii "hardware", .string hardware),
      (ascii "uptime_ms", .number (.finite uptimeMs.toNat 0))] ++
    rssi.toList.map fun dbm => (ascii "rssi", .number (.finite dbm.toInt 0))

/-- The suffix fits its buffer. -/
theorem rssiSuffix_eq (rssi : Int32) : rssiSuffix (some rssi) = ascii ",\"rssi\":" ++ printInt rssi.toInt := by
  have hlen := JsonText.length_printInt_le rssi
  refine List.take_of_length_le ?_
  rw [List.length_append, show (ascii ",\"rssi\":").length = 8 by decide]
  omega

theorem rssiSuffix_none : rssiSuffix none = [] := rfl

theorem rssiSuffix_length (rssi : Option Int32) : (rssiSuffix rssi).length ≤ 19 := by
  cases rssi with
  | none => simp [rssiSuffix]
  | some rssi =>
    have hlen := JsonText.length_printInt_le rssi
    rw [rssiSuffix_eq, List.length_append, show (ascii ",\"rssi\":").length = 8 by decide]
    omega

theorem length_digits_uint32 (n : UInt32) : (digits n.toNat).length ≤ 10 := by
  have hn := n.toNat_lt
  exact JsonText.length_digits_le (by omega) (by omega)

/-- Whatever the fields hold, the text is far from filling its buffer. -/
theorem telemetryText_length (build : Build) (applied : LampAppliedState) (duty : LampDuty) {hardware : List UInt8}
    (hw : hardware.length ≤ TB_APPLICATION_HARDWARE_MAX_LEN) (uptimeMs : UInt32) (rssi : Option Int32) :
    (telemetryText build applied duty hardware uptimeMs (rssiSuffix rssi)).length < TB_APPLICATION_TELEMETRY_MAX_BYTES := by
  have hpower := length_boolText applied.power
  have hbrightness := length_numberText applied.brightnessPercent
  have hred := length_numberText applied.red
  have hgreen := length_numberText applied.green
  have hblue := length_numberText applied.blue
  have hduty := length_digits_uint32 duty
  have huptime := length_digits_uint32 uptimeMs
  have hsuffix := rssiSuffix_length rssi
  have hhardware : (cstr hardware).length ≤ 32 := (List.takeWhile_prefix _).length_le.trans hw
  cases hb : build.lampTypeRgb <;>
  · simp [telemetryText, hb, ascii, TB_APPLICATION_TELEMETRY_MAX_BYTES, TB_APPLICATION_CONNECTION_STATE_ONLINE]
    omega

section Denotes

variable {L : Lexis} (hL : RecordReader L)

def integerMember (key : String) (hk : Name (ascii key)) {n : Int} (hn : n.natAbs < 2 ^ 32) : Written L where
  key := ascii key
  text := printInt n
  value := .number (.finite n 0)
  name := hk
  denotes := denotes_integer (hL.integer n hn)

/-- A string that is written as it is. -/
def stringMember (key : String) (hk : Name (ascii key)) {s : List UInt8} (hs : Name s) : Written L where
  key := ascii key
  text := printString s
  value := .string s
  name := hk
  denotes := denotes_string fun c hc => hL.standard.raw (hs c hc).1

include hL in
/-- The text reads as the object of the record's members. -/
theorem telemetryText_denotes (build : Build) (applied : LampAppliedState) {duty : LampDuty}
    (hd : duty.toNat = appliedDuty applied) {hardware : List UInt8} (hw : hardware.all tbAppTelemetrySafeChar = true)
    (uptimeMs : UInt32) (rssi : Option Int32) :
    Denotes L (telemetryText build applied duty hardware uptimeMs (rssiSuffix rssi))
      (.object (record build applied hardware uptimeMs rssi)) := by
  have reader : Reader L := ⟨hL.standard, fun n hn => hL.integer n (by omega)⟩
  have hname : Name hardware := fun c hc =>
    have hc := safe_printable (List.all_eq_true.1 hw c hc)
    ⟨hc.1, hc.2.1, hc.2.2.1⟩
  have honline : Name TB_APPLICATION_CONNECTION_STATE_ONLINE := name_of_all rfl
  have hplain : cstr hardware = hardware := cstr_of_not_mem fun h0 =>
    (safe_printable (List.all_eq_true.1 hw 0 h0)).2.2.2 rfl
  have hduty : (duty.toNat : Int).natAbs < 2 ^ 32 := duty.toNat_lt
  have huptime : (uptimeMs.toNat : Int).natAbs < 2 ^ 32 := uptimeMs.toNat_lt
  have hrssi : ∀ rssi : Int32, rssi.toInt.natAbs < 2 ^ 32 := fun rssi => by
    have h1 := rssi.toInt_lt
    have h2 := rssi.le_toInt
    omega
  let power : Written L := booleanMember "power" (name_of_all rfl) applied.power
  let brightness := byteMember reader "brightness" (name_of_all rfl) applied.brightnessPercent
  let red := byteMember reader "red" (name_of_all rfl) applied.red
  let green := byteMember reader "green" (name_of_all rfl) applied.green
  let blue := byteMember reader "blue" (name_of_all rfl) applied.blue
  let pwmDuty := integerMember hL "pwm_duty" (name_of_all rfl) hduty
  let state := stringMember hL "connection_state" (name_of_all rfl) honline
  let hardwareMember := stringMember hL "hardware" (name_of_all rfl) hname
  let uptime := integerMember hL "uptime_ms" (name_of_all rfl) huptime
  let signal := fun rssi : Int32 => integerMember hL "rssi" (name_of_all rfl) (hrssi rssi)
  let members := brightness :: ((if build.lampTypeRgb then [red, green, blue] else []) ++
    [pwmDuty, state, hardwareMember, uptime] ++ rssi.toList.map signal)
  have hunsigned : ∀ n : Nat, printInt n = digits n := fun n => rfl
  have htext : telemetryText build applied duty hardware uptimeMs (rssiSuffix rssi) = objectText power members := by
    cases hb : build.lampTypeRgb <;> cases rssi <;>
      simp [telemetryText, hb, hplain, hunsigned, rssiSuffix_eq, rssiSuffix_none, objectText, membersText_eq,
        memberText, members, power, brightness, red, green, blue, pwmDuty, state, hardwareMember, uptime, signal,
        booleanMember, byteMember, integerMember, stringMember, printString_name hname, printString_name honline, ascii, JsonText.braceOpen, JsonText.braceClose,
        JsonText.colon, comma, quote]
  have hmembers : record build applied hardware uptimeMs rssi = (power :: members).map Written.member := by
    cases hb : build.lampTypeRgb <;> cases rssi <;>
      simp [record, TB_APPLICATION_CONNECTION_STATE_ONLINE, rgbItems, hb, hd.symm, Written.member, members, power,
        brightness, red, green, blue, pwmDuty, state, hardwareMember, uptime, signal, booleanMember, byteMember,
        integerMember, stringMember]
  rw [htext, hmembers]
  exact denotes_object hL.standard power members

end Denotes

/-- The reported duty of a state on record is exact. -/
theorem reportedDuty_applied {m : Publish} (hr : Reachable m.lamp) : (reportedDuty m.applied).toNat = appliedDuty m.applied := by
  unfold reportedDuty appliedDuty
  cases hactive : m.applied.outputActive with
  | false => rfl
  | true =>
    have hrecorded : m.applied = m.lamp.lamp.applied := by
      unfold Publish.applied at hactive ⊢
      split at hactive
      · rename_i hi
        rw [if_pos hi]
      · exact absurd hactive (by decide)
    obtain ⟨duty, he, hduty⟩ := lampDutyFromBrightness_valid (reachable_brightness hr) LAMP_DUTY_MIN
    rw [hrecorded, if_pos rfl, he, Option.getD_some, hduty]
    rfl

/-- Every hardware string, every lamp state a run leaves on record, every uptime and
signal strength, in both builds: the text is sent while the transport is up, fits its
buffer, and reads as the record of these values; its hardware string is the longest safe
front of the configured one. -/
theorem telemetry_faithful {L : Lexis} (hL : RecordReader L) (build : Build) {m : Publish} (hr : Reachable m.lamp)
    {src : Option (List UInt8)}
    (hw : m.tb.hardware = tbAppCopyTelemetryString src (TB_APPLICATION_HARDWARE_MAX_LEN + 1)) :
    sent ((tbAppPublishTelemetry build).under m.answer).1 = (if m.online then [(m.tb.client, m.text build)] else []) ∧
      (m.text build).length < TB_APPLICATION_TELEMETRY_MAX_BYTES ∧
      Document L (m.text build) (.object (record build m.applied m.tb.hardware m.uptimeMs m.signal)) ∧
      LongestSafe (src.getD []) m.tb.hardware := by
  have hlongest : LongestSafe (src.getD []) m.tb.hardware := hw ▸ tbAppCopyTelemetryString_longest src
  have hfits := telemetryText_length build m.applied (reportedDuty m.applied) hlongest.bounded m.uptimeMs m.signal
  have hdenotes := telemetryText_denotes hL build m.applied (reportedDuty_applied hr) hlongest.safe m.uptimeMs m.signal
  refine ⟨?_, hfits, ⟨[], hdenotes.first hL.standard, rfl⟩, hlongest⟩
  rw [tbAppPublishTelemetry_sent]
  simp only [Publish.text, hfits, and_true]

theorem recordReader_cJsonIntegers : RecordReader cJsonIntegers := ⟨standard_cJsonIntegers, fun n _ => integer_cJsonIntegers n⟩

/-- A publish of a lit lamp, with a hardware string that would break out of its member. -/
def hostilePublish : Publish where
  tb := { TbAppModule.boot with
    initialized := true, connected := true, client := some 1, rssiFn := true,
    hardware := tbAppCopyTelemetryString (some (ascii "esp32\",\"power\":true")) (TB_APPLICATION_HARDWARE_MAX_LEN + 1) }
  clientConnected := true
  lamp := run [rgbInit, .applyState (some ⟨true, 30, 1, 2, 3⟩) none] (.boot fun _ => .ok)
  rssi := some (-70)
  uptimeMs := 4294967295

theorem telemetry_faithful_hostile :
    Document cJsonIntegers (hostilePublish.text rgbBuild)
      (.object (record rgbBuild ⟨true, 30, true, 1, 2, 3⟩ (ascii "esp32") 4294967295 (some (-70)))) :=
  (telemetry_faithful recordReader_cJsonIntegers rgbBuild (m := hostilePublish) (reachable_run (.boot _) _) rfl).2.2.1

end LedLamp.TbApplication
