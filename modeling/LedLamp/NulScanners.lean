import LedLamp.AppConfig.RoundTrip
import LedLamp.JsonValid
import LedLamp.Mqtt.Acceptance
/-!
# The two scanners for NUL escapes

`app_config.c` and `mqtt_cfg.c` look for `\u0000` in a raw text in two ways: one tracks
where strings begin and end and steps over each escape as a whole, the other only whether
the last character was an unescaped backslash. On valid texts both answer whether some
name or string value holds a NUL character.
-/

namespace LedLamp

open JsonSyntax

/-- Every valid text without NUL bytes: the scan of the application documents finds the
NUL characters of its names and values, and the scan of the broker document answers the same. -/
theorem scanners_agree {text : List UInt8} {strings : List (List Nat)} (h0 : 0 ∉ text) (h : ValidText text strings) :
    (AppConfig.rawJsonHasNulEscape text = true ↔ ∃ s ∈ strings, 0 ∈ s) ∧
      Mqtt.mqttCfgRawJsonHasNulEscape text = AppConfig.rawJsonHasNulEscape text := by
  have happ : AppConfig.rawJsonHasNulEscape text = strings.any (·.contains 0) := by
    rw [AppConfig.rawJsonHasNulEscape, cstr_of_not_mem h0, AppConfig.nulEscapeScan_nulScan.text h rfl]
  have hmqtt : Mqtt.mqttCfgRawJsonHasNulEscape text = strings.any (·.contains 0) := by
    rw [Mqtt.mqttCfgRawJsonHasNulEscape, cstr_of_not_mem h0, Mqtt.nulEscape_nulScan.text h rfl]
  refine ⟨?_, hmqtt.trans happ.symm⟩
  rw [happ, List.any_eq_true]
  simp only [List.contains_iff_mem]

/-- A name with an escaped quote and with `u0000` behind an escaped backslash, which is no
escape; the value holds the escape itself, behind a lone surrogate. -/
def escapedText : List UInt8 := ascii "\x7b\"\\\"\\\\u0000\": \"\\ud800\\u0000\"\x7d"

theorem scanners_agree_escaped :
    AppConfig.rawJsonHasNulEscape escapedText = true ∧ Mqtt.mqttCfgRawJsonHasNulEscape escapedText = true := by
  have hkey : Chars (ascii "\\\"\\\\u0000") [0x22, 0x5C, 0x75, 0x30, 0x30, 0x30, 0x30] :=
    .letter (b := 0x22) rfl <| .letter (b := 0x5C) rfl <| .byte (c := 0x75) (by decide) (by decide) (by decide) <|
      .byte (c := 0x30) (by decide) (by decide) (by decide) <| .byte (c := 0x30) (by decide) (by decide) (by decide) <|
      .byte (c := 0x30) (by decide) (by decide) (by decide) <| .byte (c := 0x30) (by decide) (by decide) (by decide) .nil
  have hhigh : hex4 (ascii "d800") = some (0xD800, []) := rfl
  have hzero : hex4 (ascii "0000") = some (0, []) := rfl
  have hvalue : Derives .item (ascii "\"\\ud800\\u0000\"") [[0xD800, 0]] := .string (.unicode hhigh (.unicode hzero .nil))
  have hnone : ([] : List UInt8).all isSpace = true := rfl
  have hspace : [0x20].all isSpace = true := by decide
  have hvalid : ValidText escapedText [[0x22, 0x5C, 0x75, 0x30, 0x30, 0x30, 0x30], [0xD800, 0]] :=
    ⟨[], _, [], by decide, rfl, rfl, .object (.lastMember hnone hkey hnone hspace hvalue hnone)⟩
  have hagree := scanners_agree (by decide) hvalid
  have hfound := hagree.1.2 ⟨[0xD800, 0], by simp, by simp⟩
  exact ⟨hfound, hagree.2.trans hfound⟩

end LedLamp
