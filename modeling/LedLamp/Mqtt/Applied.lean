import LedLamp.JsonText
import LedLamp.Mqtt.Footprint
import LedLamp.Mqtt.Loading
/-!
# What an apply hands over

An apply ends in one of three ways (`ApplyEnd`): it is refused before the transport
gets anything, the transport refuses what it got, or the transport takes it. What it
gets is `VerifiedValues`: the address is that of the host name and the port, whole and read
back in one way only, the paths lie below `/cert`, and the credentials are those of the
mode. `apply_hands_over` holds under any answers of the other components, so also with
other threads in between; what a call leaves behind when it is alone is the world's part
of it.
-/

namespace LedLamp.Mqtt

open Conc JsonText

/-! ## Addresses -/

/-- The text is the address of this host name and port. -/
structure Addresses (text name : List UInt8) (port : UInt16) : Prop where
  text : text = ascii "mqtts://" ++ name ++ ascii ":" ++ ascii (toString port.toNat)
  name : Hostname name

theorem digits_length {n k : Nat} (h : n < 10 ^ (k + 1)) : (digits n).length ≤ k + 1 := by
  induction k generalizing n with
  | zero =>
    rw [digits, if_pos (by omega)]
    simp
  | succ k ih =>
    rw [digits]
    split
    · simp
    · have := ih (n := n / 10) (by rw [Nat.pow_succ] at h; omega)
      simp only [List.length_append, List.length_singleton]
      omega

/-- The buffer of an apply is long enough for every address. -/
theorem Addresses.fits {text name : List UInt8} {port : UInt16} (h : Addresses text name port) :
    text.length < MQTT_CFG_HOSTNAME_MAX_LEN + 16 := by
  have hname := h.name.length
  have hport : (digits port.toNat).length ≤ 5 := digits_length (by have := port.toNat_lt; omega)
  have hscheme : (ascii "mqtts://").length = 8 := by decide
  have hcolon : (ascii ":").length = 1 := by decide
  rw [h.text, ascii_toString]
  simp only [List.length_append, hscheme, hcolon]
  omega

/-- A host name has no colon, so the first one behind the scheme ends it. -/
theorem Addresses.unique {text name name' : List UInt8} {port port' : UInt16} (h : Addresses text name port)
    (h' : Addresses text name' port') : name' = name ∧ port' = port := by
  have plain : ∀ {name : List UInt8}, Hostname name → ∀ c ∈ name, decide (c ≠ 0x3A) = true :=
    fun h c hc => decide_eq_true (nameChar_plain (h.labels.chars c hc)).2
  have e : name' ++ (0x3A :: digits port'.toNat) = name ++ (0x3A :: digits port.toNat) := by
    have := h'.text.symm.trans h.text
    rw [ascii_toString, ascii_toString] at this
    simpa [ascii] using this
  have hname := congrArg (List.takeWhile (· ≠ 0x3A)) e
  rw [List.takeWhile_append_of_pos (plain h'.name), List.takeWhile_append_of_pos (plain h.name)] at hname
  simp only [ne_eq, decide_not, decide_true, Bool.not_true, Bool.false_eq_true, not_false_eq_true,
    List.takeWhile_cons_of_neg, List.append_nil] at hname
  subst hname
  have hport := congrArg (List.foldl (fun n d => 10 * n + (d.toNat - 0x30)) 0)
    (List.cons.inj (List.append_cancel_left e)).2
  rw [digits_value, digits_value] at hport
  exact ⟨rfl, UInt16.toNat_inj.1 hport⟩

/-! ## What is handed over -/

/-- The identity was asked and gave this token. -/
def Loaded (done : List (Done Op Res)) (token : List UInt8) : Prop :=
  (⟨.deviceIdentityToken, (true, some token)⟩ : Done Op Res) ∈ done

/-- The values handed over are the verified ones of this configuration. -/
structure VerifiedValues (cfg : MqttCfg) (done : List (Done Op Res)) (v : MqttVerifiedConfig) : Prop where
  address : Addresses v.address cfg.hostname.str cfg.port
  clientId : v.clientId = cfg.clientId.str ∧ Printable v.clientId MQTT_CFG_CLIENT_ID_MAX_LEN
  caPath : v.caPath = cfg.caPath.str ∧ CertPath v.caPath
  mtls : cfg.authMode = .mtls → (∃ path, v.clientCertPath = some path ∧ path = cfg.clientCertPath.str ∧ CertPath path) ∧
    ∃ path, v.clientKeyPath = some path ∧ path = cfg.clientKeyPath.str ∧ CertPath path
  plain : cfg.authMode ≠ .mtls → v.clientCertPath = none ∧ v.clientKeyPath = none
  accessToken : cfg.authMode = .accessToken → ∃ token, Loaded done token ∧ cstr token ≠ [] ∧ v.username = some token
  none : cfg.authMode = .none → v.username = some []
  other : cfg.authMode ≠ .accessToken → cfg.authMode ≠ .none → v.username = Option.none

/-- The operations that give the transport its values. -/
def Op.handsOver : Op → Bool
  | .mqttConfigApplyVerified _ => true
  | _ => false

/-- The operations that neither do that nor start a session. -/
def Op.quiet : Op → Bool
  | .mqttConfigApplyVerified _ | .mqttAppInit => false
  | _ => true

/-- What an operation writes to the latch. -/
def Op.latched : Op → Option Bool
  | .writeVerifiedApplied value => some value
  | _ => Option.none

/-- What the call writes to the latch, oldest first. -/
def latchWrites (done : List (Done Op Res)) : List Bool := done.filterMap fun d => d.op.latched

/-- What an apply has done when it returns. -/
structure HandsOver (cfg : Option MqttCfg) (done : List (Done Op Res)) (status : MqttCfgStatus) : Prop where
  once : (done.filter fun d => d.op.handsOver).length ≤ 1
  verified : ∀ v r, (⟨.mqttConfigApplyVerified v, r⟩ : Done Op Res) ∈ done → ∃ c, cfg = some c ∧ VerifiedValues c done v
  ok_iff : status = .ok ↔ ∃ v, (⟨.mqttConfigApplyVerified v, .ok⟩ : Done Op Res) ∈ done
  latch : (latchWrites done).getLast? = some (decide (status = .ok))
  failed : status ≠ .ok → (⟨.mqttAppDeinit, ()⟩ : Done Op Res) ∈ done ∧
    ∃ answer, done.getLast? = some ⟨.lampControlForceInactive, answer⟩

/-- How the second locked section of an apply ends. -/
inductive ApplyEnd (cfg : Option MqttCfg) : List (Done Op Res) → MqttCfgStatus → Prop
  | refused {before : List (Done Op Res)} {status : MqttCfgStatus} {answer : Res .lampControlForceInactive}
      (hb : ∀ d ∈ before, d.op = .deviceIdentityToken) (hs : status ≠ .ok) :
      ApplyEnd cfg (before ++ [⟨.unlock, ()⟩, ⟨.lampControlForceInactive, answer⟩]) status
  | failed {before : List (Done Op Res)} {c : MqttCfg} {v : MqttVerifiedConfig} {r : MqttVerifiedConfigStatus}
      {status : MqttCfgStatus} {answer : Res .lampControlForceInactive}
      (hb : ∀ d ∈ before, d.op = .deviceIdentityToken) (hc : cfg = some c)
      (hv : VerifiedValues c before v) (hr : r ≠ .ok) (hs : status ≠ .ok) :
      ApplyEnd cfg (before ++ [⟨.mqttConfigApplyVerified v, r⟩, ⟨.unlock, ()⟩, ⟨.lampControlForceInactive, answer⟩]) status
  | applied {before : List (Done Op Res)} {c : MqttCfg} {v : MqttVerifiedConfig}
      (hb : ∀ d ∈ before, d.op = .deviceIdentityToken) (hc : cfg = some c) (hv : VerifiedValues c before v) :
      ApplyEnd cfg (before ++ [⟨.mqttConfigApplyVerified v, .ok⟩, ⟨.writeVerifiedApplied true, ()⟩, ⟨.unlock, ()⟩]) .ok

section Path

variable {cfg : Option MqttCfg} {c : MqttCfg} {done : List (Done Op Res)} {status : MqttCfgStatus}

theorem applyFail_path {e : MqttCfgStatus} : (applyFail e).Path done status ↔
    status = e ∧ ∃ answer, done = [⟨.unlock, ()⟩, ⟨.lampControlForceInactive, answer⟩] := by
  simp only [applyFail, mqttCfgFailOff, Prog.perform_bind, Prog.op_bind, Prog.ret_bind, Prog.pure_eq, Prog.path_op,
    Prog.path_ret]
  constructor
  · rintro ⟨_, _, rfl, answer, _, rfl, rfl, rfl⟩
    exact ⟨rfl, answer, rfl⟩
  · rintro ⟨rfl, answer, rfl⟩
    exact ⟨(), _, rfl, answer, _, rfl, rfl, rfl⟩

/-- What is built from a valid configuration and its token is verified. -/
theorem verifiedConfig_verified {accessToken : Option (List UInt8)} (hc : mqttCfgValidateFields (some c) = .ok)
    (ht : c.authMode = .accessToken → ∃ token, accessToken = some token ∧ Loaded done token ∧ cstr token ≠ []) :
    VerifiedValues c done (verifiedConfig c accessToken) := by
  obtain ⟨-, hhost, -, -, hid, -, hca, hmtls, hcert, hkey⟩ := mqttCfgValidateFields_iff.1 hc
  refine {
    address := ⟨rfl, (mqttCfgHostnameValid_iff _).1 hhost⟩
    clientId := ⟨rfl, (mqttCfgIsPrintable_iff _ _).1 hid⟩
    caPath := ⟨rfl, (mqttCfgPathUnderCert_iff _).1 hca⟩
    mtls := fun hm => ?_
    plain := fun hm => by simp [verifiedConfig, hm]
    accessToken := fun hm => ?_
    none := fun hm => by simp [verifiedConfig, hm]
    other := fun h₁ h₂ => by simp [verifiedConfig, h₁, h₂] }
  · obtain ⟨hc0, hk0⟩ := hmtls hm
    exact ⟨⟨_, by simp [verifiedConfig, hm], rfl, (mqttCfgPathUnderCert_iff _).1 (hcert hc0)⟩,
      _, by simp [verifiedConfig, hm], rfl, (mqttCfgPathUnderCert_iff _).1 (hkey hk0)⟩
  · obtain ⟨token, rfl, hl, hne⟩ := ht hm
    exact ⟨token, hl, hne, by simp [verifiedConfig, hm]⟩

/-- A hand-over of verified values: the address fits, and the transport's answer decides. -/
theorem applyVerified_end {accessToken : Option (List UInt8)} {before : List (Done Op Res)} (hcfg : cfg = some c)
    (hb : ∀ d ∈ before, d.op = .deviceIdentityToken) (hv : VerifiedValues c before (verifiedConfig c accessToken))
    (h : (applyVerified c accessToken).Path done status) : ApplyEnd cfg (before ++ done) status := by
  have hfits : ¬ (addressOf c).length ≥ MQTT_CFG_HOSTNAME_MAX_LEN + 16 := not_le.2 hv.address.fits
  simp only [applyVerified, if_neg hfits, Prog.perform_bind, Prog.path_op] at h
  obtain ⟨r, rest, rfl, h⟩ := h
  have fails : ∀ {e : MqttCfgStatus}, r ≠ .ok → e ≠ .ok → (applyFail e).Path rest status →
      ApplyEnd cfg (before ++ ⟨.mqttConfigApplyVerified (verifiedConfig c accessToken), r⟩ :: rest) status := by
    intro e hr he hp
    obtain ⟨rfl, answer, rfl⟩ := applyFail_path.1 hp
    exact .failed hb hcfg hv hr he
  cases r with
  | caError => exact fails (e := .errCaPath) (by simp) (by simp) h
  | clientCertError => exact fails (e := .errCertPath) (by simp) (by simp) h
  | error => exact fails (e := .errApply) (by simp) (by simp) h
  | ok =>
    obtain ⟨_, _, rfl, _, _, rfl, rfl, rfl⟩ := h
    exact .applied hb hcfg hv

theorem applyLocked_end (hcfg : cfg = some c) (hc : mqttCfgValidateFields (some c) = .ok)
    (h : (applyLocked c).Path done status) : ApplyEnd cfg done status := by
  unfold applyLocked at h
  by_cases hm : c.authMode = .accessToken
  swap
  · rw [if_neg hm] at h
    have hv : VerifiedValues c [] (verifiedConfig c none) := verifiedConfig_verified hc fun e => absurd e hm
    exact applyVerified_end hcfg (fun _ hd => absurd hd List.not_mem_nil) hv h
  rw [if_pos hm, Prog.perform_bind, Prog.path_op] at h
  obtain ⟨⟨loaded, token⟩, rest, rfl, h⟩ := h
  have asked : ∀ d ∈ [(⟨.deviceIdentityToken, (loaded, token)⟩ : Done Op Res)], d.op = .deviceIdentityToken := by simp
  have refused : (applyFail .errApply).Path rest status →
      ApplyEnd cfg (⟨.deviceIdentityToken, (loaded, token)⟩ :: rest) status := by
    intro hp
    obtain ⟨rfl, answer, rfl⟩ := applyFail_path.1 hp
    exact .refused asked (by simp)
  cases loaded with
  | false => exact refused h
  | true =>
    cases token with
    | none => exact refused h
    | some token =>
      dsimp only at h
      by_cases hempty : (cstr token).isEmpty = true
      · rw [if_pos hempty] at h
        exact refused h
      · rw [if_neg hempty] at h
        refine applyVerified_end hcfg asked (verifiedConfig_verified hc fun _ => ⟨token, rfl, ?_, ?_⟩) h
        · exact List.mem_singleton.2 rfl
        · simpa using hempty

theorem applyBegin_quiet {u : Unit} : applyBegin.Path done u → ∀ d ∈ done, d.op.quiet = true := by
  simp only [applyBegin, Prog.perform_bind, Prog.path_op, Prog.path_perform]
  rintro ⟨_, _, rfl, gen, _, rfl, _, _, rfl, _, _, rfl, _, _, rfl, _, _, rfl, rfl⟩
  simp [Op.quiet]

theorem applyRest_path (h : (applyRest cfg).Path done status) : ∃ tail,
    done = ⟨.lock, ()⟩ :: ⟨.writeVerifiedApplied false, ()⟩ :: tail ∧ ApplyEnd cfg tail status := by
  simp only [applyRest, Prog.perform_bind, Prog.path_op] at h
  obtain ⟨_, _, rfl, _, tail, rfl, h⟩ := h
  refine ⟨tail, rfl, ?_⟩
  have refused : ∀ {e : MqttCfgStatus}, e ≠ .ok → (applyFail e).Path tail status → ApplyEnd cfg tail status := by
    intro e he hp
    obtain ⟨rfl, answer, rfl⟩ := applyFail_path.1 hp
    exact ApplyEnd.refused (fun _ hd => absurd hd List.not_mem_nil) he
  cases cfg with
  | none => exact refused (e := .errInvalidArgument) (by simp) h
  | some c =>
    dsimp only at h
    by_cases hc : mqttCfgValidateFields (some c) = .ok
    · rw [if_neg (not_not.2 hc)] at h
      exact applyLocked_end rfl hc h
    · rw [if_pos hc] at h
      exact refused hc h

/-- What every apply does before its end: the old session is torn down, the latch cleared. -/
structure Prepared (done : List (Done Op Res)) : Prop where
  quiet : ∀ d ∈ done, d.op.quiet = true
  deinit : (⟨.mqttAppDeinit, ()⟩ : Done Op Res) ∈ done
  latch : (latchWrites done).getLast? = some false

theorem mqttCfgApply_path (h : (mqttCfgApply cfg).Path done status) :
    ∃ before tail, done = before ++ tail ∧ Prepared before ∧ ApplyEnd cfg tail status := by
  unfold mqttCfgApply at h
  rw [Prog.path_bind] at h
  obtain ⟨d₁, _, d₂, rfl, hbegin, h⟩ := h
  simp only [mqttCfgFailOff, Prog.perform_bind, Prog.path_op] at h
  obtain ⟨_, _, rfl, connected, d₃, rfl, h⟩ := h
  -- A connected session is asked to fail off before it is torn down.
  obtain ⟨off, _, d₄, rfl, hoff, h⟩ : ∃ off u d₄, d₃ = off ++ ⟨.mqttAppDeinit, u⟩ :: d₄ ∧
      (∀ d ∈ off, d.op = .lampControlForceInactive) ∧ (applyRest cfg).Path d₄ status := by
    cases connected with
    | false =>
      obtain ⟨u, d₄, rfl, h⟩ := h
      exact ⟨[], u, d₄, rfl, by simp, h⟩
    | true =>
      obtain ⟨answer, _, rfl, u, d₄, rfl, h⟩ := h
      exact ⟨[⟨.lampControlForceInactive, answer⟩], u, d₄, rfl, by simp, h⟩
  obtain ⟨tail, rfl, hend⟩ := applyRest_path h
  refine ⟨d₁ ++ ⟨.mqttConfigInvalidateVerified, ()⟩ :: ⟨.mqttAppIsConnected, connected⟩ :: off ++
    [⟨.mqttAppDeinit, ()⟩, ⟨.lock, ()⟩, ⟨.writeVerifiedApplied false, ()⟩], tail, by simp, ?_, hend⟩
  refine ⟨fun d hd => ?_, by simp, by simp [latchWrites, Op.latched]⟩
  simp only [List.mem_append, List.mem_cons, List.not_mem_nil, or_false] at hd
  rcases hd with (hd | rfl | rfl | hd) | rfl | rfl | rfl
  · exact applyBegin_quiet hbegin d hd
  · rfl
  · rfl
  · rw [hoff d hd]
    rfl
  · rfl
  · rfl
  · rfl

theorem VerifiedValues.mono {done' : List (Done Op Res)} {v : MqttVerifiedConfig} (h : VerifiedValues c done v)
    (hsub : ∀ d ∈ done, d ∈ done') : VerifiedValues c done' v :=
  { h with accessToken := fun hm =>
      let ⟨token, hl, hne, hu⟩ := h.accessToken hm
      ⟨token, hsub _ hl, hne, hu⟩ }

theorem quiet_handed (hq : ∀ d ∈ done, d.op.quiet = true) : done.filter (fun d => d.op.handsOver) = [] := by
  rw [List.filter_eq_nil_iff]
  intro d hd
  have := hq d hd
  cases ho : d.op <;> simp_all [Op.quiet, Op.handsOver]

theorem not_handed {v : MqttVerifiedConfig} {r : Res (.mqttConfigApplyVerified v)} (hq : ∀ d ∈ done, d.op.quiet = true) :
    (⟨.mqttConfigApplyVerified v, r⟩ : Done Op Res) ∉ done := fun hm => by
  have := hq _ hm
  cases this

/-- Between quiet operations there is one hand-over. -/
theorem handed_eq {before rest : List (Done Op Res)} {v v' : MqttVerifiedConfig} {r r' : MqttVerifiedConfigStatus}
    (hb : ∀ d ∈ before, d.op.quiet = true) (hr : ∀ d ∈ rest, d.op.quiet = true)
    (hm : (⟨.mqttConfigApplyVerified v', r'⟩ : Done Op Res) ∈ before ++ ⟨.mqttConfigApplyVerified v, r⟩ :: rest) :
    v' = v ∧ r' = r := by
  rcases List.mem_append.1 hm with hm | hm
  · exact absurd hm (not_handed hb)
  rcases List.mem_cons.1 hm with e | hm
  · cases e
    exact ⟨rfl, rfl⟩
  · exact absurd hm (not_handed hr)

/-- So it is the only one, and its values are verified. -/
theorem handed_once {cfg : Option MqttCfg} {before rest : List (Done Op Res)} {v : MqttVerifiedConfig}
    {r : MqttVerifiedConfigStatus} (hb : ∀ d ∈ before, d.op.quiet = true) (hr : ∀ d ∈ rest, d.op.quiet = true)
    (hc : cfg = some c) (hv : VerifiedValues c before v) :
    let done := before ++ ⟨.mqttConfigApplyVerified v, r⟩ :: rest
    (done.filter fun d => d.op.handsOver).length ≤ 1 ∧
      ∀ v' r', (⟨.mqttConfigApplyVerified v', r'⟩ : Done Op Res) ∈ done → ∃ c, cfg = some c ∧ VerifiedValues c done v' := by
  refine ⟨?_, fun v' r' hm => ⟨c, hc, ?_⟩⟩
  · rw [List.filter_append, quiet_handed hb, List.nil_append, List.filter_cons_of_pos rfl, quiet_handed hr]
    exact le_rfl
  · obtain ⟨rfl, -⟩ := handed_eq hb hr hm
    exact hv.mono fun d hd => List.mem_append_left _ hd

/-- The question to the identity changes nothing of that. -/
theorem Prepared.asked {before asked : List (Done Op Res)} (h : Prepared before)
    (ha : ∀ d ∈ asked, d.op = .deviceIdentityToken) : Prepared (before ++ asked) := by
  have hwrites : latchWrites asked = [] := List.filterMap_eq_nil_iff.2 fun d hd => by
    rw [ha d hd]
    rfl
  refine ⟨fun d hd => ?_, List.mem_append_left _ h.deinit, ?_⟩
  · rcases List.mem_append.1 hd with hd | hd
    · exact h.quiet d hd
    · rw [ha d hd]
      rfl
  · rw [latchWrites, List.filterMap_append, ← latchWrites, ← latchWrites, hwrites, List.append_nil, h.latch]

theorem HandsOver.of_end {before tail : List (Done Op Res)} (hb : Prepared before) (he : ApplyEnd cfg tail status) :
    HandsOver cfg (before ++ tail) status := by
  cases he with
  | @refused asked _ answer ha hs =>
    rw [← List.append_assoc]
    have ht := hb.asked ha
    generalize before ++ asked = b at ht ⊢
    have quiet : ∀ d ∈ b ++ [⟨.unlock, ()⟩, ⟨.lampControlForceInactive, answer⟩], d.op.quiet = true := by
      simpa [or_imp, forall_and] using ⟨ht.quiet, rfl, rfl⟩
    exact {
      once := by rw [quiet_handed quiet]; simp
      verified := fun v r hm => absurd hm (not_handed quiet)
      ok_iff := iff_of_false hs fun ⟨v, hm⟩ => not_handed quiet hm
      latch := by simp [latchWrites, Op.latched, ← ht.latch, hs]
      failed := fun _ => ⟨List.mem_append_left _ ht.deinit, answer, by simp⟩ }
  | @failed asked c v r _ answer ha hc hv hr hs =>
    rw [← List.append_assoc]
    have ht := hb.asked ha
    have hv' := hv.mono fun d hd => List.mem_append_right before hd
    generalize before ++ asked = b at ht hv' ⊢
    have rest : ∀ d ∈ [(⟨.unlock, ()⟩ : Done Op Res), ⟨.lampControlForceInactive, answer⟩], d.op.quiet = true := by
      simp [Op.quiet]
    obtain ⟨once, verified⟩ := handed_once (r := r) ht.quiet rest hc hv'
    exact {
      once
      verified
      ok_iff := iff_of_false hs fun ⟨v', hm⟩ => hr (handed_eq ht.quiet rest hm).2.symm
      latch := by simp [latchWrites, Op.latched, ← ht.latch, hs]
      failed := fun _ => ⟨List.mem_append_left _ ht.deinit, answer, by simp⟩ }
  | @applied asked c v ha hc hv =>
    rw [← List.append_assoc]
    have ht := hb.asked ha
    have hv' := hv.mono fun d hd => List.mem_append_right before hd
    generalize before ++ asked = b at ht hv' ⊢
    have rest : ∀ d ∈ [(⟨.writeVerifiedApplied true, ()⟩ : Done Op Res), ⟨.unlock, ()⟩], d.op.quiet = true := by
      simp [Op.quiet]
    obtain ⟨once, verified⟩ := handed_once (r := .ok) ht.quiet rest hc hv'
    exact {
      once
      verified
      ok_iff := iff_of_true rfl ⟨v, by simp⟩
      latch := by simp [latchWrites, Op.latched]
      failed := fun h => absurd rfl h }

end Path

/-! ## What is left behind -/

section World

variable {parse : List UInt8 → Option Json} {α : Type} {p : Act α} {t : Tid} {w w' : World} {done : List (Done Op Res)} {a : α}

/-- A call that is alone leaves the latch as it wrote it last. -/
theorem latch_left (h : Exec (system parse) t p w done a w') :
    w'.verifiedApplied = (latchWrites done).getLast?.getD w.verifiedApplied := by
  induction p generalizing w done with
  | ret b =>
    obtain ⟨rfl, -, rfl⟩ := h
    rfl
  | op o k ih =>
    obtain ⟨r, w₁, rest, he, rfl, h⟩ := h
    rw [ih r h]
    by_cases ho : ∃ b, o = .writeVerifiedApplied b
    · obtain ⟨b, rfl⟩ := ho
      simp [effect_writeVerifiedApplied he, latchWrites, Op.latched, List.getLast?_cons]
    · have hno : o.latched = none := by
        cases o <;> first | rfl | exact absurd ⟨_, rfl⟩ ho
      rcases (effect_changes he).verifiedApplied with e | ⟨b, e, -⟩
      · simp [e, latchWrites, hno]
      · cases e
        exact absurd ⟨b, rfl⟩ ho

/-- A call that is alone, tears the session down and starts none leaves none. -/
theorem session_left (h : Exec (system parse) t p w done a w') (hp : p.Uses (· ≠ .mqttAppInit))
    (hd : w.session = none ∨ (⟨.mqttAppDeinit, ()⟩ : Done Op Res) ∈ done) : w'.session = none := by
  induction p generalizing w done with
  | ret b =>
    obtain ⟨rfl, -, rfl⟩ := h
    exact hd.resolve_right (List.not_mem_nil)
  | op o k ih =>
    obtain ⟨r, w₁, rest, he, rfl, h⟩ := h
    refine ih r h (hp.2 r) ?_
    rcases (effect_changes he).session with e | ⟨e, -⟩ | ⟨-, -, e⟩
    · rcases hd with hd | hd
      · exact .inl (e.trans hd)
      rcases List.mem_cons.1 hd with hd | hd
      · cases hd
        exact .inl (by rw [(effect_deinit he).2])
      · exact .inr hd
    · cases e
      exact absurd rfl hp.1
    · exact .inl e

end World

/-- What an apply leaves in the world, when no other thread comes in between. -/
structure Leaves (status : MqttCfgStatus) (w : World) : Prop where
  latch : w.verifiedApplied = decide (status = .ok)
  session : w.session = none

/-- Every apply, on any configuration and under any answers of the identity and the
transport: at most one hand-over, of verified values only, which decides the status and
the latch, and a failure that is torn down and failed off. -/
theorem apply_hands_over {cfg : Option MqttCfg} {done : List (Done Op Res)} {status : MqttCfgStatus}
    (h : (mqttCfgApply cfg).Path done status) : HandsOver cfg done status ∧
      ∀ parse t w w', Exec (system parse) t (mqttCfgApply cfg) w done status w' → Leaves status w' := by
  obtain ⟨before, tail, rfl, ht, hend⟩ := mqttCfgApply_path h
  have hover := HandsOver.of_end ht hend
  refine ⟨hover, fun parse t w w' he => ⟨?_, ?_⟩⟩
  · rw [latch_left he, hover.latch, Option.getD_some]
  · refine session_left he ((mqttCfgApply_uses cfg).mono fun o ho => ?_) (.inr (List.mem_append_left _ ht.deinit))
    rintro rfl
    cases ho

/-- An enrolled device, with a transport that takes what it gets. -/
def enrolled : (o : Op) → Res o
  | .deviceIdentityToken => (true, some (ascii "token"))
  | o => serving [] o

theorem apply_hands_over_enrolled : HandsOver (some { brokerCfg with authMode := .accessToken })
    ((mqttCfgApply (some { brokerCfg with authMode := .accessToken })).under enrolled).1 .ok := by
  have hok : ((mqttCfgApply (some { brokerCfg with authMode := .accessToken })).under enrolled).2 = .ok := by decide +kernel
  have hpath := Prog.under_path enrolled (mqttCfgApply (some { brokerCfg with authMode := .accessToken }))
  rw [hok] at hpath
  exact (apply_hands_over hpath).1

end LedLamp.Mqtt
