import LedLamp.TbApplication.Contract
/-!
# What a partial update keeps

A request that sets some fields of the desired state is merged into what the lamp
shows (`tb_app_rpc_current_state`), not into `s_tb.applied`. The two agree after an
apply; they differ while the output is suspended and the lamp shows the indicator.
`fields_kept` says that this difference is all that can go wrong.
-/

namespace LedLamp.TbApplication

open Conc Lamp
open Mqtt (Tid)

/-! ## Fields -/

/-- The members of `lamp_state_t`. -/
inductive Field
  | power
  | brightness
  | red
  | green
  | blue
  deriving DecidableEq, Repr

/-- Two states have the same value in a field. -/
def Field.Same (a b : LampState) : Field → Prop
  | power => a.power = b.power
  | brightness => a.brightnessPercent = b.brightnessPercent
  | red => a.red = b.red
  | green => a.green = b.green
  | blue => a.blue = b.blue

/-- `merged` has the chosen fields of `new` and the others of `base`. -/
def Merges (chosen : Field → Bool) (new base merged : LampState) : Prop :=
  ∀ f, (chosen f = true → f.Same merged new) ∧ (chosen f = false → f.Same merged base)

theorem ext_fields {a b : LampState} (h : ∀ f : Field, f.Same a b) : a = b := by
  cases a
  cases b
  simp only [LampState.mk.injEq]
  exact ⟨h .power, h .brightness, h .red, h .green, h .blue⟩

theorem Field.Same.symm {a b : LampState} {f : Field} (h : f.Same a b) : f.Same b a := by
  cases f <;> exact Eq.symm h

theorem Field.Same.trans {a b c : LampState} {f : Field} (h : f.Same a b) (h' : f.Same b c) : f.Same a c := by
  cases f <;> exact Eq.trans h h'

/-- The fields a request sets. -/
def RpcMethod.sets (build : Build) (params : Json) : RpcMethod → Field → Bool
  | setPower, f => f = .power
  | setBrightness, f => f = .brightness
  | setState, .power | setState, .brightness => true
  | setState, _ => build.lampTypeRgb && (tbAppRpcHasField params (ascii "red") || tbAppRpcHasField params (ascii "green") ||
      tbAppRpcHasField params (ascii "blue"))
  | setColor, .red => tbAppRpcHasField params (ascii "red")
  | setColor, .green => tbAppRpcHasField params (ascii "green")
  | setColor, .blue => tbAppRpcHasField params (ascii "blue")
  | setColor, _ => false
  | getState, _ => false

/-- The state a request is merged into: what the lamp shows, or the default of `setState`. -/
def rpcBase (m : Machine) : LampState := (currentState m).getD ⟨false, 0, 255, 255, 255⟩

section Merge
variable {build : Build} {params : Json} {entry : RpcMethod}

theorem partialChannel_merge {key : List UInt8} {a c : UInt8} (h : partialChannel params key a = some c) (b : UInt8) :
    partialChannel params key b = some (if tbAppRpcHasField params key then c else b) := by
  unfold partialChannel at h ⊢
  split
  · rename_i hf
    simpa only [hf, ↓reduceIte] using h
  · rfl

/-- Merged into another state, a partial colour update gives the same channels. -/
theorem parseRgbPartial_merge {a desired : LampState} (h : tbAppRpcParseRgbPartial params a = some desired) (b : LampState) :
    ∃ desired', tbAppRpcParseRgbPartial params b = some desired' ∧
      Merges (RpcMethod.setColor.sets build params) desired b desired' := by
  simp only [tbAppRpcParseRgbPartial, Option.bind_eq_bind, Option.bind_eq_some_iff] at h
  obtain ⟨red, hr, green, hg, blue, hb, h⟩ := h
  split at h
  · rename_i hany
    cases h
    refine ⟨_, by simp [tbAppRpcParseRgbPartial, partialChannel_merge hr, partialChannel_merge hg,
      partialChannel_merge hb, hany]; rfl, fun f => ?_⟩
    cases f <;> simp +contextual [RpcMethod.sets, Field.Same]
  · cases h

/-- A `setState` gives all colours or none. -/
theorem setStateRgb_merge {a desired : LampState} (h : setStateRgb build params a = some desired) (b : LampState)
    (hp : b.power = a.power) (hb : b.brightnessPercent = a.brightnessPercent) :
    ∃ desired', setStateRgb build params b = some desired' ∧
      Merges (RpcMethod.setState.sets build params) desired b desired' := by
  have hsets : ∀ f : Field, RpcMethod.setState.sets build params f = (decide (f = .power ∨ f = .brightness) ||
      (build.lampTypeRgb && (tbAppRpcHasField params (ascii "red") || tbAppRpcHasField params (ascii "green") ||
        tbAppRpcHasField params (ascii "blue")))) := by
    intro f
    cases f <;> rfl
  unfold setStateRgb at h ⊢
  split at h
  · rename_i hc
    split at h
    · cases h
    · rename_i hall
      simp only [tbAppRpcParseRgb, Option.bind_eq_bind, Option.bind_eq_some_iff] at h
      obtain ⟨red, hr, green, hg, blue, hbl, h⟩ := h
      cases h
      refine ⟨{ b with red, green, blue }, by simp [hc, hall, tbAppRpcParseRgb, hr, hg, hbl], fun f => ?_⟩
      rw [hsets, hc, Bool.or_true]
      refine ⟨fun _ => ?_, fun h => by cases h⟩
      cases f with
      | power => exact hp
      | brightness => exact hb
      | red | green | blue => rfl
  · rename_i hc
    cases h
    refine ⟨b, by simp [hc], fun f => ⟨fun hf => ?_, fun _ => ?_⟩⟩
    · rw [hsets] at hf
      cases f with
      | power => exact hp
      | brightness => exact hb
      | red | green | blue => simp [hc] at hf
    · cases f <;> rfl

/-- Merged into another state, a request gives the fields it sets the same values and
keeps the others of that state. -/
theorem requested_merge {current : Option LampState} {desired : LampState}
    (h : entry.requested build params current = some desired) (other : LampState) :
    ∃ desired', entry.requested build params (some other) = some desired' ∧
      Merges (entry.sets build params) desired other desired' := by
  cases entry with
  | setPower =>
    simp only [RpcMethod.requested, Option.bind_eq_bind, Option.bind_eq_some_iff] at h
    obtain ⟨power, hp, current, rfl, h⟩ := h
    cases h
    refine ⟨{ other with power }, by simp [RpcMethod.requested, hp], fun f => ?_⟩
    cases f <;> simp [RpcMethod.sets, Field.Same]
  | setBrightness =>
    simp only [RpcMethod.requested, Option.bind_eq_bind, Option.bind_eq_some_iff] at h
    obtain ⟨brightness, hb, current, rfl, h⟩ := h
    cases h
    refine ⟨{ other with brightnessPercent := brightness }, by simp [RpcMethod.requested, hb], fun f => ?_⟩
    cases f <;> simp [RpcMethod.sets, Field.Same]
  | setState =>
    simp only [RpcMethod.requested, Option.bind_eq_bind, Option.bind_eq_some_iff] at h
    obtain ⟨power, hp, brightness, hb, h⟩ := h
    obtain ⟨desired', h', hf⟩ := setStateRgb_merge h { other with power, brightnessPercent := brightness } rfl rfl
    refine ⟨desired', by simp [RpcMethod.requested, hp, hb, h'], fun f => ?_⟩
    refine ⟨(hf f).1, fun hs => ?_⟩
    have hkept := (hf f).2 hs
    cases f with
    | power | brightness => cases hs
    | red | green | blue => exact hkept
  | setColor =>
    simp only [RpcMethod.requested, Option.bind_eq_bind, Option.bind_eq_some_iff] at h
    obtain ⟨current, rfl, h⟩ := h
    obtain ⟨desired', h', hf⟩ := parseRgbPartial_merge h other
    exact ⟨desired', by simp [RpcMethod.requested, h'], hf⟩
  | getState => cases h

theorem requested_base {m : Machine} {desired : LampState}
    (h : entry.requested build params (currentState m) = some desired) :
    entry.requested build params (some (rpcBase m)) = some desired := by
  unfold rpcBase
  cases hc : currentState m with
  | some current => simpa only [hc, Option.getD_some] using h
  | none =>
    rw [hc] at h
    cases entry with
    | setState => exact h
    | setColor | getState => cases h
    | setPower | setBrightness => simp [RpcMethod.requested] at h

/-- What a request asks for has the fields of the base it does not set. -/
theorem requested_kept {m : Machine} {desired : LampState}
    (h : entry.requested build params (currentState m) = some desired) (f : Field) (hf : entry.sets build params f = false) :
    f.Same desired (rpcBase m) := by
  obtain ⟨desired', h', hm⟩ := requested_merge h (rpcBase m)
  obtain rfl : desired = desired' := Option.some.inj ((requested_base h).symm.trans h')
  exact (hm f).2 hf

end Merge

/-! ## Sessions -/

variable (cJsonParse : List UInt8 → Option Json) (build : Build)

/-- What happens in a session: the engine applies what the attributes say, a set
request succeeds, an OTA starts, its indicator is shown, the OTA ends. -/
inductive Action
  | sync (desired : LampState) (ok : Bool)
  | rpc (entry : RpcMethod) (paramsJson : List UInt8) (requestId : UInt32)
  | otaStart
  | indicator (on : Bool)
  | otaEnd (synchronized : Bool)

/-- A program run alone by some thread. -/
def Runs {α : Type} (p : Act α) (w : World) (done : List Done) (a : α) (w' : World) : Prop :=
  ∃ t, Exec (system cJsonParse build) t p w done a w'

/-- One action, run alone. At the end of an OTA the engine applies the desired state
again, or fails off if it has none; it is told only if the output was suspended. -/
def Action.Does : Action → World → World → Prop
  | .sync desired ok, w, w' => ∃ done, Runs cJsonParse build (tbAppApplyState (some desired) w.tb.outputSuspended) w done ok w'
  | .rpc entry paramsJson requestId, w, w' => entry ≠ .getState ∧ ∃ done,
    Runs cJsonParse build (tbAppOnServerRpc cJsonParse build entry paramsJson requestId) w done () w' ∧
      (requestId, true) ∈ answers done
  | .otaStart, w, w' => ∃ done, Runs cJsonParse build (tbApplicationSetOutputSuspended true) w done () w'
  | .indicator on, w, w' => w.tb.outputSuspended = true ∧ ∃ done, Runs cJsonParse build (otaOnIndicator build on) w done () w'
  | .otaEnd synchronized, w, w' => ∃ done w₁, Runs cJsonParse build (tbApplicationSetOutputSuspended false) w done () w₁ ∧
    if done.any fun d => d.op = .tbStateSyncSetOutputSuspended false then
      if synchronized then ∃ done ok, Runs cJsonParse build (tbAppApplyState (some w₁.tb.applied) false) w₁ done ok w'
      else ∃ done, Runs cJsonParse build tbAppFailOff w₁ done () w'
    else w' = w₁

/-- An action with the world before and after it. -/
structure Step where
  action : Action
  before : World
  after : World

/-- A sequence of actions, each run alone. -/
inductive Session : World → List Step → World → Prop
  | nil (w : World) : Session w [] w
  | cons {action : Action} {w w₁ w' : World} {steps : List Step} (hd : action.Does cJsonParse build w w₁)
      (hs : Session w₁ steps w') : Session w (⟨action, w, w₁⟩ :: steps) w'

/-- The desired state after an action, by what the user or the server set in it. -/
def Action.lastSet (last : LampState) : Action → LampState
  | .sync desired ok => if ok then desired else last
  | .rpc entry paramsJson _ => ((cJsonParse paramsJson).bind fun params => entry.requested build params (some last)).getD last
  | _ => last

/-- The action leaves the fields it does not set. -/
def Framed (s : Step) : Prop :=
  match s.action with
  | .rpc entry paramsJson _ => ∀ params, cJsonParse paramsJson = some params → ∀ f,
    entry.sets build params f = false → f.Same s.after.tb.applied s.before.tb.applied
  | _ => True

/-- Where a request is merged, the lamp shows the desired state in the fields the request does not set. -/
def Agrees (s : Step) : Prop :=
  match s.action with
  | .rpc entry paramsJson _ => ∀ params, cJsonParse paramsJson = some params → ∀ f,
    entry.sets build params f = false → f.Same (rpcBase s.before.lamp) s.before.tb.applied
  | _ => True

/-- Every action leaves the fields it does not set, and the desired state is what was last set. -/
def Kept (last : LampState) : List Step → Prop
  | [] => True
  | s :: steps => Framed cJsonParse build s ∧ s.after.tb.applied = s.action.lastSet cJsonParse build last ∧
    Kept (s.action.lastSet cJsonParse build last) steps

/-! ## One action -/

section Steps
variable {cJsonParse : List UInt8 → Option Json} {build : Build} {w w' : World} {done : List Done}

/-- A step that leaves the desired state, and does not raise the flag. -/
def Op.keepsDesired : Op → Bool
  | .store (.applied _) | .store (.rpcStateChanged true) => false
  | _ => true

theorem keepsDesired_exec {α : Type} {p : Act α} {a : α} (hp : p.Uses (·.keepsDesired = true))
    (h : Runs cJsonParse build p w done a w') (hc : w.tb.rpcStateChanged = false) :
    w'.tb.applied = w.tb.applied ∧ w'.tb.rpcStateChanged = false := by
  obtain ⟨t, h⟩ := h
  have hstep : ∀ (o : Op) (r : Res o) v v', o.keepsDesired = true → effect t (.did o r) v = some v' →
      v.tb.applied = w.tb.applied ∧ v.tb.rpcStateChanged = false →
      v'.tb.applied = w.tb.applied ∧ v'.tb.rpcStateChanged = false := by
    intro o r v v' ho he hv
    rcases (effect_changes he).tb with h | ⟨s, hs, h⟩ | ⟨-, h⟩
    · rw [h]
      exact hv
    · rw [h]
      cases hs
      cases s with
      | applied value => cases ho
      | rpcStateChanged value =>
        cases value with
        | true => cases ho
        | false => exact ⟨hv.1, rfl⟩
      | _ => exact hv
    · rw [h]
      exact hv
  exact h.keeps hp hstep ⟨rfl, hc⟩

theorem bySignal_keepsDesired {o : Op} (h : o.bySignal = true) : o.keepsDesired = true := by
  unfold Op.bySignal at h
  split at h <;> first | rfl | cases h

theorem setOutputSuspended_keeps (suspended : Bool) :
    (tbApplicationSetOutputSuspended suspended).Uses (·.keepsDesired = true) :=
  (tbApplicationSetOutputSuspended_uses suspended).mono fun _ => bySignal_keepsDesired

theorem otaOnIndicator_keeps (on : Bool) : (otaOnIndicator build on).Uses (·.keepsDesired = true) :=
  ⟨rfl, fun _ => ⟨rfl, fun _ => trivial⟩⟩

theorem storeApplied_exec {desired : LampState} {u : Unit} {t : Tid}
    (h : Exec (system cJsonParse build) t (storeApplied desired) w done u w') :
    w'.tb = { w.tb with applied := desired, hasApplied := true } := by
  obtain ⟨_, w₁, _, h₁, rfl, _, w₂, _, h₂, rfl, _, w₃, _, h₃, rfl, _, w₄, _, h₄, rfl, rfl, -, rfl⟩ := h
  obtain ⟨-, rfl⟩ := effect_take h₁
  obtain rfl : _ = w₂ := Option.some.inj h₂
  obtain rfl : _ = w₃ := Option.some.inj h₃
  obtain rfl : _ = w' := Option.some.inj h₄
  rfl

theorem failOff_exec {u : Unit} {t : Tid} (h : Exec (system cJsonParse build) t tbAppFailOff w done u w') : w'.tb = w.tb := by
  obtain ⟨d₁, _, w₁, _, rfl, h₁, -, rfl, rfl⟩ := exec_bind.1 h
  obtain ⟨rfl, -, -⟩ := lamp_exec h₁
  rfl

/-- An apply records the state if it succeeds, and leaves the module if it fails. -/
theorem tbAppApplyState_exec {desired : LampState} {suspended ok : Bool}
    (h : Runs cJsonParse build (tbAppApplyState (some desired) suspended) w done ok w') :
    w'.tb = if ok then { w.tb with applied := desired, hasApplied := true } else w.tb := by
  obtain ⟨t, h⟩ := h
  have hrecord : ∀ {v : World} {d : List Done}, Exec (system cJsonParse build) t
      (storeApplied desired >>= fun _ => .ret true) v d ok w' → ok = true ∧ w'.tb = { v.tb with applied := desired, hasApplied := true } := by
    intro v d h
    obtain ⟨d₁, _, v₁, d₂, rfl, h₁, -, rfl, rfl⟩ := exec_bind.1 h
    exact ⟨rfl, storeApplied_exec h₁⟩
  unfold tbAppApplyState at h
  cases suspended with
  | true =>
    obtain ⟨rfl, hw⟩ := hrecord h
    exact hw
  | false =>
    simp only [Bool.false_eq_true, ↓reduceIte] at h
    obtain ⟨d₁, _, w₁, _, rfl, h₁, h⟩ := exec_bind.1 h
    obtain ⟨rfl, -, -⟩ := lamp_exec h₁
    obtain ⟨d₂, answer, w₂, _, rfl, h₂, h⟩ := exec_bind.1 h
    obtain ⟨rfl, -, -⟩ := lamp_exec h₂
    split at h
    · obtain ⟨rfl, hw⟩ := hrecord h
      exact hw
    · obtain ⟨d₃, _, w₃, _, rfl, h₃, -, rfl, rfl⟩ := exec_bind.1 h
      have hw := failOff_exec h₃
      exact hw

/-- A set request that succeeds was merged into what the lamp shows. -/
theorem rpc_exec {entry : RpcMethod} {paramsJson : List UInt8} {requestId : UInt32} (hc : w.tb.rpcStateChanged = false)
    (hset : entry ≠ .getState) (h : Runs cJsonParse build (tbAppOnServerRpc cJsonParse build entry paramsJson requestId) w done () w')
    (hok : (requestId, true) ∈ answers done) : ∃ params desired, cJsonParse paramsJson = some params ∧
      entry.requested build params (currentState w.lamp) = some desired ∧ w'.tb = w.tb.record desired false := by
  obtain ⟨t, h⟩ := h
  cases tbAppOnServerRpc_exec hc h with
  | dropped hs hm hw => simp [hm.unanswered] at hok
  | refused hs h => simp [h.answered] at hok
  | accepted hs params desired hp hq h => exact ⟨params, desired, hp, hq, h.tb⟩
  | reported hs hq h => exact absurd hq hset

/-- One action: it keeps the fields it does not set exactly if the lamp agrees with
the desired state there, and then the desired state is what was last set. -/
theorem action_kept {action : Action} (hd : action.Does cJsonParse build w w') (hc : w.tb.rpcStateChanged = false) :
    w'.tb.rpcStateChanged = false ∧
    (Framed cJsonParse build ⟨action, w, w'⟩ ↔ Agrees cJsonParse build ⟨action, w, w'⟩) ∧
    (Agrees cJsonParse build ⟨action, w, w'⟩ → w'.tb.applied = action.lastSet cJsonParse build w.tb.applied) := by
  cases action with
  | sync desired ok =>
    obtain ⟨done, h⟩ := hd
    have htb := tbAppApplyState_exec h
    refine ⟨?_, Iff.rfl, fun _ => ?_⟩
    · cases ok <;> simpa [htb] using hc
    · cases ok <;> simp [htb, Action.lastSet]
  | rpc entry paramsJson requestId =>
    obtain ⟨hset, done, h, hok⟩ := hd
    obtain ⟨params, desired, hp, hq, htb⟩ := rpc_exec hc hset h hok
    have hkept := requested_kept hq
    obtain ⟨desired', hq', hm⟩ := requested_merge hq w.tb.applied
    have happlied : w'.tb.applied = desired := by rw [htb]; rfl
    refine ⟨by rw [htb]; rfl, ?_, fun ha => ?_⟩
    · simp only [Framed, Agrees, hp, Option.some.injEq, forall_eq', happlied]
      exact forall₂_congr fun f hf => ⟨fun h => (hkept f hf).symm.trans h, fun h => (hkept f hf).trans h⟩
    · simp only [Action.lastSet, hp, Option.bind_some, hq', Option.getD_some, happlied]
      -- A field is set by the request, or kept from the lamp, which agreed before.
      refine ext_fields fun f => ?_
      cases hf : entry.sets build params f with
      | true => exact ((hm f).1 hf).symm
      | false => exact ((hkept f hf).trans (ha params hp f hf)).trans ((hm f).2 hf).symm
  | otaStart =>
    obtain ⟨done, h⟩ := hd
    obtain ⟨happlied, hc'⟩ := keepsDesired_exec (setOutputSuspended_keeps true) h hc
    exact ⟨hc', Iff.rfl, fun _ => happlied⟩
  | indicator on =>
    obtain ⟨-, done, h⟩ := hd
    obtain ⟨happlied, hc'⟩ := keepsDesired_exec (otaOnIndicator_keeps on) h hc
    exact ⟨hc', Iff.rfl, fun _ => happlied⟩
  | otaEnd synchronized =>
    obtain ⟨done, w₁, h, hrest⟩ := hd
    obtain ⟨happlied, hc₁⟩ := keepsDesired_exec (setOutputSuspended_keeps false) h hc
    have hlast : w'.tb.rpcStateChanged = false ∧ w'.tb.applied = w₁.tb.applied := by
      split at hrest
      · cases synchronized with
        | true =>
          obtain ⟨d, ok, h₂⟩ := hrest
          rw [tbAppApplyState_exec h₂]
          cases ok <;> exact ⟨hc₁, rfl⟩
        | false =>
          obtain ⟨d, t, h₂⟩ := hrest
          rw [failOff_exec h₂]
          exact ⟨hc₁, rfl⟩
      · subst hrest
        exact ⟨hc₁, rfl⟩
    exact ⟨hlast.1, Iff.rfl, fun _ => hlast.2.trans happlied⟩

/-! ## Sessions -/

theorem session_kept {steps : List Step} (hs : Session cJsonParse build w steps w') (hc : w.tb.rpcStateChanged = false) :
    Kept cJsonParse build w.tb.applied steps ↔ ∀ s ∈ steps, Agrees cJsonParse build s := by
  induction hs with
  | nil w => simp [Kept]
  | @cons action w w₁ w' steps hd hs ih =>
    obtain ⟨hc₁, hiff, hset⟩ := action_kept hd hc
    simp only [Kept, List.forall_mem_cons]
    constructor
    · rintro ⟨hf, ha, hk⟩
      rw [← ha] at hk
      exact ⟨hiff.1 hf, (ih hc₁).1 hk⟩
    · rintro ⟨ha, hrest⟩
      refine ⟨hiff.2 ha, hset ha, ?_⟩
      rw [← hset ha]
      exact (ih hc₁).2 hrest

/-- **Partial updates.** In a session from any state a run reaches, every successful
request leaves the fields it does not set, and the desired state is what the user or
the server last set, exactly if at each request the lamp shows the desired state in
the fields the request leaves alone. -/
theorem fields_kept {c : Config} (hr : (system cJsonParse build).Run Boot c) (hl : c.world.lock = none)
    {steps : List Step} {w' : World} (hs : Session cJsonParse build c.world steps w') :
    Kept cJsonParse build c.world.tb.applied steps ↔ ∀ s ∈ steps, Agrees cJsonParse build s :=
  session_kept hs (run_clean hr hl)

end Steps

/-- What the user set before the OTA. -/
def dimmed : LampState := ⟨true, 30, 255, 255, 255⟩

/-- The lamp is switched off with no OTA under way: the brightness stays. -/
theorem fields_kept_home : ∃ c steps w', (system parsePower pwmBuild).Run Boot c ∧
    Session parsePower pwmBuild c.world steps w' ∧ steps.map (·.action) = [.rpc .setPower (powerText false) 42] ∧
    c.world.tb.applied = dimmed ∧ Kept parsePower pwmBuild c.world.tb.applied steps := by
  have h : (do
      let w ← serial (system parsePower pwmBuild) obliging (lightsUp dimmed) (.boot pwmLamp)
      let (done, _, _) ← alone (system parsePower pwmBuild) obliging .transport
        (tbAppOnServerRpc parsePower pwmBuild .setPower (powerText false) 42) w
      return (w.lock, w.tb.applied, rpcBase w.lamp, answers done)) = some (none, dimmed, dimmed, [(42, true)]) := by decide
  simp only [Option.bind_eq_bind, Option.bind_eq_some_iff, pure, Option.some.injEq, Prod.mk.injEq] at h
  obtain ⟨w, hw, ⟨done, u, w'⟩, hexec, hl, ha, hb, hans⟩ := h
  obtain ⟨c, hr, rfl⟩ := serial_run pwm_boot (fun _ => rfl) hw
  have hs : Session parsePower pwmBuild c.world [⟨.rpc .setPower (powerText false) 42, c.world, w'⟩] w' :=
    .cons ⟨by decide, done, ⟨.transport, alone_exec hexec⟩, by simp [hans]⟩ (.nil w')
  refine ⟨c, _, w', hr, hs, rfl, ha, (fields_kept hr hl hs).2 ?_⟩
  rintro s hmem
  obtain rfl := List.mem_singleton.1 hmem
  intro params hp f hf
  simp only [ha, hb]
  cases f <;> rfl

/-- The lamp is switched on while the OTA's indicator is shown: its brightness becomes
the brightness the user is taken to want. -/
theorem brightness_overwritten : ∃ c steps w', (system parsePower pwmBuild).Run Boot c ∧
    Session parsePower pwmBuild c.world steps w' ∧
    steps.map (·.action) = [.otaStart, .indicator true, .rpc .setPower (powerText true) 42] ∧
    c.world.tb.applied = dimmed ∧ w'.tb.applied = fullOn ∧ ¬ Kept parsePower pwmBuild c.world.tb.applied steps := by
  have h : (do
      let w ← serial (system parsePower pwmBuild) obliging (lightsUp dimmed) (.boot pwmLamp)
      let (_, _, w₁) ← alone (system parsePower pwmBuild) obliging (.task 0) (tbApplicationSetOutputSuspended true) w
      let (_, _, w₂) ← alone (system parsePower pwmBuild) obliging (.task 0) (otaOnIndicator pwmBuild true) w₁
      let (done, _, w₃) ← alone (system parsePower pwmBuild) obliging .transport
        (tbAppOnServerRpc parsePower pwmBuild .setPower (powerText true) 42) w₂
      return (w₁.tb.outputSuspended, [w.tb.applied, w₂.tb.applied, w₃.tb.applied], answers done)) =
        some (true, [dimmed, dimmed, fullOn], [(42, true)]) := by decide
  simp only [Option.bind_eq_bind, Option.bind_eq_some_iff, pure, Option.some.injEq, Prod.mk.injEq, List.cons.injEq] at h
  obtain ⟨w, hw, ⟨d₁, _, w₁⟩, h₁, ⟨d₂, _, w₂⟩, h₂, ⟨d₃, _, w₃⟩, h₃, hsus, ⟨ha, ha₂, ha₃, -⟩, hans⟩ := h
  obtain ⟨c, hr, rfl⟩ := serial_run pwm_boot (fun _ => rfl) hw
  have hs : Session parsePower pwmBuild c.world [⟨.otaStart, c.world, w₁⟩, ⟨.indicator true, w₁, w₂⟩,
      ⟨.rpc .setPower (powerText true) 42, w₂, w₃⟩] w₃ :=
    .cons ⟨d₁, .task 0, alone_exec h₁⟩ (.cons ⟨hsus, d₂, .task 0, alone_exec h₂⟩
      (.cons ⟨by decide, d₃, ⟨.transport, alone_exec h₃⟩, by simp [hans]⟩ (.nil w₃)))
  refine ⟨c, _, w₃, hr, hs, rfl, ha, ha₃, ?_⟩
  rintro ⟨-, -, -, -, hframed, -⟩
  have hparse : parsePower (powerText true) = some (.object [(ascii "power", .bool true)]) := by decide
  have hb : Field.brightness.Same w₃.tb.applied w₂.tb.applied := hframed _ hparse .brightness rfl
  rw [ha₂, ha₃] at hb
  cases hb

end LedLamp.TbApplication
