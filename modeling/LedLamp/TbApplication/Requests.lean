import LedLamp.TbApplication.Footprint
/-!
# The flag of a request

`s_tb.rpc_state_changed` carries what a handler did to the end of its request. It is
raised only under the mutex and cleared before the mutex is given back, so it is
clear whenever the mutex is free: a request that is dropped leaves `s_tb` as it was.
-/

namespace LedLamp.TbApplication

open Conc Lamp
open Mqtt (Tid)

variable {cJsonParse : List UInt8 → Option Json} {build : Build} {t : Tid} {m : Moment}

/-- The flag is clear if `t` holds the mutex. -/
def Clean (t : Tid) (m : Moment) : Prop := m.world.lock = some t → m.world.tb.rpcStateChanged = false

/-- The flag is raised only under the mutex; where `t` gives it back or returns from a
call, the flag is clear. -/
def FlagHeld : Promise := fun t e m =>
  match e with
  | .did (.store (.rpcStateChanged true)) _ => m.world.lock = some t
  | .did .osalMutexGive _ => Clean t m
  | .ret _ => Clean t m
  | _ => True

theorem flag_changes {e : Event} {w w' : World} (h : Changes t e w w') :
    w'.tb.rpcStateChanged = w.tb.rpcStateChanged ∨ w'.tb.rpcStateChanged = false ∨
      (e = .did (.store (.rpcStateChanged true)) () ∧ w'.tb.rpcStateChanged = true) := by
  rcases h.tb with h' | ⟨s, rfl, h'⟩ | ⟨-, h'⟩
  · exact .inl (by rw [h'])
  · rw [h']
    cases s with
    | rpcStateChanged value =>
      cases value with
      | false => exact .inr (.inl rfl)
      | true => exact .inr (.inr ⟨rfl, rfl⟩)
    | _ => exact .inl rfl
  · exact .inl (by rw [h'])

/-- While the mutex is free, the flag is clear. -/
theorem free_clean {K : Promise} (hm : Hist (system cJsonParse build) Boot (K.and FlagHeld) m) (hl : m.world.lock = none) :
    m.world.tb.rpcStateChanged = false := by
  induction hm with
  | start hw =>
    obtain ⟨lamp, -, rfl⟩ := hw
    rfl
  | @step m t e w _ he hp ih =>
    rw [Moment.after_world] at hl ⊢
    have hc := effect_changes he
    rcases hc.lock with h | ⟨-, -, h⟩ | ⟨rfl, h, -⟩
    · rcases flag_changes hc with h' | h' | ⟨rfl, -⟩
      · exact h'.trans (ih (h ▸ hl))
      · exact h'
      · have hheld : m.world.lock = some t := hp.2
        rw [← h, hl] at hheld
        cases hheld
    · rw [hl] at h; cases h
    · rcases flag_changes hc with h' | h' | ⟨h', -⟩
      · exact h'.trans (hp.2 h)
      · exact h'
      · cases h'

section Walk
variable {K : Promise}

/-- Other threads do not touch the flag under `t`'s mutex. -/
theorem Clean.other {t' : Tid} {e : Event} {w : World} (he : effect t' e m.world = some w) (hp : FlagHeld t' e m)
    (ht : t' ≠ t) (h : Clean t m) : Clean t (m.after t' e w) := by
  intro hl
  rw [Moment.after_world] at hl ⊢
  have hc := effect_changes he
  have hheld : m.world.lock = some t := by
    rcases hc.lock with h' | ⟨-, -, h'⟩ | ⟨-, -, h'⟩
    · exact h' ▸ hl
    · rw [hl] at h'; cases h'; exact absurd rfl ht
    · rw [hl] at h'; cases h'
  rcases flag_changes hc with h' | h' | ⟨rfl, -⟩
  · exact h'.trans (h hheld)
  · exact h'
  · have hl' : m.world.lock = some t' := hp
    rw [hheld] at hl'
    cases hl'
    exact absurd rfl ht

theorem stable_clean : Stable (system cJsonParse build) Boot K FlagHeld t (Clean t) :=
  fun _ _ _ _ ht hd hp h => h.other hd.effect hp ht

/-- A thread at rest leaves the flag clear. -/
theorem idle_clean (hm : Hist (system cJsonParse build) Boot (K.and FlagHeld) m) (hi : Idle t m.trace) : Clean t m := by
  refine stable_clean.idle ?_ ?_ hm hi
  · rintro _ ⟨lamp, -, rfl⟩
    exact fun _ => rfl
  · intro s m w hd hp
    have hw : w = m.world := (Option.some.inj hd.effect).symm
    subst hw
    exact hp

/-- Inside a section of `t`. -/
def Inside (t : Tid) (m : Moment) : Prop := m.world.lock = some t

theorem stable_inside {Φ : Promise} : Stable (system cJsonParse build) Boot K Φ t (Inside t) := by
  intro t' e m w ht hd _ h
  rcases (changes hd).lock with h' | ⟨-, h', -⟩ | ⟨-, h', -⟩
  · exact h'.trans h
  · rw [h] at h'; cases h'
  · rw [h] at h'; cases h'; exact absurd rfl ht

/-- Any step but the raise of the flag keeps the flag clear, the taking of the mutex
because the flag is clear while it is free. -/
theorem keeps_clean {o : Op} (ho : o ≠ .store (.rpcStateChanged true)) :
    Keeps (system cJsonParse build) Boot K FlagHeld t (Clean t) o := by
  intro m r w hd h
  refine ⟨?_, fun hl => ?_⟩
  · cases o with
    | store s => cases s with
      | rpcStateChanged value => cases value with
        | true => exact absurd rfl ho
        | false => trivial
      | _ => trivial
    | osalMutexGive => exact h
    | _ => trivial
  · rw [Moment.after_world] at hl ⊢
    have hc := changes hd
    have hbefore : m.world.tb.rpcStateChanged = false := by
      rcases hc.lock with h' | ⟨-, h', -⟩ | ⟨-, -, h'⟩
      · exact h (h' ▸ hl)
      · exact free_clean hd.hist h'
      · rw [hl] at h'; cases h'
    rcases flag_changes hc with h' | h' | ⟨h', -⟩
    · exact h'.trans hbefore
    · exact h'
    · cases h'; exact absurd rfl ho

/-- A handler keeps the mutex. -/
theorem keeps_inside {o : Op} (ho : o.byHandler = true) :
    Keeps (system cJsonParse build) Boot K FlagHeld t (Inside t) o := by
  intro m r w hd h
  refine ⟨?_, ?_⟩
  · cases o with
    | store s => cases s with
      | rpcStateChanged value => cases value with
        | true => exact h
        | false => trivial
      | _ => trivial
    | osalMutexGive => cases ho
    | _ => trivial
  · rcases (changes hd).lock with h' | ⟨h', -⟩ | ⟨h', -⟩
    · exact h'.trans h
    · cases h'
      cases ho
    · cases h'
      cases ho

/-- A program that never raises the flag. -/
theorem clean_uses {α : Type} {p : Act α} (hp : p.Uses (· ≠ .store (.rpcStateChanged true))) :
    Triple (system cJsonParse build) Boot K FlagHeld t (Clean t) p fun _ => Clean t :=
  .uses stable_clean (hp.mono fun _ ho => keeps_clean ho)

/-- The end of a request clears what the handler raised. -/
theorem rpcFinish_clean : Triple (system cJsonParse build) Boot K FlagHeld t (Inside t) rpcFinish fun _ => Clean t := by
  have load : ∀ {k : Res .load → Act Unit},
      (∀ r, Triple (system cJsonParse build) Boot K FlagHeld t (Inside t) (k r) fun _ => Clean t) →
      Triple (system cJsonParse build) Boot K FlagHeld t (Inside t) (.op .load k) fun _ => Clean t :=
    fun hk => .keep stable_inside (keeps_inside rfl) hk
  unfold rpcFinish
  simp only [Prog.perform_bind]
  refine load fun changed => load fun pending => load fun suspended => ?_
  refine .op (fun _ => Clean t) stable_inside ?_ fun _ => ?_
  · intro m r w hd _
    have he : w = { m.world with tb := { m.world.tb with rpcStateChanged := false } } := (Option.some.inj hd.effect).symm
    exact ⟨trivial, fun _ => by rw [Moment.after_world, he]⟩
  · refine clean_uses ⟨by simp, fun _ => ?_⟩
    split
    · refine ⟨by simp, fun _ => ?_⟩
      split
      · exact ⟨by simp, fun _ => trivial⟩
      · trivial
    · trivial

theorem tbAppOnServerRpc_clean (entry : RpcMethod) (paramsJson : List UInt8) (requestId : UInt32) :
    Triple (system cJsonParse build) Boot K FlagHeld t (Clean t)
      (tbAppOnServerRpc cJsonParse build entry paramsJson requestId) fun _ => Clean t := by
  have hhandler : ∀ {α : Type} {p : Act α}, p.Uses (·.byHandler) →
      Triple (system cJsonParse build) Boot K FlagHeld t (fun m => Inside t m ∧ Clean t m) p fun _ => Inside t :=
    fun h => (Triple.uses stable_inside (h.mono fun _ ho => keeps_inside ho)).conseq (fun _ _ h => h.1) fun _ _ _ h => h
  have hread : ∀ {α : Type} {p : Act α}, p.Uses (·.isRead) →
      Triple (system cJsonParse build) Boot K FlagHeld t (fun m => Inside t m ∧ Clean t m) p
        fun _ m => Inside t m ∧ Clean t m := by
    refine fun h => .uses (stable_inside.and stable_clean) (h.mono fun o ho m r w hd hi => ?_)
    have hne : o ≠ .store (.rpcStateChanged true) := by rintro rfl; cases ho
    have hin := keeps_inside (isPublish_byHandler (isRead_isPublish ho)) m r w hd hi.1
    exact ⟨hin.1, hin.2, (keeps_clean hne m r w hd hi.2).2⟩
  -- A refused request responds and gives the mutex back, with the flag as it was.
  have hrefuse : ∀ error reason, Triple (system cJsonParse build) Boot K FlagHeld t (fun m => Inside t m ∧ Clean t m)
      (do tbAppRpcRespondError requestId error reason; act .osalMutexGive) fun _ => Clean t := by
    refine fun error reason => (clean_uses ?_).conseq (fun _ _ h => h.2) fun _ _ _ h => h
    exact .perform (by simp) fun _ => .perform (by simp) fun _ => ⟨by simp, fun _ => trivial⟩
  unfold tbAppOnServerRpc
  refine .op (fun _ => Inside t) stable_clean ?_ fun _ => ?_
  · intro m r w hd _
    refine ⟨trivial, ?_⟩
    obtain ⟨-, rfl⟩ := effect_take (happens hd)
    rfl
  refine .op (fun _ m => Inside t m ∧ Clean t m) stable_inside ?_ fun _ => ?_
  · intro m r w hd hi
    have he : w = { m.world with tb := { m.world.tb with rpcStateChanged := false } } := (Option.some.inj hd.effect).symm
    subst he
    exact ⟨trivial, hi, fun _ => rfl⟩
  refine (hread rpcServed_uses).bind _ fun served => ?_
  split
  · have hgive : (act .osalMutexGive).Uses (· ≠ .store (.rpcStateChanged true)) := ⟨by simp, fun _ => trivial⟩
    exact (clean_uses hgive).conseq (fun _ _ h => h.2) fun _ _ _ h => h
  · split
    · exact hrefuse _ _
    · exact (hhandler (handler_uses _ _ _ _)).bind _ fun _ => rpcFinish_clean
    · exact hrefuse _ _

end Walk

/-- Every run keeps the promise. -/
theorem flag_held (cJsonParse : List UInt8 → Option Json) (build : Build) :
    Established (system cJsonParse build) Boot (Sequential.and FlagHeld) := by
  refine established established_sequential fun t c => ?_
  have hbody : Triple (system cJsonParse build) Boot Sequential FlagHeld t (Clean t) (body cJsonParse build c)
      fun _ => Clean t := by
    by_cases hc : c.isRpc = true
    · cases c with
      | onServerRpc entry paramsJson requestId =>
        exact (tbAppOnServerRpc_clean entry paramsJson requestId).bind _ fun _ => .ret fun _ h => h
      | _ => cases hc
    · refine clean_uses ((body_uses cJsonParse build c).mono fun o ho => ?_)
      rintro rfl
      exact hc ho
  refine Fulfils.of_triple (Clean t) (fun _ => Clean t) ?_ hbody (fun _ => stable_clean) fun _ _ _ _ h => h
  intro m w hd
  have hclean := idle_clean hd.hist (hd.known c rfl)
  refine ⟨trivial, ?_⟩
  obtain ⟨-, rfl⟩ := effect_call (happens hd)
  cases c <;> exact hclean

/-- In every run, the flag is clear while the mutex is free. -/
theorem run_clean {c : Config} (hr : (system cJsonParse build).Run Boot c) (hl : c.world.lock = none) :
    c.world.tb.rpcStateChanged = false := free_clean ((flag_held cJsonParse build).hist hr) hl

end LedLamp.TbApplication
