import LedLamp.Mqtt.Footprint
/-!
# Rules for the programs

What the proofs about several calls share: a thread keeps the lock it took, and a
connect refuses at its entry or starts the transport and polls. The rules for a
connect leave to a proof the parts that matter to its promise.
-/

namespace LedLamp.Mqtt

open Conc Lamp

variable {parse : List UInt8 → Option Json} {K Φ : Promise} {t : Tid} {Q : MqttCfgStatus → Assertion}

/-! ## The lock -/

/-- Inside a locked section of `t`. -/
def Locked (t : Tid) (m : Moment) : Prop := m.world.lock = some t

/-- A thread keeps the lock until it gives it back. -/
theorem stable_locked : Stable (system parse) Boot K Φ t (Locked t) := by
  intro t' e m w ht hd _ h
  rcases (changes hd).lock with e' | ⟨-, e', -⟩ | ⟨-, e', -⟩
  · exact e'.trans h
  · rw [h] at e'; cases e'
  · rw [h] at e'; cases e'; exact absurd rfl ht

theorem Locked.did {o : Op} {r : Res o} {m : Moment} {w : World} (h : Locked t m)
    (hd : Does (system parse) Boot K Φ t (.did o r) m w) (ho : o ≠ .unlock) : Locked t (m.after t (.did o r) w) :=
  (changes hd).keep_lock ho h

theorem locked {r : Unit} {m : Moment} {w : World} (hd : Does (system parse) Boot K Φ t (.did .lock r) m w) :
    Locked t (m.after t (.did .lock r) w) := lock_taken (happens hd)

/-! ## Calls -/

/-- A promise is kept from a call's start to its return, where it is known which
call returns. -/
theorem fulfils_call {c : Call} (A : Assertion) (R : Ret → Assertion)
    (hcall : ∀ m w, Does (system parse) Boot K Φ t (.call c) m w → Φ t (.call c) m ∧ A (m.after t (.call c) w))
    (hbody : Triple (system parse) Boot K Φ t A (body parse c) R)
    (hR : ∀ s, Stable (system parse) Boot K Φ t (R s))
    (hret : ∀ s m w, Does (system parse) Boot K Φ t (.ret s) m w → InCall t c m → R s m → Φ t (.ret s) m) :
    Fulfils (system parse) Boot K Φ t c := by
  refine Fulfils.of_triple (fun m => A m ∧ InCall t c m) (fun s m => R s m ∧ InCall t c m) ?_
    (hbody.frame stable_inCall fun _ _ _ _ hd h => h.did hd) (fun s => (hR s).and stable_inCall)
    fun s m w hd h => hret s m w hd h.2 h.1
  intro m w hd
  obtain ⟨hΦ, ha⟩ := hcall m w hd
  exact ⟨hΦ, ha, inCall_call hd⟩

/-! ## Connect -/

/-- The locked steps of a connect before it refuses or starts the transport. -/
def Op.byEntry : Op → Bool
  | .readVerifiedApplied | .mqttConfigVerifiedIsCurrent | .mqttConfigGetVerifiedServerUrl
  | .writeVerifiedApplied false => true
  | _ => false

/-- A connect from `A`, with `L` inside the locked section of its entry. -/
theorem mqttCfgConnect_triple {timeoutMs : UInt32} {A L : Assertion} (hA : Stable (system parse) Boot K Φ t A)
    (hlock : ∀ m r w, Does (system parse) Boot K Φ t (.did .lock r) m w → A m →
      Φ t (.did .lock r) m ∧ L (m.after t (.did .lock r) w))
    (hL : Stable (system parse) Boot K Φ t L)
    (hentry : ∀ o : Op, o.byEntry = true → Keeps (system parse) Boot K Φ t L o)
    (hunlock : ∀ m r w, Does (system parse) Boot K Φ t (.did .unlock r) m w → L m →
      Φ t (.did .unlock r) m ∧ A (m.after t (.did .unlock r) w))
    (hrefuse : Triple (system parse) Boot K Φ t L connectRefuse Q)
    (hstart : Triple (system parse) Boot K Φ t A (connectStart timeoutMs) Q) :
    Triple (system parse) Boot K Φ t A (mqttCfgConnect timeoutMs) Q := by
  have enter : ∀ {o : Op} {k : Res o → Act MqttCfgStatus}, o.byEntry = true →
      (∀ r, Triple (system parse) Boot K Φ t L (k r) Q) → Triple (system parse) Boot K Φ t L (.op o k) Q :=
    fun ho hk => .keep hL (hentry _ ho) hk
  unfold mqttCfgConnect
  refine .op (fun _ => L) hA hlock fun _ => enter rfl fun latch => ?_
  cases latch with
  | false => exact hrefuse
  | true =>
    refine enter rfl fun current => ?_
    cases current with
    | false => exact enter rfl fun _ => hrefuse
    | true =>
      refine enter rfl fun url => ?_
      cases url with
      | none => exact enter rfl fun _ => hrefuse
      | some url => exact .op (fun _ => A) hL hunlock fun _ => hstart

/-- A connect that keeps `A` up to its refusal or its start. -/
theorem mqttCfgConnect_keeps {timeoutMs : UInt32} {A : Assertion} (hA : Stable (system parse) Boot K Φ t A)
    (hentry : ∀ o : Op, (o = .lock ∨ o.byEntry = true ∨ o = .unlock) → Keeps (system parse) Boot K Φ t A o)
    (hrefuse : Triple (system parse) Boot K Φ t A connectRefuse Q)
    (hstart : Triple (system parse) Boot K Φ t A (connectStart timeoutMs) Q) :
    Triple (system parse) Boot K Φ t A (mqttCfgConnect timeoutMs) Q :=
  mqttCfgConnect_triple hA (hentry _ (.inl rfl)) hA (fun o ho => hentry o (.inr (.inl ho)))
    (hentry _ (.inr (.inr rfl))) hrefuse hstart

/-- A loop whose every iteration leads from `A` to `A` or out of the loop, with `L`
where it goes on with the lock. -/
theorem pollLoop_triple {timeoutMs : UInt32} {A L : Assertion} (hA : Stable (system parse) Boot K Φ t A)
    (hL : Stable (system parse) Boot K Φ t L)
    (hunlock : ∀ m r w, Does (system parse) Boot K Φ t (.did .unlock r) m w → L m →
      Φ t (.did .unlock r) m ∧ A (m.after t (.did .unlock r) w))
    (hdelay : ∀ ms, Keeps (system parse) Boot K Φ t A (.osalTaskDelayMs ms))
    (htimeout : Triple (system parse) Boot K Φ t L pollTimeout Q)
    (honce : ∀ waited again, Triple (system parse) Boot K Φ t L again Q →
      Triple (system parse) Boot K Φ t A (pollOnce timeoutMs waited again) Q) (fuel : Nat) (waited : UInt32) :
    Triple (system parse) Boot K Φ t A (pollLoop timeoutMs fuel waited) Q := by
  induction fuel generalizing waited with
  | zero => exact honce _ _ htimeout
  | succ fuel ih => exact honce _ _ (.op (fun _ => A) hL hunlock fun _ => .keep hA (hdelay _) fun _ => ih _)

end LedLamp.Mqtt
