import Mathlib.Logic.Function.Basic
/-!
# Programs over operations

A program is a tree of operations on shared state: each operation `o` returns a
`Res o` and the program goes on from there. Sequential code is written in `do`
notation over `perform`; what an operation does is left to the `System` that
runs the program. `Uses` says that a program performs only operations of a kind.
-/

namespace Conc

inductive Prog (Op : Type) (Res : Op → Type) (α : Type) where
  | ret (a : α)
  | op (o : Op) (k : Res o → Prog Op Res α)

namespace Prog

variable {Op : Type} {Res : Op → Type} {α β γ : Type}

def bind : Prog Op Res α → (α → Prog Op Res β) → Prog Op Res β
  | ret a, f => f a
  | op o k, f => op o fun r => (k r).bind f

instance : Monad (Prog Op Res) where
  pure := ret
  bind := bind

/-- The program that performs one operation. -/
def perform (o : Op) : Prog Op Res (Res o) := op o ret

@[simp] theorem pure_eq (a : α) : (pure a : Prog Op Res α) = ret a := rfl

@[simp] theorem ret_bind (a : α) (f : α → Prog Op Res β) : (ret a >>= f) = f a := rfl

@[simp] theorem op_bind (o : Op) (k : Res o → Prog Op Res α) (f : α → Prog Op Res β) :
    (op o k >>= f) = op o fun r => k r >>= f := rfl

@[simp] theorem perform_bind (o : Op) (f : Res o → Prog Op Res β) : (perform o >>= f) = op o f := rfl

/-- Each operation replaced by a program over other operations. -/
def hoist {Op' : Type} {Res' : Op' → Type} (f : (o : Op) → Prog Op' Res' (Res o)) : Prog Op Res α → Prog Op' Res' α
  | ret a => ret a
  | op o k => f o >>= fun r => (k r).hoist f

/-! ## The operations a program performs -/

/-- Every operation `p` may perform satisfies `P`. -/
def Uses (P : Op → Prop) : Prog Op Res α → Prop
  | ret _ => True
  | op o k => P o ∧ ∀ r, (k r).Uses P

@[simp] theorem uses_ret (P : Op → Prop) (a : α) : (ret a : Prog Op Res α).Uses P := trivial

@[simp] theorem uses_op (P : Op → Prop) (o : Op) (k : Res o → Prog Op Res α) :
    (op o k).Uses P ↔ P o ∧ ∀ r, (k r).Uses P := Iff.rfl

@[simp] theorem uses_perform (P : Op → Prop) (o : Op) : (perform o : Prog Op Res _).Uses P ↔ P o := by
  simp [perform]

theorem Uses.perform {P : Op → Prop} {o : Op} {f : Res o → Prog Op Res α} (ho : P o) (hf : ∀ r, (f r).Uses P) :
    (perform o >>= f).Uses P := ⟨ho, hf⟩

theorem Uses.bind {P : Op → Prop} {p : Prog Op Res α} {f : α → Prog Op Res β} (hp : p.Uses P)
    (hf : ∀ a, (f a).Uses P) : (p >>= f).Uses P := by
  induction p with
  | ret a => exact hf a
  | op o k ih => exact ⟨hp.1, fun r => ih r (hp.2 r)⟩

theorem Uses.hoist {Op' : Type} {Res' : Op' → Type} {P : Op → Prop} {Q : Op' → Prop}
    {f : (o : Op) → Prog Op' Res' (Res o)} (hf : ∀ o, P o → (f o).Uses Q) {p : Prog Op Res α} (hp : p.Uses P) :
    (p.hoist f).Uses Q := by
  induction p with
  | ret a => trivial
  | op o k ih => exact (hf o hp.1).bind fun r => ih r (hp.2 r)

theorem Uses.mono {P Q : Op → Prop} (h : ∀ o, P o → Q o) {p : Prog Op Res α} (hp : p.Uses P) : p.Uses Q := by
  induction p with
  | ret a => trivial
  | op o k ih => exact ⟨h o hp.1, fun r => ih r (hp.2 r)⟩

theorem Uses.of_forall {P : Op → Prop} (h : ∀ o, P o) (p : Prog Op Res α) : p.Uses P := by
  induction p with
  | ret a => trivial
  | op o k ih => exact ⟨h o, fun r => ih r⟩

/-! ## The results a program can have -/

/-- Every result `p` may have satisfies `P`. -/
def Yields (P : α → Prop) : Prog Op Res α → Prop
  | ret a => P a
  | op _ k => ∀ r, (k r).Yields P

@[simp] theorem yields_ret (P : α → Prop) (a : α) : (ret a : Prog Op Res α).Yields P ↔ P a := Iff.rfl

@[simp] theorem yields_op (P : α → Prop) (o : Op) (k : Res o → Prog Op Res α) :
    (op o k).Yields P ↔ ∀ r, (k r).Yields P := Iff.rfl

end Prog

end Conc
