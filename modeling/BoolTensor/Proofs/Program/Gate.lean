import BoolTensor.Program.Circuit
import BoolTensor.Proofs.Algebra.Reading

/-!
# Gates on single elements

A gate of an algebra whose gates are read as their values gives an element that is read as the value
of the gate.

## Main definitions

* `GateStep.map`: a gate with other operands
* `GateStep.eval`: the value of a gate on truth values
-/

namespace BoolTensor

namespace GateStep

/-- The gate with other operands. -/
def map {ρ α : Type} (f : ρ → α) : GateStep ρ → GateStep α
  | lift value => lift value
  | neg a => neg (f a)
  | gate g a b => gate g (f a) (f b)
  | maj a b c => maj (f a) (f b) (f c)
  | sum3 a b c => sum3 (f a) (f b) (f c)
  | reduce reduction elems => reduce reduction (elems.map f)

/-- The value of a gate on truth values. -/
def eval : GateStep Bool → Bool
  | lift value => value
  | neg a => !a
  | gate g a b => g.eval a b
  | maj a b c => Bool.atLeastTwo a b c
  | sum3 a b c => (a != b) != c
  | reduce reduction values => reduction.eval values

theorem map_id {α : Type} (step : GateStep α) : step.map id = step := by
  cases step <;> simp [map]

theorem map_map {ρ α β : Type} (f : ρ → α) (g : α → β) (step : GateStep ρ) :
    (step.map f).map g = step.map (g ∘ f) := by
  cases step <;> simp [map]

theorem mapM_pure {m : Type → Type} [Monad m] [LawfulMonad m] {ρ α : Type} (f : ρ → α)
    (step : GateStep ρ) : step.mapM (fun a => (pure (f a) : m α)) = pure (step.map f) := by
  cases step <;> simp [mapM, map]

theorem operands_map {ρ α : Type} (f : ρ → α) (step : GateStep ρ) :
    (step.map f).operands = step.operands.map f := by
  cases step <;> rfl

theorem map_congr {ρ α : Type} {f g : ρ → α} {step : GateStep ρ}
    (h : ∀ a ∈ step.operands, f a = g a) : step.map f = step.map g := by
  cases step <;> simp_all [map, operands]

theorem run_truth {m : Type → Type} [Monad m] [LawfulMonad m] (step : GateStep Bool) :
    step.run (truthAlgebra : BoolAlgebra m Bool) = pure step.eval := by
  cases step with
  | lift value => rfl
  | neg a => rfl
  | gate g a b => exact truthAlgebra_gate g a b
  | maj a b c => cases a <;> cases b <;> cases c <;> exact map_pure _ _
  | sum3 a b c => cases a <;> cases b <;> cases c <;> exact map_pure _ _
  | reduce reduction values => exact truthAlgebra_reduce reduction _

variable {m : Type → Type} [Monad m] {σ ρ α : Type} [Runs m σ] [Element α] {R : Reading σ α} {s : σ}

/-- On elements that are read as truth values a gate gives what is read as its value on them. -/
theorem gives_run {alg : BoolAlgebra m α} (h : R.Realizes alg) (hs : R.valid s) {f : ρ → α}
    {g : ρ → Bool} (step : GateStep ρ)
    (hstep : ∀ a ∈ step.operands, R.reads s (f a) (g a)) :
    R.Gives s ((step.map f).run alg) fun t a => R.reads t a (step.map g).eval := by
  cases step with
  | lift value => exact h.lift s value hs
  | neg a => exact h.neg s _ _ hs (hstep a (by simp [operands]))
  | gate gate a b =>
    exact h.gate s gate _ _ _ _ hs (hstep a (by simp [operands])) (hstep b (by simp [operands]))
  | maj a b c =>
    exact h.maj s _ _ _ _ _ _ hs (hstep a (by simp [operands])) (hstep b (by simp [operands]))
      (hstep c (by simp [operands]))
  | sum3 a b c =>
    exact h.sum3 s _ _ _ _ _ _ hs (hstep a (by simp [operands])) (hstep b (by simp [operands]))
      (hstep c (by simp [operands]))
  | reduce reduction elems =>
    refine h.reduce s reduction _ _ hs (List.forall₂_map_left_iff.2 (List.forall₂_map_right_iff.2 ?_))
    exact List.forall₂_same.2 hstep

end GateStep

end BoolTensor
