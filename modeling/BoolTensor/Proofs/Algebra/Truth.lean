import BoolTensor.Algebra.Truth
import BoolTensor.Proofs.Storage.Holds

/-!
# Truth values compute at once

On truth values the gates of the algebra of truth have no effect, in whatever monad they are. So
have the gates on lists of them. A gate on any number of truth values is one on two, along their
list, and so it may be applied to blocks first and then to what these give.

## Main definitions

* `Reduction.gate`: the gate on two truth values
-/

namespace BoolTensor

/-- A gate at each place of two lists is one on the pairs. -/
theorem zipWith_eval (gate : Gate) (values others : List Bool) :
    List.zipWith gate.eval values others =
      (values.zip others).map fun pair => gate.eval pair.1 pair.2 :=
  (List.map_zip_eq_zipWith (f := fun pair : Bool × Bool => gate.eval pair.1 pair.2)).symm

theorem truths_eq_toList (v : Storage Bool) : v.truths = v.toList := by
  cases v with
  | packed v => exact (List.map_id _).symm
  | _ => exact List.map_id _

/-! ### Gates along a list -/

namespace Reduction

/-- The gate on two truth values that a gate on any number of them applies along their list. -/
def gate : Reduction → Gate
  | all => .and
  | any => .or
  | sum => .xor

theorem gate_assoc (reduction : Reduction) (a b c : Bool) :
    reduction.gate.eval (reduction.gate.eval a b) c =
      reduction.gate.eval a (reduction.gate.eval b c) := by
  cases reduction <;> revert a b c <;> decide

theorem gate_eval_nil (reduction : Reduction) (value : Bool) :
    reduction.gate.eval (reduction.eval []) value = value := by
  cases reduction <;> cases value <;> rfl

theorem eval_singleton (reduction : Reduction) (value : Bool) :
    reduction.eval [value] = value := by
  cases reduction <;> cases value <;> rfl

theorem eval_cons (reduction : Reduction) (value : Bool) (values : List Bool) :
    reduction.eval (value :: values) = reduction.gate.eval value (reduction.eval values) := by
  cases reduction with
  | all => rfl
  | any => rfl
  | sum =>
    have hparity : ((values.count true + 1) % 2 == 1) = !(values.count true % 2 == 1) := by
      rw [Bool.eq_iff_iff, Bool.not_eq_true', beq_iff_eq, beq_eq_false_iff_ne]
      omega
    cases value <;> simp [eval, gate, Gate.eval, hparity]

theorem eval_append (reduction : Reduction) (values others : List Bool) :
    reduction.eval (values ++ others) =
      reduction.gate.eval (reduction.eval values) (reduction.eval others) := by
  induction values with
  | nil => exact (reduction.gate_eval_nil _).symm
  | cons value values ih => rw [List.cons_append, eval_cons, ih, eval_cons, gate_assoc]

/-- A gate on the values of blocks is one on all of them. -/
theorem eval_flatten (reduction : Reduction) (blocks : List (List Bool)) :
    reduction.eval blocks.flatten = reduction.eval (blocks.map reduction.eval) := by
  induction blocks with
  | nil => rfl
  | cons block blocks ih =>
    rw [List.flatten_cons, eval_append, ih, List.map_cons, eval_cons]

/-- A gate that goes on along a list from its value on another one. -/
theorem foldl_gate (reduction : Reduction) (front values : List Bool) :
    values.foldl reduction.gate.eval (reduction.eval front) = reduction.eval (front ++ values) := by
  induction values generalizing front with
  | nil => rw [List.append_nil]; rfl
  | cons value values ih =>
    have hstep : reduction.gate.eval (reduction.eval front) value =
        reduction.eval (front ++ [value]) := by
      rw [eval_append, eval_singleton]
    rw [List.foldl_cons, hstep, ih, List.append_assoc, List.singleton_append]

end Reduction

/-- A gate on any number of elements is the one on two, along their list. -/
theorem BoolAlgebra.reduceBy_eq {m : Type → Type} [Monad m] {α : Type} (lift : Bool → m α)
    (gate : Gate → α → α → m α) (reduction : Reduction) :
    reduceBy lift gate reduction = foldGate (lift (reduction.eval [])) (gate reduction.gate) := by
  cases reduction <;> rfl

/-! ### Gates in a monad -/

variable {m : Type → Type} [Monad m]

theorem vector_truthAlgebra (values : List Bool) :
    (truthAlgebra : BoolAlgebra m Bool).vector values = .packed (.ofList values) :=
  congrArg (fun bits => Storage.packed (Bits.ofList bits)) (List.map_id values)

variable [LawfulMonad m]

/-- Computations without an effect, one after the other. -/
theorem mapM_eq_pure {β γ : Type} {f : β → m γ} {g : β → γ} {items : List β}
    (h : ∀ item ∈ items, f item = pure (g item)) : items.mapM f = pure (items.map g) := by
  induction items with
  | nil => rfl
  | cons item items ih =>
    rw [List.forall_mem_cons] at h
    rw [List.mapM_cons, h.1, ih h.2, pure_bind, pure_bind, List.map_cons]

theorem mapM_neg (values : List Bool) :
    values.mapM (truthAlgebra (m := m) : BoolAlgebra m Bool).neg = pure (values.map (!·)) :=
  mapM_eq_pure fun _ _ => rfl

theorem mapM_gate (gate : Gate) (values others : List Bool) :
    ((values.zip others).mapM fun (a, b) =>
      (truthAlgebra : BoolAlgebra m Bool).gate gate a b) =
      pure (List.zipWith gate.eval values others) := by
  rw [zipWith_eval]
  exact mapM_eq_pure fun pair _ => truthAlgebra_gate gate pair.1 pair.2

end BoolTensor
