import BoolTensor.Circuit.Tensor

/-!
# Constraints on tensors

Tensors over an algebra with variables and clauses: tensors of fresh variables, one clause for each
cell position of parallel tensors, and the values of a tensor in the model found last.

## Main definitions

* `SatAlgebra.tensorVariables`: a tensor of fresh variables
* `SatAlgebra.tensorClauses`: at every coordinate one of the tensors is true
* `SatAlgebra.tensorValues`: the truth values of a tensor, as a packed tensor
* `Backend`, `Backend.requireSat`: which algebras have clauses at all
* `TensorEngine`: how circuits on tensors are computed
-/

namespace BoolTensor

/-- The algebras that circuits can be built over. -/
inductive Backend where
  | truth
  /-- A single element. -/
  | point
  /-- Literals over clauses. -/
  | literal
  | written
  deriving DecidableEq, Repr

/-- The name under which an algebra is refused. -/
def Backend.title : Backend → String
  | truth => "Boolean"
  | point => "Trivial"
  | literal => "Solver"
  | written => "Term"

/-- Refuses algebras without clauses. -/
def Backend.requireSat (backend : Backend) : Except Error Unit :=
  if backend = .literal then .ok () else .error (.notSatBacked backend.title)

/-- How circuits on tensors are computed. -/
inductive TensorEngine where
  /-- Cell by cell, over any algebra. -/
  | cells
  /-- As whole arrays of truth values. -/
  | arrays
  /-- Cell by cell, over an algebra with clauses. -/
  | constrained
  deriving DecidableEq, Repr

/-- The name under which an engine refuses what it cannot do. -/
def TensorEngine.title : TensorEngine → String
  | cells => "TensorAlgebra"
  | arrays => "BooleanTensorAlgebra"
  | constrained => "TensorSat"

namespace SatAlgebra

variable {m : Type → Type} [Monad m] {α : Type} [Element α]

/-- The tensor of a shape with a fresh variable in each cell. -/
def tensorVariables (alg : SatAlgebra m α) (shape : Shape) : ExceptT Error m (Tensor α) := do
  let elems ← liftM ((List.range shape.size).mapM fun _ => alg.addVariable)
  alg.tensorOf shape elems

/-- The cells of parallel columns, one row for each of `count` places. -/
def rowsOf (count : Nat) (columns : List (List α)) : List (List α) :=
  columns.foldr (List.zipWith List.cons) (List.replicate count [])

/-- Demands that at every coordinate one of the tensors is true; of no tensors, none can be. -/
def tensorClauses (alg : SatAlgebra m α) : List (Tensor α) → ExceptT Error m Unit
  | [] => alg.addClause []
  | first :: others => do
    match others.find? fun tensor => tensor.shape ≠ first.shape with
    | some other => throw (.shapeMismatch first.shape.dims other.shape.dims)
    | none =>
      (rowsOf first.elems.length ((first :: others).map (·.elems.toList))).forM alg.addClause

/-- The values of all cells in the model found last, as a packed tensor. -/
def tensorValues (alg : SatAlgebra m α) (t : Tensor α) : ExceptT Error m (Tensor α) := do
  let values ← t.elems.toList.mapM alg.value
  liftM (Tensor.ofStorage t.shape (.packed (.ofList values)))

end SatAlgebra

end BoolTensor
