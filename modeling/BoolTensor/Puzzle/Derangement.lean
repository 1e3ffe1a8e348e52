import BoolTensor.Circuit.Constraint
import BoolTensor.Solver.Statistics
import BoolTensor.Tensor.RowMajor

/-!
# Derangements

A permutation without fixed points, as a square relation: `rel[y, x]` says that `x` goes to `y`. The
relation and its transpose are demanded to be functions, and no diagonal cell may be true.

## Main definitions

* `IsDerangement`: lists that are such permutations
* `SatAlgebra.demandFunction`: the clauses that make a relation the graph of a function
* `Derangement.demand`: all clauses
* `Derangement.decode`, `Derangement.search`: the permutation that a square is read as, and that of
  a model
* `Derangement.solve`: the search on a new solver, with its statistics
-/

namespace BoolTensor

/-- The list is a permutation of its places and leaves none where it is. -/
def IsDerangement (images : List Nat) : Prop :=
  images.Perm (List.range images.length) ∧ ∀ x (h : x < images.length), images[x] ≠ x

instance (images : List Nat) : Decidable (IsDerangement images) :=
  inferInstanceAs (Decidable (_ ∧ _))

namespace SatAlgebra

variable {m : Type → Type} [Monad m] {α : Type} [Element α]

/-- Demands that for each `x` exactly one `rel[y, x]` is true: some one is, and where two are they
have the same `y`. -/
def demandFunction (alg : SatAlgebra m α) (rel : Tensor α) : ExceptT Error m Unit := do
  let size ← liftM (rel.shape.dimension 0)
  alg.tensorClauses [← alg.tensorReduce .any rel]
  let cube : Shape := ⟨[size, size, size]⟩
  let first ← liftM (rel.polymer cube [0, 2])
  let second ← liftM (rel.polymer cube [1, 2])
  let equal ← liftM ((← alg.countedDiagonal size).polymer cube [0, 1])
  alg.tensorClauses [← alg.tensorNot first, ← alg.tensorNot second, equal]

end SatAlgebra

namespace Derangement

variable {m : Type → Type} [Monad m] {α : Type} [Element α]

/-- The relation of a permutation of `size` elements without fixed points, as constrained fresh
variables. -/
def demand (alg : SatAlgebra m α) (size : Int) : ExceptT Error m (Tensor α) := do
  let square ← liftM (Shape.ofInts [size, size])
  let rel ← alg.tensorVariables square
  alg.demandFunction rel
  alg.demandFunction (← liftM (rel.polymer square [1, 0]))
  let fixed ← alg.tensorGate .and rel (← alg.countedDiagonal size.toNat)
  alg.tensorClauses [← alg.tensorNot fixed]
  return rel

/-- The first row with a true entry in a column of a square array with these entries. -/
def firstTrue (size : Nat) (data : Array Bool) (x : Nat) : Except Error Nat :=
  match (List.range size).find? fun y => data.getD (y * size + x) false with
  | some y => .ok y
  | none => .error .noTrueEntry

/-- For each column of a square array, the first row with a true entry. -/
def images (size : Nat) (graph : TruthArray) : Except Error (List Nat) :=
  let data := graph.data.toArray
  (List.range size).mapM (firstTrue size data)

/-- The permutation that a square tensor of truth values is read as. Its cells go through an array,
which is held to its limits where the cells can be counted at all. -/
def decode (size : Nat) (graph : Tensor α) : Except Error (List Nat) := do
  if graph.elems.length ≤ indexLimit then graph.checkArray
  images size graph.toTruthArray

/-- A permutation of `size` elements without fixed points, if there is one. -/
def search (alg : SatAlgebra m α) (size : Int) : ExceptT Error m (Option (List Nat)) := do
  let rel ← demand alg size
  if ← alg.findModel [] then
    let graph ← alg.tensorValues rel
    return some (← liftM (decode size.toNat graph))
  else return none

/-- The search on a new solver, with the statistics after it. -/
def solve (engine : Engine) (size : Int) : Except Error (Option (List Nat) × Statistics) :=
  let start : Solver Literal := .new
  let (result, solver) := (search (literalAlgebra engine) size).run.run start
  result.map fun found => (found, solver.statistics)

end Derangement

end BoolTensor
