import BoolTensor.Circuit.Binary
import BoolTensor.Circuit.Constraint
import BoolTensor.Solver.Statistics

/-!
# Two numbers with a given sum

Numbers `a < b` of so many bits whose sum is a given number modulo `2 ^ bits`.

## Main definitions

* `AreAddends`: what is asked of the two numbers
* `Addends.demand`, `Addends.search`: the clauses, and the numbers of a model
* `Addends.solve`: the search on a new solver, with its statistics
-/

namespace BoolTensor

/-- Two numbers below a modulus, in order, with the given sum modulo it. -/
def AreAddends (modulus : Nat) (target : Int) (pair : Nat × Nat) : Prop :=
  pair.1 < pair.2 ∧ pair.2 < modulus ∧ ((pair.1 + pair.2 : Nat) : Int) % modulus = target % modulus

instance (modulus : Nat) (target : Int) (pair : Nat × Nat) :
    Decidable (AreAddends modulus target pair) :=
  inferInstanceAs (Decidable (_ ∧ _))

namespace Addends

variable {m : Type → Type} [Monad m] {α : Type} [Element α]

/-- Two vectors of fresh variables, constrained to be in order and to have the sum. -/
def demand (alg : SatAlgebra m α) (bits target : Int) :
    ExceptT Error m (Tensor α × Tensor α) := do
  let a ← alg.tensorVariables (← liftM (Shape.ofInts [bits]))
  let b ← alg.tensorVariables (← liftM (Shape.ofInts [bits]))
  let total ← alg.numAdd a.elems b.elems
  let equal ← alg.numEq total (← alg.numLift bits target)
  alg.addClause equal.toList
  let less ← alg.numLt a.elems b.elems
  alg.addClause less.toList
  return (a, b)

/-- Two numbers in order with the sum, if there are such. -/
def search (alg : SatAlgebra m α) (bits target : Int) :
    ExceptT Error m (Option (Nat × Nat)) := do
  let (a, b) ← demand alg bits target
  if ← alg.findModel [] then
    let first ← alg.tensorValues a
    let second ← alg.tensorValues b
    return some (littleEndian first.elems.truths, littleEndian second.elems.truths)
  else return none

/-- The search on a new solver, with the statistics after it. -/
def solve (engine : Engine) (bits target : Int) : Except Error (Option (Nat × Nat) × Statistics) :=
  let start : Solver Literal := .new
  let (result, solver) := (search (literalAlgebra engine) bits target).run.run start
  result.map fun found => (found, solver.statistics)

end Addends

end BoolTensor
