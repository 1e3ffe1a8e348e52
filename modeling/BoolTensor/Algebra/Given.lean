import BoolTensor.Algebra.Truth

/-!
# Truth values with given inputs

The algebra of truth values with variables and clauses: a new variable takes the next of the inputs
that are given in advance, and a clause is looked at instead of being solved for. Over this algebra
a program with variables computes what it says of these inputs.

## Main definitions

* `Given`: the inputs that are left, and the values of all clauses so far
* `givenAlgebra`: the algebra
-/

namespace BoolTensor

/-- Inputs for variables, and the clauses that were demanded. -/
structure Given where
  /-- The values of the variables to come; when there are no more, they are false. -/
  inputs : List Bool
  /-- Whether each clause so far holds, in order. -/
  clauses : List Bool
  deriving DecidableEq, Repr

namespace Given

/-- Whether all clauses so far hold. -/
def holds (given : Given) : Bool :=
  given.clauses.all id

def next : StateM Given Bool :=
  modifyGet fun given => (given.inputs.headD false, { given with inputs := given.inputs.tail })

/-- Takes down whether a clause holds. -/
def demand (clause : List Bool) : StateM Given Unit :=
  modify fun given => { given with clauses := given.clauses ++ [clause.any id] }

end Given

/-- Truth values, with variables that take the given inputs. -/
def givenAlgebra : SatAlgebra (StateM Given) Bool where
  toBoolAlgebra := truthAlgebra
  addVariable := Given.next
  addClause clause := liftM (Given.demand clause)
  findModel assumptions := return (← getThe Given).holds && assumptions.all id
  value elem := return elem

end BoolTensor
