import BoolTensor.Solver.Basic

/-!
# Truth tables of recorded circuits

What the recorded clauses make of some variables can be asked of them: each assignment of inputs is
assumed for one solve, and the outputs are read from its model.

## Main definitions

* `assignmentsOf`, `assumptionsOf`: all assignments of inputs as lists of literals, the last input
  changing fastest
* `Solver.truthTable`: the values of the outputs under each of them
* `Solver.modelHolds`: whether the model found last makes every clause true
-/

namespace BoolTensor

variable {m : Type → Type} {ℓ : Type} [Monad m] [MonadStateOf (Solver ℓ) m] [LiteralForm ℓ]

/-- The two literals of each input, the negated one first; the last input changes fastest. -/
def assignmentsOf : List (ℓ × ℓ) → List (List ℓ)
  | [] => [[]]
  | (negated, input) :: inputs =>
    (assignmentsOf inputs).map (negated :: ·) ++ (assignmentsOf inputs).map (input :: ·)

/-- All assignments of inputs as lists of literals, the inputs being false first. -/
def assumptionsOf [SignedForm m ℓ] (inputs : List ℓ) : m (List (List ℓ)) := do
  return assignmentsOf (← inputs.mapM fun input => do
    return (← SignedForm.negated input, input))

namespace Solver

def values (elems : List ℓ) : ExceptT Error m (List Bool) :=
  elems.mapM value

/-- The values of the outputs in a model in which the assumptions are true, if there is one. -/
def outputs (engine : Engine) (outputs : List ℓ) (assumptions : List ℓ) :
    ExceptT Error m (Option (List Bool)) := do
  if ← findModel engine assumptions then some <$> values outputs else return none

/-- The values of the outputs under every assignment of the inputs. -/
def truthTable [SignedForm m ℓ] (engine : Engine) (inputs out : List ℓ) :
    ExceptT Error m (List (Option (List Bool))) := do
  (← assumptionsOf (m := m) inputs).mapM (outputs engine out)

/-- Whether some literal of a clause is true in the model found last; all of them are read. -/
def clauseHolds (clause : List ℓ) : ExceptT Error m Bool := do
  return (← values clause).any id

/-- Whether the model found last makes every recorded clause and every assumption true. -/
def modelHolds (assumptions : List ℓ) : ExceptT Error m Bool := do
  let s ← getThe (Solver ℓ)
  let clauses ← s.clauses.toList.mapM clauseHolds
  let assumed ← values assumptions
  return clauses.all id && assumed.all id

end Solver

end BoolTensor
