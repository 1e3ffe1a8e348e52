import BoolTensor.Circuit.Constraint
import BoolTensor.Program.Circuit

/-!
# Instructions of constraints

What a program can ask of an algebra with variables and clauses, besides its circuits.

## Main definitions

* `ConstraintStep`, `ConstraintStep.run`: variables, clauses, solving and reading a model, for
  elements and for tensors
* `Instruction`, `Instruction.run`: a gate, a circuit or a constraint
-/

namespace BoolTensor

/-- An operation on the variables, clauses and models of an algebra. -/
inductive ConstraintStep (α : Type) where
  | addVariable
  | addClause (clause : List α)
  /-- Whether there is a model in which the assumptions are true. -/
  | findModel (assumptions : List α)
  /-- The value of an element in the model found last. -/
  | value (elem : α)
  | tensorVariables (dims : List Int)
  /-- At every coordinate one of the tensors must be true. -/
  | tensorClauses (tensors : List Nat)
  | tensorValues (t : Nat)
  deriving Repr

/-- One instruction of a program over an algebra with variables and clauses. -/
inductive Instruction (α : Type) where
  | gate (step : GateStep α)
  | circuit (step : CircuitStep α)
  | constrain (step : ConstraintStep α)
  deriving Repr

variable {m : Type → Type} [Monad m] {α : Type} [Element α]

/-- What an operation does; where it fails the registers stay as they are. -/
def ConstraintStep.run (alg : SatAlgebra m α) (step : ConstraintStep α) (r : Registers α) :
    ExceptT Error m (Outcome α × Registers α) :=
  match step with
  | addVariable => do return (.element (← alg.addVariable), r)
  | addClause clause => do
    alg.addClause clause
    return (.nothing, r)
  | findModel assumptions => do return (.truth (← alg.findModel assumptions), r)
  | value elem => do return (.truth (← alg.value elem), r)
  | tensorVariables dims => do
    return r.addTensor (← alg.tensorVariables (← liftM (Shape.ofInts dims)))
  | tensorClauses tensors => do
    alg.tensorClauses (tensors.map r.tensor)
    return (.nothing, r)
  | tensorValues t => do return r.addTensor (← alg.tensorValues (r.tensor t))

/-- What an instruction does; where it fails the registers stay as they are. -/
def Instruction.run (alg : SatAlgebra m α) (instruction : Instruction α) (r : Registers α) :
    ExceptT Error m (Outcome α × Registers α) :=
  match instruction with
  | gate step => do return (.element (← liftM (step.run alg.toBoolAlgebra)), r)
  | circuit step => step.run alg.toBoolAlgebra alg.toBoolAlgebra.tensorGates r
  | constrain step => step.run alg r

end BoolTensor
