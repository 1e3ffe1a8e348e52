import BoolTensor.Program.Circuit

/-!
# Netlists

Straight-line programs of variables, gates and clauses on single elements. An operand is a constant
or an earlier value, possibly negated, so the same netlist can be run over any algebra that has
variables and clauses.

## Main definitions

* `Wire`: an operand
* `Netlist`, `Netlist.WellFormed`: the lines of a program, and that they look back only
* `Netlist.run`: the values of all lines over an algebra
-/

namespace BoolTensor

/-- An operand: the true constant or an earlier value, possibly negated. -/
structure Wire where
  /-- The place of the value among those so far; none for the constant. -/
  source : Option Nat
  /-- Whether the operand is the negation of that. -/
  negated : Bool
  deriving DecidableEq, Repr

/-- A line of a netlist. -/
inductive NetlistStep where
  | addVariable
  | gate (step : GateStep Wire)
  | addClause (wires : List Wire)
  deriving Repr

/-- Lines that are run in order. Variables and gates give one value each. -/
abbrev Netlist := List NetlistStep

/-- The operand refers to one of the first `count` values. -/
def Wire.Below (count : Nat) (wire : Wire) : Prop :=
  ∀ place, wire.source = some place → place < count

namespace NetlistStep

def wires : NetlistStep → List Wire
  | addVariable => []
  | gate step => step.operands
  | addClause wires => wires

def width : NetlistStep → Nat
  | addVariable => 1
  | gate _ => 1
  | addClause _ => 0

def isClause : NetlistStep → Bool
  | addClause _ => true
  | _ => false

end NetlistStep

namespace Netlist

/-- Operands refer to values of earlier lines, where there are `count` values before the first
line. -/
def WellFormed (count : Nat) : Netlist → Prop
  | [] => True
  | line :: lines =>
    (∀ wire ∈ line.wires, wire.Below count) ∧ WellFormed (count + line.width) lines

/-- The lines without those that demand clauses. -/
def circuit (netlist : Netlist) : Netlist :=
  netlist.filter (!·.isClause)

end Netlist

variable {m : Type → Type} [Monad m] {α : Type}

/-- The value of an operand, given the values so far. -/
def Wire.value (alg : BoolAlgebra m α) (values : List α) (wire : Wire) : m α := do
  let source ← match wire.source.bind (values[·]?) with
    | some value => pure value
    | none => alg.unit
  if wire.negated then alg.neg source else return source

/-- The values so far with those of a line. -/
def NetlistStep.run (alg : SatAlgebra m α) (values : List α) :
    NetlistStep → ExceptT Error m (List α)
  | addVariable => do return values ++ [← alg.addVariable]
  | gate step => do
    let step ← liftM (step.mapM (Wire.value alg.toBoolAlgebra values))
    return values ++ [← liftM (step.run alg.toBoolAlgebra)]
  | addClause wires => do
    alg.addClause (← liftM (wires.mapM (Wire.value alg.toBoolAlgebra values)))
    return values

/-- The values of all variables and gates of a netlist. -/
def Netlist.run (alg : SatAlgebra m α) (netlist : Netlist) : ExceptT Error m (List α) :=
  netlist.foldlM (NetlistStep.run alg) []

end BoolTensor
