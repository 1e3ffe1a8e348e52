/-!
# Clauses

Literals are integers: variable `k` is the literal `k`, its negation `-k`. A clause is a list of
literals one of which must be true, and a formula a list of clauses.

## Main definitions

* `Literal`, `Clause`, `Formula`, and `Assignment` of truth values to variables
* `Literal.holds`, `Clause.holds`, `Formula.holds`: truth under an assignment
* `Formula.Satisfiable`: truth under some assignment
* `Literal.isAllocated`: whether a literal names one of the first variables
-/

namespace BoolTensor

/-- A variable, or the negation of one. -/
abbrev Literal := Int

/-- Literals one of which must be true. -/
abbrev Clause := List Literal

/-- Clauses each of which must be true. -/
abbrev Formula := List Clause

/-- A truth value for each variable. -/
abbrev Assignment := Nat → Bool

def Literal.holds (assignment : Assignment) (literal : Literal) : Bool :=
  if literal < 0 then !assignment literal.natAbs else assignment literal.natAbs

/-- Whether some literal of a clause is true. -/
def Clause.holds (assignment : Assignment) (clause : Clause) : Bool :=
  clause.any (Literal.holds assignment)

/-- Whether every clause of a formula is true. -/
def Formula.holds (assignment : Assignment) (formula : Formula) : Bool :=
  formula.all (Clause.holds assignment)

/-- Some assignment makes the formula true. -/
def Formula.Satisfiable (formula : Formula) : Prop :=
  ∃ assignment, formula.holds assignment = true

/-- Whether a literal names one of the first variables. -/
def Literal.isAllocated (variableCount : Nat) (literal : Literal) : Bool :=
  literal != 0 && literal.natAbs ≤ variableCount

end BoolTensor
