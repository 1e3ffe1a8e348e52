import BoolTensor.Number.Summation
import BoolTensor.Solver.Basic

/-!
# Statistics of a solver

## Main definitions

* `maxLength`: the largest of clause lengths
* `Statistics`, `Solver.statistics`, `Statistics.render`: the summary of a solver, and its line
* `statisticsLine`: the line of figures in writing
-/

namespace BoolTensor

/-- The largest of lengths; zero where there are none. -/
def maxLength (lengths : List Int) : Int :=
  lengths.max?.getD 0

structure Statistics where
  variableCount : Int
  clauseCount : Int
  meanClauseLength : Binary64
  maxClauseLength : Int
  hasModel : Bool
  deriving DecidableEq, Repr

/-- The line of a summary whose figures are given in writing. -/
def statisticsLine (variableCount clauseCount : String) (meanClauseLength : Binary64)
    (maxClauseLength : String) (hasModel : Bool) : String :=
  "Vars: " ++ variableCount
    ++ " | Clauses: " ++ clauseCount
    ++ " | Mean len: " ++ meanClauseLength.fixedTwo
    ++ " | Max len: " ++ maxClauseLength
    ++ " | Model: " ++ if hasModel then "yes" else "no"

/-- The summary in one line. -/
def Statistics.render (stats : Statistics) : String :=
  statisticsLine (toString stats.variableCount) (toString stats.clauseCount)
    stats.meanClauseLength (toString stats.maxClauseLength) stats.hasModel

def Solver.clauseLengths {ℓ : Type} (s : Solver ℓ) : List Int :=
  s.clauses.toList.map fun clause => (clause.length : Int)

def Solver.statistics {ℓ : Type} (s : Solver ℓ) : Statistics where
  variableCount := s.variableCount
  clauseCount := s.clauses.size
  meanClauseLength := .mean s.clauseLengths
  maxClauseLength := maxLength s.clauseLengths
  hasModel := s.hasModel

end BoolTensor
