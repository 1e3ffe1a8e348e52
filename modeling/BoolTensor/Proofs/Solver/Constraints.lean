import BoolTensor.Proofs.Run
import BoolTensor.Proofs.Solver.Gates

/-!
# Variables and clauses of a solver

What allocating a variable and recording a clause do to a solver of literals.
-/

namespace BoolTensor

namespace Solver

open LiteralForm

variable {s : Solver Literal}

/-- A new variable takes the next number and needs no clause. -/
theorem run_addVariable (s : Solver Literal) :
    (addVariable : SolverM Literal Literal).run s =
      (((s.variableCount + 1 : Nat) : Int), s.grown (s.variableCount + 1) []) := by
  simp only [grown, Array.append_empty]
  rfl

/-- A clause is recorded as it is, unless a literal of it is not allocated. -/
theorem run_addClause (s : Solver Literal) (clause : Clause) :
    (addClause clause : ExceptT Error (SolverM Literal) Unit).run.run s =
      match clause.find? fun l => !l.isAllocated s.variableCount with
      | some l => (.error (.invalidClause l clause), s)
      | none => (.ok (), s.grown s.variableCount [clause]) := by
  have hconvert : clause.mapM (convert : Literal → Except Error Literal) = .ok clause := by
    have hpure := List.mapM_pure (m := Except Error) (l := clause) (f := id)
    rwa [List.map_id] at hpure
  rw [addClause, run_bind_of_ok (run_getThe s), hconvert,
    run_bind_of_ok (run_liftM_except (.ok clause) s)]
  cases clause.find? fun l => !l.isAllocated s.variableCount with
  | some l => rfl
  | none => simp [grown, record, ofLiteral]; rfl

theorem run_addClause_of_allocated {clause : Clause}
    (h : ∀ l ∈ clause, l.isAllocated s.variableCount = true) :
    (addClause clause : ExceptT Error (SolverM Literal) Unit).run.run s =
      (.ok (), s.grown s.variableCount [clause]) := by
  have hnone : clause.find? (fun l => !l.isAllocated s.variableCount) = none := by
    simpa using h
  rw [run_addClause, hnone]

/-- The first clause of a new solver says that variable 1 is true. -/
theorem holds_formula_new_grown {n : Nat} {clauses : Formula} (σ : Assignment) :
    (new.grown n clauses).formula.holds σ = true ↔ σ 1 = true ∧ clauses.holds σ = true := by
  have hfirst : (new : Solver Literal).formula = [[1]] := rfl
  rw [formula_grown, hfirst, Formula.holds_append]
  simp

end Solver

end BoolTensor
