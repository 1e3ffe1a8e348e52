import BoolTensor.Circuit.Constraint
import BoolTensor.Proofs.Solver.Growth

/-!
# Circuits on tensors only add to a solver

Circuits on tensors and clauses of tensors are refused or not for what they are given and for the
number of variables, and add the same to all solvers with so many of these. None of this needs
allocated literals.
-/

namespace BoolTensor

namespace Solver

namespace OnlyAdds

variable {β γ : Type}

/-! ### Computations that can be refused -/

theorem bind_except {x : ExceptT Error (SolverM Literal) β}
    {f : β → ExceptT Error (SolverM Literal) γ} (hx : OnlyAdds x.run)
    (hf : ∀ value, OnlyAdds (f value).run) : OnlyAdds (x >>= f).run := by
  rw [ExceptT.run_bind]
  refine hx.bind fun result => ?_
  cases result with
  | ok value => exact hf value
  | error e => exact pure _

theorem lift {x : SolverM Literal β} (hx : OnlyAdds x) :
    OnlyAdds (liftM x : ExceptT Error (SolverM Literal) β).run := by
  have hlift : (liftM x : ExceptT Error (SolverM Literal) β).run =
      x >>= fun value => Pure.pure (.ok value) := by
    rw [bind_pure_comp]
    rfl
  rw [hlift]
  exact hx.bind fun _ => pure _

/-- Checks do nothing to the solver. -/
theorem of_except (x : Except Error β) :
    OnlyAdds (liftM x : ExceptT Error (SolverM Literal) β).run :=
  pure x

theorem mapM {f : β → SolverM Literal γ} (hf : ∀ value, OnlyAdds (f value)) (values : List β) :
    OnlyAdds (values.mapM f) := by
  induction values with
  | nil => exact pure []
  | cons value values ih =>
    rw [List.mapM_cons]
    exact (hf value).bind fun _ => ih.bind fun _ => pure _

theorem mapM_except {f : β → ExceptT Error (SolverM Literal) γ}
    (hf : ∀ value, OnlyAdds (f value).run) (values : List β) :
    OnlyAdds (values.mapM f).run := by
  induction values with
  | nil => exact pure (Except.ok [])
  | cons value values ih =>
    rw [List.mapM_cons]
    exact (hf value).bind_except fun _ => ih.bind_except fun _ => pure _

theorem forM_except {f : β → ExceptT Error (SolverM Literal) PUnit}
    (hf : ∀ value, OnlyAdds (f value).run) (values : List β) :
    OnlyAdds (values.forM f).run := by
  induction values with
  | nil => exact pure (Except.ok PUnit.unit)
  | cons value values ih => exact (hf value).bind_except fun _ => ih

/-! ### Circuits on tensors -/

variable (engine : Engine)

theorem addClause (clause : Clause) :
    OnlyAdds ((literalAlgebra engine).addClause clause).run := by
  intro k
  cases hfound : clause.find? fun l => !l.isAllocated k with
  | some l =>
    refine ⟨.error (.invalidClause l clause), k, [], le_rfl, ?_⟩
    rintro s rfl
    refine (run_addClause s clause).trans ?_
    rw [hfound, grown_self]
  | none =>
    refine ⟨.ok (), k, [clause], le_rfl, ?_⟩
    rintro s rfl
    refine (run_addClause s clause).trans ?_
    rw [hfound]

theorem tensorNot (t : Tensor Literal) : OnlyAdds ((literalAlgebra engine).tensorNot t).run :=
  (mapM (fun a => pure (-a)) t.elems.toList).lift.bind_except fun _ => of_except _

theorem tensorReduce (reduction : Reduction) (t : Tensor Literal) :
    OnlyAdds ((literalAlgebra engine).tensorReduce reduction t).run := by
  refine (of_except t.shape.splitFirst).bind_except fun (head, rest) => ?_
  have hcell (i : Nat) : OnlyAdds (do
      (literalAlgebra engine).reduce reduction (← liftM (BoolAlgebra.firstAxisBlock t head i)) :
        ExceptT Error (SolverM Literal) Literal).run :=
    (of_except _).bind_except fun block => (reduce reduction block).lift
  exact (mapM_except hcell _).bind_except fun _ => of_except _

theorem countedDiagonal (dim : Nat) :
    OnlyAdds ((literalAlgebra engine).countedDiagonal dim).run :=
  (pure _).lift.bind_except fun _ => (pure _).lift.bind_except fun _ => pure _

theorem tensorClauses (tensors : List (Tensor Literal)) :
    OnlyAdds ((literalAlgebra engine).tensorClauses tensors).run := by
  cases tensors with
  | nil => exact addClause engine []
  | cons first others =>
    rw [SatAlgebra.tensorClauses]
    cases others.find? fun tensor => tensor.shape ≠ first.shape with
    | some other => exact pure _
    | none => exact forM_except (addClause engine) _

end OnlyAdds

end Solver

end BoolTensor
