import BoolTensor.Proofs.Circuit.CellCount
import BoolTensor.Solver.Basic

/-!
# Solvers refuse nothing for a number of elements

What a solver refuses is a value that stands for no literal, or a model that is not there or that
was not found out about: where these refusals have a property, all of the solver's do. So where
tensors are built from its variables and read from its models, the check that makes a vector a tensor
is not heard from.

## Main definitions

* `LiteralForm.Uncounted`: the refusals of values are none for a number of elements
* `LiteralForm.RefusedWith`: the refusals of values and of solvers have one property
-/

namespace BoolTensor

open MonadAttach

/-- No value is refused for a number of elements. -/
structure LiteralForm.Uncounted (ℓ : Type) [LiteralForm ℓ] : Prop where
  exceeds : ∀ (elem : ℓ) (count : Nat),
    Meets (fun _ => True) Error.Uncounted (LiteralForm.exceeds elem count)
  checkPlace : ∀ elem : ℓ, Meets (fun _ => True) Error.Uncounted (LiteralForm.checkPlace elem)
  convert : ∀ elem : ℓ, Meets (fun _ => True) Error.Uncounted (LiteralForm.convert elem)

theorem uncounted_literal : LiteralForm.Uncounted Literal :=
  ⟨fun _ _ => trivial, fun _ => trivial, fun _ => trivial⟩

theorem uncounted_cell : LiteralForm.Uncounted Cell := by
  have hmagnitude (cell : Cell) : Meets (fun _ => True) Error.Uncounted cell.magnitude := by
    rw [Cell.magnitude.eq_def]
    split
    · trivial
    · split
      · trivial
      · exact trivial
  refine ⟨fun cell _ => (hmagnitude cell).bind fun _ _ => trivial, fun cell => ?_, fun cell => ?_⟩
  · change Meets _ _ cell.checkPlace
    rw [Cell.checkPlace]
    split
    · trivial
    · exact trivial
  · change Meets _ _ cell.toInteger
    rw [Cell.toInteger.eq_def]
    split
    · exact trivial
    · trivial
    · trivial
    · exact trivial
    · exact trivial
    · trivial
    · rw [Cell.textToInteger]
      split
      · trivial
      · exact trivial
      · exact trivial

/-- What values are refused with, and what solvers of them refuse, has one property. -/
structure LiteralForm.RefusedWith (ℓ : Type) [LiteralForm ℓ] (E : Error → Prop) : Prop where
  exceeds : ∀ (elem : ℓ) (count : Nat), Meets (fun _ => True) E (LiteralForm.exceeds elem count)
  checkPlace : ∀ elem : ℓ, Meets (fun _ => True) E (LiteralForm.checkPlace elem)
  convert : ∀ elem : ℓ, Meets (fun _ => True) E (LiteralForm.convert elem)
  invalidLiteral : ∀ cell, E (.invalidLiteral cell)
  createdAfterSolve : ∀ cell, E (.createdAfterSolve cell)
  invalidClause : ∀ l clause, E (.invalidClause l clause)
  gaveUp : ∀ reason, E (.gaveUp reason)
  noModel : E .noModel

namespace LiteralForm.RefusedWith

variable {ℓ : Type} [LiteralForm ℓ] {E : Error → Prop} (hℓ : LiteralForm.RefusedWith ℓ E)
include hℓ

/-! ### Single values -/

theorem meets_checkAllocated (count : Nat) (elem : ℓ) :
    Meets (fun _ => True) E (checkAllocated count elem) := by
  refine (hℓ.exceeds elem count).bind fun above _ => ?_
  split_ifs
  · exact hℓ.invalidLiteral _
  · trivial

theorem meets_locate (count : Nat) (elem : ℓ) :
    Meets (fun _ => True) E (Solver.locate count elem) :=
  (hℓ.meets_checkAllocated count elem).bind fun _ _ => hℓ.checkPlace elem

theorem meets_assumed (count : Nat) (elem : ℓ) :
    Meets (fun _ => True) E (Solver.assumed count elem) := by
  refine (hℓ.convert elem).bind fun l _ => ?_
  rw [checkAllocated_literal]
  split_ifs
  · trivial
  · exact hℓ.invalidLiteral _

theorem meets_valueIn (model : Model) (count : Nat) (elem : ℓ) :
    Meets (fun _ => True) E (Solver.valueIn model count elem) := by
  refine (hℓ.meets_checkAllocated count elem).bind fun _ _ => ?_
  refine (hℓ.exceeds elem model.variableCount).bind fun above _ => ?_
  refine .guard (hℓ.createdAfterSolve _) fun _ => ?_
  exact (hℓ.checkPlace elem).bind fun _ _ => trivial

/-! ### Clauses and models -/

theorem meets_submit (s : Solver ℓ) : Meets (fun _ => True) E s.submit.1 := by
  have hhanded (held : Array Clause) (clauses : List (List ℓ)) :
      Meets (fun _ => True) E (Solver.handOver s.variableCount held clauses).1 := by
    induction clauses generalizing held with
    | nil => trivial
    | cons clause clauses ih =>
      have hclause : Meets (fun _ => True) E (clause.forM (Solver.locate s.variableCount)) :=
        .forM fun elem _ => hℓ.meets_locate s.variableCount elem
      rw [Solver.handOver]
      split
      · rename_i e he
        exact he ▸ hclause
      · exact ih _
  have hsubmitted := hhanded s.held (s.clauses.toList.drop s.submitted)
  rw [Solver.submit]
  split
  · rename_i he
    rw [he] at hsubmitted
    exact hsubmitted
  · trivial

theorem meets_answer (verdict : Verdict) : Meets (fun _ => True) E verdict.answer := by
  cases verdict with
  | unknown reason => exact hℓ.gaveUp reason
  | _ => trivial

variable {m : Type → Type} [Monad m] [LawfulMonad m] [MonadAttach m] [LawfulMonadAttach m]
  [MonadStateOf (Solver ℓ) m]

theorem ends_addClause (clause : List ℓ) :
    Ends (Solver.addClause clause : ExceptT Error m Unit) (fun _ => True) E := by
  refine Ends.lift_any.bind fun s _ => ?_
  refine (Ends.of_meets (.mapM fun elem _ => hℓ.convert elem)).bind fun literals _ => ?_
  split
  · exact .throw (hℓ.invalidClause _ _)
  · exact .lift_any

theorem ends_findModel (engine : Engine) (assumptions : List ℓ) :
    Ends (Solver.findModel engine assumptions : ExceptT Error m Bool) (fun _ => True) E := by
  refine Ends.lift_any.bind fun s _ => Ends.lift_any.bind fun _ _ => ?_
  refine (Ends.of_meets (hℓ.meets_submit s)).bind fun _ _ => ?_
  refine (Ends.of_meets (.mapM fun elem _ => hℓ.meets_assumed _ elem)).bind fun literals _ => ?_
  exact Ends.lift_any.bind fun _ _ => .of_meets (hℓ.meets_answer _)

theorem ends_value (elem : ℓ) :
    Ends (Solver.value elem : ExceptT Error m Bool) (fun _ => True) E := by
  refine Ends.lift_any.bind fun s _ => ?_
  split
  · exact .throw hℓ.noModel
  · exact .of_meets (hℓ.meets_valueIn _ _ elem)

/-- What the algebra of a solver refuses a clause, a solve or a value with has the property. -/
theorem of_refuses [SignedForm m ℓ] {engine : Engine} {e : Error}
    (h : (Solver.algebra engine : SatAlgebra m ℓ).Refuses e) : E e := by
  cases h with
  | addClause h => exact hℓ.ends_addClause _ _ h
  | findModel h => exact hℓ.ends_findModel engine _ _ h
  | value h => exact hℓ.ends_value _ _ h

end LiteralForm.RefusedWith

/-- The refusals of solvers themselves are none for a number of elements either. -/
theorem LiteralForm.Uncounted.refusedWith {ℓ : Type} [LiteralForm ℓ]
    (hℓ : LiteralForm.Uncounted ℓ) : LiteralForm.RefusedWith ℓ Error.Uncounted :=
  { hℓ with
    invalidLiteral := fun _ => trivial
    createdAfterSolve := fun _ => trivial
    invalidClause := fun _ _ => trivial
    gaveUp := fun _ => trivial
    noModel := trivial }

end BoolTensor
