import BoolTensor.Proofs.Cnf.Search
import BoolTensor.Proofs.Solver.Solving

/-!
# Histories of a solver

A solver is used for any operations one after the other, refused ones among them: gates on integers
that are no literals yet, and solves that stop while clauses are handed over. After each of these
histories a solve answers whether all recorded clauses and its own assumptions can be true together,
and gives a model of them.

## Main definitions

* `SolverStep`: the operations
* `Solver.after`: the solver after a history of operations
* `SolverStep.Alike`: operations that are the same, or solves with any assumptions
* `Solver.SameRecord`: two solvers with the same variables and clauses
* `Solver.Rooted`: variable 1 is there, and recorded to be true
-/

namespace BoolTensor

/-- An operation on a solver of literals. -/
inductive SolverStep where
  /-- A new variable. -/
  | addVariable
  /-- A gate. -/
  | gate (step : GateStep Literal)
  /-- One of the literals must be true. -/
  | addClause (clause : Clause)
  /-- Whether there is a model in which the assumptions are true. -/
  | findModel (assumptions : List Literal)
  /-- The value of a literal in the model found last. -/
  | value (l : Literal)
  deriving Repr

namespace SolverStep

/-- The operation, without what it gives back. -/
def run (engine : Engine) : SolverStep → ExceptT Error (SolverM Literal) Unit
  | addVariable => do let _ ← (literalAlgebra engine).addVariable
  | gate step => do let _ ← liftM (step.run (literalAlgebra engine).toBoolAlgebra)
  | addClause clause => (literalAlgebra engine).addClause clause
  | findModel assumptions => do let _ ← (literalAlgebra engine).findModel assumptions
  | value l => do let _ ← (literalAlgebra engine).value l

/-- The solver after an operation, whether it was refused or not. -/
def next (engine : Engine) (step : SolverStep) (s : Solver Literal) : Solver Literal :=
  ((step.run engine).run.run s).2

/-- The operations are the same, or both of them are solves. -/
def Alike : SolverStep → SolverStep → Prop
  | findModel _, findModel _ => True
  | step, step' => step = step'

end SolverStep

namespace Solver

/-- The solver after a history of operations, each with the engine that it is given. -/
def after (s : Solver Literal) (history : List (Engine × SolverStep)) : Solver Literal :=
  history.foldl (fun s call => call.2.next call.1 s) s

/-- The solvers have the same variables and clauses. -/
structure SameRecord (s t : Solver Literal) : Prop where
  variableCount : s.variableCount = t.variableCount
  clauses : s.clauses = t.clauses

namespace SameRecord

variable {s t : Solver Literal}

theorem refl (s : Solver Literal) : SameRecord s s := ⟨rfl, rfl⟩

theorem symm (h : SameRecord s t) : SameRecord t s := ⟨h.variableCount.symm, h.clauses.symm⟩

theorem trans {u : Solver Literal} (h : SameRecord s t) (h' : SameRecord t u) : SameRecord s u :=
  ⟨h.variableCount.trans h'.variableCount, h.clauses.trans h'.clauses⟩

theorem formula (h : SameRecord s t) : s.formula = t.formula := by
  rw [formula_eq, formula_eq, h.clauses]

theorem grown (h : SameRecord s t) (n : Nat) (clauses : Formula) :
    SameRecord (s.grown n clauses) (t.grown n clauses) :=
  ⟨rfl, congrArg (· ++ clauses.toArray) h.clauses⟩

end SameRecord

end Solver

namespace SolverStep

open Solver

variable {s t : Solver Literal}

/-! ### One operation -/

theorem next_addVariable (engine : Engine) (s : Solver Literal) :
    addVariable.next engine s = s.grown (s.variableCount + 1) [] :=
  congrArg Prod.snd (run_addVariable s)

theorem next_gate (engine : Engine) (step : GateStep Literal) (s : Solver Literal) :
    (gate step).next engine s = ((step.run (literalAlgebra engine).toBoolAlgebra).run s).2 := rfl

theorem next_addClause (engine : Engine) (clause : Clause) (s : Solver Literal) :
    (addClause clause).next engine s =
      match clause.find? fun l => !l.isAllocated s.variableCount with
      | some _ => s
      | none => s.grown s.variableCount [clause] := by
  have hrun := congrArg Prod.snd (run_addClause s clause)
  refine Eq.trans hrun ?_
  cases clause.find? fun l => !l.isAllocated s.variableCount <;> rfl

theorem next_value (engine : Engine) (l : Literal) (s : Solver Literal) :
    (value l).next engine s = s :=
  (run_bind_pure_snd _ _ s).trans (congrArg Prod.snd (run_value_eq s l))

theorem next_findModel_eq (engine : Engine) (assumptions : List Literal) (s : Solver Literal) :
    (findModel assumptions).next engine s =
      (((literalAlgebra engine).findModel assumptions).run.run s).2 :=
  run_bind_pure_snd _ _ s

theorem next_findModel (engine : Engine) (assumptions : List Literal) (hs : s.Handed) :
    SameRecord s ((findModel assumptions).next engine s) ∧
      ((findModel assumptions).next engine s).Handed := by
  have hsubmit : SameRecord s s.submit.2 := by
    rw [submit_eq]
    exact ⟨rfl, rfl⟩
  have hnext := (next_findModel_eq engine assumptions s).trans
    (congrArg Prod.snd (run_findModel hs engine assumptions))
  rw [hnext]
  split
  · exact ⟨hsubmit, hs.submit⟩
  · -- A model changes neither the record nor what is held.
    obtain ⟨hle, hrecorded, hallocated, hhanded⟩ := hs.submit
    exact ⟨⟨hsubmit.variableCount, hsubmit.clauses⟩, hle, hrecorded, hallocated, hhanded⟩

/-- Operations other than solves add variables and clauses at most. -/
theorem grows_next (engine : Engine) {step : SolverStep}
    (hstep : ∀ assumptions, step ≠ findModel assumptions) (s : Solver Literal) :
    s.Grows (step.next engine s) := by
  cases step with
  | addVariable =>
    rw [next_addVariable]
    exact ⟨_, [], Nat.le_succ _, rfl⟩
  | gate step => exact (OnlyAdds.run engine step).grows s
  | addClause clause =>
    rw [next_addClause]
    split
    · exact .refl s
    · exact ⟨_, [clause], le_rfl, rfl⟩
  | findModel assumptions => exact absurd rfl (hstep assumptions)
  | value l =>
    rw [next_value]
    exact .refl s

/-- Operations add variables and clauses at most, but for solves, which leave the record as it is
and the hand-over as it should be. -/
theorem grows_or_sameRecord (engine : Engine) (step : SolverStep) (hs : s.Handed) :
    s.Grows (step.next engine s) ∨
      SameRecord s (step.next engine s) ∧ (step.next engine s).Handed := by
  by_cases hstep : ∃ assumptions, step = findModel assumptions
  · obtain ⟨assumptions, rfl⟩ := hstep
    exact .inr (next_findModel engine assumptions hs)
  · exact .inl (grows_next engine (not_exists.1 hstep) s)

/-- Every operation keeps the hand-over as it should be. -/
theorem handed_next (engine : Engine) (step : SolverStep) (hs : s.Handed) :
    (step.next engine s).Handed := by
  obtain hgrows | ⟨-, hhanded⟩ := grows_or_sameRecord engine step hs
  · exact hs.grows hgrows
  · exact hhanded

/-- Operations that are alike do the same to the record. -/
theorem Alike.sameRecord_next {step step' : SolverStep} {engine engine' : Engine}
    (h : step.Alike step') (hs : s.Handed) (ht : t.Handed) (hst : SameRecord s t) :
    SameRecord (step.next engine s) (step'.next engine' t) := by
  cases step with
  | addVariable =>
    obtain rfl : addVariable = step' := h
    rw [next_addVariable, next_addVariable, hst.variableCount]
    exact hst.grown _ _
  | gate step =>
    obtain rfl : gate step = step' := h
    obtain ⟨value, n, clauses, -, hrun⟩ := OnlyAdds.run engine step s.variableCount
    have hs' : (gate step).next engine s = s.grown n clauses := by
      rw [next_gate, hrun s rfl]
    have ht' : (gate step).next engine' t = t.grown n clauses :=
      congrArg Prod.snd (hrun t hst.variableCount.symm)
    rw [hs', ht']
    exact hst.grown n clauses
  | addClause clause =>
    obtain rfl : addClause clause = step' := h
    rw [next_addClause, next_addClause, hst.variableCount]
    split
    · exact hst
    · exact hst.grown _ _
  | findModel assumptions =>
    -- The other solve may have other assumptions, and nothing of these is recorded.
    have hsolve : ∃ assumptions', step' = findModel assumptions' := by
      cases step' with
      | findModel assumptions' => exact ⟨_, rfl⟩
      | _ => cases h
    obtain ⟨assumptions', rfl⟩ := hsolve
    exact (next_findModel engine assumptions hs).1.symm.trans
      (hst.trans (next_findModel engine' assumptions' ht).1)
  | value l =>
    obtain rfl : value l = step' := h
    rwa [next_value, next_value]

end SolverStep

namespace Solver

/-! ### Histories -/

variable {s t : Solver Literal}

theorem Handed.after (hs : s.Handed) (history : List (Engine × SolverStep)) :
    (s.after history).Handed := by
  induction history generalizing s with
  | nil => exact hs
  | cons call history ih => exact ih (call.2.handed_next call.1 hs)

theorem SameRecord.after {history others : List (Engine × SolverStep)}
    (h : history.Forall₂ (fun call other => call.2.Alike other.2) others) (hs : s.Handed)
    (ht : t.Handed) (hst : SameRecord s t) : SameRecord (s.after history) (t.after others) := by
  induction h generalizing s t with
  | nil => exact hst
  | cons hcall _ ih =>
    exact ih (SolverStep.handed_next _ _ hs) (SolverStep.handed_next _ _ ht)
      (hcall.sameRecord_next hs ht hst)

/-! ### The first clause -/

/-- Variable 1 is there, and recorded to be true. -/
structure Rooted (s : Solver Literal) : Prop where
  pos : 1 ≤ s.variableCount
  top : [1] ∈ s.formula

namespace Rooted

theorem new : Rooted new := ⟨le_rfl, List.mem_singleton.2 rfl⟩

theorem grows (hs : s.Rooted) (h : s.Grows t) : t.Rooted := by
  obtain ⟨n, clauses, hle, rfl⟩ := h
  refine ⟨hs.pos.trans hle, ?_⟩
  rw [formula_grown]
  exact List.mem_append_left _ hs.top

theorem of_sameRecord (hs : s.Rooted) (h : SameRecord s t) : t.Rooted :=
  ⟨hs.pos.trans_eq h.variableCount, h.formula ▸ hs.top⟩

theorem next (hs : s.Rooted) (hhanded : s.Handed) (engine : Engine) (step : SolverStep) :
    (step.next engine s).Rooted := by
  obtain hgrows | ⟨hsame, -⟩ := SolverStep.grows_or_sameRecord engine step hhanded
  · exact hs.grows hgrows
  · exact hs.of_sameRecord hsame

/-- After any operations variable 1 is recorded to be true. -/
theorem after (hs : s.Rooted) (hhanded : s.Handed) (history : List (Engine × SolverStep)) :
    (s.after history).Rooted := by
  induction history generalizing s with
  | nil => exact hs
  | cons call history ih =>
    exact ih (hs.next hhanded call.1 call.2) (SolverStep.handed_next call.1 call.2 hhanded)

theorem holds_top (hs : s.Rooted) (hσ : s.formula.holds σ = true) : σ 1 = true := by
  simpa using Formula.holds_iff.1 hσ _ hs.top

end Rooted

/-! ### Solves -/

/-- What the engine is asked is true just where the recorded clauses and the assumptions are. -/
theorem Handed.holds_asked (hs : s.Handed) (hallocated : s.formula.Allocated s.variableCount)
    (assumptions : List Literal) (σ : Assignment) :
    Formula.holds σ (s.submit.2.held.toList ++ Formula.units assumptions) = true ↔
      Formula.holds σ (s.formula ++ Formula.units assumptions) = true := by
  rw [Formula.holds_append, Formula.holds_append, hs.holds_held_submit hallocated]

theorem Handed.satisfiable_asked (hs : s.Handed)
    (hallocated : s.formula.Allocated s.variableCount) (assumptions : List Literal) :
    Formula.Satisfiable (s.submit.2.held.toList ++ Formula.units assumptions) ↔
      (s.formula ++ Formula.units assumptions).Satisfiable :=
  exists_congr (hs.holds_asked hallocated assumptions)

/-- What a solve answers or refuses depends on the recorded clauses and its own assumptions only. -/
theorem SameRecord.findModel_fst (hst : SameRecord s t) (hs : s.Handed) (ht : t.Handed)
    {engine engine' : Engine} (hengine : engine.Correct) (hengine' : engine'.Correct)
    (assumptions : List Literal) :
    (((literalAlgebra engine).findModel assumptions).run.run s).1 =
      (((literalAlgebra engine').findModel assumptions).run.run t).1 := by
  refine (congrArg Prod.fst (run_findModel hs engine assumptions)).trans
    (Eq.trans ?_ (congrArg Prod.fst (run_findModel ht engine' assumptions)).symm)
  rw [← hst.variableCount, ← hst.formula]
  cases hlocate : Formula.locate s.variableCount (s.formula ++ Formula.units assumptions) with
  | error e => rfl
  | ok value =>
    have hallocated : s.formula.Allocated s.variableCount := fun c hc =>
      Formula.locate_eq_ok.1 hlocate c (List.mem_append_left _ hc)
    have hallocated' : t.formula.Allocated t.variableCount := by
      rwa [← hst.variableCount, ← hst.formula]
    obtain ⟨answer, hanswer⟩ := hengine.decides.exists_answer
      (s.submit.2.held.toList ++ Formula.units assumptions)
    obtain ⟨answer', hanswer'⟩ := hengine'.decides.exists_answer
      (t.submit.2.held.toList ++ Formula.units assumptions)
    refine hanswer.trans (Eq.trans (congrArg Except.ok (Bool.eq_iff_iff.2 ?_)) hanswer'.symm)
    rw [hengine.answer_eq_true_iff hanswer, hengine'.answer_eq_true_iff hanswer',
      hs.satisfiable_asked hallocated, ht.satisfiable_asked hallocated', hst.formula]

/-- A solve that answers leaves the model that the engine gives, if it gives one. -/
theorem Handed.findModel_ok (hs : s.Handed) {engine : Engine} {assumptions : List Literal}
    {answer : Bool}
    (hrun : ((literalAlgebra engine).findModel assumptions).run.run s = (.ok answer, t)) :
    Formula.Allocated s.variableCount (s.formula ++ Formula.units assumptions) ∧
      ∃ verdict : Verdict,
        engine.solve (s.submit.2.held.toList ++ Formula.units assumptions) = verdict ∧
        verdict.answer = .ok answer ∧ t.variableCount = s.variableCount ∧
        t.model = verdict.assignment?.map fun σ => ⟨s.variableCount, σ⟩ := by
  have hfind := (run_findModel hs engine assumptions).symm.trans hrun
  cases hlocate : Formula.locate s.variableCount (s.formula ++ Formula.units assumptions) with
  | error e =>
    rw [hlocate] at hfind
    exact absurd (congrArg Prod.fst hfind) (by simp)
  | ok value =>
    rw [hlocate] at hfind
    obtain ⟨hanswer, rfl⟩ := Prod.mk.inj hfind
    have hcount : s.submit.2.variableCount = s.variableCount := by
      rw [submit_eq]
    exact ⟨Formula.locate_eq_ok.1 hlocate, _, rfl, hanswer, hcount, rfl⟩

/-- Whatever was done to a solver before, also where operations were refused, a solve with a right
engine that is not refused answers whether all recorded clauses and its own assumptions can be true
together. If they can, the values that are read afterwards make all of them true, and if not, there
is no model afterwards. Engines and assumptions of earlier solves do not matter. -/
theorem findModel_iff_satisfiable (history : List (Engine × SolverStep)) {engine : Engine}
    (hengine : engine.Correct) (assumptions : List Literal) :
    (∀ answer t, ((literalAlgebra engine).findModel assumptions).run.run (new.after history) =
        (.ok answer, t) →
      (answer = true ↔
        ((new.after history).formula ++ Formula.units assumptions).Satisfiable) ∧
      (answer = true → ∃ σ : Assignment,
        (∀ v : Nat, 1 ≤ v → v ≤ (new.after history).variableCount →
          ((literalAlgebra engine).value (v : Int)).run.run t = (.ok (σ v), t)) ∧
        ∀ τ : Assignment, σ.AgreeUpTo (new.after history).variableCount τ →
          (new.after history).formula.holds τ = true ∧
            ∀ l ∈ assumptions, Literal.holds τ l = true) ∧
      (answer = false → t.hasModel = false)) ∧
    ∀ others, history.Forall₂ (fun call other => call.2.Alike other.2) others →
      ∀ engine' : Engine, engine'.Correct →
        (((literalAlgebra engine).findModel assumptions).run.run (new.after history)).1 =
          (((literalAlgebra engine').findModel assumptions).run.run (new.after others)).1 := by
  have hs := Handed.new.after history
  refine ⟨fun answer t hrun => ?_, fun others hothers engine' hengine' => ?_⟩
  · generalize new.after history = s at hs hrun ⊢
    obtain ⟨hasked, verdict, rfl, hanswer, hcount, hmodel⟩ := hs.findModel_ok hrun
    have hallocated : s.formula.Allocated s.variableCount := fun c hc =>
      hasked c (List.mem_append_left _ hc)
    refine ⟨?_, ?_, ?_⟩
    · rw [hengine.answer_eq_true_iff hanswer]
      exact hs.satisfiable_asked hallocated assumptions
    · rintro rfl
      obtain ⟨σ, hfound⟩ := Verdict.answer_eq_true_iff.1 hanswer
      rw [hfound] at hmodel
      refine ⟨σ, fun v hpos hle => ?_, fun τ hτ => ?_⟩
      · rw [← Literal.holds_natCast σ v]
        exact run_value hmodel (Literal.isAllocated_natCast hpos hle) hcount.ge
      · have hσ := (hs.holds_asked hallocated assumptions σ).1 (hengine.sound _ _ hfound)
        rw [hasked.holds_congr hτ, Formula.holds_append, Formula.holds_units] at hσ
        exact hσ
    · rintro rfl
      rw [hasModel, hmodel, Verdict.answer_eq_false_iff.1 hanswer]
      rfl
  · have hsame : SameRecord (new.after history) (new.after others) :=
      SameRecord.after hothers .new .new (.refl new)
    exact hsame.findModel_fst hs (Handed.new.after others) hengine hengine' assumptions

/-- Solves after one that is refused part-way, with clauses that are handed over twice, and the same
solve where the earlier ones assumed something else. -/
theorem findModel_after_refused_solve :
    let calls := fun assumptions => [.gate (.gate .or 5 6), .findModel [], .addVariable, .addVariable,
      .addVariable, .addVariable, .addClause [-5], .findModel assumptions].map
        fun step : SolverStep => (searchEngine, step)
    searchEngine.Correct ∧
      ((new.after (calls [6])).formula ++ Formula.units [2]).Satisfiable ∧
      ¬((new.after (calls [6])).formula ++ Formula.units [6, -2]).Satisfiable ∧
      List.Forall₂ (fun call other => call.2.Alike other.2) (calls [6]) (calls [5, 2]) ∧
      (((literalAlgebra searchEngine).findModel [2]).run.run (new.after (calls [5, 2]))).1 =
        .ok true := by
  intro calls
  have hspec := fun assumptions =>
    findModel_iff_satisfiable (calls [6]) searchEngine_correct assumptions
  have hrun : (((literalAlgebra searchEngine).findModel [2]).run.run (new.after (calls [6]))).1 =
      .ok true := by decide +kernel
  have hrun' : (((literalAlgebra searchEngine).findModel [6, -2]).run.run
      (new.after (calls [6]))).1 = .ok false := by decide +kernel
  have halike : List.Forall₂ (fun call other => call.2.Alike other.2) (calls [6])
      (calls [5, 2]) := by
    simp [calls, SolverStep.Alike]
  refine ⟨searchEngine_correct, ?_, ?_, halike, ?_⟩
  · exact ((hspec [2]).1 true _ (Prod.ext hrun rfl)).1.1 rfl
  · exact fun h => Bool.false_ne_true (((hspec [6, -2]).1 false _ (Prod.ext hrun' rfl)).1.2 h)
  · exact ((hspec [2]).2 _ halike searchEngine searchEngine_correct).symm.trans hrun

end Solver

end BoolTensor
