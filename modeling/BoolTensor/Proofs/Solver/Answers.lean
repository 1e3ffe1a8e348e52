import BoolTensor.Proofs.Solver.Refusal

/-!
# Reading between two answers

A solve that is not refused answers, unless the engine gives up. Values are read from its model until
the next answer, whatever else is done in between: variables, gates and clauses that come later,
reads, and solves that are refused. A variable that came later has no value, and without a model, as
after a solve that was given up, nothing has.

## Main definitions

* `SolverStep.Unanswered`, `Solver.Unanswered`: operations among which no solve answers
* `Solver.Remembers`: a later solver has the same model, and all of the variables
* `Solver.Reads`: what reading gives with a model of the first variables
-/

namespace BoolTensor

/-- The operation is no solve that answers. -/
def SolverStep.Unanswered (engine : Engine) (s : Solver Literal) : SolverStep → Prop
  | findModel assumptions =>
    ∃ e, (((literalAlgebra engine).findModel assumptions).run.run s).1 = .error e
  | _ => True

namespace Solver

/-- No solve of the history answers. -/
def Unanswered (s : Solver Literal) : List (Engine × SolverStep) → Prop
  | [] => True
  | call :: later => call.2.Unanswered call.1 s ∧ (call.2.next call.1 s).Unanswered later

/-- The later solver has the same model, and all of the variables. -/
structure Remembers (s t : Solver Literal) : Prop where
  model_eq : t.model = s.model
  variableCount_le : s.variableCount ≤ t.variableCount

variable {s t u : Solver Literal} {n : Nat} {σ : Assignment}

namespace Remembers

theorem refl (s : Solver Literal) : Remembers s s := ⟨rfl, le_rfl⟩

theorem trans (h : Remembers s t) (h' : Remembers t u) : Remembers s u :=
  ⟨h'.model_eq.trans h.model_eq, h.variableCount_le.trans h'.variableCount_le⟩

end Remembers

theorem Grows.remembers (h : s.Grows t) : s.Remembers t := by
  obtain ⟨n, clauses, hle, rfl⟩ := h
  exact ⟨model_grown .., hle⟩

end Solver

open Solver

/-- A solve that does not answer leaves the model, or the engine gave up and there is none. -/
theorem Solver.Handed.model_of_error {engine : Engine} {assumptions : List Literal}
    {s t : Solver Literal} {e : Error} (hs : s.Handed)
    (hrun : ((literalAlgebra engine).findModel assumptions).run.run s = (.error e, t)) :
    t.model = s.model ∨ (∃ reason, engine.GivesUp reason) ∧ t.model = none := by
  obtain ⟨l, -, rfl⟩ | ⟨-, reason, hreason, rfl⟩ :=
    hs.findModel_eq_error.1 (congrArg Prod.fst hrun)
  · exact .inl (hs.findModel_refused hrun).2.2
  · exact .inr ⟨⟨reason, _, hreason⟩, hs.findModel_gaveUp hrun⟩

namespace SolverStep

variable {engine : Engine} {s : Solver Literal} {step : SolverStep}

/-- An operation without an answer leaves the model, or an engine gave up and there is none. -/
theorem Unanswered.model_next (h : step.Unanswered engine s) (hs : s.Handed) :
    (step.next engine s).model = s.model ∨
      (∃ reason, engine.GivesUp reason) ∧ (step.next engine s).model = none := by
  by_cases hstep : ∃ assumptions, step = findModel assumptions
  · obtain ⟨assumptions, rfl⟩ := hstep
    obtain ⟨e, he⟩ := h
    rw [next_findModel_eq]
    exact hs.model_of_error (Prod.ext he rfl)
  · exact .inl (grows_next engine (not_exists.1 hstep) s).remembers.model_eq

/-- Where the engine decides, only a solve that answers touches the model, and no operation takes
variables away. -/
theorem Unanswered.remembers (h : step.Unanswered engine s) (hengine : engine.Decides)
    (hs : s.Handed) : s.Remembers (step.next engine s) := by
  refine ⟨?_, ?_⟩
  · obtain hmodel | ⟨⟨reason, hreason⟩, -⟩ := h.model_next hs
    · exact hmodel
    · exact absurd hreason (hengine reason)
  · obtain hgrows | ⟨hsame, -⟩ := grows_or_sameRecord engine step hs
    · exact hgrows.variableCount_le
    · exact hsame.variableCount.le

/-- Without a model there is none until the next answer. -/
theorem Unanswered.model_next_eq_none (h : step.Unanswered engine s) (hs : s.Handed)
    (hmodel : s.model = none) : (step.next engine s).model = none := by
  obtain hkept | ⟨-, hnone⟩ := h.model_next hs
  · exact hkept.trans hmodel
  · exact hnone

end SolverStep

namespace Solver

variable {s t u : Solver Literal} {n : Nat} {σ : Assignment}

/-- Through operations without an answer the model stays, where all engines decide. -/
theorem Unanswered.remembers {later : List (Engine × SolverStep)} (h : s.Unanswered later)
    (hengines : ∀ call ∈ later, call.1.Decides) (hs : s.Handed) : s.Remembers (s.after later) := by
  induction later generalizing s with
  | nil => exact .refl s
  | cons call later ih =>
    rw [List.forall_mem_cons] at hengines
    exact (h.1.remembers hengines.1 hs).trans (ih h.2 hengines.2 (call.2.handed_next call.1 hs))

theorem Unanswered.model_after_eq_none {later : List (Engine × SolverStep)}
    (h : s.Unanswered later) (hs : s.Handed) (hmodel : s.model = none) :
    (s.after later).model = none := by
  induction later generalizing s with
  | nil => exact hmodel
  | cons call later ih =>
    exact ih h.2 (call.2.handed_next call.1 hs) (h.1.model_next_eq_none hs hmodel)

/-- A history without an answer, or the last solve of it that answered and what came after it. -/
theorem unanswered_or_exists_answer (s : Solver Literal) (history : List (Engine × SolverStep)) :
    s.Unanswered history ∨ ∃ before engine assumptions later answer t,
      history = before ++ (engine, .findModel assumptions) :: later ∧
      ((literalAlgebra engine).findModel assumptions).run.run (s.after before) = (.ok answer, t) ∧
      t.Unanswered later ∧ s.after history = t.after later := by
  induction history generalizing s with
  | nil => exact .inl trivial
  | cons call history ih =>
    obtain hnone | ⟨before, engine, assumptions, later, answer, t, rfl, hrun, hlater, hafter⟩ :=
      ih (call.2.next call.1 s)
    · by_cases hcall : call.2.Unanswered call.1 s
      · exact .inl ⟨hcall, hnone⟩
      · -- The first operation is then a solve that answers, and the last one of the history.
        obtain ⟨engine, step⟩ := call
        cases step with
        | findModel assumptions =>
          obtain ⟨answer, hanswer⟩ : ∃ answer,
              (((literalAlgebra engine).findModel assumptions).run.run s).1 = .ok answer := by
            cases hresult : (((literalAlgebra engine).findModel assumptions).run.run s).1 with
            | ok answer => exact ⟨answer, rfl⟩
            | error e => exact absurd ⟨e, hresult⟩ hcall
          rw [SolverStep.next_findModel_eq] at hnone
          refine .inr ⟨[], engine, assumptions, history, answer, _, rfl, Prod.ext hanswer rfl, hnone,
            ?_⟩
          exact congrArg (·.after history) (SolverStep.next_findModel_eq ..)
        | _ => exact absurd trivial hcall
    · exact .inr ⟨call :: before, engine, assumptions, later, answer, t, rfl, hrun, hlater, hafter⟩

/-! ### What is read -/

/-- With a model of the first `n` variables a literal of one of them has its value, one of a later
variable is refused as such, and what is no literal as invalid. -/
structure Reads (s : Solver Literal) (n : Nat) (σ : Assignment) : Prop where
  value : ∀ l : Literal, l ≠ 0 → l.natAbs ≤ n →
    (Solver.value l : ExceptT Error (SolverM Literal) Bool).run.run s = (.ok (l.holds σ), s)
  later : ∀ l : Literal, n < l.natAbs → l.natAbs ≤ s.variableCount →
    (Solver.value l : ExceptT Error (SolverM Literal) Bool).run.run s =
      (.error (.createdAfterSolve (.int l)), s)
  invalid : ∀ l : Literal, l = 0 ∨ s.variableCount < l.natAbs →
    (Solver.value l : ExceptT Error (SolverM Literal) Bool).run.run s =
      (.error (.invalidLiteral (.int l)), s)

theorem reads_of_model (hmodel : s.model = some ⟨n, σ⟩) (hn : n ≤ s.variableCount) :
    s.Reads n σ where
  value l hzero hle := run_value hmodel (Literal.isAllocated_iff.2 ⟨hzero, hle⟩) hn
  later l hlt hle := by
    have hzero : l ≠ 0 := Int.natAbs_pos.1 (n.zero_le.trans_lt hlt)
    rw [run_value_eq, hmodel]
    dsimp only
    rw [if_pos (Literal.isAllocated_iff.2 ⟨hzero, hle⟩), if_neg hlt.not_ge]
  invalid l hl := by
    have hnot : l.isAllocated s.variableCount = false := by
      simpa using Literal.not_isAllocated_iff.2 hl
    rw [run_value_eq, hmodel]
    dsimp only
    rw [hnot, if_neg Bool.false_ne_true]

theorem run_value_of_no_model (hmodel : s.model = none) (l : Literal) :
    (value l : ExceptT Error (SolverM Literal) Bool).run.run s = (.error .noModel, s) := by
  rw [run_value_eq, hmodel]

/-- What a solve leaves when it answers. -/
theorem Handed.findModel_answered (hs : s.Handed) {engine : Engine} (hengine : engine.Correct)
    {assumptions : List Literal} {answer : Bool}
    (hrun : ((literalAlgebra engine).findModel assumptions).run.run s = (.ok answer, t)) :
    t.Handed ∧ t.variableCount = s.variableCount ∧
      match answer with
      | true => ∃ σ, s.formula.holds σ = true ∧ t.model = some ⟨s.variableCount, σ⟩
      | false => t.model = none := by
  have ht : (SolverStep.findModel assumptions).next engine s = t :=
    (SolverStep.next_findModel_eq ..).trans (congrArg Prod.snd hrun)
  obtain ⟨hasked, verdict, rfl, hanswer, hcount, hmodel⟩ := hs.findModel_ok hrun
  refine ⟨ht ▸ SolverStep.handed_next engine _ hs, hcount, ?_⟩
  cases answer with
  | false => exact hmodel.trans (by rw [Verdict.answer_eq_false_iff.1 hanswer]; rfl)
  | true =>
    obtain ⟨σ, hfound⟩ := Verdict.answer_eq_true_iff.1 hanswer
    rw [hfound] at hmodel
    have hallocated : s.formula.Allocated s.variableCount := fun c hc =>
      hasked c (List.mem_append_left _ hc)
    have hσ := (hs.holds_asked hallocated assumptions σ).1 (hengine.sound _ _ hfound)
    exact ⟨σ, (Formula.holds_append.1 hσ).1, hmodel⟩

/-- From a solve with a right engine that finds a model to the next solve that answers, whatever is
done in between and also where it is refused, every literal whose variable was there has one value,
its negation the opposite one, and literal 1 is true. A literal of a later variable is refused as
created after the solve, and what names no variable as invalid. No engine may give up in between.
After a solve that finds no model or is given up, and before the first answer, every literal is
refused, and there is nothing else: a solver has not been answered yet, or not since some answer. -/
theorem value_until_next_answer {engine : Engine} (hengine : engine.Correct)
    (history : List (Engine × SolverStep)) (assumptions : List Literal) :
    let s := new.after history
    let solve := ((literalAlgebra engine).findModel assumptions).run.run s
    let read := fun (l : Literal) (u : Solver Literal) =>
      (((literalAlgebra engine).value l).run.run u).1
    (∀ t, solve = (.ok true, t) → ∃ σ : Assignment, ∀ later, t.Unanswered later →
      (∀ call ∈ later, call.1.Decides) →
      (∀ l : Literal, l ≠ 0 → l.natAbs ≤ s.variableCount →
        read l (t.after later) = .ok (l.holds σ) ∧ read (-l) (t.after later) = .ok (!l.holds σ)) ∧
      read 1 (t.after later) = .ok true ∧
      (∀ l : Literal, s.variableCount < l.natAbs → l.natAbs ≤ (t.after later).variableCount →
        read l (t.after later) = .error (.createdAfterSolve (.int l))) ∧
      ∀ l : Literal, l = 0 ∨ (t.after later).variableCount < l.natAbs →
        read l (t.after later) = .error (.invalidLiteral (.int l))) ∧
    (∀ t, solve = (.ok false, t) → ∀ later, t.Unanswered later →
      ∀ l, read l (t.after later) = .error .noModel) ∧
    (∀ (other : Engine) reason t,
      ((literalAlgebra other).findModel assumptions).run.run s = (.error (.gaveUp reason), t) →
      ∀ later, t.Unanswered later → ∀ l, read l (t.after later) = .error .noModel) ∧
    (∀ later, new.Unanswered later → ∀ l, read l (new.after later) = .error .noModel) ∧
    (new.Unanswered history ∨ ∃ before other assumed later answer t,
      history = before ++ (other, .findModel assumed) :: later ∧
      ((literalAlgebra other).findModel assumed).run.run (new.after before) = (.ok answer, t) ∧
      t.Unanswered later ∧ s = t.after later) := by
  intro s solve read
  have hs : s.Handed := Handed.new.after history
  have hroot : s.Rooted := Rooted.new.after .new history
  have hnone {t : Solver Literal} (ht : t.Handed) (hmodel : t.model = none) {later}
      (hlater : t.Unanswered later) (l : Literal) : read l (t.after later) = .error .noModel :=
    congrArg Prod.fst (run_value_of_no_model (hlater.model_after_eq_none ht hmodel) l)
  refine ⟨fun t hrun => ?_, fun t hrun later hlater l => ?_,
    fun other reason t hrun later hlater l => ?_, fun later hlater l => hnone .new rfl hlater l,
    unanswered_or_exists_answer new history⟩
  · obtain ⟨ht, hcount, σ, hσ, hmodel⟩ := hs.findModel_answered hengine hrun
    refine ⟨σ, fun later hlater hengines => ?_⟩
    obtain ⟨hkept, hle⟩ := hlater.remembers hengines ht
    have hreads : (t.after later).Reads s.variableCount σ :=
      reads_of_model (hkept.trans hmodel) (hcount ▸ hle)
    refine ⟨fun l hzero hl => ⟨congrArg Prod.fst (hreads.value l hzero hl), ?_⟩, ?_,
      fun l hlt hl => congrArg Prod.fst (hreads.later l hlt hl),
      fun l hl => congrArg Prod.fst (hreads.invalid l hl)⟩
    · rw [← Literal.holds_neg σ hzero]
      exact congrArg Prod.fst (hreads.value (-l) (neg_ne_zero.2 hzero) (l.natAbs_neg ▸ hl))
    · rw [← hroot.holds_top hσ]
      exact congrArg Prod.fst (hreads.value 1 one_ne_zero hroot.pos)
  · obtain ⟨ht, -, hmodel⟩ := hs.findModel_answered hengine hrun
    exact hnone ht hmodel hlater l
  · have ht := SolverStep.handed_next other (.findModel assumptions) hs
    rw [SolverStep.next_findModel_eq, hrun] at ht
    exact hnone ht (hs.findModel_gaveUp hrun) hlater l

/-- Between a model and the next answer come gates, a solve that is refused and a variable, and
without a model they make no difference either. -/
theorem value_after_refused_solve :
    let s := new.after [(searchEngine, .addVariable), (searchEngine, .addVariable),
      (searchEngine, .addClause [2, 3])]
    let found := (((literalAlgebra searchEngine).findModel [-2]).run.run s).2
    let forgot := (((literalAlgebra searchEngine).findModel [2, -2]).run.run s).2
    let later := [SolverStep.gate (.gate .and 2 3), .gate (.gate .or 7 8), .findModel [3],
      .addVariable, .value 4].map fun step => (searchEngine, step)
    let read := fun (l : Literal) (u : Solver Literal) =>
      (((literalAlgebra searchEngine).value l).run.run u).1
    (∀ call ∈ later, call.1.Decides) ∧
      (∃ value, read 3 (found.after later) = .ok value ∧
        read (-3) (found.after later) = .ok (!value)) ∧
      read 1 (found.after later) = .ok true ∧
      read 4 (found.after later) = .error (.createdAfterSolve (.int 4)) ∧
      read 7 (found.after later) = .error (.invalidLiteral (.int 7)) ∧
      read 7 (forgot.after later) = .error .noModel ∧
      read 1 (new.after later) = .error .noModel := by
  intro s found forgot later read
  obtain ⟨hsat, -, -, hnew, -⟩ := value_until_next_answer searchEngine_correct
    [(searchEngine, .addVariable), (searchEngine, .addVariable), (searchEngine, .addClause [2, 3])]
    [-2]
  have hfound : (((literalAlgebra searchEngine).findModel [-2]).run.run s).1 = .ok true := by
    decide +kernel
  have hforgot : (((literalAlgebra searchEngine).findModel [2, -2]).run.run s).1 = .ok false := by
    decide +kernel
  have hengines : ∀ call ∈ later, call.1.Decides := by
    simpa [later] using searchEngine_correct.decides
  have hunanswered {u : Solver Literal}
      (hrefused : (((literalAlgebra searchEngine).findModel [3]).run.run
        (u.after (later.take 2))).1 = .error (.invalidLiteral (.int (-7)))) : u.Unanswered later :=
    ⟨trivial, trivial, ⟨_, hrefused⟩, trivial, trivial, trivial⟩
  obtain ⟨σ, hreads⟩ := hsat found (Prod.ext hfound rfl)
  obtain ⟨hvalue, htop, hlater, hinvalid⟩ := hreads later (hunanswered (by decide +kernel)) hengines
  refine ⟨hengines, ⟨_, hvalue 3 (by decide) (by decide +kernel)⟩, htop,
    hlater 4 (by decide +kernel) (by decide +kernel), hinvalid 7 (by decide +kernel), ?_,
    hnew later (hunanswered (by decide +kernel)) 1⟩
  exact (value_until_next_answer searchEngine_correct _ [2, -2]).2.1 forgot (Prod.ext hforgot rfl)
    later (hunanswered (by decide +kernel)) 7

end Solver

end BoolTensor
