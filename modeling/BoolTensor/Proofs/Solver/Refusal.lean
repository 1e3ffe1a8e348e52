import BoolTensor.Proofs.Solver.History

/-!
# Refused solves

Gates take integers that are no literals yet, so clauses are looked at when a model is wanted, and
only those that were not handed over before. A solve is refused all the same just where some
recorded clause or some assumption has a literal that is not allocated, and the first such literal
is named. Nothing that can be read changes, and no literal is named once its variable exists.

## Main definitions

* `Solver.mentioned`: the literals that a solve looks at, in this order
-/

namespace BoolTensor

/-! ### The first literal that is not allocated -/

theorem Literal.not_isAllocated_iff {n : Nat} {l : Literal} :
    (!l.isAllocated n) = true ↔ l = 0 ∨ n < l.natAbs := by
  rw [Bool.not_eq_true', Bool.eq_false_iff, ne_eq, isAllocated_iff, not_and_or, not_not, not_le]

/-- Of literals one after the other, the first that is not allocated is refused. -/
theorem Solver.forM_locate (n : Nat) (literals : List Literal) :
    literals.forM (Solver.locate n) =
      match literals.find? fun l => !l.isAllocated n with
      | some l => .error (.invalidLiteral (.int l))
      | none => .ok () := by
  induction literals with
  | nil => rfl
  | cons l literals ih =>
    rw [List.forM, Solver.locate_literal, List.find?_cons]
    cases l.isAllocated n with
    | false => rfl
    | true => exact ih

namespace Formula

theorem locate_eq_forM_flatten (n : Nat) (f : Formula) :
    f.locate n = f.flatten.forM (Solver.locate n) := by
  induction f with
  | nil => rfl
  | cons c f ih =>
    rw [locate_cons, ih]
    exact (List.forM_append ..).symm

theorem flatten_units (literals : List Literal) : (units literals).flatten = literals := by
  induction literals with
  | nil => rfl
  | cons l literals ih =>
    rw [units, List.map_cons, List.flatten_cons, ← units, ih, List.singleton_append]

end Formula

namespace Solver

variable {s t : Solver Literal}

/-- The literals that a solve looks at: those of the clauses as they were recorded, and then the
assumptions. -/
def mentioned (s : Solver Literal) (assumptions : List Literal) : List Literal :=
  s.formula.flatten ++ assumptions

theorem SameRecord.mentioned_eq (h : SameRecord s t) (assumptions : List Literal) :
    s.mentioned assumptions = t.mentioned assumptions := by
  rw [mentioned, mentioned, h.formula]

theorem mentioned_grown_nil (s : Solver Literal) (n : Nat) (assumptions : List Literal) :
    (s.grown n []).mentioned assumptions = s.mentioned assumptions := by
  rw [mentioned, mentioned, formula_grown, List.append_nil]

/-- A solve refuses the first literal that is not allocated, and asks the engine if there is none. -/
theorem Handed.findModel_eq (hs : s.Handed) (engine : Engine) (assumptions : List Literal) :
    ((literalAlgebra engine).findModel assumptions).run.run s =
      match (s.mentioned assumptions).find? fun l => !l.isAllocated s.variableCount with
      | some l => (.error (.invalidLiteral (.int l)), s.submit.2)
      | none =>
        let verdict := engine.solve (s.submit.2.held.toList ++ Formula.units assumptions)
        (verdict.answer,
          { s.submit.2 with
            model := verdict.assignment?.map fun σ => ⟨s.variableCount, σ⟩ }) := by
  refine (run_findModel hs engine assumptions).trans ?_
  rw [Formula.locate_eq_forM_flatten, List.flatten_append, Formula.flatten_units, ← mentioned,
    forM_locate]
  cases (s.mentioned assumptions).find? fun l => !l.isAllocated s.variableCount <;> rfl

theorem Handed.findModel_eq_error (hs : s.Handed) {engine : Engine} {assumptions : List Literal}
    {e : Error} :
    (((literalAlgebra engine).findModel assumptions).run.run s).1 = .error e ↔
      (∃ l, (s.mentioned assumptions).find? (fun l => !l.isAllocated s.variableCount) = some l ∧
        e = .invalidLiteral (.int l)) ∨
      (s.mentioned assumptions).find? (fun l => !l.isAllocated s.variableCount) = none ∧
        ∃ reason, engine.solve (s.submit.2.held.toList ++ Formula.units assumptions) =
          .unknown reason ∧ e = .gaveUp reason := by
  rw [hs.findModel_eq]
  cases (s.mentioned assumptions).find? fun l => !l.isAllocated s.variableCount with
  | none => simp [Verdict.answer_eq_error_iff]
  | some l => simp [eq_comm]

theorem Handed.findModel_eq_invalid (hs : s.Handed) {engine : Engine} {assumptions : List Literal}
    {cell : Cell} :
    (((literalAlgebra engine).findModel assumptions).run.run s).1 = .error (.invalidLiteral cell) ↔
      ∃ l, (s.mentioned assumptions).find? (fun l => !l.isAllocated s.variableCount) = some l ∧
        cell = .int l := by
  simp [hs.findModel_eq_error]

/-- Literals that are allocated are not named. -/
theorem Handed.findModel_ne_invalid (hs : s.Handed) (engine : Engine) (assumptions : List Literal)
    {l : Literal} (hl : l.isAllocated s.variableCount = true) :
    (((literalAlgebra engine).findModel assumptions).run.run s).1 ≠
      .error (.invalidLiteral (.int l)) := by
  intro href
  obtain ⟨l', hfind, heq⟩ := hs.findModel_eq_invalid.1 href
  obtain rfl : l = l' := by simpa using heq
  simpa [hl] using List.find?_some hfind

theorem Handed.findModel_answers (hs : s.Handed) {engine : Engine} (hengine : engine.Decides)
    {assumptions : List Literal}
    (h : ∀ l ∈ s.mentioned assumptions, l.isAllocated s.variableCount = true) :
    ∃ answer, (((literalAlgebra engine).findModel assumptions).run.run s).1 = .ok answer := by
  have hnone : (s.mentioned assumptions).find? (fun l => !l.isAllocated s.variableCount) =
      none := by
    simpa using h
  rw [hs.findModel_eq, hnone]
  exact hengine.exists_answer _

/-- A solve that refuses a literal hands clauses over, and changes nothing else. -/
theorem Handed.findModel_refused (hs : s.Handed) {engine : Engine} {assumptions : List Literal}
    {cell : Cell} (hrun : ((literalAlgebra engine).findModel assumptions).run.run s =
      (.error (.invalidLiteral cell), t)) :
    SameRecord s t ∧ t.Handed ∧ t.model = s.model := by
  obtain ⟨l, hfind, -⟩ := hs.findModel_eq_invalid.1 (congrArg Prod.fst hrun)
  rw [hs.findModel_eq, hfind] at hrun
  obtain rfl : s.submit.2 = t := congrArg Prod.snd hrun
  refine ⟨?_, hs.submit, ?_⟩
  · rw [submit_eq]
    exact ⟨rfl, rfl⟩
  · rw [submit_eq]

/-- A solve that the engine gives up forgets the model. -/
theorem Handed.findModel_gaveUp (hs : s.Handed) {engine : Engine} {assumptions : List Literal}
    {reason : String} (hrun : ((literalAlgebra engine).findModel assumptions).run.run s =
      (.error (.gaveUp reason), t)) : t.model = none := by
  obtain ⟨l, -, he⟩ | ⟨hfind, reason', hreason, -⟩ :=
    hs.findModel_eq_error.1 (congrArg Prod.fst hrun)
  · cases he
  · rw [hs.findModel_eq, hfind, hreason] at hrun
    obtain rfl := congrArg Prod.snd hrun
    rfl

/-- Values depend on the model and on the number of variables only. -/
theorem run_value_fst_congr (hcount : t.variableCount = s.variableCount)
    (hmodel : t.model = s.model) (engine : Engine) (l : Literal) :
    (((literalAlgebra engine).value l).run.run t).1 =
      (((literalAlgebra engine).value l).run.run s).1 := by
  refine (congrArg Prod.fst (run_value_eq t l)).trans
    (Eq.trans ?_ (congrArg Prod.fst (run_value_eq s l)).symm)
  rw [hcount, hmodel]

/-! ### Waiting for variables -/

/-- New variables are all that changes when only variables are asked for. -/
theorem after_addVariables (s : Solver Literal) (engine : Engine) (count : Nat) :
    s.after (List.replicate count (engine, .addVariable)) =
      s.grown (s.variableCount + count) [] := by
  induction count generalizing s with
  | zero => exact s.grown_self.symm
  | succ count ih =>
    have hnext : s.after (List.replicate (count + 1) (engine, .addVariable)) =
        (SolverStep.addVariable.next engine s).after
          (List.replicate count (engine, .addVariable)) := rfl
    rw [hnext, ih, SolverStep.next_addVariable, variableCount_grown, grown_grown,
      Nat.add_right_comm, Nat.add_assoc, List.append_nil]

/-- Whatever was done to a solver before, also where gates were given zero or literals of variables
that did not exist, a solve refuses a literal just where a recorded clause or an assumption has one
that is zero or of no variable now, and the first of them is named, those of the clauses before the
assumptions. The variables, the clauses, and all values that can be read stay as they were. Whatever
is done later, a literal whose variable exists is named no longer, and once the variables of all
literals have been allocated the same solve answers. Only an engine that gives up fails otherwise. -/
theorem findModel_refused_iff (history : List (Engine × SolverStep)) (engine : Engine)
    (assumptions : List Literal) :
    let solve := fun s : Solver Literal =>
      ((literalAlgebra engine).findModel assumptions).run.run s
    let s := new.after history
    ((∃ cell, (solve s).1 = .error (.invalidLiteral cell)) ↔
      ∃ l ∈ s.mentioned assumptions, l = 0 ∨ s.variableCount < l.natAbs) ∧
    (∀ e, (solve s).1 = .error e →
      (∃ cell, e = .invalidLiteral cell) ∨ ∃ reason, engine.GivesUp reason ∧ e = .gaveUp reason) ∧
    ∀ cell t, solve s = (.error (.invalidLiteral cell), t) →
      (∃ before l after, s.mentioned assumptions = before ++ l :: after ∧
        (∀ k ∈ before, k ≠ 0 ∧ k.natAbs ≤ s.variableCount) ∧
        (l = 0 ∨ s.variableCount < l.natAbs) ∧ cell = .int l) ∧
      (t.variableCount = s.variableCount ∧ t.clauses = s.clauses ∧ t.hasModel = s.hasModel ∧
        ∀ l, (((literalAlgebra engine).value l).run.run t).1 =
          (((literalAlgebra engine).value l).run.run s).1) ∧
      (∀ later l, l ≠ 0 → l.natAbs ≤ (t.after later).variableCount →
        (solve (t.after later)).1 ≠ .error (.invalidLiteral (.int l))) ∧
      (engine.Decides → ∀ (other : Engine) (count : Nat),
        (∀ l ∈ s.mentioned assumptions, l ≠ 0 ∧ l.natAbs ≤ s.variableCount + count) →
        ∃ answer, (solve (t.after (List.replicate count (other, .addVariable)))).1 =
          .ok answer) := by
  intro solve s
  have hs : s.Handed := Handed.new.after history
  refine ⟨?_, fun e he => ?_, fun cell t hrun => ⟨?_, ?_, fun later l hzero hle => ?_,
    fun hengine other count hcount => ?_⟩⟩
  · simp only [solve, hs.findModel_eq_invalid]
    rw [exists_comm]
    simp only [exists_and_left, exists_eq, and_true]
    rw [← Option.isSome_iff_exists, List.find?_isSome]
    exact exists_congr fun l => and_congr_right fun _ => Literal.not_isAllocated_iff
  · obtain ⟨l, -, rfl⟩ | ⟨-, reason, hreason, rfl⟩ := hs.findModel_eq_error.1 he
    · exact .inl ⟨_, rfl⟩
    · exact .inr ⟨reason, ⟨_, hreason⟩, rfl⟩
  · obtain ⟨l, hfind, rfl⟩ := hs.findModel_eq_invalid.1 (congrArg Prod.fst hrun)
    obtain ⟨hl, before, after, hsplit, hbefore⟩ := List.find?_eq_some_iff_append.1 hfind
    refine ⟨before, l, after, hsplit, fun k hk => ?_, Literal.not_isAllocated_iff.1 hl, rfl⟩
    exact Literal.isAllocated_iff.1 (by simpa using hbefore k hk)
  · obtain ⟨hsame, -, hmodel⟩ := hs.findModel_refused hrun
    exact ⟨hsame.variableCount.symm, hsame.clauses.symm, by rw [hasModel, hmodel, hasModel],
      run_value_fst_congr hsame.variableCount.symm hmodel engine⟩
  · have hlater : (t.after later).Handed := (hs.findModel_refused hrun).2.1.after later
    exact hlater.findModel_ne_invalid engine assumptions (Literal.isAllocated_iff.2 ⟨hzero, hle⟩)
  · obtain ⟨hsame, ht, -⟩ := hs.findModel_refused hrun
    have hlater := ht.after (List.replicate count (other, .addVariable))
    refine hlater.findModel_answers hengine fun l hl => Literal.isAllocated_iff.2 ?_
    rw [after_addVariables] at hl ⊢
    rw [mentioned_grown_nil, ← hsame.mentioned_eq] at hl
    rw [variableCount_grown, ← hsame.variableCount]
    exact hcount l hl

/-- A gate on variables that do not exist: the solve names the first of them, and answers once there
are seven more variables. -/
theorem findModel_refused_operand :
    let solve := fun s : Solver Literal =>
      ((literalAlgebra searchEngine).findModel [9]).run.run s
    let s := new.after [(searchEngine, .gate (.gate .or 5 6))]
    let t := (solve s).2
    (∃ l ∈ s.mentioned [9], l = 0 ∨ s.variableCount < l.natAbs) ∧
      (solve s).1 = .error (.invalidLiteral (.int (-5))) ∧
      t.clauses = s.clauses ∧
      (solve (t.after (List.replicate 3 (searchEngine, .addVariable)))).1 ≠
        .error (.invalidLiteral (.int (-5))) ∧
      searchEngine.Decides ∧
      ∃ answer, (solve (t.after (List.replicate 7 (searchEngine, .addVariable)))).1 =
        .ok answer := by
  intro solve s t
  have hrun : (solve s).1 = .error (.invalidLiteral (.int (-5))) := by decide +kernel
  have hdecides := searchEngine_correct.decides
  obtain ⟨hiff, -, hrefused⟩ :=
    findModel_refused_iff [(searchEngine, .gate (.gate .or 5 6))] searchEngine [9]
  obtain ⟨-, ⟨-, hclauses, -⟩, hlater, hanswers⟩ := hrefused _ t (Prod.ext hrun rfl)
  refine ⟨hiff.1 ⟨_, hrun⟩, hrun, hclauses, ?_, hdecides,
    hanswers hdecides searchEngine 7 (by decide +kernel)⟩
  exact hlater _ (-5) (by decide) (by decide +kernel)

end Solver

end BoolTensor
