import BoolTensor.Program.Constraint
import BoolTensor.Proofs.Circuit.Unfit
import BoolTensor.Proofs.Program.Registers
import BoolTensor.Proofs.Solver.CellCount
import BoolTensor.Proofs.Solver.Refusal

/-!
# Programs whose operands do not fit

An instruction is refused for operands that do not fit just where they do not, before a variable is
allocated or a clause recorded: the solver with its model and all vectors and tensors are then what
they were. The same is true of a clause that is refused for a literal.

## Main definitions

* `CircuitStep.unfit?`, `ConstraintStep.unfit?`, `Instruction.unfit?`: what the operands of an
  instruction are refused with, if they do not fit
-/

namespace BoolTensor

open MonadAttach

variable {α : Type} [Element α]

/-! ### Operands -/

/-- What the operands of a circuit are refused with, if they do not fit. -/
def CircuitStep.unfit? (step : CircuitStep α) (r : Registers α) : Option Error :=
  match step with
  | tensor dims _ | constant dims _ => negative? dims
  | split v size =>
    if (r.vector v).length = 0 ∨ 0 < size then none else some (.chunkLength size)
  | bitGate _ v w | numAdd v w | numSub v w => lengths? (r.vector v) (r.vector w)
  | compare .lt v w => lengths? (r.vector w) (r.vector v)
  | compare _ v w => lengths? (r.vector v) (r.vector w)
  | diagonal dim => negative? [dim, dim]
  | polymer t dims mapping =>
    (negative? dims).or (mapping? (r.tensor t).shape ⟨dims.map Int.toNat⟩ mapping)
  | joined t count =>
    if 0 ≤ count ∧ count ≤ (r.tensor t).shape.rank then none
    else some (.joinCount count (r.tensor t).shape.dims)
  | tensorGate _ t u => shapes? (r.tensor t).shape (r.tensor u).shape
  | tensorReduce _ t => if (r.tensor t).shape.dims ≠ [] then none else some .noFirstDimension
  | _ => none

/-- What tensors of different shapes are refused with: the first of them that differs. -/
def differing? : List (Tensor α) → Option Error
  | [] => none
  | first :: others => (others.find? fun t => t.shape ≠ first.shape).map fun other =>
    .shapeMismatch first.shape.dims other.shape.dims

/-- What the operands of a constraint are refused with, if they do not fit. -/
def ConstraintStep.unfit? (step : ConstraintStep α) (r : Registers α) : Option Error :=
  match step with
  | tensorVariables dims => negative? dims
  | tensorClauses tensors => differing? (tensors.map r.tensor)
  | _ => none

/-- What the operands of an instruction are refused with, if they do not fit. -/
def Instruction.unfit? (instruction : Instruction α) (r : Registers α) : Option Error :=
  match instruction with
  | gate _ => none
  | circuit step => step.unfit? r
  | constrain step => step.unfit? r

/-! ### One instruction -/

section Steps

variable {m : Type → Type} [Monad m] [LawfulMonad m] [MonadAttach m] [LawfulMonadAttach m]
  {r : Registers α}

theorem CircuitStep.refusedFirst_run (alg : BoolAlgebra m α)
    (hlift : ∀ value, ∃ elem, alg.lift value = pure elem) (step : CircuitStep α)
    (r : Registers α) : RefusedFirst (step.run alg alg.tensorGates r) (step.unfit? r) := by
  have hplaced {β : Type} {P : β → Prop} {x : Except Error β} (h : Meets P Error.OutOfBounds x) :
      Ends (liftM x : ExceptT Error m β) P fun e => ¬e.Unfit :=
    .of_meets (h.imp_error Error.not_unfit_of_outOfBounds)
  cases step with
  | vector elems => exact Ends.pure (m := m) trivial
  | tensor dims elems =>
    exact (refusedFirst_ofInts dims).bind fun shape =>
      (alg.ends_tensorOf_any shape elems).bind fun _ _ => .pure trivial
  | concat parts => exact Ends.pure (m := m) trivial
  | split v size => exact (refusedFirst_split (r.vector v) size).map
  | bitLift values => exact Ends.lift_any.bind fun _ _ => .pure trivial
  | bitNot v => exact Ends.lift_any.bind fun _ _ => .pure trivial
  | bitGate g v w => exact (alg.refusedFirst_bitGate g _ _).map
  | bitReduce reduction v => exact Ends.lift_any.bind fun _ _ => .pure trivial
  | numLift length value => exact Ends.lift_any.bind fun _ _ => .pure trivial
  | numNeg v => exact Ends.lift_any.bind fun _ _ => .pure trivial
  | numAdd v w => exact (alg.refusedFirst_numAdd _ _).map
  | numSub v w => exact (alg.refusedFirst_numSub _ _).map
  | compare comparison v w =>
    have hcompare := alg.refusedFirst_numCompare comparison (r.vector v) (r.vector w)
    cases comparison <;> exact hcompare.map
  | scalar value =>
    have hconstant := (alg.ends_constant Shape.scalar value).imp (fun _ _ => trivial)
      Error.not_unfit_of_outOfBounds
    exact hconstant.bind fun _ _ => .pure trivial
  | constant dims value => exact (alg.refusedFirst_constantOf dims (hlift value).choose_spec).map
  | diagonal dim => exact (alg.refusedFirst_diagonal dim).map
  | polymer t dims mapping =>
    exact .ofInts_bind (refusedFirst_polymer (r.tensor t) _ mapping).map
  | joined t count => exact (refusedFirst_join (r.tensor t).copy count).map
  | get t coords =>
    exact (hplaced ((r.tensor t).meets_get coords)).bind fun _ _ => .pure trivial
  | set t coords elem =>
    have hset : Meets (fun _ => True) Error.OutOfBounds (r.bank.setCell (r.view t) coords elem) :=
      (Tensor.meets_set _ coords elem).bind fun _ _ => trivial
    exact (hplaced hset).bind fun _ _ => .pure trivial
  | tensorNot t =>
    exact (Ends.lift_any.bind fun elems _ => alg.ends_tensorOf_any _ elems).bind fun _ _ =>
      .pure trivial
  | tensorGate g t u => exact (alg.refusedFirst_tensorGate g _ _).map
  | tensorReduce reduction t => exact (alg.refusedFirst_tensorReduce reduction _).map

theorem refusedFirst_tensorClauses {alg : SatAlgebra m α}
    (halg : ∀ e, alg.Refuses e → ¬e.Unfit) (tensors : List (Tensor α)) :
    RefusedFirst (alg.tensorClauses tensors) (differing? tensors) := by
  have hclause (clause : List α) : Ends (alg.addClause clause) (fun _ => True) fun e => ¬e.Unfit :=
    (alg.ends_addClause clause).imp_error halg
  cases tensors with
  | nil => exact hclause []
  | cons first others =>
    rw [SatAlgebra.tensorClauses, differing?]
    cases others.find? fun t => t.shape ≠ first.shape with
    | some other => rfl
    | none => exact Ends.forM fun clause _ => hclause clause

theorem ConstraintStep.refusedFirst_run {alg : SatAlgebra m α}
    (halg : ∀ e, alg.Refuses e → ¬e.Unfit) (step : ConstraintStep α) (r : Registers α) :
    RefusedFirst (step.run alg r) (step.unfit? r) := by
  cases step with
  | addVariable => exact Ends.lift_any.bind fun _ _ => .pure trivial
  | addClause clause =>
    exact ((alg.ends_addClause clause).imp_error halg).bind fun _ _ => .pure trivial
  | findModel assumptions =>
    exact ((alg.ends_findModel assumptions).imp_error halg).bind fun _ _ => .pure trivial
  | value elem => exact ((alg.ends_value elem).imp_error halg).bind fun _ _ => .pure trivial
  | tensorVariables dims =>
    have hvariables (shape : Shape) :
        Ends (alg.tensorVariables shape) (fun _ => True) fun e => ¬e.Unfit :=
      Ends.lift_any.bind fun elems _ => alg.ends_tensorOf_any shape elems
    exact (refusedFirst_ofInts dims).bind fun shape =>
      (hvariables shape).bind fun _ _ => .pure trivial
  | tensorClauses tensors =>
    exact (refusedFirst_tensorClauses halg _).bind fun _ => .pure trivial
  | tensorValues t =>
    have hvalues : Ends (alg.tensorValues (r.tensor t)) (fun _ => True) fun e => ¬e.Unfit := by
      refine (Ends.mapM fun elem _ => (alg.ends_value elem).imp_error halg).bind fun values _ => ?_
      exact .of_meets ((Tensor.meets_ofStorage_any _ _).imp (fun _ _ => trivial) fun _ he =>
        he.symm ▸ id)
    exact hvalues.bind fun _ _ => .pure trivial

/-- Over every algebra whose constants cost nothing and whose own refusals are others, an instruction
is nothing but the refusal of its operands where they do not fit, and it is not refused for them
where they do. -/
theorem Instruction.refusedFirst_run {alg : SatAlgebra m α}
    (hlift : ∀ value, ∃ elem, alg.lift value = pure elem)
    (halg : ∀ e, alg.Refuses e → ¬e.Unfit) (instruction : Instruction α) (r : Registers α) :
    RefusedFirst (instruction.run alg r) (instruction.unfit? r) := by
  cases instruction with
  | gate step => exact Ends.lift_any.bind fun _ _ => .pure trivial
  | circuit step => exact step.refusedFirst_run alg.toBoolAlgebra hlift r
  | constrain step => exact step.refusedFirst_run halg r

end Steps

/-! ### Solvers -/

/-- A solver of literals refuses a literal, or has no model. -/
theorem refusedWith_not_unfit : LiteralForm.RefusedWith Literal fun e => ¬e.Unfit where
  exceeds _ _ := trivial
  checkPlace _ := trivial
  convert _ := trivial
  invalidLiteral _ := id
  createdAfterSolve _ := id
  invalidClause _ _ := id
  gaveUp _ := id
  noModel := id

theorem not_unfit_of_refuses (engine : Engine) (e : Error)
    (h : (literalAlgebra engine).Refuses e) : ¬e.Unfit :=
  refusedWith_not_unfit.of_refuses h

section Programs

variable {r r' : Registers Literal} {s t : Solver Literal} {e : Error}

theorem RefusedFirst.run_eq_error_iff {β : Type} {x : ExceptT Error (SolverM Literal) β}
    {unfit? : Option Error} (h : RefusedFirst x unfit?) (he : e.Unfit) :
    x.run.run s = (.error e, t) ↔ unfit? = some e ∧ t = s := by
  cases unfit? with
  | some e' =>
    obtain rfl : x = throw e' := h
    rw [run_throw, Prod.mk.injEq, Except.error.injEq, Option.some.injEq, eq_comm (a := t)]
  | none =>
    refine iff_of_false (fun hrun => ?_) fun hsome => by cases hsome.1
    exact h (.error e) ⟨s, t, hrun⟩ he

/-- A program of one instruction is refused where this is, and leaves the registers. -/
theorem runAll_singleton_eq_error_iff {ι : Type}
    {run : ι → Registers Literal → ExceptT Error (SolverM Literal)
      (Outcome Literal × Registers Literal)} {step : ι} :
    (runAll run [step] r).run s = (([.error e], r'), t) ↔
      (run step r).run.run s = (.error e, t) ∧ r' = r := by
  have hrun : (runAll run [step] r).run s = _ := runs_runAll_cons (m := SolverM Literal) step [] r s
  have hstep : Runs.run (run step r).run s = (run step r).run.run s := rfl
  rw [hrun, hstep]
  rcases (run step r).run.run s with ⟨e' | ⟨outcome, r''⟩, u⟩
  · constructor
    · intro h
      cases h
      exact ⟨rfl, rfl⟩
    · rintro ⟨h, rfl⟩
      cases h
      rfl
  · constructor
    · intro h
      cases h
    · rintro ⟨h, -⟩
      cases h

/-- A clause is refused for the first literal that is not allocated, and nothing is recorded. -/
theorem run_addClause_eq_error_iff {engine : Engine} {clause : Clause} :
    ((Instruction.constrain (.addClause clause)).run (literalAlgebra engine) r).run.run s =
        (.error e, t) ↔
      (∃ l, clause.find? (fun l => l = 0 ∨ s.variableCount < l.natAbs) = some l ∧
        e = .invalidClause l clause) ∧ t = s := by
  have hrefused : (fun l : Literal => decide (l = 0 ∨ s.variableCount < l.natAbs)) =
      fun l => !l.isAllocated s.variableCount := by
    funext l
    rw [Bool.eq_iff_iff, decide_eq_true_iff]
    exact Literal.not_isAllocated_iff.symm
  have hrun : ((literalAlgebra engine).addClause clause).run.run s = _ :=
    Solver.run_addClause s clause
  have hstep : (Instruction.constrain (.addClause clause)).run (literalAlgebra engine) r =
      (literalAlgebra engine).addClause clause >>= fun _ => pure (Outcome.nothing, r) := rfl
  rw [hrefused, hstep]
  cases hfind : clause.find? fun l => !l.isAllocated s.variableCount with
  | some l =>
    rw [hfind] at hrun
    rw [run_bind_of_error hrun, Prod.mk.injEq, Except.error.injEq]
    constructor
    · rintro ⟨rfl, rfl⟩
      exact ⟨⟨l, rfl, rfl⟩, rfl⟩
    · rintro ⟨⟨l', hl, rfl⟩, rfl⟩
      obtain rfl := Option.some.inj hl
      exact ⟨rfl, rfl⟩
  | none =>
    rw [hfind] at hrun
    rw [run_bind_of_ok hrun, run_pure]
    refine iff_of_false (fun h => ?_) fun h => ?_
    · cases h
    · obtain ⟨⟨l, hl, -⟩, -⟩ := h
      cases hl

/-- Whatever a solver has recorded, an instruction that is refused for operands that do not fit is
refused just where they do not, and neither the solver, with its model, nor a vector or tensor has
changed then. So it is where a clause is refused for a literal that is not allocated. -/
theorem unfit_changes_nothing (engine : Engine) (s : Solver Literal) (r : Registers Literal) :
    (∀ (instruction : Instruction Literal) (e : Error), e.Unfit → ∀ r' t,
      ((runAll (Instruction.run (literalAlgebra engine)) [instruction] r).run s =
          (([.error e], r'), t) ↔
        instruction.unfit? r = some e ∧ r' = r ∧ t = s)) ∧
    ∀ (clause : Clause) (e : Error) r' t,
      ((runAll (Instruction.run (literalAlgebra engine)) [.constrain (.addClause clause)] r).run s =
          (([.error e], r'), t) ↔
        (∃ l, clause.find? (fun l => l = 0 ∨ s.variableCount < l.natAbs) = some l ∧
          e = .invalidClause l clause) ∧ r' = r ∧ t = s) := by
  constructor
  · intro instruction e he r' t
    have hfirst := instruction.refusedFirst_run (fun value => ⟨Solver.lift value, rfl⟩)
      (not_unfit_of_refuses engine) r
    rw [runAll_singleton_eq_error_iff, hfirst.run_eq_error_iff he, and_assoc, and_comm (a := t = s)]
  · intro clause e r' t
    rw [runAll_singleton_eq_error_iff, run_addClause_eq_error_iff, and_assoc, and_comm (a := t = s)]

/-- Vectors of two lengths, the second of which is asked for first, a mapping without a target, and
a clause with a literal that is not allocated. -/
theorem unfit_changes_nothing_lengths :
    let run := Instruction.run (literalAlgebra searchEngine)
    let r := ((runAll run [.circuit (.vector [1, -1]), .circuit (.vector [1]),
      .circuit (.tensor [2] [1, 1])] .empty).run Solver.new).1.2
    (Error.operandLengths 1 2).Unfit ∧
      (runAll run [.circuit (.compare .lt 0 1)] r).run Solver.new =
        (([.error (.operandLengths 1 2)], r), Solver.new) ∧
      (runAll run [.circuit (.polymer 0 [3] [0])] r).run Solver.new =
        (([.error (.mappingInvalid [0] [2] [3])], r), Solver.new) ∧
      (runAll run [.constrain (.addClause [1, -3, 2])] r).run Solver.new =
        (([.error (.invalidClause (-3) [1, -3, 2])], r), Solver.new) := by
  intro run r
  obtain ⟨hunfit, hclause⟩ := unfit_changes_nothing searchEngine Solver.new r
  refine ⟨trivial, ?_, ?_, ?_⟩
  · exact (hunfit (.circuit (.compare .lt 0 1)) (.operandLengths 1 2) trivial r Solver.new).2
      ⟨by decide +kernel, rfl, rfl⟩
  · exact (hunfit (.circuit (.polymer 0 [3] [0])) (.mappingInvalid [0] [2] [3]) trivial r
      Solver.new).2 ⟨by decide +kernel, rfl, rfl⟩
  · exact (hclause [1, -3, 2] (.invalidClause (-3) [1, -3, 2]) r Solver.new).2
      ⟨⟨-3, by decide +kernel, rfl⟩, rfl, rfl⟩

end Programs

end BoolTensor
