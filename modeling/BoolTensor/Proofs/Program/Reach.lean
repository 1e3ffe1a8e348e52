import BoolTensor.Program.Constraint
import BoolTensor.Proofs.Circuit.Constraint
import BoolTensor.Proofs.Program.Netlist
import BoolTensor.Proofs.Program.Readable

/-!
# Literals of reachable solvers

Gates and circuits record clauses without looking at the literals in them. So whether the clauses of
a solver can be solved for depends on all operations so far: if each of them was called on literals
that were allocated at the time, every recorded literal is allocated, and so is every literal that was
given back. Clauses, assumptions and literals whose values are read may be any, as the solver looks
at these itself.

## Main definitions

* `SolverCall`: an operation, with what it is called on
* `SolverCall.Admits`: the literals that it works on are allocated
* `Solver.Admits`, `Solver.afterCalls`: so they are along several operations, and the solver after
  these
-/

namespace BoolTensor

/-- The vectors store allocated literals, and the tensors are those of their shapes. -/
structure Registers.Allocated (n : Nat) (r : Registers Literal) : Prop where
  vectors : ∀ handle < r.bank.vectors.size, (r.vector handle).kind = .dense ∧
    ∀ l ∈ (r.vector handle).toList, l.isAllocated n = true
  tensors : ∀ number < r.views.size, r.HasTensor number ∧ (r.tensor number).WellFormed

instance (n : Nat) (r : Registers Literal) : Decidable (r.Allocated n) :=
  have (number : Nat) : Decidable (r.HasTensor number) := inferInstanceAs (Decidable (_ ∧ _))
  decidable_of_iff ((∀ handle < r.bank.vectors.size, (r.vector handle).kind = .dense ∧
      ∀ l ∈ (r.vector handle).toList, l.isAllocated n = true) ∧
    ∀ number < r.views.size, r.HasTensor number ∧ (r.tensor number).WellFormed)
    ⟨fun h => ⟨h.1, h.2⟩, fun h => ⟨h.vectors, h.tensors⟩⟩

/-- An operation on a solver of literals, with the engine that it may ask and the vectors and tensors
that it is called on. -/
structure SolverCall where
  engine : Engine
  registers : Registers Literal
  instruction : Instruction Literal

namespace SolverCall

/-- What the operation does. -/
def run (call : SolverCall) : ExceptT Error (SolverM Literal) (Outcome Literal × Registers Literal) :=
  call.instruction.run (literalAlgebra call.engine) call.registers

/-- The solver after the operation, whether it was refused or not. -/
def next (call : SolverCall) (s : Solver Literal) : Solver Literal :=
  (call.run.run.run s).2

/-- The literals on which a gate or a circuit works are allocated. -/
def Admits (call : SolverCall) (s : Solver Literal) : Prop :=
  match call.instruction with
  | .gate step => ∀ l ∈ step.operands, l.isAllocated s.variableCount = true
  | .circuit step => (∀ l ∈ step.elems, l.isAllocated s.variableCount = true) ∧
    step.Operands call.registers ∧ call.registers.Allocated s.variableCount
  | .constrain _ => True

instance (call : SolverCall) (s : Solver Literal) : Decidable (call.Admits s) :=
  match call with
  | ⟨_, _, .gate step⟩ =>
    inferInstanceAs (Decidable (∀ l ∈ step.operands, l.isAllocated s.variableCount = true))
  | ⟨_, r, .circuit step⟩ =>
    inferInstanceAs (Decidable ((∀ l ∈ step.elems, l.isAllocated s.variableCount = true) ∧
      step.Operands r ∧ r.Allocated s.variableCount))
  | ⟨_, _, .constrain _⟩ => .isTrue trivial

end SolverCall

namespace Solver

variable {s t u : Solver Literal}

/-- The solver after several operations. -/
def afterCalls (s : Solver Literal) (calls : List SolverCall) : Solver Literal :=
  calls.foldl (fun s call => call.next s) s

/-- Each operation is called on allocated literals. -/
def Admits (s : Solver Literal) : List SolverCall → Prop
  | [] => True
  | call :: calls => call.Admits s ∧ Admits (call.next s) calls

instance Admits.decidable : (calls : List SolverCall) → (s : Solver Literal) →
    Decidable (s.Admits calls)
  | [], _ => .isTrue trivial
  | call :: calls, s =>
    have := Admits.decidable calls (call.next s)
    inferInstanceAs (Decidable (call.Admits s ∧ Admits (call.next s) calls))

/-- Registers of literals can be read just if the literals are allocated. -/
theorem readable_iff {σ : Assignment} {r : Registers Literal} :
    (reading σ).Readable s r ↔ r.Allocated s.variableCount := by
  constructor
  · refine fun h => ⟨fun handle hhandle => ?_, h.tensors⟩
    obtain ⟨values, hvalues⟩ := h.vectors handle hhandle
    exact ⟨hvalues.kind_eq, isAllocated_of_mem_reads hvalues.reads⟩
  · refine fun h => ⟨fun handle hhandle => ?_, h.tensors⟩
    obtain ⟨hdense, hallocated⟩ := h.vectors handle hhandle
    refine ⟨(r.vector handle).toList.map (Literal.holds σ), hdense,
      Storage.wellFormed_of_kind_ne (by simp [hdense]), ?_⟩
    exact List.forall₂_map_right_iff.2 (List.forall₂_same.2 fun l hl => ⟨hallocated l hl, fun _ _ => rfl⟩)

/-! ### One operation -/

/-- The later solver is ready; it has no fewer variables, and the clauses of the earlier one come
first. -/
structure Keeps (s t : Solver Literal) : Prop where
  variableCount_le : s.variableCount ≤ t.variableCount
  clauses : s.formula <+: t.formula
  ready : t.Ready

namespace Keeps

theorem refl (hs : s.Ready) : Keeps s s :=
  ⟨le_rfl, List.prefix_rfl, hs⟩

theorem trans (h : Keeps s t) (h' : Keeps t u) : Keeps s u :=
  ⟨h.variableCount_le.trans h'.variableCount_le, h.clauses.trans h'.clauses, h'.ready⟩

theorem grown {n : Nat} {clauses : Formula} (hs : s.Ready) (hn : s.variableCount ≤ n)
    (hclauses : clauses.Allocated n) : Keeps s (s.grown n clauses) := by
  have hformula : (s.grown n clauses).formula = s.formula ++ clauses := formula_grown ..
  refine ⟨hn, hformula ▸ List.prefix_append .., hs.grows ⟨n, clauses, hn, rfl⟩ ?_⟩
  rw [hformula]
  exact (hs.allocated.mono hn).append hclauses

theorem of_extends (hs : s.Ready) (h : Extends s t) : Keeps s t := by
  obtain ⟨n, clauses, rfl, hdefines⟩ := h
  exact .grown hs hdefines.le hdefines.allocated

theorem of_sameRecord (hs : s.Ready) (h : SameRecord s t) (ht : t.Handed) : Keeps s t where
  variableCount_le := h.variableCount.le
  clauses := h.formula ▸ List.prefix_rfl
  ready := ⟨h.variableCount ▸ hs.pos, h.formula ▸ hs.top, h.formula ▸ h.variableCount ▸ hs.allocated,
    ht⟩

end Keeps

theorem extends_of_builds {x : SolverM Literal Literal} {f : Assignment → Bool} (h : s.Builds x f) :
    Extends s (x.run s).2 ∧ Literal.isAllocated (x.run s).2.variableCount (x.run s).1 = true := by
  obtain ⟨l, n, clauses, hrun, hdefines, hl, -⟩ := h
  rw [hrun]
  exact ⟨⟨n, clauses, rfl, hdefines⟩, hl⟩

theorem extends_gate (engine : Engine) {step : GateStep Literal} (hs : s.Ready)
    (hstep : ∀ l ∈ step.operands, l.isAllocated s.variableCount = true) :
    let x := (step.run (literalAlgebra engine).toBoolAlgebra).run s
    Extends s x.2 ∧ x.1.isAllocated x.2.variableCount = true :=
  extends_of_builds (GateStep.builds_run engine step hs.pos hstep)

/-- A circuit on allocated literals gives such, or it is refused and does nothing. -/
theorem extends_circuit (engine : Engine) {step : CircuitStep Literal} {r : Registers Literal}
    (hs : s.Ready) (helems : ∀ l ∈ step.elems, l.isAllocated s.variableCount = true)
    (hoperands : step.Operands r) (hr : r.Allocated s.variableCount) :
    let alg := (literalAlgebra engine).toBoolAlgebra
    (∃ outcome r' t, (step.run alg alg.tensorGates r).run.run s = (.ok (outcome, r'), t) ∧
      Extends s t ∧ (∀ l, outcome = .element l → l.isAllocated t.variableCount = true) ∧
      r'.Allocated t.variableCount) ∨
    ∃ e, (step.run alg alg.tensorGates r).run.run s = (.error e, s) := by
  intro alg
  -- Which literals can be read does not depend on the assignment, so any will do.
  let σ : Assignment := fun _ => true
  have hrun := (reading_realizes engine σ).run_circuit rfl (fun _ => rfl) hs.pos
    (readable_iff.2 hr) step
    (fun l hl => ⟨Literal.holds σ l, helems l hl, fun _ _ => rfl⟩) hoperands
  refine hrun.imp_left ?_
  rintro ⟨outcome, r', t, hrun, hgrows, houtcome, hr'⟩
  refine ⟨outcome, r', t, hrun, hgrows, fun l hl => ?_, readable_iff.1 hr'⟩
  obtain ⟨_, hallocated, -⟩ := houtcome l hl
  exact hallocated

theorem keeps_addClause (engine : Engine) (hs : s.Ready) (clause : Clause) :
    Keeps s (((literalAlgebra engine).addClause clause).run.run s).2 := by
  change Keeps s ((SolverStep.addClause clause).next engine s)
  rw [SolverStep.next_addClause]
  split
  · exact .refl hs
  · rename_i hfind
    exact .grown hs le_rfl (by simpa [Formula.Allocated] using hfind)

theorem keeps_forM_addClause (engine : Engine) (hs : s.Ready) (rows : Formula) :
    Keeps s ((rows.forM (literalAlgebra engine).addClause).run.run s).2 := by
  induction rows generalizing s with
  | nil => exact .refl hs
  | cons c rows ih =>
    -- Clauses before the first one that is refused are recorded.
    have hkeeps := keeps_addClause engine hs c
    rw [List.forM]
    rcases hrun : ((literalAlgebra engine).addClause c).run.run s with ⟨_ | _, t⟩
    · rw [hrun] at hkeeps
      rwa [run_bind_of_error hrun]
    · rw [hrun] at hkeeps
      rw [run_bind_of_ok hrun]
      exact hkeeps.trans (ih hkeeps.ready)

theorem keeps_tensorClauses (engine : Engine) (hs : s.Ready) (tensors : List (Tensor Literal)) :
    Keeps s (((literalAlgebra engine).tensorClauses tensors).run.run s).2 := by
  cases tensors with
  | nil => exact keeps_addClause engine hs []
  | cons first others =>
    rw [SatAlgebra.tensorClauses]
    split
    · exact .refl hs
    · exact keeps_forM_addClause engine hs _

theorem run_mapM_value_snd (engine : Engine) (elems : List Literal) (s : Solver Literal) :
    ((elems.mapM (literalAlgebra engine).value).run.run s).2 = s := by
  induction elems with
  | nil => rfl
  | cons l elems ih =>
    have hvalue : (((literalAlgebra engine).value l).run.run s).2 = s :=
      (run_bind_pure_snd _ _ s).symm.trans (SolverStep.next_value engine l s)
    rw [List.mapM_cons]
    rcases hl : ((literalAlgebra engine).value l).run.run s with ⟨_ | value, t⟩
    · obtain rfl : t = s := by rwa [hl] at hvalue
      rw [run_bind_of_error hl]
    · obtain rfl : t = s := by rwa [hl] at hvalue
      rw [run_bind_of_ok hl, run_bind_pure_snd, ih]

/-- An operation on single literals keeps a solver ready. -/
theorem keeps_next (engine : Engine) (hs : s.Ready) (step : SolverStep)
    (hstep : ∀ gate, step = .gate gate →
      ∀ l ∈ gate.operands, l.isAllocated s.variableCount = true) :
    Keeps s (step.next engine s) := by
  cases step with
  | addVariable =>
    rw [SolverStep.next_addVariable]
    exact .grown hs (Nat.le_succ _) (by simp [Formula.Allocated])
  | gate gate => exact .of_extends hs (extends_gate engine hs (hstep gate rfl)).1
  | addClause clause => exact keeps_addClause engine hs clause
  | findModel assumptions =>
    obtain ⟨hsame, hhanded⟩ := SolverStep.next_findModel engine assumptions hs.handed
    exact .of_sameRecord hs hsame hhanded
  | value l =>
    rw [SolverStep.next_value]
    exact .refl hs

theorem keeps_circuit (engine : Engine) (hs : s.Ready) {step : CircuitStep Literal}
    {r : Registers Literal} (helems : ∀ l ∈ step.elems, l.isAllocated s.variableCount = true)
    (hoperands : step.Operands r) (hr : r.Allocated s.variableCount) :
    let alg := (literalAlgebra engine).toBoolAlgebra
    Keeps s ((step.run alg alg.tensorGates r).run.run s).2 := by
  intro alg
  rcases extends_circuit engine hs helems hoperands hr with ⟨_, _, t, hrun, hextends, -⟩ | ⟨e, hrun⟩
  · rw [hrun]
    exact .of_extends hs hextends
  · rw [hrun]
    exact .refl hs

/-- Variables, clauses, solving and reading a model keep a solver ready, whatever they are asked. -/
theorem keeps_constraint (engine : Engine) (hs : s.Ready) (step : ConstraintStep Literal)
    (r : Registers Literal) : Keeps s ((step.run (literalAlgebra engine) r).run.run s).2 := by
  cases step with
  | addVariable =>
    rw [ConstraintStep.run, run_bind_pure_snd]
    exact keeps_next engine hs .addVariable nofun
  | addClause clause =>
    rw [ConstraintStep.run, run_bind_pure_snd]
    exact keeps_addClause engine hs clause
  | findModel assumptions =>
    have hnext := keeps_next engine hs (.findModel assumptions) nofun
    rw [SolverStep.next, SolverStep.run, run_bind_pure_snd] at hnext
    rwa [ConstraintStep.run, run_bind_pure_snd]
  | value l =>
    have hnext := keeps_next engine hs (.value l) nofun
    rw [SolverStep.next, SolverStep.run, run_bind_pure_snd] at hnext
    rwa [ConstraintStep.run, run_bind_pure_snd]
  | tensorVariables dims =>
    rw [ConstraintStep.run]
    cases Shape.ofInts dims with
    | error e =>
      rw [run_bind_of_error (run_liftM_except (.error e) s)]
      exact .refl hs
    | ok shape =>
      rw [run_bind_of_ok (run_liftM_except (.ok shape) s), run_bind_pure_snd, run_tensorVariables]
      exact .grown hs (Nat.le_add_right ..) (by simp [Formula.Allocated])
  | tensorClauses tensors =>
    rw [ConstraintStep.run, run_bind_pure_snd]
    exact keeps_tensorClauses engine hs _
  | tensorValues t =>
    -- Reading values changes nothing, also where it is refused part-way.
    have hvalues := run_mapM_value_snd engine (r.tensor t).elems.toList s
    rw [ConstraintStep.run, run_bind_pure_snd, SatAlgebra.tensorValues]
    rcases hrun : ((r.tensor t).elems.toList.mapM (literalAlgebra engine).value).run.run s with
      ⟨_ | values, u⟩
    · obtain rfl : u = s := by rwa [hrun] at hvalues
      rw [run_bind_of_error hrun]
      exact .refl hs
    · obtain rfl : u = s := by rwa [hrun] at hvalues
      rw [run_bind_of_ok hrun, run_liftM_except]
      exact .refl hs

/-- An operation that is called on allocated literals keeps a solver ready. -/
theorem keeps_call (hs : s.Ready) (call : SolverCall) (hcall : call.Admits s) :
    Keeps s (call.next s) := by
  obtain ⟨engine, r, instruction⟩ := call
  cases instruction with
  | gate gate =>
    rw [SolverCall.next, SolverCall.run, Instruction.run, run_bind_pure_snd]
    exact .of_extends hs (extends_gate engine hs hcall).1
  | circuit step => exact keeps_circuit engine hs hcall.1 hcall.2.1 hcall.2.2
  | constrain step => exact keeps_constraint engine hs step r

/-! ### Several operations -/

theorem keeps_afterCalls (hs : s.Ready) {calls : List SolverCall} (hcalls : s.Admits calls) :
    Keeps s (s.afterCalls calls) := by
  induction calls generalizing s with
  | nil => exact .refl hs
  | cons call calls ih =>
    -- The other operations are called on what is allocated after this one.
    have hkeeps := keeps_call hs call hcalls.1
    exact hkeeps.trans (ih hkeeps.ready hcalls.2)

theorem Ready.findModel_answers (hs : s.Ready) (engine : Engine) {assumptions : List Literal}
    (h : ∀ l ∈ assumptions, l.isAllocated s.variableCount = true) :
    (∃ answer t, ((literalAlgebra engine).findModel assumptions).run.run s = (.ok answer, t)) ∨
      ∃ reason t, engine.GivesUp reason ∧
        ((literalAlgebra engine).findModel assumptions).run.run s = (.error (.gaveUp reason), t) := by
  have hrun := congrArg Prod.fst (hs.findModel_eq engine h)
  cases hanswer : (engine.solve (s.submit.2.held.toList ++ Formula.units assumptions)).answer with
  | ok answer => exact .inl ⟨answer, _, Prod.ext (hrun.trans hanswer) rfl⟩
  | error e =>
    obtain ⟨reason, hreason, rfl⟩ := Verdict.answer_eq_error_iff.1 hanswer
    exact .inr ⟨reason, _, ⟨_, hreason⟩, Prod.ext (hrun.trans hanswer) rfl⟩

/-- After operations on literals that are allocated at the time, the first clause is that of
variable 1, all recorded literals are allocated, and further operations neither take variables away
nor change the clauses so far. Gates and circuits on allocated literals then give such; a clause with
another literal is refused; and a solve with allocated assumptions answers, unless the engine gives
up. -/
theorem allocated_afterCalls {calls : List SolverCall} (hcalls : new.Admits calls) :
    let s := new.afterCalls calls
    s.formula.head? = some [1] ∧
    s.formula.Allocated s.variableCount ∧
    (∀ more, s.Admits more → s.variableCount ≤ (s.afterCalls more).variableCount ∧
      s.formula <+: (s.afterCalls more).formula) ∧
    (∀ (engine : Engine) (step : GateStep Literal),
      (∀ l ∈ step.operands, l.isAllocated s.variableCount = true) →
      let x := (step.run (literalAlgebra engine).toBoolAlgebra).run s
      x.1.isAllocated x.2.variableCount = true) ∧
    (∀ (engine : Engine) (step : CircuitStep Literal) (r : Registers Literal),
      (∀ l ∈ step.elems, l.isAllocated s.variableCount = true) → step.Operands r →
      r.Allocated s.variableCount →
      let alg := (literalAlgebra engine).toBoolAlgebra
      (∃ outcome r' t, (step.run alg alg.tensorGates r).run.run s = (.ok (outcome, r'), t) ∧
        (∀ l, outcome = .element l → l.isAllocated t.variableCount = true) ∧
        r'.Allocated t.variableCount) ∨
      ∃ e, (step.run alg alg.tensorGates r).run.run s = (.error e, s)) ∧
    (∀ (engine : Engine) (clause : Clause) (l : Literal), l ∈ clause →
      l.isAllocated s.variableCount = false →
      ∃ e, ((literalAlgebra engine).addClause clause).run.run s = (.error e, s)) ∧
    ∀ (engine : Engine) (assumptions : List Literal),
      (∀ l ∈ assumptions, l.isAllocated s.variableCount = true) →
      let solve := ((literalAlgebra engine).findModel assumptions).run.run s
      (∃ answer t, solve = (.ok answer, t)) ∨
        ∃ reason t, engine.GivesUp reason ∧ solve = (.error (.gaveUp reason), t) := by
  intro s
  have hkeeps : Keeps new s := keeps_afterCalls .new hcalls
  have hs := hkeeps.ready
  refine ⟨?_, hs.allocated, fun more hmore => ?_, fun engine step hstep => ?_,
    fun engine step r helems hoperands hr => ?_, fun engine clause l hl hother => ?_,
    fun engine assumptions => hs.findModel_answers engine⟩
  · obtain ⟨clauses, hclauses⟩ := hkeeps.clauses
    rw [← hclauses]
    rfl
  · have hmore := keeps_afterCalls hs hmore
    exact ⟨hmore.variableCount_le, hmore.clauses⟩
  · exact (extends_gate engine hs hstep).2
  · refine (extends_circuit engine hs helems hoperands hr).imp_left ?_
    rintro ⟨outcome, r', t, hrun, -, houtcome, hr'⟩
    exact ⟨outcome, r', t, hrun, houtcome, hr'⟩
  · -- The clause is refused for the first literal that is not allocated, perhaps another one.
    have hrun := run_addClause s clause
    cases hfind : clause.find? fun l => !l.isAllocated s.variableCount with
    | none =>
      rw [List.find?_eq_none] at hfind
      exact absurd (by simp [hother]) (hfind l hl)
    | some other =>
      rw [hfind] at hrun
      exact ⟨_, hrun⟩

/-- Seven operations, of which a clause and a solve are refused. -/
theorem allocated_afterCalls_refused :
    let calls : List SolverCall := [.constrain .addVariable, .constrain .addVariable,
      .gate (.gate .or 2 3), .constrain (.addClause [5]), .circuit (.bitGate .xor 0 1),
      .constrain (.findModel [9]), .constrain (.addClause [5, -4])].map fun instruction =>
        ⟨searchEngine, ⟨⟨#[.ofList .dense [2, -1], .ofList .dense [3, 4]]⟩, #[]⟩, instruction⟩
    let s := new.afterCalls calls
    new.Admits calls ∧ s.formula.Allocated s.variableCount ∧
      s.formula = [[1], [-2, 4], [-3, 4], [2, 3, -4], [-2, -3, -5], [2, 3, -5], [2, -3, 5],
        [-2, 3, 5], [5, -4]] ∧
      ∃ answer t, ((literalAlgebra searchEngine).findModel [2, -5]).run.run s = (.ok answer, t) := by
  intro calls s
  have hcalls : new.Admits calls := by decide +kernel
  obtain ⟨-, hallocated, -, -, -, -, hsolve⟩ := allocated_afterCalls hcalls
  have hassumptions : ∀ l ∈ [2, -5], Literal.isAllocated s.variableCount l = true := by
    decide +kernel
  refine ⟨hcalls, hallocated, by decide +kernel, ?_⟩
  obtain hanswer | ⟨reason, t, hreason, -⟩ := hsolve searchEngine [2, -5] hassumptions
  · exact hanswer
  · exact absurd hreason (searchEngine_correct.decides reason)

end Solver

end BoolTensor
