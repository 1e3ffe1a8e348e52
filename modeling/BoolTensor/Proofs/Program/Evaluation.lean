import BoolTensor.Proofs.Program.Circuit
import BoolTensor.Proofs.Solver.Demand

/-!
# Programs over literals and over their values

A program of circuits over literals builds formulas, and the same program over the algebra of truth
computes. Under every assignment that makes the recorded clauses true the literals have the values
that the second program computes, after each instruction.

## Main definitions

* `CircuitStep.overLiterals`, `CircuitStep.overValues`: an instruction over literals, and over their
  values under an assignment
* `Registers.EvaluateTo`: the values of literals, vector by vector
-/

namespace BoolTensor

/-! ### Both programs -/

namespace CircuitStep

/-- An instruction over the literals of a solver. -/
def overLiterals (engine : Engine) (step : CircuitStep Literal) (r : Registers Literal) :
    ExceptT Error (SolverM Literal) (Outcome Literal × Registers Literal) :=
  step.run (literalAlgebra engine).toBoolAlgebra (literalAlgebra engine).tensorGates r

/-- The same instruction over the values of literals under an assignment. -/
def overValues (σ : Assignment) (step : CircuitStep Literal) (q : Registers Bool) :
    Except Error (Outcome Bool × Registers Bool) :=
  (step.map (Literal.holds σ)).run (truthAlgebra : BoolAlgebra Id Bool) truthAlgebra.tensorGates q

end CircuitStep

/-- The literals of the first vectors are allocated, and the second vectors hold their values. -/
structure Registers.EvaluateTo (σ : Assignment) (count : Nat) (r : Registers Literal)
    (q : Registers Bool) : Prop where
  views_eq : r.views = q.views
  vectors : r.bank.Corresponds (fun v w => v.kind = .dense ∧
    (∀ l ∈ v.toList, l.isAllocated count = true) ∧
    w.Holds .packed (v.toList.map (Literal.holds σ))) q.bank
  tensors : ∀ number < r.views.size, r.HasTensor number ∧ (r.tensor number).WellFormed

namespace Solver

open Reading

variable {σ : Assignment} {s : Solver Literal} {r : Registers Literal} {q : Registers Bool}

/-! ### Values of literals -/

theorem readsAlike_holds {l : Literal} (hl : l.isAllocated s.variableCount = true) :
    ReadsAlike (reading σ) truth s () l (Literal.holds σ l) :=
  ⟨Literal.holds σ l, ⟨hl, fun _ _ => rfl⟩, rfl⟩

theorem registersAlike_of_evaluateTo (h : r.EvaluateTo σ s.variableCount q) :
    RegistersAlike (reading σ) truth s () r q := by
  refine ⟨h.views_eq, h.vectors.imp ?_, h.tensors⟩
  rintro v w ⟨hkind, hallocated, hw⟩
  refine ⟨v.toList.map (Literal.holds σ), ⟨hkind, ?_, ?_⟩, .of_holds hw ?_⟩
  · cases v with
    | dense v => trivial
    | _ => cases hkind
  · exact List.forall₂_map_right_iff.2 (List.forall₂_same.2 fun l hl =>
      ⟨hallocated l hl, fun _ _ => rfl⟩)
  · exact List.forall₂_same.2 fun _ _ => rfl

theorem evaluateTo_of_registersAlike (htop : σ 1 = true) (hσ : s.formula.holds σ = true)
    (h : RegistersAlike (reading σ) truth s () r q) : r.EvaluateTo σ s.variableCount q := by
  refine ⟨h.views_eq, h.vectors.imp ?_, h.tensors⟩
  rintro v w ⟨values, hv, hw⟩
  refine ⟨hv.kind_eq, isAllocated_of_mem_reads hv.reads, hw.kind_eq, hw.wellFormed, ?_⟩
  rw [reads_map hv.reads htop hσ]
  exact List.forall₂_eq_eq_eq ▸ hw.reads

/-! ### Runs -/

/-- A program over literals is followed by the program over their values, which is read alike
wherever the recorded clauses hold. -/
theorem alike_runAll_values (engine : Engine) (hcount : 1 ≤ s.variableCount)
    (hrq : RegistersAlike (reading σ) truth s () r q) {steps : List (CircuitStep Literal)}
    (hliterals : ∀ step ∈ steps, ∀ l ∈ step.elems, l.isAllocated s.variableCount = true)
    (hsteps : Along (CircuitStep.overValues σ)
      (fun step q => step.Operands q ∧ step.Fits .packed q) steps q) :
    let x := (runAll (CircuitStep.overLiterals engine) steps r).run s
    let y := runAll (m := Id) (CircuitStep.overValues σ) steps q
    Extends s x.2 ∧ RegistersAlike (reading σ) truth x.2 () x.1.2 y.2 ∧
      List.Forall₂ (Agree (Outcome.Corresponds (ReadsAlike (reading σ) truth x.2 ())))
        x.1.1 y.1 := by
  have hcoupled : Coupled (reading σ) truth (literalAlgebra engine).toBoolAlgebra
      (truthAlgebra : BoolAlgebra Id Bool) s () :=
    ⟨reading_realizes engine σ, truth_realizes, hcount, trivial⟩
  have helems : ∀ step ∈ steps, ∀ l ∈ step.elems,
      ReadsAlike (reading σ) truth s () (id l) (Literal.holds σ l) :=
    fun step hstep l hl => readsAlike_holds (hliterals step hstep l hl)
  have hboth : Along (CircuitStep.overValues σ) (fun step q =>
      step.Operands q ∧ step.Fits .dense q ∧ step.Fits .packed q) steps q :=
    hsteps.imp fun step q h => ⟨h.1, h.2.dense, h.2⟩
  have hrun := alike_runAll hcoupled hrq id (Literal.holds σ) steps helems hboth
  simp only [CircuitStep.map_id] at hrun
  exact hrun

/-- Under an assignment that makes all recorded clauses true, the literals in the registers have
after each instruction the values that the program computes of the values of its inputs. Where an
instruction is refused it is over both, for the same reason. No more cells are made at once than can
be counted, and the values are cut within the limits of arrays. -/
theorem runAll_evaluateTo (engine : Engine) (hcount : 1 ≤ s.variableCount) (htop : [1] ∈ s.formula)
    (hinputs : r.EvaluateTo σ s.variableCount q) {steps : List (CircuitStep Literal)}
    (hliterals : ∀ step ∈ steps, ∀ l ∈ step.elems, l.isAllocated s.variableCount = true)
    (hsteps : Along (CircuitStep.overValues σ)
      (fun step q => step.Operands q ∧ step.Fits .packed q) steps q)
    (hσ : ((runAll (CircuitStep.overLiterals engine) steps r).run s).2.formula.holds σ = true)
    (n : Nat) :
    let x := (runAll (CircuitStep.overLiterals engine) (steps.take n) r).run s
    let y := runAll (m := Id) (CircuitStep.overValues σ) (steps.take n) q
    x.1.2.EvaluateTo σ x.2.variableCount y.2 ∧
      List.Forall₂ (Agree (Outcome.Corresponds fun l value =>
        l.isAllocated x.2.variableCount = true ∧ Literal.holds σ l = value)) x.1.1 y.1 := by
  intro x y
  have hrq := registersAlike_of_evaluateTo hinputs
  obtain ⟨hfirst, hrest⟩ := hsteps.split n
  obtain ⟨hextends, hregisters, houtcomes⟩ := alike_runAll_values engine hcount hrq
    (fun step hstep => hliterals step (List.mem_of_mem_take hstep)) hfirst
  -- The rest of the program only adds clauses to those that are recorded so far.
  have hlater := (alike_runAll_values engine (hcount.trans hextends.variableCount_le) hregisters
    (fun step hstep l hl => Literal.isAllocated_mono
      (hliterals step (List.mem_of_mem_drop hstep) l hl) hextends.variableCount_le) hrest).1
  have hwhole : (runAll (CircuitStep.overLiterals engine) (steps.take n ++ steps.drop n) r).run s =
      _ := runs_runAll_append (m := SolverM Literal) (steps.take n) (steps.drop n) r s
  rw [List.take_append_drop] at hwhole
  have hσ' : x.2.formula.holds σ = true :=
    hlater.formula_holds ((congrArg (fun result => result.2.formula.holds σ) hwhole).symm.trans hσ)
  have hone : σ 1 = true := by
    simpa using Formula.holds_iff.1 (hextends.formula_holds hσ') _ htop
  refine ⟨evaluateTo_of_registersAlike hone hσ' hregisters, houtcomes.imp fun _ _ hagree => ?_⟩
  refine hagree.imp fun _ _ ho => ho.imp ?_
  rintro l _ ⟨value, ⟨hl, hvalue⟩, rfl⟩
  exact ⟨hl, hvalue hone hσ'⟩

/-- A single vector of literals, and the tensor of its cells. -/
theorem evaluateTo_single (σ : Assignment) (count : Nat) (literals : List Literal)
    (hliterals : ∀ l ∈ literals, l.isAllocated count = true) :
    Registers.EvaluateTo σ count ⟨⟨#[.ofList .dense literals]⟩, #[⟨⟨[literals.length]⟩, 0⟩]⟩
      ⟨⟨#[.ofList .packed (literals.map (Literal.holds σ))]⟩, #[⟨⟨[literals.length]⟩, 0⟩]⟩ := by
  have helems : (Storage.ofList .dense literals).toList = literals :=
    (Storage.toList_ofList _ _).trans (List.map_id literals)
  have hvalues : (Storage.ofList .packed (literals.map (Literal.holds σ))).toList =
      literals.map (Literal.holds σ) :=
    (Storage.toList_ofList _ _).trans (List.map_id _)
  refine ⟨rfl, ⟨rfl, fun handle hhandle => ?_⟩, fun number hnumber => ?_⟩
  · obtain rfl : handle = 0 := Nat.lt_one_iff.1 hhandle
    change (Storage.ofList .dense literals).kind = .dense ∧
      (∀ l ∈ (Storage.ofList .dense literals).toList, l.isAllocated count = true) ∧
      (Storage.ofList .packed (literals.map (Literal.holds σ))).Holds .packed
        ((Storage.ofList .dense literals).toList.map (Literal.holds σ))
    rw [helems]
    exact ⟨rfl, hliterals, Storage.kind_ofList _ _, Storage.wellFormed_ofList _ _, hvalues⟩
  · obtain rfl : number = 0 := Nat.lt_one_iff.1 hnumber
    refine ⟨⟨Nat.one_pos, Nat.one_pos⟩, (Storage.length_toList _).symm.trans ?_⟩
    exact (congrArg List.length helems).trans (Nat.mul_one _).symm

/-- The conjunction of two literals is the negation of a new variable, which clauses define. -/
theorem runAll_evaluateTo_all :
    let σ : Assignment := fun v => v < 3
    let s : Solver Literal := new.grown 3 []
    let r : Registers Literal := ⟨⟨#[.ofList .dense [2, -3]]⟩, #[⟨⟨[2]⟩, 0⟩]⟩
    let q : Registers Bool := ⟨⟨#[.ofList .packed [true, true]]⟩, #[⟨⟨[2]⟩, 0⟩]⟩
    let steps : List (CircuitStep Literal) := [.tensorReduce .all 0, .get 1 [], .numSub 0 1]
    let x := (runAll (CircuitStep.overLiterals searchEngine) steps r).run s
    let y := runAll (m := Id) (CircuitStep.overValues σ) steps q
    x.2.formula.holds σ = true ∧ (x.1.2.EvaluateTo σ x.2.variableCount y.2 ∧
      List.Forall₂ (Agree (Outcome.Corresponds fun l value =>
        l.isAllocated x.2.variableCount = true ∧ Literal.holds σ l = value)) x.1.1 y.1) ∧
      x.1.1 = [.ok (.tensor 1), .ok (.element (-4)), .error (.operandLengths 2 1)] := by
  intro σ s r q steps x y
  have hσ : x.2.formula.holds σ = true := by decide +kernel
  have hsteps : Along (CircuitStep.overValues σ)
      (fun step q => step.Operands q ∧ step.Fits .packed q) steps q :=
    ⟨⟨Nat.one_pos, trivial⟩, ⟨Nat.one_lt_two, trivial⟩,
      ⟨⟨Nat.two_pos, Nat.one_lt_two⟩, trivial⟩, trivial⟩
  exact ⟨hσ, runAll_evaluateTo searchEngine (by decide) (by decide)
    (evaluateTo_single σ 3 [2, -3] (by decide)) (by decide) hsteps hσ 3, rfl⟩

/-- A vector of literals has no chunks longer than itself; that of their values is not cut. -/
theorem exists_runAll_ne : ∃ (r : Registers Literal) (q : Registers Bool),
    r.EvaluateTo (fun _ => true) 1 q ∧
    ((runAll (CircuitStep.overLiterals searchEngine) [.split 0 (2 ^ 63)] r).run new).1.1 =
      [.ok (.vectors [])] ∧
    (runAll (m := Id) (CircuitStep.overValues fun _ => true) [.split 0 (2 ^ 63)] q).1 =
      [.error .dimensionTooLarge] :=
  ⟨_, _, evaluateTo_single (fun _ => true) 1 [1, -1] (by decide), rfl, rfl⟩

end Solver

end BoolTensor
