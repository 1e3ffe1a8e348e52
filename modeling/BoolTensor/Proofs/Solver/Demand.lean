import BoolTensor.Proofs.Solver.History
import BoolTensor.Proofs.Solver.Reading

/-!
# What is demanded of the variables there are

A program allocates variables, builds circuits on them and records clauses over the results. In
effect it restricts the assignments of the variables that were there before: those that satisfy its
condition extend to models of all clauses, and no others do. Such conditions add up along a program,
and solving afterwards finds a model just if they can be satisfied.

## Main definitions

* `Solver.Ready`: all literals are allocated, variable 1 is true, and the hand-over is as it should
  be
* `Assignment.DependsUpTo`: a condition on the first variables
* `Solver.Constrains`: the later solver adds a condition on the variables of the earlier one
-/

namespace BoolTensor

/-- The condition depends on the values of the first variables only. -/
def Assignment.DependsUpTo (n : Nat) (P : Assignment → Prop) : Prop :=
  ∀ σ τ : Assignment, σ.AgreeUpTo n τ → P σ → P τ

theorem Assignment.DependsUpTo.mono {n m : Nat} {P : Assignment → Prop}
    (h : Assignment.DependsUpTo n P) (hle : n ≤ m) : Assignment.DependsUpTo m P :=
  fun σ τ hagree => h σ τ (hagree.mono hle)

namespace Solver

variable {s t u : Solver Literal} {P Q : Assignment → Prop} {rows : Formula}

/-- All literals are allocated, variable 1 is true, and the hand-over is as it should be. -/
structure Ready (s : Solver Literal) : Prop where
  pos : 1 ≤ s.variableCount
  top : [1] ∈ s.formula
  allocated : s.formula.Allocated s.variableCount
  handed : s.Handed

theorem Ready.new : Ready new where
  pos := le_rfl
  top := List.mem_singleton.2 rfl
  allocated c hc l hl := by
    obtain rfl := List.mem_singleton.1 hc
    obtain rfl := List.mem_singleton.1 hl
    rfl
  handed := .new

theorem Ready.holds_top (hs : s.Ready) {σ : Assignment} (hσ : s.formula.holds σ = true) :
    σ 1 = true := by
  simpa using Formula.holds_iff.1 hσ _ hs.top

/-- What only adds clauses of allocated literals keeps a solver ready. -/
theorem Ready.grows (hs : s.Ready) (hgrows : s.Grows t)
    (hallocated : t.formula.Allocated t.variableCount) : t.Ready := by
  obtain ⟨n, clauses, hle, rfl⟩ := hgrows
  refine ⟨hs.pos.trans hle, ?_, hallocated, hs.handed.grows ⟨n, clauses, hle, rfl⟩⟩
  rw [formula_grown]
  exact List.mem_append_left _ hs.top

/-- New variables restrict nothing. -/
theorem ready_variables {n : Nat} (hn : 1 ≤ n) : (new.grown n []).Ready :=
  Ready.new.grows ⟨n, [], hn, rfl⟩ (Ready.new.allocated.mono hn)

/-! ### Clauses of a circuit -/

/-- The literals of clauses are read as truth values in the same order. -/
def ReadsRows (σ : Assignment) (s : Solver Literal) (rows : Formula) (values : List (List Bool)) :
    Prop :=
  List.Forall₂ ((reading σ).ReadsList s) rows values

namespace ReadsRows

variable {σ : Assignment} {values : List (List Bool)}

theorem allocated (h : ReadsRows σ s rows values) : rows.Allocated s.variableCount := by
  induction h with
  | nil => simp [Formula.Allocated]
  | cons hrow _ ih => exact List.forall_mem_cons.2 ⟨isAllocated_of_mem_reads hrow, ih⟩

/-- Clauses hold just if one literal of each is read as true. -/
theorem holds_iff (h : ReadsRows σ s rows values) (htop : σ 1 = true)
    (hσ : s.formula.holds σ = true) : rows.holds σ = true ↔ ∀ row ∈ values, true ∈ row := by
  induction h with
  | nil => simp
  | @cons c row rows values hrow _ ih =>
    have hclause : c.holds σ = true ↔ true ∈ row := by
      rw [← reads_map hrow htop hσ, List.mem_map]
      exact Clause.holds_iff
    rw [Formula.holds_cons, Bool.and_eq_true, hclause, ih, List.forall_mem_cons]

end ReadsRows

/-! ### Conditions -/

/-- The later solver adds the condition to those on the variables of the earlier one: its clauses
imply the condition, and what satisfies the condition extends to a model of them. -/
structure Constrains (s t : Solver Literal) (P : Assignment → Prop) : Prop where
  grows : s.Grows t
  allocated : t.formula.Allocated t.variableCount
  sound : ∀ σ : Assignment, t.formula.holds σ = true → P σ
  complete : ∀ σ : Assignment, s.formula.holds σ = true → P σ →
    ∃ τ : Assignment, σ.AgreeUpTo s.variableCount τ ∧ t.formula.holds τ = true

namespace Constrains

theorem ready (h : Constrains s t P) (hs : s.Ready) : t.Ready :=
  hs.grows h.grows h.allocated

theorem variableCount_le (h : Constrains s t P) : s.variableCount ≤ t.variableCount :=
  h.grows.variableCount_le

theorem reads (h : Constrains s t P) {σ : Assignment} {l : Literal} {value : Bool}
    (hl : (reading σ).reads s l value) : (reading σ).reads t l value :=
  ⟨Literal.isAllocated_mono hl.1 h.variableCount_le,
    fun htop hσ => hl.2 htop (h.grows.formula_holds hσ)⟩

/-- Conditions on variables that there were at first add up. -/
theorem trans (h : Constrains s t P) (h' : Constrains t u Q)
    (hQ : Assignment.DependsUpTo s.variableCount Q) : Constrains s u fun σ => P σ ∧ Q σ where
  grows := h.grows.trans h'.grows
  allocated := h'.allocated
  sound σ hσ := ⟨h.sound σ (h'.grows.formula_holds hσ), h'.sound σ hσ⟩
  complete σ hσ hP := by
    obtain ⟨τ, hτ, hformula⟩ := h.complete σ hσ hP.1
    obtain ⟨υ, hυ, hformula'⟩ := h'.complete τ hformula (hQ σ τ hτ hP.2)
    exact ⟨υ, hτ.trans (hυ.mono h.variableCount_le), hformula'⟩

theorem congr (h : Constrains s t P)
    (hPQ : ∀ σ : Assignment, s.formula.holds σ = true → (P σ ↔ Q σ)) : Constrains s t Q where
  grows := h.grows
  allocated := h.allocated
  sound σ hσ := (hPQ σ (h.grows.formula_holds hσ)).1 (h.sound σ hσ)
  complete σ hσ hQ := h.complete σ hσ ((hPQ σ hσ).2 hQ)

/-- Clauses over variables that are defined by those there were at first add what they say of
these. -/
theorem of_clauses (hs : s.Ready) (h : Extends s t) (hrows : rows.Allocated t.variableCount)
    (hP : ∀ σ : Assignment, t.formula.holds σ = true → (rows.holds σ = true ↔ P σ))
    (hdepends : Assignment.DependsUpTo s.variableCount P) :
    Constrains s (t.grown t.variableCount rows) P := by
  obtain ⟨n, clauses, rfl, hdefines⟩ := h
  have hclauses := hdefines.allocated
  constructor
  · exact Grows.trans ⟨n, clauses, hdefines.le, rfl⟩ ⟨n, rows, le_rfl, rfl⟩
  · simp only [formula_grown, variableCount_grown]
    exact ((hs.allocated.mono hdefines.le).append hclauses).append hrows
  · intro σ hσ
    rw [formula_grown, Formula.holds_append] at hσ
    exact (hP σ hσ.1).1 hσ.2
  · intro σ hσ hPσ
    -- The new variables are set to the values of the gates, and the others stay.
    obtain ⟨τ, hτ, -, hτclauses⟩ := hdefines.extends_to σ
    have hformula : (s.grown n clauses).formula.holds τ = true := by
      rw [formula_grown, Formula.holds_append, ← hs.allocated.holds_congr hτ]
      exact ⟨hσ, hτclauses⟩
    refine ⟨τ, hτ, ?_⟩
    rw [formula_grown, Formula.holds_append]
    exact ⟨hformula, (hP τ hformula).2 (hdepends σ τ hτ hPσ)⟩

/-- Clauses whose literals are read as known values demand a true one of each clause. -/
theorem of_rows {values : Assignment → List (List Bool)} (hs : s.Ready) (h : Extends s t)
    (hrows : ∀ σ, ReadsRows σ t rows (values σ))
    (hdepends : Assignment.DependsUpTo s.variableCount fun σ => ∀ row ∈ values σ, true ∈ row) :
    Constrains s (t.grown t.variableCount rows) fun σ => ∀ row ∈ values σ, true ∈ row := by
  refine of_clauses hs h (hrows fun _ => true).allocated (fun σ hσ => ?_) hdepends
  exact (hrows σ).holds_iff (hs.holds_top (h.formula_holds hσ)) hσ

end Constrains

/-! ### Recording clauses -/

theorem run_forM_addClause (engine : Engine) (hrows : rows.Allocated s.variableCount) :
    (rows.forM (literalAlgebra engine).addClause).run.run s =
      (.ok (), s.grown s.variableCount rows) := by
  induction rows generalizing s with
  | nil =>
    rw [grown_self]
    rfl
  | cons c rows ih =>
    have hclause : ((literalAlgebra engine).addClause c).run.run s =
        (.ok (), s.grown s.variableCount [c]) := run_addClause_of_allocated (hrows c (by simp))
    rw [List.forM, run_bind_of_ok hclause]
    refine (ih (s := s.grown s.variableCount [c]) fun c hc => hrows c (by simp [hc])).trans ?_
    rw [variableCount_grown, grown_grown]
    rfl

/-- What a circuit gives does not depend on the assignment under which literals are read. -/
theorem returns_forall {β : Type} {x : ExceptT Error (SolverM Literal) β}
    {P : Assignment → Solver Literal → β → Prop} (h : ∀ σ, (reading σ).Returns s x (P σ)) :
    ∃ b t, x.run.run s = (.ok b, t) ∧ Extends s t ∧ ∀ σ, P σ t b := by
  obtain ⟨b, t, hrun, hgrows, -⟩ := h fun _ => true
  refine ⟨b, t, hrun, hgrows, fun σ => ?_⟩
  obtain ⟨b', t', hrun', -, hP⟩ := h σ
  obtain ⟨hb, rfl⟩ := Prod.mk.inj (hrun.symm.trans hrun')
  obtain rfl := Except.ok.inj hb
  exact hP

/-! ### Solving -/

/-- On a solver that is ready a solve asks the engine, and leaves the model that it gives. -/
theorem Ready.findModel_eq (hs : s.Ready) (engine : Engine) {assumptions : List Literal}
    (h : ∀ l ∈ assumptions, l.isAllocated s.variableCount = true) :
    ((literalAlgebra engine).findModel assumptions).run.run s =
      let verdict := engine.solve (s.submit.2.held.toList ++ Formula.units assumptions)
      (verdict.answer,
        { s.submit.2 with model := verdict.assignment?.map fun σ => ⟨s.variableCount, σ⟩ }) := by
  have hlocate : Formula.locate s.variableCount (s.formula ++ Formula.units assumptions) = .ok () :=
    Formula.locate_eq_ok.2 (hs.allocated.append (Formula.allocated_units.2 h))
  have hrun := Solver.run_findModel hs.handed engine assumptions
  rw [hlocate] at hrun
  exact hrun

/-- On a solver that is ready a solve is not refused. It leaves a model if there is one. -/
theorem Ready.run_findModel (hs : s.Ready) {engine : Engine} (hengine : engine.Correct) :
    (∃ (σ : Assignment) (t : Solver Literal), s.formula.holds σ = true ∧
      ((literalAlgebra engine).findModel []).run.run s = (.ok true, t) ∧
      t.variableCount = s.variableCount ∧ t.model = some ⟨s.variableCount, σ⟩) ∨
    (¬s.formula.Satisfiable ∧ ∃ t : Solver Literal,
      ((literalAlgebra engine).findModel []).run.run s = (.ok false, t)) := by
  have hasked (σ : Assignment) :
      Formula.holds σ (s.submit.2.held.toList ++ Formula.units []) = true ↔
        s.formula.holds σ = true := by
    rw [hs.handed.holds_asked hs.allocated, show s.formula ++ Formula.units [] = s.formula from
      List.append_nil _]
  have hrun := hs.findModel_eq engine (List.forall_mem_nil _)
  cases hsolve : engine.solve (s.submit.2.held.toList ++ Formula.units []) with
  | satisfied σ =>
    rw [hsolve] at hrun
    refine .inl ⟨σ, _, (hasked σ).1 (hengine.sound _ _ hsolve), hrun, ?_, rfl⟩
    rw [submit_eq]
  | refuted =>
    rw [hsolve] at hrun
    refine .inr ⟨?_, _, hrun⟩
    rintro ⟨σ, hσ⟩
    exact hengine.complete _ hsolve ⟨σ, (hasked σ).2 hσ⟩
  | unknown reason => exact absurd ⟨_, hsolve⟩ (hengine.decides reason)

/-- Solving after a condition was demanded finds an assignment that satisfies it, if there is one. -/
theorem Constrains.run_findModel (h : Constrains s t P) (hs : s.Ready) {engine : Engine}
    (hengine : engine.Correct) :
    (∃ (σ : Assignment) (u : Solver Literal), P σ ∧
      ((literalAlgebra engine).findModel []).run.run t = (.ok true, u) ∧
      u.variableCount = t.variableCount ∧ u.model = some ⟨t.variableCount, σ⟩) ∨
    ((∀ σ : Assignment, s.formula.holds σ = true → ¬P σ) ∧ ∃ u : Solver Literal,
      ((literalAlgebra engine).findModel []).run.run t = (.ok false, u)) := by
  rcases (h.ready hs).run_findModel hengine with ⟨σ, u, hσ, hrun, hcount, hmodel⟩ | ⟨hnone, hrun⟩
  · exact .inl ⟨σ, u, h.sound σ hσ, hrun, hcount, hmodel⟩
  · refine .inr ⟨fun σ hσ hP => hnone ?_, hrun⟩
    obtain ⟨τ, -, hτ⟩ := h.complete σ hσ hP
    exact ⟨τ, hτ⟩

/-- The values of literals that were allocated when the model was found are read from it. -/
theorem run_mapM_value (engine : Engine) {n : Nat} {σ : Assignment} {elems : List Literal}
    (hs : s.model = some ⟨n, σ⟩) (hn : n ≤ s.variableCount)
    (helems : ∀ l ∈ elems, l.isAllocated n = true) :
    (elems.mapM (literalAlgebra engine).value).run.run s =
      (.ok (elems.map (Literal.holds σ)), s) := by
  induction elems with
  | nil => rfl
  | cons l elems ih =>
    have hl : ((literalAlgebra engine).value l).run.run s = (.ok (l.holds σ), s) :=
      run_value hs (helems l (by simp)) hn
    have htail := ih fun l hl => helems l (by simp [hl])
    rw [List.mapM_cons, run_bind_of_ok hl, run_bind_of_ok htail]
    rfl

end Solver

end BoolTensor
