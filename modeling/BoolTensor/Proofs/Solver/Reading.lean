import BoolTensor.Proofs.Algebra.Reading
import BoolTensor.Proofs.Solver.Gates

/-!
# Literals read under an assignment

Under an assignment a literal is read as its value wherever the assignment makes the recorded clauses
true, and a later solver is one whose new clauses define its new variables. The gates on literals
give what is read as their values, so every circuit over literals does. What a circuit gives does not
depend on the assignment.

## Main definitions

* `Solver.Extends`: a later solver, whose new clauses define its new variables
* `Solver.reading`: literals read under an assignment
-/

namespace BoolTensor

namespace Solver

/-- The later solver has further variables, and further clauses that define these. -/
def Extends (s t : Solver Literal) : Prop :=
  ∃ (n : Nat) (clauses : Formula), t = s.grown n clauses ∧
    Formula.Defines clauses s.variableCount [] n

namespace Extends

variable {s t u : Solver Literal}

theorem refl (s : Solver Literal) : Extends s s :=
  ⟨s.variableCount, [], s.grown_self.symm, .nil _⟩

theorem trans (h : Extends s t) (h' : Extends t u) : Extends s u := by
  obtain ⟨n, clauses, rfl, hdefines⟩ := h
  obtain ⟨m, more, rfl, hdefines'⟩ := h'
  exact ⟨m, clauses ++ more, s.grown_grown n m clauses more, hdefines.append hdefines'⟩

theorem variableCount_le (h : Extends s t) : s.variableCount ≤ t.variableCount := by
  obtain ⟨n, clauses, rfl, hdefines⟩ := h
  exact hdefines.le

theorem formula_holds (h : Extends s t) {σ : Assignment} (hσ : t.formula.holds σ = true) :
    s.formula.holds σ = true := by
  obtain ⟨n, clauses, rfl, -⟩ := h
  rw [formula_grown, Formula.holds_append] at hσ
  exact hσ.1

end Extends

/-- Literals are read as their values wherever the assignment makes the recorded clauses true. -/
def reading (σ : Assignment) : Reading (Solver Literal) Literal where
  kind := .dense
  valid s := 1 ≤ s.variableCount
  grows := Extends
  reads s l value := l.isAllocated s.variableCount = true ∧
    (σ 1 = true → s.formula.holds σ = true → Literal.holds σ l = value)
  grows_refl := .refl
  grows_trans := .trans
  valid_of_grows h hs := hs.trans h.variableCount_le
  reads_of_grows h hl := ⟨Literal.isAllocated_mono hl.1 h.variableCount_le,
    fun htop hσ => hl.2 htop (h.formula_holds hσ)⟩

variable {s : Solver Literal} {σ : Assignment}

/-- What is built is read as its value. -/
theorem Builds.gives {x : SolverM Literal Literal} {f : Assignment → Bool} {value : Bool}
    (h : s.Builds x f) (hf : σ 1 = true → s.formula.holds σ = true → f σ = value) :
    (reading σ).Gives s x fun t l => (reading σ).reads t l value := by
  obtain ⟨l, n, clauses, hrun, hdefines, halloc, hvalue⟩ := h
  have hruns : Runs.run x s = (l, s.grown n clauses) := hrun
  rw [Reading.Gives, hruns]
  refine ⟨⟨n, clauses, rfl, hdefines⟩, halloc, fun htop hσ => ?_⟩
  rw [formula_grown, Formula.holds_append] at hσ
  rw [hvalue σ htop hσ.2, hf htop hσ.1]

theorem reads_map {elems : List Literal} {values : List Bool}
    (h : (reading σ).ReadsList s elems values) (htop : σ 1 = true) (hσ : s.formula.holds σ = true) :
    elems.map (Literal.holds σ) = values := by
  induction h with
  | nil => rfl
  | cons ha _ ih => rw [List.map_cons, ha.2 htop hσ, ih]

theorem isAllocated_of_mem_reads {elems : List Literal} {values : List Bool}
    (h : (reading σ).ReadsList s elems values) :
    ∀ l ∈ elems, l.isAllocated s.variableCount = true := by
  induction h with
  | nil => simp
  | cons ha _ ih => exact List.forall_mem_cons.2 ⟨ha.1, ih⟩

/-- Every gate on literals gives what is read as its value. -/
theorem reading_realizes (engine : Engine) (σ : Assignment) :
    (reading σ).Realizes (literalAlgebra engine).toBoolAlgebra where
  kind_eq := rfl
  lift s value hs := (builds_lift value hs).gives fun _ _ => rfl
  neg s a value _ ha := by
    refine .pure ⟨by simpa using ha.1, fun htop hσ => ?_⟩
    rw [Literal.holds_neg σ (Literal.ne_zero_of_isAllocated ha.1), ha.2 htop hσ]
  gate s g a b v w _ ha hb := (builds_gate g ha.1 hb.1).gives fun htop hσ => by
    rw [ha.2 htop hσ, hb.2 htop hσ]
  maj s a b c v w u _ ha hb hc := (builds_maj ha.1 hb.1 hc.1).gives fun htop hσ => by
    rw [ha.2 htop hσ, hb.2 htop hσ, hc.2 htop hσ]
  sum3 s a b c v w u _ ha hb hc := (builds_sum3 ha.1 hb.1 hc.1).gives fun htop hσ => by
    rw [ha.2 htop hσ, hb.2 htop hσ, hc.2 htop hσ]
  reduce s reduction elems values hs helems :=
    (builds_reduce reduction elems hs (isAllocated_of_mem_reads helems)).gives fun htop hσ => by
      rw [reads_map helems htop hσ]
  keeps s a value ha := ha

end Solver

end BoolTensor
