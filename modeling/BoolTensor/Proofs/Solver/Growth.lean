import BoolTensor.Program.Circuit
import BoolTensor.Proofs.Solver.Constraints

/-!
# Gates only add to a solver

Whatever integers it is given, a gate on literals at most allocates variables and records further
clauses: nothing that is there is changed, and neither is what the engine holds. What it adds depends
on the number of variables only. No literal needs to be allocated for this.

## Main definitions

* `Solver.Grows`: a later solver has further variables and clauses, and is the same otherwise
* `Solver.OnlyAdds`: computations that add the same to all solvers with so many variables
-/

namespace BoolTensor

namespace Solver

open LiteralForm SignedForm

/-- The later solver has further variables and clauses, and is the same otherwise. -/
def Grows (s t : Solver Literal) : Prop :=
  ∃ (n : Nat) (clauses : Formula), s.variableCount ≤ n ∧ t = s.grown n clauses

namespace Grows

variable {s t u : Solver Literal}

theorem refl (s : Solver Literal) : Grows s s :=
  ⟨s.variableCount, [], le_rfl, s.grown_self.symm⟩

theorem trans (h : Grows s t) (h' : Grows t u) : Grows s u := by
  obtain ⟨n, clauses, hle, rfl⟩ := h
  obtain ⟨m, more, hle', rfl⟩ := h'
  exact ⟨m, clauses ++ more, hle.trans hle', s.grown_grown n m clauses more⟩

theorem variableCount_le (h : Grows s t) : s.variableCount ≤ t.variableCount := by
  obtain ⟨n, clauses, hle, rfl⟩ := h
  exact hle

theorem formula_holds (h : Grows s t) {σ : Assignment} (hσ : t.formula.holds σ = true) :
    s.formula.holds σ = true := by
  obtain ⟨n, clauses, -, rfl⟩ := h
  rw [formula_grown, Formula.holds_append] at hσ
  exact hσ.1

end Grows

/-- The computation gives the same and adds the same wherever there are as many variables, and
does nothing else. -/
def OnlyAdds {β : Type} (x : SolverM Literal β) : Prop :=
  ∀ k : Nat, ∃ (value : β) (n : Nat) (clauses : Formula), k ≤ n ∧
    ∀ s : Solver Literal, s.variableCount = k → x.run s = (value, s.grown n clauses)

namespace OnlyAdds

variable {β γ : Type} {x : SolverM Literal β}

theorem grows (hx : OnlyAdds x) (s : Solver Literal) : s.Grows (x.run s).2 := by
  obtain ⟨value, n, clauses, hle, hrun⟩ := hx s.variableCount
  exact ⟨n, clauses, hle, congrArg Prod.snd (hrun s rfl)⟩

theorem pure (value : β) : OnlyAdds (Pure.pure value) := by
  refine fun k => ⟨value, k, [], le_rfl, ?_⟩
  rintro s rfl
  rw [grown_self]
  rfl

theorem bind {f : β → SolverM Literal γ} (hx : OnlyAdds x) (hf : ∀ value, OnlyAdds (f value)) :
    OnlyAdds (x >>= f) := by
  intro k
  obtain ⟨value, n, clauses, hle, hrun⟩ := hx k
  obtain ⟨value', m, more, hle', hrun'⟩ := hf value n
  refine ⟨value', m, clauses ++ more, hle.trans hle', fun s hs => ?_⟩
  rw [StateT.run_bind, hrun s hs, ← grown_grown]
  exact hrun' _ rfl

theorem foldlM {f : β → γ → SolverM Literal β} (hf : ∀ start value, OnlyAdds (f start value))
    (start : β) (values : List γ) : OnlyAdds (values.foldlM f start) := by
  induction values generalizing start with
  | nil => exact pure start
  | cons value values ih =>
    rw [List.foldlM_cons]
    exact bind (hf start value) ih

/-! ### Gates -/

theorem introduce (clauses : Literal → Formula) :
    OnlyAdds (Solver.introduce fun d => Pure.pure (clauses d)) := by
  refine fun k => ⟨((k + 1 : Nat) : Int), k + 1, clauses ((k + 1 : Nat) : Int), k.le_succ, ?_⟩
  rintro s rfl
  rfl

theorem gate (g : Gate) (a b : Literal) : OnlyAdds (Solver.gate g a b) :=
  of_gate pure introduce (fun _ hx => hx.bind fun l => pure (-l)) g a b

theorem maj (a b c : Literal) : OnlyAdds (Solver.maj a b c) := by
  rw [maj_eq]
  split
  · exact pure _
  · split
    · rename_i x hfound
      obtain ⟨⟨d, e, f⟩, -, hconstant⟩ := List.exists_of_findSome?_eq_some hfound
      simp only [majConstant?] at hconstant
      split_ifs at hconstant
      · cases hconstant
        exact gate .or e f
      · cases hconstant
        exact gate .and e f
    · exact introduce _

theorem sum3 (a b c : Literal) : OnlyAdds (Solver.sum3 a b c) := by
  rw [sum3_eq]
  split
  · exact (gate .xor _ _).bind fun l => gate .xor l _
  · exact introduce _

theorem reduce (reduction : Reduction) (elems : Thunk (List Literal)) :
    OnlyAdds (BoolAlgebra.reduceBy (fun value => Pure.pure (lift value)) Solver.gate reduction
      elems) := by
  cases reduction with
  | all => exact (pure _).bind fun start => foldlM (gate .and) start _
  | any => exact (pure _).bind fun start => foldlM (gate .or) start _
  | sum => exact (pure _).bind fun start => foldlM (gate .xor) start _

/-- A gate on any integers only adds to a solver. -/
theorem run (engine : Engine) (step : GateStep Literal) :
    OnlyAdds (step.run (literalAlgebra engine).toBoolAlgebra) := by
  cases step with
  | lift value => exact pure _
  | neg a => exact pure _
  | gate g a b => exact gate g a b
  | maj a b c => exact maj a b c
  | sum3 a b c => exact sum3 a b c
  | reduce reduction elems => exact reduce reduction _

end OnlyAdds

end Solver

end BoolTensor
