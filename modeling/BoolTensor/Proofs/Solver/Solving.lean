import BoolTensor.Proofs.Solver.Growth

/-!
# Handing clauses over and solving

Clauses are handed over when a model is looked for: those recorded since all of them had been, up to
the first with a literal that is not allocated. So the engine may hold clauses more than once, and
it may lack some, but only where the call was refused. When it is asked, it holds just the recorded
clauses.

## Main definitions

* `Formula.locate`: refuses the first literal that is not allocated
* `Formula.accepted`: the clauses before the first with such a literal
* `Formula.units`: one clause for each literal
* `Solver.Handed`: the engine holds recorded clauses only, and all that were handed over
-/

namespace BoolTensor

/-! ### Refused literals -/

namespace Formula

/-- Refuses the first literal that is not allocated. -/
def locate (count : Nat) (f : Formula) : Except Error Unit :=
  f.forM fun c => c.forM (Solver.locate count)

/-- The clauses before the first with a literal that is not allocated. -/
def accepted (count : Nat) (f : Formula) : Formula :=
  f.takeWhile fun c => c.all (Literal.isAllocated count)

/-- One clause for each literal. -/
def units (literals : List Literal) : Formula :=
  literals.map fun l => [l]

variable {n : Nat} {f g : Formula} {σ : Assignment} {literals : List Literal}

theorem allocated_accepted (n : Nat) (f : Formula) : (f.accepted n).Allocated n := by
  intro c hc
  have hall := List.mem_takeWhile_imp (p := fun c : Clause => c.all (Literal.isAllocated n)) hc
  exact List.all_eq_true.1 hall

theorem mem_of_mem_accepted {c : Clause} (hc : c ∈ f.accepted n) : c ∈ f :=
  (List.takeWhile_sublist _).mem hc

theorem accepted_eq_self (h : f.Allocated n) : f.accepted n = f :=
  List.takeWhile_eq_self_iff.2 fun c hc => List.all_eq_true.2 (h c hc)

theorem holds_units :
    (units literals).holds σ = true ↔ ∀ l ∈ literals, Literal.holds σ l = true := by
  simp [holds_iff, units]

theorem allocated_units : (units literals).Allocated n ↔ ∀ l ∈ literals, l.isAllocated n = true := by
  simp [Allocated, units]

end Formula

theorem Solver.locate_literal (n : Nat) (l : Literal) :
    Solver.locate n l =
      if l.isAllocated n then .ok () else .error (.invalidLiteral (.int l)) := by
  rw [Solver.locate, LiteralForm.checkAllocated_literal]
  split_ifs <;> rfl

theorem Clause.forM_locate_eq_ok {n : Nat} {c : Clause} :
    c.forM (Solver.locate n) = .ok () ↔ ∀ l ∈ c, l.isAllocated n = true := by
  rw [forM_eq_ok]
  refine forall₂_congr fun l _ => ?_
  rw [Solver.locate_literal]
  split_ifs with hl <;> simp [hl]

namespace Formula

variable {n : Nat} {f g : Formula}

theorem locate_eq_ok : f.locate n = .ok () ↔ f.Allocated n :=
  forM_eq_ok.trans (forall₂_congr fun _ _ => Clause.forM_locate_eq_ok)

theorem locate_cons (n : Nat) (c : Clause) (f : Formula) :
    locate n (c :: f) = (c.forM (Solver.locate n) >>= fun _ => f.locate n) := rfl

theorem locate_append (n : Nat) (f g : Formula) :
    locate n (f ++ g) = (f.locate n >>= fun _ => g.locate n) :=
  List.forM_append ..

/-- What is refused in a formula is refused in what comes after clauses that are not. -/
theorem locate_append_of_allocated (h : f.Allocated n) : locate n (f ++ g) = g.locate n := by
  rw [locate_append, locate_eq_ok.2 h]
  rfl

end Formula

theorem Solver.mapM_assumed (n : Nat) (literals : List Literal) :
    literals.mapM (Solver.assumed n) = (Formula.units literals).locate n >>= fun _ => .ok literals := by
  induction literals with
  | nil => rfl
  | cons l literals ih =>
    have hassumed : (Solver.assumed n l : Except Error Literal) =
        Solver.locate n l >>= fun _ => .ok l := by
      rw [Solver.locate_literal, ← LiteralForm.checkAllocated_literal]
      rfl
    have hunits : (Formula.units (l :: literals)).locate n =
        Solver.locate n l >>= fun _ => (Formula.units literals).locate n := by
      rw [Formula.units, List.map_cons, Formula.locate_cons]
      cases hl : Solver.locate n l <;> simp [hl] <;> rfl
    rw [List.mapM_cons, hassumed, ih, hunits]
    cases Solver.locate n l with
    | error e => rfl
    | ok value => cases (Formula.units literals).locate n <;> rfl

namespace Solver

/-! ### Handing over -/

/-- Handing clauses over refuses what is refused in them, and keeps those before it. -/
theorem handOver_eq (n : Nat) (held : Array Clause) (clauses : Formula) :
    handOver n held clauses = (clauses.locate n, held ++ (clauses.accepted n).toArray) := by
  induction clauses generalizing held with
  | nil => simp [handOver, Formula.locate, Formula.accepted, pure, Except.pure]
  | cons c clauses ih =>
    rw [handOver, Formula.locate_cons, Formula.accepted, List.takeWhile_cons, ← Formula.accepted]
    have hc := Clause.forM_locate_eq_ok (n := n) (c := c)
    rw [← List.all_eq_true] at hc
    cases hlocate : c.forM (Solver.locate n) with
    | error e =>
      rw [hlocate] at hc
      simp [← hc, bind, Except.bind]
    | ok value =>
      rw [hlocate] at hc
      simp [hc.1, ih, bind, Except.bind, LiteralForm.literal]

/-- A hand-over changes only what is held, and what counts as handed over if nothing is refused. -/
theorem submit_eq (s : Solver Literal) :
    s.submit =
      (Formula.locate s.variableCount (s.formula.drop s.submitted),
        { s with
          held := s.held ++
            (Formula.accepted s.variableCount (s.formula.drop s.submitted)).toArray
          submitted :=
            match Formula.locate s.variableCount (s.formula.drop s.submitted) with
            | .ok () => s.formula.length
            | .error _ => s.submitted }) := by
  rw [submit, handOver_eq, formula_eq, Array.length_toList]
  cases Formula.locate s.variableCount (s.clauses.toList.drop s.submitted) <;> rfl

/-- The engine holds recorded clauses only, among them all that were recorded when the last
hand-over was complete, and their literals are allocated. -/
structure Handed (s : Solver Literal) : Prop where
  submitted_le : s.submitted ≤ s.formula.length
  recorded : ∀ c ∈ s.held.toList, c ∈ s.formula
  allocated : Formula.Allocated s.variableCount s.held.toList
  handed : ∀ c ∈ s.formula.take s.submitted, c ∈ s.held.toList

namespace Handed

variable {s t : Solver Literal}

theorem new : Handed new where
  submitted_le := Nat.zero_le _
  recorded := by simp [Solver.new]
  allocated := by simp [Solver.new, Formula.Allocated]
  handed := by simp [Solver.new]

theorem grows (h : s.Handed) (hgrows : s.Grows t) : t.Handed := by
  obtain ⟨n, clauses, hle, rfl⟩ := hgrows
  constructor
  · simpa using h.submitted_le.trans (Nat.le_add_right _ _)
  · intro c hc
    rw [formula_grown]
    exact List.mem_append_left _ (h.recorded c hc)
  · exact h.allocated.mono hle
  · rw [formula_grown, submitted_grown, List.take_append_of_le_length h.submitted_le]
    exact h.handed

/-- Clauses that were handed over are not refused again. -/
theorem locate_drop (h : s.Handed) :
    Formula.locate s.variableCount (s.formula.drop s.submitted) =
      s.formula.locate s.variableCount := by
  have htake : Formula.Allocated s.variableCount (s.formula.take s.submitted) :=
    fun c hc => h.allocated c (h.handed c hc)
  rw [← Formula.locate_append_of_allocated htake, List.take_append_drop]

theorem submit_fst (h : s.Handed) : s.submit.1 = s.formula.locate s.variableCount := by
  rw [submit_eq, h.locate_drop]

theorem mem_held_submit (h : s.Handed) (hs : s.formula.Allocated s.variableCount) {c : Clause}
    (hc : c ∈ s.formula) : c ∈ s.submit.2.held.toList := by
  have hdrop : Formula.Allocated s.variableCount (s.formula.drop s.submitted) :=
    fun c hc => hs c (List.mem_of_mem_drop hc)
  rw [submit_eq, Formula.accepted_eq_self hdrop, Array.toList_append]
  rw [← List.take_append_drop s.submitted s.formula] at hc
  rcases List.mem_append.1 hc with hc | hc
  · exact List.mem_append_left _ (h.handed c hc)
  · exact List.mem_append_right _ hc

/-- A hand-over keeps the hand-over as it should be, whether something is refused or not. -/
theorem submit (h : s.Handed) : s.submit.2.Handed := by
  have hformula : s.submit.2.formula = s.formula := by
    rw [submit_eq]
    rfl
  have hheld : s.submit.2.held.toList = s.held.toList ++
      Formula.accepted s.variableCount (s.formula.drop s.submitted) := by
    rw [submit_eq, Array.toList_append]
  constructor
  · rw [hformula, submit_eq]
    dsimp only
    split
    · exact le_rfl
    · exact h.submitted_le
  · rw [hformula, hheld]
    intro c hc
    rcases List.mem_append.1 hc with hc | hc
    · exact h.recorded c hc
    · exact List.mem_of_mem_drop (Formula.mem_of_mem_accepted hc)
  · rw [hheld]
    rw [submit_eq]
    exact h.allocated.append (Formula.allocated_accepted _ _)
  · intro c hc
    by_cases hs : s.formula.Allocated s.variableCount
    · rw [hformula] at hc
      exact h.mem_held_submit hs (List.mem_of_mem_take hc)
    · -- Then what counts as handed over stays as it was.
      rw [hformula, submit_eq, h.locate_drop] at hc
      rw [← Formula.locate_eq_ok] at hs
      rw [hheld]
      refine List.mem_append_left _ (h.handed c ?_)
      cases hlocate : s.formula.locate s.variableCount with
      | error e => simpa [hlocate] using hc
      | ok value => exact absurd hlocate hs

/-- If nothing is refused, what is held is true just where all recorded clauses are. -/
theorem holds_held_submit (h : s.Handed) (hs : s.formula.Allocated s.variableCount)
    (σ : Assignment) :
    Formula.holds σ s.submit.2.held.toList = true ↔ s.formula.holds σ = true := by
  have hformula : s.submit.2.formula = s.formula := by
    rw [submit_eq]
    rfl
  constructor
  · exact fun hσ => Formula.holds_of_subset hσ fun c hc => h.mem_held_submit hs hc
  · exact fun hσ => Formula.holds_of_subset hσ fun c hc => hformula ▸ h.submit.recorded c hc

end Handed

/-! ### Solving and reading -/

/-- Looking for a model refuses what is refused in the recorded clauses and in the assumptions, and
asks the engine otherwise. -/
theorem run_findModel {s : Solver Literal} (hs : s.Handed) (engine : Engine)
    (assumptions : List Literal) :
    (findModel engine assumptions : ExceptT Error (SolverM Literal) Bool).run.run s =
      match Formula.locate s.variableCount (s.formula ++ Formula.units assumptions) with
      | .error e => (.error e, s.submit.2)
      | .ok () =>
        let verdict := engine.solve (s.submit.2.held.toList ++ Formula.units assumptions)
        (verdict.answer,
          { s.submit.2 with
            model := verdict.assignment?.map fun σ => ⟨s.variableCount, σ⟩ }) := by
  have hcount : s.submit.2.variableCount = s.variableCount := by
    rw [submit_eq]
  rw [findModel, run_bind_of_ok (run_getThe s), Formula.locate_append, ← hs.submit_fst]
  dsimp only
  rw [run_bind_of_ok (run_set s _)]
  cases hresult : s.submit.1 with
  | error e => exact run_bind_of_error (run_liftM_except (.error e) _)
  | ok value =>
    rw [run_bind_of_ok (run_liftM_except (.ok value) _), hcount, mapM_assumed]
    cases (Formula.units assumptions).locate s.variableCount with
    | error e => exact run_bind_of_error (run_liftM_except (.error e) _)
    | ok value =>
      refine (run_bind_of_ok (run_liftM_except (.ok assumptions) _)).trans ?_
      exact (run_bind_of_ok (run_set _ _)).trans (run_liftM_except _ _)

/-- Reading refuses any literal where there is no model, and otherwise one that is not allocated or
was allocated after the model was found. It changes nothing. -/
theorem run_value_eq (s : Solver Literal) (l : Literal) :
    (value l : ExceptT Error (SolverM Literal) Bool).run.run s =
      (match s.model with
      | none => .error .noModel
      | some model =>
        if l.isAllocated s.variableCount then
          if l.natAbs ≤ model.variableCount then .ok (l.holds model.assignment)
          else .error (.createdAfterSolve (.int l))
        else .error (.invalidLiteral (.int l)), s) := by
  rw [value, run_bind_of_ok (run_getThe s)]
  cases s.model with
  | none => rfl
  | some model =>
    dsimp only
    rw [run_liftM_except, valueIn, LiteralForm.checkAllocated_literal]
    have hexceeds : LiteralForm.exceeds l model.variableCount =
        .ok (decide (model.variableCount < l.natAbs)) := rfl
    rw [hexceeds]
    by_cases hl : l.isAllocated s.variableCount = true
    · rw [if_pos hl, if_pos hl]
      by_cases hle : l.natAbs ≤ model.variableCount
      · rw [if_pos hle, decide_eq_false hle.not_gt]
        rfl
      · rw [if_neg hle, decide_eq_true (not_le.1 hle)]
        rfl
    · rw [if_neg hl, if_neg hl]
      rfl

/-- A literal that was allocated when the model was found has its value in the model. -/
theorem run_value {s : Solver Literal} {n : Nat} {σ : Assignment} {l : Literal}
    (hs : s.model = some ⟨n, σ⟩) (hl : l.isAllocated n = true) (hn : n ≤ s.variableCount) :
    (value l : ExceptT Error (SolverM Literal) Bool).run.run s = (.ok (l.holds σ), s) := by
  rw [run_value_eq, hs]
  dsimp only
  rw [if_pos (Literal.isAllocated_mono hl hn), if_pos (Literal.isAllocated_iff.1 hl).2]

end Solver

end BoolTensor
