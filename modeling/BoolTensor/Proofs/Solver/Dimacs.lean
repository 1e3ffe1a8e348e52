import BoolTensor.Proofs.Cnf.Dimacs
import BoolTensor.Proofs.Program.Reach

/-!
# The DIMACS text of a solver

A solver whose operations were called on allocated literals records no zero, so that its text can be
read back, and tells the variables and clauses of two such solvers apart.
-/

namespace BoolTensor

namespace Solver

variable {s t : Solver Literal}

theorem toList_dimacs (s : Solver Literal) :
    s.dimacs.toList = Dimacs.write s.variableCount s.formula := by
  rw [dimacs, String.toList_ofList, formula_eq]
  rfl

/-- The text depends on the variables and clauses only, and no other ones have it. -/
theorem dimacs_eq_iff (hs : s.Ready) (ht : t.Ready) :
    s.dimacs = t.dimacs ↔ s.variableCount = t.variableCount ∧ s.clauses = t.clauses := by
  have hnonzero {u : Solver Literal} (hu : u.Ready) : ∀ c ∈ u.formula, ∀ l ∈ c, l ≠ 0 :=
    fun c hc l hl => (Literal.isAllocated_iff.1 (hu.allocated c hc l hl)).1
  rw [← String.toList_inj, toList_dimacs, toList_dimacs,
    Dimacs.write_inj (hnonzero hs) (hnonzero ht), formula_eq, formula_eq, Array.toList_inj]

/-- After operations on literals that are allocated at the time, the words of a solver's text are
those of the header and of the integers that stand for the clauses, a zero after each. The numbers of
variables and clauses are read back from it, and the clauses with their literals in order, all of
which are allocated. So two such solvers have the same text just where they have as many variables
and the same clauses. -/
theorem dimacs_reads_back {calls : List SolverCall} (hcalls : new.Admits calls) :
    let s := new.afterCalls calls
    Dimacs.words s.dimacs.toList =
      ['p'] :: ['c', 'n', 'f'] :: Nat.toDigits 10 s.variableCount ::
        Nat.toDigits 10 s.clauses.size :: (Dimacs.integers s.clauses.toList).map Dimacs.integer ∧
    Dimacs.read? s.dimacs.toList = some (s.variableCount, s.clauses.size, s.clauses.toList) ∧
    (∀ clause ∈ s.clauses, ∀ l ∈ clause, l ≠ 0 ∧ l.natAbs ≤ s.variableCount) ∧
    ∀ others, new.Admits others →
      let t := new.afterCalls others
      s.dimacs = t.dimacs ↔ s.variableCount = t.variableCount ∧ s.clauses = t.clauses := by
  intro s
  have hs : s.Ready := (keeps_afterCalls .new hcalls).ready
  have hallocated : ∀ clause ∈ s.clauses.toList, ∀ l ∈ clause, l ≠ 0 ∧ l.natAbs ≤ s.variableCount :=
    fun clause hclause l hl =>
      Literal.isAllocated_iff.1 (hs.allocated clause (s.formula_eq ▸ hclause) l hl)
  have hnonzero : ∀ clause ∈ s.clauses.toList, ∀ l ∈ clause, l ≠ 0 :=
    fun clause hclause l hl => (hallocated clause hclause l hl).1
  rw [toList_dimacs, formula_eq, Dimacs.words_write, Dimacs.read?_write _ hnonzero,
    Array.length_toList]
  refine ⟨rfl, rfl, fun clause hclause => hallocated clause (Array.mem_toList_iff.2 hclause),
    fun others hothers => ?_⟩
  exact dimacs_eq_iff hs (keeps_afterCalls .new hothers).ready

/-- A text with an empty clause and with literals of two digits. -/
theorem dimacs_reads_back_empty_clause :
    let instructions : List (Instruction Literal) := List.replicate 9 (.constrain .addVariable) ++
      [.gate (.gate .or (-3) 10), .constrain (.addClause []), .constrain (.addClause [-11, 5])]
    let calls : List SolverCall := instructions.map fun instruction =>
      ⟨searchEngine, .empty, instruction⟩
    let s := new.afterCalls calls
    new.Admits calls ∧
      s.dimacs = "p cnf 11 6\n1 0\n3 11 0\n-10 11 0\n-3 10 -11 0\n0\n-11 5 0\n" ∧
      Dimacs.read? s.dimacs.toList =
        some (11, 6, [[1], [3, 11], [-10, 11], [-3, 10, -11], [], [-11, 5]]) := by
  intro instructions calls s
  have hcalls : new.Admits calls := by decide +kernel
  obtain ⟨-, hread, -, -⟩ := dimacs_reads_back hcalls
  have hcount : s.variableCount = 11 := by decide +kernel
  have hclauses : s.clauses = #[[1], [3, 11], [-10, 11], [-3, 10, -11], [], [-11, 5]] := by
    decide +kernel
  refine ⟨hcalls, by decide +kernel, hread.trans ?_⟩
  change some (s.variableCount, s.clauses.size, s.clauses.toList) = _
  rw [hcount, hclauses]
  rfl

end Solver

end BoolTensor
