import BoolTensor.Proofs.Circuit.Constraint

/-!
# Clauses of parallel tensors

What demanding clauses of tensors of integers records, whatever the integers are: one clause for
each number of a cell, up to the first with an integer that is no allocated literal.

## Main definitions

* `Tensor.parallelCells`: the cells that tensors have at the same coordinates, in the order of cells
-/

namespace BoolTensor

namespace Tensor

variable {α : Type} [Element α]

/-- The cells that tensors of a shape have at the same coordinates, in the order of the cells. -/
def parallelCells (shape : Shape) (tensors : List (Tensor α)) : List (List α) :=
  shape.cells fun coords => tensors.map fun t => t.cellAt coords

section Parallel

variable {shape : Shape} {tensors : List (Tensor α)} (ht : ∀ t ∈ tensors, t.WellFormed)
  (hshape : ∀ t ∈ tensors, t.shape = shape)

include ht hshape

theorem rowsOf_eq_parallelCells :
    SatAlgebra.rowsOf shape.size (tensors.map (·.elems.toList)) = parallelCells shape tensors := by
  have hcells : tensors.map (·.elems.toList) = (tensors.map cellAt).map shape.cells := by
    rw [List.map_map]
    refine List.map_congr_left fun t hmem => ?_
    rw [← cells_cellAt (ht t hmem), hshape t hmem]
    rfl
  rw [hcells, Solver.rowsOf_cells, parallelCells]
  simp only [List.map_map, Function.comp_def]

theorem exists_getElem?_parallelCells {i : Nat} (hi : i < shape.size) :
    ∃ row, (parallelCells shape tensors)[i]? = some row ∧
      List.Forall₂ (fun t a => t.elems.get (i : Int) = .ok a) tensors row := by
  refine ⟨tensors.map fun t => t.cellAt (shape.coordinates i), ?_, ?_⟩
  · rw [parallelCells, Shape.cells, List.getElem?_map, List.getElem?_range hi, Option.map_some]
  · rw [List.forall₂_map_right_iff, List.forall₂_same]
    intro t hmem
    have hlength : t.elems.length = shape.size :=
      (ht t hmem).trans (congrArg Shape.size (hshape t hmem))
    rw [cellAt, hshape t hmem, Shape.offset_coordinates hi]
    exact Storage.get_of_lt (hlength.symm ▸ hi)

/-- The cells of the rows are those of the tensors. -/
theorem forall_mem_parallelCells {P : α → Prop} :
    (∀ row ∈ parallelCells shape tensors, ∀ a ∈ row, P a) ↔
      ∀ t ∈ tensors, ∀ a ∈ t.elems.toList, P a := by
  rw [parallelCells, Shape.forall_mem_cells]
  simp only [List.forall_mem_map]
  constructor
  · intro h t hmem
    rw [← cells_cellAt (ht t hmem), Shape.forall_mem_cells, hshape t hmem]
    exact fun coords hcoords => h coords hcoords t hmem
  · intro h coords hcoords t hmem
    exact h t hmem _ (cellAt_mem (ht t hmem) ((hshape t hmem).symm ▸ hcoords))

end Parallel

end Tensor

namespace Solver

variable {s : Solver Literal} {rows : Formula} {σ : Assignment} {shape : Shape}
  {tensors : List (Tensor Literal)}

/-- The rows hold where at every coordinate one of the tensors does. -/
theorem holds_parallelCells_iff (ht : ∀ t ∈ tensors, t.WellFormed)
    (hshape : ∀ t ∈ tensors, t.shape = shape) :
    Formula.holds σ (Tensor.parallelCells shape tensors) = true ↔ ∀ coords, shape.Contains coords →
      ∃ t ∈ tensors, ∃ l, t.get (coords.map Int.ofNat) = .ok l ∧ Literal.holds σ l = true := by
  rw [Formula.holds_iff, Tensor.parallelCells, Shape.forall_mem_cells]
  refine forall₂_congr fun coords hcoords => ?_
  simp only [Clause.holds_iff, List.mem_map, exists_exists_and_eq_and]
  refine exists_congr fun t => and_congr_right fun hmem => ?_
  obtain rfl := hshape t hmem
  simp [Tensor.get_eq_cellAt (ht t hmem) hcoords]

/-! ### Up to the first refused clause -/

/-- Of clauses that are not all allocated, a first one is not, and neither is its first literal. -/
theorem exists_invalid {n : Nat} (h : ¬rows.Allocated n) : ∃ (before : Formula) (clause : Clause)
    (after : Formula) (l : Literal), rows = before ++ clause :: after ∧ before.Allocated n ∧
      clause.find? (fun l => !l.isAllocated n) = some l := by
  let invalid : Clause → Bool := fun clause => (clause.find? fun l => !l.isAllocated n).isSome
  have hvalid (clause : Clause) :
      invalid clause = false ↔ ∀ l ∈ clause, l.isAllocated n = true := by
    simp [invalid]
  cases hfound : rows.find? invalid with
  | none =>
    refine absurd (fun clause hclause => (hvalid clause).1 ?_) h
    exact Bool.eq_false_iff.2 (List.find?_eq_none.1 hfound clause hclause)
  | some clause =>
    obtain ⟨hinvalid, before, after, rfl, hbefore⟩ := List.find?_eq_some_iff_append.1 hfound
    obtain ⟨l, hl⟩ := Option.isSome_iff_exists.1 hinvalid
    refine ⟨before, clause, after, l, rfl, fun c hc => (hvalid c).1 ?_, hl⟩
    simpa using hbefore c hc

/-- What stands before the first refused clause is recorded. -/
theorem run_forM_addClause_of_invalid (engine : Engine) {before : Formula} {clause : Clause}
    {l : Literal} (after : Formula) (hbefore : before.Allocated s.variableCount)
    (hclause : clause.find? (fun l => !l.isAllocated s.variableCount) = some l) :
    ((before ++ clause :: after).forM (literalAlgebra engine).addClause).run.run s =
      (.error (.invalidClause l clause), s.grown s.variableCount before) := by
  have hrefused : ((literalAlgebra engine).addClause clause).run.run
      (s.grown s.variableCount before) =
        (.error (.invalidClause l clause), s.grown s.variableCount before) := by
    refine (run_addClause (s.grown s.variableCount before) clause).trans ?_
    rw [variableCount_grown, hclause]
  rw [List.forM_eq_forM, List.forM_append, ← List.forM_eq_forM,
    run_bind_of_ok (run_forM_addClause engine hbefore), List.forM]
  exact run_bind_of_error hrefused

theorem tensorClauses_of_mismatch (engine : Engine) {first : Tensor Literal}
    {others : List (Tensor Literal)} (h : ∃ other ∈ others, other.shape ≠ first.shape) :
    ∃ other ∈ others, other.shape ≠ first.shape ∧
      (literalAlgebra engine).tensorClauses (first :: others) =
        throw (.shapeMismatch first.shape.dims other.shape.dims) := by
  cases hfound : others.find? fun u => u.shape ≠ first.shape with
  | none =>
    obtain ⟨other, hmem, hne⟩ := h
    exact absurd (List.find?_eq_none.1 hfound other hmem) (by simpa using hne)
  | some other =>
    refine ⟨other, List.mem_of_find?_eq_some hfound, ?_, ?_⟩
    · simpa using List.find?_some hfound
    · rw [SatAlgebra.tensorClauses, hfound]

/-- No tensors leave the empty clause, and tensors of several shapes are refused with nothing
recorded. Else there is a clause for each number of a cell, of the cells that the tensors have there
in their order, so that the clauses hold where at every coordinate one of the tensors does. They are
all recorded if all cells are allocated literals, and otherwise those before the first clause with
one that is not. -/
theorem tensorClauses_records (engine : Engine) (s : Solver Literal) :
    ((literalAlgebra engine).tensorClauses []).run.run s =
      (.ok (), s.grown s.variableCount [[]]) ∧
    ∀ (first : Tensor Literal) (others : List (Tensor Literal)),
      (∀ t ∈ first :: others, t.WellFormed) →
      ((∃ other ∈ others, other.shape ≠ first.shape) →
        ∃ other ∈ others, other.shape ≠ first.shape ∧
          ((literalAlgebra engine).tensorClauses (first :: others)).run.run s =
            (.error (.shapeMismatch first.shape.dims other.shape.dims), s)) ∧
      ((∀ other ∈ others, other.shape = first.shape) → ∃ rows : Formula,
        rows.length = first.shape.size ∧
        (∀ i < first.shape.size, ∃ row, rows[i]? = some row ∧
          List.Forall₂ (fun t l => t.elems.get (i : Int) = .ok l) (first :: others) row) ∧
        (∀ σ, rows.holds σ = true ↔ ∀ coords, first.shape.Contains coords →
          ∃ t ∈ first :: others, ∃ l, t.get (coords.map Int.ofNat) = .ok l ∧
            Literal.holds σ l = true) ∧
        ((∀ t ∈ first :: others, ∀ l ∈ t.elems.toList, l.isAllocated s.variableCount = true) →
          ((literalAlgebra engine).tensorClauses (first :: others)).run.run s =
            (.ok (), s.grown s.variableCount rows)) ∧
        ((∃ t ∈ first :: others, ∃ l ∈ t.elems.toList, l.isAllocated s.variableCount = false) →
          ∃ (before : Formula) (row : Clause) (after : Formula) (l : Literal),
            rows = before ++ row :: after ∧ before.Allocated s.variableCount ∧
            l ∈ row ∧ l.isAllocated s.variableCount = false ∧
            ((literalAlgebra engine).tensorClauses (first :: others)).run.run s =
              (.error (.invalidClause l row), s.grown s.variableCount before))) := by
  refine ⟨run_addClause_of_allocated (by simp), fun first others ht => ⟨?mismatch, ?rows⟩⟩
  case mismatch =>
    intro hshape
    obtain ⟨other, hother, hne, hrun⟩ := tensorClauses_of_mismatch engine hshape
    refine ⟨other, hother, hne, ?_⟩
    rw [hrun]
    rfl
  case rows =>
    intro hothers
    have hshape : ∀ t ∈ first :: others, t.shape = first.shape :=
      List.forall_mem_cons.2 ⟨rfl, hothers⟩
    have hlength : ∀ t ∈ first :: others, t.elems.length = first.shape.size := fun t hmem =>
      (ht t hmem).trans (congrArg Shape.size (hshape t hmem))
    have hclauses : (literalAlgebra engine).tensorClauses (first :: others) =
        (Tensor.parallelCells first.shape (first :: others)).forM
          (literalAlgebra engine).addClause := by
      rw [← Tensor.rowsOf_eq_parallelCells ht hshape]
      exact tensorClauses_of_shape (List.cons_ne_nil first others) hshape hlength
    refine ⟨Tensor.parallelCells first.shape (first :: others), Shape.length_cells _ _,
      fun i hi => Tensor.exists_getElem?_parallelCells ht hshape hi,
      fun σ => holds_parallelCells_iff ht hshape, fun hall => ?_, ?_⟩
    · rw [hclauses]
      exact run_forM_addClause engine ((Tensor.forall_mem_parallelCells ht hshape).2 hall)
    · rintro ⟨t, hmem, l, hl, hinvalid⟩
      obtain ⟨before, row, after, bad, hrows, hbefore, hbad⟩ := exists_invalid
        fun hall : Formula.Allocated s.variableCount _ => by
          have hvalid := (Tensor.forall_mem_parallelCells ht hshape).1 hall t hmem l hl
          rw [hinvalid] at hvalid
          cases hvalid
      refine ⟨before, row, after, bad, hrows, hbefore, List.mem_of_find?_eq_some hbad,
        by simpa using List.find?_some hbad, ?_⟩
      rw [hclauses, hrows]
      exact run_forM_addClause_of_invalid engine after hbefore hbad

/-- Over three variables two pairs of literals leave two clauses; a pair with a fourth variable is
refused, and so is a single literal beside a pair. -/
theorem tensorClauses_records_pairs :
    let s : Solver Literal := new.grown 3 []
    let pair : Tensor Literal := ⟨⟨[2]⟩, .ofList .dense [2, 3]⟩
    let other : Tensor Literal := ⟨⟨[2]⟩, .ofList .dense [-2, 1]⟩
    let invalid : Tensor Literal := ⟨⟨[2]⟩, .ofList .dense [-3, 4]⟩
    let single : Tensor Literal := ⟨⟨[]⟩, .ofList .dense [1]⟩
    (∃ rows : Formula, rows.length = 2 ∧ rows[1]? = some [3, 1] ∧
      ((literalAlgebra searchEngine).tensorClauses [pair, other]).run.run s =
        (.ok (), s.grown 3 rows)) ∧
    (∃ before row l,
      ((literalAlgebra searchEngine).tensorClauses [pair, invalid]).run.run s =
        (.error (.invalidClause l row), s.grown 3 before)) ∧
    ((literalAlgebra searchEngine).tensorClauses [pair, single]).run.run s =
      (.error (.shapeMismatch [2] []), s) := by
  intro s pair other invalid single
  have hrecords := (tensorClauses_records searchEngine s).2
  refine ⟨?recorded, ?refused, ?mismatch⟩
  case recorded =>
    obtain ⟨rows, hlength, hcells, -, hrun, -⟩ :=
      (hrecords pair [other] (by decide)).2 (by decide)
    obtain ⟨row, hrow, hcells⟩ := hcells 1 (by decide)
    obtain ⟨l, rest, hl, hrest, rfl⟩ := List.forall₂_cons_left_iff.1 hcells
    obtain ⟨l', rest, hl', hnil, rfl⟩ := List.forall₂_cons_left_iff.1 hrest
    obtain rfl := List.forall₂_nil_left_iff.1 hnil
    obtain rfl : 3 = l := Except.ok.inj hl
    obtain rfl : 1 = l' := Except.ok.inj hl'
    exact ⟨rows, hlength, hrow, hrun (by decide)⟩
  case refused =>
    obtain ⟨rows, -, -, -, -, hrun⟩ := (hrecords pair [invalid] (by decide)).2 (by decide)
    obtain ⟨before, row, -, l, -, -, -, -, hrun⟩ := hrun (by decide)
    exact ⟨before, row, l, hrun⟩
  case mismatch =>
    obtain ⟨u, hu, -, hrun⟩ := (hrecords pair [single] (by decide)).1 (by decide)
    obtain rfl := List.mem_singleton.1 hu
    exact hrun

end Solver

end BoolTensor
