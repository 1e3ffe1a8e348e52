import BoolTensor.Circuit.Constraint
import BoolTensor.Proofs.Circuit.Tensor
import BoolTensor.Proofs.Solver.Demand

/-!
# Variables, clauses and values of tensors

What allocating a tensor of variables, demanding clauses of tensors and reading the values of a
tensor do to a solver of literals.

## Main definitions

* `Solver.fresh`: the literals of the variables after the first ones
-/

namespace BoolTensor

namespace Solver

/-- The literals of the `count` variables after the first `k`. -/
def fresh (k count : Nat) : List Literal :=
  (List.range' (k + 1) count).map fun v : Nat => (v : Int)

variable {s : Solver Literal} {σ : Assignment} {k n count : Nat}

@[simp]
theorem length_fresh (k count : Nat) : (fresh k count).length = count := by
  rw [fresh, List.length_map, List.length_range']

theorem isAllocated_fresh (hn : k + count ≤ n) : ∀ l ∈ fresh k count, l.isAllocated n = true := by
  intro l hl
  obtain ⟨v, hv, rfl⟩ := List.mem_map.1 hl
  rw [List.mem_range'_1] at hv
  exact Literal.isAllocated_natCast (by omega) (by omega)

theorem reads_fresh (hs : k + count ≤ s.variableCount) :
    (reading σ).ReadsList s (fresh k count) ((List.range' (k + 1) count).map σ) := by
  rw [fresh, Reading.ReadsList, List.forall₂_map_left_iff, List.forall₂_map_right_iff,
    List.forall₂_same]
  intro v hv
  rw [List.mem_range'_1] at hv
  exact ⟨Literal.isAllocated_natCast (by omega) (by omega), fun _ _ => Literal.holds_natCast σ v⟩

theorem stores_fresh (hs : k + count ≤ s.variableCount) :
    (reading σ).Stores s (.ofList .dense (fresh k count)) ((List.range' (k + 1) count).map σ) :=
  (reading_realizes searchEngine σ).stores_vector (reads_fresh hs)

theorem storesTensor_fresh {shape : Shape} (hs : k + shape.size ≤ s.variableCount) :
    (reading σ).StoresTensor s ⟨shape, .ofList .dense (fresh k shape.size)⟩ shape fun coords =>
      σ (k + 1 + shape.offset coords) := by
  have hvalues : (List.range' (k + 1) shape.size).map σ = shape.cells fun coords =>
      σ (k + 1 + shape.offset coords) := by
    rw [List.range'_eq_map_range, List.map_map]
    refine List.map_congr_left fun n hn => ?_
    simp only [Function.comp, Shape.offset_coordinates (List.mem_range.1 hn)]
  exact ⟨rfl, hvalues ▸ stores_fresh hs⟩

/-- Variables that are allocated one after the other take the next numbers. -/
theorem run_mapM_addVariable {β : Type} (engine : Engine) (items : List β) (s : Solver Literal) :
    (items.mapM fun _ => (literalAlgebra engine).addVariable).run s =
      (fresh s.variableCount items.length, s.grown (s.variableCount + items.length) []) := by
  induction items generalizing s with
  | nil =>
    rw [List.length_nil, Nat.add_zero, grown_self]
    rfl
  | cons item items ih =>
    have hvariable : (literalAlgebra engine).addVariable.run s = _ := run_addVariable s
    have hcount : s.variableCount + 1 + items.length = s.variableCount + (items.length + 1) := by
      omega
    rw [List.mapM_cons, run_state_bind hvariable, run_state_bind (ih _)]
    rw [variableCount_grown, grown_grown, hcount]
    rfl

/-- A tensor of variables takes as many as the shape has cells. -/
theorem run_tensorVariables (engine : Engine) (shape : Shape) (s : Solver Literal) :
    ((literalAlgebra engine).tensorVariables shape).run.run s =
      (.ok ⟨shape, .ofList .dense (fresh s.variableCount shape.size)⟩,
        s.grown (s.variableCount + shape.size) []) := by
  have hvariables := run_mapM_addVariable engine (List.range shape.size) s
  rw [List.length_range] at hvariables
  have hlength : shape.size = (Storage.ofList .dense (fresh s.variableCount shape.size)).length := by
    rw [← Storage.length_toList, Storage.toList_ofList, List.length_map, length_fresh]
  have htensor : Tensor.ofStorage shape (Storage.ofList .dense (fresh s.variableCount shape.size)) =
      .ok ⟨shape, .ofList .dense (fresh s.variableCount shape.size)⟩ := if_pos hlength
  rw [SatAlgebra.tensorVariables, run_bind_of_ok (run_liftM hvariables), ← htensor]
  exact run_liftM_except _ _

/-- The clause of a circuit with one result demands that this result is true. -/
theorem run_demandTrue {engine : Engine} {x : ExceptT Error (SolverM Literal) (Storage Literal)}
    {f : Assignment → Bool} (hs : s.Ready)
    (hx : ∀ σ, (reading σ).Returns s x fun t v => (reading σ).Stores t v [f σ])
    (hdepends : Assignment.DependsUpTo s.variableCount fun σ => f σ = true) :
    ∃ t, (x >>= fun v => (literalAlgebra engine).addClause v.toList).run.run s = (.ok (), t) ∧
      Constrains s t fun σ => f σ = true := by
  obtain ⟨v, t, hrun, hextends, hv⟩ := returns_forall hx
  have hrows : ∀ σ, ReadsRows σ t [v.toList] [[f σ]] := fun σ => .cons (hv σ).reads .nil
  have hcondition : ∀ σ : Assignment, (∀ row ∈ [[f σ]], true ∈ row) ↔ f σ = true := by
    intro σ
    rw [List.forall_mem_singleton, List.mem_singleton]
    exact eq_comm
  refine ⟨t.grown t.variableCount [v.toList], ?_, ?_⟩
  · rw [run_bind_of_ok hrun]
    apply run_addClause_of_allocated
    exact isAllocated_of_mem_reads (hv fun _ => true).reads
  · refine (Constrains.of_rows hs hextends hrows fun σ τ hagree h => ?_).congr fun σ _ => hcondition σ
    exact (hcondition τ).2 (hdepends σ τ hagree ((hcondition σ).1 h))

/-! ### Clauses of tensors -/

theorem Constrains.storesTensor {t : Solver Literal} {P : Assignment → Prop} (h : Constrains s t P)
    {u : Tensor Literal} {shape : Shape} {f : List Nat → Bool}
    (hu : (reading σ).StoresTensor s u shape f) : (reading σ).StoresTensor t u shape f :=
  ⟨hu.shape_eq, hu.stores.kind_eq, hu.stores.wellFormed, hu.stores.reads.imp fun _ _ => h.reads⟩

/-- The rows of parallel tensors hold the values of all functions at the same coordinates. -/
theorem rowsOf_cells {β : Type} (shape : Shape) (fs : List (List Nat → β)) :
    SatAlgebra.rowsOf shape.size (fs.map shape.cells) = shape.cells fun coords =>
      fs.map fun f => f coords := by
  induction fs with
  | nil => exact (Shape.cells_const shape []).symm
  | cons f fs ih =>
    have hcons : SatAlgebra.rowsOf shape.size ((f :: fs).map shape.cells) =
        List.zipWith List.cons (shape.cells f) (SatAlgebra.rowsOf shape.size (fs.map shape.cells)) :=
      rfl
    rw [hcons, ih, Shape.zipWith_cells]
    rfl

theorem readsRows_cons {elems : List Literal} {values : List Bool} {rows : Formula}
    {others : List (List Bool)} (h : (reading σ).ReadsList s elems values)
    (hrows : ReadsRows σ s rows others) :
    ReadsRows σ s (List.zipWith List.cons elems rows) (List.zipWith List.cons values others) := by
  induction h generalizing rows others with
  | nil => exact .nil
  | cons ha _ ih =>
    cases hrows with
    | nil => exact .nil
    | cons hrow hrows => exact .cons (.cons ha hrow) (ih hrows)

theorem readsRows_rowsOf {columns : List (List Literal)} {values : List (List Bool)}
    (h : List.Forall₂ ((reading σ).ReadsList s) columns values) (count : Nat) :
    ReadsRows σ s (SatAlgebra.rowsOf count columns) (SatAlgebra.rowsOf count values) := by
  induction h with
  | nil =>
    induction count with
    | zero => exact .nil
    | succ count ih => exact .cons .nil ih
  | cons hcolumn _ ih => exact readsRows_cons hcolumn ih

theorem shape_of_stores {shape : Shape} {tensors : List (Tensor Literal)} {fs : List (List Nat → Bool)}
    (h : List.Forall₂ (fun u f => (reading σ).StoresTensor s u shape f) tensors fs) :
    ∀ u ∈ tensors, u.shape = shape ∧ u.elems.length = shape.size := by
  induction h with
  | nil => simp
  | cons hu _ ih => exact List.forall_mem_cons.2 ⟨⟨hu.shape_eq, hu.length_eq⟩, ih⟩

theorem tensorClauses_of_shape {engine : Engine} {shape : Shape} {tensors : List (Tensor Literal)}
    (hne : tensors ≠ []) (hshape : ∀ u ∈ tensors, u.shape = shape)
    (hlength : ∀ u ∈ tensors, u.elems.length = shape.size) :
    (literalAlgebra engine).tensorClauses tensors =
      (SatAlgebra.rowsOf shape.size (tensors.map (·.elems.toList))).forM
        (literalAlgebra engine).addClause := by
  cases tensors with
  | nil => exact absurd rfl hne
  | cons first others =>
    rw [List.forall_mem_cons] at hshape hlength
    have hsame : others.find? (fun u => u.shape ≠ first.shape) = none := by
      rw [List.find?_eq_none]
      intro u hu
      simp [hshape.1, hshape.2 u hu]
    rw [SatAlgebra.tensorClauses, hsame, hlength.1]

/-- The clauses of parallel tensors demand at each coordinate that one of the cells is true. -/
theorem run_demandCells {engine : Engine} {x : ExceptT Error (SolverM Literal) (List (Tensor Literal))}
    {shape : Shape} {fs : Assignment → List (List Nat → Bool)} {P : Assignment → Prop} (hs : s.Ready)
    (hx : ∀ σ, (reading σ).Returns s x fun t tensors => tensors ≠ [] ∧
      List.Forall₂ (fun u f => (reading σ).StoresTensor t u shape f) tensors (fs σ))
    (hP : ∀ σ, (∀ coords, shape.Contains coords → ∃ f ∈ fs σ, f coords = true) ↔ P σ)
    (hdepends : Assignment.DependsUpTo s.variableCount P) :
    ∃ t, (x >>= (literalAlgebra engine).tensorClauses).run.run s = (.ok (), t) ∧
      Constrains s t P := by
  obtain ⟨tensors, t, hrun, hextends, htensors⟩ := returns_forall hx
  have hrows (σ : Assignment) : ReadsRows σ t
      (SatAlgebra.rowsOf shape.size (tensors.map (·.elems.toList)))
      (shape.cells fun coords => (fs σ).map fun f => f coords) := by
    rw [← rowsOf_cells]
    refine readsRows_rowsOf (List.forall₂_map_left_iff.2 (List.forall₂_map_right_iff.2 ?_)) _
    exact (htensors σ).2.imp fun u f hu => hu.stores.reads
  have hcondition (σ : Assignment) :
      (∀ row ∈ shape.cells fun coords => (fs σ).map fun f => f coords, true ∈ row) ↔ P σ := by
    rw [← hP, Shape.forall_mem_cells]
    simp only [List.mem_map]
  -- Shapes and lengths do not depend on the assignment, so any will do.
  have htensor := shape_of_stores (htensors fun _ => true).2
  refine ⟨_, ?_, (Constrains.of_rows hs hextends hrows ?_).congr fun σ _ => hcondition σ⟩
  · rw [run_bind_of_ok hrun, tensorClauses_of_shape (htensors fun _ => true).1
      (fun u hu => (htensor u hu).1) fun u hu => (htensor u hu).2]
    exact run_forM_addClause engine (hrows fun _ => true).allocated
  · intro σ τ hagree h
    exact (hcondition τ).2 (hdepends σ τ hagree ((hcondition σ).1 h))

/-! ### Values -/

theorem holds_fresh (σ : Assignment) (k count : Nat) :
    (Storage.ofList .dense (fresh k count)).toList.map (Literal.holds σ) =
      (List.range' (k + 1) count).map σ := by
  have helems : (Storage.ofList .dense (fresh k count)).toList = fresh k count :=
    (Storage.toList_ofList _ _).trans (List.map_id _)
  rw [helems, fresh, List.map_map]
  exact List.map_congr_left fun v _ => Literal.holds_natCast σ v

/-- The values of a tensor of variables in a model over all of them. -/
theorem run_tensorValues (engine : Engine) (shape : Shape) (k : Nat) {m : Nat}
    (hmodel : s.model = some ⟨m, σ⟩)
    (hm : m ≤ s.variableCount) (hk : k + shape.size ≤ m) :
    ((literalAlgebra engine).tensorValues ⟨shape, .ofList .dense (fresh k shape.size)⟩).run.run s =
      (.ok ⟨shape, .packed (.ofList ((List.range' (k + 1) shape.size).map σ))⟩, s) := by
  have helems : ∀ l ∈ (Storage.ofList .dense (fresh k shape.size)).toList, l.isAllocated m = true := by
    rw [Storage.toList_ofList]
    simpa [Kind.keeps] using isAllocated_fresh (k := k) hk
  have hread := run_mapM_value engine hmodel hm helems
  have hlength : shape.size = (Storage.packed
      (.ofList ((List.range' (k + 1) shape.size).map σ)) : Storage Literal).length := by
    rw [← Storage.length_toList]
    simp [Storage.toList]
  rw [SatAlgebra.tensorValues, run_bind_of_ok hread, holds_fresh]
  refine (run_liftM_except _ _).trans ?_
  rw [Tensor.ofStorage, if_pos hlength]

end Solver

end BoolTensor
