import BoolTensor.Proofs.Shape.Numbering
import BoolTensor.Proofs.Storage.Basic
import BoolTensor.Tensor.RowMajor

/-!
# Entries of row-major arrays

The cells of a shape, visited with the last coordinate running fastest, are those of the shape with
its dimensions turned round. So an entry of the array of a tensor is the cell at its coordinates.
-/

namespace BoolTensor

namespace Shape

variable {dims more coords others : List Nat} {n : Nat}

/-! ### Dimensions in two parts -/

theorem size_reverse (dims : List Nat) : size ⟨dims.reverse⟩ = size ⟨dims⟩ := by
  induction dims with
  | nil => rfl
  | cons dim dims ih =>
    rw [List.reverse_cons, size_append, ih, size_cons, Nat.mul_comm]
    simp [size]

theorem Within.append (h : Within dims coords) (h' : Within more others) :
    Within (dims ++ more) (coords ++ others) := by
  induction dims generalizing coords with
  | nil =>
    cases coords with
    | nil => exact h'
    | cons coord coords => exact h.elim
  | cons dim dims ih =>
    cases coords with
    | nil => exact h.elim
    | cons coord coords => exact ⟨h.1, ih h.2⟩

theorem Within.reverse (h : Within dims coords) : Within dims.reverse coords.reverse := by
  induction dims generalizing coords with
  | nil =>
    cases coords with
    | nil => trivial
    | cons coord coords => exact h.elim
  | cons dim dims ih =>
    cases coords with
    | nil => exact h.elim
    | cons coord coords =>
      rw [List.reverse_cons, List.reverse_cons]
      exact (ih h.2).append ⟨h.1, trivial⟩

theorem digits_append (dims more : List Nat) (n : Nat) :
    digits (dims ++ more) n = digits dims n ++ digits more (n / size ⟨dims⟩) := by
  induction dims generalizing n with
  | nil => simp [digits, size]
  | cons dim dims ih =>
    rw [List.cons_append, digits, ih, digits, size_cons, Nat.div_div_eq_div_mul, List.cons_append]

theorem digits_mod (dims : List Nat) (n : Nat) : digits dims (n % size ⟨dims⟩) = digits dims n := by
  induction dims generalizing n with
  | nil => rfl
  | cons dim dims ih =>
    rw [digits, digits, size_cons, Nat.mod_mul_right_mod, Nat.mod_mul_right_div_self, ih]

/-- The coordinates in row-major order, the first one slowest. -/
theorem reverse_digits_reverse_cons {dim coord m : Nat} (hcoord : coord < dim)
    (hm : m < size ⟨dims⟩) :
    (digits (dim :: dims).reverse (coord * size ⟨dims⟩ + m)).reverse =
      coord :: (digits dims.reverse m).reverse := by
  have hpos : 0 < size ⟨dims⟩ := Nat.zero_lt_of_lt hm
  have hlow : digits dims.reverse (coord * size ⟨dims⟩ + m) = digits dims.reverse m := by
    rw [← digits_mod, size_reverse, Nat.mul_add_mod_self_right, Nat.mod_eq_of_lt hm]
  have hhigh : (coord * size ⟨dims⟩ + m) / size ⟨dims.reverse⟩ = coord := by
    rw [size_reverse, Nat.add_comm, Nat.add_mul_div_right _ _ hpos, Nat.div_eq_of_lt hm,
      Nat.zero_add]
  rw [List.reverse_cons, digits_append, hlow, hhigh, digits, digits, Nat.mod_eq_of_lt hcoord,
    List.reverse_append]
  rfl

theorem length_stridesFrom (step : Nat) (dims : List Nat) :
    (stridesFrom step dims).length = dims.length := by
  induction dims generalizing step with
  | nil => rfl
  | cons dim dims ih => rw [stridesFrom, List.length_cons, ih, List.length_cons]

end Shape

/-! ### Cells in row-major order -/

theorem flatMap_range_map {β : Type} (count width : Nat) (f : Nat → β) :
    ((List.range count).flatMap fun c => (List.range width).map fun m => f (c * width + m)) =
      (List.range (count * width)).map f := by
  induction count with
  | zero => simp
  | succ count ih =>
    rw [List.range_succ, List.flatMap_append, ih, Nat.succ_mul, List.range_add, List.map_append,
      List.map_map]
    simp [Function.comp_def]

/-- The offsets from `start`, with the coordinates at each of them. -/
theorem offsets_eq (dims strides : List Nat) (hlength : dims.length = strides.length) (start : Nat) :
    offsets (dims.zip strides) start = (List.range (Shape.size ⟨dims⟩)).map fun m =>
      start + (List.zipWith (· * ·) (Shape.digits dims.reverse m).reverse strides).sum := by
  induction dims generalizing strides start with
  | nil => simp [offsets, Shape.size, Shape.digits]
  | cons dim dims ih =>
    cases strides with
    | nil => simp at hlength
    | cons stride strides =>
      rw [List.zip_cons_cons, offsets, Shape.size_cons, ← flatMap_range_map]
      refine List.flatMap_congr fun coord hcoord => ?_
      rw [ih strides (Nat.succ_inj.1 hlength)]
      refine List.map_congr_left fun m hm => ?_
      rw [Shape.reverse_digits_reverse_cons (List.mem_range.1 hcoord) (List.mem_range.1 hm),
        List.zipWith_cons_cons, List.sum_cons, Nat.add_assoc]

/-- The cells of a shape are visited as those of the shape with its dimensions turned round. -/
theorem crossOrder_eq (dims : List Nat) :
    crossOrder dims = (List.range (Shape.size ⟨dims⟩)).map fun m =>
      Shape.offsetIn dims (Shape.digits dims.reverse m).reverse := by
  rw [crossOrder]
  by_cases hzero : 0 ∈ dims
  · have hsize : Shape.size ⟨dims⟩ = 0 :=
      Nat.eq_zero_of_not_pos fun hpos => Shape.size_pos_iff.1 hpos hzero
    rw [if_pos (List.contains_iff_mem.2 hzero), hsize]
    rfl
  · rw [if_neg (mt List.contains_iff_mem.1 hzero),
      offsets_eq _ _ (Shape.length_stridesFrom 1 dims).symm]
    refine List.map_congr_left fun m _ => ?_
    rw [← Shape.mul_offsetIn, Nat.zero_add, Nat.one_mul]

theorem permuted_toArray (entries : List Bool) (places : List Nat) :
    permuted entries.toArray places = places.map fun place => entries.getD place false := by
  refine List.map_congr_left fun place _ => ?_
  rw [Array.getD_eq_getD_getElem?, List.getElem?_toArray, ← List.getD_eq_getElem?_getD]

/-- The entries of a tensor, as a function on the coordinates turned round. -/
theorem data_toTruthArray {α : Type} [Element α] (t : Tensor α) :
    t.toTruthArray.data = Shape.cells ⟨t.shape.dims.reverse⟩ fun coords =>
      t.elems.truths.getD (t.shape.offset coords.reverse) false := by
  rw [Tensor.toTruthArray, permuted_toArray, crossOrder_eq, List.map_map, Shape.cells,
    Shape.size_reverse]
  rfl

/-- Entries visited in the order of the cells. -/
theorem permuted_crossOrder_reverse (a : TruthArray) :
    permuted a.data.toArray (crossOrder a.dims.reverse) = Shape.cells ⟨a.dims⟩ a.entry := by
  rw [permuted_toArray, crossOrder_eq, Shape.size_reverse, List.reverse_reverse, List.map_map]
  rfl

/-- An entry of the array of a tensor is the truth of the cell at its coordinates. -/
theorem entry_toTruthArray {α : Type} [Element α] {t : Tensor α} {coords : List Nat}
    (h : t.shape.Contains coords) :
    t.toTruthArray.entry coords = t.elems.truths.getD (t.shape.offset coords) false := by
  have hreverse : Shape.Contains ⟨t.shape.dims.reverse⟩ coords.reverse := h.reverse
  refine (congrArg (List.getD · _ false) (data_toTruthArray t)).trans ?_
  exact (Shape.getD_cells hreverse _ false).trans (by rw [List.reverse_reverse])

end BoolTensor
