import BoolTensor.Shape.Basic
import Mathlib

/-!
# Coordinates and numbers of cells

The cells of a shape are numbered by their coordinates, each number once. So a list of the right
length is a function on coordinates.

## Main definitions

* `Shape.cells`: the values of a function at all coordinates, in the order of the cells
-/

namespace BoolTensor

namespace Shape

variable {dims coords : List Nat} {n : Nat}

/-! ### Lists of integers -/

theorem map_toNat_map_ofNat (values : List Nat) :
    (values.map Int.ofNat).map Int.toNat = values := by
  rw [List.map_map]
  exact List.map_id values

theorem map_ofNat_map_toNat {values : List Int} (h : ∀ value ∈ values, 0 ≤ value) :
    (values.map Int.toNat).map Int.ofNat = values := by
  rw [List.map_map]
  exact (List.map_congr_left fun value hvalue => Int.toNat_of_nonneg (h value hvalue)).trans
    (List.map_id values)

theorem ofInts_natCast (dims : List Nat) : ofInts (dims.map Int.ofNat) = .ok ⟨dims⟩ := by
  have hnonneg : (dims.map Int.ofNat).any (· < 0) = false := by simp
  rw [ofInts, hnonneg, map_toNat_map_ofNat]
  rfl

theorem ofInts_of_neg {dims : List Int} (h : ∃ dim ∈ dims, dim < 0) :
    ofInts dims = .error (.negativeDimension dims) := by
  rw [ofInts, if_pos]
  simpa using h

/-! ### Sizes -/

theorem size_cons (dim : Nat) (dims : List Nat) : size ⟨dim :: dims⟩ = dim * size ⟨dims⟩ := rfl

theorem size_append (dims more : List Nat) :
    size ⟨dims ++ more⟩ = size ⟨dims⟩ * size ⟨more⟩ := by
  induction dims with
  | nil => simp [size]
  | cons dim dims ih => rw [List.cons_append, size_cons, size_cons, ih, Nat.mul_assoc]

/-- As many cells are there when the first dimensions are joined. -/
theorem size_joined (dims : List Nat) (count : Nat) :
    size ⟨size ⟨dims.take count⟩ :: dims.drop count⟩ = size ⟨dims⟩ := by
  rw [size_cons, ← size_append, List.take_append_drop]

theorem size_pos_iff : 0 < size ⟨dims⟩ ↔ 0 ∉ dims := by
  induction dims with
  | nil => simp [size]
  | cons dim dims ih =>
    rw [size_cons, CanonicallyOrderedAdd.mul_pos, ih, List.mem_cons, not_or, Nat.pos_iff_ne_zero,
      ne_comm]

/-! ### Digits and offsets -/

@[simp]
theorem length_digits (dims : List Nat) (n : Nat) : (digits dims n).length = dims.length := by
  induction dims generalizing n with
  | nil => rfl
  | cons dim dims ih => rw [digits, List.length_cons, List.length_cons, ih]

theorem Within.length_eq (h : Within dims coords) : coords.length = dims.length := by
  induction dims generalizing coords with
  | nil =>
    cases coords with
    | nil => rfl
    | cons coord coords => exact h.elim
  | cons dim dims ih =>
    cases coords with
    | nil => exact h.elim
    | cons coord coords => rw [List.length_cons, List.length_cons, ih h.2]

theorem Within.offsetIn_lt (h : Within dims coords) : offsetIn dims coords < size ⟨dims⟩ := by
  induction dims generalizing coords with
  | nil =>
    cases coords with
    | nil => exact Nat.one_pos
    | cons coord coords => exact h.elim
  | cons dim dims ih =>
    cases coords with
    | nil => exact h.elim
    | cons coord coords =>
      obtain ⟨hcoord, hcoords⟩ := h
      have hrest : offsetIn dims coords + 1 ≤ size ⟨dims⟩ := ih hcoords
      rw [offsetIn, size_cons]
      calc coord + dim * offsetIn dims coords
          < dim + dim * offsetIn dims coords := Nat.add_lt_add_right hcoord _
        _ = dim * (offsetIn dims coords + 1) := by rw [Nat.mul_add_one, Nat.add_comm]
        _ ≤ dim * size ⟨dims⟩ := Nat.mul_le_mul_left dim hrest

/-- Each number below the size is that of some coordinates. -/
theorem within_digits (h : n < size ⟨dims⟩) : Within dims (digits dims n) := by
  induction dims generalizing n with
  | nil => trivial
  | cons dim dims ih =>
    rw [size_cons] at h
    have hdim : 0 < dim := Nat.pos_of_mul_pos_right (Nat.zero_lt_of_lt h)
    exact ⟨Nat.mod_lt n hdim, ih (Nat.div_lt_of_lt_mul h)⟩

theorem offsetIn_digits (h : n < size ⟨dims⟩) : offsetIn dims (digits dims n) = n := by
  induction dims generalizing n with
  | nil => exact (Nat.lt_one_iff.1 h).symm
  | cons dim dims ih =>
    rw [size_cons] at h
    rw [digits, offsetIn, ih (Nat.div_lt_of_lt_mul h), Nat.mod_add_div]

/-- The number of a cell determines its coordinates. -/
theorem Within.digits_offsetIn (h : Within dims coords) :
    digits dims (offsetIn dims coords) = coords := by
  induction dims generalizing coords with
  | nil =>
    cases coords with
    | nil => rfl
    | cons coord coords => exact h.elim
  | cons dim dims ih =>
    cases coords with
    | nil => exact h.elim
    | cons coord coords =>
      obtain ⟨hcoord, hcoords⟩ := h
      rw [offsetIn, digits, Nat.add_mul_mod_self_left, Nat.mod_eq_of_lt hcoord,
        Nat.add_mul_div_left _ _ (Nat.zero_lt_of_lt hcoord), Nat.div_eq_of_lt hcoord, Nat.zero_add,
        ih hcoords]

/-- The first digit changes fastest. -/
theorem digits_mul_add {dim k : Nat} (hk : k < dim) (dims : List Nat) (i : Nat) :
    digits (dim :: dims) (i * dim + k) = k :: digits dims i := by
  rw [digits, Nat.add_comm, Nat.add_mul_mod_self_right, Nat.mod_eq_of_lt hk,
    Nat.add_mul_div_right _ _ (Nat.zero_lt_of_lt hk), Nat.div_eq_of_lt hk, Nat.zero_add]

/-- The number of a cell as a sum over the dimensions. -/
theorem mul_offsetIn (step : Nat) (dims coords : List Nat) :
    step * offsetIn dims coords = (List.zipWith (· * ·) coords (stridesFrom step dims)).sum := by
  induction dims generalizing step coords with
  | nil => simp [offsetIn, stridesFrom]
  | cons dim dims ih =>
    cases coords with
    | nil => simp [offsetIn]
    | cons coord coords =>
      rw [offsetIn, stridesFrom, List.zipWith_cons_cons, List.sum_cons, ← ih, Nat.mul_add,
        Nat.mul_assoc, Nat.mul_comm step coord]

variable {s : Shape}

theorem offset_lt (h : s.Contains coords) : s.offset coords < s.size :=
  Within.offsetIn_lt h

theorem contains_coordinates (h : n < s.size) : s.Contains (s.coordinates n) :=
  within_digits h

theorem offset_coordinates (h : n < s.size) : s.offset (s.coordinates n) = n :=
  offsetIn_digits h

theorem coordinates_offset (h : s.Contains coords) : s.coordinates (s.offset coords) = coords :=
  Within.digits_offsetIn h

theorem forall_contains_nil {P : List Nat → Prop} :
    (∀ coords, Contains ⟨[]⟩ coords → P coords) ↔ P [] := by
  constructor
  · exact fun h => h [] trivial
  · intro h coords hcoords
    cases coords with
    | nil => exact h
    | cons coord coords => exact hcoords.elim

theorem forall_contains_cons {P : List Nat → Prop} {dim : Nat} :
    (∀ coords, Contains ⟨dim :: dims⟩ coords → P coords) ↔
      ∀ coord < dim, ∀ coords, Contains ⟨dims⟩ coords → P (coord :: coords) := by
  constructor
  · exact fun h coord hcoord coords hcoords => h (coord :: coords) ⟨hcoord, hcoords⟩
  · intro h coords hcoords
    cases coords with
    | nil => exact hcoords.elim
    | cons coord coords => exact h coord hcoords.1 coords hcoords.2

/-! ### Checked coordinates -/

theorem withinBounds_cons {dim : Nat} {coord : Int} {coords : List Int} :
    withinBounds (dim :: dims) (coord :: coords) = true ↔
      (0 ≤ coord ∧ coord < dim) ∧ withinBounds dims coords = true := by
  rw [withinBounds, List.zip_cons_cons, List.all_cons, Bool.and_eq_true, decide_eq_true_iff,
    withinBounds]

theorem withinBounds_iff {coords : List Int} (hlength : coords.length = dims.length) :
    withinBounds dims coords = true ↔
      (∀ coord ∈ coords, 0 ≤ coord) ∧ Within dims (coords.map Int.toNat) := by
  induction dims generalizing coords with
  | nil =>
    obtain rfl := List.length_eq_zero_iff.1 hlength
    simp [withinBounds, Within]
  | cons dim dims ih =>
    cases coords with
    | nil => simp at hlength
    | cons coord coords =>
      rw [withinBounds_cons, ih (Nat.succ_inj.1 hlength), List.forall_mem_cons, List.map_cons,
        Within]
      constructor
      · rintro ⟨⟨hnonneg, hlt⟩, htails, hwithin⟩
        exact ⟨⟨hnonneg, htails⟩, by omega, hwithin⟩
      · rintro ⟨⟨hnonneg, htails⟩, hlt, hwithin⟩
        exact ⟨⟨hnonneg, by omega⟩, htails, hwithin⟩

/-- Coordinates that are not refused have the number of their cell. -/
theorem contains_of_index {coords : List Int} (h : s.index coords = .ok n) :
    s.Contains (coords.map Int.toNat) ∧ n = s.offset (coords.map Int.toNat) := by
  rw [index] at h
  split_ifs at h with hlength hwithin
  exact ⟨((withinBounds_iff (not_ne_iff.1 hlength)).1 hwithin).2, (Except.ok.inj h).symm⟩

theorem lt_of_index {coords : List Int} (h : s.index coords = .ok n) : n < s.size := by
  obtain ⟨hcontains, rfl⟩ := contains_of_index h
  exact offset_lt hcontains

theorem Within.withinBounds_eq (h : Within dims coords) :
    withinBounds dims (coords.map Int.ofNat) = true := by
  rw [withinBounds_iff ((List.length_map _).trans h.length_eq), map_toNat_map_ofNat]
  exact ⟨by simp, h⟩

theorem index_of_contains (h : s.Contains coords) :
    s.index (coords.map Int.ofNat) = .ok (s.offset coords) := by
  have hlength : (coords.map Int.ofNat).length = s.rank := by
    rw [List.length_map, Within.length_eq h, rank]
  rw [index, if_neg (not_not.2 hlength), if_pos (Within.withinBounds_eq h), map_toNat_map_ofNat]

/-! ### Functions on coordinates -/

section Cells

variable {β γ δ : Type} {f g : List Nat → β}

/-- The values of a function at all coordinates, in the order of the cells. -/
def cells (s : Shape) (f : List Nat → β) : List β :=
  (List.range s.size).map fun n => f (s.coordinates n)

@[simp]
theorem length_cells (s : Shape) (f : List Nat → β) : (s.cells f).length = s.size := by
  rw [cells, List.length_map, List.length_range]

theorem forall_mem_cells {P : β → Prop} :
    (∀ b ∈ s.cells f, P b) ↔ ∀ coords, s.Contains coords → P (f coords) := by
  rw [cells, List.forall_mem_map]
  constructor
  · intro h coords hcoords
    rw [← coordinates_offset hcoords]
    exact h _ (List.mem_range.2 (offset_lt hcoords))
  · intro h n hn
    exact h _ (contains_coordinates (List.mem_range.1 hn))

theorem forall₂_cells {P : β → γ → Prop} {f : List Nat → β} {g : List Nat → γ}
    (h : ∀ coords, s.Contains coords → P (f coords) (g coords)) :
    List.Forall₂ P (s.cells f) (s.cells g) := by
  rw [cells, cells, List.forall₂_map_left_iff, List.forall₂_map_right_iff, List.forall₂_same]
  exact fun n hn => h _ (contains_coordinates (List.mem_range.1 hn))

theorem cells_congr (h : ∀ coords, s.Contains coords → f coords = g coords) :
    s.cells f = s.cells g :=
  List.map_congr_left fun _ hn => h _ (contains_coordinates (List.mem_range.1 hn))

theorem cells_const (s : Shape) (b : β) : (s.cells fun _ => b) = List.replicate s.size b := by
  rw [cells, List.map_const', List.length_range]

theorem map_cells (s : Shape) (f : List Nat → β) (h : β → γ) :
    (s.cells f).map h = s.cells fun coords => h (f coords) := by
  rw [cells, List.map_map]
  rfl

theorem zipWith_cells (s : Shape) (h : β → γ → δ) (f : List Nat → β) (g : List Nat → γ) :
    List.zipWith h (s.cells f) (s.cells g) = s.cells fun coords => h (f coords) (g coords) := by
  rw [cells, cells, List.zipWith_map, List.zipWith_self]
  rfl

/-- A block of cells along the first dimension ends within the cells. -/
theorem block_le_size (head : Nat) {i : Nat} {rest : List Nat} (hi : i < size ⟨rest⟩) :
    i * head + head ≤ size ⟨head :: rest⟩ := by
  rw [size_cons, Nat.mul_comm head, ← Nat.succ_mul]
  exact Nat.mul_le_mul_right head hi

/-- The cells that share all coordinates but the first one lie together. -/
theorem drop_take_cells {head i : Nat} {rest : List Nat} (hi : i < size ⟨rest⟩) (f : List Nat → β) :
    ((cells ⟨head :: rest⟩ f).take (i * head + head)).drop (i * head) =
      (List.range head).map fun k => f (k :: digits rest i) := by
  have hend := block_le_size head hi
  apply List.ext_getElem
  · simp only [List.length_drop, List.length_take, length_cells, List.length_map, List.length_range]
    omega
  · intro k _ hk
    rw [List.length_map, List.length_range] at hk
    simp only [List.getElem_drop, List.getElem_take, cells, List.getElem_map, List.getElem_range,
      coordinates, digits_mul_add hk]

theorem getD_cells (h : s.Contains coords) (f : List Nat → β) (b : β) :
    (s.cells f).getD (s.offset coords) b = f coords := by
  have hlt : s.offset coords < (s.cells f).length := by
    rw [length_cells]
    exact offset_lt h
  rw [List.getD_eq_getElem _ _ hlt]
  simp only [cells, List.getElem_map, List.getElem_range, coordinates_offset h]

/-- A list of as many values as there are cells is that of a function. -/
theorem cells_getD {values : List β} (h : values.length = s.size) (b : β) :
    s.cells (fun coords => values.getD (s.offset coords) b) = values := by
  apply List.ext_getElem
  · rw [length_cells, h]
  · intro n hn hn'
    rw [length_cells] at hn
    simp only [cells, List.getElem_map, List.getElem_range, offset_coordinates hn]
    exact List.getD_eq_getElem _ _ hn'

end Cells

end Shape

end BoolTensor
