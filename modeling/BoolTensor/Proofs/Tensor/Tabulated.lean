import BoolTensor.Circuit.Packed
import BoolTensor.Proofs.Algebra.Truth
import BoolTensor.Proofs.Tensor.Polymer
import BoolTensor.Proofs.Tensor.RowMajor

/-!
# Tensors of truth values as functions on coordinates

The cells of a tensor of truth values are those of a function on its coordinates, and a packed
tensor can be made of every such function. What operations do to tensors is then what they do to
functions.

## Main definitions

* `Tensor.truthAt`: the cell at coordinates
* `Tensor.tabulate`: the packed tensor of a function
-/

namespace BoolTensor

namespace Shape

variable {β : Type}

theorem cells_offset (s : Shape) : s.cells s.offset = List.range s.size :=
  (List.map_congr_left fun _ hn => offset_coordinates (List.mem_range.1 hn)).trans
    (List.map_id _)

/-- The cells of the last dimensions, each followed up along the first one. -/
theorem cells_cons (dim : Nat) (dims : List Nat) (f : List Nat → β) :
    cells ⟨dim :: dims⟩ f =
      (cells ⟨dims⟩ fun coords => (List.range dim).map fun k => f (k :: coords)).flatten := by
  rw [cells, cells, size_cons, Nat.mul_comm, ← flatMap_range_map, List.flatMap_def]
  refine congrArg List.flatten (List.map_congr_left fun i _ => List.map_congr_left fun k hk => ?_)
  rw [coordinates, digits_mul_add (List.mem_range.1 hk), coordinates]

/-- The cells when the first dimensions are joined, and their coordinates are the digits of one. -/
theorem cells_append (dims more : List Nat) (f : List Nat → β) :
    cells ⟨dims ++ more⟩ f = cells ⟨size ⟨dims⟩ :: more⟩ fun coords =>
      f (digits dims (coords.headD 0) ++ coords.tail) := by
  rw [cells, cells, size_append, size_cons]
  refine List.map_congr_left fun n _ => ?_
  rw [coordinates, coordinates, digits_append, digits, List.headD_cons, List.tail_cons, digits_mod]

end Shape

namespace Tensor

variable {t u : Tensor Bool} {shape target : Shape} {f g : List Nat → Bool} {coords : List Nat}

/-- The cell at coordinates. -/
def truthAt (t : Tensor Bool) (coords : List Nat) : Bool :=
  t.elems.toList.getD (t.shape.offset coords) false

/-- The packed tensor with the values of a function on coordinates. -/
def tabulate (shape : Shape) (f : List Nat → Bool) : Tensor Bool :=
  ⟨shape, .packed (.ofList (shape.cells f))⟩

theorem get_eq_truthAt (ht : t.WellFormed) (h : t.shape.Contains coords) :
    t.get (coords.map Int.ofNat) = .ok (t.truthAt coords) :=
  get_of_contains ht h

theorem toList_eq_cells (ht : t.WellFormed) : t.elems.toList = t.shape.cells t.truthAt :=
  (Shape.cells_getD ((Storage.length_toList _).trans ht) false).symm

theorem toList_tabulate (shape : Shape) (f : List Nat → Bool) :
    (tabulate shape f).elems.toList = shape.cells f :=
  (List.map_id _).trans (Bits.toList_ofList _)

theorem wellFormed_tabulate (shape : Shape) (f : List Nat → Bool) :
    (tabulate shape f).WellFormed := by
  rw [WellFormed, ← Storage.length_toList, toList_tabulate, Shape.length_cells]
  rfl

theorem truthAt_tabulate (h : shape.Contains coords) (f : List Nat → Bool) :
    (tabulate shape f).truthAt coords = f coords := by
  rw [truthAt, toList_tabulate]
  exact Shape.getD_cells h f false

theorem get_tabulate (h : shape.Contains coords) (f : List Nat → Bool) :
    (tabulate shape f).get (coords.map Int.ofNat) = .ok (f coords) := by
  rw [get_eq_truthAt (wellFormed_tabulate shape f) h, truthAt_tabulate h]

theorem tabulate_congr (h : ∀ coords, shape.Contains coords → f coords = g coords) :
    tabulate shape f = tabulate shape g := by
  rw [tabulate, tabulate, Shape.cells_congr h]

/-- The check of a packed tensor passes for the values of a function. -/
theorem ofBits_cells (shape : Shape) (f : List Nat → Bool) :
    ofBits shape (shape.cells f) = .ok (tabulate shape f) :=
  if_pos (wellFormed_tabulate shape f).symm

/-! ### Reindexed -/

variable {places : List Nat}

/-- A function that is reindexed reads the coordinates of the source. -/
theorem polymer_tabulate (h : Fits shape target places) (f : List Nat → Bool) :
    (tabulate shape f).polymer target (places.map Int.ofNat) =
      .ok (tabulate target fun coords => f (sourceCoords places coords)) := by
  have hread : ∀ coords, target.Contains coords →
      Words.bit (Bits.ofList (shape.cells f)).words (shape.offset (sourceCoords places coords)) =
        f (sourceCoords places coords) := by
    intro coords hcoords
    have hsource := h.contains hcoords
    have hplace : shape.offset (sourceCoords places coords) < (shape.cells f).length := by
      rw [Shape.length_cells]
      exact Shape.offset_lt hsource
    rw [Bits.bit_ofList hplace, ← List.getD_eq_getElem _ false hplace, Shape.getD_cells hsource]
  rw [polymer_of_fits h, tabulate, tabulate, Storage.gather, Bits.gather, List.map_map,
    Shape.map_cells, ← Shape.cells_congr hread]
  rfl

theorem truthAt_of_polymer (ht : t.WellFormed) (h : Fits t.shape target places)
    (hu : t.polymer target (places.map Int.ofNat) = .ok u) (hcoords : target.Contains coords) :
    u.truthAt coords = t.truthAt (sourceCoords places coords) := by
  obtain ⟨hwell, rfl, -⟩ := of_polymer hu
  have hcell := get_of_polymer ht h hu hcoords
  rw [get_eq_truthAt hwell hcoords, get_eq_truthAt ht (h.contains hcoords)] at hcell
  exact Except.ok.inj hcell

/-! ### Gates -/

theorem packedNot_eq (ht : t.WellFormed) :
    t.packedNot = .ok (tabulate t.shape fun coords => !t.truthAt coords) := by
  rw [packedNot, truths_eq_toList, toList_eq_cells ht, Shape.map_cells, ofBits_cells]

theorem packedGate_eq (ht : t.WellFormed) (hu : u.WellFormed) (hshape : t.shape = u.shape)
    (gate : Gate) : t.packedGate gate u =
      .ok (tabulate t.shape fun coords => gate.eval (t.truthAt coords) (u.truthAt coords)) := by
  rw [packedGate, if_pos hshape, truths_eq_toList, truths_eq_toList, toList_eq_cells ht,
    toList_eq_cells hu, ← hshape, Shape.zipWith_cells, ofBits_cells]

end Tensor

end BoolTensor
