import BoolTensor.Proofs.Limits
import BoolTensor.Proofs.Tensor.Polymer
import BoolTensor.Proofs.Tensor.RowMajor

/-!
# Tensors as arrays and back

The exchange with row-major arrays reorders the cells, once along the dimensions and once along the
dimensions turned round. Both ways the cells are those of one function on coordinates, so either
way back restores what was there.

## Main definitions

* `TruthArray.packed`: the packed tensor with the entries of an array
-/

namespace BoolTensor

variable {α : Type} [Element α]

namespace TruthArray

variable {a : TruthArray}

/-- The packed tensor with the entries of an array as cells. -/
def packed (a : TruthArray) : Tensor α :=
  ⟨⟨a.dims⟩, .packed (.ofList (Shape.cells ⟨a.dims⟩ a.entry))⟩

theorem wellFormed_packed (a : TruthArray) : (a.packed : Tensor α).WellFormed :=
  Shape.length_cells ⟨a.dims⟩ a.entry

theorem toTensor_eq (a : TruthArray) : a.toTensor = .ok (a.packed : Tensor α) := by
  rw [toTensor, permuted_crossOrder_reverse]
  exact if_pos (Shape.length_cells ⟨a.dims⟩ a.entry).symm

/-- The entries of an array, as a function on the coordinates turned round. -/
theorem cells_entry_reverse (ha : a.WellFormed) :
    Shape.cells ⟨a.dims.reverse⟩ (fun coords => a.entry coords.reverse) = a.data := by
  have hlength : a.data.length = Shape.size ⟨a.dims.reverse⟩ := by
    rw [Shape.size_reverse]
    exact ha
  simp only [entry, List.reverse_reverse]
  exact Shape.cells_getD hlength false

/-- From an array to a tensor and back. -/
theorem toTruthArray_packed (ha : a.WellFormed) : (a.packed : Tensor α).toTruthArray = a := by
  have hentries : Shape.cells ⟨a.dims.reverse⟩ (fun coords => ((Bits.ofList
      (Shape.cells ⟨a.dims⟩ a.entry)).toList.getD (Shape.offset ⟨a.dims⟩ coords.reverse) false)) =
      a.data := by
    rw [Bits.toList_ofList, ← cells_entry_reverse ha]
    refine Shape.cells_congr fun coords hcoords => Shape.getD_cells ?_ a.entry false
    have hreverse := Shape.Within.reverse hcoords
    rwa [List.reverse_reverse] at hreverse
  exact congrArg (TruthArray.mk a.dims)
    ((data_toTruthArray (a.packed : Tensor α)).trans hentries)

end TruthArray

namespace Tensor

variable {t : Tensor α}

theorem checkArray_eq_ok_iff (ht : t.WellFormed) :
    t.checkArray = .ok () ↔ HasArrays t.shape.dims := by
  have hdims : arrayDims t.elems.length (t.shape.dims.map Int.ofNat) = .ok t.shape.dims ↔
      HasArrays t.shape.dims := by
    rw [arrayDims_natCast_eq_ok_iff]
    exact ⟨fun h => h.2.2, fun h => ⟨rfl, ht.symm, h⟩⟩
  rw [← hdims, checkArray]
  constructor
  · intro h
    rcases hresult : arrayDims t.elems.length (t.shape.dims.map Int.ofNat) with e | dims
    · rw [hresult] at h
      cases h
    · rw [(arrayDims_natCast_eq_ok_iff.1 hresult).1]
  · intro h
    rw [h]
    rfl

/-- The entries in the order of the cells are the truths of these. -/
theorem cells_entry_toTruthArray (ht : t.WellFormed) :
    Shape.cells t.shape t.toTruthArray.entry = t.elems.truths := by
  have hlength : t.elems.truths.length = t.shape.size := by rw [Storage.length_truths, ht]
  rw [← Shape.cells_getD hlength false]
  exact Shape.cells_congr fun coords hcoords => entry_toTruthArray hcoords

/-- From a tensor to an array and back. -/
theorem same_packed_toTruthArray (ht : t.WellFormed) (hkind : t.elems.kind = .packed)
    (helems : t.elems.WellFormed) : (t.toTruthArray.packed : Tensor α).same t = true := by
  have hcells := cells_entry_toTruthArray ht
  obtain ⟨shape, elems⟩ := t
  cases elems with
  | packed v =>
    have hbits := (Bits.toList_ofList _).trans hcells
    rw [same, Bool.and_eq_true]
    exact ⟨beq_self_eq_true shape, (Bits.same_iff (Bits.wellFormed_ofList _) helems).2 hbits⟩
  | _ => cases hkind

/-- Cells that are truth values are read as the entries of the array. -/
theorem get_eq_entry (ht : t.WellFormed)
    (hcells : ∀ a ∈ t.elems.toList, Element.ofTruth (Element.truth a) = a) {coords : List Nat}
    (hcoords : t.shape.Contains coords) :
    t.get (coords.map Int.ofNat) = .ok (Element.ofTruth (t.toTruthArray.entry coords)) := by
  have hplace : t.shape.offset coords < t.elems.truths.length := by
    rw [Storage.length_truths, ht]
    exact Shape.offset_lt hcoords
  rw [get_of_contains ht hcoords, entry_toTruthArray hcoords,
    Storage.toList_eq_map_truths hcells, List.getD_eq_getElem _ _ hplace,
    List.getD_eq_getElem _ _ (hplace.trans_eq (List.length_map _).symm), List.getElem_map]

end Tensor

/-! ### Round trips -/

/-- There are arrays of some dimensions only, and a tensor with others is refused. A packed tensor
comes back from its array, an array comes back from its tensor, and where all cells are truth values
each is the entry at its coordinates. -/
theorem exchange_restores :
    (∀ t : Tensor α, t.WellFormed → (t.checkArray = .ok () ↔ HasArrays t.shape.dims)) ∧
    (∀ t : Tensor α, t.WellFormed → HasArrays t.shape.dims → t.elems.kind = .packed →
      t.elems.WellFormed → ∃ u : Tensor α,
        (do t.checkArray; t.toTruthArray.toTensor) = .ok u ∧ u.same t = true) ∧
    (∀ a : TruthArray, a.WellFormed → HasArrays a.dims → ∃ u : Tensor α, a.toTensor = .ok u ∧
      u.shape = ⟨a.dims⟩ ∧ u.elems.kind = .packed ∧
      (do u.checkArray; return u.toTruthArray) = .ok a) ∧
    ∀ t : Tensor α, t.WellFormed → HasArrays t.shape.dims →
      (∀ a ∈ t.elems.toList, Element.ofTruth (Element.truth a) = a) → ∃ a : TruthArray,
        (do t.checkArray; return t.toTruthArray) = .ok a ∧ a.dims = t.shape.dims ∧
        ∀ coords, t.shape.Contains coords →
          t.get (coords.map Int.ofNat) = .ok (Element.ofTruth (a.entry coords)) := by
  refine ⟨fun t ht => Tensor.checkArray_eq_ok_iff ht, ?packed, ?array, ?cells⟩
  case packed =>
    intro t ht hdims hkind helems
    refine ⟨_, ?_, Tensor.same_packed_toTruthArray ht hkind helems⟩
    rw [(Tensor.checkArray_eq_ok_iff ht).2 hdims]
    exact TruthArray.toTensor_eq _
  case array =>
    intro a ha hdims
    refine ⟨a.packed, a.toTensor_eq, rfl, rfl, ?_⟩
    rw [(Tensor.checkArray_eq_ok_iff a.wellFormed_packed).2 hdims]
    exact congrArg Except.ok (TruthArray.toTruthArray_packed ha)
  case cells =>
    intro t ht hdims hcells
    refine ⟨t.toTruthArray, ?_, rfl, fun coords => Tensor.get_eq_entry ht hcells⟩
    rw [(Tensor.checkArray_eq_ok_iff ht).2 hdims]
    rfl

/-- Two rows and three columns there and back, two rows without columns back and forth, and the last
cell of the second row. -/
theorem exchange_restores_two_three :
    let cells : List Cell := [.truth true, .truth false, .truth false, .truth true, .truth true,
      .truth false]
    let t : Tensor Cell := ⟨⟨[2, 3]⟩, .ofList .packed cells⟩
    let a : TruthArray := ⟨[2, 0], []⟩
    t.WellFormed ∧ a.WellFormed ∧ HasArrays t.shape.dims ∧ HasArrays a.dims ∧
      (∃ u : Tensor Cell, (do t.checkArray; t.toTruthArray.toTensor) = .ok u ∧
        u.same t = true) ∧
      (∃ u : Tensor Cell, a.toTensor = .ok u ∧
        (do u.checkArray; return u.toTruthArray) = .ok a) ∧
      ∃ b : TruthArray, (do t.checkArray; return t.toTruthArray) = .ok b ∧
        .ok (Element.ofTruth (b.entry [1, 2])) = t.get [1, 2] := by
  intro cells t a
  have ht : t.WellFormed := rfl
  have ha : a.WellFormed := rfl
  have hdims : HasArrays t.shape.dims := by decide
  have hrows : HasArrays a.dims := by decide
  obtain ⟨-, hpacked, harray, hcells⟩ := exchange_restores (α := Cell)
  obtain ⟨u, hu, -, -, hback⟩ := harray a ha hrows
  obtain ⟨b, hb, -, hget⟩ := hcells t ht hdims (by decide)
  exact ⟨ht, ha, hdims, hrows, hpacked t ht hdims rfl (Storage.wellFormed_ofList .packed cells),
    ⟨u, hu, hback⟩, b, hb, (hget [1, 2] ⟨by decide, by decide, trivial⟩).symm⟩

/-- A tensor of one cell may have more dimensions than arrays have. -/
theorem refused_of_sixty_five_dimensions :
    let t : Tensor Cell := ⟨⟨List.replicate 65 1⟩, .ofList .packed [.truth true]⟩
    t.WellFormed ∧ t.elems.kind = .packed ∧ t.elems.WellFormed ∧
      t.checkArray = .error (.tooManyDimensions 64 65) ∧
      ¬∃ u : Tensor Cell, (do t.checkArray; t.toTruthArray.toTensor) = .ok u ∧ u.same t = true := by
  intro t
  have hcheck : t.checkArray = .error (.tooManyDimensions 64 65) := by decide
  have helems : t.elems.WellFormed := Storage.wellFormed_ofList .packed [Cell.truth true]
  refine ⟨by decide, rfl, helems, hcheck, ?_⟩
  rintro ⟨u, hu, -⟩
  rw [hcheck] at hu
  cases hu

end BoolTensor
