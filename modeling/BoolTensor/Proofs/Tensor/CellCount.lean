import BoolTensor.Circuit.Packed
import BoolTensor.Proofs.Ending
import BoolTensor.Proofs.Storage.Holds
import BoolTensor.Proofs.Tensor.Polymer
import BoolTensor.Proofs.Tensor.RowMajor

/-!
# Tensors have as many cells as their shapes

Each way to a new tensor finds its shape and its cells by different means: strides, rows of an
array, the product of joined dimensions. They agree on the number of cells, so that the check that
makes a vector a tensor refuses none but the vectors and lists that it is given from outside.

## Main definitions

* `Error.Uncounted`: a refusal that is not that of the check
* `Error.OutOfBounds`: the refusal of a place, a range or an array that there cannot be
-/

namespace BoolTensor

/-- The refusal is not that of a vector for the number of its elements. -/
def Error.Uncounted : Error → Prop
  | elementCount _ _ _ => False
  | _ => True

/-- The refusal is that of a place, a range or an array that there cannot be. -/
def Error.OutOfBounds : Error → Prop
  | indexOutOfRange _ _ | rangeOutOfBounds _ _ _ | coordinateCount _ _ | coordinatesOutOfRange _ _
  | tooManyDimensions _ _ | dimensionTooLarge | negativeArrayDimension | severalOpenDimensions
  | entryCount _ _ | arrayTooLarge | lengthTooWide | countTooWide => True
  | _ => False

theorem Error.uncounted_of_outOfBounds (e : Error) (h : e.OutOfBounds) : e.Uncounted := by
  cases e with
  | elementCount => exact h
  | _ => trivial

variable {α : Type} [Element α] {β : Type} {E : Error → Prop}

/-! ### Checks -/

theorem Shape.meets_ofInts (dims : List Int) :
    Meets (fun _ => True) Error.Uncounted (Shape.ofInts dims) := by
  rw [Shape.ofInts]
  split_ifs
  · exact trivial
  · trivial

theorem Shape.meets_splitFirst (s : Shape) :
    Meets (fun split => s.dims = split.1 :: split.2.dims) Error.Uncounted s.splitFirst := by
  obtain ⟨dims⟩ := s
  cases dims with
  | nil => exact trivial
  | cons first rest => exact rfl

/-- As many cells are there when the first dimensions are joined. -/
theorem Shape.meets_join (s : Shape) (count : Int) :
    Meets (fun joined => joined.size = s.size) Error.Uncounted (s.join count) := by
  rw [Shape.join]
  split_ifs
  · exact Shape.size_joined s.dims count.toNat
  · exact trivial

theorem Shape.meets_index (s : Shape) (coords : List Int) :
    Meets (fun _ => True) Error.OutOfBounds (s.index coords) := by
  rw [Shape.index]
  split_ifs
  · exact trivial
  · trivial
  · exact trivial

theorem meets_checkDims (dims : List Int) :
    Meets (fun _ => True) Error.OutOfBounds (checkDims dims) := by
  rw [checkDims]
  split_ifs
  · exact trivial
  · exact trivial
  · trivial

theorem meets_checkArray (entrySize : Nat) (dims : List Int) :
    Meets (fun _ => True) Error.OutOfBounds (checkArray entrySize dims) := by
  refine (meets_checkDims dims).bind fun _ _ => ?_
  refine .guard trivial fun _ => ?_
  dsimp only
  split_ifs
  · exact trivial
  · trivial

theorem meets_arrayDims (count : Nat) (dims : List Int) :
    Meets (fun _ => True) Error.OutOfBounds (arrayDims count dims) := by
  refine (meets_checkDims dims).bind fun _ _ => ?_
  refine .guard trivial fun _ => ?_
  cases boundedProduct 1 (closed dims 1) with
  | none => exact trivial
  | some known =>
    refine .guard trivial fun _ => ?_
    exact (meets_checkArray 1 _).bind fun _ _ => trivial

theorem meets_checkIndex (length : Nat) (index : Int) :
    Meets (fun _ => True) Error.OutOfBounds (checkIndex length index) := by
  rw [checkIndex]
  split_ifs
  · trivial
  · exact trivial

theorem meets_checkRange (length : Nat) (start stop : Int) :
    Meets (fun _ => True) Error.OutOfBounds (checkRange length start stop) := by
  rw [checkRange]
  split_ifs
  · trivial
  · exact trivial

theorem meets_checkCount (count : Int) (e : Error) (he : e.OutOfBounds) :
    Meets (fun _ => True) Error.OutOfBounds (checkCount count e) := by
  rw [checkCount]
  split_ifs
  · trivial
  · exact he

theorem meets_checkChunk (size : Int) :
    Meets (fun _ => True) Error.Uncounted (checkChunk size) := by
  rw [checkChunk]
  split_ifs
  · exact trivial
  · trivial

namespace Storage

theorem meets_checkRoom (kind : Kind) (length : Int) :
    Meets (fun _ => True) Error.OutOfBounds (checkRoom kind length) := by
  cases kind with
  | packed => exact meets_checkArray _ _
  | _ => trivial

theorem meets_checkLength (v : Storage α) :
    Meets (fun _ => True) Error.OutOfBounds v.checkLength :=
  meets_checkCount _ .lengthTooWide trivial

/-! ### Operations on vectors -/

theorem meets_get (v : Storage α) (index : Int) :
    Meets (fun _ => True) Error.OutOfBounds (v.get index) :=
  (meets_checkIndex _ index).bind fun _ _ => trivial

theorem meets_set (v : Storage α) (index : Int) (elem : α) :
    Meets (fun w => w.length = v.length) Error.OutOfBounds (v.set index elem) :=
  (meets_checkIndex _ index).bind fun place _ => v.length_write place elem

theorem meets_range (v : Storage α) (start stop : Int) :
    Meets (fun _ => True) Error.OutOfBounds (v.range start stop) :=
  (meets_checkRange _ start stop).bind fun _ _ => trivial

theorem meets_resize (v : Storage α) (newLength : Int) (elem : α) :
    Meets (· = v.withLength newLength elem) Error.OutOfBounds (v.resize newLength elem) := by
  rw [resize_eq]
  refine Meets.map (P := fun _ => True) ?_ fun _ _ => rfl
  cases v.kind with
  | dense => exact meets_checkCount _ .countTooWide trivial
  | packed => exact meets_checkArray _ _
  | counted => trivial
  | plain => exact meets_checkCount _ .lengthTooWide trivial

/-- A vector with elements is split where its chunks have some. -/
theorem meets_split (v : Storage α) {size : Int}
    (hchunk : v.length ≠ 0 → Meets (fun _ => True) E (checkChunk size))
    (hbounds : ∀ e, Error.OutOfBounds e → E e) : Meets (fun _ => True) E (v.split size) := by
  cases v with
  | dense v =>
    refine Meets.map (P := fun _ => True) ?_ fun _ _ => trivial
    rw [Dense.split]
    split_ifs with hempty
    · trivial
    · exact (hchunk hempty).bind fun _ _ => trivial
  | packed v =>
    refine Meets.map (P := fun _ => True) ?_ fun _ _ => trivial
    rw [Bits.split]
    split_ifs with hempty
    · trivial
    · exact (hchunk hempty).bind fun size _ =>
        ((meets_arrayDims _ _).imp_error hbounds).bind fun _ _ => trivial
  | counted v =>
    refine Meets.map (P := fun _ => True) ?_ fun _ _ => trivial
    rw [Count.split]
    split_ifs with hempty
    · trivial
    · exact (hchunk hempty).bind fun _ _ => trivial
  | plain v =>
    refine Meets.map (P := fun _ => True) ?_ fun _ _ => trivial
    rw [Sequence.split]
    split_ifs with hempty
    · trivial
    · exact (hchunk hempty).bind fun _ _ => trivial

end Storage

/-! ### Construction -/

namespace Tensor

variable {shape : Shape} {elems : Storage α} {t u : Tensor α}

/-- The check passes where the number of elements is right. -/
theorem meets_ofStorage (h : elems.length = shape.size) :
    Meets WellFormed E (ofStorage shape elems) := by
  rw [ofStorage, if_pos h.symm]
  exact h

/-- Other vectors are refused. -/
theorem meets_ofStorage_any (shape : Shape) (elems : Storage α) :
    Meets (fun t => t.WellFormed ∧ t = ⟨shape, elems⟩)
      (· = .elementCount shape.dims shape.size elems.length) (ofStorage shape elems) := by
  rw [ofStorage]
  split_ifs with hsize
  · exact ⟨hsize.symm, rfl⟩
  · rfl

theorem meets_constant (shape : Shape) (elem : α) (kind : Kind) :
    Meets WellFormed Error.OutOfBounds (constant shape elem kind) := by
  refine (Storage.meets_checkRoom kind shape.size).bind fun _ _ => ?_
  refine (Storage.meets_resize _ _ elem).bind fun elems helems => ?_
  refine (Storage.meets_checkLength elems).bind fun _ _ => meets_ofStorage ?_
  have hfilled := Storage.holds_withLength_withCapacity kind shape.size shape.size elem
  rw [helems, hfilled.length_eq, List.length_replicate]

theorem meets_ofBits {bits : List Bool} (h : bits.length = shape.size) :
    Meets WellFormed E (ofBits shape bits : Except Error (Tensor α)) := by
  apply meets_ofStorage
  rw [← h]
  exact List.size_toArray

theorem meets_ofInts (dims : List Int) (data : List Bool) :
    Meets (fun _ => True) Error.OutOfBounds (TruthArray.ofInts dims data) :=
  (meets_arrayDims _ dims).map fun _ _ => trivial

theorem meets_toTensor (a : TruthArray) :
    Meets WellFormed E (a.toTensor : Except Error (Tensor α)) := by
  apply meets_ofBits
  rw [permuted, List.length_map, crossOrder_eq, List.length_map, List.length_range,
    Shape.size_reverse]

/-! ### Cells and shapes -/

theorem meets_get (t : Tensor α) (coords : List Int) :
    Meets (fun _ => True) Error.OutOfBounds (t.get coords) :=
  (t.shape.meets_index coords).bind fun _ _ => t.elems.meets_get _

theorem meets_set (t : Tensor α) (coords : List Int) (elem : α) :
    Meets (fun u => u.elems.length = t.elems.length) Error.OutOfBounds (t.set coords elem) :=
  (t.shape.meets_index coords).bind fun _ _ =>
    (t.elems.meets_set _ elem).bind fun _ hlength => hlength

/-- An odometer over the shape of the result meets as many cells as it has. -/
theorem meets_polymer (t : Tensor α) (shape : Shape) (mapping : List Int) :
    Meets WellFormed Error.Uncounted (t.polymer shape mapping) := by
  by_cases hmisfits : Misfits t.shape shape mapping
  · rw [polymer_of_misfits hmisfits]
    split_ifs <;> exact trivial
  · obtain ⟨hplaces, hfits⟩ := fits_of_not_misfits hmisfits
    rw [← hplaces, polymer_of_fits hfits]
    simp [Meets, WellFormed]

theorem meets_join (ht : t.WellFormed) (count : Int) :
    Meets WellFormed Error.Uncounted (t.join count) :=
  (t.shape.meets_join count).bind fun _ hsize => ht.trans hsize.symm

theorem WellFormed.copy (ht : t.WellFormed) : t.copy.WellFormed :=
  t.elems.length_copy.trans ht

theorem meets_checkArray (t : Tensor α) : Meets (fun _ => True) Error.OutOfBounds t.checkArray :=
  (meets_arrayDims _ _).bind fun _ _ => trivial

/-! ### Gates on whole arrays -/

theorem length_truths (ht : t.WellFormed) : t.elems.truths.length = t.shape.size := by
  rw [Storage.length_truths, ht]

theorem meets_packedNot (ht : t.WellFormed) : Meets WellFormed E t.packedNot :=
  meets_ofBits (by rw [List.length_map, length_truths ht])

theorem meets_packedGate (gate : Gate) (ht : t.WellFormed) (hu : u.WellFormed) :
    Meets WellFormed Error.Uncounted (t.packedGate gate u) := by
  rw [packedGate]
  split_ifs with hshape
  · apply meets_ofBits
    rw [List.length_zipWith, length_truths ht, length_truths hu, ← hshape, Nat.min_self]
  · exact trivial

/-- There are as many rows as the result has cells. -/
theorem meets_packedReduce (reduction : Reduction) (t : Tensor α) :
    Meets WellFormed Error.Uncounted (t.packedReduce reduction) := by
  refine t.shape.meets_splitFirst.bind ?_
  rintro ⟨head, rest⟩ -
  have hrows : Meets (fun rows => rows.length = rest.size) Error.Uncounted
      (t.rows head rest.size) :=
    ((meets_arrayDims _ _).imp_error Error.uncounted_of_outOfBounds).bind
      fun _ _ => length_chunks ..
  refine hrows.bind fun rows hlength => ?_
  apply meets_ofBits
  rw [List.length_map, hlength]

end Tensor

end BoolTensor
