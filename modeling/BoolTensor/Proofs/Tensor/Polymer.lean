import BoolTensor.Proofs.Shape.Odometer
import BoolTensor.Proofs.Storage.Basic
import BoolTensor.Tensor.Basic

/-!
# Reindexed tensors

A mapping of dimensions reads, for each coordinate list of the target, one cell of the source. An
odometer over the target with the strides of the source meets these cells in order.

## Main definitions

* `Tensor.Fits`: each dimension of the source has a target dimension of its own size
* `Tensor.sourceCoords`: the coordinates in the source that are read for some in the target
* `Tensor.Misfits`: what a mapping is refused for
* `Tensor.cellAt`: the cell at coordinates
-/

namespace BoolTensor

namespace Tensor

/-- Each dimension of the source has a target dimension of its own size. -/
def Fits (source target : Shape) (places : List Nat) : Prop :=
  List.Forall₂ (fun dim place => target.dims[place]? = some dim) source.dims places

/-- The coordinates in the source that are read for some in the target. -/
def sourceCoords (places coords : List Nat) : List Nat :=
  places.map fun place => coords.getD place 0

variable {source target : Shape} {places coords : List Nat}

namespace Fits

theorem length_eq (h : Fits source target places) : places.length = source.rank :=
  (List.Forall₂.length_eq h).symm

theorem lt_rank (h : Fits source target places) : ∀ place ∈ places, place < target.rank := by
  obtain ⟨dims⟩ := source
  change List.Forall₂ _ dims places at h
  induction h with
  | nil => simp
  | cons hplace _ ih =>
    rw [List.forall_mem_cons]
    exact ⟨(List.getElem?_eq_some_iff.1 hplace).1, ih⟩

theorem mappingFits_eq (h : Fits source target places) :
    mappingFits source target (places.map Int.ofNat) = true := by
  obtain ⟨dims⟩ := source
  change List.Forall₂ _ dims places at h
  induction h with
  | nil => rfl
  | @cons dim place dims places hplace _ ih =>
    rw [mappingFits] at ih ⊢
    rw [List.map_cons, List.zip_cons_cons, List.all_cons, ih]
    simp [hplace]

end Fits

theorem within_getD {dims : List Nat} {dim place : Nat} (h : Shape.Within dims coords)
    (hplace : dims[place]? = some dim) : coords.getD place 0 < dim := by
  induction dims generalizing coords place with
  | nil => simp at hplace
  | cons first dims ih =>
    cases coords with
    | nil => exact h.elim
    | cons coord coords =>
      cases place with
      | zero =>
        obtain rfl : first = dim := by simpa using hplace
        exact h.1
      | succ place =>
        rw [List.getElem?_cons_succ] at hplace
        rw [List.getD_cons_succ]
        exact ih h.2 hplace

/-- What is read for coordinates of the target are coordinates of the source. -/
theorem Fits.contains (h : Fits source target places) (hcoords : target.Contains coords) :
    source.Contains (sourceCoords places coords) := by
  obtain ⟨dims⟩ := source
  change List.Forall₂ _ dims places at h
  induction h with
  | nil => trivial
  | cons hplace _ ih => exact ⟨within_getD hcoords hplace, ih⟩

/-- The odometer over the target meets the numbers of the source cells. -/
theorem sourceOdometer_of_fits (h : Fits source target places) :
    ∃ o, sourceOdometer source target (places.map Int.ofNat) = .ok o ∧
      o.indices = (target.cells fun coords => source.offset (sourceCoords places coords)).map
        Int.ofNat := by
  have hwheels : (Odometer.ofShape target).wheels.length = target.rank := List.length_map _
  -- Each dimension of the source adds its stride to the wheel that it is mapped to.
  let calls := (places.zip source.strides).map fun pair => ((pair.1 : Int), (pair.2 : Int))
  have hcalls : ∀ call ∈ calls,
      Odometer.Names (Odometer.ofShape target).wheels.length call.1 := by
    rw [List.forall_mem_map, hwheels]
    exact fun pair hpair => Odometer.names_natCast (h.lt_rank _ (List.of_mem_zip hpair).1)
  obtain ⟨o, hrun, hstart, hsame, hindex⟩ :=
    Odometer.foldlM_addStride (Odometer.atStart_ofShape target) calls hcalls
  have hoffset (coords : List Nat) : ((places.zip source.strides).map fun pair =>
      coords.getD pair.1 0 * pair.2).sum = source.offset (sourceCoords places coords) := by
    rw [Shape.offset, ← Nat.one_mul (Shape.offsetIn _ _), Shape.mul_offsetIn, sourceCoords,
      List.zipWith_map_left]
    exact congrArg _ List.map_zip_eq_zipWith
  refine ⟨o, ?_, ?_⟩
  · rw [sourceOdometer, List.zip_map_left, List.foldlM_map, ← hrun, List.foldlM_map]
    rfl
  · rw [hstart.indices_eq, hsame, Odometer.shapeOf_ofShape, Shape.cells, List.map_map]
    refine List.map_congr_left fun n _ => ?_
    have hsum : (calls.map fun call => ((target.coordinates n).getD
        (Odometer.wheelOf (Odometer.ofShape target).wheels.length call.1) 0 : Int) * call.2).sum =
        (((places.zip source.strides).map fun pair =>
          (target.coordinates n).getD pair.1 0 * pair.2).sum : Nat) := by
      rw [Nat.cast_list_sum, List.map_map, List.map_map]
      simp only [Function.comp_def, Odometer.wheelOf_natCast, Nat.cast_mul]
    rw [hindex, Odometer.indexAt_ofShape, Odometer.shapeOf_ofShape, hsum, hoffset, zero_add]
    rfl

/-! ### Mappings that are refused -/

section Misfits

variable {mapping : List Int}

/-- The mapping does not name a target dimension of its own size for each dimension of the source. -/
def Misfits (source target : Shape) (mapping : List Int) : Prop :=
  mapping.length ≠ source.rank ∨ ∃ i < source.rank,
    mapping.getD i 0 < 0 ∨ target.rank ≤ mapping.getD i 0 ∨
      source.dims.getD i 0 ≠ target.dims.getD (mapping.getD i 0).toNat 0

instance : Decidable (Misfits source target mapping) :=
  inferInstanceAs (Decidable (_ ∨ _))

theorem mappingFits_iff (hlength : mapping.length = source.rank) :
    mappingFits source target mapping = true ↔ List.Forall₂
      (fun dim place => 0 ≤ place ∧ target.dims[place.toNat]? = some dim) source.dims mapping := by
  rw [List.forall₂_iff_zip, mappingFits, List.all_eq_true]
  constructor
  · intro h
    refine ⟨hlength.symm, fun {dim place} hmem => ?_⟩
    have hfits := h (dim, place) hmem
    rwa [Bool.and_eq_true, decide_eq_true_iff, beq_iff_eq] at hfits
  · rintro ⟨-, h⟩ ⟨dim, place⟩ hmem
    rw [Bool.and_eq_true, decide_eq_true_iff, beq_iff_eq]
    exact h hmem

theorem getElem?_eq_some_iff_getD {dims : List Nat} {place : Int} {dim : Nat} :
    (0 ≤ place ∧ dims[place.toNat]? = some dim) ↔
      ¬(place < 0 ∨ dims.length ≤ place ∨ dim ≠ dims.getD place.toNat 0) := by
  rw [List.getElem?_eq_some_iff]
  constructor
  · rintro ⟨hnonneg, hlt, hdim⟩
    rw [List.getD_eq_getElem _ _ hlt, hdim]
    omega
  · intro h
    have hlt : place.toNat < dims.length := by omega
    rw [List.getD_eq_getElem _ _ hlt] at h
    refine ⟨by omega, hlt, ?_⟩
    by_contra hne
    exact h (.inr (.inr (Ne.symm hne)))

theorem not_misfits_iff :
    ¬Misfits source target mapping ↔ List.Forall₂
      (fun dim place => 0 ≤ place ∧ target.dims[place.toNat]? = some dim) source.dims mapping := by
  simp only [getElem?_eq_some_iff_getD]
  rw [List.forall₂_iff_get, Misfits, not_or, not_ne_iff]
  constructor
  · rintro ⟨hlength, h⟩
    refine ⟨hlength.symm, fun i hdim hplace hmis => h ⟨i, hdim, ?_⟩⟩
    rwa [List.getD_eq_getElem _ _ hdim, List.getD_eq_getElem _ _ hplace]
  · rintro ⟨hlength, h⟩
    refine ⟨hlength.symm, fun ⟨i, hdim, hmis⟩ => ?_⟩
    have hplace : i < mapping.length := hlength ▸ hdim
    rw [List.getD_eq_getElem _ _ hdim, List.getD_eq_getElem _ _ hplace] at hmis
    exact h i hdim hplace hmis

/-- A mapping that does not misfit names places of the target. -/
theorem fits_of_not_misfits (h : ¬Misfits source target mapping) :
    (mapping.map Int.toNat).map Int.ofNat = mapping ∧
      Fits source target (mapping.map Int.toNat) := by
  have hplaces := not_misfits_iff.1 h
  constructor
  · have hnonneg : ∀ place ∈ mapping, 0 ≤ place :=
      ((List.forall₂_and_left _ _).1 (List.Forall₂.flip hplaces)).1
    exact Shape.map_ofNat_map_toNat hnonneg
  · exact List.forall₂_map_right_iff.2 (hplaces.imp fun _ _ hplace => hplace.2)

end Misfits

/-! ### Results -/

variable {α : Type} [Element α] {t : Tensor α}

/-- A mapping that fits is not refused, and the result has the cells of the source. -/
theorem polymer_of_fits (h : Fits t.shape target places) :
    t.polymer target (places.map Int.ofNat) = .ok ⟨target, t.elems.gather
      ((target.cells fun coords => t.shape.offset (sourceCoords places coords)).map Int.ofNat)⟩ := by
  obtain ⟨o, hodometer, hindices⟩ := sourceOdometer_of_fits h
  have hrank : ¬(places.map Int.ofNat).length ≠ t.shape.rank := by
    simpa using h.length_eq
  have hfits : ¬(!mappingFits t.shape target (places.map Int.ofNat)) = true := by
    simp [h.mappingFits_eq]
  have hlength : target.size = (t.elems.gather o.indices).length := by
    rw [Storage.length_gather, hindices, List.length_map, Shape.length_cells]
  rw [polymer, if_neg hrank, if_neg hfits, hodometer, ← hindices]
  exact if_pos hlength

/-- A mapping that misfits is refused. -/
theorem polymer_of_misfits {mapping : List Int} (h : Misfits t.shape target mapping) :
    t.polymer target mapping = .error (if mapping.length ≠ t.shape.rank
      then .mappingRank mapping t.shape.dims
      else .mappingInvalid mapping t.shape.dims target.dims) := by
  by_cases hlength : mapping.length = t.shape.rank
  · have hfits : mappingFits t.shape target mapping = false := by
      rw [Bool.eq_false_iff, ne_eq, mappingFits_iff hlength, ← not_misfits_iff, not_not]
      exact h
    rw [polymer, if_neg (not_not.2 hlength), if_neg (not_not.2 hlength), hfits]
    rfl
  · rw [polymer, if_pos hlength, if_pos hlength]
    rfl

/-- A tensor is refused a mapping just where it misfits, and for its length before its entries. -/
theorem polymer_eq_error_iff {mapping : List Int} {e : Error} :
    t.polymer target mapping = .error e ↔ Misfits t.shape target mapping ∧
      e = if mapping.length ≠ t.shape.rank then .mappingRank mapping t.shape.dims
        else .mappingInvalid mapping t.shape.dims target.dims := by
  by_cases h : Misfits t.shape target mapping
  · rw [polymer_of_misfits h, Except.error.injEq, eq_comm]
    exact (and_iff_right h).symm
  · obtain ⟨hmapping, hfits⟩ := fits_of_not_misfits h
    rw [← hmapping, polymer_of_fits hfits, hmapping]
    exact iff_of_false nofun fun hmisfits => h hmisfits.1

/-- Where a tensor is reindexed the mapping fits. -/
theorem of_polymer {mapping : List Int} {u : Tensor α} (hu : t.polymer target mapping = .ok u) :
    u.WellFormed ∧ u.shape = target ∧
      ∃ places, mapping = places.map Int.ofNat ∧ Fits t.shape target places := by
  have hmisfits : ¬Misfits t.shape target mapping := by
    intro hmisfits
    rw [polymer_of_misfits hmisfits] at hu
    cases hu
  obtain ⟨hplaces, hfits⟩ := fits_of_not_misfits hmisfits
  rw [← hplaces, polymer_of_fits hfits] at hu
  obtain rfl := Except.ok.inj hu
  exact ⟨by simp [WellFormed], rfl, _, hplaces.symm, hfits⟩

theorem get_of_contains (ht : t.WellFormed) (h : t.shape.Contains coords) :
    t.get (coords.map Int.ofNat) =
      .ok (t.elems.toList.getD (t.shape.offset coords) Element.blank) := by
  rw [get, Shape.index_of_contains h]
  exact Storage.get_of_lt (ht ▸ Shape.offset_lt h)

/-- The cell at coordinates. -/
def cellAt (t : Tensor α) (coords : List Nat) : α :=
  t.elems.toList.getD (t.shape.offset coords) Element.blank

theorem get_eq_cellAt (ht : t.WellFormed) (h : t.shape.Contains coords) :
    t.get (coords.map Int.ofNat) = .ok (t.cellAt coords) :=
  get_of_contains ht h

theorem cells_cellAt (ht : t.WellFormed) : t.shape.cells t.cellAt = t.elems.toList :=
  Shape.cells_getD ((Storage.length_toList _).trans ht) _

theorem cellAt_mem (ht : t.WellFormed) (h : t.shape.Contains coords) :
    t.cellAt coords ∈ t.elems.toList := by
  have hplace : t.shape.offset coords < t.elems.toList.length := by
    rw [Storage.length_toList, ht]
    exact Shape.offset_lt h
  rw [cellAt, List.getD_eq_getElem _ _ hplace]
  exact List.getElem_mem hplace

/-- The numbers of source cells that are read for the cells of the target. -/
theorem forall_mem_offsets_lt (h : Fits source target places) :
    ∀ p ∈ target.cells fun coords => source.offset (sourceCoords places coords), p < source.size :=
  Shape.forall_mem_cells.2 fun _ hcoords => Shape.offset_lt (h.contains hcoords)

/-- A cell of the result is the cell of the source at the coordinates that are read. -/
theorem get_of_polymer {u : Tensor α} (ht : t.WellFormed) (h : Fits t.shape target places)
    (hu : t.polymer target (places.map Int.ofNat) = .ok u) (hcoords : target.Contains coords) :
    u.get (coords.map Int.ofNat) = t.get ((sourceCoords places coords).map Int.ofNat) := by
  obtain rfl := Except.ok.inj ((polymer_of_fits h).symm.trans hu)
  have hplaces : ∀ p ∈ target.cells fun coords => t.shape.offset (sourceCoords places coords),
      p < t.elems.length := fun p hp => ht ▸ forall_mem_offsets_lt h p hp
  have hu : WellFormed ⟨target, t.elems.gather ((target.cells fun coords =>
      t.shape.offset (sourceCoords places coords)).map Int.ofNat)⟩ := by
    simp [WellFormed]
  rw [get_of_contains hu hcoords, get_of_contains ht (h.contains hcoords)]
  simp only
  rw [Storage.toList_gather _ _ hplaces, Shape.map_cells, Shape.getD_cells hcoords]

end Tensor

end BoolTensor
