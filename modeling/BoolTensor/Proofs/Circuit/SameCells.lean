import BoolTensor.Circuit.Tensor
import BoolTensor.Proofs.Storage.Holds
import BoolTensor.Proofs.Tensor.Polymer

/-!
# Tensors with the same cells

Circuits on tensors read the cells and the shape, and not how the cells are stored. So a tensor can
be replaced by one that stores them as the algebra does.

## Main definitions

* `Tensor.SameCells`: two tensors have one shape and the same cells
* `Tensor.stored`: the tensor with its cells in dense storage
-/

namespace BoolTensor

namespace Tensor

variable {α : Type} [Element α] {t u : Tensor α}

/-- The tensors have one shape and the same cells. -/
structure SameCells (t u : Tensor α) : Prop where
  shape_eq : t.shape = u.shape
  toList_eq : t.elems.toList = u.elems.toList

/-- The tensor with its cells in dense storage. -/
def stored (t : Tensor α) : Tensor α :=
  ⟨t.shape, .ofList .dense t.elems.toList⟩

theorem sameCells_stored (t : Tensor α) : t.SameCells t.stored where
  shape_eq := rfl
  toList_eq := ((Storage.toList_ofList .dense _).trans (List.map_id _)).symm

namespace SameCells

theorem wellFormed (h : t.SameCells u) (ht : t.WellFormed) : u.WellFormed := by
  rw [WellFormed, ← Storage.length_toList, ← h.toList_eq, Storage.length_toList, ← h.shape_eq]
  exact ht

/-- Reindexed alike the tensors have the same cells again. -/
theorem exists_polymer (h : t.SameCells u) (ht : t.WellFormed) {target : Shape} {places : List Nat}
    (hfits : Fits t.shape target places) : ∃ t' u',
      t.polymer target (places.map Int.ofNat) = .ok t' ∧
      u.polymer target (places.map Int.ofNat) = .ok u' ∧ t'.SameCells u' := by
  have hu := h.wellFormed ht
  have hplaces := forall_mem_offsets_lt hfits
  refine ⟨_, _, polymer_of_fits hfits, polymer_of_fits (h.shape_eq ▸ hfits), rfl, ?_⟩
  rw [← h.shape_eq]
  simp only
  rw [Storage.toList_gather _ _ fun p hp => ht ▸ hplaces p hp,
    Storage.toList_gather _ _ fun p hp => hu ▸ h.shape_eq ▸ hplaces p hp, h.toList_eq]

section Circuits

variable {m : Type → Type} [Monad m] (alg : BoolAlgebra m α)

theorem tensorNot_eq (h : t.SameCells u) : alg.tensorNot t = alg.tensorNot u := by
  rw [BoolAlgebra.tensorNot, BoolAlgebra.tensorNot, h.shape_eq, h.toList_eq]

theorem tensorReduce_eq (h : t.SameCells u) (reduction : Reduction) :
    alg.tensorReduce reduction t = alg.tensorReduce reduction u := by
  have hblock : BoolAlgebra.firstAxisBlock t = BoolAlgebra.firstAxisBlock u :=
    funext₂ fun head i => Storage.range_congr h.toList_eq _ _
  rw [BoolAlgebra.tensorReduce, BoolAlgebra.tensorReduce, h.shape_eq, hblock]

end Circuits

end SameCells

end Tensor

end BoolTensor
