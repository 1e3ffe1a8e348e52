import BoolTensor.Program.Tensor
import BoolTensor.Proofs.Program.Registers
import BoolTensor.Proofs.Tensor.Polymer

/-!
# Instructions on tensors

An instruction that gives a new tensor leaves those that are there as they are.
-/

namespace BoolTensor

variable {α : Type} [Element α]

namespace Tensor

theorem tensor_of_run_polymer {r r' : Registers α} {source number : Nat} {dims mapping : List Int}
    {outcome : Outcome α}
    (hrun : (TensorStep.polymer source dims mapping).run r = .ok (outcome, r'))
    (h : r.HasTensor number) : r'.tensor number = r.tensor number := by
  rw [TensorStep.run] at hrun
  cases hshape : Shape.ofInts dims with
  | error e => rw [hshape] at hrun; cases hrun
  | ok shape =>
    rw [hshape] at hrun
    cases hpolymer : (r.tensor source).polymer shape mapping with
    | error e => simp [hpolymer, bind, Except.bind] at hrun
    | ok u =>
      have hresult : r.addTensor u = (outcome, r') := by
        simpa [hpolymer, bind, Except.bind, pure, Except.pure] using hrun
      obtain rfl : (r.addTensor u).2 = r' := congrArg Prod.snd hresult
      exact (Registers.tensor_addTensor h u).2

/-- A mapping that does not misfit: the odometer stays within the tensor, and the result holds the
cells that it meets, which are those that the mapping reads. -/
theorem exists_odometer_of_not_misfits {t : Tensor α} (ht : t.WellFormed) {target : Shape}
    {mapping : List Int} (h : ¬Misfits t.shape target mapping) : ∃ o u,
      sourceOdometer t.shape target mapping = .ok o ∧
      (∀ index ∈ o.indices, 0 ≤ index ∧ index < t.shape.size) ∧
      t.polymer target mapping = .ok u ∧ u.elems = t.elems.gather o.indices ∧
      u.shape = target ∧ u.elems.kind = t.elems.kind ∧ u.WellFormed ∧
      ∀ coords, target.Contains coords → ∃ a, u.get (coords.map Int.ofNat) = .ok a ∧
        t.get (mapping.map fun place => (coords.getD place.toNat 0 : Int)) = .ok a := by
  obtain ⟨hmapping, hfits⟩ := fits_of_not_misfits h
  rw [← hmapping]
  obtain ⟨o, hodometer, hindices⟩ := sourceOdometer_of_fits hfits
  have hpolymer := polymer_of_fits hfits
  rw [← hindices] at hpolymer
  have hbounds : ∀ index ∈ o.indices, 0 ≤ index ∧ index < t.shape.size := by
    rw [hindices, List.forall_mem_map]
    exact fun p hp => ⟨Int.natCast_nonneg p, Int.ofNat_lt.2 (forall_mem_offsets_lt hfits p hp)⟩
  have hsize : WellFormed ⟨target, t.elems.gather o.indices⟩ := by
    simp [WellFormed, hindices]
  refine ⟨o, _, hodometer, hbounds, hpolymer, rfl, rfl, Storage.kind_gather _ _, hsize,
    fun coords hcoords => ⟨_, get_of_contains hsize hcoords, ?_⟩⟩
  rw [← get_of_contains hsize hcoords, get_of_polymer ht hfits hpolymer hcoords, sourceCoords]
  simp only [List.map_map, Function.comp_def]
  rfl

/-- A tensor is reindexed unless the mapping misfits the shapes. All indices of the odometer are
those of cells, the result has the shape asked for and the storage of the tensor, and its cell at
some coordinates is the cell at the coordinates that the mapping reads. The instruction leaves the
tensors of the registers as they are. -/
theorem polymer_reads_mapped_cells {t : Tensor α} (ht : t.WellFormed) (target : Shape)
    (mapping : List Int) :
    ((∃ e, t.polymer target mapping = .error e) ↔ Misfits t.shape target mapping) ∧
    (∀ e, t.polymer target mapping = .error e →
      e = .mappingRank mapping t.shape.dims ∨
        e = .mappingInvalid mapping t.shape.dims target.dims) ∧
    (¬Misfits t.shape target mapping → ∃ o u,
      sourceOdometer t.shape target mapping = .ok o ∧
      (∀ index ∈ o.indices, 0 ≤ index ∧ index < t.shape.size) ∧
      t.polymer target mapping = .ok u ∧ u.elems = t.elems.gather o.indices ∧
      u.shape = target ∧ u.elems.kind = t.elems.kind ∧ u.WellFormed ∧
      ∀ coords, target.Contains coords → ∃ a, u.get (coords.map Int.ofNat) = .ok a ∧
        t.get (mapping.map fun place => (coords.getD place.toNat 0 : Int)) = .ok a) ∧
    ∀ (r : Registers α) (source : Nat) (dims : List Int) (outcome : Outcome α) (r' : Registers α),
      (TensorStep.polymer source dims mapping).run r = .ok (outcome, r') →
      ∀ number, r.HasTensor number → r'.tensor number = r.tensor number := by
  refine ⟨⟨?_, fun h => ⟨_, polymer_of_misfits h⟩⟩, fun e he => ?_,
    fun h => exists_odometer_of_not_misfits ht h,
    fun r source dims outcome r' hrun number h => tensor_of_run_polymer hrun h⟩
  · rintro ⟨e, he⟩
    exact (polymer_eq_error_iff.1 he).1
  · obtain ⟨-, rfl⟩ := polymer_eq_error_iff.1 he
    split_ifs
    · exact .inl rfl
    · exact .inr rfl

/-- The transpose of a matrix. -/
theorem polymer_reads_mapped_cells_transpose :
    let t : Tensor Bool := ⟨⟨[2, 3]⟩, .ofList .dense [true, false, false, true, true, false]⟩
    t.WellFormed ∧ ∃ u, t.polymer ⟨[3, 2]⟩ [1, 0] = .ok u ∧ u.shape = ⟨[3, 2]⟩ ∧
      u.get [2, 0] = .ok true := by
  intro t
  have ht : t.WellFormed := rfl
  obtain ⟨o, u, -, -, hu, -, hshape, -, -, hcells⟩ :=
    (polymer_reads_mapped_cells ht ⟨[3, 2]⟩ [1, 0]).2.2.1 (by decide)
  obtain ⟨a, hua, hta⟩ := hcells [2, 0] ⟨by decide, by decide, trivial⟩
  have hcell : t.get [0, 2] = .ok true := rfl
  obtain rfl : a = true := Except.ok.inj (hta.symm.trans hcell)
  exact ⟨ht, u, hu, hshape, hua⟩

end Tensor

end BoolTensor
