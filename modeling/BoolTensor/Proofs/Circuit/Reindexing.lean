import BoolTensor.Proofs.Circuit.Packed
import BoolTensor.Proofs.Tensor.Tabulated

/-!
# Laws of reindexing

Reindexing a tensor twice is reindexing it once, by the mapping that is read through the other one,
and the mapping that sends each dimension to itself changes nothing. Gates at each coordinate do not
see it: they give the same before and after, cell by cell and on whole arrays.
-/

namespace BoolTensor

namespace Tensor

variable {source middle target : Shape} {places others coords : List Nat}

/-! ### Mappings -/

theorem sourceCoords_sourceCoords (h : ∀ place ∈ places, place < others.length)
    (coords : List Nat) : sourceCoords places (sourceCoords others coords) =
      sourceCoords (places.map fun place => others.getD place 0) coords := by
  rw [sourceCoords, sourceCoords, sourceCoords, List.map_map]
  refine List.map_congr_left fun place hplace => ?_
  have hlt := h place hplace
  rw [Function.comp, List.getD_eq_getElem _ _ hlt,
    List.getD_eq_getElem _ _ (by rwa [List.length_map]), List.getElem_map]

/-- The mapping that is read through another one leads to dimensions of the same size. -/
theorem Fits.trans (h : Fits source middle places) (h' : Fits middle target others) :
    Fits source target (places.map fun place => others.getD place 0) := by
  refine List.forall₂_map_right_iff.2 (List.Forall₂.imp (fun dim place hplace => ?_) h)
  obtain ⟨hlt, rfl⟩ := List.getElem?_eq_some_iff.1 hplace
  have hlt' : place < others.length := h'.length_eq ▸ hlt
  rw [List.getD_eq_getElem _ _ hlt']
  exact List.Forall₂.get h' hlt hlt'

theorem fits_range (s : Shape) : Fits s s (List.range s.rank) := by
  rw [Fits, List.forall₂_iff_get]
  refine ⟨List.length_range.symm, fun i hdim hplace => ?_⟩
  simp [List.get_eq_getElem]

theorem sourceCoords_range (coords : List Nat) :
    sourceCoords (List.range coords.length) coords = coords := by
  apply List.ext_getElem
  · rw [sourceCoords, List.length_map, List.length_range]
  · intro i _ hi
    simp only [sourceCoords, List.getElem_map, List.getElem_range]
    exact List.getD_eq_getElem _ _ hi

/-! ### Two mappings, one after the other -/

variable {α : Type} [Element α] {t u : Tensor α}

theorem polymer_polymer (h : Fits t.shape middle places) (h' : Fits middle target others)
    (hu : t.polymer middle (places.map Int.ofNat) = .ok u) :
    u.polymer target (others.map Int.ofNat) =
      t.polymer target ((places.map fun place => others.getD place 0).map Int.ofNat) := by
  obtain rfl := Except.ok.inj ((polymer_of_fits h).symm.trans hu)
  have hplaces : ∀ p ∈ target.cells fun coords => middle.offset (sourceCoords others coords),
      p < (middle.cells fun coords => t.shape.offset (sourceCoords places coords)).length := by
    rw [Shape.length_cells]
    exact forall_mem_offsets_lt h'
  have hinner : ∀ place ∈ places, place < others.length := by
    rw [h'.length_eq]
    exact h.lt_rank
  rw [polymer_of_fits h', polymer_of_fits (h.trans h'), Storage.gather_gather _ hplaces,
    Shape.map_cells]
  have hread : ∀ coords, target.Contains coords →
      (middle.cells fun coords => t.shape.offset (sourceCoords places coords)).getD
        (middle.offset (sourceCoords others coords)) 0 =
      t.shape.offset (sourceCoords (places.map fun place => others.getD place 0) coords) := by
    intro coords hcoords
    rw [Shape.getD_cells (h'.contains hcoords), sourceCoords_sourceCoords hinner]
  rw [Shape.cells_congr hread]

/-- The mapping of each dimension to itself reads each cell once, in order. -/
theorem polymer_range (ht : t.WellFormed) :
    t.polymer t.shape ((List.range t.shape.rank).map Int.ofNat) =
      .ok ⟨t.shape, t.elems.gather ((List.range t.elems.length).map Int.ofNat)⟩ := by
  have hread : ∀ coords, t.shape.Contains coords →
      t.shape.offset (sourceCoords (List.range t.shape.rank) coords) = t.shape.offset coords := by
    intro coords hcoords
    rw [Shape.rank, ← Shape.Within.length_eq hcoords, sourceCoords_range]
  rw [polymer_of_fits (fits_range t.shape), Shape.cells_congr hread, Shape.cells_offset, ← ht]

/-! ### Gates -/

section Gates

variable {a a' b b' : Tensor Bool} {mapping : List Int}

theorem exists_packedNot_polymer (ha : a.WellFormed)
    (ha' : a.polymer target mapping = .ok a') :
    ∃ u w, a.packedNot = .ok u ∧ u.polymer target mapping = .ok w ∧ a'.packedNot = .ok w := by
  obtain ⟨hwell, rfl, places, rfl, hfits⟩ := of_polymer ha'
  refine ⟨_, _, packedNot_eq ha, polymer_tabulate hfits _, ?_⟩
  rw [packedNot_eq hwell, tabulate_congr fun coords hcoords => ?_]
  rw [truthAt_of_polymer ha hfits ha' hcoords]

theorem exists_packedGate_polymer (ha : a.WellFormed) (hb : b.WellFormed)
    (hshape : a.shape = b.shape) (ha' : a.polymer target mapping = .ok a')
    (hb' : b.polymer target mapping = .ok b') (gate : Gate) :
    ∃ u w, a.packedGate gate b = .ok u ∧ u.polymer target mapping = .ok w ∧
      a'.packedGate gate b' = .ok w := by
  obtain ⟨hwell, htarget, places, rfl, hfits⟩ := of_polymer ha'
  obtain ⟨hwell', htarget', -⟩ := of_polymer hb'
  subst htarget
  refine ⟨_, _, packedGate_eq ha hb hshape gate, polymer_tabulate hfits _, ?_⟩
  rw [packedGate_eq hwell hwell' htarget'.symm, tabulate_congr fun coords hcoords => ?_]
  rw [truthAt_of_polymer ha hfits ha' hcoords,
    truthAt_of_polymer hb (hshape ▸ hfits) hb' hcoords]

end Gates

/-- Where a tensor can be reindexed twice, the mapping that is read through the other one gives the
same tensor at once. The mapping of each dimension to itself gives a tensor that nothing tells from
the first one. Gates at each coordinate, cell by cell or on whole arrays, give the same before and
after tensors of one shape are reindexed. -/
theorem polymer_functorial_natural {m : Type → Type} [Monad m] [LawfulMonad m] {t : Tensor α}
    (ht : t.WellFormed) :
    (∀ middle target mapping mapping' u w, t.polymer middle mapping = .ok u →
      u.polymer target mapping' = .ok w →
      t.polymer target (mapping.map fun place => mapping'.getD place.toNat 0) = .ok w) ∧
    (∃ u, t.polymer t.shape ((List.range t.shape.rank).map Int.ofNat) = .ok u ∧
      u.shape = t.shape ∧ u.elems.kind = t.elems.kind ∧ u.elems.toList = t.elems.toList ∧
      (t.elems.WellFormed → ∀ w, u.same w = t.same w)) ∧
    ∀ gates : TensorGates m Bool, gates = truthAlgebra.tensorGates ∨ gates = packedGates →
      ∀ a b : Tensor Bool, a.WellFormed → b.WellFormed → a.shape = b.shape →
      ∀ target mapping a', a.polymer target mapping = .ok a' →
        (∃ u w, gates.not a = pure u ∧ u.polymer target mapping = .ok w ∧
          gates.not a' = pure w) ∧
        ∃ b', b.polymer target mapping = .ok b' ∧ ∀ gate, ∃ u w, gates.gate gate a b = pure u ∧
          u.polymer target mapping = .ok w ∧ gates.gate gate a' b' = pure w := by
  refine ⟨?twice, ?identity, ?gates⟩
  case twice =>
    intro middle target mapping mapping' u w hu hw
    obtain ⟨-, rfl, places, rfl, hfits⟩ := of_polymer hu
    obtain ⟨-, -, others, rfl, hfits'⟩ := of_polymer hw
    rw [polymer_polymer hfits hfits' hu] at hw
    rw [← hw, List.map_map, List.map_map]
    refine congrArg _ (List.map_congr_left fun place _ => ?_)
    exact List.getD_map _ _ Int.ofNat
  case identity =>
    refine ⟨_, polymer_range ht, rfl, Storage.kind_gather _ _, Storage.toList_gather_range _, ?_⟩
    intro helems w
    rw [same, same, Storage.same_gather_range helems]
  case gates =>
    intro gates hgates a b ha hb hshape target mapping a' ha'
    have hnot : ∀ t, gates.not t = liftM t.packedNot := by
      rcases hgates with rfl | rfl
      · exact fun t => (liftM_packedNot t).symm
      · exact fun _ => rfl
    have hgate : ∀ gate t u, gates.gate gate t u = liftM (t.packedGate gate u) := by
      rcases hgates with rfl | rfl
      · exact fun gate t u => (liftM_packedGate gate t u).symm
      · exact fun _ _ _ => rfl
    obtain ⟨-, -, places, hplaces, hfits⟩ := of_polymer ha'
    obtain ⟨b', hb'⟩ : ∃ b', b.polymer target mapping = .ok b' :=
      ⟨_, hplaces ▸ polymer_of_fits (hshape ▸ hfits)⟩
    refine ⟨?_, b', hb', fun gate => ?_⟩
    · obtain ⟨u, w, hu, hw, hw'⟩ := exists_packedNot_polymer ha ha'
      exact ⟨u, w, by rw [hnot, hu]; rfl, hw, by rw [hnot, hw']; rfl⟩
    · obtain ⟨u, w, hu, hw, hw'⟩ := exists_packedGate_polymer ha hb hshape ha' hb' gate
      exact ⟨u, w, by rw [hgate, hu]; rfl, hw, by rw [hgate, hw']; rfl⟩

/-- A matrix turned over twice is itself, and turned over it has the negated cells of the negated
one. -/
theorem polymer_functorial_natural_transposed :
    let t : Tensor Bool := ⟨⟨[2, 3]⟩, .ofList .packed [true, false, true, true, false, false]⟩
    let u : Tensor Bool := ⟨⟨[3, 2]⟩, .ofList .packed [true, true, false, false, true, false]⟩
    t.WellFormed ∧ t.polymer ⟨[3, 2]⟩ [1, 0] = .ok u ∧ t.polymer ⟨[2, 3]⟩ [0, 1] = .ok t ∧
      ∃ v w, (packedGates : TensorGates Id Bool).not t = pure v ∧
        v.polymer ⟨[3, 2]⟩ [1, 0] = .ok w ∧ (packedGates : TensorGates Id Bool).not u = pure w := by
  intro t u
  have ht : t.WellFormed := by decide
  have hu : t.polymer ⟨[3, 2]⟩ [1, 0] = .ok u := rfl
  have hback : u.polymer ⟨[2, 3]⟩ [1, 0] = .ok t := rfl
  obtain ⟨htwice, -, hgates⟩ := polymer_functorial_natural (m := Id) ht
  exact ⟨ht, hu, htwice _ _ _ _ _ _ hu hback,
    (hgates _ (.inr rfl) t t ht ht rfl _ _ _ hu).1⟩

end Tensor

end BoolTensor
