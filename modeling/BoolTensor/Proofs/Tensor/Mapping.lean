import BoolTensor.Proofs.Shape.Joining
import BoolTensor.Proofs.Tensor.Polymer
import BoolTensor.Proofs.Tensor.RowMajor

/-!
# Mappings of the first dimensions

The mapping that sends the first dimensions of a tensor to listed ones, and the others to fresh ones
after these, fits the shape with the same fresh dimensions. A cell of the reindexed tensor is read at
coordinates in two parts: those listed for the first dimensions, and the others as they are.

## Main definitions

* `Shape.extend`: dimensions, with those of a shape after its first ones as fresh dimensions
* `Shape.Listed`: the first dimensions of a shape have listed dimensions of their own size
-/

namespace BoolTensor

namespace Shape

/-- The dimensions of `base`, and after them those of `s` without the first `count`. -/
def extend (base s : Shape) (count : Nat) : Shape :=
  ⟨base.dims ++ s.dims.drop count⟩

/-- The first dimensions of `s` are listed with dimensions of `base` of their own size. -/
def Listed (s base : Shape) (part : List Int) : Prop :=
  part.length ≤ s.rank ∧ ∀ i < part.length, 0 ≤ part.getD i 0 ∧ part.getD i 0 < base.rank ∧
    base.dims.getD (part.getD i 0).toNat 0 = s.dims.getD i 0

instance (s base : Shape) (part : List Int) : Decidable (s.Listed base part) :=
  inferInstanceAs (Decidable (_ ∧ _))

variable {s base : Shape} {places : List Nat} {part : List Int}

theorem mapping_natCast {rest : Nat} (hlength : places.length ≤ s.rank)
    (hplaces : ∀ place ∈ places, place < rest) :
    s.mapping (places.map Int.ofNat) rest =
      .ok ((places ++ List.range' rest (s.rank - places.length)).map Int.ofNat) := by
  have hfound : (places.map Int.ofNat).find? (fun entry => decide ((rest : Int) ≤ entry)) = none := by
    rw [List.find?_eq_none, List.forall_mem_map]
    intro place hplace
    simpa using hplaces place hplace
  have hfresh : (List.range (s.rank - places.length)).map (fun i : Nat => (rest : Int) + i) =
      (List.range' rest (s.rank - places.length)).map Int.ofNat := by
    rw [List.range'_eq_map_range, List.map_map]
    rfl
  rw [mapping, List.length_map, if_neg (not_lt.2 hlength), hfound, hfresh, List.map_append]
  rfl

/-- Listed entries are places of `base`. -/
theorem Listed.exists_places (h : s.Listed base part) :
    ∃ places : List Nat, part = places.map Int.ofNat ∧ places.length ≤ s.rank ∧
      (∀ place ∈ places, place < base.rank) ∧
      List.Forall₂ (fun dim place => base.dims[place]? = some dim)
        (s.dims.take places.length) places := by
  obtain ⟨hlength, hentries⟩ := h
  have hentry (i : Nat) (hi : i < part.length) : 0 ≤ part[i] ∧ part[i] < base.rank ∧
      base.dims.getD part[i].toNat 0 = s.dims.getD i 0 := by
    have hlisted := hentries i hi
    rwa [List.getD_eq_getElem _ _ hi] at hlisted
  have hnonneg : ∀ entry ∈ part, 0 ≤ entry := by
    intro entry hmem
    obtain ⟨i, hi, rfl⟩ := List.mem_iff_getElem.1 hmem
    exact (hentry i hi).1
  refine ⟨part.map Int.toNat, (map_ofNat_map_toNat hnonneg).symm, ?_, ?_, ?_⟩
  · rwa [List.length_map]
  · rw [List.forall_mem_map]
    intro entry hmem
    obtain ⟨i, hi, rfl⟩ := List.mem_iff_getElem.1 hmem
    have hbounds := hentry i hi
    omega
  · rw [List.length_map, List.forall₂_map_right_iff, List.forall₂_iff_get]
    refine ⟨?_, fun i hdim hi => ?_⟩
    · rw [List.length_take]
      exact min_eq_left hlength
    · obtain ⟨hpos, hlt, hsize⟩ := hentry i hi
      have hplace : part[i].toNat < base.dims.length := by
        rw [rank] at hlt
        omega
      rw [List.getD_eq_getElem _ _ hplace, List.getD_eq_getElem _ _ (hi.trans_le hlength)] at hsize
      simp only [List.get_eq_getElem, List.getElem_take]
      rw [List.getElem?_eq_getElem hplace, hsize]

/-- Coordinates of the two parts are coordinates of the whole, and there are no others. -/
theorem locates_extend_iff {count : Nat} {coords : List Int} :
    (extend base s count).Locates coords ↔ ∃ first others, coords = first ++ others ∧
      base.Locates first ∧ Locates ⟨s.dims.drop count⟩ others := by
  simp only [locates_iff_exists]
  constructor
  · rintro ⟨places, hplaces, rfl⟩
    obtain ⟨hfirst, hothers⟩ := Within.take_drop hplaces base.dims.length
    rw [extend, List.take_left' rfl] at hfirst
    rw [extend, List.drop_left' rfl] at hothers
    refine ⟨_, _, ?_, ⟨_, hfirst, rfl⟩, ⟨_, hothers, rfl⟩⟩
    rw [← List.map_append, List.take_append_drop]
  · rintro ⟨_, _, rfl, ⟨places, hplaces, rfl⟩, ⟨others, hothers, rfl⟩⟩
    exact ⟨places ++ others, Within.append hplaces hothers, List.map_append.symm⟩

end Shape

namespace Tensor

variable {s base : Shape} {places coords others : List Nat}

/-- The mapping of the first dimensions leads to dimensions of the same size. -/
theorem fits_extend
    (hplaces : List.Forall₂ (fun dim place => base.dims[place]? = some dim)
      (s.dims.take places.length) places) :
    Fits s (Shape.extend base s places.length)
      (places ++ List.range' base.rank (s.rank - places.length)) := by
  have hfirst : List.Forall₂ (fun dim place => (base.dims ++ s.dims.drop places.length)[place]? =
      some dim) (s.dims.take places.length) places := by
    refine hplaces.imp fun dim place hplace => ?_
    rwa [List.getElem?_append_left (List.getElem?_eq_some_iff.1 hplace).1]
  have hothers : List.Forall₂ (fun dim place => (base.dims ++ s.dims.drop places.length)[place]? =
      some dim) (s.dims.drop places.length)
        (List.range' base.rank (s.rank - places.length)) := by
    rw [List.forall₂_iff_get]
    refine ⟨?_, fun i hdim _ => ?_⟩
    · rw [List.length_drop, List.length_range']
      rfl
    · simp only [List.get_eq_getElem, List.getElem_range', Nat.one_mul, Shape.rank]
      rw [List.getElem?_append_right (Nat.le_add_right _ _), Nat.add_sub_cancel_left]
      exact List.getElem?_eq_getElem hdim
  have happend := List.rel_append hfirst hothers
  beta_reduce at happend
  rwa [List.take_append_drop] at happend

/-- Fresh dimensions are read as they are. -/
theorem sourceCoords_append (hplaces : ∀ place ∈ places, place < base.rank)
    (hcoords : base.Contains coords)
    (hothers : Shape.Contains ⟨s.dims.drop places.length⟩ others) :
    sourceCoords (places ++ List.range' base.rank (s.rank - places.length)) (coords ++ others) =
      sourceCoords places coords ++ others := by
  have hrank : coords.length = base.rank := hcoords.length_eq
  have hcount : others.length = s.rank - places.length :=
    hothers.length_eq.trans List.length_drop
  have hlisted : sourceCoords places (coords ++ others) = sourceCoords places coords :=
    List.map_congr_left fun place hplace =>
      List.getD_append _ _ _ _ (hrank ▸ hplaces place hplace)
  have hfresh : sourceCoords (List.range' base.rank (s.rank - places.length)) (coords ++ others) =
      others := by
    rw [← hrank, ← hcount]
    apply List.ext_getElem
    · rw [sourceCoords, List.length_map, List.length_range']
    · intro i _ hi
      simp only [sourceCoords, List.getElem_map, List.getElem_range', Nat.one_mul]
      rw [List.getD_append_right _ _ _ _ (Nat.le_add_right _ _), Nat.add_sub_cancel_left,
        List.getD_eq_getElem _ _ hi]
  rw [sourceCoords, List.map_append]
  exact congrArg₂ (· ++ ·) hlisted hfresh

variable {α : Type} [Element α]

/-- Where the first dimensions of a tensor are listed with dimensions of their own size, there is a
mapping of all its dimensions, and the tensor is reindexed by it. The coordinates of the result are
those of the listed dimensions followed by those of the others, and its cell there is the cell of
the tensor at the listed coordinates, followed by the others. -/
theorem polymer_mapping_reads {t : Tensor α} (ht : t.WellFormed) (base : Shape) (part : List Int)
    (hpart : t.shape.Listed base part) :
    ∃ mapping u, t.shape.mapping part base.rank = .ok mapping ∧ mapping.length = t.shape.rank ∧
      t.polymer (base.extend t.shape part.length) mapping = .ok u ∧
      u.shape = base.extend t.shape part.length ∧ u.elems.kind = t.elems.kind ∧ u.WellFormed ∧
      (∀ coords, u.shape.Locates coords ↔ ∃ first others, coords = first ++ others ∧
        base.Locates first ∧ Shape.Locates ⟨t.shape.dims.drop part.length⟩ others) ∧
      ∀ first others, base.Locates first →
        Shape.Locates ⟨t.shape.dims.drop part.length⟩ others →
        ∃ a, u.get (first ++ others) = .ok a ∧
          t.get ((part.map fun place => first.getD place.toNat 0) ++ others) = .ok a := by
  obtain ⟨places, rfl, hlength, hplaces, hsizes⟩ := hpart.exists_places
  rw [List.length_map]
  have hfits := fits_extend hsizes
  have hpolymer := polymer_of_fits hfits
  refine ⟨_, _, Shape.mapping_natCast hlength hplaces, ?_, hpolymer, rfl,
    Storage.kind_gather _ _, (of_polymer hpolymer).1, fun coords => Shape.locates_extend_iff, ?_⟩
  · rw [List.length_map, hfits.length_eq]
  · intro first others hfirst hothers
    obtain ⟨coords, hcoords, rfl⟩ := Shape.locates_iff_exists.1 hfirst
    obtain ⟨rest, hrest, rfl⟩ := Shape.locates_iff_exists.1 hothers
    have htarget : (base.extend t.shape places.length).Contains (coords ++ rest) :=
      Shape.Within.append hcoords hrest
    have hsource := hfits.contains htarget
    have hread := get_of_polymer ht hfits hpolymer htarget
    rw [sourceCoords_append hplaces hcoords hrest] at hsource hread
    have hlisted : (places.map Int.ofNat).map
        (fun place => (coords.map Int.ofNat).getD place.toNat 0) =
          (sourceCoords places coords).map Int.ofNat := by
      rw [sourceCoords, List.map_map, List.map_map]
      exact List.map_congr_left fun place _ => List.getD_map _ _ Int.ofNat
    rw [hlisted, ← List.map_append, ← List.map_append, hread]
    exact ⟨_, get_eq_cellAt ht hsource, get_eq_cellAt ht hsource⟩

/-- A diagonal that is repeated along a new first dimension. -/
theorem polymer_mapping_reads_diagonal :
    let t : Tensor Bool := ⟨⟨[2, 2, 3]⟩, .ofList .packed
      [false, true, true, false, false, true, false, false, true, false, false, true]⟩
    t.WellFormed ∧ t.shape.Listed ⟨[4, 2]⟩ [1, 1] ∧
      ∃ mapping u, t.shape.mapping [1, 1] 2 = .ok mapping ∧
        t.polymer ⟨[4, 2, 3]⟩ mapping = .ok u ∧ u.get [3, 1, 2] = .ok true := by
  intro t
  have ht : t.WellFormed := by decide
  have hpart : t.shape.Listed ⟨[4, 2]⟩ [1, 1] := by decide
  obtain ⟨mapping, u, hmapping, -, hu, -, -, -, -, hcells⟩ :=
    polymer_mapping_reads ht ⟨[4, 2]⟩ [1, 1] hpart
  obtain ⟨a, hua, hta⟩ := hcells [3, 1] [2]
    (Shape.locates_iff_exists.2 ⟨[3, 1], ⟨by decide, by decide, trivial⟩, rfl⟩)
    (Shape.locates_iff_exists.2 ⟨[2], ⟨by decide, trivial⟩, rfl⟩)
  have hcell : t.get [1, 1, 2] = .ok true := by decide +kernel
  obtain rfl : a = true := Except.ok.inj (hta.symm.trans hcell)
  exact ⟨ht, hpart, mapping, u, hmapping, hu, hua⟩

end Tensor

end BoolTensor
