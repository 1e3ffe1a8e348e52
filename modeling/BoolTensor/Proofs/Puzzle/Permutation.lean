import BoolTensor.Puzzle.Derangement
import Mathlib

/-!
# Derangements and their relations

A square relation that is a function both ways and leaves no place where it is has the images of a
derangement in its columns, and every derangement comes from such a relation.

## Main definitions

* `IsGraph`: the relation is the graph of a function
* `Derangement.IsRelation`: the relation is that of a derangement
* `Derangement.imagesOf`: for each column the first row that is related
-/

namespace BoolTensor

/-- For each `x` there is exactly one `y` with `rel y x`. -/
def IsGraph (n : Nat) (rel : Nat → Nat → Bool) : Prop :=
  ∀ x < n, ∃! y, y < n ∧ rel y x = true

/-- Some image exists, and any two agree. -/
theorem isGraph_iff {n : Nat} {rel : Nat → Nat → Bool} :
    IsGraph n rel ↔ (∀ x < n, ∃ y < n, rel y x = true) ∧
      ∀ y < n, ∀ z < n, ∀ x < n, rel y x = true → rel z x = true → y = z := by
  constructor
  · intro h
    constructor
    · intro x hx
      obtain ⟨y, ⟨hy, hyx⟩, -⟩ := h x hx
      exact ⟨y, hy, hyx⟩
    · intro y hy z hz x hx hyx hzx
      exact (h x hx).unique ⟨hy, hyx⟩ ⟨hz, hzx⟩
  · rintro ⟨himage, hsame⟩ x hx
    obtain ⟨y, hy, hyx⟩ := himage x hx
    exact ⟨y, ⟨hy, hyx⟩, fun z ⟨hz, hzx⟩ => hsame z hz y hy x hx hzx hyx⟩

theorem IsGraph.congr {n : Nat} {rel rel' : Nat → Nat → Bool} (h : IsGraph n rel)
    (heq : ∀ y < n, ∀ x < n, rel y x = rel' y x) : IsGraph n rel' := by
  intro x hx
  obtain ⟨y, ⟨hy, hyx⟩, hunique⟩ := h x hx
  refine ⟨y, ⟨hy, (heq y hy x hx).symm.trans hyx⟩, ?_⟩
  rintro z ⟨hz, hzx⟩
  exact hunique z ⟨hz, (heq z hz x hx).trans hzx⟩

namespace Derangement

/-- The relation is a function both ways and leaves no place where it is. -/
structure IsRelation (n : Nat) (rel : Nat → Nat → Bool) : Prop where
  graph : IsGraph n rel
  converse : IsGraph n fun y x => rel x y
  irreflexive : ∀ x < n, rel x x = false

theorem IsRelation.congr {n : Nat} {rel rel' : Nat → Nat → Bool} (h : IsRelation n rel)
    (heq : ∀ y < n, ∀ x < n, rel y x = rel' y x) : IsRelation n rel' where
  graph := h.graph.congr heq
  converse := h.converse.congr fun y hy x hx => heq x hx y hy
  irreflexive x hx := (heq x hx x hx).symm.trans (h.irreflexive x hx)

/-- For each column the first row that is related. -/
def imagesOf (n : Nat) (rel : Nat → Nat → Bool) : List Nat :=
  (List.range n).map fun x => (List.range n).findIdx fun y => rel y x

variable {n : Nat} {rel : Nat → Nat → Bool}

@[simp]
theorem length_imagesOf (n : Nat) (rel : Nat → Nat → Bool) : (imagesOf n rel).length = n := by
  rw [imagesOf, List.length_map, List.length_range]

/-- The first row that is related is the only one. -/
theorem getElem_imagesOf (h : IsGraph n rel) {x y : Nat} (hx : x < n) (hy : y < n)
    (hyx : rel y x = true) (hlt : x < (imagesOf n rel).length) : (imagesOf n rel)[x] = y := by
  have hfind : (List.range n).findIdx (fun y => rel y x) = y := by
    have hlength : y < (List.range n).length := by rwa [List.length_range]
    rw [List.findIdx_eq hlength]
    refine ⟨by rwa [List.getElem_range], fun z hz => ?_⟩
    rw [List.getElem_range, ← Bool.not_eq_true]
    intro hzx
    exact hz.ne ((h x hx).unique ⟨hz.trans hy, hzx⟩ ⟨hy, hyx⟩)
  rw [← hfind]
  simp [imagesOf]

/-- The images under such a relation are a derangement. -/
theorem IsRelation.isDerangement (h : IsRelation n rel) : IsDerangement (imagesOf n rel) := by
  constructor
  · -- Every place is an image, and there are no more images than places.
    rw [length_imagesOf]
    have hsubset : List.range n ⊆ imagesOf n rel := by
      intro y hy
      rw [List.mem_range] at hy
      obtain ⟨x, ⟨hx, hyx⟩, -⟩ := h.converse y hy
      have hlt : x < (imagesOf n rel).length := by rwa [length_imagesOf]
      rw [← getElem_imagesOf h.graph hx hy hyx hlt]
      exact List.getElem_mem hlt
    have hsubperm := List.subperm_of_subset List.nodup_range hsubset
    exact (hsubperm.perm_of_length_le (by simp)).symm
  · intro x hlt
    have hx : x < n := by rwa [length_imagesOf] at hlt
    obtain ⟨y, ⟨hy, hyx⟩, -⟩ := h.graph x hx
    rw [getElem_imagesOf h.graph hx hy hyx hlt]
    rintro rfl
    rw [h.irreflexive y hy] at hyx
    exact Bool.false_ne_true hyx

/-- Every derangement comes from such a relation. -/
theorem isRelation_of_isDerangement {images : List Nat} (h : IsDerangement images) :
    IsRelation images.length fun y x => images[x]? == some y := by
  obtain ⟨hperm, hmoved⟩ := h
  have hmem (y : Nat) : y ∈ images ↔ y < images.length := by rw [hperm.mem_iff, List.mem_range]
  have hnodup : images.Nodup := hperm.nodup_iff.2 List.nodup_range
  have hrel {x y : Nat} (hx : x < images.length) :
      (images[x]? == some y) = true ↔ images[x] = y := by
    rw [List.getElem?_eq_getElem hx, beq_iff_eq, Option.some_inj]
  refine ⟨fun x hx => ?_, fun y hy => ?_, fun x hx => ?_⟩
  · refine ⟨images[x], ⟨(hmem _).1 (List.getElem_mem hx), (hrel hx).2 rfl⟩, ?_⟩
    rintro y ⟨-, hyx⟩
    exact ((hrel hx).1 hyx).symm
  · obtain ⟨x, hx, hyx⟩ := List.getElem_of_mem ((hmem y).2 hy)
    refine ⟨x, ⟨hx, (hrel hx).2 hyx⟩, ?_⟩
    rintro z ⟨hz, hyz⟩
    exact (hnodup.getElem_inj_iff).1 (((hrel hz).1 hyz).trans hyx.symm)
  · rw [← Bool.not_eq_true, hrel hx]
    exact hmoved x hx

/-- There is a derangement of every number of places but one. -/
theorem exists_isDerangement_iff (n : Nat) :
    (∃ images, images.length = n ∧ IsDerangement images) ↔ n ≠ 1 := by
  constructor
  · rintro ⟨images, hlength, hperm, hmoved⟩ rfl
    have hpos : 0 < images.length := by omega
    have himage : images[0] < images.length := by
      have hmem := hperm.mem_iff.1 (List.getElem_mem hpos)
      exact List.mem_range.1 hmem
    exact hmoved 0 hpos (by omega)
  · intro hn
    -- Every place moves up by one, and the last one to the front.
    have hlength : ((List.range n).rotate 1).length = n := by
      rw [List.length_rotate, List.length_range]
    refine ⟨(List.range n).rotate 1, hlength, ?_, fun x hx => ?_⟩
    · rw [hlength]
      exact List.rotate_perm _ _
    · rw [hlength] at hx
      rw [List.getElem_rotate, List.getElem_range, List.length_range]
      rcases Nat.lt_or_ge (x + 1) n with hlt | hge
      · rw [Nat.mod_eq_of_lt hlt]
        exact Nat.succ_ne_self x
      · obtain rfl : n = x + 1 := by omega
        rw [Nat.mod_self]
        omega

end Derangement

end BoolTensor
