import BoolTensor.Proofs.Shape.Numbering

/-!
# Checked coordinates number the cells

The coordinates of a shape and the numbers below its size correspond one to one. The number is the
sum of the coordinates times the strides, and it grows with the coordinates, the last one counting
most. All other lists of integers are refused, for their length or for one of their entries.

## Main definitions

* `Shape.Locates`: a list of integers is coordinates of a cell
-/

namespace BoolTensor

namespace Shape

/-- Coordinates for each dimension, none below zero and each below its dimension. -/
def Locates (s : Shape) (coords : List Int) : Prop :=
  coords.length = s.rank ∧
    ∀ k < s.rank, 0 ≤ coords.getD k 0 ∧ coords.getD k 0 < s.dims.getD k 0

variable {s : Shape} {dims : List Nat}

/-! ### Order -/

/-- Of lists of one length, what stands first decides before what is added at the end. -/
theorem append_singleton_lt_iff {places others : List Nat} (hlength : places.length = others.length)
    (last other : Nat) :
    places ++ [last] < others ++ [other] ↔ places < others ∨ places = others ∧ last < other := by
  induction places generalizing others with
  | nil =>
    obtain rfl := List.length_eq_zero_iff.1 hlength.symm
    simp [List.cons_lt_cons_iff]
  | cons place places ih =>
    cases others with
    | nil => simp at hlength
    | cons first others =>
      simp only [List.cons_append, List.cons_lt_cons_iff, ih (Nat.succ_inj.1 hlength),
        List.cons.injEq]
      tauto

theorem map_ofNat_lt_iff {places others : List Nat} :
    places.map Int.ofNat < others.map Int.ofNat ↔ places < others := by
  induction places generalizing others with
  | nil => cases others <;> simp
  | cons place places ih =>
    cases others with
    | nil => simp
    | cons first others => simp [List.cons_lt_cons_iff, ih]

/-- The number of a cell determines its coordinates. -/
theorem Within.offsetIn_inj {coords others : List Nat} (h : Within dims coords)
    (h' : Within dims others) : offsetIn dims coords = offsetIn dims others ↔ coords = others := by
  refine ⟨fun heq => ?_, fun heq => by rw [heq]⟩
  rw [← h.digits_offsetIn, heq, h'.digits_offsetIn]

/-- Numbers of cells are in the order of the coordinates, the last one counting most. -/
theorem Within.offsetIn_lt_iff {coords others : List Nat} (h : Within dims coords)
    (h' : Within dims others) :
    offsetIn dims coords < offsetIn dims others ↔ coords.reverse < others.reverse := by
  induction dims generalizing coords others with
  | nil =>
    obtain rfl := List.length_eq_zero_iff.1 h.length_eq
    obtain rfl := List.length_eq_zero_iff.1 h'.length_eq
    simp [offsetIn]
  | cons dim dims ih =>
    cases coords with
    | nil => exact h.elim
    | cons coord coords =>
      cases others with
      | nil => exact h'.elim
      | cons other others =>
        obtain ⟨hcoord, hcoords⟩ := h
        obtain ⟨hother, hothers⟩ := h'
        have hlength : coords.reverse.length = others.reverse.length := by
          rw [List.length_reverse, List.length_reverse, hcoords.length_eq, hothers.length_eq]
        -- The first coordinate is too small to make up for a step of the others.
        have hstep : coord + dim * offsetIn dims coords < other + dim * offsetIn dims others ↔
            offsetIn dims coords < offsetIn dims others ∨
              offsetIn dims coords = offsetIn dims others ∧ coord < other := by
          rcases lt_trichotomy (offsetIn dims coords) (offsetIn dims others) with hlt | heq | hgt
          · have hmul := Nat.mul_le_mul_left dim (Nat.succ_le_of_lt hlt)
            rw [Nat.mul_succ] at hmul
            simp only [hlt, true_or, iff_true]
            omega
          · simp [heq]
          · have hmul := Nat.mul_le_mul_left dim (Nat.succ_le_of_lt hgt)
            rw [Nat.mul_succ] at hmul
            simp only [hgt.not_gt, hgt.ne', false_and, or_false, iff_false]
            omega
        rw [offsetIn, offsetIn, hstep, ih hcoords hothers, hcoords.offsetIn_inj hothers,
          List.reverse_cons, List.reverse_cons, append_singleton_lt_iff hlength,
          List.reverse_inj]

/-! ### Coordinates of cells -/

theorem withinBounds_iff_getD {coords : List Int} (hlength : coords.length = dims.length) :
    withinBounds dims coords = true ↔
      ∀ k < dims.length, 0 ≤ coords.getD k 0 ∧ coords.getD k 0 < dims.getD k 0 := by
  induction dims generalizing coords with
  | nil =>
    obtain rfl := List.length_eq_zero_iff.1 hlength
    simp [withinBounds]
  | cons dim dims ih =>
    cases coords with
    | nil => simp at hlength
    | cons coord coords =>
      rw [withinBounds_cons, ih (Nat.succ_inj.1 hlength), List.length_cons,
        Nat.forall_lt_succ_left]
      rfl

theorem locates_iff {coords : List Int} :
    s.Locates coords ↔ coords.length = s.rank ∧ withinBounds s.dims coords = true :=
  and_congr_right fun hlength => (withinBounds_iff_getD hlength).symm

/-- The coordinates of cells are those that are within the bounds. -/
theorem locates_iff_exists {coords : List Int} :
    s.Locates coords ↔ ∃ places, s.Contains places ∧ coords = places.map Int.ofNat := by
  rw [locates_iff]
  constructor
  · rintro ⟨hlength, hbounds⟩
    obtain ⟨hnonneg, hwithin⟩ := (withinBounds_iff hlength).1 hbounds
    exact ⟨coords.map Int.toNat, hwithin, (map_ofNat_map_toNat hnonneg).symm⟩
  · rintro ⟨places, hplaces, rfl⟩
    exact ⟨(List.length_map _).trans hplaces.length_eq, hplaces.withinBounds_eq⟩

theorem index_eq_ok_iff {coords : List Int} {n : Nat} : s.index coords = .ok n ↔
    ∃ places, s.Contains places ∧ coords = places.map Int.ofNat ∧ n = s.offset places := by
  constructor
  · intro h
    have hlocates : s.Locates coords := by
      rw [index] at h
      split_ifs at h with hlength hbounds
      exact locates_iff.2 ⟨not_ne_iff.1 hlength, hbounds⟩
    obtain ⟨places, hplaces, rfl⟩ := locates_iff_exists.1 hlocates
    rw [index_of_contains hplaces] at h
    exact ⟨places, hplaces, rfl, (Except.ok.inj h).symm⟩
  · rintro ⟨places, hplaces, rfl, rfl⟩
    exact index_of_contains hplaces

theorem index_eq_coordinateCount_iff {coords : List Int} :
    s.index coords = .error (.coordinateCount s.rank coords.length) ↔ coords.length ≠ s.rank := by
  rw [index]
  split_ifs with hlength <;> simp [hlength]

theorem index_eq_coordinatesOutOfRange_iff {coords : List Int} :
    s.index coords = .error (.coordinatesOutOfRange coords s.dims) ↔ coords.length = s.rank ∧
      ∃ k < s.rank, coords.getD k 0 < 0 ∨ (s.dims.getD k 0 : Int) ≤ coords.getD k 0 := by
  rw [index]
  split_ifs with hlength hbounds
  · simp [hlength]
  · have hall := (withinBounds_iff_getD (not_ne_iff.1 hlength)).1 hbounds
    simp only [false_iff, not_and, not_exists, not_or, not_lt, not_le]
    exact fun _ k hk => hall k hk
  · have hsome := mt (withinBounds_iff_getD (not_ne_iff.1 hlength)).2 hbounds
    simp only [not_forall, not_and_or, not_le, not_lt] at hsome
    obtain ⟨k, hk, hout⟩ := hsome
    exact iff_of_true rfl ⟨not_ne_iff.1 hlength, k, hk, hout⟩

/-- The number of a cell as a sum over the dimensions. -/
theorem mul_offsetIn_eq_sum (step : Nat) (dims coords : List Nat) :
    step * offsetIn dims coords =
      ∑ k ∈ Finset.range dims.length, coords.getD k 0 * (stridesFrom step dims).getD k 0 := by
  induction dims generalizing step coords with
  | nil => simp [offsetIn]
  | cons dim dims ih =>
    cases coords with
    | nil => simp [offsetIn]
    | cons coord coords =>
      simp only [offsetIn, stridesFrom, List.length_cons, Finset.sum_range_succ',
        List.getD_cons_succ, List.getD_cons_zero, ← ih]
      ring

/-! ### The numbering -/

theorem bijOn_index (s : Shape) :
    Set.BijOn s.index {coords | s.Locates coords} (Except.ok '' Set.Iio s.size) := by
  refine ⟨?mapsTo, ?injOn, ?surjOn⟩
  case mapsTo =>
    intro coords hcoords
    obtain ⟨places, hplaces, rfl⟩ := locates_iff_exists.1 hcoords
    exact ⟨s.offset places, offset_lt hplaces, (index_of_contains hplaces).symm⟩
  case injOn =>
    intro coords hcoords others hothers heq
    obtain ⟨places, hplaces, rfl⟩ := locates_iff_exists.1 hcoords
    obtain ⟨places', hplaces', rfl⟩ := locates_iff_exists.1 hothers
    rw [index_of_contains hplaces, index_of_contains hplaces'] at heq
    rw [(Within.offsetIn_inj hplaces hplaces').1 (Except.ok.inj heq)]
  case surjOn =>
    rintro _ ⟨n, hn, rfl⟩
    have hplaces := contains_coordinates hn
    refine ⟨(s.coordinates n).map Int.ofNat, locates_iff_exists.2 ⟨_, hplaces, rfl⟩, ?_⟩
    rw [index_of_contains hplaces, offset_coordinates hn]

/-- The number of a cell corresponds one to one to its coordinates, is the sum of these times the
strides, and grows with them, the last one counting most. Lists of other lengths are refused for
their length, and the others for a coordinate that is not in its range. -/
theorem index_numbers_cells (s : Shape) :
    Set.BijOn s.index {coords | s.Locates coords} (Except.ok '' Set.Iio s.size) ∧
    (∀ coords n, s.index coords = .ok n →
      (n : Int) = ∑ k ∈ Finset.range s.rank, coords.getD k 0 * (s.strides.getD k 0 : Int)) ∧
    (∀ coords others m n, s.index coords = .ok m → s.index others = .ok n →
      (m < n ↔ coords.reverse < others.reverse)) ∧
    (∀ coords, s.index coords = .error (.coordinateCount s.rank coords.length) ↔
      coords.length ≠ s.rank) ∧
    ∀ coords, s.index coords = .error (.coordinatesOutOfRange coords s.dims) ↔
      coords.length = s.rank ∧
        ∃ k < s.rank, coords.getD k 0 < 0 ∨ (s.dims.getD k 0 : Int) ≤ coords.getD k 0 := by
  refine ⟨bijOn_index s, ?sum, ?order, fun _ => index_eq_coordinateCount_iff,
    fun _ => index_eq_coordinatesOutOfRange_iff⟩
  case sum =>
    intro coords n h
    obtain ⟨places, -, rfl, rfl⟩ := index_eq_ok_iff.1 h
    have hsum := mul_offsetIn_eq_sum 1 s.dims places
    rw [Nat.one_mul] at hsum
    rw [offset, hsum, Nat.cast_sum]
    refine Finset.sum_congr rfl fun k _ => ?_
    have hcoord : (places.map Int.ofNat).getD k 0 = (places.getD k 0 : Int) :=
      List.getD_map _ _ Int.ofNat
    rw [hcoord, Nat.cast_mul]
    rfl
  case order =>
    intro coords others m n h h'
    obtain ⟨places, hplaces, rfl, rfl⟩ := index_eq_ok_iff.1 h
    obtain ⟨places', hplaces', rfl, rfl⟩ := index_eq_ok_iff.1 h'
    rw [← List.map_reverse, ← List.map_reverse, map_ofNat_lt_iff]
    exact Within.offsetIn_lt_iff hplaces hplaces'

/-- In two rows and three columns some coordinates have the number 4, the last cell comes after one
of the middle column, and lists are refused that are too short or leave the last row. -/
theorem index_numbers_cells_two_three :
    (∃ coords, Locates ⟨[2, 3]⟩ coords ∧ index ⟨[2, 3]⟩ coords = .ok 4) ∧
    ([0, 1] : List Int).reverse < [1, 2].reverse ∧
    index ⟨[2, 3]⟩ [1] = .error (.coordinateCount 2 1) ∧
    index ⟨[2, 3]⟩ [2, 0] = .error (.coordinatesOutOfRange [2, 0] [2, 3]) := by
  obtain ⟨hbij, -, horder, hcount, hrange⟩ := index_numbers_cells ⟨[2, 3]⟩
  have hnumber : (4 : Nat) ∈ Set.Iio (size ⟨[2, 3]⟩) := by decide
  refine ⟨?_, (horder [0, 1] [1, 2] 2 5 rfl rfl).1 (by decide), (hcount [1]).2 (by decide),
    (hrange [2, 0]).2 ⟨rfl, 0, by decide⟩⟩
  exact hbij.surjOn (Set.mem_image_of_mem _ hnumber)

end Shape

end BoolTensor
