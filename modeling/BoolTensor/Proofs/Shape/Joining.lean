import BoolTensor.Proofs.Shape.Indexing

/-!
# Joined dimensions

The first dimensions of a shape as one, which runs over the numbers of the block they span. Cells
keep their numbers, so the coordinates of the two shapes correspond one to one.

## Main definitions

* `Shape.joined`: the shape with its first dimensions as one
* `Shape.joinedCoords`: the coordinates of a cell in the joined shape
-/

namespace BoolTensor

namespace Shape

/-- The shape with its first dimensions as one. -/
def joined (s : Shape) (count : Nat) : Shape :=
  ⟨size ⟨s.dims.take count⟩ :: s.dims.drop count⟩

/-- The coordinates of a cell in the joined shape: its number in the block that the first dimensions
span, which is checked, and the coordinates that are left. -/
def joinedCoords (s : Shape) (count : Nat) (coords : List Int) : Except Error (List Int) := do
  let place ← index ⟨s.dims.take count⟩ (coords.take count)
  return (place : Int) :: coords.drop count

variable {s : Shape} {dims coords : List Nat}

theorem size_joined_eq (s : Shape) (count : Nat) : (s.joined count).size = s.size :=
  size_joined s.dims count

theorem join_natCast {count : Nat} (h : count ≤ s.rank) : s.join count = .ok (s.joined count) :=
  if_pos ⟨Int.natCast_nonneg count, Int.ofNat_le.2 h⟩

/-- Only dimensions that exist can be joined. -/
theorem join_eq_error_iff {count : Int} {e : Error} :
    s.join count = .error e ↔ (count < 0 ∨ s.rank < count) ∧ e = .joinCount count s.dims := by
  have hout : ¬(0 ≤ count ∧ count ≤ s.rank) ↔ count < 0 ∨ s.rank < count := by omega
  rw [join, ← hout]
  split_ifs with hcount
  · simp [hcount]
  · simp [hcount, eq_comm]

/-! ### Coordinates in two parts -/

theorem Within.take_drop (h : Within dims coords) (count : Nat) :
    Within (dims.take count) (coords.take count) ∧
      Within (dims.drop count) (coords.drop count) := by
  induction count generalizing dims coords with
  | zero => exact ⟨trivial, h⟩
  | succ count ih =>
    cases dims with
    | nil =>
      obtain rfl := List.length_eq_zero_iff.1 h.length_eq
      exact ⟨trivial, trivial⟩
    | cons dim dims =>
      cases coords with
      | nil => exact h.elim
      | cons coord coords =>
        obtain ⟨htake, hdrop⟩ := ih h.2
        exact ⟨⟨h.1, htake⟩, hdrop⟩

/-- A step along what is left passes the whole block that the first dimensions span. -/
theorem offsetIn_take_drop (dims coords : List Nat) (count : Nat) :
    offsetIn dims coords = offsetIn (dims.take count) (coords.take count) +
      size ⟨dims.take count⟩ * offsetIn (dims.drop count) (coords.drop count) := by
  induction count generalizing dims coords with
  | zero => simp [offsetIn, size]
  | succ count ih =>
    cases dims with
    | nil => simp [offsetIn]
    | cons dim dims =>
      cases coords with
      | nil => simp [offsetIn]
      | cons coord coords =>
        simp only [List.take_succ_cons, List.drop_succ_cons, offsetIn, size_cons]
        rw [ih dims coords, Nat.mul_add, Nat.mul_assoc, Nat.add_assoc]

/-! ### Coordinates in the joined shape -/

/-- The coordinates of a cell in the joined shape, without a check. -/
def joinedPlaces (s : Shape) (count : Nat) (coords : List Nat) : List Nat :=
  offset ⟨s.dims.take count⟩ (coords.take count) :: coords.drop count

theorem joinedCoords_of_contains (h : s.Contains coords) (count : Nat) :
    s.joinedCoords count (coords.map Int.ofNat) =
      .ok ((s.joinedPlaces count coords).map Int.ofNat) := by
  have htake : Contains ⟨s.dims.take count⟩ (coords.take count) := (Within.take_drop h count).1
  rw [joinedCoords, ← List.map_take, ← List.map_drop, index_of_contains htake]
  rfl

theorem contains_joinedPlaces (h : s.Contains coords) (count : Nat) :
    (s.joined count).Contains (s.joinedPlaces count coords) := by
  obtain ⟨htake, hdrop⟩ := Within.take_drop h count
  exact ⟨htake.offsetIn_lt, hdrop⟩

/-- Cells keep their numbers. -/
theorem offset_joinedPlaces (s : Shape) (count : Nat) (coords : List Nat) :
    (s.joined count).offset (s.joinedPlaces count coords) = s.offset coords :=
  (offsetIn_take_drop s.dims coords count).symm

/-- All coordinates of the joined shape are those of one cell. -/
theorem exists_joinedPlaces {count : Nat} (h : (s.joined count).Contains coords) :
    ∃ places, s.Contains places ∧ s.joinedPlaces count places = coords := by
  -- The cell of `s` with the same number.
  have hlt : (s.joined count).offset coords < s.size := by
    rw [← size_joined_eq s count]
    exact offset_lt h
  have hplaces := contains_coordinates hlt
  refine ⟨_, hplaces, (Within.offsetIn_inj (contains_joinedPlaces hplaces count) h).1 ?_⟩
  exact (offset_joinedPlaces s count _).trans (offset_coordinates hlt)

theorem joinedPlaces_inj {others : List Nat} (h : s.Contains coords) (h' : s.Contains others)
    {count : Nat} (heq : s.joinedPlaces count coords = s.joinedPlaces count others) :
    coords = others := by
  rw [← coordinates_offset h, ← coordinates_offset h', ← offset_joinedPlaces s count coords, heq,
    offset_joinedPlaces]

/-- The coordinates of the two shapes correspond one to one. -/
theorem bijOn_joinedCoords (s : Shape) (count : Nat) :
    Set.BijOn (s.joinedCoords count) {coords | s.Locates coords}
      (Except.ok '' {coords | (s.joined count).Locates coords}) := by
  refine ⟨?mapsTo, ?injOn, ?surjOn⟩
  case mapsTo =>
    intro coords hcoords
    obtain ⟨places, hplaces, rfl⟩ := locates_iff_exists.1 hcoords
    rw [joinedCoords_of_contains hplaces]
    exact ⟨_, locates_iff_exists.2 ⟨_, contains_joinedPlaces hplaces count, rfl⟩, rfl⟩
  case injOn =>
    intro coords hcoords others hothers heq
    obtain ⟨places, hplaces, rfl⟩ := locates_iff_exists.1 hcoords
    obtain ⟨places', hplaces', rfl⟩ := locates_iff_exists.1 hothers
    rw [joinedCoords_of_contains hplaces, joinedCoords_of_contains hplaces'] at heq
    have hsame := (List.map_injective_iff.2 Int.ofNat_injective) (Except.ok.inj heq)
    rw [joinedPlaces_inj hplaces hplaces' hsame]
  case surjOn =>
    rintro _ ⟨coords, hcoords, rfl⟩
    obtain ⟨places, hplaces, rfl⟩ := locates_iff_exists.1 hcoords
    obtain ⟨others, hothers, rfl⟩ := exists_joinedPlaces hplaces
    exact ⟨_, locates_iff_exists.2 ⟨others, hothers, rfl⟩, joinedCoords_of_contains hothers count⟩

end Shape

end BoolTensor
