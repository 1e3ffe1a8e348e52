import BoolTensor.Program.Circuit
import BoolTensor.Proofs.Program.CellCount
import BoolTensor.Proofs.Shape.Joining

/-!
# Tensors with joined dimensions

Joining gives a tensor another shape and leaves its cells alone: each cell is read at its number in
the block that the joined dimensions span. In place the bank stays as it is, and a circuit joins the
dimensions of a copy.

## Main definitions

* `Tensor.JoinsTo`: a tensor has the cells of another one, whose first dimensions are joined
-/

namespace BoolTensor

variable {α : Type} [Element α]

namespace Tensor

variable {t : Tensor α} {count : Nat}

/-- The first dimensions of `t` are one of `u`. Each cell of `t` is read from `u` at its number in
the block that they span, and no other coordinates of `u` are left. -/
structure JoinsTo (t : Tensor α) (count : Nat) (u : Tensor α) : Prop where
  dims_eq : u.shape.dims = Shape.size ⟨t.shape.dims.take count⟩ :: t.shape.dims.drop count
  kind_eq : u.elems.kind = t.elems.kind
  toList_eq : u.elems.toList = t.elems.toList
  get_eq : ∀ coords, t.shape.Locates coords → ∃ place : Nat,
    Shape.index ⟨t.shape.dims.take count⟩ (coords.take count) = .ok place ∧
      u.get (place :: coords.drop count) = t.get coords
  bijOn : Set.BijOn (t.shape.joinedCoords count) {coords | t.shape.Locates coords}
    (Except.ok '' {coords | u.shape.Locates coords})

theorem get_joined (elems : Storage α) {s : Shape} {coords : List Nat} (h : s.Contains coords) :
    get ⟨s.joined count, elems⟩ ((s.joinedPlaces count coords).map Int.ofNat) =
      get ⟨s, elems⟩ (coords.map Int.ofNat) := by
  rw [get, get, Shape.index_of_contains (Shape.contains_joinedPlaces h count),
    Shape.index_of_contains h, Shape.offset_joinedPlaces]

theorem get_copy (t : Tensor α) (coords : List Int) : t.copy.get coords = t.get coords := by
  simp only [get, copy, Storage.get_copy]

theorem joinsTo_joined (t : Tensor α) (count : Nat) :
    t.JoinsTo count { t with shape := t.shape.joined count } where
  dims_eq := rfl
  kind_eq := rfl
  toList_eq := rfl
  get_eq := by
    intro coords hcoords
    obtain ⟨places, hplaces, rfl⟩ := Shape.locates_iff_exists.1 hcoords
    have htake : Shape.Contains ⟨t.shape.dims.take count⟩ (places.take count) :=
      (Shape.Within.take_drop hplaces count).1
    refine ⟨Shape.offset ⟨t.shape.dims.take count⟩ (places.take count), ?_, ?_⟩
    · rw [← List.map_take]
      exact Shape.index_of_contains htake
    · rw [← List.map_drop]
      exact get_joined t.elems hplaces
  bijOn := Shape.bijOn_joinedCoords t.shape count

/-- The cells may be a copy. -/
theorem joinsTo_copy (t : Tensor α) (count : Nat) :
    t.JoinsTo count { t.copy with shape := t.shape.joined count } where
  dims_eq := rfl
  kind_eq := Storage.kind_copy t.elems
  toList_eq := Storage.toList_copy t.elems
  get_eq := by
    intro coords hcoords
    obtain ⟨place, hplace, hget⟩ := (joinsTo_joined t.copy count).get_eq coords hcoords
    exact ⟨place, hplace, hget.trans (get_copy t coords)⟩
  bijOn := Shape.bijOn_joinedCoords t.shape count

omit [Element α] in
theorem join_natCast (h : count ≤ t.shape.rank) :
    t.join count = .ok { t with shape := t.shape.joined count } := by
  rw [join, Shape.join_natCast h]
  rfl

omit [Element α] in
theorem join_of_out {count : Int} (h : count < 0 ∨ t.shape.rank < count) :
    t.join count = .error (.joinCount count t.shape.dims) := by
  rw [join, Shape.join_eq_error_iff.2 ⟨h, rfl⟩]
  rfl

end Tensor

namespace Registers

variable {r : Registers α} {number count : Nat}

theorem tensor_reshape (h : number < r.views.size) (shape : Shape) :
    (r.reshape number shape).tensor number = { r.tensor number with shape := shape } := by
  have hview : (r.reshape number shape).view number = { r.view number with shape := shape } :=
    (view_reshape h).trans (if_pos rfl)
  rw [tensor, hview]
  rfl

end Registers

/-! ### Instructions -/

section Runs

variable {r : Registers α} {number k : Nat} {count : Int}

theorem TensorStep.run_join_of_le (h : k ≤ (r.tensor number).shape.rank) :
    (TensorStep.join number k).run r =
      .ok (.nothing, r.reshape number ((r.tensor number).shape.joined k)) := by
  have hjoin : (r.view number).shape.join k = .ok ((r.tensor number).shape.joined k) :=
    Shape.join_natCast h
  rw [run, hjoin]
  rfl

theorem TensorStep.run_join_eq_error_iff {e : Error} :
    (TensorStep.join number count).run r = .error e ↔
      (count < 0 ∨ (r.tensor number).shape.rank < count) ∧
        e = .joinCount count (r.tensor number).shape.dims := by
  rw [run]
  refine Iff.trans ?_ Shape.join_eq_error_iff
  -- The shape of the view is that of the tensor.
  change Except.map _ ((r.tensor number).shape.join count) = _ ↔ _
  cases (r.tensor number).shape.join count <;> simp [Except.map]

variable {m : Type → Type} [Monad m] [LawfulMonad m] (alg : BoolAlgebra m α)
  (gates : TensorGates m α)

theorem CircuitStep.run_joined_of_le (h : k ≤ (r.tensor number).shape.rank) :
    (CircuitStep.joined number k).run alg gates r = pure (r.addTensor
      { (r.tensor number).copy with shape := (r.tensor number).shape.joined k }) := by
  have hjoin : (r.tensor number).copy.join k =
      .ok { (r.tensor number).copy with shape := (r.tensor number).shape.joined k } :=
    Tensor.join_natCast h
  rw [run, hjoin, liftM_ok, pure_bind]

theorem CircuitStep.run_joined_of_out
    (h : count < 0 ∨ (r.tensor number).shape.rank < count) :
    (CircuitStep.joined number count).run alg gates r =
      throw (.joinCount count (r.tensor number).shape.dims) := by
  have hjoin : (r.tensor number).copy.join count =
      .error (.joinCount count (r.tensor number).shape.dims) := Tensor.join_of_out h
  rw [run, hjoin]
  exact throw_bind _ _

/-- Joining the first dimensions is refused, and changes nothing, where there are not so many of
them. Otherwise it leaves the bank and the other tensors as they are, and the tensor has each of its
cells at the number in the block of the joined dimensions, each of the new coordinates being used
once. A circuit that joins dimensions is refused alike; else it adds such a tensor, and leaves the
one it was made from, and all others, as they are. -/
theorem join_reinterprets_coordinates (hnumber : r.HasTensor number) (count : Int) :
    ((∃ e, (TensorStep.join number count).run r = .error e) ↔
      count < 0 ∨ (r.tensor number).shape.rank < count) ∧
    (count < 0 ∨ (r.tensor number).shape.rank < count →
      runAll (m := Id) TensorStep.run [.join number count] r =
        ([.error (.joinCount count (r.tensor number).shape.dims)], r) ∧
      (CircuitStep.joined number count).run alg gates r =
        throw (.joinCount count (r.tensor number).shape.dims)) ∧
    ∀ k : Nat, count = k → k ≤ (r.tensor number).shape.rank →
      (∃ r', runAll (m := Id) TensorStep.run [.join number count] r = ([.ok .nothing], r') ∧
        r'.bank = r.bank ∧ r'.views.size = r.views.size ∧
        (r'.view number).handle = (r.view number).handle ∧
        (∀ other < r.views.size, other ≠ number → r'.view other = r.view other) ∧
        (r.tensor number).JoinsTo k (r'.tensor number)) ∧
      ∃ r', (CircuitStep.joined number count).run alg gates r =
          pure (.tensor r.views.size, r') ∧
        r'.HasTensor r.views.size ∧
        (r.tensor number).JoinsTo k (r'.tensor r.views.size) ∧
        ∀ other, r.HasTensor other → r'.HasTensor other ∧ r'.tensor other = r.tensor other := by
  refine ⟨?refused, ?unchanged, ?joined⟩
  case refused =>
    simp only [TensorStep.run_join_eq_error_iff, exists_and_left, exists_eq, and_true]
  case unchanged =>
    intro hout
    refine ⟨?_, CircuitStep.run_joined_of_out alg gates hout⟩
    rw [runAll_cons, TensorStep.run_join_eq_error_iff.2 ⟨hout, rfl⟩]
    rfl
  case joined =>
    rintro k rfl hk
    constructor
    · refine ⟨r.reshape number ((r.tensor number).shape.joined k), ?_, rfl, ?_, ?_, ?_, ?_⟩
      · rw [runAll_cons, TensorStep.run_join_of_le hk]
        rfl
      · exact Array.size_setIfInBounds
      · rw [Registers.view_reshape hnumber.1, if_pos rfl]
      · exact fun other hother hne => (Registers.view_reshape hother).trans (if_neg hne)
      · rw [Registers.tensor_reshape hnumber.1]
        exact Tensor.joinsTo_joined _ k
    · obtain ⟨hnew, hself⟩ := r.tensor_addTensor_self
        { (r.tensor number).copy with shape := (r.tensor number).shape.joined k }
      refine ⟨_, CircuitStep.run_joined_of_le alg gates hk, hnew, ?_, ?_⟩
      · exact hself.symm ▸ Tensor.joinsTo_copy _ k
      · exact fun other hother => Registers.tensor_addTensor hother _

end Runs

/-- Two rows and three columns have no third dimension to join; both joined, the cell of the second
row and the second column has the number 3. -/
theorem join_reinterprets_coordinates_two_three :
    let r : Registers Bool := (Registers.empty.addTensor
      ⟨⟨[2, 3]⟩, .ofList .packed [true, false, false, true, false, true]⟩).2
    r.HasTensor 0 ∧ (∃ e, (TensorStep.join 0 3).run r = .error e) ∧
      ∃ r', runAll (m := Id) TensorStep.run [.join 0 2] r = ([.ok .nothing], r') ∧
        (r'.tensor 0).get [3] = (r.tensor 0).get [1, 1] := by
  intro r
  have hr : r.HasTensor 0 := (Registers.empty.tensor_addTensor_self _).1
  let gates := (truthAlgebra : BoolAlgebra Id Bool).tensorGates
  have hthree := join_reinterprets_coordinates truthAlgebra gates hr 3
  have htwo := join_reinterprets_coordinates truthAlgebra gates hr 2
  refine ⟨hr, hthree.1.2 (.inr (by decide)), ?_⟩
  obtain ⟨⟨r', hrun, -, -, -, -, hjoins⟩, -⟩ := htwo.2.2 2 rfl (by decide)
  refine ⟨r', hrun, ?_⟩
  obtain ⟨place, hplace, hget⟩ := hjoins.get_eq [1, 1] ⟨rfl, by decide⟩
  obtain rfl : 3 = place := Except.ok.inj hplace
  exact hget

end BoolTensor
