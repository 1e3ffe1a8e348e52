import BoolTensor.Proofs.Shape.Numbering
import BoolTensor.Shape.Odometer

/-!
# The indices of an odometer

An odometer that starts at the first coordinates yields one index for each cell of its shape: at
each dimension the coordinate times the stride, added up.

## Main definitions

* `Odometer.wheelsAt`: the wheels, turned to the coordinates of a cell
* `Odometer.indexAt`: the index at the coordinates of a cell
-/

namespace BoolTensor

namespace Odometer

/-- The shape that the wheels run through. -/
def shapeOf (wheels : List Wheel) : Shape :=
  ⟨wheels.map Wheel.bound⟩

/-- The wheels, turned to the coordinates of a cell. -/
def wheelsAt : List Wheel → Nat → List Wheel
  | [], _ => []
  | wheel :: wheels, n =>
    { wheel with counter := n % wheel.bound } :: wheelsAt wheels (n / wheel.bound)

/-- The index at the coordinates of a cell. -/
def indexAt : List Wheel → Nat → Int
  | [], _ => 0
  | wheel :: wheels, n => (n % wheel.bound : Nat) * wheel.stride + indexAt wheels (n / wheel.bound)

variable {wheels : List Wheel} {n : Nat}

theorem size_shapeOf_cons (wheel : Wheel) (wheels : List Wheel) :
    (shapeOf (wheel :: wheels)).size = wheel.bound * (shapeOf wheels).size := rfl

/-! ### One step -/

/-- The last digit of the next number and the number before it, where the digit is not the last. -/
theorem succ_div_mod_of_lt {bound n : Nat} (h : n % bound + 1 < bound) :
    (n + 1) / bound = n / bound ∧ (n + 1) % bound = n % bound + 1 := by
  have hsplit : n + 1 = n % bound + 1 + bound * (n / bound) := by
    rw [Nat.add_right_comm, Nat.mod_add_div]
  rw [hsplit, Nat.add_mul_div_left _ _ (Nat.zero_lt_of_lt h), Nat.add_mul_mod_self_left,
    Nat.div_eq_of_lt h, Nat.mod_eq_of_lt h, Nat.zero_add]
  exact ⟨rfl, rfl⟩

/-- The last digit of the next number and the number before it, where the digit wraps. -/
theorem succ_div_mod_of_eq {bound n : Nat} (hbound : 0 < bound) (h : n % bound + 1 = bound) :
    (n + 1) / bound = n / bound + 1 ∧ (n + 1) % bound = 0 := by
  have hsplit : n + 1 = bound * (n / bound + 1) := by
    have hdiv := Nat.mod_add_div n bound
    rw [Nat.mul_add_one]
    omega
  rw [hsplit, Nat.mul_div_cancel_left _ hbound, Nat.mul_mod_right]
  exact ⟨rfl, rfl⟩

/-- A step adds one to the number of the cell; after the last cell all wheels have wrapped. -/
theorem turn_wheelsAt (hn : n < (shapeOf wheels).size) (index : Int) :
    turn (wheelsAt wheels n) index = (wheelsAt wheels (n + 1),
      index - indexAt wheels n + indexAt wheels (n + 1), decide (n + 1 = (shapeOf wheels).size)) := by
  induction wheels generalizing n index with
  | nil =>
    obtain rfl : n = 0 := Nat.lt_one_iff.1 hn
    simp [turn, wheelsAt, indexAt, shapeOf, Shape.size]
  | cons wheel wheels ih =>
    rw [size_shapeOf_cons] at hn ⊢
    have hbound : 0 < wheel.bound := Nat.pos_of_mul_pos_right (Nat.zero_lt_of_lt hn)
    have hdiv : n / wheel.bound < (shapeOf wheels).size := Nat.div_lt_of_lt_mul hn
    have hdigit := Nat.mod_lt n hbound
    have hsplit := Nat.mod_add_div n wheel.bound
    rw [wheelsAt, wheelsAt, indexAt, indexAt, turn]
    by_cases hwrap : n % wheel.bound + 1 = wheel.bound
    -- The wheel wraps, and the next one is turned.
    · obtain ⟨hnext, hlast⟩ := succ_div_mod_of_eq hbound hwrap
      have hdone : (n / wheel.bound + 1 = (shapeOf wheels).size) =
          (n + 1 = wheel.bound * (shapeOf wheels).size) := by
        rw [eq_iff_iff, ← Nat.mul_right_inj hbound.ne', Nat.mul_add_one]
        omega
      have hindex : index + wheel.stride - ((n % wheel.bound + 1 : Nat) : Int) * wheel.stride =
          index - (n % wheel.bound : Nat) * wheel.stride := by
        push_cast
        ring
      simp only [hnext, hlast, ge_iff_le, hwrap.ge, if_true, hindex, ih hdiv, hdone]
      refine Prod.ext rfl (Prod.ext ?_ rfl)
      push_cast
      ring
    · have hlt : n % wheel.bound + 1 < wheel.bound := by omega
      obtain ⟨hnext, hlast⟩ := succ_div_mod_of_lt hlt
      have hgoing : n + 1 ≠ wheel.bound * (shapeOf wheels).size := by
        intro hdone
        rw [hdone, Nat.mul_mod_right] at hlast
        omega
      simp only [hnext, hlast, ge_iff_le, not_le.2 hlt, if_false, hgoing, decide_false]
      refine Prod.ext rfl (Prod.ext ?_ rfl)
      push_cast
      ring

/-! ### All steps -/

/-- An odometer whose wheels stand at a cell yields the indices of the cells from there on. -/
theorem take_wheelsAt {count : Nat} (h : n + count ≤ (shapeOf wheels).size) :
    take count ⟨wheelsAt wheels n, indexAt wheels n, decide (n = (shapeOf wheels).size)⟩ =
      ((List.range' n count).map (indexAt wheels), ⟨wheelsAt wheels (n + count),
        indexAt wheels (n + count), decide (n + count = (shapeOf wheels).size)⟩) := by
  induction count generalizing n with
  | zero => rfl
  | succ count ih =>
    have hlt : n < (shapeOf wheels).size := by omega
    have hnext : next? ⟨wheelsAt wheels n, indexAt wheels n, decide (n = (shapeOf wheels).size)⟩ =
        some (indexAt wheels n, ⟨wheelsAt wheels (n + 1), indexAt wheels (n + 1),
          decide (n + 1 = (shapeOf wheels).size)⟩) := by
      simp [next?, turn_wheelsAt hlt, hlt.ne]
    rw [take, hnext, List.range'_succ, List.map_cons]
    simp only
    rw [ih (by omega), Nat.add_right_comm, Nat.add_assoc]

/-- An odometer that has yielded all indices stays as it is. -/
theorem take_of_exhausted {o : Odometer} {count : Nat} (hnone : (o.take n).2.next? = none)
    (hle : n ≤ count) : o.take count = o.take n := by
  induction n generalizing o count with
  | zero =>
    cases count with
    | zero => rfl
    | succ count =>
      have hstop : o.next? = none := hnone
      simp only [take, hstop]
  | succ n ih =>
    obtain ⟨count, rfl⟩ : ∃ k, count = k + 1 := ⟨count - 1, by omega⟩
    rw [take] at hnone ⊢
    rw [take]
    cases hnext : o.next? with
    | none => rfl
    | some next =>
      rw [hnext] at hnone
      simp only [ih hnone (Nat.le_of_succ_le_succ hle)]

/-- An odometer at its first coordinates. -/
structure AtStart (o : Odometer) : Prop where
  counters : ∀ counter ∈ o.wheels.map Wheel.counter, counter = 0
  index : o.index = 0
  /-- Only where some dimension is zero there is no first cell. -/
  done : o.done = (o.wheels.map Wheel.bound).any (· == 0)

theorem wheelsAt_zero (h : ∀ counter ∈ wheels.map Wheel.counter, counter = 0) :
    wheelsAt wheels 0 = wheels := by
  induction wheels with
  | nil => rfl
  | cons wheel wheels ih =>
    rw [List.map_cons, List.forall_mem_cons] at h
    rw [wheelsAt, Nat.zero_mod, Nat.zero_div, ih h.2, ← h.1]

theorem indexAt_zero (wheels : List Wheel) : indexAt wheels 0 = 0 := by
  induction wheels with
  | nil => rfl
  | cons wheel wheels ih => simp [indexAt, ih]

/-- An odometer at its first coordinates yields the indices of the cells in order. -/
theorem AtStart.take_eq {o : Odometer} (h : o.AtStart) {count : Nat}
    (hcount : count ≤ (shapeOf o.wheels).size) :
    o.take count = ((List.range count).map (indexAt o.wheels), ⟨wheelsAt o.wheels count,
      indexAt o.wheels count, decide (count = (shapeOf o.wheels).size)⟩) := by
  have hdone : o.done = decide (0 = (shapeOf o.wheels).size) := by
    have hzero : 0 = (shapeOf o.wheels).size ↔ 0 ∈ o.wheels.map Wheel.bound := by
      rw [eq_comm, ← not_iff_not]
      exact Nat.pos_iff_ne_zero.symm.trans Shape.size_pos_iff
    rw [h.done, Bool.eq_iff_iff, decide_eq_true_iff, hzero, List.any_beq', List.contains_iff_mem]
  have hstart : o = ⟨wheelsAt o.wheels 0, indexAt o.wheels 0, decide (0 = (shapeOf o.wheels).size)⟩ := by
    rw [wheelsAt_zero h.counters, indexAt_zero, ← h.index, ← hdone]
  have htake := take_wheelsAt ((Nat.zero_add count).le.trans hcount)
  rw [← hstart, ← List.range_eq_range', Nat.zero_add] at htake
  exact htake

/-- An odometer at its first coordinates yields one index for each cell. -/
theorem AtStart.indices_eq {o : Odometer} (h : o.AtStart) :
    o.indices = (List.range (shapeOf o.wheels).size).map (indexAt o.wheels) :=
  congrArg Prod.fst (h.take_eq le_rfl)

/-- After the indices of all cells an odometer yields nothing. -/
theorem AtStart.next?_take_size {o : Odometer} (h : o.AtStart) :
    (o.take (shapeOf o.wheels).size).2.next? = none := by
  simp [h.take_eq le_rfl, next?]

/-! ### Strides -/

theorem atStart_ofShape (s : Shape) : (ofShape s).AtStart where
  counters := by simp [ofShape]
  index := rfl
  done := by simp [ofShape, Function.comp_def]

/-- Without strides the index stays at zero. -/
theorem indexAt_ofShape (s : Shape) (n : Nat) : indexAt (ofShape s).wheels n = 0 := by
  obtain ⟨dims⟩ := s
  simp only [ofShape]
  induction dims generalizing n with
  | nil => rfl
  | cons dim dims ih => rw [List.map_cons, indexAt, ih, mul_zero, zero_add]

theorem shapeOf_ofShape (s : Shape) : shapeOf (ofShape s).wheels = s := by
  simp [shapeOf, ofShape, Function.comp_def]

/-- The wheels after more stride on one of them. -/
def strideAdded (wheels : List Wheel) (place : Nat) (stride : Int) : List Wheel :=
  wheels.modify place fun wheel => { wheel with stride := wheel.stride + stride }

/-- The wheel that a place names among so many; below zero it counts back from the last one. -/
def wheelOf (count : Nat) (place : Int) : Nat :=
  (if place < 0 then count + place else place).toNat

/-- A place names one of so many wheels. -/
def Names (count : Nat) (place : Int) : Prop :=
  -(count : Int) ≤ place ∧ place < count

theorem Names.wheelOf_lt {count : Nat} {place : Int} (h : Names count place) :
    wheelOf count place < count := by
  rw [Names] at h
  rw [wheelOf]
  split_ifs <;> omega

theorem names_natCast {count place : Nat} (h : place < count) : Names count place := by
  rw [Names]
  omega

theorem wheelOf_natCast (count place : Nat) : wheelOf count place = place := by
  rw [wheelOf, if_neg (Int.natCast_nonneg place).not_gt, Int.toNat_natCast]

theorem addStride_of_names {o : Odometer} {place : Int} (h : Names o.wheels.length place)
    (stride : Int) : o.addStride place stride =
      .ok { o with wheels := strideAdded o.wheels (wheelOf o.wheels.length place) stride } := by
  have hplace : placeOf o.wheels.length place .wheelOutOfRange =
      .ok (wheelOf o.wheels.length place) := by
    rw [Names] at h
    rw [placeOf, wheelOf]
    split_ifs with hneg hin hin
    · rfl
    · omega
    · rfl
    · omega
  rw [addStride, hplace]
  rfl

theorem strideAdded_cons_zero (wheel : Wheel) (wheels : List Wheel) (stride : Int) :
    strideAdded (wheel :: wheels) 0 stride = { wheel with stride := wheel.stride + stride } :: wheels :=
  rfl

theorem strideAdded_cons_succ (wheel : Wheel) (wheels : List Wheel) (place : Nat) (stride : Int) :
    strideAdded (wheel :: wheels) (place + 1) stride = wheel :: strideAdded wheels place stride :=
  rfl

/-- What does not read the stride of a wheel reads the same after more of it was added. -/
theorem map_strideAdded {β : Type} {f : Wheel → β}
    (hf : ∀ (wheel : Wheel) (stride : Int), f { wheel with stride := stride } = f wheel)
    (wheels : List Wheel) (place : Nat) (stride : Int) :
    (strideAdded wheels place stride).map f = wheels.map f := by
  induction wheels generalizing place with
  | nil => simp [strideAdded]
  | cons wheel wheels ih =>
    cases place with
    | zero => rw [strideAdded_cons_zero, List.map_cons, hf, List.map_cons]
    | succ place => rw [strideAdded_cons_succ, List.map_cons, ih, List.map_cons]

@[simp]
theorem map_bound_strideAdded (wheels : List Wheel) (place : Nat) (stride : Int) :
    (strideAdded wheels place stride).map Wheel.bound = wheels.map Wheel.bound :=
  map_strideAdded (fun _ _ => rfl) wheels place stride

@[simp]
theorem map_counter_strideAdded (wheels : List Wheel) (place : Nat) (stride : Int) :
    (strideAdded wheels place stride).map Wheel.counter = wheels.map Wheel.counter :=
  map_strideAdded (fun _ _ => rfl) wheels place stride

theorem AtStart.strideAdded {o : Odometer} (h : o.AtStart) (place : Nat) (stride : Int) :
    AtStart { o with wheels := strideAdded o.wheels place stride } where
  counters := by simpa only [map_counter_strideAdded] using h.counters
  index := h.index
  done := by simpa only [map_bound_strideAdded] using h.done

/-- More stride on a wheel counts once for each step along its dimension. -/
theorem indexAt_strideAdded {place : Nat} (h : place < wheels.length) (stride : Int) (n : Nat) :
    indexAt (strideAdded wheels place stride) n =
      indexAt wheels n + ((shapeOf wheels).coordinates n).getD place 0 * stride := by
  induction wheels generalizing place n with
  | nil => exact absurd h (Nat.not_lt_zero place)
  | cons wheel wheels ih =>
    have hdigits : (shapeOf (wheel :: wheels)).coordinates n =
        n % wheel.bound :: (shapeOf wheels).coordinates (n / wheel.bound) := rfl
    cases place with
    | zero =>
      rw [strideAdded_cons_zero, hdigits, indexAt, indexAt, List.getD_cons_zero]
      ring
    | succ place =>
      rw [strideAdded_cons_succ, hdigits, indexAt, indexAt, List.getD_cons_succ,
        ih (Nat.lt_of_succ_lt_succ h)]
      ring

/-- Strides are added to the wheels that their places name, one after the other. -/
theorem foldlM_addStride {o : Odometer} (h : o.AtStart) (calls : List (Int × Int))
    (hcalls : ∀ call ∈ calls, Names o.wheels.length call.1) :
    ∃ o', calls.foldlM (fun o call => o.addStride call.1 call.2) o = .ok o' ∧ o'.AtStart ∧
      shapeOf o'.wheels = shapeOf o.wheels ∧
      ∀ n, indexAt o'.wheels n = indexAt o.wheels n + (calls.map fun call =>
        (((shapeOf o.wheels).coordinates n).getD (wheelOf o.wheels.length call.1) 0 : Int) *
          call.2).sum := by
  induction calls generalizing o with
  | nil => exact ⟨o, rfl, h, rfl, by simp⟩
  | cons call calls ih =>
    rw [List.forall_mem_cons] at hcalls
    have hlength (wheel : Nat) : (strideAdded o.wheels wheel call.2).length = o.wheels.length :=
      List.length_modify ..
    have hbounds (wheel : Nat) :
        shapeOf (strideAdded o.wheels wheel call.2) = shapeOf o.wheels := by
      rw [shapeOf, map_bound_strideAdded, shapeOf]
    obtain ⟨o', hrun, hstart, hshape, hindex⟩ :=
      ih (h.strideAdded (wheelOf o.wheels.length call.1) call.2)
        (by simpa only [hlength] using hcalls.2)
    refine ⟨o', ?_, hstart, hshape.trans (hbounds _), fun n => ?_⟩
    · rw [List.foldlM_cons, addStride_of_names hcalls.1]
      exact hrun
    · rw [hindex, hbounds, hlength, indexAt_strideAdded hcalls.1.wheelOf_lt, List.map_cons,
        List.sum_cons]
      ring

end Odometer

end BoolTensor
