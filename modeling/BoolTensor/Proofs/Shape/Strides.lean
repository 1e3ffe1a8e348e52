import BoolTensor.Proofs.Shape.Odometer

/-!
# Indices under added strides

Strides are added to the wheels of an odometer before it runs, more than once to one wheel if need
be. The index that it then yields for a cell is the sum, over the dimensions, of the digit of the
cell's number times all the stride that the dimension has been given.

## Main definitions

* `Shape.digit`: a digit of the number of a cell
* `Odometer.addStrides`: strides added one after the other
* `Odometer.totalStride`: all the stride that one of the wheels is given
-/

namespace BoolTensor

namespace Shape

/-- A digit of the number of a cell, in the mixed radix of the dimensions, the first being the
fastest. -/
def digit (s : Shape) (place n : Nat) : Nat :=
  n / (s.dims.take place).prod % s.dims.getD place 1

theorem getD_digits (dims : List Nat) (place n : Nat) :
    (digits dims n).getD place 0 = digit ⟨dims⟩ place n := by
  induction dims generalizing place n with
  | nil => simp [digits, digit, Nat.mod_one]
  | cons dim dims ih =>
    cases place with
    | zero => simp [digits, digit]
    | succ place =>
      rw [digits, List.getD_cons_succ, ih, digit, digit, List.take_succ_cons, List.prod_cons,
        List.getD_cons_succ, Nat.div_div_eq_div_mul]

end Shape

namespace Odometer

/-- Strides added one after the other, each to the wheel that its place names. -/
def addStrides (o : Odometer) (calls : List (Int × Int)) : Except Error Odometer :=
  calls.foldlM (fun o call => o.addStride call.1 call.2) o

/-- All the stride that one of so many wheels is given. -/
def totalStride (count : Nat) (calls : List (Int × Int)) (wheel : Nat) : Int :=
  ((calls.filter fun call => wheelOf count call.1 = wheel).map Prod.snd).sum

variable {count : Nat} {calls : List (Int × Int)}

theorem totalStride_cons (call : Int × Int) (wheel : Nat) :
    totalStride count (call :: calls) wheel =
      (if wheelOf count call.1 = wheel then call.2 else 0) + totalStride count calls wheel := by
  by_cases hwheel : wheelOf count call.1 = wheel
  · simp [totalStride, hwheel]
  · simp [totalStride, hwheel]

/-- What the calls contribute one by one is what the wheels contribute with all their stride. -/
theorem sum_mul_totalStride (hcalls : ∀ call ∈ calls, Names count call.1) (digit : Nat → Int) :
    ∑ wheel ∈ Finset.range count, digit wheel * totalStride count calls wheel =
      (calls.map fun call => digit (wheelOf count call.1) * call.2).sum := by
  induction calls with
  | nil => simp [totalStride]
  | cons call calls ih =>
    rw [List.forall_mem_cons] at hcalls
    have hwheel : wheelOf count call.1 ∈ Finset.range count :=
      Finset.mem_range.2 hcalls.1.wheelOf_lt
    simp only [totalStride_cons, mul_add, mul_ite, mul_zero, Finset.sum_add_distrib,
      Finset.sum_ite_eq, if_pos hwheel, ih hcalls.2, List.map_cons, List.sum_cons]

/-- The odometer of a shape, given strides in any number of calls, yields one index for each cell:
the digits of its number times the strides that have been added up, zero, negative or repeated as
they may be. After the last cell it yields nothing, however often it is asked. -/
theorem take_addStrides (s : Shape) (calls : List (Int × Int))
    (hcalls : ∀ call ∈ calls, -(s.rank : Int) ≤ call.1 ∧ call.1 < s.rank) :
    ∃ o, (ofShape s).addStrides calls = .ok o ∧
      (∀ count, (o.take count).1 = (List.range (min count s.size)).map fun n =>
        ∑ wheel ∈ Finset.range s.rank, (s.digit wheel n : Int) * totalStride s.rank calls wheel) ∧
      ∀ count, s.size ≤ count → (o.take count).2.next? = none := by
  have hrank : (ofShape s).wheels.length = s.rank := List.length_map _
  obtain ⟨o, hrun, hstart, hshape, hindex⟩ :=
    foldlM_addStride (atStart_ofShape s) calls (by rwa [hrank])
  rw [shapeOf_ofShape] at hshape
  have hvalue (n : Nat) : indexAt o.wheels n =
      ∑ wheel ∈ Finset.range s.rank, (s.digit wheel n : Int) * totalStride s.rank calls wheel := by
    rw [hindex, indexAt_ofShape, zero_add, shapeOf_ofShape, hrank,
      sum_mul_totalStride hcalls fun wheel => s.digit wheel n]
    simp only [Shape.coordinates, Shape.getD_digits]
  have hlast := hstart.next?_take_size
  rw [hshape] at hlast
  refine ⟨o, hrun, fun count => ?_, fun count hcount => ?_⟩
  · rw [← List.map_congr_left fun n _ => hvalue n]
    by_cases hcount : count ≤ s.size
    · rw [hstart.take_eq (hshape ▸ hcount), Nat.min_eq_left hcount]
    -- Past the last cell the odometer is the one that has yielded all indices.
    · have hle : s.size ≤ count := (not_le.1 hcount).le
      rw [take_of_exhausted hlast hle, hstart.take_eq (hshape ▸ le_rfl), Nat.min_eq_right hle]
  · rwa [take_of_exhausted hlast hcount]

theorem take_addStrides_two_three :
    ∃ o, (ofShape ⟨[2, 3]⟩).addStrides [(0, 5), (-1, -7), (1, 0), (-2, -2)] = .ok o ∧
      (∀ count, 6 ≤ count → (o.take count).1 = [0, 3, -7, -4, -14, -11]) ∧
      ∀ count, 6 ≤ count → (o.take count).2.next? = none := by
  obtain ⟨o, hrun, htake, hlast⟩ :=
    take_addStrides ⟨[2, 3]⟩ [(0, 5), (-1, -7), (1, 0), (-2, -2)] (by decide)
  refine ⟨o, hrun, fun count hcount => ?_, hlast⟩
  have hsize : min count (Shape.size ⟨[2, 3]⟩) = 6 := Nat.min_eq_right hcount
  rw [htake, hsize]
  rfl

/-- Without dimensions there is one cell, with one of them zero there is none. -/
example : (ofShape ⟨[]⟩).indices = [0] ∧ (ofShape ⟨[3, 0, 2]⟩).indices = [] := by decide

end Odometer

end BoolTensor
