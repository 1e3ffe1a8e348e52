import BoolTensor.Number.Rounding

/-!
# Sums and means

Sums of floating-point numbers. Each addition rounds, so the order of the additions shows in the
last bits. Long lists are halved, and what remains is added up in eight running sums, which keeps
the rounding errors small.

## Main definitions

* `Binary64.add`, `Binary64.divide`: one addition, and a division by a count, correctly rounded
* `Binary64.pairwiseSum`: the sum of one batch of numbers
* `Binary64.mean`: the sum of all batches divided by the number of terms
-/

namespace BoolTensor.Binary64

/-- A finite number in units of `2 ^ unit`, which must not be above its exponent. -/
def unitsOf (unit : Int) (negative : Bool) (significand : Nat) (exponent : Int) : Int :=
  let units : Int := (significand <<< (exponent - unit).toNat : Nat)
  if negative then -units else units

/-- The sum of two numbers, rounded to the nearest one. A sum of zero is negative if both terms
are. -/
def add : Binary64 → Binary64 → Binary64
  | finite negative₁ significand₁ exponent₁, finite negative₂ significand₂ exponent₂ =>
    let unit := min exponent₁ exponent₂
    -- In units of the smaller exponent both are whole, so only the result is rounded.
    let units := unitsOf unit negative₁ significand₁ exponent₁
      + unitsOf unit negative₂ significand₂ exponent₂
    let (num, den) := scaled units.natAbs 1 unit
    nearest (if units = 0 then negative₁ && negative₂ else decide (units < 0)) num den
  | nan negative, _ => nan negative
  | _, nan negative => nan negative
  | infinity negative₁, infinity negative₂ =>
    if negative₁ = negative₂ then infinity negative₁ else nan true
  | infinity negative, _ => infinity negative
  | _, infinity negative => infinity negative

/-- A number divided by a positive count, rounded to the nearest one. -/
def divide (x : Binary64) (count : Nat) : Binary64 :=
  match x with
  | finite negative significand exponent =>
    let (num, den) := scaled significand count exponent
    nearest negative num den
  | x => x

/-- The sum from the left, on top of `start`. -/
def sumFrom (start : Binary64) (terms : List Binary64) : Binary64 :=
  terms.foldl add start

/-- The number of running sums. -/
def lanes : Nat := 8

/-- Adds the terms, as many at a time as there are running sums, to these; gives the running sums
and the terms that are left over. -/
def runningSums (sums terms : List Binary64) : List Binary64 × List Binary64 :=
  if _h : lanes ≤ terms.length then
    runningSums (List.zipWith add sums (terms.take lanes)) (terms.drop lanes)
  else (sums, terms)
termination_by terms.length
decreasing_by simp [lanes] at *; omega

/-- The sums of neighbours. -/
def sumNeighbours : List Binary64 → List Binary64
  | x :: y :: rest => add x y :: sumNeighbours rest
  | rest => rest

/-- The sum of a short list: from the left, or by running sums that are combined like a tree before
the terms that are left over follow. -/
def blockSum (terms : List Binary64) : Binary64 :=
  if terms.length < lanes then sumFrom zero terms
  else
    let (sums, rest) := runningSums (terms.take lanes) (terms.drop lanes)
    sumFrom ((sumNeighbours (sumNeighbours (sumNeighbours sums))).headD zero) rest

/-- The number of terms of a short list. -/
def blockLength : Nat := 128

/-- Half of a length, a whole number of times the number of running sums. -/
def halfLength (length : Nat) : Nat :=
  length / 2 - length / 2 % lanes

/-- The sum of a list: that of its first half plus that of its second half, until it is short. -/
def pairwiseSum (terms : List Binary64) : Binary64 :=
  if _h : terms.length ≤ blockLength then blockSum terms
  else
    add (pairwiseSum (terms.take (halfLength terms.length)))
      (pairwiseSum (terms.drop (halfLength terms.length)))
termination_by terms.length
decreasing_by all_goals simp [halfLength, lanes, blockLength] at *; omega

/-- The number of terms of a batch. -/
def batchLength : Nat := 8192

/-- The sum of all terms, batch by batch, on top of `start`. -/
def batchedSum (start : Binary64) (terms : List Binary64) : Binary64 :=
  if _h : terms.isEmpty then start
  else batchedSum (add start (pairwiseSum (terms.take batchLength))) (terms.drop batchLength)
termination_by terms.length
decreasing_by
  have positive : 0 < batchLength := by decide
  have nonempty : terms.length ≠ 0 := by simpa using _h
  rw [List.length_drop]
  omega

/-- The mean of integers, computed in floating-point numbers; zero where there are none. -/
def mean (values : List Int) : Binary64 :=
  if values.isEmpty then zero
  else (batchedSum zero (values.map ofInt)).divide values.length

end BoolTensor.Binary64
