import BoolTensor.Shape.Basic

/-!
# Odometers

An odometer runs through the coordinates of a shape, the first one fastest, and keeps a running
index: a step along a dimension adds the stride of its wheel, and a wheel that wraps takes back
what it has added.

## Main definitions

* `Wheel`, `Odometer`: one dimension with its stride, and the whole with the running index
* `Odometer.addStride`: more stride on a wheel
* `Odometer.next?`, `Odometer.take`, `Odometer.nextIndices`, `Odometer.indices`: one index, the next
  few, the same with a check of their number, all that are left

## Design notes

Strides may change between steps; the running index is not computed anew then.
-/

namespace BoolTensor

structure Wheel where
  /-- The current coordinate. -/
  counter : Nat
  /-- The size of the dimension. -/
  bound : Nat
  /-- What a step along the dimension adds to the index. -/
  stride : Int
  deriving DecidableEq, Repr

/-- The wheels of a shape with the running index. -/
structure Odometer where
  /-- One wheel for each dimension, fastest first. -/
  wheels : List Wheel
  /-- The index at the current coordinates. -/
  index : Int
  /-- Whether all coordinates have been passed. -/
  done : Bool
  deriving DecidableEq, Repr

namespace Odometer

/-- The odometer of a shape at its first coordinates, with strides of zero. -/
def ofShape (s : Shape) : Odometer :=
  ⟨s.dims.map fun dim => ⟨0, dim, 0⟩, 0, s.dims.any (· == 0)⟩

/-- Adds to the stride of a wheel; places below zero count back from the last wheel. -/
def addStride (o : Odometer) (place stride : Int) : Except Error Odometer := do
  let place ← placeOf o.wheels.length place .wheelOutOfRange
  return { o with wheels :=
    o.wheels.modify place fun wheel => { wheel with stride := wheel.stride + stride } }

/-- Turns the first wheel by one, and the next one where a wheel wraps. The third result tells
whether all of them have wrapped. -/
def turn : List Wheel → Int → List Wheel × Int × Bool
  | [], index => ([], index, true)
  | wheel :: wheels, index =>
    let counter := wheel.counter + 1
    let index := index + wheel.stride
    if counter ≥ wheel.bound then
      -- The steps along this dimension are taken back.
      let (turned, index, wrapped) := turn wheels (index - counter * wheel.stride)
      ({ wheel with counter := 0 } :: turned, index, wrapped)
    else ({ wheel with counter := counter } :: wheels, index, false)

/-- The current index, and the odometer one step further; nothing once all coordinates have been
passed. -/
def next? (o : Odometer) : Option (Int × Odometer) :=
  if o.done then none
  else
    let (wheels, index, wrapped) := turn o.wheels o.index
    some (o.index, ⟨wheels, index, wrapped⟩)

/-- The next indices, `count` of them or as many as are left. -/
def take : Nat → Odometer → List Int × Odometer
  | 0, o => ([], o)
  | count + 1, o =>
    match o.next? with
    | none => ([], o)
    | some (index, o) =>
      let (indices, o) := take count o
      (index :: indices, o)

/-- The next indices, at most as many as asked for. -/
def nextIndices (o : Odometer) (count : Int) : Except Error (List Int × Odometer) :=
  if 0 ≤ count ∧ count ≤ indexLimit then .ok (o.take count.toNat) else .error .stopOutOfRange

/-- All indices that are left; there are at most as many as coordinates. -/
def indices (o : Odometer) : List Int :=
  (o.take ((o.wheels.map Wheel.bound).foldr (· * ·) 1)).1

end Odometer

end BoolTensor
