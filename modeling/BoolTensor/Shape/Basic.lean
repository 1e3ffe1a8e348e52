import BoolTensor.Limits

/-!
# Shapes

A shape is a list of dimensions; a tensor of that shape has one cell for each list of coordinates.
Cells are numbered with the first coordinate running fastest.

## Main definitions

* `Shape`, `Shape.ofInts`: dimensions, and their check
* `Shape.size`: the number of cells
* `Shape.Contains`: the coordinate lists of a shape
* `Shape.offset`, `Shape.index`: the number of a cell, without and with a check of its coordinates
* `Shape.coordinates`: the coordinates of a cell with a given number
* `Shape.strides`: how much one step along each dimension adds to the number
* `Shape.splitFirst`, `Shape.insert`, `Shape.mapping`, `Shape.join`: derived shapes and mappings
-/

namespace BoolTensor

structure Shape where
  /-- The size of each dimension. -/
  dims : List Nat
  deriving DecidableEq, Repr

namespace Shape

/-- The shape with these dimensions, none of which may be below zero. -/
def ofInts (dims : List Int) : Except Error Shape :=
  if dims.any (· < 0) then .error (.negativeDimension dims) else .ok ⟨dims.map Int.toNat⟩

/-- The shape of a single cell. -/
def scalar : Shape := ⟨[]⟩

def rank (s : Shape) : Nat :=
  s.dims.length

def size (s : Shape) : Nat :=
  s.dims.foldr (· * ·) 1

def render (s : Shape) : String :=
  dimensionsText s.dims

def isEmpty (s : Shape) : Bool :=
  s.dims.isEmpty

/-- Whether all dimensions have one size. -/
def isRectangular (s : Shape) (dim : Cell) : Bool :=
  s.dims.all fun d => (Cell.int d).same dim

/-- The dimension at a place; places below zero count back from the end. -/
def dimension (s : Shape) (place : Int) : Except Error Nat := do
  let place ← placeOf s.rank place .dimensionOutOfRange
  return s.dims.getD place 0

/-- The first dimension, and the shape of the others. -/
def splitFirst (s : Shape) : Except Error (Nat × Shape) :=
  match s.dims with
  | [] => .error .noFirstDimension
  | first :: rest => .ok (first, ⟨rest⟩)

/-- The shape with further dimensions spliced in at a place. -/
def insert (s : Shape) (place : Int) (dims : List Int) : Except Error Shape :=
  if 0 ≤ place ∧ place ≤ s.rank then
    ofInts ((s.dims.take place.toNat).map Int.ofNat ++ dims
      ++ (s.dims.drop place.toNat).map Int.ofNat)
  else .error (.insertPosition place s.dims)

/-- The mapping that sends the first dimensions to the listed targets, each below `rest`, and the
others to the fresh targets `rest`, `rest + 1` and so on. -/
def mapping (s : Shape) (part : List Int) (rest : Int) : Except Error (List Int) := do
  if part.length > s.rank then throw (.mappingTooLong part s.dims)
  match part.find? (rest ≤ ·) with
  | some entry => throw (.mappingEntry entry rest)
  | none =>
    return part ++ (List.range (s.rank - part.length)).map fun (i : Nat) => rest + i

/-- The first `count` dimensions joined into one. -/
def join (s : Shape) (count : Int) : Except Error Shape :=
  if 0 ≤ count ∧ count ≤ s.rank then
    .ok ⟨Shape.size ⟨s.dims.take count.toNat⟩ :: s.dims.drop count.toNat⟩
  else .error (.joinCount count s.dims)

/-! ### Numbers of cells -/

/-- How much one step along each of the dimensions adds to the number of a cell, when a step along
the first adds `step`. -/
def stridesFrom (step : Nat) : List Nat → List Nat
  | [] => []
  | dim :: dims => step :: stridesFrom (step * dim) dims

/-- How much one step along each dimension adds to the number of a cell. -/
def strides (s : Shape) : List Nat :=
  stridesFrom 1 s.dims

/-- Coordinates below the dimensions, one for each. -/
def Within : List Nat → List Nat → Prop
  | [], [] => True
  | dim :: dims, coord :: coords => coord < dim ∧ Within dims coords
  | _, _ => False

/-- The coordinate lists of a shape. -/
def Contains (s : Shape) (coords : List Nat) : Prop :=
  Within s.dims coords

/-- The number of the cell at coordinates, the first dimension running fastest. -/
def offsetIn : List Nat → List Nat → Nat
  | dim :: dims, coord :: coords => coord + dim * offsetIn dims coords
  | _, _ => 0

/-- The number of the cell at coordinates. -/
def offset (s : Shape) (coords : List Nat) : Nat :=
  offsetIn s.dims coords

/-- The digits of a number in the mixed radix of the dimensions, the first one least. -/
def digits : List Nat → Nat → List Nat
  | [], _ => []
  | dim :: dims, place => place % dim :: digits dims (place / dim)

/-- The coordinates of the cell with a number. -/
def coordinates (s : Shape) (place : Nat) : List Nat :=
  digits s.dims place

/-- Whether there is a coordinate for each dimension and each is below its dimension. -/
def withinBounds (dims : List Nat) (coords : List Int) : Bool :=
  (dims.zip coords).all fun (dim, coord) => 0 ≤ coord ∧ coord < dim

/-- The number of the cell at coordinates, which are checked. -/
def index (s : Shape) (coords : List Int) : Except Error Nat :=
  if coords.length ≠ s.rank then .error (.coordinateCount s.rank coords.length)
  else if withinBounds s.dims coords then .ok (s.offset (coords.map Int.toNat))
  else .error (.coordinatesOutOfRange coords s.dims)

end Shape

end BoolTensor
