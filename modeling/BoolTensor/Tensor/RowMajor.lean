import BoolTensor.Tensor.Basic

/-!
# Row-major arrays

Arrays of truth values whose last coordinate runs fastest, and their exchange with tensors, whose
first coordinate runs fastest: coordinates keep their cell.

## Main definitions

* `TruthArray`, `TruthArray.ofInts`, `TruthArray.entry`: dimensions and entries, last coordinate
  fastest
* `crossOrder`: the numbers of the cells of a shape, visited with the last coordinate fastest
* `Tensor.toTruthArray`, `Tensor.checkArray`, `TruthArray.toTensor`: the exchange
* `Nested`, `TruthArray.nested`: the array as rows of rows
-/

namespace BoolTensor

/-- An array of truth values, the last coordinate running fastest. -/
structure TruthArray where
  dims : List Nat
  data : List Bool
  deriving DecidableEq, Repr

/-- There are as many entries as the dimensions have room for. -/
def TruthArray.WellFormed (a : TruthArray) : Prop :=
  a.data.length = Shape.size ⟨a.dims⟩

/-- The entry at coordinates. Turning the dimensions and the coordinates round makes the last
coordinate the fastest one. -/
def TruthArray.entry (a : TruthArray) (coords : List Nat) : Bool :=
  a.data.getD (Shape.offset ⟨a.dims.reverse⟩ coords.reverse) false

/-- The offsets reached from `start` by all steps along the dimensions, each given with its stride;
the last dimension runs fastest. -/
def offsets : List (Nat × Nat) → Nat → List Nat
  | [], start => [start]
  | (dim, stride) :: dims, start =>
    (List.range dim).flatMap fun coord => offsets dims (start + coord * stride)

/-- The numbers of the cells of a shape, visited with the last coordinate running fastest. Where
some dimension is zero no other one is walked through. -/
def crossOrder (dims : List Nat) : List Nat :=
  if dims.contains 0 then [] else offsets (dims.zip (Shape.stridesFrom 1 dims)) 0

/-- An array of entries in order, with dimensions as they are asked for. -/
def TruthArray.ofInts (dims : List Int) (data : List Bool) : Except Error TruthArray :=
  (arrayDims data.length dims).map (⟨·, data⟩)

/-- The entries at the listed places. -/
def permuted (entries : Array Bool) (places : List Nat) : List Bool :=
  places.map fun place => entries.getD place false

/-- The array with the truth of each cell of a tensor. -/
def Tensor.toTruthArray {α : Type} [Element α] (t : Tensor α) : TruthArray :=
  ⟨t.shape.dims, permuted t.elems.truths.toArray (crossOrder t.shape.dims)⟩

/-- Refuses a tensor whose dimensions are none of an array. -/
def Tensor.checkArray {α : Type} [Element α] (t : Tensor α) : Except Error Unit := do
  let _ ← arrayDims t.elems.length (t.shape.dims.map Int.ofNat)

/-- The packed tensor with the entries of an array. An order of the dimensions turned round turns
the numbering round, hence the reversal. -/
def TruthArray.toTensor {α : Type} [Element α] (a : TruthArray) : Except Error (Tensor α) :=
  let cells := permuted a.data.toArray (crossOrder a.dims.reverse)
  Tensor.ofStorage ⟨a.dims⟩ (.packed (.ofList cells))

/-- Rows of rows of entries. -/
inductive Nested where
  /-- A single entry. -/
  | entry (value : Bool)
  /-- The entries that share a coordinate. -/
  | row (items : List Nested)

/-- Entries as rows of rows with the given dimensions. -/
def nest : List Nat → List Bool → Nested
  | [], data => .entry (data.headD false)
  | dim :: dims, data => .row ((chunks (Shape.size ⟨dims⟩) dim data).map (nest dims))

/-- The array as rows of rows. -/
def TruthArray.nested (a : TruthArray) : Nested :=
  nest a.dims a.data

end BoolTensor
