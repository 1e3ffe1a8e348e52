import BoolTensor.Shape.Odometer
import BoolTensor.Storage.Registry

/-!
# Tensors

A tensor is a shape with a vector of its cells, numbered as the shape numbers them.

## Main definitions

* `Tensor`, `Tensor.WellFormed`: shape and cells, as many as the shape has
* `Tensor.ofStorage`, `Tensor.constant`, `Tensor.ofList`: checked construction
* `Tensor.get`, `Tensor.set`: one cell by coordinates
* `Tensor.polymer`: permuted, identified and new dimensions by one mapping
* `Tensor.join`: the first dimensions joined into one

## Design notes

Polymer sends dimension `i` of the tensor to dimension `mapping[i]` of the result: the cell of the
result at `c` is the cell of the tensor whose `i`-th coordinate is `c[mapping[i]]`. One odometer
over the result realises permutation, repetition along unused dimensions, and diagonals, because
the strides of all sources of a dimension add up on its wheel.
-/

namespace BoolTensor

/-- A shape with its cells. -/
structure Tensor (α : Type) where
  shape : Shape
  /-- The cells, the first coordinate running fastest. -/
  elems : Storage α
  deriving Repr

namespace Tensor

variable {α : Type} [Element α]

/-- There are as many cells as the shape has. -/
def WellFormed (t : Tensor α) : Prop :=
  t.elems.length = t.shape.size

instance (t : Tensor α) : Decidable t.WellFormed :=
  inferInstanceAs (Decidable (_ = _))

/-- The tensor of a shape and its cells. -/
def ofStorage (shape : Shape) (elems : Storage α) : Except Error (Tensor α) :=
  if shape.size = elems.length then .ok ⟨shape, elems⟩
  else .error (.elementCount shape.dims shape.size elems.length)

/-- The tensor with the same element in every cell. -/
def constant (shape : Shape) (elem : α) (kind : Kind) : Except Error (Tensor α) := do
  Storage.checkRoom kind shape.size
  let elems ← (Storage.withCapacity kind shape.size).resize shape.size elem
  elems.checkLength
  ofStorage shape elems

def ofList (shape : Shape) (elems : List α) (kind : Kind) : Except Error (Tensor α) :=
  ofStorage shape (.ofList kind elems)

def get (t : Tensor α) (coords : List Int) : Except Error α := do
  let place ← t.shape.index coords
  t.elems.get place

def set (t : Tensor α) (coords : List Int) (elem : α) : Except Error (Tensor α) := do
  let place ← t.shape.index coords
  let elems ← t.elems.set place elem
  return { t with elems := elems }

/-- Whether each source dimension has a target, and one of its own size. -/
def mappingFits (source target : Shape) (mapping : List Int) : Bool :=
  (source.dims.zip mapping).all fun (dim, place) =>
    decide (0 ≤ place) && target.dims[place.toNat]? == some dim

/-- The odometer over the target with the strides of the source on the wheels that the mapping
names. -/
def sourceOdometer (source target : Shape) (mapping : List Int) : Except Error Odometer :=
  (mapping.zip source.strides).foldlM (fun o (place, stride) => o.addStride place stride)
    (Odometer.ofShape target)

/-- The tensor whose cells are those of `t`, reindexed by a mapping of dimensions. -/
def polymer (t : Tensor α) (shape : Shape) (mapping : List Int) : Except Error (Tensor α) := do
  if mapping.length ≠ t.shape.rank then throw (.mappingRank mapping t.shape.dims)
  if !mappingFits t.shape shape mapping then
    throw (.mappingInvalid mapping t.shape.dims shape.dims)
  -- Dimensions with one target add their strides up, so that a diagonal is read.
  let odometer ← sourceOdometer t.shape shape mapping
  ofStorage shape (t.elems.gather odometer.indices)

/-- The same cells under a shape whose first `count` dimensions are joined. -/
def join (t : Tensor α) (count : Int) : Except Error (Tensor α) := do
  let shape ← t.shape.join count
  return { t with shape := shape }

/-- A tensor with the same shape and a copy of the cells. -/
def copy (t : Tensor α) : Tensor α :=
  { t with elems := t.elems.copy }

/-- Whether two tensors have the same shape, and their vectors are the same. -/
def same (t u : Tensor α) : Bool :=
  t.shape == u.shape && t.elems.same u.elems

def render (t : Tensor α) : String :=
  "Tensor(" ++ t.shape.render ++ ", " ++ t.elems.render ++ ")"

end Tensor

end BoolTensor
