import BoolTensor.Algebra.Truth
import BoolTensor.Circuit.Tensor

/-!
# Whole-array circuits on the truth of tensors

Where only the truth of the cells matters, tensors need no algebra to be combined: their bits are
unpacked once, combined as whole arrays, and packed again. On cells that are truth values the
results are those of the circuits over the algebra of truth.

## Main definitions

* `Tensor.packedNot`, `Tensor.packedGate`, `Tensor.packedReduce`: the gates on whole arrays
* `Tensor.rows`: the cells as a matrix, whose row `i` holds the cells that fall into cell `i`
-/

namespace BoolTensor

namespace Tensor

variable {α : Type} [Element α]

/-- The packed tensor of a shape and its bits. -/
def ofBits (shape : Shape) (bits : List Bool) : Except Error (Tensor α) :=
  ofStorage shape (.packed (.ofList bits))

def packedNot (t : Tensor α) : Except Error (Tensor α) :=
  ofBits t.shape (t.elems.truths.map (!·))

def packedGate (gate : Gate) (t u : Tensor α) : Except Error (Tensor α) :=
  if t.shape = u.shape then
    ofBits t.shape (List.zipWith gate.eval t.elems.truths u.elems.truths)
  else .error (.shapeMismatch t.shape.dims u.shape.dims)

/-- The bits as `count` rows of `width`, which must be the dimensions of an array. -/
def rows (t : Tensor α) (width count : Nat) : Except Error (List (List Bool)) := do
  let _ ← arrayDims t.elems.length [(count : Int), width]
  return chunks width count t.elems.truths

/-- A gate on the cells along the first dimension. -/
def packedReduce (reduction : Reduction) (t : Tensor α) : Except Error (Tensor α) := do
  let (head, rest) ← t.shape.splitFirst
  ofBits rest ((← t.rows head rest.size).map reduction.eval)

end Tensor

end BoolTensor
