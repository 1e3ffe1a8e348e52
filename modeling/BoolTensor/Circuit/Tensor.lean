import BoolTensor.Algebra.Basic
import BoolTensor.Tensor.Basic

/-!
# Circuits on tensors

Gates on whole tensors, cell by cell, for any algebra: at each coordinate, or along the first
dimension, which then disappears. The cells that fall into one cell of such a result lie together
in storage, because the first coordinate runs fastest.

## Main definitions

* `BoolAlgebra.constant`, `BoolAlgebra.constantOf`, `BoolAlgebra.diagonal`: tensors of constants
* `Tensor.marked`, `BoolAlgebra.countedDiagonal`: the diagonal of a square whose cells are counted
* `BoolAlgebra.tensorNot`, `BoolAlgebra.tensorGate`: gates at each coordinate
* `BoolAlgebra.tensorReduce`: gates along the first dimension
-/

namespace BoolTensor

/-- The places of the cells of a square that lie on its diagonal. -/
def diagonalPlaces (dim : Nat) : List Nat :=
  (List.range dim).map (· * (dim + 1))

/-- The square tensor that is filled with one element, and marked with another one along its
diagonal. -/
def Tensor.marked {α : Type} [Element α] (kind : Kind) (dim : Nat) (zero unit : α) : Tensor α :=
  ⟨⟨[dim, dim]⟩, (diagonalPlaces dim).foldl (fun elems p => elems.write p unit)
    ((Storage.withCapacity kind (dim * dim : Nat)).withLength (dim * dim : Nat) zero)⟩

namespace BoolAlgebra

variable {m : Type → Type} [Monad m] {α : Type} [Element α]

def checkShapes {β : Type} (t : Tensor α) (u : Tensor β) : ExceptT Error m Unit :=
  if t.shape = u.shape then pure () else throw (.shapeMismatch t.shape.dims u.shape.dims)

/-- The tensor of a shape with cells of the algebra. -/
def tensorOf (alg : BoolAlgebra m α) (shape : Shape) (elems : List α) :
    ExceptT Error m (Tensor α) :=
  liftM (Tensor.ofStorage shape (alg.vector elems))

def constant (alg : BoolAlgebra m α) (shape : Shape) (value : Bool) :
    ExceptT Error m (Tensor α) := do
  let elem ← alg.lift value
  liftM (Tensor.constant shape elem alg.kind)

/-- The tensor of a constant with dimensions that are looked at once the constant is made. -/
def constantOf (alg : BoolAlgebra m α) (dims : List Int) (value : Bool) :
    ExceptT Error m (Tensor α) := do
  let elem ← alg.lift value
  liftM (do Tensor.constant (← Shape.ofInts dims) elem alg.kind)

def scalar (alg : BoolAlgebra m α) (value : Bool) : ExceptT Error m (Tensor α) :=
  alg.constant Shape.scalar value

/-- Puts `elem` into each cell of a square tensor whose coordinates agree. -/
def markDiagonal (dim : Nat) (elem : α) (elems : Storage α) : Except Error (Storage α) :=
  (List.range dim).foldlM (fun elems (i : Nat) => elems.set (i * (dim + 1) : Nat) elem) elems

/-- The square tensor that is true where the coordinates agree, and false elsewhere. -/
def diagonal (alg : BoolAlgebra m α) (dim : Int) : ExceptT Error m (Tensor α) := do
  let shape ← liftM (Shape.ofInts [dim, dim])
  let tensor ← alg.constant shape false
  let unit ← alg.unit
  let elems ← liftM (markDiagonal dim.toNat unit tensor.elems)
  return { tensor with elems := elems }

/-- The diagonal of a square of which a tensor is there already. So its cells have been counted, and
there is nothing to refuse it for. -/
def countedDiagonal (alg : BoolAlgebra m α) (dim : Nat) : ExceptT Error m (Tensor α) := do
  let zero ← alg.zero
  let unit ← alg.unit
  return Tensor.marked alg.kind dim zero unit

def tensorNot (alg : BoolAlgebra m α) (t : Tensor α) : ExceptT Error m (Tensor α) := do
  let elems ← liftM (t.elems.toList.mapM alg.neg)
  alg.tensorOf t.shape elems

def tensorGate (alg : BoolAlgebra m α) (gate : Gate) (t u : Tensor α) :
    ExceptT Error m (Tensor α) := do
  checkShapes t u
  let elems ← liftM ((t.elems.toList.zip u.elems.toList).mapM fun (a, b) => alg.gate gate a b)
  alg.tensorOf t.shape elems

/-- The cells of `t` from which the gate along the first dimension computes cell `i`. -/
def firstAxisBlock (t : Tensor α) (head i : Nat) : Except Error (Thunk (List α)) :=
  t.elems.range (i * head : Nat) (i * head + head : Nat)

/-- A gate on the cells along the first dimension. -/
def tensorReduce (alg : BoolAlgebra m α) (reduction : Reduction) (t : Tensor α) :
    ExceptT Error m (Tensor α) := do
  let (head, rest) ← liftM t.shape.splitFirst
  let elems ← (List.range rest.size).mapM fun i => do
    alg.reduce reduction (← liftM (firstAxisBlock t head i))
  alg.tensorOf rest elems

end BoolAlgebra

end BoolTensor
