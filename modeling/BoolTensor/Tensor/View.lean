import BoolTensor.Storage.Bank
import BoolTensor.Tensor.Basic

/-!
# Tensors over a bank

A tensor that lives in a bank is a shape with the handle of its vector. Views with the same handle
share their cells: a cell set through one of them changes in all.

## Main definitions

* `View`: a shape and a handle
* `Bank.tensor`, `Bank.view`, `Bank.addTensor`: the tensor of a view, a checked view of a vector,
  and a view of a new vector
* `Bank.setCell`: one cell set through a view
-/

namespace BoolTensor

/-- A tensor whose cells are a vector of a bank. -/
structure View where
  shape : Shape
  /-- The vector of the cells. -/
  handle : Bank.Handle
  deriving Repr

namespace Bank

variable {α : Type} [Element α]

/-- The tensor that a view shows. -/
def tensor (bank : Bank α) (view : View) : Tensor α :=
  ⟨view.shape, bank.find view.handle⟩

/-- A vector of the bank as the cells of a shape. -/
def view (bank : Bank α) (shape : Shape) (handle : Handle) : Except Error View := do
  (bank.find handle).checkLength
  let _ ← Tensor.ofStorage shape (bank.find handle)
  return ⟨shape, handle⟩

/-- Adds the cells of a tensor as a new vector. -/
def addTensor (bank : Bank α) (t : Tensor α) : Bank α × View :=
  let (bank, handle) := bank.add t.elems
  (bank, ⟨t.shape, handle⟩)

def setCell (bank : Bank α) (view : View) (coords : List Int) (elem : α) :
    Except Error (Bank α) := do
  let t ← (bank.tensor view).set coords elem
  return bank.replace view.handle t.elems

end Bank

end BoolTensor
