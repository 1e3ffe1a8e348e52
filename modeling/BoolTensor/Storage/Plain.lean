import BoolTensor.Limits
import BoolTensor.Storage.Contract

/-!
# Plain vectors

A growable list of elements with the primitives of the contract and nothing more: every bulk
operation on it is the one that `Sequence` derives.

## Main definitions

* `Plain`, and its instance of `Sequence`
-/

namespace BoolTensor

/-- A vector with the primitives of the contract only. -/
structure Plain (α : Type) where
  cells : Array α
  deriving Repr

namespace Plain

variable {α : Type}

def truncate (v : Plain α) (newLength : Int) : Except Error (Plain α) :=
  if newLength > v.cells.size then .error .truncatePlainBeyondEnd
  else .ok ⟨v.cells.take (keptLength v.cells.size newLength)⟩

/-- The vector with copies of `elem` up to another length, or with its first elements only. -/
def withLength (v : Plain α) (newLength : Int) (elem : α) : Plain α :=
  if newLength > v.cells.size then
    ⟨v.cells ++ Array.replicate (newLength.toNat - v.cells.size) elem⟩
  else ⟨v.cells.take (keptLength v.cells.size newLength)⟩

def resize (v : Plain α) (newLength : Int) (elem : α) : Except Error (Plain α) := do
  checkCount (newLength - v.cells.size) .lengthTooWide
  return v.withLength newLength elem

def pop (v : Plain α) : Except Error (α × Plain α) :=
  match v.cells.back? with
  | none => .error .emptyPlainVector
  | some elem => .ok (elem, ⟨v.cells.pop⟩)

instance [Element α] : Sequence (Plain α) α where
  empty := ⟨#[]⟩
  withCapacity _ := ⟨#[]⟩
  length v := v.cells.size
  toList v := v.cells.toList
  capacity v := v.cells.size
  read v place := v.cells.getD place Element.blank
  write v place elem := ⟨v.cells.setIfInBounds place elem⟩
  clear _ := ⟨#[]⟩
  truncate := truncate
  resize := resize
  reserve v _ := v
  push v elem := ⟨v.cells.push elem⟩
  pop := pop

end Plain

end BoolTensor
