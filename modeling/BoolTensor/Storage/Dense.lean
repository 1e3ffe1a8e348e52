import BoolTensor.Limits
import BoolTensor.Storage.Contract

/-!
# Dense vectors

One stored element per place, with the room that was asked for kept beside the elements.

## Main definitions

* `Dense`: the vector, with `Dense.capacity` as the larger of its length and the room reserved
* the instance of `Sequence`, and the bulk operations that work on the stored array at once

## Design notes

The room reserved is the length at construction or what `withCapacity` and `reserve` ask for. It
never shrinks, and elements beyond it do not raise it.
-/

namespace BoolTensor

/-- A vector that stores each element. -/
structure Dense (α : Type) where
  cells : Array α
  /-- The number of elements for which room was asked. -/
  reserved : Nat
  deriving Repr

namespace Dense

variable {α : Type}

/-- The vector of these elements, with room for no more. -/
def ofArray (cells : Array α) : Dense α :=
  ⟨cells, cells.size⟩

/-- The vector of these elements, with room for no more. -/
def ofList (elems : List α) : Dense α :=
  ofArray elems.toArray

def toList (v : Dense α) : List α :=
  v.cells.toList

def capacity (v : Dense α) : Nat :=
  max v.reserved v.cells.size

/-- Keeps the first elements; a length below zero counts back from the end. -/
def truncate (v : Dense α) (newLength : Int) : Except Error (Dense α) :=
  if newLength > v.cells.size then .error (.truncateBeyondEnd v.cells.size newLength)
  else .ok ⟨v.cells.take (keptLength v.cells.size newLength), v.reserved⟩

/-- The vector with copies of `elem` up to another length, or with its first elements only. -/
def withLength (v : Dense α) (newLength : Int) (elem : α) : Dense α :=
  if newLength > v.cells.size then
    ⟨v.cells ++ Array.replicate (newLength.toNat - v.cells.size) elem, v.reserved⟩
  else ⟨v.cells.take (keptLength v.cells.size newLength), v.reserved⟩

/-- Adds copies of `elem` up to the new length, or keeps the first elements. The copies are counted
before one is added. -/
def resize (v : Dense α) (newLength : Int) (elem : α) : Except Error (Dense α) := do
  checkCount (newLength - v.cells.size) .countTooWide
  return v.withLength newLength elem

/-- Asks for room for further elements. -/
def reserve (v : Dense α) (additional : Int) : Dense α :=
  ⟨v.cells, max v.reserved (v.cells.size + additional).toNat⟩

def pop (v : Dense α) : Except Error (α × Dense α) :=
  match v.cells.back? with
  | none => .error .emptyVector
  | some elem => .ok (elem, ⟨v.cells.pop, v.reserved⟩)

instance [Element α] : Sequence (Dense α) α where
  empty := ⟨#[], 0⟩
  withCapacity room := ⟨#[], room.toNat⟩
  length v := v.cells.size
  toList := toList
  capacity := capacity
  read v place := v.cells.getD place Element.blank
  write v place elem := ⟨v.cells.setIfInBounds place elem, v.reserved⟩
  clear v := ⟨#[], v.reserved⟩
  truncate := truncate
  resize := resize
  reserve := reserve
  push v elem := ⟨v.cells.push elem, v.reserved⟩
  pop := pop

def extend (v : Dense α) (elems : List α) : Dense α :=
  ⟨v.cells ++ elems.toArray, v.reserved⟩

def slice (v : Dense α) (start stop : Nat) : List α :=
  (v.cells.extract start stop).toList

/-- Consecutive vectors of `size` elements, each with room for no more; a shorter remainder is
dropped. -/
def split (v : Dense α) (size : Int) : Except Error (List (Dense α)) := do
  if v.cells.size = 0 then return []
  let size ← checkChunk size
  return (chunks size (v.cells.size / size) v.toList).map ofList

def gather [Element α] (v : Dense α) (indices : List Int) : Dense α :=
  ofList (indices.map fun index => v.cells.getD index.toNat Element.blank)

/-- A vector of the same elements, with room for no more. -/
def copy (v : Dense α) : Dense α :=
  ofArray v.cells

end Dense

end BoolTensor
