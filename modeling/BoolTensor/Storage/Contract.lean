import BoolTensor.Cell
import BoolTensor.Error

/-!
# The sequence contract

A storage kind supplies a few primitives (`Sequence`); every bulk operation has a meaning in terms
of them, given here element by element. The kinds with a bulk operation of their own must agree
with these.

## Main definitions

* `Sequence`: the primitives of a storage kind
* `Sequence.extend`, `Sequence.ofList`, `Sequence.concat`, `Sequence.split`, `Sequence.append`,
  `Sequence.range`, `Sequence.gather`, `Sequence.copy`, `Sequence.same`: the bulk operations in
  terms of the primitives
* `keptLength`: how many elements stay when a vector is cut

## Design notes

`read` and `write` are for callers that know the place to exist, so they have no failure; `get` and
`set` test the place first. The other vector of a bulk operation may be of another kind, hence it
comes as the list of its elements.
-/

namespace BoolTensor

/-- The primitives that a storage kind `V` for elements of type `α` supplies. -/
class Sequence (V : Type) (α : outParam Type) where
  empty : V
  /-- A vector without elements that has room for some. -/
  withCapacity : Int → V
  length : V → Nat
  toList : V → List α
  /-- The number of elements for which there is room. -/
  capacity : V → Nat
  /-- The element at a place that exists. -/
  read : V → Nat → α
  /-- Replaces the element at a place that exists. -/
  write : V → Nat → α → V
  clear : V → V
  /-- Keeps the first elements. -/
  truncate : V → Int → Except Error V
  /-- Keeps the first elements, or adds copies of one at the end. -/
  resize : V → Int → α → Except Error V
  /-- Makes room for further elements. -/
  reserve : V → Int → V
  push : V → α → V
  /-- Takes the last element off. -/
  pop : V → Except Error (α × V)

/-- How many of `length` elements stay when a vector is cut at `cut`; a cut below zero counts back
from the end. -/
def keptLength (length : Nat) (cut : Int) : Nat :=
  if cut < 0 then (length + cut).toNat else min length cut.toNat

/-- The first `count` chunks of `size` elements. -/
def chunks {α : Type} (size : Nat) : Nat → List α → List (List α)
  | 0, _ => []
  | count + 1, elems => elems.take size :: chunks size count (elems.drop size)

/-- Refuses an index that is no place of a vector of this length. -/
def checkIndex (length : Nat) (index : Int) : Except Error Nat :=
  if 0 ≤ index ∧ index < length then .ok index.toNat else .error (.indexOutOfRange index length)

/-- Refuses a range that does not lie inside a vector of this length. -/
def checkRange (length : Nat) (start stop : Int) : Except Error (Nat × Nat) :=
  if 0 ≤ start ∧ start ≤ stop ∧ stop ≤ length then .ok (start.toNat, stop.toNat)
  else .error (.rangeOutOfBounds start stop length)

/-- Refuses chunks without elements. -/
def checkChunk (size : Int) : Except Error Nat :=
  if size ≤ 0 then .error (.chunkLength size) else .ok size.toNat

namespace Sequence

variable {V W α β : Type} [Sequence V α] [Sequence W β]

def get (v : V) (index : Int) : Except Error α := do
  let place ← checkIndex (length v) index
  return read v place

def set (v : V) (index : Int) (elem : α) : Except Error V := do
  let place ← checkIndex (length v) index
  return write v place elem

/-- Adds elements at the end, one after the other. -/
def extend (v : V) (elems : List α) : V :=
  elems.foldl push v

def ofList (elems : List α) : V :=
  extend empty elems

def fromElem (elem : α) : V :=
  push (withCapacity 1) elem

/-- All elements of all parts, in a vector with room for them. -/
def concat (parts : List (List α)) : V :=
  parts.foldl extend (withCapacity ((parts.map List.length).foldr (· + ·) 0 : Nat))

/-- Consecutive vectors of `size` elements; a shorter remainder is dropped. -/
def split (v : V) (size : Int) : Except Error (List V) := do
  if length v = 0 then return []
  let size ← checkChunk size
  return (chunks size (length v / size) (toList v)).map ofList

/-- Moves the elements of `other` onto the end of `v`. -/
def append [Sequence W α] (v : V) (other : W) : V × W :=
  (extend v (toList other), clear other)

/-- The elements at the places from `start` up to and without `stop`. -/
def range (v : V) (start stop : Int) : Except Error (List α) := do
  let (start, stop) ← checkRange (length v) start stop
  return ((toList v).take stop).drop start

def gather (v : V) (indices : List Int) : V :=
  ofList (indices.map fun index => read v index.toNat)

def copy (v : V) : V :=
  ofList (toList v)

/-- Whether two vectors of one kind have the same elements. -/
def same [Element α] (v w : V) : Bool :=
  length v == length w && ((toList v).zip (toList w)).all fun (a, b) => Element.same a b

end Sequence

end BoolTensor
