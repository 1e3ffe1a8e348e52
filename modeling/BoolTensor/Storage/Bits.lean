import BoolTensor.Limits
import BoolTensor.Storage.Contract
import BoolTensor.Storage.Word

/-!
# Packed vectors

Vectors of truth values with one bit per element. The words may hold more bits than the vector has
elements; the bits from the length on are zero, which lets a new `false` be added without writing
and lets whole words be compared.

## Main definitions

* `Bits`: the words and the length
* `Bits.WellFormed`: the elements fit into the words, and the bits after them are zero
* `Bits.grow`: room for further elements, at least twice the words there were
* the instance of `Sequence`, and the bulk operations, which pack anew into as many words as needed
-/

namespace BoolTensor

/-- A packed vector of truth values. -/
structure Bits where
  /-- The words that hold the elements, lowest first. -/
  words : Array UInt32
  length : Nat
  deriving DecidableEq, Repr

namespace Bits

/-- The elements fit into the words, and every bit after them is zero. -/
def WellFormed (v : Bits) : Prop :=
  v.length ≤ wordBits * v.words.size ∧
    ∀ place, v.length ≤ place → Words.bit v.words place = false

/-- The vector without elements and without words. -/
def empty : Bits := ⟨#[], 0⟩

/-- The vector of these elements, in as many words as they need. -/
def ofArray (elems : Array Bool) : Bits :=
  ⟨Words.pack elems, elems.size⟩

def ofList (elems : List Bool) : Bits :=
  ofArray elems.toArray

def toList (v : Bits) : List Bool :=
  Words.slice v.words 0 v.length

/-- The number of elements that the words can hold. -/
def capacity (v : Bits) : Nat :=
  v.words.size * wordBits

/-- Adds zero words where `newLength` elements do not fit: as many as they need, and at least as
many as there are. -/
def grow (words : Array UInt32) (newLength : Nat) : Array UInt32 :=
  if wordCount newLength > words.size then
    words ++ Array.replicate (max (wordCount newLength) (2 * words.size) - words.size) 0
  else words

/-- Keeps the first elements of a vector that has them. -/
def cut (v : Bits) (newLength : Nat) : Bits :=
  ⟨Words.keep v.words newLength, newLength⟩

def truncate (v : Bits) (newLength : Int) : Except Error Bits :=
  if newLength > v.length then .error (.truncateBeyondEnd v.length newLength)
  else .ok (v.cut newLength.toNat)

/-- Refuses room for so many elements where no array can hold the words that they need. -/
def checkRoom (length : Int) : Except Error Unit :=
  checkArray wordBytes [(length + (wordBits - 1 : Nat)) / wordBits]

/-- The vector with copies of `value` up to another length, or with its first elements only. -/
def withLength (v : Bits) (newLength : Int) (value : Bool) : Bits :=
  if newLength ≤ v.length then v.cut newLength.toNat
  else
    let words := grow v.words newLength.toNat
    -- The bits after the elements are zeros already.
    ⟨if value then Words.fill words v.length newLength.toNat else words, newLength.toNat⟩

/-- Adds copies of `value` up to the new length, or keeps the first elements. -/
def resize (v : Bits) (newLength : Int) (value : Bool) : Except Error Bits := do
  checkRoom (max 0 newLength)
  return v.withLength newLength value

/-- Adds an element at the end; a `false` is there already. -/
def push (v : Bits) (value : Bool) : Bits :=
  let words := grow v.words (v.length + 1)
  ⟨if value then Words.assign words v.length true else words, v.length + 1⟩

/-- Takes the last element off and clears its bit. -/
def pop (v : Bits) : Except Error (Bool × Bits) :=
  if v.length = 0 then .error .emptyVector
  else .ok (Words.bit v.words (v.length - 1),
    ⟨Words.assign v.words (v.length - 1) false, v.length - 1⟩)

instance : Sequence Bits Bool where
  empty := empty
  withCapacity room := ⟨Array.replicate (wordCount room.toNat) 0, 0⟩
  length := length
  toList := toList
  capacity := capacity
  read v place := Words.bit v.words place
  write v place value := ⟨Words.assign v.words place value, v.length⟩
  clear v := ⟨Array.replicate v.words.size 0, 0⟩
  truncate := truncate
  resize := resize
  reserve v additional := ⟨grow v.words (v.length + additional).toNat, v.length⟩
  push := push
  pop := pop

/-- Adds elements at the end and packs anew, unless there is nothing to add. -/
def extend (v : Bits) (elems : List Bool) : Bits :=
  if elems.isEmpty then v else ofList (v.toList ++ elems)

/-- All elements of all parts, packed together. -/
def concat (parts : List (List Bool)) : Bits :=
  ofList parts.flatten

def slice (v : Bits) (start stop : Nat) : List Bool :=
  Words.slice v.words start stop

/-- Consecutive vectors of `size` elements; a shorter remainder is dropped. They are cut from an
array of two dimensions, and the limits for these hold. -/
def split (v : Bits) (size : Int) : Except Error (List Bits) := do
  if v.length = 0 then return []
  let size ← checkChunk size
  -- The remainder is cut off first, so the entries always fit the two dimensions.
  let _ ← arrayDims (v.length / size * size) [(v.length / size : Nat), size]
  return (chunks size (v.length / size) v.toList).map ofList

def gather (v : Bits) (indices : List Int) : Bits :=
  ofList (indices.map fun index => Words.bit v.words index.toNat)

/-- Whether two vectors have the same length and agree in the words that hold their elements. -/
def same (v w : Bits) : Bool :=
  v.length == w.length &&
    v.words.extract 0 (wordCount v.length) == w.words.extract 0 (wordCount w.length)

end Bits

end BoolTensor
