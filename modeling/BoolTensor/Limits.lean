import BoolTensor.Error

/-!
# Limits of the machine

Indices into sequences, dimensions and integer entries of arrays are signed integers of 64 bits,
arrays have a bounded number of dimensions, the memory of an array is counted in the same integers,
and floating-point numbers end where their exponent does.

## Main definitions

* `indexLimit`, `placeOf`: the largest index, and the place that an index names
* `checkCount`: whether so many elements can be counted
* `rankLimit`, `checkArray`: the largest number of dimensions, and whether there can be an array
* `arrayDims`: the dimensions that an array of so many entries gets
* `Binary64.ofInteger`, `Binary64.quotient`: floating-point numbers, unless they would be infinite

## Design notes

A dimension of zero leaves an array without entries, but the other dimensions are held to the limits
all the same: their product counts up to the first zero where the number of entries is compared, and
without the zeros where room is made for the array.
-/

namespace BoolTensor

/-- The largest signed integer of 64 bits. -/
def indexLimit : Nat := 0x7fffffffffffffff

/-- Whether a signed integer of 64 bits holds a value. -/
def isIndex (value : Int) : Bool :=
  -(indexLimit : Int) - 1 ≤ value && value ≤ indexLimit

/-- The place that an index names in a sequence of this length; below zero it counts back from the
end. Where there is no such place, `missing` says so, unless no machine word holds the index. -/
def placeOf (length : Nat) (index : Int) (missing : Error) : Except Error Nat :=
  let place := if index < 0 then length + index else index
  if 0 ≤ place ∧ place < length then .ok place.toNat
  else .error (if isIndex index then missing else .indexTooWide)

/-- Refuses a number of elements that no machine word holds; `failure` says what for it is asked. -/
def checkCount (count : Int) (failure : Error) : Except Error Unit :=
  if count ≤ indexLimit then .ok () else .error failure

/-- Refuses integers that are no entries of an array. -/
def checkEntries (values : List Int) : Except Error Unit :=
  if values.all isIndex then .ok () else .error .entryTooWide

/-- The largest number of dimensions of an array. -/
def rankLimit : Nat := 64

/-- A size times dimensions, the first one first, unless it passes the limit on the way. -/
def boundedProduct (size : Nat) (dims : List Nat) : Option Nat :=
  dims.foldlM (fun product dim =>
    if product * dim ≤ indexLimit then some (product * dim) else none) size

/-- Refuses dimensions that no machine word holds, and too many of them. -/
def checkDims (dims : List Int) : Except Error Unit :=
  if dims.length > rankLimit then .error (.tooManyDimensions rankLimit dims.length)
  else if !dims.all isIndex then .error .dimensionTooLarge
  else .ok ()

/-- Refuses an array of these dimensions, with so many bytes for an entry, if there can be none. -/
def checkArray (entrySize : Nat) (dims : List Int) : Except Error Unit := do
  checkDims dims
  if dims.any (· < 0) then throw .negativeArrayDimension
  -- An array without entries can be too large because of its other dimensions.
  if (boundedProduct entrySize ((dims.filter (· ≠ 0)).map Int.toNat)).isNone then
    throw .arrayTooLarge

/-- The dimensions with a size in the place of open ones. -/
def closed (dims : List Int) (size : Nat) : List Nat :=
  dims.map fun dim => if dim < 0 then size else dim.toNat

/-- The dimensions of an array of `count` entries, as asked for; a dimension below zero is open, and
takes the size that is left for it. An entry takes one byte. -/
def arrayDims (count : Nat) (dims : List Int) : Except Error (List Nat) := do
  checkDims dims
  let openCount := dims.countP (· < 0)
  if openCount > 1 then throw .severalOpenDimensions
  match boundedProduct 1 (closed dims 1) with
  | none => throw (.entryCount count dims)
  | some known =>
    let size := if openCount = 0 then 1 else count / known
    -- With a zero among the other dimensions any size would do for the open one.
    if known * size ≠ count ∨ (openCount = 1 ∧ known = 0) then throw (.entryCount count dims)
    let dims := closed dims size
    checkArray 1 (dims.map Int.ofNat)
    return dims

namespace Binary64

/-- A number that is finite, or a failure. -/
def finiteOr (failure : Error) : Binary64 → Except Error Binary64
  | infinity _ => .error failure
  | number => .ok number

def ofInteger (value : Int) : Except Error Binary64 :=
  finiteOr .integerTooLarge (ofInt value)

def quotient (num den : Int) : Except Error Binary64 :=
  if den = 0 then .error .zeroDivisor else finiteOr .quotientTooLarge (ofQuotient num den)

end Binary64

end BoolTensor
