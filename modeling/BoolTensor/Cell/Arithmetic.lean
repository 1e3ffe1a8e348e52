import BoolTensor.Limits
import BoolTensor.Number.Summation
import BoolTensor.Text.Integer

/-!
# Arithmetic on cells

Sums, signs and conversions of cells. Truth values count as 0 and 1 and integers become
floating-point numbers where they meet one; what an operation has no use for is refused, with the
types of its operands.

## Main definitions

* `Cell.add`, `Cell.total`: sums, from the left
* `Cell.negate`, `Cell.magnitude`: a number with the other sign, and without its sign
* `Cell.integerFor`, `Cell.isOdd`, `Cell.atLeastTwo`, `Cell.exceeds`: what is asked of numbers
* `Cell.toInteger`: the integer that a cell is converted to
-/

namespace BoolTensor

namespace Cell

/-- Whether a cell is a number; truth values are. -/
def isNumber : Cell → Bool
  | null => false
  | text _ => false
  | _ => true

/-- A number as a floating-point number. -/
def toFloat : Cell → Except Error Binary64
  | float value => .ok value
  | cell => Binary64.ofInteger (cell.integer?.getD 0)

/-- The sum of two cells; texts are joined. -/
def add (a b : Cell) : Except Error Cell :=
  match a, b with
  | text x, text y => .ok (text (x ++ y))
  | text _, _ => .error (.joinedType b.elementType)
  | _, _ =>
    match a.integer?, b.integer? with
    | some m, some n => .ok (int (m + n))
    | _, _ =>
      if a.isNumber && b.isNumber then do return float ((← a.toFloat).add (← b.toFloat))
      else .error (.operandTypes "+" a.elementType b.elementType)

/-- The sum of cells, added to zero one after the other. -/
def total (cells : List Cell) : Except Error Cell :=
  cells.foldlM add (int 0)

/-- A number with the other sign. -/
def negate : Cell → Except Error Cell
  | float value => .ok (float value.negate)
  | cell =>
    match cell.integer? with
    | some value => .ok (int (-value))
    | none => .error (.operandType "unary -" cell.elementType)

/-- A number without its sign. -/
def magnitude : Cell → Except Error Cell
  | float value => .ok (float value.absolute)
  | cell =>
    match cell.integer? with
    | some value => .ok (int value.natAbs)
    | none => .error (.operandType "abs()" cell.elementType)

/-- The integer that a cell is, as the operator asks for that also takes an integer. -/
def integerFor (operator : String) (cell : Cell) : Except Error Int :=
  match cell.integer? with
  | some value => .ok value
  | none => .error (.operandTypes operator cell.elementType .int)

def isOdd (cell : Cell) : Except Error Bool := do
  return (← cell.integerFor "&") % 2 == 1

/-- How a number lies to an integer; nothing for what cannot be compared. -/
def compareInteger (value : Int) : Cell → Option Ordering
  | float x => x.compareInteger value
  | cell => cell.integer?.map (compare · value)

def atLeastTwo : Cell → Except Error Bool
  | null => .error (.unordered ">=" .null .int)
  | text _ => .error (.unordered ">=" .text .int)
  | cell => .ok ((cell.compareInteger 2).any Ordering.isGE)

/-- Whether a number without its sign is above a count. -/
def exceeds (cell : Cell) (count : Nat) : Except Error Bool := do
  return (← cell.magnitude).compareInteger count == some .gt

/-- Refuses cells that name no place in a sequence. -/
def checkPlace (cell : Cell) : Except Error Unit :=
  match cell.integer? with
  | some _ => .ok ()
  | none => .error (.placeType cell.elementType)

def textToInteger (text : String) : Except Error Int :=
  match Text.readInteger text with
  | .ok value => .ok value
  | .error .malformed => .error (.integerText text)
  | .error (.tooLong digits) => .error (.integerDigits Text.maxDigits digits)

/-- The integer that a cell is converted to: the whole part of a number, and what a text stands
for. -/
def toInteger : Cell → Except Error Int
  | null => .error (.integerType .null)
  | truth value => .ok value.toNat
  | int value => .ok value
  | float (.infinity _) => .error .infiniteInteger
  | float (.nan _) => .error .undefinedInteger
  | float value => .ok value.wholePart
  | text value => textToInteger value

end Cell

end BoolTensor
