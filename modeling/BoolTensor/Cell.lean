import BoolTensor.Number.Shortest
import BoolTensor.Text.Quoted

/-!
# Elements

What a vector may hold. `Element` is the interface that storage needs of an element type: how an
element counts when only its truth is kept, and what is read back where its value was not kept.
`Cell` is the element type of vectors that mix scalars of several types.

## Main definitions

* `Element`: element types that every kind of storage can hold
* `Cell`: a scalar, with its truth, sameness and text
* `ElementType`, `Cell.elementType`: the types of elements

## Design notes

Truth values count as the integers 0 and 1 when cells are compared, and numbers of both kinds are
compared by value, so `Cell.same` is coarser than equality of cells.
-/

namespace BoolTensor

/-- Element types that every kind of storage can hold. -/
class Element (α : Type) where
  /-- Whether the element counts as true where one bit of it is kept. -/
  truth : α → Bool
  /-- The element that a kept bit stands for. -/
  ofTruth : Bool → α
  /-- The element that stands where nothing is kept. -/
  blank : α
  /-- Whether two elements are the same for the comparison of vectors. -/
  same : α → α → Bool
  /-- The element as printed vectors show it. -/
  text : α → String

/-- How a truth value is printed. -/
def truthText (value : Bool) : String :=
  if value then "True" else "False"

instance : Element Bool where
  truth := id
  ofTruth := id
  blank := false
  same := (· == ·)
  text := truthText

instance : Element Unit where
  truth _ := false
  ofTruth _ := ()
  blank := ()
  same _ _ := true
  text _ := "None"

instance : Element Int where
  truth value := value != 0
  ofTruth bit := if bit then 1 else 0
  blank := 0
  same := (· == ·)
  text := toString

inductive ElementType where
  | truth
  /-- Truth values as arrays hold them. -/
  | arrayTruth
  /-- The placeholder. -/
  | null
  | int
  | float
  | text
  | list
  /-- A type that nothing is known about. -/
  | marker
  deriving DecidableEq, Repr

/-- The name under which elements of a type are refused. -/
def ElementType.title : ElementType → String
  | truth => "bool"
  | arrayTruth => "numpy.bool"
  | null => "NoneType"
  | int => "int"
  | float => "float"
  | text => "str"
  | list => "list"
  | marker => "Marker"

/-- A scalar. -/
inductive Cell where
  /-- The placeholder. -/
  | null
  | truth (value : Bool)
  | int (value : Int)
  | float (value : Binary64)
  | text (value : String)
  deriving DecidableEq, Repr

namespace Cell

/-- Whether a cell counts as true: zeros, the empty text and the placeholder do not. -/
def isTrue : Cell → Bool
  | null => false
  | truth value => value
  | int value => value != 0
  | float value => !value.isZero
  | text value => value != ""

/-- A cell as an integer, where it is one; truth values are 0 and 1. -/
def integer? : Cell → Option Int
  | truth value => some value.toNat
  | int value => some value
  | _ => none

/-- Whether two cells are the same: numbers by value, truth values among them, and all others as
they are. -/
def same : Cell → Cell → Bool
  | float x, float y => x.same y
  | float x, cell => cell.integer?.any x.sameInteger
  | cell, float y => cell.integer?.any y.sameInteger
  | a, b =>
    match a.integer?, b.integer? with
    | some m, some n => m == n
    | none, none => a == b
    | _, _ => false

def elementType : Cell → ElementType
  | null => .null
  | truth _ => .truth
  | int _ => .int
  | float _ => .float
  | text _ => .text

/-- A cell as printed vectors show it. -/
def render : Cell → String
  | null => "None"
  | truth value => truthText value
  | int value => toString value
  | float value => value.decimal
  | text value => Text.quotedText value

/-- A cell by itself in a line: a text stands as it is. -/
def display : Cell → String
  | text value => value
  | cell => cell.render

end Cell

instance : Element Cell where
  truth := Cell.isTrue
  ofTruth := Cell.truth
  blank := Cell.null
  same := Cell.same
  text := Cell.render

end BoolTensor
