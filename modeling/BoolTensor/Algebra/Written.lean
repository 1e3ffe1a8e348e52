import BoolTensor.Algebra.Basic

/-!
# The algebra of written formulas

The elements are formulas in writing. Only the primitive gates have signs of their own, so the text
of a derived gate shows what it is made of.

## Main definitions

* `writtenNegation`, `writtenPair`: a formula with a sign ahead, and two with a sign between them
* `writtenAlgebra`: the algebra of formulas, on dense vectors
-/

namespace BoolTensor

/-- A formula behind a tilde. Only texts can be extended, so other cells are refused. -/
def writtenNegation : Cell → Except Error Cell
  | .text formula => .ok (.text ("~" ++ formula))
  | cell => .error (.joinedType cell.elementType)

/-- Two formulas in parentheses, with a sign between them; other cells stand as they are shown. -/
def writtenPair (sign : String) (a b : Cell) : Cell :=
  .text ("(" ++ a.display ++ sign ++ b.display ++ ")")

/-- The algebra of formulas: digits for the constants, a tilde for negation, a bar and a caret for
the two disjunctions. -/
def writtenAlgebra : BoolAlgebra (Except Error) Cell :=
  .ofPrimitives .dense
    (fun value => .ok (.text (if value then "1" else "0")))
    writtenNegation
    (fun a b => .ok (writtenPair "|" a b))
    (fun a b => .ok (writtenPair "^" a b))

end BoolTensor
