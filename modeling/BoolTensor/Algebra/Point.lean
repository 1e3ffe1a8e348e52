import BoolTensor.Algebra.Basic

/-!
# The algebra of one element

Every gate gives the same element, without looking at its arguments. A computation over it checks
lengths and shapes and costs nothing else.

## Main definitions

* `pointAlgebra`: the algebra of the blank element, on counted vectors
-/

namespace BoolTensor

/-- The algebra whose gates all give the blank element. -/
def pointAlgebra {m : Type → Type} [Monad m] {α : Type} [Element α] : BoolAlgebra m α where
  kind := .counted
  lift _ := pure Element.blank
  neg _ := pure Element.blank
  gate _ _ _ := pure Element.blank
  maj _ _ _ := pure Element.blank
  sum3 _ _ _ := pure Element.blank
  reduce _ _ := pure Element.blank

end BoolTensor
