import BoolTensor.Algebra.Basic
import BoolTensor.Cell.Arithmetic

/-!
# The algebra of truth

Gates that compute at once, on packed vectors. On truth values they are the Boolean gates. On other
elements they go by truth: a disjunction is its first operand where that is true, and the second
one otherwise; sameness is compared, and where true elements are counted the elements are added up,
which some elements refuse.

## Main definitions

* `Gate.eval`, `Reduction.eval`: what the gates compute on truth values
* `Tally`: elements that can be added up, in a monad
* `truthAlgebra`: the gates on elements
* `truthAlgebra_gate`, `truthAlgebra_reduce`: on truth values the algebra computes just these
-/

namespace BoolTensor

/-- The value of a gate on two truth values. -/
def Gate.eval : Gate → Bool → Bool → Bool
  | or, a, b => a || b
  | and, a, b => a && b
  | xor, a, b => a != b
  | equ, a, b => a == b
  | imp, a, b => !a || b

/-- The value of a gate on a list of truth values. -/
def Reduction.eval : Reduction → List Bool → Bool
  | all, values => values.all id
  | any, values => values.any id
  | sum, values => values.count true % 2 == 1

/-- Elements that can be added up. -/
class Tally (m : Type → Type) (α : Type) where
  atLeastTwo : α → α → α → m Bool
  isOddOfThree : α → α → α → m Bool
  isOdd : List α → m Bool

instance {m : Type → Type} [Monad m] : Tally m Bool where
  atLeastTwo a b c := pure ([a, b, c].count true ≥ 2)
  isOddOfThree a b c := pure (Reduction.sum.eval [a, b, c])
  isOdd values := pure (Reduction.sum.eval values)

instance : Tally (Except Error) Cell where
  atLeastTwo a b c := do (← (← a.add b).add c).atLeastTwo
  isOddOfThree a b c := do (← (← a.add b).add c).isOdd
  isOdd cells := do (← Cell.total cells).isOdd

section Elements

variable {m : Type → Type} [Monad m] {α : Type} [Element α]

/-- The element that a gate gives, one of the two operands or a truth value. -/
def Gate.choose : Gate → α → α → α
  | or, a, b => if Element.truth a then a else b
  | and, a, b => if Element.truth a then b else a
  | xor, a, b => Element.ofTruth !(Element.same a b)
  | equ, a, b => Element.ofTruth (Element.same a b)
  | imp, a, b => if Element.truth a then b else Element.ofTruth true

variable [Tally m α]

/-- The truth value that a gate gives on a list of elements. -/
def Reduction.judge : Reduction → List α → m Bool
  | all, elems => pure (elems.all Element.truth)
  | any, elems => pure (elems.any Element.truth)
  | sum, elems => Tally.isOdd elems

/-- The algebra of elements by their truth. -/
def truthAlgebra : BoolAlgebra m α where
  kind := .packed
  lift value := pure (Element.ofTruth value)
  neg a := pure (Element.ofTruth !(Element.truth a))
  gate gate a b := pure (gate.choose a b)
  maj a b c := Element.ofTruth <$> Tally.atLeastTwo a b c
  sum3 a b c := Element.ofTruth <$> Tally.isOddOfThree a b c
  reduce reduction elems := Element.ofTruth <$> reduction.judge elems.get

end Elements

/-- On truth values a gate gives the value that it is defined to have. -/
theorem truthAlgebra_gate {m : Type → Type} [Monad m] (gate : Gate) (a b : Bool) :
    (truthAlgebra : BoolAlgebra m Bool).gate gate a b = pure (gate.eval a b) := by
  cases gate <;> cases a <;> cases b <;> rfl

/-- On truth values a gate on a list gives the value that it is defined to have. -/
theorem truthAlgebra_reduce {m : Type → Type} [Monad m] [LawfulMonad m] (reduction : Reduction)
    (values : Thunk (List Bool)) :
    (truthAlgebra : BoolAlgebra m Bool).reduce reduction values
      = pure (reduction.eval values.get) := by
  cases reduction <;> exact map_pure _ _

end BoolTensor
