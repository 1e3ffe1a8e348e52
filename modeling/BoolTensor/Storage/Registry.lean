import BoolTensor.Storage.Basic

/-!
# Choice of storage by element type

A registry says which kind of vector stores elements of a type. Truth values are packed and
placeholders counted from the start, everything else is stored densely, and a later registration
takes the place of an earlier one.

## Main definitions

* `Registry`, `Registry.kindOf`, `Registry.register`: the choice and its change
-/

namespace BoolTensor

/-- Which kind of vector stores elements of a type. -/
structure Registry where
  /-- The choices made, latest first. -/
  choices : List (ElementType × Kind)
  deriving Repr

namespace Registry

/-- Truth values are packed and placeholders counted. -/
def initial : Registry :=
  ⟨[(.truth, .packed), (.arrayTruth, .packed), (.null, .counted)]⟩

def kindOf (registry : Registry) (type : ElementType) : Kind :=
  (registry.choices.lookup type).getD .dense

/-- Chooses the kind of vector for elements of a type. -/
def register (registry : Registry) (type : ElementType) (kind : Kind) : Registry :=
  ⟨(type, kind) :: registry.choices⟩

end Registry

end BoolTensor
