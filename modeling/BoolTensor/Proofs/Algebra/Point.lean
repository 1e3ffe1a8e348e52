import BoolTensor.Algebra.Point
import BoolTensor.Proofs.Algebra.Reading

/-!
# One element read as any truth value

The gates of the algebra of one element give what may be read as any value, theirs included. In a
vector of it only the length is left to read.

## Main definitions

* `Reading.point`: the one element, read as any truth value
-/

namespace BoolTensor

namespace Reading

/-- The one element may be read as any truth value. -/
def point (kind : Kind) : Reading Unit Unit where
  kind := kind
  valid _ := True
  grows _ _ := True
  reads _ _ _ := True
  grows_refl _ := trivial
  grows_trans _ _ := trivial
  valid_of_grows _ _ := trivial
  reads_of_grows _ _ := trivial

/-- Gates that look at nothing give what may be read as their values. -/
theorem point_realizes {m : Type → Type} [Monad m] [Runs m Unit] (kind : Kind) :
    (point kind).Realizes ({ pointAlgebra with kind := kind } : BoolAlgebra m Unit) where
  kind_eq := rfl
  lift _ _ _ := .pure trivial
  neg _ _ _ _ _ := .pure trivial
  gate _ _ _ _ _ _ _ _ _ := .pure trivial
  maj _ _ _ _ _ _ _ _ _ _ _ := .pure trivial
  sum3 _ _ _ _ _ _ _ _ _ _ _ := .pure trivial
  reduce _ _ _ _ _ _ := .pure trivial
  keeps _ _ _ _ := trivial

/-- As many elements may be read as given truth values. -/
theorem readsList_point_iff {kind : Kind} {elems : List Unit} {values : List Bool} :
    (point kind).ReadsList () elems values ↔ elems.length = values.length :=
  ⟨List.Forall₂.length_eq, fun h => List.forall₂_iff_get.2 ⟨h, fun _ _ _ => trivial⟩⟩

end Reading

end BoolTensor
