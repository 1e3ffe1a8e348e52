import BoolTensor.Limits
import BoolTensor.Storage.Contract

/-!
# Counted vectors

Vectors of placeholders: nothing distinguishes the elements, so their number is all that is kept
and every bulk operation is arithmetic on it.

## Main definitions

* `Count`, its instance of `Sequence`, and its bulk operations
* `Count.limit`: the capacity that every counted vector reports
-/

namespace BoolTensor

/-- A vector of placeholders. -/
structure Count where
  length : Nat
  deriving DecidableEq, Repr

namespace Count

/-- The room in every counted vector. -/
def limit : Nat := indexLimit

def truncate (v : Count) (newLength : Int) : Except Error Count :=
  if newLength > v.length then .error (.truncateBeyondEnd v.length newLength)
  else .ok ⟨newLength.toNat⟩

/-- Any length is kept, even one that cannot be counted. -/
def withLength (_ : Count) (newLength : Int) : Count :=
  ⟨newLength.toNat⟩

def pop (v : Count) : Except Error (Unit × Count) :=
  if v.length = 0 then .error .emptyVector else .ok ((), ⟨v.length - 1⟩)

instance : Sequence Count Unit where
  empty := ⟨0⟩
  withCapacity _ := ⟨0⟩
  length := length
  toList v := List.replicate v.length ()
  capacity _ := limit
  read _ _ := ()
  write v _ _ := v
  clear _ := ⟨0⟩
  truncate := truncate
  resize v newLength _ := .ok (v.withLength newLength)
  reserve v _ := v
  push v _ := ⟨v.length + 1⟩
  pop := pop

/-- Adds as many elements as the other vector has. -/
def extend (v : Count) (added : Nat) : Count :=
  ⟨v.length + added⟩

/-- Consecutive vectors of `size` elements; a shorter remainder is dropped. -/
def split (v : Count) (size : Int) : Except Error (List Count) := do
  if v.length = 0 then return []
  let size ← checkChunk size
  return List.replicate (v.length / size) ⟨size⟩

end Count

end BoolTensor
