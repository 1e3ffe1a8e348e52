import BoolTensor.Storage.Basic

/-!
# Banks of vectors

Several vectors that operations may name by handle. The handle is a vector's identity: two vectors
with the same elements are still two, and only a vector named twice is refused where its elements
would be moved onto itself.

## Main definitions

* `Bank`, `Bank.Handle`: the vectors, and how one of them is named
* `Bank.add`, `Bank.find`, `Bank.replace`: a new vector, a look-up, an update
* `Bank.append`: moving the elements of one vector onto another
-/

namespace BoolTensor

/-- Vectors by handle. -/
structure Bank (α : Type) where
  /-- The vectors, oldest first. -/
  vectors : Array (Storage α)
  deriving Repr

namespace Bank

/-- The name of a vector in a bank. -/
abbrev Handle := Nat

variable {α : Type} [Element α]

def empty : Bank α := ⟨#[]⟩

/-- Adds a vector and gives its handle. -/
def add (bank : Bank α) (vector : Storage α) : Bank α × Handle :=
  let handle := bank.vectors.size
  (⟨bank.vectors.push vector⟩, handle)

def find (bank : Bank α) (handle : Handle) : Storage α :=
  bank.vectors.getD handle (.empty .dense)

def replace (bank : Bank α) (handle : Handle) (vector : Storage α) : Bank α :=
  ⟨bank.vectors.setIfInBounds handle vector⟩

/-- Moves the elements of the vector `other` onto the end of the vector `target`. -/
def append (bank : Bank α) (target other : Handle) : Except Error (Bank α) :=
  if target = other then .error .appendToItself
  else
    let (extended, emptied) := (bank.find target).append (bank.find other)
    .ok ((bank.replace target extended).replace other emptied)

end Bank

end BoolTensor
