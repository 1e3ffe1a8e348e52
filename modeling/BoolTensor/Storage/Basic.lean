import BoolTensor.Storage.Bits
import BoolTensor.Storage.Count
import BoolTensor.Storage.Dense
import BoolTensor.Storage.Plain

/-!
# Storage

One vector type over the four representations. The view of a vector is `Storage.toList`, the list
of elements that it reads back; a packed vector keeps of each element only its truth, a counted one
nothing.

## Main definitions

* `Kind`, `Kind.keeps`: the representations, and what each keeps of an element
* `Storage`: a vector in one of them
* `Storage.toList`, `Storage.truths`: its elements, and whether they count as true
* constructors by kind, and the operations of the contract on any vector

## Design notes

Counted vectors may be as long as any number, so no operation on them builds their list of
elements; the range of a vector is a `Thunk` for the same reason. A length beyond the index limit
cannot be asked for, though: `checkLength` refuses it where a tensor is made of the vector, and
what else asks for it is spoken of for countable vectors only.
-/

namespace BoolTensor

/-- How a vector represents its elements. -/
inductive Kind where
  /-- Each element is stored. -/
  | dense
  /-- One bit of each element is stored. -/
  | packed
  /-- Only the number of elements is stored. -/
  | counted
  /-- Each element is stored, in a vector with the primitives only. -/
  | plain
  deriving DecidableEq, Repr

/-- The name that printed vectors carry. -/
def Kind.title : Kind → String
  | dense => "DenseVector"
  | packed => "BitVector"
  | counted => "UnitVector"
  | plain => "BasicVector"

/-- What a vector of this kind reads back for an element put into it. -/
def Kind.keeps {α : Type} [Element α] (kind : Kind) (elem : α) : α :=
  match kind with
  | dense => elem
  | packed => Element.ofTruth (Element.truth elem)
  | counted => Element.blank
  | plain => elem

/-- A vector in one of the representations. -/
inductive Storage (α : Type) where
  | dense (vector : Dense α)
  | packed (vector : Bits)
  | counted (vector : Count)
  | plain (vector : Plain α)
  deriving Repr

namespace Storage

variable {α : Type} [Element α]

def kind : Storage α → Kind
  | dense _ => .dense
  | packed _ => .packed
  | counted _ => .counted
  | plain _ => .plain

def length : Storage α → Nat
  | dense v => Sequence.length v
  | packed v => Sequence.length v
  | counted v => Sequence.length v
  | plain v => Sequence.length v

def capacity : Storage α → Nat
  | dense v => Sequence.capacity v
  | packed v => Sequence.capacity v
  | counted v => Sequence.capacity v
  | plain v => Sequence.capacity v

def toList : Storage α → List α
  | dense v => v.toList
  | packed v => v.toList.map Element.ofTruth
  | counted v => List.replicate v.length Element.blank
  | plain v => v.cells.toList

/-- Whether each element counts as true, in order. -/
def truths : Storage α → List Bool
  | packed v => v.toList
  | v => v.toList.map Element.truth

def isEmpty (v : Storage α) : Bool :=
  v.length == 0

/-! ### Construction -/

def empty : Kind → Storage α
  | .dense => dense Sequence.empty
  | .packed => packed Sequence.empty
  | .counted => counted Sequence.empty
  | .plain => plain Sequence.empty

/-- A vector without elements that has room for some. -/
def withCapacity (kind : Kind) (room : Int) : Storage α :=
  match kind with
  | .dense => dense (Sequence.withCapacity room)
  | .packed => packed (Sequence.withCapacity room)
  | .counted => counted (Sequence.withCapacity room)
  | .plain => plain (Sequence.withCapacity room)

/-- Refuses room for so many elements where no array can hold the words that they need. -/
def checkRoom (kind : Kind) (length : Int) : Except Error Unit :=
  match kind with
  | .packed => Bits.checkRoom length
  | _ => .ok ()

/-- Refuses a vector whose length no machine word holds. -/
def checkLength (v : Storage α) : Except Error Unit :=
  checkCount v.length .lengthTooWide

def ofList (kind : Kind) (elems : List α) : Storage α :=
  match kind with
  | .dense => dense (Dense.ofList elems)
  | .packed => packed (Bits.ofList (elems.map Element.truth))
  | .counted => counted ⟨elems.length⟩
  | .plain => plain (Sequence.ofList elems)

def fromElem (kind : Kind) (elem : α) : Storage α :=
  match kind with
  | .dense => dense (Sequence.fromElem elem)
  | .packed => packed (Sequence.fromElem (Element.truth elem))
  | .counted => counted (Sequence.fromElem ())
  | .plain => plain (Sequence.fromElem elem)

/-- All elements of all parts; the parts may be of any kind. -/
def concat (kind : Kind) (parts : List (Storage α)) : Storage α :=
  match kind with
  | .dense =>
    dense ((parts.map toList).foldl Dense.extend
      (Sequence.withCapacity ((parts.map length).foldr (· + ·) 0 : Nat)))
  | .packed => packed (Bits.concat (parts.map truths))
  | .counted => counted ⟨(parts.map length).foldr (· + ·) 0⟩
  | .plain => plain (Sequence.concat (parts.map toList))

/-- The counted vector of a given length. -/
def ofLength (length : Nat) : Storage α :=
  counted ⟨length⟩

/-! ### Single elements -/

def read (v : Storage α) (place : Nat) : α :=
  match v with
  | dense v => Sequence.read v place
  | packed v => Element.ofTruth (Sequence.read v place)
  | counted _ => Element.blank
  | plain v => Sequence.read v place

def write (v : Storage α) (place : Nat) (elem : α) : Storage α :=
  match v with
  | dense v => dense (Sequence.write v place elem)
  | packed v => packed (Sequence.write v place (Element.truth elem))
  | counted v => counted v
  | plain v => plain (Sequence.write v place elem)

def get (v : Storage α) (index : Int) : Except Error α := do
  let place ← checkIndex v.length index
  return v.read place

def set (v : Storage α) (index : Int) (elem : α) : Except Error (Storage α) := do
  let place ← checkIndex v.length index
  return v.write place elem

def push (v : Storage α) (elem : α) : Storage α :=
  match v with
  | dense v => dense (Sequence.push v elem)
  | packed v => packed (Sequence.push v (Element.truth elem))
  | counted v => counted (Sequence.push v ())
  | plain v => plain (Sequence.push v elem)

def pop (v : Storage α) : Except Error (α × Storage α) :=
  match v with
  | dense v => (Sequence.pop v).map fun (elem, v) => (elem, dense v)
  | packed v => (Sequence.pop v).map fun (value, v) => (Element.ofTruth value, packed v)
  | counted v => (Sequence.pop v).map fun (_, v) => (Element.blank, counted v)
  | plain v => (Sequence.pop v).map fun (elem, v) => (elem, plain v)

/-! ### Length and room -/

def clear : Storage α → Storage α
  | dense v => dense (Sequence.clear v)
  | packed v => packed (Sequence.clear v)
  | counted v => counted (Sequence.clear v)
  | plain v => plain (Sequence.clear v)

/-- Keeps the first elements. -/
def truncate (v : Storage α) (newLength : Int) : Except Error (Storage α) :=
  match v with
  | dense v => (Sequence.truncate v newLength).map dense
  | packed v => (Sequence.truncate v newLength).map packed
  | counted v => (Sequence.truncate v newLength).map counted
  | plain v => (Sequence.truncate v newLength).map plain

/-- The vector with copies of `elem` up to another length, or with its first elements only. -/
def withLength (v : Storage α) (newLength : Int) (elem : α) : Storage α :=
  match v with
  | dense v => dense (v.withLength newLength elem)
  | packed v => packed (v.withLength newLength (Element.truth elem))
  | counted v => counted (v.withLength newLength)
  | plain v => plain (v.withLength newLength elem)

/-- Adds copies of `elem` up to the new length, or keeps the first elements. -/
def resize (v : Storage α) (newLength : Int) (elem : α) : Except Error (Storage α) :=
  match v with
  | dense v => (Sequence.resize v newLength elem).map dense
  | packed v => (Sequence.resize v newLength (Element.truth elem)).map packed
  | counted v => (Sequence.resize v newLength ()).map counted
  | plain v => (Sequence.resize v newLength elem).map plain

/-- Makes room for further elements. -/
def reserve (v : Storage α) (additional : Int) : Storage α :=
  match v with
  | dense v => dense (Sequence.reserve v additional)
  | packed v => packed (Sequence.reserve v additional)
  | counted v => counted (Sequence.reserve v additional)
  | plain v => plain (Sequence.reserve v additional)

/-! ### Whole vectors -/

def extend (v : Storage α) (elems : List α) : Storage α :=
  match v with
  | dense v => dense (v.extend elems)
  | packed v => packed (v.extend (elems.map Element.truth))
  | counted v => counted (v.extend elems.length)
  | plain v => plain (Sequence.extend v elems)

def extendFrom (v other : Storage α) : Storage α :=
  match v with
  | dense v => dense (v.extend other.toList)
  | packed v => packed (v.extend other.truths)
  | counted v => counted (v.extend other.length)
  | plain v => plain (Sequence.extend v other.toList)

/-- Moves the elements of another vector onto the end of this one. -/
def append (v other : Storage α) : Storage α × Storage α :=
  (v.extendFrom other, other.clear)

/-- Consecutive vectors of `size` elements; a shorter remainder is dropped. -/
def split (v : Storage α) (size : Int) : Except Error (List (Storage α)) :=
  match v with
  | dense v => (v.split size).map (List.map dense)
  | packed v => (v.split size).map (List.map packed)
  | counted v => (v.split size).map (List.map counted)
  | plain v => (Sequence.split v size).map (List.map plain)

/-- The elements from `start` up to and without `stop`, both inside the vector. -/
def slice (v : Storage α) (start stop : Nat) : List α :=
  match v with
  | dense v => v.slice start stop
  | packed v => (v.slice start stop).map Element.ofTruth
  | counted _ => List.replicate (stop - start) Element.blank
  | plain v => (v.cells.toList.take stop).drop start

/-- The elements from `start` up to and without `stop`, built when they are used. -/
def range (v : Storage α) (start stop : Int) : Except Error (Thunk (List α)) := do
  let (start, stop) ← checkRange v.length start stop
  return Thunk.mk fun _ => v.slice start stop

/-- The vector of the elements at the listed places, of the same kind. -/
def gather (v : Storage α) (indices : List Int) : Storage α :=
  match v with
  | dense v => dense (v.gather indices)
  | packed v => packed (v.gather indices)
  | counted _ => counted ⟨indices.length⟩
  | plain v => plain (Sequence.gather v indices)

/-- A vector of the same kind and elements. -/
def copy : Storage α → Storage α
  | dense v => dense v.copy
  | packed v => packed v
  | counted v => counted v
  | plain v => plain (Sequence.copy v)

/-- Whether two vectors are of one kind and have the same elements. -/
def same : Storage α → Storage α → Bool
  | dense v, dense w => Sequence.same v w
  | packed v, packed w => v.same w
  | counted v, counted w => v.length == w.length
  | plain v, plain w => Sequence.same v w
  | _, _ => false

def render (v : Storage α) : String :=
  match v with
  | counted v => Kind.counted.title ++ "(len=" ++ toString v.length ++ ")"
  | v => v.kind.title ++ "(" ++ bracketed (v.toList.map Element.text) ++ ")"

end Storage

end BoolTensor
