import BoolTensor.Storage.Basic

/-!
# Boolean algebras

The gates from which every circuit of the library is built. A gate may act on a state (an algebra of
literals allocates variables and records clauses), so the gates are operations of a monad.

## Main definitions

* `BoolAlgebra`: the gates on the elements of one algebra, with the storage of its vectors
* `BoolAlgebra.ofPrimitives`: all gates from constants, negation, disjunction and exclusive
  disjunction
* `Gate`, `Reduction`: the two-place gates and the gates on any number of elements, as data
* `SatAlgebra`: an algebra whose elements are constrained by clauses and valued by a model

## Design notes

The elements for a gate on any number of them come as a `Thunk`: an algebra that has no use for
them never builds their list.
-/

namespace BoolTensor

inductive Gate where
  | or
  | and
  | xor
  | equ
  | imp
  deriving DecidableEq, Repr

inductive Reduction where
  | all
  | any
  /-- An odd number of them is true. -/
  | sum
  deriving DecidableEq, Repr

/-- The gates of a Boolean algebra with elements of type `α`. -/
structure BoolAlgebra (m : Type → Type) (α : Type) where
  /-- How vectors of elements are stored. -/
  kind : Kind
  lift : Bool → m α
  neg : α → m α
  gate : Gate → α → α → m α
  maj : α → α → α → m α
  /-- The parity of three elements. -/
  sum3 : α → α → α → m α
  reduce : Reduction → Thunk (List α) → m α

namespace BoolAlgebra

variable {m : Type → Type} {α : Type}

def zero (alg : BoolAlgebra m α) : m α :=
  alg.lift false

def unit (alg : BoolAlgebra m α) : m α :=
  alg.lift true

/-- The vector of these elements, stored as the algebra stores them. -/
def vector [Element α] (alg : BoolAlgebra m α) (elems : List α) : Storage α :=
  .ofList alg.kind elems

variable [Monad m]

/-- A gate on any number of elements: one on two elements, applied from `start` on. -/
def foldGate (start : m α) (gate : α → α → m α) (elems : Thunk (List α)) : m α := do
  elems.get.foldlM gate (← start)

/-- The gates on any number of elements from gates on two. -/
def reduceBy (lift : Bool → m α) (gate : Gate → α → α → m α) : Reduction → Thunk (List α) → m α
  | .all => foldGate (lift true) (gate .and)
  | .any => foldGate (lift false) (gate .or)
  | .sum => foldGate (lift false) (gate .xor)

/-- The gates on two elements from negation, disjunction and exclusive disjunction. -/
def gateBy (neg : α → m α) (or xor : α → α → m α) : Gate → α → α → m α
  | .or, a, b => or a b
  | .xor, a, b => xor a b
  | .imp, a, b => do or (← neg a) b
  | .and, a, b => do
    let b ← neg b
    let a ← neg a
    neg (← or a b)
  | .equ, a, b => do xor (← neg a) b

/-- The algebra with all gates derived from constants, negation, disjunction and exclusive
disjunction. -/
def ofPrimitives (kind : Kind) (lift : Bool → m α) (neg : α → m α) (or xor : α → α → m α) :
    BoolAlgebra m α :=
  let gate := gateBy neg or xor
  { kind := kind
    lift := lift
    neg := neg
    gate := gate
    maj := fun a b c => do
      let both ← gate .and a b
      let either ← or a b
      or both (← gate .and c either)
    sum3 := fun a b c => do xor (← xor a b) c
    reduce := reduceBy lift gate }

end BoolAlgebra

/-- A Boolean algebra over variables, with clauses that constrain them and models that value
them. -/
structure SatAlgebra (m : Type → Type) (α : Type) extends BoolAlgebra m α where
  /-- A new element that nothing constrains. -/
  addVariable : m α
  /-- Demands that one of the elements is true. -/
  addClause : List α → ExceptT Error m Unit
  /-- Looks for a model in which all clauses and the given elements are true. -/
  findModel : List α → ExceptT Error m Bool
  /-- The value of an element in the model found last. -/
  value : α → ExceptT Error m Bool

end BoolTensor
