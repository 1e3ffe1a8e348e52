import BoolTensor.Program.Registers

/-!
# Instructions on tensors

## Main definitions

* `TensorStep`: the operations on tensors that need no algebra, their operands named by number
* `TensorStep.run`: what an instruction does to the registers

## Design notes

Shapes come as lists of integers and are checked first. Joining changes the shape of a tensor in its
place and `set` one of its cells; the other operations leave their tensors as they are.
-/

namespace BoolTensor

inductive TensorStep (α : Type) where
  /-- A vector as the cells of a shape. -/
  | ofVector (dims : List Int) (v : Bank.Handle)
  | constant (dims : List Int) (elem : α) (kind : Kind)
  | ofList (dims : List Int) (cells : List α) (kind : Kind)
  /-- The entries of a row-major array. -/
  | ofArray (dims : List Int) (data : List Bool)
  | get (t : Nat) (coords : List Int)
  | set (t : Nat) (coords : List Int) (elem : α)
  /-- The cells reindexed by a mapping of dimensions. -/
  | polymer (t : Nat) (dims mapping : List Int)
  /-- The first dimensions joined, in place. -/
  | join (t : Nat) (count : Int)
  | copy (t : Nat)
  | elems (t : Nat)
  | shape (t : Nat)
  | same (t u : Nat)
  | render (t : Nat)
  /-- The truth of the cells, as a row-major array. -/
  | toArray (t : Nat)
  deriving Repr

/-- What an operation does; where it fails the registers stay as they are. -/
def TensorStep.run {α : Type} [Element α] (step : TensorStep α) (r : Registers α) :
    Except Error (Outcome α × Registers α) :=
  match step with
  | ofVector dims v => do return r.addView (← r.bank.view (← Shape.ofInts dims) v)
  | constant dims elem kind => do
    return r.addTensor (← Tensor.constant (← Shape.ofInts dims) elem kind)
  | ofList dims cells kind => do
    return r.addTensor (← Tensor.ofList (← Shape.ofInts dims) cells kind)
  | ofArray dims data => do
    return r.addTensor (← (← TruthArray.ofInts dims data).toTensor)
  | get t coords => ((r.tensor t).get coords).map fun elem => (.element elem, r)
  | set t coords elem =>
    (r.bank.setCell (r.view t) coords elem).map fun bank => (.nothing, { r with bank := bank })
  | polymer t dims mapping => do
    return r.addTensor (← (r.tensor t).polymer (← Shape.ofInts dims) mapping)
  | join t count =>
    ((r.view t).shape.join count).map fun shape =>
      (.nothing, { r with views := r.views.setIfInBounds t { r.view t with shape := shape } })
  | copy t => .ok (r.addTensor (r.tensor t).copy)
  | elems t => .ok (.vector (r.view t).handle, r)
  | shape t => .ok (.shape (r.view t).shape, r)
  | same t u => .ok (.truth ((r.tensor t).same (r.tensor u)), r)
  | render t => .ok (.text (r.tensor t).render, r)
  | toArray t => do
    (r.tensor t).checkArray
    return (.array (r.tensor t).toTruthArray, r)

end BoolTensor
