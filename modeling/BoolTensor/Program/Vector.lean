import BoolTensor.Program.Registers

/-!
# Instructions on vectors

## Main definitions

* `VectorStep`: the operations on vectors, their operands named by handle
* `VectorStep.run`: what an instruction does to the registers
-/

namespace BoolTensor

inductive VectorStep (α : Type) where
  | empty (kind : Kind)
  /-- A vector without elements that has room for some. -/
  | withCapacity (kind : Kind) (room : Int)
  | fromElem (kind : Kind) (elem : α)
  | ofList (kind : Kind) (elems : List α)
  /-- A packed vector of the entries of a row-major array. -/
  | ofArray (dims : List Int) (data : List Bool)
  | concat (kind : Kind) (parts : List Bank.Handle)
  /-- A counted vector. -/
  | ofLength (count : Nat)
  /-- Consecutive vectors of one length. -/
  | split (v : Bank.Handle) (size : Int)
  | push (v : Bank.Handle) (elem : α)
  | pop (v : Bank.Handle)
  | get (v : Bank.Handle) (index : Int)
  | set (v : Bank.Handle) (index : Int) (elem : α)
  /-- The element at a place that exists, without a check. -/
  | read (v : Bank.Handle) (place : Nat)
  /-- Another element at a place that exists, without a check. -/
  | write (v : Bank.Handle) (place : Nat) (elem : α)
  /-- Another length, with copies of an element where the vector grows. -/
  | resize (v : Bank.Handle) (newLength : Int) (elem : α)
  | truncate (v : Bank.Handle) (newLength : Int)
  | clear (v : Bank.Handle)
  | reserve (v : Bank.Handle) (additional : Int)
  /-- The elements of another vector moved onto the end. -/
  | append (v other : Bank.Handle)
  | extend (v : Bank.Handle) (elems : List α)
  | extendFrom (v other : Bank.Handle)
  | copy (v : Bank.Handle)
  | isEmpty (v : Bank.Handle)
  | length (v : Bank.Handle)
  | toList (v : Bank.Handle)
  | range (v : Bank.Handle) (start stop : Int)
  | gather (v : Bank.Handle) (indices : List Int)
  | same (v w : Bank.Handle)
  | render (v : Bank.Handle)
  /-- The number of elements for which there is room. -/
  | capacity (v : Bank.Handle)
  /-- The truth of the elements, as an array. -/
  | toArray (v : Bank.Handle)
  deriving Repr

/-- What an operation does; where it fails the registers stay as they are. -/
def VectorStep.run {α : Type} [Element α] (step : VectorStep α) (r : Registers α) :
    Except Error (Outcome α × Registers α) :=
  match step with
  | empty kind => .ok (r.addVector (.empty kind))
  | withCapacity kind room => do
    Storage.checkRoom kind room
    return r.addVector (.withCapacity kind room)
  | fromElem kind elem => .ok (r.addVector (.fromElem kind elem))
  | ofList kind elems => .ok (r.addVector (.ofList kind elems))
  | ofArray dims data => do
    return r.addVector (.packed (.ofList (← TruthArray.ofInts dims data).data))
  | concat kind parts => .ok (r.addVector (.concat kind (parts.map r.vector)))
  | ofLength count => .ok (r.addVector (.ofLength count))
  | split v size => ((r.vector v).split size).map r.addVectors
  | push v elem => .ok (r.replace v ((r.vector v).push elem))
  | pop v => (r.vector v).pop.map fun (elem, rest) => (.element elem, (r.replace v rest).2)
  | get v index => ((r.vector v).get index).map fun elem => (.element elem, r)
  | set v index elem => ((r.vector v).set index elem).map (r.replace v)
  | read v place => .ok (.element ((r.vector v).read place), r)
  | write v place elem => .ok (r.replace v ((r.vector v).write place elem))
  | resize v newLength elem => ((r.vector v).resize newLength elem).map (r.replace v)
  | truncate v newLength => ((r.vector v).truncate newLength).map (r.replace v)
  | clear v => .ok (r.replace v (r.vector v).clear)
  | reserve v additional => do
    Storage.checkRoom (r.vector v).kind (max 0 ((r.vector v).length + additional))
    return r.replace v ((r.vector v).reserve additional)
  | append v other => (r.bank.append v other).map fun bank => (.nothing, { r with bank := bank })
  | extend v elems => .ok (r.replace v ((r.vector v).extend elems))
  | extendFrom v other => .ok (r.replace v ((r.vector v).extendFrom (r.vector other)))
  | copy v => .ok (r.addVector (r.vector v).copy)
  | isEmpty v => .ok (.truth (r.vector v).isEmpty, r)
  | length v => .ok (.count (r.vector v).length, r)
  | toList v => .ok (.elements (r.vector v).toList, r)
  | range v start stop =>
    ((r.vector v).range start stop).map fun elems => (.elements elems.get, r)
  | gather v indices => .ok (r.addVector ((r.vector v).gather indices))
  | same v w => .ok (.truth ((r.vector v).same (r.vector w)), r)
  | render v => .ok (.text (r.vector v).render, r)
  | capacity v => .ok (.count (r.vector v).capacity, r)
  | toArray v => .ok (.array ⟨[(r.vector v).length], (r.vector v).truths⟩, r)

end BoolTensor
