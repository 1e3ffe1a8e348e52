import BoolTensor.Program.Circuit
import BoolTensor.Program.Tensor
import BoolTensor.Program.Vector

/-!
# Memory of programs

What a program computes does not depend on the memory there is. A machine that runs it refuses a
step that asks for more elements at once than it can hold; the checks here tell it so before the
step runs, and tell nothing else that the step itself would not. What cannot even be counted is left
to the step.

## Main definitions

* `memoryLimit`: the memory for a single vector or array
* `Storage.checkCopies`: whether there is room for copies of an element
* `VectorStep.checkMemory`, `TensorStep.checkMemory`, `CircuitStep.checkMemory`: whether there is
  room for what a step makes
-/

namespace BoolTensor

/-- The most bytes that a single vector or array may take. -/
def memoryLimit : Nat := 1 <<< 40

/-- The number of bytes that a stored element takes. -/
def elementBytes : Nat := 8

/-- Refuses an array of this many entries if there is no memory for it. -/
def checkEntryMemory (entryBytes count : Nat) (entryType : String) : Except Error Unit :=
  if entryBytes * count ≤ memoryLimit then .ok ()
  else .error (.noMemory (entryBytes * count) count entryType)

/-- Refuses a packed vector of this length if there is no memory for its words. -/
def checkWordMemory (length : Int) : Except Error Unit := do
  Storage.checkRoom .packed length
  checkEntryMemory wordBytes (wordCount length.toNat) "uint32"

/-- Refuses to add copies of an element, up to a length, if there is no memory for them. -/
def Storage.checkCopies (kind : Kind) (length added : Int) : Except Error Unit :=
  match kind with
  | .packed => checkWordMemory length
  | .counted => .ok ()
  | .dense | .plain =>
    if added ≤ indexLimit ∧ elementBytes * added > memoryLimit then .error .outOfMemory else .ok ()

/-- Refuses a tensor of copies of an element if there is no memory for them. -/
def checkFilled (kind : Kind) (dims : List Int) : Except Error Unit :=
  match Shape.ofInts dims with
  | .ok shape => Storage.checkCopies kind shape.size shape.size
  | .error _ => .ok ()

/-- Whether there is room for what an operation on vectors makes. -/
def VectorStep.checkMemory {α : Type} [Element α] (step : VectorStep α) (r : Registers α) :
    Except Error Unit :=
  match step with
  | withCapacity kind room => Storage.checkCopies kind room 0
  | resize v newLength _ =>
    Storage.checkCopies (r.vector v).kind (max 0 newLength) (newLength - (r.vector v).length)
  | reserve v additional =>
    Storage.checkCopies (r.vector v).kind (max 0 ((r.vector v).length + additional)) 0
  | _ => .ok ()

/-- Whether there is room for what an operation on tensors makes. -/
def TensorStep.checkMemory {α : Type} (step : TensorStep α) : Except Error Unit :=
  match step with
  | constant dims _ kind => checkFilled kind dims
  | _ => .ok ()

/-- Whether there is room for the result of a gate along the first dimension of a whole array. -/
def Tensor.checkReduceMemory {α : Type} [Element α] (t : Tensor α) : Except Error Unit := do
  let (head, rest) ← t.shape.splitFirst
  let _ ← arrayDims t.elems.length [(rest.size : Int), head]
  checkEntryMemory 1 rest.size "bool"

/-- Whether there is room for what a circuit makes; `kind` is that of constant tensors, and
`wholeArrays` tells how tensors are computed. -/
def CircuitStep.checkMemory {α : Type} [Element α] (kind : Kind) (wholeArrays : Bool)
    (step : CircuitStep α) (r : Registers α) : Except Error Unit :=
  match step with
  | constant dims _ => checkFilled kind dims
  | diagonal dim => checkFilled kind [dim, dim]
  | tensorReduce _ t => if wholeArrays then (r.tensor t).checkReduceMemory else .ok ()
  | _ => .ok ()

end BoolTensor
