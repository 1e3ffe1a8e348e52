import BoolTensor.Circuit.Binary
import BoolTensor.Circuit.Packed
import BoolTensor.Program.Registers

/-!
# Instructions of circuits

Gates on single elements, on vectors and on tensors, for any algebra. The same program runs over
every algebra, which is how runs over two of them can be compared.

## Main definitions

* `GateStep`, `GateStep.run`: a gate on single elements
* `TensorGates`: the gates on tensors, cell by cell or on whole arrays
* `CircuitStep`, `CircuitStep.run`: circuits on vectors and tensors, and what they do to the
  registers
* `CircuitStep.map`: the same circuit over another algebra
-/

namespace BoolTensor

inductive GateStep (ρ : Type) where
  | lift (value : Bool)
  | neg (a : ρ)
  | gate (gate : Gate) (a b : ρ)
  | maj (a b c : ρ)
  | sum3 (a b c : ρ)
  | reduce (reduction : Reduction) (elems : List ρ)
  deriving Repr

def GateStep.operands {ρ : Type} : GateStep ρ → List ρ
  | lift _ => []
  | neg a => [a]
  | gate _ a b => [a, b]
  | maj a b c => [a, b, c]
  | sum3 a b c => [a, b, c]
  | reduce _ elems => elems

/-- The same gate with other operands. -/
def GateStep.mapM {m : Type → Type} [Monad m] {ρ α : Type} (f : ρ → m α) :
    GateStep ρ → m (GateStep α)
  | lift value => return lift value
  | neg a => return neg (← f a)
  | gate g a b => return gate g (← f a) (← f b)
  | maj a b c => return maj (← f a) (← f b) (← f c)
  | sum3 a b c => return sum3 (← f a) (← f b) (← f c)
  | reduce reduction elems => return reduce reduction (← elems.mapM f)

/-- The element that a gate gives. -/
def GateStep.run {m : Type → Type} {α : Type} (alg : BoolAlgebra m α) : GateStep α → m α
  | lift value => alg.lift value
  | neg a => alg.neg a
  | gate g a b => alg.gate g a b
  | maj a b c => alg.maj a b c
  | sum3 a b c => alg.sum3 a b c
  | reduce reduction elems => alg.reduce reduction (Thunk.mk fun _ => elems)

structure TensorGates (m : Type → Type) (α : Type) where
  not : Tensor α → ExceptT Error m (Tensor α)
  gate : Gate → Tensor α → Tensor α → ExceptT Error m (Tensor α)
  /-- A gate on the cells along the first dimension. -/
  reduce : Reduction → Tensor α → ExceptT Error m (Tensor α)

/-- The gates on tensors cell by cell, over an algebra. -/
def BoolAlgebra.tensorGates {m : Type → Type} [Monad m] {α : Type} [Element α]
    (alg : BoolAlgebra m α) : TensorGates m α :=
  ⟨alg.tensorNot, alg.tensorGate, alg.tensorReduce⟩

/-- The gates on the truth of tensors as whole arrays. -/
def packedGates {m : Type → Type} [Monad m] {α : Type} [Element α] : TensorGates m α where
  not t := liftM t.packedNot
  gate g t u := liftM (t.packedGate g u)
  reduce reduction t := liftM (t.packedReduce reduction)

inductive Comparison where
  | eq
  | ne
  | le
  | lt
  deriving DecidableEq, Repr

/-- A circuit on vectors or tensors. -/
inductive CircuitStep (α : Type) where
  /-- A vector as the algebra stores it. -/
  | vector (elems : List α)
  /-- A tensor whose cells are stored as the algebra stores them. -/
  | tensor (dims : List Int) (elems : List α)
  | concat (parts : List Bank.Handle)
  /-- Consecutive vectors of one length. -/
  | split (v : Bank.Handle) (size : Int)
  | bitLift (values : List Bool)
  | bitNot (v : Bank.Handle)
  | bitGate (gate : Gate) (v w : Bank.Handle)
  /-- A gate on all bits. -/
  | bitReduce (reduction : Reduction) (v : Bank.Handle)
  /-- The lowest bits of an integer. -/
  | numLift (length value : Int)
  | numNeg (v : Bank.Handle)
  | numAdd (v w : Bank.Handle)
  | numSub (v w : Bank.Handle)
  | compare (comparison : Comparison) (v w : Bank.Handle)
  | scalar (value : Bool)
  | constant (dims : List Int) (value : Bool)
  /-- The square tensor that is true where the coordinates agree. -/
  | diagonal (dim : Int)
  /-- The cells reindexed by a mapping of dimensions. -/
  | polymer (t : Nat) (dims mapping : List Int)
  /-- The first dimensions of a copy joined. -/
  | joined (t : Nat) (count : Int)
  | get (t : Nat) (coords : List Int)
  | set (t : Nat) (coords : List Int) (elem : α)
  | tensorNot (t : Nat)
  | tensorGate (gate : Gate) (t u : Nat)
  /-- A gate on the cells along the first dimension. -/
  | tensorReduce (reduction : Reduction) (t : Nat)
  deriving Repr

/-- The same circuit with other elements. -/
def CircuitStep.map {α β : Type} (f : α → β) : CircuitStep α → CircuitStep β
  | vector elems => vector (elems.map f)
  | tensor dims elems => tensor dims (elems.map f)
  | concat parts => concat parts
  | split v size => split v size
  | bitLift values => bitLift values
  | bitNot v => bitNot v
  | bitGate g v w => bitGate g v w
  | bitReduce reduction v => bitReduce reduction v
  | numLift length value => numLift length value
  | numNeg v => numNeg v
  | numAdd v w => numAdd v w
  | numSub v w => numSub v w
  | compare comparison v w => compare comparison v w
  | scalar value => scalar value
  | constant dims value => constant dims value
  | diagonal dim => diagonal dim
  | polymer t dims mapping => polymer t dims mapping
  | joined t count => joined t count
  | get t coords => get t coords
  | set t coords elem => set t coords (f elem)
  | tensorNot t => tensorNot t
  | tensorGate g t u => tensorGate g t u
  | tensorReduce reduction t => tensorReduce reduction t

variable {m : Type → Type} [Monad m] {α : Type} [Element α]

def BoolAlgebra.numCompare (alg : BoolAlgebra m α) :
    Comparison → Storage α → Storage α → ExceptT Error m (Storage α)
  | .eq => alg.numEq
  | .ne => alg.numNe
  | .le => alg.numLe
  | .lt => alg.numLt

/-- What a circuit does; where it fails the registers stay as they are. -/
def CircuitStep.run (alg : BoolAlgebra m α) (gates : TensorGates m α) (step : CircuitStep α)
    (r : Registers α) : ExceptT Error m (Outcome α × Registers α) :=
  match step with
  | vector elems => return r.addVector (alg.vector elems)
  | tensor dims elems => do
    return r.addTensor (← alg.tensorOf (← liftM (Shape.ofInts dims)) elems)
  | concat parts => return r.addVector (.concat alg.kind (parts.map r.vector))
  | split v size => do return r.addVectors (← liftM ((r.vector v).split size))
  | bitLift values => do return r.addVector (← alg.bitLift values)
  | bitNot v => do return r.addVector (← alg.bitNot (r.vector v))
  | bitGate g v w => do return r.addVector (← alg.bitGate g (r.vector v) (r.vector w))
  | bitReduce reduction v => do return r.addVector (← alg.bitReduce reduction (r.vector v))
  | numLift length value => do return r.addVector (← alg.numLift length value)
  | numNeg v => do return r.addVector (← alg.numNeg (r.vector v))
  | numAdd v w => do return r.addVector (← alg.numAdd (r.vector v) (r.vector w))
  | numSub v w => do return r.addVector (← alg.numSub (r.vector v) (r.vector w))
  | compare comparison v w => do
    return r.addVector (← alg.numCompare comparison (r.vector v) (r.vector w))
  | scalar value => do return r.addTensor (← alg.scalar value)
  | constant dims value => do return r.addTensor (← alg.constantOf dims value)
  | diagonal dim => do return r.addTensor (← alg.diagonal dim)
  | polymer t dims mapping => do
    return r.addTensor (← liftM ((r.tensor t).polymer (← liftM (Shape.ofInts dims)) mapping))
  | joined t count => do return r.addTensor (← liftM ((r.tensor t).copy.join count))
  | get t coords => do return (.element (← liftM ((r.tensor t).get coords)), r)
  | set t coords elem => do
    let bank ← liftM (r.bank.setCell (r.view t) coords elem)
    return (.nothing, { r with bank := bank })
  | tensorNot t => do return r.addTensor (← gates.not (r.tensor t))
  | tensorGate g t u => do return r.addTensor (← gates.gate g (r.tensor t) (r.tensor u))
  | tensorReduce reduction t => do return r.addTensor (← gates.reduce reduction (r.tensor t))

end BoolTensor
