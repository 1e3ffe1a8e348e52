import BoolTensor.Algebra.Basic

/-!
# Bit vectors and binary numbers

Vectors of algebra elements as bit vectors, and as numbers with the lowest bit first. A number of
`n` bits stands for its value modulo `2 ^ n`, in two's complement where it is negative.

## Main definitions

* `BoolAlgebra.bitLift`, `BoolAlgebra.bitNot`, `BoolAlgebra.bitGate`, `BoolAlgebra.bitReduce`:
  gates on all bits
* `BoolAlgebra.numLift`, `BoolAlgebra.numNeg`, `BoolAlgebra.numAdd`, `BoolAlgebra.numSub`:
  arithmetic by a carry that runs from the lowest bit up
* `BoolAlgebra.numEq`, `BoolAlgebra.numNe`, `BoolAlgebra.numLe`, `BoolAlgebra.numLt`: comparison of
  unsigned values, as vectors of one bit
* `numberBit`, `littleEndian`: the bits of an integer, and the value of bits
-/

namespace BoolTensor

/-- The bit of an integer at a place, in two's complement. -/
def numberBit (value : Int) (place : Nat) : Bool :=
  (value >>> place) % 2 == 1

/-- The value of bits, lowest first. -/
def littleEndian : List Bool → Nat
  | [] => 0
  | bit :: bits => bit.toNat + 2 * littleEndian bits

namespace BoolAlgebra

variable {m : Type → Type} [Monad m] {α : Type} [Element α]

def checkLengths (v w : Storage α) : ExceptT Error m Unit :=
  if v.length = w.length then pure () else throw (.operandLengths v.length w.length)

/-! ### Bit vectors -/

def bitLift (alg : BoolAlgebra m α) (values : List Bool) : m (Storage α) := do
  return alg.vector (← values.mapM alg.lift)

def bitNot (alg : BoolAlgebra m α) (v : Storage α) : m (Storage α) := do
  return alg.vector (← v.toList.mapM alg.neg)

/-- A gate on the bits at each place. -/
def bitGate (alg : BoolAlgebra m α) (gate : Gate) (v w : Storage α) :
    ExceptT Error m (Storage α) := do
  checkLengths v w
  let elems ← liftM ((v.toList.zip w.toList).mapM fun (a, b) => alg.gate gate a b)
  return alg.vector elems

/-- A gate on all bits, as a vector of one bit. -/
def bitReduce (alg : BoolAlgebra m α) (reduction : Reduction) (v : Storage α) : m (Storage α) := do
  return .fromElem alg.kind (← alg.reduce reduction (Thunk.mk fun _ => v.toList))

/-! ### Binary numbers -/

/-- The lowest bits of an integer; a length below zero gives none. -/
def numLift (alg : BoolAlgebra m α) (length value : Int) : m (Storage α) :=
  alg.bitLift ((List.range length.toNat).map (numberBit value))

/-- The bits of the sum and of the carry, pushed onto `result` one after the other. -/
def ripple (alg : BoolAlgebra m α) : List (α × α) → α → Storage α → m (Storage α)
  | [], _, result => pure result
  | (a, b) :: rest, carry, result => do
    let bit ← alg.sum3 a b carry
    let carry ← alg.maj a b carry
    alg.ripple rest carry (result.push bit)

/-- The sum of two numbers of the same length, with a carry from below. -/
def addWithCarry (alg : BoolAlgebra m α) (v w : Storage α) (carry : α) : m (Storage α) :=
  alg.ripple (v.toList.zip w.toList) carry (.withCapacity alg.kind v.length)

/-- The bits of a negated number, pushed onto `result`: each bit is flipped, and one is added. -/
def negateBits (alg : BoolAlgebra m α) : List α → α → Storage α → m (Storage α)
  | [], _, result => pure result
  | a :: rest, carry, result => do
    let flipped ← alg.neg a
    let bit ← alg.gate .xor flipped carry
    let carry ← alg.gate .and flipped carry
    alg.negateBits rest carry (result.push bit)

def numNeg (alg : BoolAlgebra m α) (v : Storage α) : m (Storage α) := do
  alg.negateBits v.toList (← alg.unit) (.withCapacity alg.kind v.length)

def numAdd (alg : BoolAlgebra m α) (v w : Storage α) : ExceptT Error m (Storage α) := do
  checkLengths v w
  alg.addWithCarry v w (← alg.zero)

/-- The difference of two numbers: the flipped second one is added, with a carry from below. -/
def numSub (alg : BoolAlgebra m α) (v w : Storage α) : ExceptT Error m (Storage α) := do
  checkLengths v w
  let flipped ← alg.bitNot w
  alg.addWithCarry v flipped (← alg.unit)

def numEq (alg : BoolAlgebra m α) (v w : Storage α) : ExceptT Error m (Storage α) := do
  alg.bitReduce .all (← alg.bitGate .equ v w)

def numNe (alg : BoolAlgebra m α) (v w : Storage α) : ExceptT Error m (Storage α) := do
  alg.bitNot (← alg.numEq v w)

/-- Whether a number is at most another, given the pairs of their bits and the answer for the bits
below: where the bits differ the higher place decides. -/
def atMost (alg : BoolAlgebra m α) (pairs : List (α × α)) (below : α) : m α :=
  pairs.foldlM (fun below (a, b) => do alg.maj (← alg.neg a) b below) below

def numLe (alg : BoolAlgebra m α) (v w : Storage α) : ExceptT Error m (Storage α) := do
  checkLengths v w
  return .fromElem alg.kind (← alg.atMost (v.toList.zip w.toList) (← alg.unit))

def numLt (alg : BoolAlgebra m α) (v w : Storage α) : ExceptT Error m (Storage α) := do
  alg.bitNot (← alg.numLe w v)

end BoolAlgebra

end BoolTensor
