import BoolTensor.Tensor.RowMajor
import BoolTensor.Tensor.View

/-!
# Registers of programs

Programs act on registers: vectors by handle, and tensors by their number. What an instruction
gives back is an `Outcome`; a new vector or tensor stays in the registers, and the outcome names it.

## Main definitions

* `Registers`: a bank of vectors, and tensors over it
* `Outcome`: what an instruction gives back
* `runAll`: instructions one after the other
-/

namespace BoolTensor

/-- The vectors and tensors of a program. -/
structure Registers (α : Type) where
  bank : Bank α
  /-- The tensors, oldest first; their cells are vectors of the bank. -/
  views : Array View
  deriving Repr

/-- What an instruction gives back. -/
inductive Outcome (α : Type) where
  | nothing
  | vector (handle : Bank.Handle)
  | vectors (handles : List Bank.Handle)
  | tensor (number : Nat)
  | element (value : α)
  | elements (values : List α)
  | truth (value : Bool)
  | count (value : Nat)
  | text (value : String)
  | shape (value : Shape)
  | array (value : TruthArray)
  deriving Repr

namespace Registers

variable {α : Type} [Element α]

def empty : Registers α := ⟨.empty, #[]⟩

def vector (r : Registers α) (handle : Bank.Handle) : Storage α :=
  r.bank.find handle

def view (r : Registers α) (number : Nat) : View :=
  r.views.getD number ⟨.scalar, 0⟩

def tensor (r : Registers α) (number : Nat) : Tensor α :=
  r.bank.tensor (r.view number)

def addVector (r : Registers α) (v : Storage α) : Outcome α × Registers α :=
  let (bank, handle) := r.bank.add v
  (.vector handle, { r with bank := bank })

def addVectors (r : Registers α) (vs : List (Storage α)) : Outcome α × Registers α :=
  (.vectors (List.range' r.bank.vectors.size vs.length),
    { r with bank := vs.foldl (fun bank v => (bank.add v).1) r.bank })

/-- Adds a tensor over a vector that is there. -/
def addView (r : Registers α) (view : View) : Outcome α × Registers α :=
  (.tensor r.views.size, { r with views := r.views.push view })

/-- Adds a tensor with a vector of its own. -/
def addTensor (r : Registers α) (t : Tensor α) : Outcome α × Registers α :=
  let (bank, view) := r.bank.addTensor t
  { r with bank := bank }.addView view

/-- Puts another vector in the place of one. -/
def replace (r : Registers α) (handle : Bank.Handle) (v : Storage α) :
    Outcome α × Registers α :=
  (.nothing, { r with bank := r.bank.replace handle v })

end Registers

/-- The outcomes of instructions that are run one after the other, and the registers after them. A
failure leaves the registers as they were, and the next instruction goes on from them. -/
def runAll {m : Type → Type} [Monad m] {ι α : Type}
    (run : ι → Registers α → ExceptT Error m (Outcome α × Registers α)) :
    List ι → Registers α → m (List (Except Error (Outcome α)) × Registers α)
  | [], r => pure ([], r)
  | step :: steps, r => do
    match ← (run step r).run with
    | .error error =>
      let (outcomes, r) ← runAll run steps r
      return (.error error :: outcomes, r)
    | .ok (outcome, r) =>
      let (outcomes, r) ← runAll run steps r
      return (.ok outcome :: outcomes, r)

end BoolTensor
