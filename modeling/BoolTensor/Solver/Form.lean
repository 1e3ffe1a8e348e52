import BoolTensor.Cell.Arithmetic
import BoolTensor.Cnf.Dimacs

/-!
# Values that stand for literals

Where a literal is wanted any cell may be given: a truth value stands for the literal 1 or 0, and
what stands for no literal is refused as late as the gates and the solver find out. Clauses keep
their literals as they are given, so that they can be shown.

## Main definitions

* `LiteralForm`: types whose values stand for literals, as literals themselves and cells do
* `SignedForm`: negation of such values in a monad, where it may be refused
* `LiteralForm.checkAllocated`: whether a value names one of the first variables
-/

namespace BoolTensor

/-- Types whose values stand for literals. -/
class LiteralForm (ℓ : Type) where
  /-- The literal that a value stands for. -/
  literal : ℓ → Literal
  /-- The value that is given for a literal. -/
  ofLiteral : Literal → ℓ
  /-- A value as it is shown. -/
  shown : ℓ → Cell
  /-- Whether two values are the same. -/
  same : ℓ → ℓ → Bool
  /-- Whether the variable of a value comes after the first ones. -/
  exceeds : ℓ → Nat → Except Error Bool
  /-- Refuses values that stand for no literal. -/
  checkPlace : ℓ → Except Error Unit
  /-- The literal that a value is converted to. -/
  convert : ℓ → Except Error Literal
  /-- The value that is given for a literal stands for it. -/
  literal_ofLiteral : ∀ l, literal (ofLiteral l) = l

/-- Values that stand for literals, with the operations on them that may be refused. -/
class SignedForm (m : Type → Type) (ℓ : Type) where
  /-- The negation of a value. -/
  negated : ℓ → m ℓ
  /-- Whether two values are of the same variable. -/
  sameVariable : ℓ → ℓ → m Bool

instance : LiteralForm Literal where
  literal := id
  ofLiteral := id
  shown := .int
  same := (· == ·)
  exceeds l count := .ok (l.natAbs > count)
  checkPlace _ := .ok ()
  convert := .ok
  literal_ofLiteral _ := rfl

instance {m : Type → Type} [Monad m] : SignedForm m Literal where
  negated l := pure (-l)
  sameVariable a b := pure (a.natAbs == b.natAbs)

instance : LiteralForm Cell where
  literal cell := cell.integer?.getD 0
  ofLiteral := .int
  shown := id
  same := Cell.same
  exceeds := Cell.exceeds
  checkPlace := Cell.checkPlace
  convert := Cell.toInteger
  literal_ofLiteral _ := rfl

instance {m : Type → Type} [Monad m] : SignedForm (ExceptT Error m) Cell where
  negated cell := liftM cell.negate
  sameVariable a b := do
    let a ← liftM a.magnitude
    let b ← liftM b.magnitude
    return a.same b

namespace LiteralForm

variable {ℓ : Type} [LiteralForm ℓ]

/-- A value in the text of a clause. -/
def word (a : ℓ) : List Char :=
  match shown a with
  | .int value => Dimacs.integer value
  | cell => cell.render.toList

/-- Refuses values that name none of the first variables. -/
def checkAllocated (count : Nat) (a : ℓ) : Except Error Unit := do
  if same a (ofLiteral 0) || (← exceeds a count) then throw (.invalidLiteral (shown a))

/-- A literal is refused just where it is not allocated. -/
theorem checkAllocated_literal (count : Nat) (l : Literal) :
    checkAllocated count l =
      if l.isAllocated count then .ok () else .error (.invalidLiteral (.int l)) := by
  by_cases zero : l = 0
  · subst zero
    rfl
  · by_cases above : count < l.natAbs
    · have notLe : ¬l.natAbs ≤ count := by omega
      simp [checkAllocated, same, exceeds, ofLiteral, shown, Literal.isAllocated, above, notLe,
        bind, Except.bind, throw, throwThe, MonadExceptOf.throw]
    · have le : l.natAbs ≤ count := by omega
      simp [checkAllocated, same, exceeds, ofLiteral, Literal.isAllocated, zero, above, le, bind,
        Except.bind, pure, Except.pure]

end LiteralForm

end BoolTensor
