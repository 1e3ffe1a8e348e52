import BoolTensor.Algebra.Basic
import BoolTensor.Cnf.Search
import BoolTensor.Solver.Form

/-!
# The algebra of literals

The elements are literals. A gate gives a literal that is there already where its value is plain
(constants, equal or opposite arguments); otherwise it allocates one variable and records the
clauses that tie the variable to the arguments. Variable 1 is true by the first clause.

## Main definitions

* `Solver`, `Solver.new`: the accumulator of variables and clauses, with the model found last
* `Verdict`, `Engine`: what may be answered to a formula, and what answers
* `Engine.GivesUp`, `Engine.Decides`, `Engine.Correct`: what an engine may do, and is asked to do
* `Solver.or`, `Solver.xor`, `Solver.maj`, `Solver.sum3`: the gates that record clauses
* `Solver.addClause`, `Solver.findModel`, `Solver.value`: constraints, solving, reading the model
* `Solver.submit`: the clauses that are new to the engine, handed over before it is asked
* `Solver.algebra`, `literalAlgebra`: all of it as an algebra, for any engine, on values that stand
  for literals and on literals themselves

## Design notes

Gates do not look whether a literal is allocated, so a formula may come to mention variables that
do not exist. It is refused when it is to be solved, and the clauses stay recorded: once the
variables exist the same formula is solved. Then the engine is handed clauses a second time that it
holds already, as only a hand-over of all clauses is kept count of. The elements may be of any type
whose values stand for literals; an operand that is given back stays as it was given. In a monad
where negation may be refused, a gate that fails after its variable was allocated leaves the
variable without clauses.
-/

namespace BoolTensor

/-- What may be answered to a formula. -/
inductive Verdict where
  /-- The assignment makes the formula true. -/
  | satisfied (assignment : Assignment)
  /-- No assignment makes it true. -/
  | refuted
  /-- The search was given up. -/
  | unknown (reason : String)

namespace Verdict

def assignment? : Verdict → Option Assignment
  | satisfied assignment => some assignment
  | _ => none

/-- Whether there is an assignment, or the failure to find out. -/
def answer : Verdict → Except Error Bool
  | satisfied _ => .ok true
  | refuted => .ok false
  | unknown reason => .error (.gaveUp reason)

end Verdict

/-- What answers to formulas. -/
structure Engine where
  solve : Formula → Verdict

/-- For this reason the engine gives some formula up. -/
def Engine.GivesUp (engine : Engine) (reason : String) : Prop :=
  ∃ formula, engine.solve formula = .unknown reason

/-- The engine gives no formula up. -/
def Engine.Decides (engine : Engine) : Prop :=
  ∀ reason, ¬engine.GivesUp reason

/-- The answers of an engine are right: an assignment makes the formula true, and there is one
whenever the formula is satisfiable. -/
structure Engine.Correct (engine : Engine) : Prop where
  /-- An assignment that is given makes the formula true. -/
  sound : ∀ formula assignment, engine.solve formula = .satisfied assignment →
    formula.holds assignment = true
  /-- Only unsatisfiable formulas are refuted. -/
  complete : ∀ formula, engine.solve formula = .refuted → ¬formula.Satisfiable
  decides : engine.Decides

/-- The engine that searches by itself. -/
def searchEngine : Engine where
  solve formula :=
    match formula.solve? with
    | some assignment => .satisfied assignment
    | none => .refuted

/-- A satisfying assignment, with the number of variables there were when it was found. -/
structure Model where
  variableCount : Nat
  assignment : Assignment

/-- Variables, clauses, what the engine holds of them, and the model found last. -/
structure Solver (ℓ : Type) where
  variableCount : Nat
  /-- The recorded clauses, oldest first. -/
  clauses : Array (List ℓ)
  /-- The number of clauses there were when all of them had been handed over. -/
  submitted : Nat
  /-- The clauses that the engine holds, as they were handed over. -/
  held : Array Clause
  /-- The model of the last solve, if it found one. -/
  model : Option Model

/-- Computations that act on a solver. -/
abbrev SolverM (ℓ : Type) := StateM (Solver ℓ)

namespace Solver

open LiteralForm SignedForm

def top : Literal := 1

def bottom : Literal := -1

section States

variable {ℓ : Type} [LiteralForm ℓ]

/-- One variable, which the first clause makes true. -/
def new : Solver ℓ := ⟨1, #[[ofLiteral top]], 0, #[], none⟩

/-- The recorded clauses as a formula. -/
def formula (s : Solver ℓ) : Formula :=
  s.clauses.toList.map (·.map literal)

def hasModel (s : Solver ℓ) : Bool :=
  s.model.isSome

/-- The recorded clauses in DIMACS text. -/
def dimacs (s : Solver ℓ) : String :=
  String.ofList (Dimacs.writeWords s.variableCount (s.clauses.toList.map (·.map word)))

/-- Refuses values that stand for no literal of the first variables. -/
def locate (count : Nat) (elem : ℓ) : Except Error Unit := do
  checkAllocated count elem
  checkPlace elem

/-- Hands clauses over one after the other, up to the first that mentions what stands for no literal
of the first variables. The clauses before it are held from then on. -/
def handOver (count : Nat) (held : Array Clause) : List (List ℓ) → Except Error Unit × Array Clause
  | [] => (.ok (), held)
  | clause :: clauses =>
    match clause.forM (locate count) with
    | .error error => (.error error, held)
    | .ok () => handOver count (held.push (clause.map literal)) clauses

/-- Hands over the clauses recorded since all of them had been. Where one is refused all of these
will be handed over again. -/
def submit (s : Solver ℓ) : Except Error Unit × Solver ℓ :=
  match handOver s.variableCount s.held (s.clauses.toList.drop s.submitted) with
  | (.error error, held) => (.error error, { s with held := held })
  | (.ok (), held) => (.ok (), { s with held := held, submitted := s.clauses.size })

/-- The literal of an allocated variable that a value is converted to. -/
def assumed (count : Nat) (elem : ℓ) : Except Error Literal := do
  let l ← convert elem
  checkAllocated count l
  return l

/-- The value of a literal in a model, when there are `count` variables. -/
def valueIn (model : Model) (count : Nat) (elem : ℓ) : Except Error Bool := do
  checkAllocated count elem
  if ← exceeds elem model.variableCount then throw (.createdAfterSolve (shown elem))
  checkPlace elem
  return Literal.holds model.assignment (literal elem)

def lift (value : Bool) : ℓ :=
  ofLiteral (if value then top else bottom)

end States

variable {m : Type → Type} {ℓ : Type} [Monad m] [MonadStateOf (Solver ℓ) m] [LiteralForm ℓ]

/-! ### Recording -/

def addVariable : m ℓ :=
  modifyGetThe (Solver ℓ) fun s =>
    (ofLiteral (s.variableCount + 1 : Nat), { s with variableCount := s.variableCount + 1 })

/-- Records clauses as they are. -/
def record (clauses : List (List ℓ)) : m Unit :=
  modifyThe (Solver ℓ) fun s => { s with clauses := s.clauses ++ clauses.toArray }

/-- Allocates a variable and records the clauses that define it. -/
def introduce (clauses : ℓ → m (List (List ℓ))) : m ℓ := do
  let c ← addVariable
  -- The variable stays if the clauses cannot be made.
  record (← clauses c)
  return c

/-! ### Gates -/

variable [SignedForm m ℓ]

def or (a b : ℓ) : m ℓ := do
  if same a (lift true) || same b (lift true) then return lift true
  let notB ← negated b
  if same a notB then return lift true
  if same a (lift false) || same a b then return b
  if same b (lift false) then return a
  introduce fun c => do
    return [[← negated a, c], [notB, c], [a, b, ← negated c]]

/-- Conjunction, by disjunction of the negated arguments. -/
def and (a b : ℓ) : m ℓ := do
  let notA ← negated a
  let notB ← negated b
  negated (← or notA notB)

def imp (a b : ℓ) : m ℓ := do
  or (← negated a) b

def xor (a b : ℓ) : m ℓ := do
  if same a (lift false) then return b
  if same a (lift true) then return ← negated b
  if same b (lift false) then return a
  if same b (lift true) then return ← negated a
  if same a b then return lift false
  let notB ← negated b
  if same a notB then return lift true
  introduce fun c => do
    let notA ← negated a
    let notC ← negated c
    return [[notA, notB, notC], [a, b, notC], [a, notB, c], [notA, b, c]]

def equ (a b : ℓ) : m ℓ := do
  negated (← xor a b)

/-- The three arguments with each of them first, in the order of the circle. -/
def rotations (a b c : ℓ) : List (ℓ × ℓ × ℓ) :=
  [(a, b, c), (b, c, a), (c, a, b)]

/-- The majority where the first two arguments are equal or opposite. -/
def majRelated? : ℓ × ℓ × ℓ → m (Option ℓ)
  | (a, b, c) =>
    if same a b then return some a
    else return if same a (← negated b) then some c else none

/-- The majority where the first argument is constant. -/
def majConstant? : ℓ × ℓ × ℓ → Option (m ℓ)
  | (a, b, c) =>
    if same a (lift true) then some (or b c)
    else if same a (lift false) then some (and b c)
    else none

/-- The clauses that make `d` the majority of three. -/
def majClauses (a b c d : ℓ) : m (List (List ℓ)) := do
  let notA ← negated a
  let notB ← negated b
  let notC ← negated c
  let notD ← negated d
  return [[notA, notB, d], [notA, notC, d], [notB, notC, d],
    [a, b, notD], [a, c, notD], [b, c, notD]]

def maj (a b c : ℓ) : m ℓ := do
  -- Related arguments come first: they fold to an argument where a constant leaves a gate.
  match ← (rotations a b c).findSomeM? majRelated? with
  | some elem => return elem
  | none =>
    match (rotations a b c).findSome? majConstant? with
    | some gate => gate
    | none => introduce (majClauses a b c)

/-- Whether the parity of three folds into parities of two with the first two arguments ahead:
the first is constant, or the first two are equal or opposite. -/
def parityFolds : ℓ × ℓ × ℓ → m Bool
  | (a, b, _) =>
    if same a (lift true) || same a (lift false) then return true else sameVariable a b

/-- The clauses that make `d` the parity of three. -/
def parityClauses (a b c d : ℓ) : m (List (List ℓ)) := do
  let notA ← negated a
  let notB ← negated b
  let notC ← negated c
  let notD ← negated d
  return [[notA, notB, notC, d], [notA, b, c, d], [a, notB, c, d], [a, b, notC, d],
    [a, b, c, notD], [a, notB, notC, notD], [notA, b, notC, notD], [notA, notB, c, notD]]

def sum3 (a b c : ℓ) : m ℓ := do
  match ← (rotations a b c).findM? parityFolds with
  | some (a, b, c) => xor (← xor a b) c
  | none => introduce (parityClauses a b c)

def gate : Gate → ℓ → ℓ → m ℓ
  | .or => or
  | .and => and
  | .xor => xor
  | .equ => equ
  | .imp => imp

/-! ### Constraints and models -/

omit [SignedForm m ℓ]

/-- Records a clause, whose literals must be allocated. -/
def addClause (clause : List ℓ) : ExceptT Error m Unit := do
  let s ← getThe (Solver ℓ)
  let literals ← liftM (clause.mapM convert)
  match literals.find? fun l => !Literal.isAllocated s.variableCount l with
  | some l => throw (.invalidClause l literals)
  | none => liftM (record [literals.map (ofLiteral : Literal → ℓ)] : m Unit)

/-- Looks for a model of all recorded clauses in which the assumptions are true. The assumptions
count for this call only. -/
def findModel (engine : Engine) (assumptions : List ℓ) : ExceptT Error m Bool := do
  let (result, s) := (← getThe (Solver ℓ)).submit
  -- What the engine holds stays held, also where a clause is refused.
  set s
  liftM result
  let literals ← liftM (assumptions.mapM (assumed s.variableCount))
  let verdict := engine.solve (s.held.toList ++ literals.map fun l => [l])
  -- Without an assignment the earlier model is forgotten, also where the engine gives up.
  set { s with model := verdict.assignment?.map fun assignment => ⟨s.variableCount, assignment⟩ }
  liftM verdict.answer

/-- The value of a literal in the model found last. -/
def value (elem : ℓ) : ExceptT Error m Bool := do
  let s ← getThe (Solver ℓ)
  match s.model with
  | none => throw .noModel
  | some model => liftM (valueIn model s.variableCount elem)

end Solver

/-- The algebra of values that stand for literals, over an engine. -/
def Solver.algebra {m : Type → Type} {ℓ : Type} [Monad m] [MonadStateOf (Solver ℓ) m]
    [LiteralForm ℓ] [SignedForm m ℓ] (engine : Engine) : SatAlgebra m ℓ where
  kind := .dense
  lift value := return Solver.lift value
  neg a := SignedForm.negated a
  gate := Solver.gate
  maj := Solver.maj
  sum3 := Solver.sum3
  reduce := BoolAlgebra.reduceBy (fun value => return Solver.lift value) Solver.gate
  addVariable := Solver.addVariable
  addClause := Solver.addClause
  findModel := Solver.findModel engine
  value := Solver.value

/-- The algebra of literals over an engine. -/
def literalAlgebra (engine : Engine) : SatAlgebra (SolverM Literal) Literal :=
  Solver.algebra engine

end BoolTensor
