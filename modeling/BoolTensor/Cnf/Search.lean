import BoolTensor.Cnf.Basic

/-!
# Search for a satisfying assignment

A complete search: clauses are simplified under a partial assignment, single literals are made true
at once, and where nothing is forced one literal of a clause is tried both ways.

## Main definitions

* `Trail`: a partial assignment
* `Trail.sweep`: one pass over the clauses, which assigns every literal it finds alone
* `Trail.propagate`: passes until no clause goes away any more
* `Trail.search`, `Formula.solve?`: the search from a trail, and from nothing

## Design notes

A branch drops at least one literal from the clauses: the whole clause where its first literal is
tried as true, the literal where it is tried as false. So the number of literals falls on the way
down, and the search ends.
-/

namespace BoolTensor

/-- A partial assignment: the value of each variable that has one, by the variable's number. -/
structure Trail where
  values : Array (Option Bool)

namespace Trail

/-- The assignment of nothing. -/
def empty : Trail := ⟨#[]⟩

def value? (trail : Trail) (number : Nat) : Option Bool :=
  trail.values.getD number none

def literal? (trail : Trail) (literal : Literal) : Option Bool :=
  (trail.value? literal.natAbs).map fun value => if literal < 0 then !value else value

/-- Gives a literal a value. -/
def assign (trail : Trail) (literal : Literal) (value : Bool) : Trail :=
  let place := literal.natAbs
  let values := trail.values ++ Array.replicate (place + 1 - trail.values.size) none
  ⟨values.setIfInBounds place (some (if literal < 0 then !value else value))⟩

/-- The whole assignment that agrees with a partial one and is false elsewhere. -/
def complete (trail : Trail) : Assignment := fun place =>
  (trail.value? place).getD false

/-- What is left of a clause: nothing to do where it is true, else its literals without a value. -/
def reduce (trail : Trail) (clause : Clause) : Option Clause :=
  if clause.any (trail.literal? · == some true) then none
  else some (clause.filter (trail.literal? · == none))

/-- One pass over the clauses. A clause that is true goes away, a single literal left is made true,
and no literal left means that the trail cannot be completed. -/
def sweep (trail : Trail) : Formula → Option (Trail × Formula)
  | [] => some (trail, [])
  | clause :: rest =>
    match trail.reduce clause with
    | none => trail.sweep rest
    | some [] => none
    | some [literal] => (trail.assign literal true).sweep rest
    | some (first :: second :: others) =>
      (trail.sweep rest).map fun (trail, left) => (trail, (first :: second :: others) :: left)

/-- Passes over the clauses as long as one of them goes away. -/
def propagate (trail : Trail) (formula : Formula) : Option (Trail × Formula) :=
  match trail.sweep formula with
  | none => none
  | some (trail, left) =>
    if left.length < formula.length then propagate trail left else some (trail, left)
termination_by formula.length

end Trail

def Formula.literals (formula : Formula) : Nat :=
  (formula.map List.length).foldr (· + ·) 0

theorem Trail.length_reduce_le {trail : Trail} {clause left : Clause}
    (h : trail.reduce clause = some left) : left.length ≤ clause.length := by
  unfold Trail.reduce at h
  split at h
  · simp at h
  · cases h
    exact List.length_filter_le ..

theorem Trail.literals_sweep_le {trail after : Trail} {formula left : Formula}
    (h : trail.sweep formula = some (after, left)) : left.literals ≤ formula.literals := by
  induction formula generalizing trail after left with
  | nil => simp_all [Trail.sweep]
  | cons clause rest ih =>
    have step : Formula.literals (clause :: rest) = clause.length + Formula.literals rest := by
      simp [Formula.literals]
    rw [Trail.sweep] at h
    split at h
    · exact Nat.le_trans (ih h) (by omega)
    · simp at h
    · exact Nat.le_trans (ih h) (by omega)
    · rename_i first second others reduced
      obtain ⟨⟨trail', left'⟩, swept, eq⟩ := Option.map_eq_some_iff.1 h
      cases eq
      have := ih swept
      have := Trail.length_reduce_le reduced
      simp only [Formula.literals, List.map_cons, List.foldr_cons] at *
      omega

theorem Trail.literals_propagate_le {trail after : Trail} {formula left : Formula}
    (h : trail.propagate formula = some (after, left)) : left.literals ≤ formula.literals := by
  induction formula using WellFounded.induction
    (measure (List.length : Formula → Nat)).wf generalizing trail with
  | _ formula ih =>
    rw [Trail.propagate] at h
    split at h
    · simp at h
    · rename_i trail' left' swept
      have bound := Trail.literals_sweep_le swept
      split at h
      · rename_i shorter
        exact Nat.le_trans (ih left' shorter h) bound
      · cases h
        exact bound

/-- Searches for a trail that completes the given one and makes the formula true. -/
def Trail.search (trail : Trail) (formula : Formula) : Option Trail :=
  match _h : trail.propagate formula with
  | none => none
  | some (trail, []) => some trail
  | some (_, [] :: _) => none
  | some (trail, (literal :: others) :: rest) =>
    match Trail.search (trail.assign literal true) rest with
    | some found => some found
    -- With the first literal false the clause is left to the others.
    | none => Trail.search (trail.assign literal false) (others :: rest)
termination_by formula.literals
decreasing_by
  all_goals
    have := Trail.literals_propagate_le _h
    simp only [Formula.literals, List.map_cons, List.foldr_cons, List.length_cons] at *
    omega

/-- An assignment that makes the formula true, if there is one. -/
def Formula.solve? (formula : Formula) : Option Assignment :=
  (Trail.search .empty formula).map Trail.complete

end BoolTensor
