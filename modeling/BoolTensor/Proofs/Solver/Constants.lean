import BoolTensor.Proofs.Algebra.Reading
import BoolTensor.Proofs.Solver.Gates

/-!
# Gates on constant literals

A gate on constant literals gives a constant literal again and leaves the solver as it is. Which of
the branches it takes differs from gate to gate: the parity of three looks for a constant argument
first, the majority for related ones.

## Main definitions

* `Solver.constants`: the constant literals read as the truth values that they are lifted from
-/

namespace BoolTensor

namespace Solver

theorem gate_lift (g : Gate) (v w : Bool) :
    (gate g (lift v) (lift w) : SolverM Literal Literal) = pure (lift (g.eval v w)) := by
  cases g <;> cases v <;> cases w <;> rfl

theorem maj_lift (v w u : Bool) :
    (maj (lift v) (lift w) (lift u) : SolverM Literal Literal) =
      pure (lift (Bool.atLeastTwo v w u)) := by
  cases v <;> cases w <;> cases u <;> rfl

theorem sum3_lift (v w u : Bool) :
    (sum3 (lift v) (lift w) (lift u) : SolverM Literal Literal) =
      pure (lift ((v != w) != u)) := by
  cases v <;> cases w <;> cases u <;> rfl

/-- A gate along a list of constants computes on their truth values. -/
theorem foldlM_gate_lift (g : Gate) (start : Bool) (values : List Bool) :
    ((values.map lift).foldlM (gate g) (lift start) : SolverM Literal Literal) =
      pure (lift (values.foldl g.eval start)) := by
  induction values generalizing start with
  | nil => rfl
  | cons value values ih =>
    rw [List.map_cons, List.foldlM_cons, gate_lift, pure_bind, ih, List.foldl_cons]

theorem reduce_lift (engine : Engine) (reduction : Reduction) (elems : Thunk (List Literal))
    {values : List Bool} (helems : elems.get = values.map lift) :
    (literalAlgebra engine).reduce reduction elems = pure (lift (reduction.eval values)) := by
  change BoolAlgebra.reduceBy (fun value => pure (lift value)) gate reduction elems = _
  rw [BoolAlgebra.reduceBy_eq, BoolAlgebra.foldGate, pure_bind, helems, foldlM_gate_lift,
    Reduction.foldl_gate, List.nil_append]

/-- Constant literals are read as the truth values that they are lifted from, and the solver stays
as it is. -/
def constants : Reading (Solver Literal) Literal where
  kind := .dense
  valid _ := True
  grows s t := t = s
  reads _ l value := l = lift value
  grows_refl _ := rfl
  grows_trans h h' := h'.trans h
  valid_of_grows _ _ := trivial
  reads_of_grows _ hl := hl

theorem constants_gives {x : SolverM Literal Literal} {value : Bool} (hx : x = pure (lift value))
    (s : Solver Literal) : constants.Gives s x fun t l => constants.reads t l value := by
  rw [hx]
  exact .pure rfl

/-- Every gate on constants gives the constant of its value. -/
theorem constants_realizes (engine : Engine) :
    constants.Realizes (literalAlgebra engine).toBoolAlgebra where
  kind_eq := rfl
  lift s value _ := constants_gives rfl s
  neg s a value _ ha := by
    subst ha
    exact constants_gives (by cases value <;> rfl) s
  gate s g a b v w _ ha hb := by
    subst ha hb
    exact constants_gives (gate_lift g v w) s
  maj s a b c v w u _ ha hb hc := by
    subst ha hb hc
    exact constants_gives (maj_lift v w u) s
  sum3 s a b c v w u _ ha hb hc := by
    subst ha hb hc
    exact constants_gives (sum3_lift v w u) s
  reduce s reduction elems values _ helems := by
    have hvalues : elems.get = values.map lift :=
      List.forall₂_eq_eq_eq ▸ List.forall₂_map_right_iff.2 helems
    exact constants_gives (reduce_lift engine reduction elems hvalues) s
  keeps _ _ _ ha := ha

end Solver

end BoolTensor
