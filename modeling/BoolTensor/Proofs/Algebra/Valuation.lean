import BoolTensor.Proofs.Algebra.Reading

/-!
# Algebras of four primitive gates

A backend may implement constants, negation, disjunction and exclusive disjunction, and inherit all
other gates. If its elements have truth values that the four primitive gates respect, then every
inherited gate respects them as well.

## Main definitions

* `Valuation`: truth values that the primitive gates respect
* `Kind.truthAlgebra`: truth values in vectors of any kind
* `Reading.valued`, `Reading.storedTruth`: elements read as their values, and truth values as
  themselves
-/

namespace BoolTensor

variable {m : Type → Type} [Monad m] {σ α : Type} [Runs m σ]

/-- A gate along a list respects values if it does so on two elements. -/
theorem run_foldlM_valued {v : α → Bool} {gate : α → α → m α} {f : Bool → Bool → Bool}
    (hgate : ∀ s a b, v (Runs.run (gate a b) s).1 = f (v a) (v b)) (s : σ) (start : α)
    (elems : List α) :
    v (Runs.run (elems.foldlM gate start) s).1 = (elems.map v).foldl f (v start) := by
  induction elems generalizing s start with
  | nil => rw [List.foldlM_nil, Runs.run_pure, List.map_nil, List.foldl_nil]
  | cons a elems ih => rw [List.foldlM_cons, Runs.run_bind, ih, hgate, List.map_cons, List.foldl_cons]

/-- Truth values, stored in vectors of this kind; in packed ones they are `truthAlgebra`. -/
def Kind.truthAlgebra (kind : Kind) {m : Type → Type} [Monad m] : BoolAlgebra m Bool :=
  { BoolTensor.truthAlgebra with kind := kind }

/-- Elements read as their values, in every state. -/
def Reading.valued (v : α → Bool) (kind : Kind) : Reading σ α where
  kind := kind
  valid _ := True
  grows _ _ := True
  reads _ a value := v a = value
  grows_refl _ := trivial
  grows_trans _ _ := trivial
  valid_of_grows _ _ := trivial
  reads_of_grows _ ha := ha

variable [Element α]

/-- The value of an element is respected by the primitive gates, from every state, and by vectors
that are stored in this way. -/
structure Valuation (v : α → Bool) (kind : Kind) (lift : Bool → m α) (neg : α → m α)
    (or xor : α → α → m α) : Prop where
  keeps : ∀ a, v (kind.keeps a) = v a
  lift : ∀ s value, v (Runs.run (lift value) s).1 = value
  neg : ∀ s a, v (Runs.run (neg a) s).1 = !v a
  or : ∀ s a b, v (Runs.run (or a b) s).1 = (v a || v b)
  xor : ∀ s a b, v (Runs.run (xor a b) s).1 = (v a != v b)

/-- Truth values read as themselves, stored in vectors of this kind. -/
def Reading.storedTruth (kind : Kind) : Reading Unit Bool :=
  valued id kind

/-- Truth values compute at once in whatever vectors they are stored, if these keep them. -/
theorem Reading.storedTruth_realizes {m : Type → Type} [Monad m] [Runs m Unit] {kind : Kind}
    (hkind : kind ≠ .counted) :
    (storedTruth kind).Realizes (kind.truthAlgebra : BoolAlgebra m Bool) where
  kind_eq := rfl
  lift := truth_realizes.lift
  neg := truth_realizes.neg
  gate := truth_realizes.gate
  maj := truth_realizes.maj
  sum3 := truth_realizes.sum3
  reduce := truth_realizes.reduce
  keeps s a value ha := by
    have hkeeps : kind.keeps a = a := by
      cases kind with
      | counted => exact absurd rfl hkind
      | _ => rfl
    exact hkeeps.trans ha

namespace Valuation

variable {v : α → Bool} {kind : Kind} {lift : Bool → m α} {neg : α → m α} {or xor : α → α → m α}

theorem gate (h : Valuation v kind lift neg or xor) (g : Gate) (s : σ) (a b : α) :
    v (Runs.run (BoolAlgebra.gateBy neg or xor g a b) s).1 = g.eval (v a) (v b) := by
  cases g with
  | or => exact h.or s a b
  | xor => exact h.xor s a b
  | imp => simp only [BoolAlgebra.gateBy, Runs.run_bind, h.or, h.neg, Gate.eval]
  | and =>
    simp only [BoolAlgebra.gateBy, Runs.run_bind, h.or, h.neg, Gate.eval, Bool.not_or, Bool.not_not]
  | equ =>
    -- The first operand is negated, and not what the gate on both gives.
    simp only [BoolAlgebra.gateBy, Runs.run_bind, h.xor, h.neg, Gate.eval]
    cases v a <;> cases v b <;> rfl

theorem foldGate (h : Valuation v kind lift neg or xor) (g : Gate) (start : Bool)
    (elems : Thunk (List α)) (s : σ) :
    v (Runs.run (BoolAlgebra.foldGate (lift start) (BoolAlgebra.gateBy neg or xor g) elems) s).1 =
      (elems.get.map v).foldl g.eval start := by
  rw [BoolAlgebra.foldGate, Runs.run_bind, run_foldlM_valued (h.gate g), h.lift]

theorem reduce (h : Valuation v kind lift neg or xor) (reduction : Reduction)
    (elems : Thunk (List α)) (s : σ) :
    v (Runs.run (BoolAlgebra.reduceBy lift (BoolAlgebra.gateBy neg or xor) reduction elems) s).1 =
      reduction.eval (elems.get.map v) := by
  rw [BoolAlgebra.reduceBy_eq, h.foldGate, Reduction.foldl_gate, List.nil_append]

theorem maj (h : Valuation v kind lift neg or xor) (s : σ) (a b c : α) :
    v (Runs.run ((BoolAlgebra.ofPrimitives kind lift neg or xor).maj a b c) s).1 =
      Bool.atLeastTwo (v a) (v b) (v c) := by
  simp only [BoolAlgebra.ofPrimitives, Runs.run_bind, h.or, h.gate, Gate.eval]
  cases v a <;> cases v b <;> cases v c <;> rfl

theorem sum3 (h : Valuation v kind lift neg or xor) (s : σ) (a b c : α) :
    v (Runs.run ((BoolAlgebra.ofPrimitives kind lift neg or xor).sum3 a b c) s).1 =
      ((v a != v b) != v c) := by
  simp only [BoolAlgebra.ofPrimitives, Runs.run_bind, h.xor]

/-- All gates give elements of the values that they compute. -/
theorem realizes (h : Valuation v kind lift neg or xor) :
    (Reading.valued v kind).Realizes (BoolAlgebra.ofPrimitives kind lift neg or xor) where
  kind_eq := rfl
  lift s value _ := ⟨trivial, h.lift s value⟩
  neg s a _ _ ha := ⟨trivial, (h.neg s a).trans (congrArg (!·) ha)⟩
  gate s g a b _ _ _ ha hb := ⟨trivial, (h.gate g s a b).trans (congrArg₂ g.eval ha hb)⟩
  maj s a b c _ _ _ _ ha hb hc := by
    obtain ⟨rfl, rfl, rfl⟩ : v a = _ ∧ v b = _ ∧ v c = _ := ⟨ha, hb, hc⟩
    exact ⟨trivial, h.maj s a b c⟩
  sum3 s a b c _ _ _ _ ha hb hc := by
    obtain ⟨rfl, rfl, rfl⟩ : v a = _ ∧ v b = _ ∧ v c = _ := ⟨ha, hb, hc⟩
    exact ⟨trivial, h.sum3 s a b c⟩
  reduce s reduction elems values _ helems := by
    have hvalues : elems.get.map v = values :=
      List.forall₂_eq_eq_eq ▸ List.forall₂_map_left_iff.2 helems
    exact ⟨trivial, (h.reduce reduction elems s).trans (congrArg reduction.eval hvalues)⟩
  keeps _ a _ ha := (h.keeps a).trans ha

end Valuation

end BoolTensor
