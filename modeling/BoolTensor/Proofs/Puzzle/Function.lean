import BoolTensor.Proofs.Circuit.Constraint
import BoolTensor.Proofs.Puzzle.Permutation

/-!
# Relations that are demanded to be functions

The clauses over a square tensor demand just that the relation of its cells is the graph of a
function: one clause for each place says that it has an image, and one for each place and two images
says that they are the same.

## Main definitions

* `atPair`: a relation as a function on coordinates
-/

namespace BoolTensor

/-- The relation of the first two coordinates. -/
def atPair (rel : Nat → Nat → Bool) (coords : List Nat) : Bool :=
  rel (coords.getD 0 0) (coords.getD 1 0)

namespace Solver

variable {s : Solver Literal} {n : Nat} {rel : Tensor Literal}
  {r : Assignment → Nat → Nat → Bool} (engine : Engine)

/-- Whether each place has an image, as one tensor. -/
def hasImage (rel : Tensor Literal) : ExceptT Error (SolverM Literal) (List (Tensor Literal)) := do
  return [← (literalAlgebra engine).tensorReduce .any rel]

/-- Three tensors one of which is true where two images are the same. -/
def sameImage (n : Nat) (rel : Tensor Literal) :
    ExceptT Error (SolverM Literal) (List (Tensor Literal)) := do
  let cube : Shape := ⟨[n, n, n]⟩
  let first ← liftM (rel.polymer cube [0, 2])
  let second ← liftM (rel.polymer cube [1, 2])
  let equal ← liftM ((← (literalAlgebra engine).countedDiagonal n).polymer cube [0, 1])
  return [← (literalAlgebra engine).tensorNot first, ← (literalAlgebra engine).tensorNot second, equal]

/-- The dimensions of a square are any two of the cube. -/
theorem fits_cube (n : Nat) {a b : Nat} (ha : a < 3) (hb : b < 3) :
    Tensor.Fits ⟨[n, n]⟩ ⟨[n, n, n]⟩ [a, b] := by
  have hdim {c : Nat} (hc : c < 3) : [n, n, n][c]? = some n := by
    interval_cases c <;> rfl
  exact .cons (hdim ha) (.cons (hdim hb) .nil)

theorem demandFunction_eq (hrel : rel.shape = ⟨[n, n]⟩) :
    (literalAlgebra engine).demandFunction rel = (do
      hasImage engine rel >>= (literalAlgebra engine).tensorClauses
      sameImage engine n rel >>= (literalAlgebra engine).tensorClauses) := by
  have hdimension : rel.shape.dimension 0 = .ok n := by
    rw [hrel]
    rfl
  rw [SatAlgebra.demandFunction, hdimension, liftM_ok, pure_bind]
  simp only [hasImage, sameImage, bind_assoc, pure_bind]

theorem returns_hasImage (hs : s.Ready) (σ : Assignment)
    (hrel : (reading σ).StoresTensor s rel ⟨[n, n]⟩ (atPair (r σ))) :
    (reading σ).Returns s (hasImage engine rel) fun t tensors => tensors ≠ [] ∧
      List.Forall₂ (fun u f => (reading σ).StoresTensor t u ⟨[n]⟩ f) tensors
        [fun coords => (List.range n).any fun y => r σ y (coords.getD 0 0)] := by
  refine ((reading_realizes engine σ).returns_tensorReduce hs.pos .any hrel).bind fun t u _ hu => ?_
  refine .pure ⟨by simp, .cons (hu.congr fun coords _ => ?_) .nil⟩
  simp [Reduction.eval, atPair]

theorem returns_sameImage (hs : s.Ready) (σ : Assignment)
    (hrel : (reading σ).StoresTensor s rel ⟨[n, n]⟩ (atPair (r σ))) :
    (reading σ).Returns s (sameImage engine n rel) fun t tensors => tensors ≠ [] ∧
      List.Forall₂ (fun u f => (reading σ).StoresTensor t u ⟨[n, n, n]⟩ f) tensors
        [fun coords => !r σ (coords.getD 0 0) (coords.getD 2 0),
          fun coords => !r σ (coords.getD 1 0) (coords.getD 2 0),
          fun coords => coords.getD 0 0 == coords.getD 1 0] := by
  have h := reading_realizes engine σ
  refine (hrel.returns_polymer [0, 2] (fits_cube n (by decide) (by decide))).bind
    fun t first ht hfirst => ?_
  refine ((hrel.grows ht).returns_polymer [1, 2] (fits_cube n (by decide) (by decide))).bind
    fun u second hu hsecond => ?_
  have hearly := ht.trans hu
  refine (h.returns_countedDiagonal (hs.pos.trans hearly.variableCount_le) n).bind
    fun v diagonal hv hdiagonal => ?_
  refine (hdiagonal.returns_polymer [0, 1] (fits_cube n (by decide) (by decide))).bind
    fun w equal hw hequal => ?_
  have hlate := hv.trans hw
  have hpos := hs.pos.trans (hearly.trans hlate).variableCount_le
  refine (h.returns_tensorNot hpos (hfirst.grows (hu.trans hlate))).bind fun x first' hx hfirst' => ?_
  refine (h.returns_tensorNot (hpos.trans hx.variableCount_le) (hsecond.grows (hlate.trans hx))).bind
    fun y second' hy hsecond' => ?_
  refine .pure ⟨by simp, .cons (hfirst'.grows hy) (.cons hsecond' (.cons ?_ .nil))⟩
  exact hequal.grows (hx.trans hy)

section Demand

variable (hs : s.Ready) (hrel : ∀ σ, (reading σ).StoresTensor s rel ⟨[n, n]⟩ (atPair (r σ)))
  (hr : ∀ σ τ : Assignment, σ.AgreeUpTo s.variableCount τ → ∀ y < n, ∀ x < n, r σ y x = r τ y x)

include hs hrel hr

theorem run_hasImage :
    ∃ t, (hasImage engine rel >>= (literalAlgebra engine).tensorClauses).run.run s = (.ok (), t) ∧
      Constrains s t fun σ => ∀ x < n, ∃ y < n, r σ y x = true := by
  refine run_demandCells hs (fun σ => returns_hasImage engine hs σ (hrel σ)) (fun σ => ?_) ?_
  · simp [Shape.forall_contains_cons, Shape.forall_contains_nil]
  · intro σ τ hagree h x hx
    obtain ⟨y, hy, hyx⟩ := h x hx
    exact ⟨y, hy, (hr σ τ hagree y hy x hx).symm.trans hyx⟩

omit hs hrel in
theorem dependsUpTo_sameImage : Assignment.DependsUpTo s.variableCount fun σ =>
    ∀ y < n, ∀ z < n, ∀ x < n, r σ y x = true → r σ z x = true → y = z := by
  intro σ τ hagree h y hy z hz x hx hyx hzx
  rw [← hr σ τ hagree y hy x hx] at hyx
  rw [← hr σ τ hagree z hz x hx] at hzx
  exact h y hy z hz x hx hyx hzx

theorem run_sameImage :
    ∃ t, (sameImage engine n rel >>= (literalAlgebra engine).tensorClauses).run.run s = (.ok (), t) ∧
      Constrains s t fun σ =>
        ∀ y < n, ∀ z < n, ∀ x < n, r σ y x = true → r σ z x = true → y = z := by
  refine run_demandCells hs (fun σ => returns_sameImage engine hs σ (hrel σ)) (fun σ => ?_)
    (dependsUpTo_sameImage hr)
  simp only [Shape.forall_contains_cons, Shape.forall_contains_nil, List.mem_cons,
    List.not_mem_nil, or_false, exists_eq_or_imp, exists_eq_left, List.getD_cons_zero,
    List.getD_cons_succ, Bool.not_eq_true', beq_iff_eq]
  refine forall₂_congr fun y _ => forall₂_congr fun z _ => forall₂_congr fun x _ => ?_
  cases r σ y x <;> cases r σ z x <;> simp

/-- The clauses demand just that the relation is the graph of a function. -/
theorem run_demandFunction :
    ∃ t, ((literalAlgebra engine).demandFunction rel).run.run s = (.ok (), t) ∧
      Constrains s t fun σ => IsGraph n (r σ) := by
  obtain ⟨t, hrun, ht⟩ := run_hasImage engine hs hrel hr
  have hle := ht.variableCount_le
  obtain ⟨u, hrun', hu⟩ := run_sameImage engine (ht.ready hs) (fun σ => ht.storesTensor (hrel σ))
    fun σ τ hagree => hr σ τ (hagree.mono hle)
  refine ⟨u, ?_, (ht.trans hu (dependsUpTo_sameImage hr)).congr fun σ _ => isGraph_iff.symm⟩
  rw [demandFunction_eq engine (hrel fun _ => true).shape_eq]
  exact (run_bind_of_ok hrun).trans hrun'

end Demand

end Solver

end BoolTensor
