import BoolTensor.Proofs.Algebra.Valuation
import BoolTensor.Proofs.Program.Correspondence
import BoolTensor.Proofs.Program.Gate

/-!
# Programs over a backend of four primitive gates

If the primitive gates of a backend respect truth values of its elements, a program over the backend
computes, element by element, what the same program computes over truth values.

## Main definitions

* `Storage.HasValues`: a vector of elements with given values
-/

namespace BoolTensor

variable {m : Type → Type} [Monad m] {σ α : Type} [Runs m σ] [Element α]

/-- The elements of the first vector have the truth values that the second one stores. -/
structure Storage.HasValues (v : α → Bool) (kind kind' : Kind) (x : Storage α) (w : Storage Bool) :
    Prop where
  kind_eq : x.kind = kind
  wellFormed : x.WellFormed
  holds : w.Holds kind' (x.toList.map v)

theorem Reading.relates_hasValues (v : α → Bool) (kind kind' : Kind) :
    Relates (valued v kind : Reading σ α) (storedTruth kind') (Storage.HasValues v kind kind')
      fun a value => v a = value where
  stores s t x w := by
    rw [storesAlike_truth_iff]
    constructor
    · rintro ⟨hx, hkind, hwell⟩
      have hvalues : x.toList.map v = w.toList :=
        List.forall₂_eq_eq_eq ▸ List.forall₂_map_left_iff.2 hx.reads
      exact ⟨hx.kind_eq, hx.wellFormed, hkind, hwell, hvalues.symm⟩
    · rintro ⟨hkind, hwell, hkind', hwell', hvalues⟩
      refine ⟨⟨hkind, hwell, ?_⟩, hkind', hwell'⟩
      rw [hvalues]
      exact List.forall₂_map_right_iff.2 (List.forall₂_same.2 fun _ _ => rfl)
  reads _ _ a b := ⟨fun ⟨_, ha, hb⟩ => ha.trans hb.symm, fun h => ⟨b, h, rfl⟩⟩

namespace Valuation

variable {v : α → Bool} {kind : Kind} {lift : Bool → m α} {neg : α → m α} {or xor : α → α → m α}

/-- Truth values that the four primitive gates respect are respected by all other gates, on any
number of elements, and by every program: over truth values it is refused at the same instructions,
for the same reasons, and otherwise computes the values of what it gives over the backend. Programs
make no more cells at once than can be counted, and cut packed vectors within the limits of arrays. -/
theorem run_eq_overTruth (h : Valuation v kind lift neg or xor) :
    let alg := BoolAlgebra.ofPrimitives kind lift neg or xor
    (∀ (step : GateStep α) (s : σ), v (Runs.run (step.run alg) s).1 =
      (step.map v).run (truthAlgebra : BoolAlgebra Id Bool)) ∧
    ∀ kind' ≠ Kind.counted, ∀ (steps : List (CircuitStep α)) (s : σ) (r : Registers α)
      (q : Registers Bool), r.Corresponds (Storage.HasValues v kind kind') q →
      Along (fun step : CircuitStep α => (step.map v).overTruth kind')
        (fun step q => step.Operands q ∧ step.Fits kind q ∧ step.Fits kind' q) steps q →
      ∀ n,
        let x := (Runs.run (runAll (fun step => step.run alg alg.tensorGates) (steps.take n) r) s).1
        let y := runAll (m := Id) (fun step => (step.map v).overTruth kind') (steps.take n) q
        x.2.Corresponds (Storage.HasValues v kind kind') y.2 ∧
          List.Forall₂ (Agree (Outcome.Corresponds fun a value => v a = value)) x.1 y.1 := by
  intro alg
  constructor
  · intro step s
    have hgate := step.gives_run (f := id) h.realizes (s := s) trivial fun a _ => rfl
    rw [GateStep.map_id] at hgate
    rw [GateStep.run_truth]
    exact hgate.2
  · intro kind' hkind' steps s r q hrq hsteps n
    have hrun := (Reading.relates_hasValues v kind kind').runAll (s := s) hkind' h.realizes trivial
      hrq id v (fun _ _ _ _ => rfl) hsteps n
    simp only [CircuitStep.map_id] at hrun
    exact hrun.2

/-- A truth value, computed by a gate that counts itself. -/
def counted (value : Bool) : StateM Nat Bool := fun count => (value, count + 1)

/-- Truth values may stand for their negations: conjunction is then what disjunction is to them. -/
theorem not_counted : Valuation not .dense (fun value => counted !value) (fun a => counted !a)
    (fun a b => counted (a && b)) (fun a b => counted (a == b)) where
  keeps _ := rfl
  lift _ value := Bool.not_not value
  neg _ _ := rfl
  or _ a b := Bool.not_and a b
  xor _ a b := by
    change (!(a == b)) = ((!a) != !b)
    cases a <;> cases b <;> rfl

/-- A program over negated truth values, which calls 58 gates. -/
theorem run_eq_overTruth_counted :
    let alg : BoolAlgebra (StateM Nat) Bool := .ofPrimitives .dense (fun value => counted !value)
      (fun a => counted !a) (fun a b => counted (a && b)) (fun a b => counted (a == b))
    let steps : List (CircuitStep Bool) := [.vector [false, true], .vector [false, false],
      .numAdd 0 1, .compare .lt 0 2, .tensor [2] [true, false], .tensorReduce .all 0, .get 1 [0]]
    let x := Runs.run (runAll (fun step => step.run alg alg.tensorGates) steps .empty) 0
    let y := runAll (m := Id) (fun step => (step.map not).overTruth .packed) steps .empty
    (∀ (step : GateStep Bool) (s : Nat), (!(Runs.run (step.run alg) s).1) =
      (step.map not).run (truthAlgebra : BoolAlgebra Id Bool)) ∧
    x.1.2.Corresponds (Storage.HasValues not .dense .packed) y.2 ∧
      List.Forall₂ (Agree (Outcome.Corresponds fun a value => (!a) = value)) x.1.1 y.1 ∧
      x.2 = 58 := by
  intro alg steps x y
  have hsteps : Along (fun step : CircuitStep Bool => (step.map not).overTruth .packed)
      (fun step q => step.Operands q ∧ step.Fits .dense q ∧ step.Fits .packed q) steps .empty := by
    decide +kernel
  obtain ⟨hgates, hprograms⟩ := run_eq_overTruth not_counted
  obtain ⟨hregisters, houtcomes⟩ :=
    hprograms .packed (by decide) steps 0 .empty .empty (.empty _) hsteps 7
  exact ⟨hgates, hregisters, houtcomes, by decide +kernel⟩

/-- Truth values stored one by one are such a backend. A vector of them has no chunks longer than
itself; a packed one is not cut into such. -/
theorem exists_run_ne_overTruth :
    ∃ (lift neg : Bool → Id Bool) (or xor : Bool → Bool → Id Bool) (steps : List (CircuitStep Bool)),
      let alg := BoolAlgebra.ofPrimitives .dense lift neg or xor
      Valuation id .dense lift neg or xor ∧
      Along (CircuitStep.overTruth .packed) (fun step q => step.Operands q) steps .empty ∧
      (runAll (m := Id) (fun step => CircuitStep.run alg alg.tensorGates step) steps .empty).1 =
        [.ok (.vector 0), .ok (.vectors [])] ∧
      (runAll (m := Id) (CircuitStep.overTruth .packed) steps .empty).1 =
        [.ok (.vector 0), .error .dimensionTooLarge] :=
  ⟨pure, fun a => !a, fun a b => a || b, fun a b => a != b,
    [.vector [true, false], .split 0 (2 ^ 63)],
    ⟨fun _ => rfl, fun _ _ => rfl, fun _ _ => rfl, fun _ _ _ => rfl, fun _ _ _ => rfl⟩,
    ⟨trivial, Nat.one_pos, trivial⟩, rfl, rfl⟩

end Valuation

end BoolTensor
