import BoolTensor.Proofs.Program.Correspondence
import BoolTensor.Proofs.Program.Gate
import BoolTensor.Proofs.Solver.Constants

/-!
# Programs on constant literals

A program over literals whose elements are constants allocates no variable and records no clause.
Everything that it gives are constants, those of the truth values that it computes over truth
values.

## Main definitions

* `Storage.Lifts`: a vector of the constants of given truth values
-/

namespace BoolTensor

/-- The first vector stores the constant literals of the truth values of the second one. -/
structure Storage.Lifts (kind : Kind) (v : Storage Literal) (w : Storage Bool) : Prop where
  kind_eq : w.kind = kind
  wellFormed : w.WellFormed
  holds : v.Holds .dense (w.toList.map Solver.lift)

namespace Solver

theorem relates_lifts (kind : Kind) :
    constants.Relates (.storedTruth kind) (Storage.Lifts kind) fun l value => l = lift value where
  stores s t v w := by
    rw [Reading.storesAlike_truth_iff]
    constructor
    · rintro ⟨hv, hkind, hwell⟩
      have hvalues : v.toList = w.toList.map lift :=
        List.forall₂_eq_eq_eq ▸ List.forall₂_map_right_iff.2 hv.reads
      exact ⟨hkind, hwell, hv.kind_eq, hv.wellFormed, hvalues⟩
    · rintro ⟨hkind, hwell, hdense, hwell', hvalues⟩
      refine ⟨⟨hdense, hwell', ?_⟩, hkind, hwell⟩
      rw [hvalues]
      exact List.forall₂_map_left_iff.2 (List.forall₂_same.2 fun _ _ => rfl)
  reads _ _ l value := by
    constructor
    · rintro ⟨_, hl, rfl⟩
      exact hl
    · exact fun hl => ⟨value, hl, rfl⟩

/-- Gates and programs on constant literals leave the solver as it is, and give the constants of what
they compute over truth values; a program is refused at the same instructions, for the same reasons.
It makes no more cells at once than can be counted, and where the truth values are packed it cuts
them within the limits of arrays. -/
theorem runAll_lift (engine : Engine) (s : Solver Literal) :
    let alg := (literalAlgebra engine).toBoolAlgebra
    (∀ step : GateStep Bool, ((step.map lift).run alg).run s =
      (lift (step.run (truthAlgebra : BoolAlgebra Id Bool)), s)) ∧
    ∀ kind ≠ Kind.counted, ∀ (steps : List (CircuitStep Bool)) (r : Registers Literal)
      (q : Registers Bool), r.Corresponds (Storage.Lifts kind) q →
      Along (CircuitStep.overTruth kind) (fun step q => step.Operands q ∧ step.Fits kind q) steps q →
      ∀ n,
        let x := Runs.run
          (runAll (fun step => (step.map lift).run alg alg.tensorGates) (steps.take n) r) s
        let y := runAll (m := Id) (CircuitStep.overTruth kind) (steps.take n) q
        x.2 = s ∧ x.1.2.Corresponds (Storage.Lifts kind) y.2 ∧
          List.Forall₂ (Agree (Outcome.Corresponds fun l value => l = lift value)) x.1.1 y.1 := by
  intro alg
  constructor
  · intro step
    -- The states of this reading grow to nothing but themselves.
    have hgate := step.gives_run (g := id) (constants_realizes engine) (s := s) trivial
      fun _ _ => rfl
    rw [GateStep.map_id] at hgate
    rw [GateStep.run_truth]
    exact Prod.ext hgate.2 hgate.1
  · intro kind hkind steps r q hrq hsteps n
    have hfits : Along (CircuitStep.overTruth kind)
        (fun step q => step.Operands q ∧ step.Fits .dense q ∧ step.Fits kind q) steps q :=
      hsteps.imp fun step q h => ⟨h.1, h.2.dense, h.2⟩
    have hrun := (relates_lifts kind).runAll (s := s) hkind (constants_realizes engine) trivial hrq
      lift id (fun _ _ _ _ => rfl) ((CircuitStep.overTruth_map_id kind).symm ▸ hfits) n
    rw [CircuitStep.overTruth_map_id] at hrun
    exact hrun

/-- A program on constants, over a solver with three variables. -/
theorem runAll_lift_numbers :
    let alg := (literalAlgebra searchEngine).toBoolAlgebra
    let s : Solver Literal := ⟨3, #[[1], [2, -3]], 0, #[], none⟩
    let steps : List (CircuitStep Bool) := [.vector [true, false, true], .numLift 3 6,
      .numSub 1 0, .compare .le 0 2, .constant [2, 2] true, .tensorReduce .sum 0, .get 1 [1]]
    let x := Runs.run (runAll (fun step => (step.map lift).run alg alg.tensorGates) steps .empty) s
    let y := runAll (m := Id) (CircuitStep.overTruth .packed) steps .empty
    ((x.2 = s ∧ x.1.2.Corresponds (Storage.Lifts .packed) y.2 ∧
      List.Forall₂ (Agree (Outcome.Corresponds fun l value => l = lift value)) x.1.1 y.1) ∧
      x.1.1.getLast? = some (.ok (.element (-1)))) := by
  intro alg s steps x y
  have hsteps : Along (CircuitStep.overTruth .packed)
      (fun step q => step.Operands q ∧ step.Fits .packed q) steps .empty := by
    decide +kernel
  have hrun := (runAll_lift searchEngine s).2 .packed (by decide) steps .empty .empty (.empty _)
    hsteps 7
  exact ⟨hrun, rfl⟩

/-- Literals are cut into no chunks where there are none of that length; packed truth values are
not cut into such. -/
theorem exists_runAll_lift_ne : ∃ steps : List (CircuitStep Bool),
    let alg := (literalAlgebra searchEngine).toBoolAlgebra
    Along (CircuitStep.overTruth .packed) (fun step q => step.Operands q) steps .empty ∧
      (Runs.run (runAll (fun step => (step.map lift).run alg alg.tensorGates) steps .empty) new).1.1 =
        [.ok (.vector 0), .ok (.vectors [])] ∧
      (runAll (m := Id) (CircuitStep.overTruth .packed) steps .empty).1 =
        [.ok (.vector 0), .error .dimensionTooLarge] :=
  ⟨[.vector [true, false], .split 0 (2 ^ 63)], ⟨trivial, Nat.one_pos, trivial⟩, rfl, rfl⟩

end Solver

end BoolTensor
