import BoolTensor.Proofs.Algebra.Point
import BoolTensor.Proofs.Program.Correspondence

/-!
# Dry runs

Over the algebra of one element a program only counts elements. What it counts are the lengths of
the vectors that the same program builds over truth values, and it is refused at the same
instructions, for the same reasons. Lengths are checked before any gate is computed, so it does not
matter that the gates of one element never look at their operands.

## Main definitions

* `CircuitStep.dryRun`: an instruction over the one element
* `Storage.Counts`: a counted vector of the length of a packed one
-/

namespace BoolTensor

/-- An instruction over the one element, in the place of whatever elements it brings. -/
def CircuitStep.dryRun (step : CircuitStep Bool) (r : Registers Unit) :
    Except Error (Outcome Unit × Registers Unit) :=
  (step.map fun _ => ()).run (pointAlgebra : BoolAlgebra Id Unit) pointAlgebra.tensorGates r

/-- The first vector counts the elements of the second one, which is of the given kind. -/
structure Storage.Counts (kind : Kind) (v : Storage Unit) (w : Storage Bool) : Prop where
  counted : v.kind = .counted
  length_eq : v.length = w.length
  kind_eq : w.kind = kind
  wellFormed : w.WellFormed

namespace Reading

theorem relates_counts (kind : Kind) :
    Relates (point .counted) (storedTruth kind) (Storage.Counts kind) fun _ _ => True where
  stores s t v w := by
    rw [storesAlike_truth_iff]
    constructor
    · rintro ⟨hv, hkind, hwell⟩
      exact ⟨hv.kind_eq, hv.length_eq.trans (Storage.length_toList w), hkind, hwell⟩
    · rintro ⟨hcounted, hlength, hkind, hwell⟩
      refine ⟨⟨hcounted, Storage.wellFormed_of_kind_ne (by simp [hcounted]), ?_⟩, hkind, hwell⟩
      rw [readsList_point_iff, Storage.length_toList, Storage.length_toList, hlength]
  reads _ _ a b := ⟨fun _ => trivial, fun _ => ⟨b, trivial, rfl⟩⟩

end Reading

namespace CircuitStep

open Reading

/-- A dry run is refused where the program is over truth values, for the same reason, and otherwise
finds the same shapes, lengths and numbers of chunks. The program makes no more cells at once than
can be counted, and where the truth values are packed it cuts them within the limits of arrays. -/
theorem runAll_dryRun_lengths {kind : Kind} (hkind : kind ≠ .counted) {r : Registers Unit}
    {q : Registers Bool} (hrq : r.Corresponds (Storage.Counts kind) q)
    {steps : List (CircuitStep Bool)}
    (hsteps : Along (overTruth kind)
      (fun step q => step.Operands q ∧ step.Fits .counted q ∧ step.Fits kind q) steps q) (n : Nat) :
    let x := runAll (m := Id) dryRun (steps.take n) r
    let y := runAll (m := Id) (overTruth kind) (steps.take n) q
    x.2.Corresponds (Storage.Counts kind) y.2 ∧
      List.Forall₂ (Agree (Outcome.Corresponds fun _ _ => True)) x.1 y.1 := by
  have hrun := (relates_counts kind).runAll (s := ()) hkind (point_realizes (m := Id) .counted)
    trivial hrq (fun _ => ()) id (fun _ _ _ _ => trivial) ((overTruth_map_id kind).symm ▸ hsteps) n
  rw [overTruth_map_id] at hrun
  exact hrun.2

/-- A program of six instructions, three of which are refused. -/
theorem runAll_dryRun_lengths_refused :
    let steps : List (CircuitStep Bool) := [.constant [2, 3] true, .tensorReduce .sum 0, .split 1 2,
      .split 1 0, .numAdd 0 1, .get 1 [3]]
    let x := runAll (m := Id) dryRun steps .empty
    let y := runAll (m := Id) (overTruth .packed) steps .empty
    (x.2.Corresponds (Storage.Counts .packed) y.2 ∧
      List.Forall₂ (Agree (Outcome.Corresponds fun _ _ => True)) x.1 y.1) ∧
      x.1 = [.ok (.tensor 0), .ok (.tensor 1), .ok (.vectors [2]), .error (.chunkLength 0),
        .error (.operandLengths 6 3), .error (.coordinatesOutOfRange [3] [3])] := by
  intro steps x y
  have hsteps : Along (overTruth .packed) (fun step q =>
      step.Operands q ∧ step.Fits .counted q ∧ step.Fits .packed q) steps .empty := by
    decide +kernel
  exact ⟨runAll_dryRun_lengths (by decide) (.empty _) hsteps 6, rfl⟩

/-- A vector has no chunks longer than itself; a packed one is not cut into such. -/
theorem exists_dryRun_ne : ∃ steps : List (CircuitStep Bool),
    Along (overTruth .packed) (fun step q => step.Operands q ∧ step.Fits .counted q) steps .empty ∧
    (runAll (m := Id) dryRun steps .empty).1 = [.ok (.vector 0), .ok (.vectors [])] ∧
    (runAll (m := Id) (overTruth .packed) steps .empty).1 =
      [.ok (.vector 0), .error .dimensionTooLarge] :=
  ⟨[.vector [true, false], .split 0 (2 ^ 63)], ⟨⟨trivial, trivial⟩, ⟨Nat.one_pos, nofun⟩, trivial⟩,
    rfl, rfl⟩

end CircuitStep

end BoolTensor
