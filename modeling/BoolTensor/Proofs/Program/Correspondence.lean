import BoolTensor.Proofs.Algebra.Valuation
import BoolTensor.Proofs.Program.Circuit

/-!
# Registers that correspond to each other

Where elements are read in the same way in every state, registers that are read alike are registers
whose vectors correspond, whatever was done in between. A program over two algebras then leaves
corresponding registers after each instruction. The relation between the vectors is a parameter: it
may be that they have the same length, or that the elements of one are values of those of the other.

## Main definitions

* `Registers.Corresponds`: the same tensors, over corresponding vectors
* `Reading.Relates`: vectors and elements that are read alike, in whatever states
* `CircuitStep.overTruth`: an instruction over truth values
-/

namespace BoolTensor

/-- An instruction over truth values, stored in vectors of this kind. -/
def CircuitStep.overTruth (kind : Kind) (step : CircuitStep Bool) (q : Registers Bool) :
    Except Error (Outcome Bool × Registers Bool) :=
  step.run (kind.truthAlgebra : BoolAlgebra Id Bool) kind.truthAlgebra.tensorGates q

theorem CircuitStep.overTruth_map_id (kind : Kind) :
    (fun step => overTruth kind (step.map id)) = overTruth kind := by
  simp only [map_id]

variable {α β : Type} [Element α] [Element β]

/-- The registers have the same tensors, over vectors that correspond to each other. -/
structure Registers.Corresponds (P : Storage α → Storage β → Prop) (r : Registers α)
    (q : Registers β) : Prop where
  views_eq : r.views = q.views
  vectors : r.bank.Corresponds P q.bank
  tensors : ∀ number < r.views.size, r.HasTensor number ∧ (r.tensor number).WellFormed

theorem Registers.Corresponds.empty (P : Storage α → Storage β → Prop) :
    Registers.empty.Corresponds P Registers.empty :=
  ⟨rfl, .empty, fun number hnumber => absurd hnumber (Nat.not_lt_zero number)⟩

namespace Reading

variable {m n : Type → Type} [Monad m] [Monad n] {σ τ : Type} [Runs m σ] [Runs n τ]
  {R : Reading σ α} {Q : Reading τ β} {P : Storage α → Storage β → Prop} {E : α → β → Prop}

/-- Vectors are read alike where they correspond, and so are elements, in whatever states. -/
structure Relates (R : Reading σ α) (Q : Reading τ β) (P : Storage α → Storage β → Prop)
    (E : α → β → Prop) : Prop where
  stores : ∀ s t v w, StoresAlike R Q s t v w ↔ P v w
  reads : ∀ s t a b, ReadsAlike R Q s t a b ↔ E a b

/-- A vector is read as the elements of a vector of truth values. -/
theorem storesAlike_truth_iff {kind : Kind} {s : σ} {t : Unit} {v : Storage α} {w : Storage Bool} :
    StoresAlike R (storedTruth kind) s t v w ↔
      R.Stores s v w.toList ∧ w.kind = kind ∧ w.WellFormed := by
  constructor
  · rintro ⟨values, hv, hw⟩
    have hvalues : w.toList = values := List.forall₂_eq_eq_eq ▸ hw.reads
    exact ⟨hvalues ▸ hv, hw.kind_eq, hw.wellFormed⟩
  · rintro ⟨hv, hkind, hwell⟩
    exact ⟨_, hv, hkind, hwell, List.forall₂_same.2 fun _ _ => rfl⟩

namespace Relates

variable {s : σ} {t : τ} {r : Registers α} {q : Registers β}

theorem registersAlike_iff (h : Relates R Q P E) :
    RegistersAlike R Q s t r q ↔ r.Corresponds P q :=
  ⟨fun hrq => ⟨hrq.views_eq, hrq.vectors.imp fun v w => (h.stores s t v w).1, hrq.tensors⟩,
    fun hrq => ⟨hrq.views_eq, hrq.vectors.imp fun v w => (h.stores s t v w).2, hrq.tensors⟩⟩

/-- A program over an algebra whose gates are read as their values leaves registers that correspond,
after each instruction, to those that it leaves over truth values, and gives corresponding outcomes:
it is refused at the same instructions, for the same reasons. -/
theorem runAll {P : Storage α → Storage Bool → Prop} {E : α → Bool → Prop} {q : Registers Bool}
    {kind : Kind} {alg : BoolAlgebra m α} (h : Relates R (storedTruth kind) P E)
    (hkind : kind ≠ .counted) (halg : R.Realizes alg) (hs : R.valid s) (hrq : r.Corresponds P q)
    {ρ : Type} (f : ρ → α) (g : ρ → Bool) {steps : List (CircuitStep ρ)}
    (helems : ∀ step ∈ steps, ∀ elem ∈ step.elems, E (f elem) (g elem))
    (hsteps : Along (fun step => (step.map g).overTruth kind)
      (fun step q => step.Operands q ∧ step.Fits R.kind q ∧ step.Fits kind q) steps q) (n : Nat) :
    let x := Runs.run
      (BoolTensor.runAll (fun step => (step.map f).run alg alg.tensorGates) (steps.take n) r) s
    let y := BoolTensor.runAll (m := Id) (fun step => (step.map g).overTruth kind) (steps.take n) q
    R.grows s x.2 ∧ x.1.2.Corresponds P y.2 ∧
      List.Forall₂ (Agree (Outcome.Corresponds E)) x.1.1 y.1 := by
  have hcoupled : R.Coupled (storedTruth kind) alg (kind.truthAlgebra : BoolAlgebra Id Bool) s () :=
    ⟨halg, storedTruth_realizes hkind, hs, trivial⟩
  have hrun := alike_runAll hcoupled (h.registersAlike_iff.2 hrq) f g (steps.take n)
    (fun step hstep elem helem =>
      (h.reads s () _ _).2 (helems step (List.mem_of_mem_take hstep) elem helem))
    (hsteps.split n).1
  -- What is read alike, in a state that is not known here, corresponds in any state.
  obtain ⟨hgrows, hregisters, houtcomes⟩ := hrun
  refine ⟨hgrows, h.registersAlike_iff.1 hregisters, houtcomes.imp fun _ _ hagree => ?_⟩
  exact hagree.imp fun _ _ ho => ho.imp fun a b => (h.reads _ () a b).1

end Relates

end Reading

end BoolTensor
