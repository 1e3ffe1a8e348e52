import BoolTensor.Proofs.Algebra.Point
import BoolTensor.Proofs.Program.Circuit

/-!
# Circuits on elements that can be read

Over an algebra whose gates are read as their values, an instruction on elements that can be read
gives elements that can be read, in a later state, or it is refused with at most a constant made,
which leaves the state as it was if constants cost nothing. Which values are read does not matter
here, so the instruction is set against its run over one element, where any value may be read.

## Main definitions

* `Reading.Readable`: registers whose elements are read as some truth values
* `Registers.shadow`: registers of as many vectors of the one element
-/

namespace BoolTensor

/-- An element corresponds to elements only. -/
theorem Outcome.Corresponds.exists_of_element {α β : Type} {P : α → β → Prop} {a : α}
    {o : Outcome β} (h : (Outcome.element a).Corresponds P o) : ∃ b, P a b := by
  cases h with
  | element h => exact ⟨_, h⟩

variable {α : Type}

/-- Which operands are there depends on the number of vectors and tensors only. -/
theorem CircuitStep.operands_congr {β ρ : Type} {step : CircuitStep ρ}
    {r : Registers α} {q : Registers β} (hbank : r.bank.vectors.size = q.bank.vectors.size)
    (hviews : r.views = q.views) : step.Operands r ↔ step.Operands q := by
  cases step <;> simp only [Operands, Bank.Has, hbank, hviews]

variable [Element α]

/-- As many of the one element in the place of the elements of each vector. -/
def Registers.shadow (r : Registers α) : Registers Unit :=
  ⟨⟨r.bank.vectors.map fun v => .ofList .dense (v.toList.map fun _ => ())⟩, r.views⟩

theorem Registers.find_shadow {r : Registers α} {handle : Bank.Handle} (h : r.bank.Has handle) :
    r.shadow.bank.find handle = .ofList .dense ((r.bank.find handle).toList.map fun _ => ()) := by
  have hsize : handle < r.bank.vectors.size := h
  simp only [shadow, Bank.find, Array.getD_eq_getD_getElem?, Array.getElem?_map,
    Array.getElem?_eq_getElem hsize, Option.map_some, Option.getD_some]

namespace Reading

variable {m : Type → Type} [Monad m] {σ : Type} [Runs m σ] {R : Reading σ α} {s : σ}
  {r : Registers α}

/-- The elements of all vectors are read as some truth values, and the tensors are those of their
shapes. -/
structure Readable (R : Reading σ α) (s : σ) (r : Registers α) : Prop where
  vectors : ∀ handle, r.bank.Has handle → ∃ values, R.Stores s (r.vector handle) values
  tensors : ∀ number < r.views.size, r.HasTensor number ∧ (r.tensor number).WellFormed

theorem Readable.registersAlike (h : R.Readable s r) :
    RegistersAlike R (point .dense) s () r r.shadow where
  views_eq := rfl
  vectors := by
    refine ⟨(Array.size_map ..).symm, fun handle hhandle => ?_⟩
    obtain ⟨values, hvalues⟩ := h.vectors handle hhandle
    have hlength : ((r.bank.find handle).toList.map fun _ => ()).length = values.length := by
      rw [List.length_map]
      exact hvalues.reads.length_eq
    rw [Registers.find_shadow hhandle]
    exact ⟨values, hvalues, (point_realizes (m := Id) .dense).stores_vector
      (readsList_point_iff.2 hlength)⟩
  tensors := h.tensors

theorem RegistersAlike.readable {Q : Reading Unit Unit} {q : Registers Unit} {t : Unit}
    (h : RegistersAlike R Q s t r q) : R.Readable s r where
  vectors handle hhandle := by
    obtain ⟨values, hvalues, -⟩ := h.vectors.find handle hhandle
    exact ⟨values, hvalues⟩
  tensors := h.tensors

/-- A constant that is not that of a shape, or has too many cells, is refused once it is made. -/
theorem exists_run_circuit_eq_error (alg : BoolAlgebra m α) {step : CircuitStep α}
    (gates : TensorGates m α) (r : Registers α) {q : Registers Unit}
    (h : ¬(step.Shaped ∧ step.Fits .dense q)) :
    ∃ e value, Runs.run (step.run alg gates r).run s =
      (.error e, (Runs.run (alg.lift value) s).2) := by
  cases step with
  | constant dims value =>
    cases hshape : Shape.ofInts dims with
    | error e =>
      exact ⟨e, value, Runs.run_bind_of_error (alg.run_constantOf_of_error hshape value s)⟩
    | ok shape =>
      have hcount : indexLimit < shape.size := by
        by_contra hle
        exact h ⟨⟨shape, hshape⟩, fun _ hother => by
          obtain rfl := Except.ok.inj (hshape.symm.trans hother)
          exact not_lt.1 hle⟩
      obtain ⟨e, he⟩ := alg.exists_run_constant_eq_error hcount value
      rw [← alg.constantOf_of_ofInts hshape] at he
      exact ⟨e, value, Runs.run_bind_of_error (by rw [he, Runs.run_bind, Runs.run_pure])⟩
  | diagonal dim =>
    have hcount : indexLimit < dim.toNat * dim.toNat := not_le.1 fun hle => h ⟨trivial, hle⟩
    have hdim : 0 ≤ dim := by
      by_contra hneg
      rw [Int.toNat_of_nonpos (not_le.1 hneg).le] at hcount
      exact Nat.not_lt_zero _ hcount
    lift dim to Nat using hdim
    rw [Int.toNat_natCast] at hcount
    obtain ⟨e, he⟩ := alg.exists_run_diagonal_eq_error hcount
    exact ⟨e, false, Runs.run_bind_of_error (by rw [he, Runs.run_bind, Runs.run_pure]; rfl)⟩
  | split v size => exact absurd ⟨trivial, nofun⟩ h
  | _ => exact absurd ⟨trivial, trivial⟩ h

/-- An instruction on elements that can be read gives such elements, or it is refused and does
nothing, if the making of a constant does nothing. -/
theorem Realizes.run_circuit {alg : BoolAlgebra m α} (h : R.Realizes alg) (hkind : R.kind = .dense)
    (hlift : ∀ value, (Runs.run (alg.lift value) s).2 = s) (hs : R.valid s) (hr : R.Readable s r)
    (step : CircuitStep α)
    (helems : ∀ a ∈ step.elems, ∃ value, R.reads s a value) (hoperands : step.Operands r) :
    (∃ outcome r' t, Runs.run (step.run alg alg.tensorGates r).run s = (.ok (outcome, r'), t) ∧
      R.grows s t ∧ (∀ a, outcome = .element a → ∃ value, R.reads t a value) ∧ R.Readable t r') ∨
    ∃ e, Runs.run (step.run alg alg.tensorGates r).run s = (.error e, s) := by
  have hcoupled : R.Coupled (point .dense) alg
      ({ pointAlgebra with kind := .dense } : BoolAlgebra Id Unit) s () :=
    ⟨h, point_realizes .dense, hs, trivial⟩
  by_cases hbuilds : step.Shaped ∧ step.Fits .dense r.shadow
  case neg =>
    obtain ⟨e, value, he⟩ := exists_run_circuit_eq_error (s := s) alg alg.tensorGates r hbuilds
    exact .inr ⟨e, he.trans (congrArg (Prod.mk _) (hlift value))⟩
  have hsize : r.bank.vectors.size = r.shadow.bank.vectors.size := (Array.size_map ..).symm
  -- Elements are stored one by one on both sides, where vectors have no limits of their own.
  have halike := alike_run hcoupled hr.registersAlike id (fun _ => ()) step
    (fun a ha => (helems a ha).imp fun _ hvalue => ⟨hvalue, trivial⟩)
    ((CircuitStep.operands_congr hsize rfl).1 hoperands) (hkind ▸ hbuilds.2) hbuilds.2 hbuilds.1
  rw [CircuitStep.map_id] at halike
  cases halike with
  | ok hx _ hgrows _ hresult =>
    refine .inl ⟨_, _, _, hx, hgrows, fun a ha => ?_, hresult.2.readable⟩
    obtain ⟨_, value, hvalue, -⟩ := (ha ▸ hresult.1).exists_of_element
    exact ⟨value, hvalue⟩
  | error e hx _ => exact .inr ⟨e, hx⟩

end Reading

end BoolTensor
