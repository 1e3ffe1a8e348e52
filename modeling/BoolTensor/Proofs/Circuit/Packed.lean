import BoolTensor.Program.Circuit
import BoolTensor.Proofs.Circuit.Tensor
import BoolTensor.Proofs.Limits

/-!
# Whole arrays compute what single cells do

On tensors of truth values, however they are stored, the gates on whole arrays and the gates cell by
cell over the algebra of truth give the same, refusals included. Only a shape that is none of an
array makes a difference: it is refused on whole arrays, where no cell may be there to be refused.

## Main definitions

* `Shape.Addressable`: the dimensions, and the numbers of cells along the last ones, are indices
* `TensorTerm`, `TensorTerm.eval`: gates on tensors put together
* `TensorTerm.Coincide`: two computations give the same, from where gates can go on
-/

namespace BoolTensor

/-- Each dimension is an index, and so is the number of cells along the last dimensions. -/
def Shape.Addressable (s : Shape) : Prop :=
  (∀ dim ∈ s.dims, dim ≤ indexLimit) ∧ ∀ rest ∈ s.dims.tails, Shape.size ⟨rest⟩ ≤ indexLimit

instance (s : Shape) : Decidable s.Addressable :=
  inferInstanceAs (Decidable (_ ∧ _))

theorem Shape.Addressable.tail {dim : Nat} {dims : List Nat}
    (h : Shape.Addressable ⟨dim :: dims⟩) : Shape.Addressable ⟨dims⟩ := by
  obtain ⟨hdims, hsizes⟩ := h
  rw [List.forall_mem_cons] at hdims
  rw [List.tails, List.forall_mem_cons] at hsizes
  exact ⟨hdims.2, hsizes.2⟩

/-- Chunks are the blocks of so many elements one after the other. -/
theorem chunks_eq_map {α : Type} (size count : Nat) (elems : List α) :
    chunks size count elems =
      (List.range count).map fun i => (elems.take (i * size + size)).drop (i * size) := by
  induction count generalizing elems with
  | zero => rfl
  | succ count ih =>
    rw [chunks, ih, List.range_succ_eq_map, List.map_cons, List.map_map]
    refine congrArg₂ List.cons (by simp) (List.map_congr_left fun i _ => ?_)
    have hplace : size + i * size = i.succ * size := by rw [Nat.succ_mul, Nat.add_comm]
    rw [Function.comp, List.drop_take, List.drop_take, List.drop_drop, hplace,
      Nat.add_sub_cancel_left, Nat.add_sub_cancel_left]

section Gates

variable {m : Type → Type} [Monad m]

theorem tensorOf_truthAlgebra (shape : Shape) (bits : List Bool) :
    (truthAlgebra : BoolAlgebra m Bool).tensorOf shape bits = liftM (Tensor.ofBits shape bits) := by
  rw [BoolAlgebra.tensorOf, vector_truthAlgebra, Tensor.ofBits]

variable [LawfulMonad m]

/-- Negation of the whole array is that of each cell. -/
theorem liftM_packedNot (t : Tensor Bool) :
    (liftM t.packedNot : ExceptT Error m (Tensor Bool)) =
      (truthAlgebra : BoolAlgebra m Bool).tensorNot t := by
  rw [BoolAlgebra.tensorNot, mapM_neg, liftM_pure, pure_bind, tensorOf_truthAlgebra,
    Tensor.packedNot, truths_eq_toList]

/-- A gate on whole arrays is the one on each pair of cells. -/
theorem liftM_packedGate (gate : Gate) (t u : Tensor Bool) :
    (liftM (t.packedGate gate u) : ExceptT Error m (Tensor Bool)) =
      (truthAlgebra : BoolAlgebra m Bool).tensorGate gate t u := by
  rw [BoolAlgebra.tensorGate, BoolAlgebra.checkShapes, Tensor.packedGate]
  split_ifs
  · rw [mapM_gate, liftM_pure, pure_bind, pure_bind, tensorOf_truthAlgebra,
      truths_eq_toList, truths_eq_toList]
  · rw [throw_bind]
    rfl

/-- The rows of a matrix are the blocks of cells along the first dimension. -/
theorem rows_eq {head : Nat} {rest : List Nat} {elems : Storage Bool}
    (ht : Tensor.WellFormed ⟨⟨head :: rest⟩, elems⟩) (hshape : Shape.Addressable ⟨head :: rest⟩) :
    Tensor.rows ⟨⟨head :: rest⟩, elems⟩ head (Shape.size ⟨rest⟩) =
      .ok (chunks head (Shape.size ⟨rest⟩) elems.toList) := by
  obtain ⟨hdims, hsizes⟩ := hshape
  have hlength : elems.length = Shape.size ⟨rest⟩ * head := ht.trans (Nat.mul_comm _ _)
  have hwhole : Shape.size ⟨rest⟩ * head ≤ indexLimit := by
    rw [Nat.mul_comm]
    exact hsizes (head :: rest) (by simp)
  have harray := arrayDims_matrix (hsizes rest (by simp)) (hdims head (by simp)) hwhole
  rw [Tensor.rows, hlength, harray, truths_eq_toList]
  rfl

/-- Over truth values a gate along the first dimension takes each block of cells to one. -/
theorem tensorReduce_truthAlgebra (reduction : Reduction) {t : Tensor Bool} {head : Nat}
    {rest : List Nat} (ht : t.WellFormed) (hshape : t.shape = ⟨head :: rest⟩) :
    (truthAlgebra : BoolAlgebra m Bool).tensorReduce reduction t =
      liftM (Tensor.ofBits ⟨rest⟩ ((List.range (Shape.size ⟨rest⟩)).map fun i =>
        reduction.eval ((t.elems.toList.take (i * head + head)).drop (i * head)))) := by
  have hsplit : t.shape.splitFirst = .ok (head, ⟨rest⟩) := by
    rw [hshape]
    rfl
  have hblocks : ((List.range (Shape.size ⟨rest⟩)).mapM fun i => (do
      (truthAlgebra : BoolAlgebra m Bool).reduce reduction
        (← liftM (BoolAlgebra.firstAxisBlock t head i)) : ExceptT Error m Bool)) =
        pure ((List.range (Shape.size ⟨rest⟩)).map fun i =>
          reduction.eval ((t.elems.toList.take (i * head + head)).drop (i * head))) := by
    refine mapM_eq_pure fun i hi => ?_
    obtain ⟨block, hblock, helems⟩ :=
      exists_firstAxisBlock (ht.trans (congrArg Shape.size hshape)) (List.mem_range.1 hi)
    rw [hblock, liftM_ok, pure_bind, truthAlgebra_reduce, helems, liftM_pure]
  rw [BoolAlgebra.tensorReduce, hsplit, liftM_ok, pure_bind]
  dsimp only
  rw [hblocks, pure_bind, tensorOf_truthAlgebra]

/-- A gate on the rows of a matrix is the one on the cells along the first dimension. -/
theorem liftM_packedReduce (reduction : Reduction) {t : Tensor Bool} (ht : t.WellFormed)
    (hshape : t.shape.Addressable) :
    (liftM (t.packedReduce reduction) : ExceptT Error m (Tensor Bool)) =
      (truthAlgebra : BoolAlgebra m Bool).tensorReduce reduction t := by
  obtain ⟨⟨dims⟩, elems⟩ := t
  cases dims with
  | nil =>
    have hsplit : Shape.splitFirst ⟨[]⟩ = .error .noFirstDimension := rfl
    rw [Tensor.packedReduce, BoolAlgebra.tensorReduce, hsplit]
    exact (throw_bind ..).symm
  | cons head rest =>
    have hsplit : Shape.splitFirst ⟨head :: rest⟩ = .ok (head, ⟨rest⟩) := rfl
    have hpacked : Tensor.packedReduce reduction ⟨⟨head :: rest⟩, elems⟩ = Tensor.ofBits ⟨rest⟩
        ((chunks head (Shape.size ⟨rest⟩) elems.toList).map reduction.eval) := by
      rw [Tensor.packedReduce, hsplit]
      change (Tensor.rows ⟨⟨head :: rest⟩, elems⟩ head (Shape.size ⟨rest⟩) >>= _) = _
      rw [rows_eq ht hshape]
      rfl
    rw [hpacked, tensorReduce_truthAlgebra reduction ht rfl, chunks_eq_map, List.map_map]
    rfl

end Gates

/-! ### Gates put together -/

/-- Gates on tensors put together. -/
inductive TensorTerm where
  /-- A given tensor. -/
  | tensor (t : Tensor Bool)
  /-- Negation of each cell. -/
  | not (a : TensorTerm)
  /-- A gate on the cells at each coordinate. -/
  | gate (gate : Gate) (a b : TensorTerm)
  /-- A gate on the cells along the first dimension. -/
  | reduce (reduction : Reduction) (a : TensorTerm)

namespace TensorTerm

/-- The tensors that are given. -/
def given : TensorTerm → List (Tensor Bool)
  | tensor t => [t]
  | not a => a.given
  | gate _ a b => a.given ++ b.given
  | reduce _ a => a.given

/-- The tensor that the gates give. -/
def eval {m : Type → Type} [Monad m] (gates : TensorGates m Bool) :
    TensorTerm → ExceptT Error m (Tensor Bool)
  | tensor t => pure t
  | not a => do gates.not (← a.eval gates)
  | gate g a b => do
    let t ← a.eval gates
    gates.gate g t (← b.eval gates)
  | reduce reduction a => do gates.reduce reduction (← a.eval gates)

end TensorTerm

namespace Tensor

variable {t u : Tensor Bool}

/-- A tensor of bits has as many cells as its shape. -/
theorem of_ofBits {shape : Shape} {bits : List Bool} (h : ofBits shape bits = .ok t) :
    t.WellFormed ∧ t.shape = shape := by
  rw [ofBits, ofStorage] at h
  split_ifs at h with hsize
  obtain rfl := Except.ok.inj h
  exact ⟨hsize.symm, rfl⟩

theorem of_packedNot (h : t.packedNot = .ok u) : u.WellFormed ∧ u.shape = t.shape :=
  of_ofBits h

theorem of_packedGate {gate : Gate} {v : Tensor Bool} (h : t.packedGate gate u = .ok v) :
    v.WellFormed ∧ v.shape = t.shape := by
  rw [packedGate] at h
  split_ifs at h
  exact of_ofBits h

theorem of_packedReduce {reduction : Reduction} (h : t.packedReduce reduction = .ok u) :
    u.WellFormed ∧ ∃ head, t.shape.dims = head :: u.shape.dims := by
  obtain ⟨⟨dims⟩, elems⟩ := t
  rw [packedReduce] at h
  cases dims with
  | nil => cases h
  | cons head rest =>
    have hsplit : Shape.splitFirst ⟨head :: rest⟩ = .ok (head, ⟨rest⟩) := rfl
    rw [hsplit] at h
    change (rows ⟨⟨head :: rest⟩, elems⟩ head (Shape.size ⟨rest⟩) >>= _) = _ at h
    cases hrows : rows ⟨⟨head :: rest⟩, elems⟩ head (Shape.size ⟨rest⟩) with
    | error e => rw [hrows] at h; cases h
    | ok bits =>
      rw [hrows] at h
      obtain ⟨hu, hshape⟩ := of_ofBits h
      exact ⟨hu, head, by rw [hshape]⟩

end Tensor

namespace TensorTerm

variable {m : Type → Type} [Monad m] [LawfulMonad m]

/-- Two computations give the same tensor or the same refusal, without an effect, and from a tensor
that they give the gates can go on. -/
def Coincide (x y : ExceptT Error m (Tensor Bool)) : Prop :=
  ∃ result : Except Error (Tensor Bool), x = liftM result ∧ y = liftM result ∧
    ∀ t, result = .ok t → t.WellFormed ∧ t.shape.Addressable

omit [LawfulMonad m] in
theorem Coincide.eq {x y : ExceptT Error m (Tensor Bool)} (h : Coincide x y) : x = y := by
  obtain ⟨result, hx, hy, -⟩ := h
  rw [hx, hy]

theorem Coincide.bind {x y : ExceptT Error m (Tensor Bool)}
    {f g : Tensor Bool → ExceptT Error m (Tensor Bool)} (h : Coincide x y)
    (hfg : ∀ t, t.WellFormed → t.shape.Addressable → Coincide (f t) (g t)) :
    Coincide (x >>= f) (y >>= g) := by
  obtain ⟨result, rfl, rfl, hresult⟩ := h
  cases result with
  | error e => exact ⟨.error e, throw_bind e f, throw_bind e g, nofun⟩
  | ok t =>
    obtain ⟨ht, hshape⟩ := hresult t rfl
    rw [liftM_ok, pure_bind, pure_bind]
    exact hfg t ht hshape

/-- Whole arrays and single cells coincide. That results are within the limits is carried along for
the next reduction, the only gate that would be refused beyond them. -/
theorem coincide_eval (term : TensorTerm)
    (h : ∀ t ∈ term.given, t.WellFormed ∧ t.shape.Addressable) :
    Coincide (term.eval (packedGates : TensorGates m Bool))
      (term.eval (truthAlgebra : BoolAlgebra m Bool).tensorGates) := by
  induction term with
  | tensor t =>
    refine ⟨.ok t, rfl, rfl, fun u hu => ?_⟩
    obtain rfl := Except.ok.inj hu
    exact h _ (List.mem_singleton.2 rfl)
  | not a ih =>
    refine (ih h).bind fun t _ hshape =>
      ⟨t.packedNot, rfl, (liftM_packedNot t).symm, fun u hu => ?_⟩
    obtain ⟨hwell, hsame⟩ := Tensor.of_packedNot hu
    exact ⟨hwell, hsame ▸ hshape⟩
  | gate g a b iha ihb =>
    refine (iha fun t ht => h t (List.mem_append_left _ ht)).bind fun t _ hshape =>
      (ihb fun t ht => h t (List.mem_append_right _ ht)).bind fun u _ _ =>
        ⟨t.packedGate g u, rfl, (liftM_packedGate g t u).symm, fun v hv => ?_⟩
    obtain ⟨hwell, hsame⟩ := Tensor.of_packedGate hv
    exact ⟨hwell, hsame ▸ hshape⟩
  | reduce reduction a ih =>
    refine (ih h).bind fun t ht hshape =>
      ⟨t.packedReduce reduction, rfl, (liftM_packedReduce reduction ht hshape).symm, fun u hu => ?_⟩
    obtain ⟨hwell, head, hdims⟩ := Tensor.of_packedReduce hu
    have haddressable : Shape.Addressable ⟨head :: u.shape.dims⟩ := hdims ▸ hshape
    exact ⟨hwell, haddressable.tail⟩

/-- Gates on whole arrays, put together in any way, give what they give cell by cell: the same
tensor, or the same refusal. -/
theorem eval_packedGates (term : TensorTerm)
    (h : ∀ t ∈ term.given, t.WellFormed ∧ t.shape.Addressable) :
    term.eval (packedGates : TensorGates m Bool) =
      term.eval (truthAlgebra : BoolAlgebra m Bool).tensorGates :=
  (coincide_eval term h).eq

/-- The rows of a matrix that agree with another in each place. -/
theorem eval_packedGates_rows :
    let t : Tensor Bool := ⟨⟨[2, 2]⟩, .ofList .dense [true, false, true, true]⟩
    let u : Tensor Bool := ⟨⟨[2, 2]⟩, .ofList .packed [true, true, true, true]⟩
    let term := reduce .all (gate .equ (tensor t) (tensor u))
    (∀ t ∈ term.given, t.WellFormed ∧ t.shape.Addressable) ∧
      term.eval (packedGates : TensorGates Id Bool) =
        term.eval (truthAlgebra : BoolAlgebra Id Bool).tensorGates ∧
      (term.eval (packedGates : TensorGates Id Bool)).run.toOption.map (·.elems.toList) =
        some [false, true] := by
  intro t u term
  have h : ∀ t ∈ term.given, t.WellFormed ∧ t.shape.Addressable := by decide
  exact ⟨h, eval_packedGates term h, by decide +kernel⟩

/-- Whole arrays refuse a shape that cannot be one of theirs, although no cell is there. -/
theorem exists_eval_packedGates_ne : ∃ t : Tensor Bool, t.WellFormed ∧
    ((reduce .all (tensor t)).eval (packedGates : TensorGates Id Bool)).run =
      .error .dimensionTooLarge ∧
    ((reduce .all (tensor t)).eval (truthAlgebra : BoolAlgebra Id Bool).tensorGates).run =
      .ok ⟨⟨[0]⟩, .ofList .packed []⟩ := by
  refine ⟨⟨⟨[2 ^ 63, 0]⟩, .ofList .packed []⟩, rfl, ?_, ?_⟩
  · rfl
  · rfl

end TensorTerm

end BoolTensor
