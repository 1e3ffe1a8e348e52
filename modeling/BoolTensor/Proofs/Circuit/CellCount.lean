import BoolTensor.Circuit.Constraint
import BoolTensor.Program.Circuit
import BoolTensor.Proofs.Tensor.CellCount

/-!
# Circuits keep the number of cells

Over every algebra, in whatever monad its gates compute, circuits on tensors give tensors with as
many cells as their shapes. Vectors and tensors are refused for their lengths and shapes, never for
the number of cells of a result.

## Main definitions

* `TensorGates.KeepCount`: gates on tensors with as many cells as their shapes give such tensors
* `SatAlgebra.Refuses`: what the clauses, solving and values of an algebra are refused with
-/

namespace BoolTensor

open MonadAttach

variable {m : Type → Type} [Monad m] [LawfulMonad m] [MonadAttach m] [LawfulMonadAttach m]
  {α : Type} [Element α] {E : Error → Prop}

namespace BoolAlgebra

variable (alg : BoolAlgebra m α) {v w : Storage α} {t u : Tensor α}

/-! ### Vectors -/

theorem ends_checkLengths (v w : Storage α) :
    Ends (checkLengths v w : ExceptT Error m Unit) (fun _ => True) Error.Uncounted := by
  rw [checkLengths]
  split_ifs
  · exact .pure trivial
  · exact .throw trivial

theorem ends_bitGate (gate : Gate) (v w : Storage α) :
    Ends (alg.bitGate gate v w) (fun _ => True) Error.Uncounted :=
  (ends_checkLengths v w).bind fun _ _ => Ends.lift_any.bind fun _ _ => .pure trivial

theorem ends_numAdd (v w : Storage α) :
    Ends (alg.numAdd v w) (fun _ => True) Error.Uncounted :=
  (ends_checkLengths v w).bind fun _ _ => Ends.lift_any.bind fun _ _ => .lift_any

theorem ends_numSub (v w : Storage α) :
    Ends (alg.numSub v w) (fun _ => True) Error.Uncounted :=
  (ends_checkLengths v w).bind fun _ _ => Ends.lift_any.bind fun _ _ =>
    Ends.lift_any.bind fun _ _ => .lift_any

theorem ends_numCompare (comparison : Comparison) (v w : Storage α) :
    Ends (alg.numCompare comparison v w) (fun _ => True) Error.Uncounted := by
  have hequal (v w : Storage α) : Ends (alg.numEq v w) (fun _ => True) Error.Uncounted :=
    (alg.ends_bitGate .equ v w).bind fun _ _ => .lift_any
  have hordered (v w : Storage α) : Ends (alg.numLe v w) (fun _ => True) Error.Uncounted :=
    (ends_checkLengths v w).bind fun _ _ => Ends.lift_any.bind fun _ _ =>
      Ends.lift_any.bind fun _ _ => .pure trivial
  cases comparison with
  | eq => exact hequal v w
  | ne => exact (hequal v w).bind fun _ _ => .lift_any
  | le => exact hordered v w
  | lt => exact (hordered w v).bind fun _ _ => .lift_any

/-! ### Tensors -/

theorem ends_tensorOf {shape : Shape} {elems : List α} (h : elems.length = shape.size) :
    Ends (alg.tensorOf shape elems) Tensor.WellFormed E :=
  .of_meets (Tensor.meets_ofStorage ((Storage.length_ofList _ elems).trans h))

theorem ends_constant (shape : Shape) (value : Bool) :
    Ends (alg.constant shape value) Tensor.WellFormed Error.OutOfBounds :=
  Ends.lift_any.bind fun elem _ => .of_meets (Tensor.meets_constant shape elem alg.kind)

theorem ends_constantOf (dims : List Int) (value : Bool) :
    Ends (alg.constantOf dims value) Tensor.WellFormed Error.Uncounted :=
  Ends.lift_any.bind fun elem _ => .of_meets ((Shape.meets_ofInts dims).bind fun shape _ =>
    (Tensor.meets_constant shape elem alg.kind).imp_error Error.uncounted_of_outOfBounds)

omit [LawfulMonad m] [MonadAttach m] [LawfulMonadAttach m] [Monad m] in
theorem meets_markDiagonal (dim : Nat) (elem : α) (elems : Storage α) :
    Meets (fun marked => marked.length = elems.length) Error.OutOfBounds
      (markDiagonal dim elem elems) := by
  rw [markDiagonal]
  induction List.range dim generalizing elems with
  | nil => exact rfl
  | cons i places ih =>
    refine (elems.meets_set _ elem).bind fun marked hlength => ?_
    exact (ih marked).imp (fun _ h => h.trans hlength) fun _ h => h

/-- Once its shape is there a diagonal is refused only where it is too large. -/
theorem ends_markedDiagonal (dim : Int) (shape : Shape) :
    Ends (do
      let tensor ← alg.constant shape false
      let unit ← alg.unit
      let elems ← liftM (markDiagonal dim.toNat unit tensor.elems)
      return { tensor with elems := elems }) Tensor.WellFormed Error.OutOfBounds := by
  refine (alg.ends_constant shape false).bind fun t ht => ?_
  refine Ends.lift_any.bind fun unit _ => ?_
  refine (Ends.of_meets (meets_markDiagonal _ unit t.elems)).bind fun elems hlength => .pure ?_
  exact hlength.trans ht

theorem ends_diagonal (dim : Int) :
    Ends (alg.diagonal dim) Tensor.WellFormed Error.Uncounted :=
  (Ends.of_meets (Shape.meets_ofInts _)).bind fun shape _ =>
    (alg.ends_markedDiagonal dim shape).imp_error Error.uncounted_of_outOfBounds

theorem ends_tensorNot (ht : t.WellFormed) :
    Ends (alg.tensorNot t) Tensor.WellFormed Error.Uncounted := by
  refine (Ends.lift fun _ => length_of_canReturn_mapM).bind fun elems hlength => ?_
  apply ends_tensorOf
  rw [hlength, Storage.length_toList, ht]

omit [Element α] in
theorem ends_checkShapes (t u : Tensor α) :
    Ends (checkShapes t u : ExceptT Error m Unit) (fun _ => t.shape = u.shape)
      Error.Uncounted := by
  rw [checkShapes]
  split_ifs with hshape
  · exact .pure hshape
  · exact .throw trivial

theorem ends_tensorGate (gate : Gate) (ht : t.WellFormed) (hu : u.WellFormed) :
    Ends (alg.tensorGate gate t u) Tensor.WellFormed Error.Uncounted := by
  refine (ends_checkShapes t u).bind fun _ hshape => ?_
  refine (Ends.lift fun _ => length_of_canReturn_mapM).bind fun elems hlength => ?_
  apply ends_tensorOf
  rw [hlength, List.length_zip, Storage.length_toList, Storage.length_toList, ht, hu, ← hshape,
    Nat.min_self]

/-- There is one result for each cell of the remaining dimensions. -/
theorem ends_tensorReduce (reduction : Reduction) (t : Tensor α) :
    Ends (alg.tensorReduce reduction t) Tensor.WellFormed Error.Uncounted := by
  refine (Ends.of_meets t.shape.meets_splitFirst).bind ?_
  rintro ⟨head, rest⟩ -
  refine (Ends.mapM fun i _ => ?_).bind fun elems hlength => ?_
  · exact ((Ends.of_meets (t.elems.meets_range _ _)).imp_error Error.uncounted_of_outOfBounds).bind
      fun _ _ => .lift_any
  apply ends_tensorOf
  rw [hlength, List.length_range]

end BoolAlgebra

namespace TensorGates

/-- Tensors with as many cells as their shapes give such tensors, and none is refused for the number
of its cells. -/
structure KeepCount (gates : TensorGates m α) : Prop where
  not : ∀ {t : Tensor α}, t.WellFormed →
    Ends (gates.not t) Tensor.WellFormed Error.Uncounted
  gate : ∀ (gate : Gate) {t u : Tensor α}, t.WellFormed → u.WellFormed →
    Ends (gates.gate gate t u) Tensor.WellFormed Error.Uncounted
  reduce : ∀ (reduction : Reduction) (t : Tensor α),
    Ends (gates.reduce reduction t) Tensor.WellFormed Error.Uncounted

theorem keepCount_cells (alg : BoolAlgebra m α) : alg.tensorGates.KeepCount where
  not ht := alg.ends_tensorNot ht
  gate gate _ _ ht hu := alg.ends_tensorGate gate ht hu
  reduce reduction t := alg.ends_tensorReduce reduction t

theorem keepCount_packed : (packedGates : TensorGates m α).KeepCount where
  not ht := .of_meets (Tensor.meets_packedNot ht)
  gate gate _ _ ht hu := .of_meets (Tensor.meets_packedGate gate ht hu)
  reduce reduction t := .of_meets (Tensor.meets_packedReduce reduction t)

end TensorGates

/-! ### Constraints -/

namespace SatAlgebra

/-- What a clause, a solve or the value of an element is refused with. -/
inductive Refuses (alg : SatAlgebra m α) (e : Error) : Prop
  | addClause {clause : List α} (h : CanReturn (alg.addClause clause).run (.error e))
  | findModel {assumptions : List α} (h : CanReturn (alg.findModel assumptions).run (.error e))
  | value {elem : α} (h : CanReturn (alg.value elem).run (.error e))

variable (alg : SatAlgebra m α) {t : Tensor α}

omit [Monad m] [LawfulMonad m] [LawfulMonadAttach m] [Element α]

theorem ends_addClause (clause : List α) :
    Ends (alg.addClause clause) (fun _ => True) alg.Refuses
  | .ok _, _ => trivial
  | .error _, h => .addClause h

theorem ends_findModel (assumptions : List α) :
    Ends (alg.findModel assumptions) (fun _ => True) alg.Refuses
  | .ok _, _ => trivial
  | .error _, h => .findModel h

theorem ends_value (elem : α) : Ends (alg.value elem) (fun _ => True) alg.Refuses
  | .ok _, _ => trivial
  | .error _, h => .value h

variable [Monad m] [LawfulMonad m] [LawfulMonadAttach m] [Element α]

theorem ends_tensorVariables (shape : Shape) :
    Ends (alg.tensorVariables shape) Tensor.WellFormed Error.Uncounted := by
  refine (Ends.lift fun _ => length_of_canReturn_mapM).bind fun elems hlength => ?_
  apply BoolAlgebra.ends_tensorOf
  rw [hlength, List.length_range]

theorem ends_tensorClauses (tensors : List (Tensor α)) :
    Ends (alg.tensorClauses tensors) (fun _ => True) fun e => e.Uncounted ∨ alg.Refuses e := by
  have hclause (clause : List α) : Ends (alg.addClause clause) (fun _ => True)
      fun e => e.Uncounted ∨ alg.Refuses e :=
    (alg.ends_addClause clause).imp_error fun _ => .inr
  cases tensors with
  | nil => exact hclause []
  | cons first others =>
    rw [tensorClauses]
    split
    · exact .throw (.inl trivial)
    · exact .forM fun clause _ => hclause clause

/-- There is one value for each cell. -/
theorem ends_tensorValues (ht : t.WellFormed) :
    Ends (alg.tensorValues t) Tensor.WellFormed fun e => e.Uncounted ∨ alg.Refuses e := by
  refine (Ends.mapM fun elem _ => (alg.ends_value elem).imp_error fun _ => .inr).bind
    fun values hlength => ?_
  refine Ends.of_meets (Tensor.meets_ofBits ?_)
  rw [hlength, Storage.length_toList, ht]

end SatAlgebra

end BoolTensor
