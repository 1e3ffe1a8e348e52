import BoolTensor.Proofs.Circuit.CellCount

/-!
# Operands that do not fit

Vectors of different lengths, tensors of different shapes, dimensions below zero, mappings and
numbers of dimensions that a shape does not have: a circuit looks for these before it computes
anything but a constant. Over every algebra whose constants cost nothing it is then no more than the
refusal, and no gate has been built; and once its operands fit it is not refused for them any more,
however far it gets.

## Main definitions

* `Error.Unfit`: the refusals of operands that do not fit
* `RefusedFirst`: a computation that is nothing but such a refusal, or never ends in one
* `lengths?`, `shapes?`, `negative?`, `mapping?`: what operands are refused with, if they do not fit
-/

namespace BoolTensor

open MonadAttach

/-- The refusal is that of operands that do not fit. -/
def Error.Unfit : Error → Prop
  | operandLengths _ _ | shapeMismatch _ _ | negativeDimension _ | mappingRank _ _
  | mappingInvalid _ _ _ | joinCount _ _ | chunkLength _ | noFirstDimension => True
  | _ => False

theorem Error.not_unfit_of_outOfBounds (e : Error) (h : e.OutOfBounds) : ¬e.Unfit := by
  cases e <;> first | exact id | exact h.elim

variable {m : Type → Type} [Monad m] [MonadAttach m] {β γ : Type}

/-- With an error, the computation is nothing but this refusal; without one it is not refused for
operands that do not fit. -/
def RefusedFirst (x : ExceptT Error m β) : Option Error → Prop
  | some e => x = throw e
  | none => Ends x (fun _ => True) fun e => ¬e.Unfit

variable [LawfulMonad m] [LawfulMonadAttach m]

namespace RefusedFirst

omit [LawfulMonad m] [LawfulMonadAttach m] in
theorem of_check {p : Prop} [Decidable p] {e : Error} {x : ExceptT Error m β}
    (hfit : p → Ends x (fun _ => True) fun e => ¬e.Unfit) (hunfit : ¬p → x = throw e) :
    RefusedFirst x (if p then none else some e) := by
  split_ifs with hp
  · exact hfit hp
  · exact hunfit hp

/-- What comes after the check must not be refused for operands that do not fit. -/
theorem bind {x : ExceptT Error m β} {f : β → ExceptT Error m γ} {unfit? : Option Error}
    (hx : RefusedFirst x unfit?) (hf : ∀ b, Ends (f b) (fun _ => True) fun e => ¬e.Unfit) :
    RefusedFirst (x >>= f) unfit? := by
  cases unfit? with
  | some e =>
    obtain rfl : x = throw e := hx
    exact throw_bind e f
  | none => exact Ends.bind hx fun b _ => hf b

theorem map {x : ExceptT Error m β} {f : β → γ} {unfit? : Option Error}
    (hx : RefusedFirst x unfit?) : RefusedFirst (do return f (← x)) unfit? :=
  hx.bind fun _ => .pure trivial

end RefusedFirst

/-! ### Checks -/

variable {α : Type} [Element α] {v w : Storage α} {t u : Tensor α}

def lengths? (v w : Storage α) : Option Error :=
  if v.length = w.length then none else some (.operandLengths v.length w.length)

def shapes? (s t : Shape) : Option Error :=
  if s = t then none else some (.shapeMismatch s.dims t.dims)

def negative? (dims : List Int) : Option Error :=
  if ∀ dim ∈ dims, 0 ≤ dim then none else some (.negativeDimension dims)

/-- What a mapping of dimensions is refused with, if it misfits. -/
def mapping? (source target : Shape) (mapping : List Int) : Option Error :=
  if mapping.length ≠ source.rank then some (.mappingRank mapping source.dims)
  else if Tensor.Misfits source target mapping then
    some (.mappingInvalid mapping source.dims target.dims)
  else none

theorem refusedFirst_checkLengths (v w : Storage α) :
    RefusedFirst (BoolAlgebra.checkLengths v w : ExceptT Error m Unit) (lengths? v w) := by
  refine .of_check (fun hlength => ?_) fun hlength => if_neg hlength
  rw [BoolAlgebra.checkLengths, if_pos hlength]
  exact .pure trivial

omit [Element α] in
theorem refusedFirst_checkShapes (t u : Tensor α) :
    RefusedFirst (BoolAlgebra.checkShapes t u : ExceptT Error m Unit)
      (shapes? t.shape u.shape) := by
  refine .of_check (fun hshape => ?_) fun hshape => if_neg hshape
  rw [BoolAlgebra.checkShapes, if_pos hshape]
  exact .pure trivial

omit [LawfulMonadAttach m] in
/-- Once no dimension is below zero the refusals are those of what is done with the shape. -/
theorem RefusedFirst.ofInts_bind {dims : List Int} {f : Shape → ExceptT Error m β}
    {unfit? : Option Error} (hf : RefusedFirst (f ⟨dims.map Int.toNat⟩) unfit?) :
    RefusedFirst (liftM (Shape.ofInts dims) >>= f) ((negative? dims).or unfit?) := by
  by_cases hdims : ∀ dim ∈ dims, 0 ≤ dim
  · have hshape : Shape.ofInts dims = .ok ⟨dims.map Int.toNat⟩ := by
      rw [← Shape.ofInts_natCast, Shape.map_ofNat_map_toNat hdims]
    rw [negative?, if_pos hdims, Option.none_or, hshape, liftM_ok, pure_bind]
    exact hf
  · have hneg : ∃ dim ∈ dims, dim < 0 := by simpa using hdims
    rw [negative?, if_neg hdims, Option.some_or, Shape.ofInts_of_neg hneg]
    exact throw_bind _ f

theorem refusedFirst_ofInts (dims : List Int) :
    RefusedFirst (liftM (Shape.ofInts dims) : ExceptT Error m Shape) (negative? dims) := by
  have hpure : RefusedFirst (pure ⟨dims.map Int.toNat⟩ : ExceptT Error m Shape) none :=
    Ends.pure trivial
  have hbind := RefusedFirst.ofInts_bind hpure
  rwa [bind_pure, Option.or_none] at hbind

theorem refusedFirst_splitFirst (s : Shape) :
    RefusedFirst (liftM s.splitFirst : ExceptT Error m (Nat × Shape))
      (if s.dims ≠ [] then none else some .noFirstDimension) := by
  obtain ⟨dims⟩ := s
  cases dims with
  | nil => rfl
  | cons first rest => exact Ends.pure (m := m) trivial

/-- A vector with elements is not split into chunks without any. -/
theorem Storage.split_of_nonpos {size : Int} (hlength : v.length ≠ 0) (hsize : size ≤ 0) :
    v.split size = .error (.chunkLength size) := by
  have hchunk : checkChunk size = .error (.chunkLength size) := if_pos hsize
  cases v with
  | dense v =>
    have hne : v.cells.size ≠ 0 := hlength
    have hsplit : v.split size = .error (.chunkLength size) := by
      rw [Dense.split, if_neg hne, hchunk]
      rfl
    exact congrArg (Except.map _) hsplit
  | packed v =>
    have hne : v.length ≠ 0 := hlength
    have hsplit : v.split size = .error (.chunkLength size) := by
      rw [Bits.split, if_neg hne, hchunk]
      rfl
    exact congrArg (Except.map _) hsplit
  | counted v =>
    have hne : v.length ≠ 0 := hlength
    have hsplit : v.split size = .error (.chunkLength size) := by
      rw [Count.split, if_neg hne, hchunk]
      rfl
    exact congrArg (Except.map _) hsplit
  | plain v =>
    have hne : Sequence.length v ≠ 0 := hlength
    have hsplit : Sequence.split v size = .error (.chunkLength size) := by
      rw [Sequence.split, if_neg hne, hchunk]
      rfl
    exact congrArg (Except.map _) hsplit

theorem refusedFirst_split (v : Storage α) (size : Int) :
    RefusedFirst (liftM (v.split size) : ExceptT Error m (List (Storage α)))
      (if v.length = 0 ∨ 0 < size then none else some (.chunkLength size)) := by
  refine .of_check (fun hsize => .of_meets ?_) fun hsize => ?_
  · refine v.meets_split (fun hlength => ?_) Error.not_unfit_of_outOfBounds
    rw [checkChunk, if_neg (hsize.resolve_left hlength).not_ge]
    trivial
  · obtain ⟨hlength, hle⟩ := not_or.1 hsize
    rw [Storage.split_of_nonpos hlength (not_lt.1 hle)]
    rfl

theorem refusedFirst_polymer (t : Tensor α) (target : Shape) (mapping : List Int) :
    RefusedFirst (liftM (t.polymer target mapping) : ExceptT Error m (Tensor α))
      (mapping? t.shape target mapping) := by
  by_cases hmisfits : Tensor.Misfits t.shape target mapping
  · rw [Tensor.polymer_of_misfits hmisfits, mapping?]
    split_ifs <;> rfl
  · have hrank : ¬mapping.length ≠ t.shape.rank := fun hrank => hmisfits (.inl hrank)
    obtain ⟨hplaces, hfits⟩ := Tensor.fits_of_not_misfits hmisfits
    rw [mapping?, if_neg hrank, if_neg hmisfits, ← hplaces, Tensor.polymer_of_fits hfits]
    exact .pure trivial

omit [Element α] in
theorem refusedFirst_join (t : Tensor α) (count : Int) :
    RefusedFirst (liftM (t.join count) : ExceptT Error m (Tensor α))
      (if 0 ≤ count ∧ count ≤ t.shape.rank then none
        else some (.joinCount count t.shape.dims)) := by
  refine .of_check (fun hcount => ?_) fun hcount => ?_
  · rw [Tensor.join, Shape.join, if_pos hcount]
    exact .pure trivial
  · rw [Tensor.join, Shape.join, if_neg hcount]
    rfl

/-! ### Gates after the checks -/

namespace BoolAlgebra

variable (alg : BoolAlgebra m α)

/-- A number of cells that is not that of the shape is no misfit of operands. -/
theorem ends_tensorOf_any (shape : Shape) (elems : List α) :
    Ends (alg.tensorOf shape elems) (fun _ => True) fun e => ¬e.Unfit :=
  .of_meets ((Tensor.meets_ofStorage_any shape _).imp (fun _ _ => trivial) fun _ he =>
    he.symm ▸ id)

theorem refusedFirst_bitGate (gate : Gate) (v w : Storage α) :
    RefusedFirst (alg.bitGate gate v w) (lengths? v w) :=
  (refusedFirst_checkLengths v w).bind fun _ => Ends.lift_any.bind fun _ _ => .pure trivial

theorem refusedFirst_numAdd (v w : Storage α) :
    RefusedFirst (alg.numAdd v w) (lengths? v w) :=
  (refusedFirst_checkLengths v w).bind fun _ => Ends.lift_any.bind fun _ _ => .lift_any

theorem refusedFirst_numSub (v w : Storage α) :
    RefusedFirst (alg.numSub v w) (lengths? v w) :=
  (refusedFirst_checkLengths v w).bind fun _ => Ends.lift_any.bind fun _ _ =>
    Ends.lift_any.bind fun _ _ => .lift_any

theorem refusedFirst_numEq (v w : Storage α) :
    RefusedFirst (alg.numEq v w) (lengths? v w) :=
  (alg.refusedFirst_bitGate .equ v w).bind fun _ => .lift_any

theorem refusedFirst_numLe (v w : Storage α) :
    RefusedFirst (alg.numLe v w) (lengths? v w) :=
  (refusedFirst_checkLengths v w).bind fun _ => Ends.lift_any.bind fun _ _ =>
    Ends.lift_any.bind fun _ _ => .pure trivial

/-- That a number is less is asked the other way round, and so are the lengths. -/
theorem refusedFirst_numCompare (comparison : Comparison) (v w : Storage α) :
    RefusedFirst (alg.numCompare comparison v w)
      (match comparison with
      | .lt => lengths? w v
      | _ => lengths? v w) := by
  cases comparison with
  | eq => exact alg.refusedFirst_numEq v w
  | ne => exact (alg.refusedFirst_numEq v w).bind fun _ => .lift_any
  | le => exact alg.refusedFirst_numLe v w
  | lt => exact (alg.refusedFirst_numLe w v).bind fun _ => .lift_any

/-- A constant is made before its dimensions are looked at, which does not show where this costs
nothing. -/
theorem refusedFirst_constantOf (dims : List Int) {value : Bool} {elem : α}
    (hlift : alg.lift value = pure elem) :
    RefusedFirst (alg.constantOf dims value) (negative? dims) := by
  have hconstant (shape : Shape) : Ends (liftM (Tensor.constant shape elem alg.kind) :
      ExceptT Error m (Tensor α)) (fun _ => True) fun e => ¬e.Unfit :=
    .of_meets ((Tensor.meets_constant shape elem alg.kind).imp (fun _ _ => trivial)
      Error.not_unfit_of_outOfBounds)
  have hmade : alg.constantOf dims value =
      liftM (Shape.ofInts dims) >>= fun shape => liftM (Tensor.constant shape elem alg.kind) := by
    rw [constantOf, hlift, liftM_pure, pure_bind]
    cases Shape.ofInts dims with
    | error e => exact (throw_bind e _).symm
    | ok shape =>
      rw [liftM_ok, pure_bind]
      rfl
  rw [hmade]
  exact (refusedFirst_ofInts dims).bind hconstant

theorem refusedFirst_diagonal (dim : Int) :
    RefusedFirst (alg.diagonal dim) (negative? [dim, dim]) :=
  (refusedFirst_ofInts [dim, dim]).bind fun shape =>
    (alg.ends_markedDiagonal dim shape).imp (fun _ _ => trivial) Error.not_unfit_of_outOfBounds

theorem refusedFirst_tensorGate (gate : Gate) (t u : Tensor α) :
    RefusedFirst (alg.tensorGate gate t u) (shapes? t.shape u.shape) :=
  (refusedFirst_checkShapes t u).bind fun _ => Ends.lift_any.bind fun elems _ =>
    alg.ends_tensorOf_any t.shape elems

theorem refusedFirst_tensorReduce (reduction : Reduction) (t : Tensor α) :
    RefusedFirst (alg.tensorReduce reduction t)
      (if t.shape.dims ≠ [] then none else some .noFirstDimension) := by
  refine (refusedFirst_splitFirst t.shape).bind ?_
  rintro ⟨head, rest⟩
  refine (Ends.mapM fun i _ => ?_).bind fun elems _ => alg.ends_tensorOf_any rest elems
  exact ((Ends.of_meets (t.elems.meets_range _ _)).imp_error Error.not_unfit_of_outOfBounds).bind
    fun _ _ => .lift_any

end BoolAlgebra

end BoolTensor
