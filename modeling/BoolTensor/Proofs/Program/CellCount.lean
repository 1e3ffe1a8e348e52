import BoolTensor.Program.Constraint
import BoolTensor.Program.Tensor
import BoolTensor.Proofs.Program.Circuit
import BoolTensor.Proofs.Solver.CellCount

/-!
# Tensors of programs have as many cells as their shapes

Operations on tensors, over any algebras and one after the other, leave each tensor with as many
cells as its shape has. So the check that makes a vector a tensor refuses none but the vectors and
lists that a program supplies.

## Main definitions

* `TensorCall`, `TensorCall.run`: an operation on tensors, with the algebra that it is run over
* `Registers.WellFormed`: each tensor has a vector with as many cells as its shape
* `Leads`, `Reaches`: registers that one operation leaves, and any number of them
-/

namespace BoolTensor

open MonadAttach

variable {α : Type}

/-! ### Operations -/

/-- An operation on tensors, with the algebra that it is run over. -/
inductive TensorCall (m : Type → Type) (α : Type) where
  /-- An operation that needs no algebra. -/
  | tensor (step : TensorStep α)
  /-- A circuit, with its gates on tensors cell by cell or on whole arrays. -/
  | circuit (alg : BoolAlgebra m α) (arrays : Bool) (step : CircuitStep α)
  /-- An operation on the variables, clauses and models of an algebra. -/
  | constrain (alg : SatAlgebra m α) (step : ConstraintStep α)

/-- The cells are those that a program supplies. -/
def TensorStep.SuppliesCells : TensorStep α → Prop
  | ofVector _ _ | ofList _ _ _ => True
  | _ => False

/-- The cells are those that a program supplies. -/
def CircuitStep.SuppliesCells : CircuitStep α → Prop
  | tensor _ _ => True
  | _ => False

section Operands

variable [Element α]

/-- The operands of an operation are there. -/
def TensorStep.Operands (step : TensorStep α) (r : Registers α) : Prop :=
  match step with
  | ofVector _ v => r.bank.Has v
  | get t _ | set t _ _ | polymer t _ _ | join t _ | copy t | elems t | shape t | render t
  | toArray t => t < r.views.size
  | same t u => t < r.views.size ∧ u < r.views.size
  | constant _ _ _ | ofList _ _ _ | ofArray _ _ => True

/-- The operands of an operation are there. -/
def ConstraintStep.Operands (step : ConstraintStep α) (r : Registers α) : Prop :=
  match step with
  | tensorClauses tensors => ∀ t ∈ tensors, t < r.views.size
  | tensorValues t => t < r.views.size
  | addVariable | addClause _ | findModel _ | value _ | tensorVariables _ => True

instance (step : TensorStep α) (r : Registers α) : Decidable (step.Operands r) :=
  match step with
  | .ofVector _ v => inferInstanceAs (Decidable (r.bank.Has v))
  | .get t _ | .set t _ _ | .polymer t _ _ | .join t _ | .copy t | .elems t | .shape t | .render t
  | .toArray t => inferInstanceAs (Decidable (t < r.views.size))
  | .same t u => inferInstanceAs (Decidable (t < r.views.size ∧ u < r.views.size))
  | .constant _ _ _ | .ofList _ _ _ | .ofArray _ _ => .isTrue trivial

instance (step : ConstraintStep α) (r : Registers α) : Decidable (step.Operands r) :=
  match step with
  | .tensorClauses tensors => inferInstanceAs (Decidable (∀ t ∈ tensors, t < r.views.size))
  | .tensorValues t => inferInstanceAs (Decidable (t < r.views.size))
  | .addVariable | .addClause _ | .findModel _ | .value _ | .tensorVariables _ => .isTrue trivial

end Operands

namespace TensorCall

variable {m : Type → Type} [Element α]

/-- The operands of an operation are there. -/
def Operands : TensorCall m α → Registers α → Prop
  | tensor step => step.Operands
  | circuit _ _ step => step.Operands
  | constrain _ step => step.Operands

instance (call : TensorCall m α) (r : Registers α) : Decidable (call.Operands r) :=
  match call with
  | tensor step => inferInstanceAs (Decidable (step.Operands r))
  | circuit _ _ step => inferInstanceAs (Decidable (step.Operands r))
  | constrain _ step => inferInstanceAs (Decidable (step.Operands r))

/-- The cells are those that a program supplies. -/
def SuppliesCells : TensorCall m α → Prop
  | tensor step => step.SuppliesCells
  | circuit _ _ step => step.SuppliesCells
  | constrain _ _ => False

/-- What an operation does; where it fails the registers stay as they are. -/
def run [Monad m] (call : TensorCall m α) (r : Registers α) :
    ExceptT Error m (Outcome α × Registers α) :=
  match call with
  | tensor step => liftM (step.run r)
  | circuit alg arrays step => step.run alg (if arrays then packedGates else alg.tensorGates) r
  | constrain alg step => step.run alg r

/-- The clauses, solving or values of the algebra are refused with an error. -/
def Refuses [MonadAttach m] (call : TensorCall m α) (e : Error) : Prop :=
  match call with
  | constrain alg _ => alg.Refuses e
  | _ => False

end TensorCall

/-! ### Registers -/

theorem Bank.meets_view [Element α] (bank : Bank α) (shape : Shape) (handle : Bank.Handle) :
    Meets (fun view => view.handle = handle ∧ (bank.tensor view).WellFormed) (fun _ => True)
      (bank.view shape handle) := by
  refine ((bank.find handle).meets_checkLength.imp_error fun _ _ => trivial).bind fun _ _ => ?_
  refine ((Tensor.meets_ofStorage_any shape (bank.find handle)).imp_error
    fun _ _ => trivial).bind ?_
  rintro _ ⟨hwell, rfl⟩
  exact ⟨rfl, hwell⟩

namespace Registers

variable [Element α] {r : Registers α}

/-- Each tensor has its vector in the bank, with as many cells as its shape has. -/
def WellFormed (r : Registers α) : Prop :=
  ∀ number < r.views.size, r.HasTensor number ∧ (r.tensor number).WellFormed

theorem wellFormed_empty : (empty : Registers α).WellFormed :=
  fun number hnumber => absurd hnumber (Nat.not_lt_zero number)

/-- The registers with another shape of a tensor. -/
def reshape (r : Registers α) (number : Nat) (shape : Shape) : Registers α :=
  { r with views := r.views.setIfInBounds number { r.view number with shape := shape } }

omit [Element α] in
theorem view_addView (view : View) (number : Nat) :
    (r.addView view).2.view number = if number = r.views.size then view else r.view number := by
  simp only [Registers.view, addView, Array.getD_eq_getD_getElem?, Array.getElem?_push]
  split_ifs <;> rfl

omit [Element α] in
theorem view_reshape {number other : Nat} {shape : Shape} (h : other < r.views.size) :
    (r.reshape number shape).view other =
      if other = number then { r.view number with shape := shape } else r.view other := by
  simp only [view, reshape, Array.getD_eq_getD_getElem?, Array.getElem?_setIfInBounds]
  by_cases hsame : other = number
  · subst hsame
    simp [h]
  · simp [hsame, Ne.symm hsame]

namespace WellFormed

theorem tensor (hr : r.WellFormed) {number : Nat} (h : number < r.views.size) :
    (r.tensor number).WellFormed :=
  (hr number h).2

theorem of_extends (hr : r.WellFormed) {bank : Bank α} (hbank : r.bank.Extends bank) :
    WellFormed { r with bank := bank } := by
  intro number hnumber
  obtain ⟨hhas, hwell⟩ := hr number hnumber
  obtain ⟨hhas', hsame⟩ := tensor_of_extends hbank hhas
  exact ⟨hhas', hsame ▸ hwell⟩

theorem addVector (hr : r.WellFormed) (v : Storage α) : (r.addVector v).2.WellFormed :=
  hr.of_extends (r.bank.extends_add v)

theorem addVectors (hr : r.WellFormed) (vs : List (Storage α)) : (r.addVectors vs).2.WellFormed :=
  hr.of_extends (r.bank.extends_foldl_add vs)

theorem addView (hr : r.WellFormed) {view : View} (hhas : r.bank.Has view.handle)
    (hview : (r.bank.tensor view).WellFormed) : (r.addView view).2.WellFormed := by
  intro number hnumber
  rw [HasTensor, Registers.tensor, view_addView]
  have hsize : (r.addView view).2.views.size = r.views.size + 1 := Array.size_push _
  by_cases hlast : number = r.views.size
  · rw [if_pos hlast]
    exact ⟨⟨hnumber, hhas⟩, hview⟩
  · rw [if_neg hlast]
    obtain ⟨⟨-, hhas'⟩, hwell⟩ := hr number (by omega)
    exact ⟨⟨hnumber, hhas'⟩, hwell⟩

theorem addTensor (hr : r.WellFormed) {t : Tensor α} (ht : t.WellFormed) :
    (r.addTensor t).2.WellFormed := by
  apply (hr.addVector t.elems).addView
  · exact (Nat.lt_succ_self _).trans_eq (Bank.size_add ..).symm
  · have hfind : (r.bank.add t.elems).1.find r.bank.vectors.size = t.elems :=
      (Bank.find_add ..).trans (if_pos rfl)
    exact (congrArg Storage.length hfind).trans ht

/-- Another vector of the same length keeps the tensors that share it. -/
theorem replace (hr : r.WellFormed) {handle : Bank.Handle} {v : Storage α}
    (hhas : r.bank.Has handle) (hlength : v.length = (r.bank.find handle).length) :
    (r.replace handle v).2.WellFormed := by
  intro number hnumber
  obtain ⟨⟨-, hhas'⟩, hwell⟩ := hr number hnumber
  refine ⟨⟨hnumber, hhas'.trans_eq (Bank.size_replace ..).symm⟩, ?_⟩
  refine Eq.trans ?_ hwell
  change ((r.bank.replace handle v).find (r.view number).handle).length =
    (r.bank.find (r.view number).handle).length
  rw [Bank.find_replace hhas]
  split_ifs with hsame
  · rw [hlength, hsame]
  · rfl

theorem reshape (hr : r.WellFormed) {number : Nat} {shape : Shape}
    (hsize : shape.size = (r.view number).shape.size) : (r.reshape number shape).WellFormed := by
  intro other hother
  have hviews : (r.reshape number shape).views.size = r.views.size := Array.size_setIfInBounds
  rw [hviews] at hother
  obtain ⟨⟨-, hhas⟩, hwell⟩ := hr other hother
  have hview : (r.reshape number shape).view other = _ := view_reshape hother
  by_cases hsame : other = number
  · subst hsame
    rw [if_pos rfl] at hview
    rw [HasTensor, Registers.tensor, hview]
    exact ⟨⟨hother.trans_eq hviews.symm, hhas⟩, hwell.trans hsize.symm⟩
  · rw [if_neg hsame] at hview
    rw [HasTensor, Registers.tensor, hview]
    exact ⟨⟨hother.trans_eq hviews.symm, hhas⟩, hwell⟩

theorem meets_setCell (hr : r.WellFormed) {number : Nat} (h : number < r.views.size)
    (coords : List Int) (elem : α) :
    Meets (fun bank => WellFormed { r with bank := bank }) Error.OutOfBounds
      (r.bank.setCell (r.view number) coords elem) := by
  refine (Tensor.meets_set _ coords elem).bind fun u hlength => ?_
  exact hr.replace (hr number h).1.2 hlength

end WellFormed

end Registers

/-! ### One operation -/

section Step

variable [Element α] {r : Registers α}

theorem TensorStep.meets_run (hr : r.WellFormed) (step : TensorStep α)
    (hoperands : step.Operands r) :
    Meets (fun result => result.2.WellFormed) (fun e => e.Uncounted ∨ step.SuppliesCells)
      (step.run r) := by
  have hkept {x : Except Error (Outcome α × Registers α)}
      (h : Meets (fun result => result.2.WellFormed) Error.Uncounted x) :
      Meets (fun result => result.2.WellFormed) (fun e => e.Uncounted ∨ step.SuppliesCells) x :=
    h.imp_error fun _ => .inl
  have hbounds {β : Type} {P : β → Prop} {x : Except Error β} (h : Meets P Error.OutOfBounds x) :
      Meets P Error.Uncounted x :=
    h.imp_error Error.uncounted_of_outOfBounds
  have hshape (dims : List Int) : Meets (fun _ => True)
      (fun e => e.Uncounted ∨ step.SuppliesCells) (Shape.ofInts dims) :=
    (Shape.meets_ofInts dims).imp_error fun _ => .inl
  cases step with
  | ofVector dims v =>
    refine (hshape dims).bind fun shape _ => ?_
    refine ((r.bank.meets_view shape v).imp_error fun _ _ => .inr trivial).bind ?_
    rintro view ⟨rfl, hview⟩
    exact hr.addView hoperands hview
  | constant dims elem kind =>
    exact hkept ((Shape.meets_ofInts dims).bind fun shape _ =>
      (hbounds (Tensor.meets_constant shape elem kind)).bind fun _ => hr.addTensor)
  | ofList dims cells kind =>
    refine (hshape dims).bind fun shape _ => ?_
    have hcells := Tensor.meets_ofStorage_any shape (.ofList kind cells)
    exact (hcells.imp_error fun _ _ => .inr trivial).bind fun _ h => hr.addTensor h.1
  | ofArray dims data =>
    exact hkept ((hbounds (Tensor.meets_ofInts dims data)).bind fun a _ =>
      (Tensor.meets_toTensor a).bind fun _ => hr.addTensor)
  | get t coords =>
    exact hkept ((hbounds ((r.tensor t).meets_get coords)).map fun _ _ => hr)
  | set t coords elem =>
    exact hkept ((hbounds (hr.meets_setCell hoperands coords elem)).map fun _ h => h)
  | polymer t dims mapping =>
    exact hkept ((Shape.meets_ofInts dims).bind fun shape _ =>
      ((r.tensor t).meets_polymer shape mapping).bind fun _ => hr.addTensor)
  | join t count =>
    exact hkept (((r.view t).shape.meets_join count).map fun _ hsize => hr.reshape hsize)
  | copy t => exact hr.addTensor (hr.tensor hoperands).copy
  | elems t => exact hr
  | shape t => exact hr
  | same t u => exact hr
  | render t => exact hr
  | toArray t => exact hkept ((hbounds (r.tensor t).meets_checkArray).bind fun _ _ => hr)

variable {m : Type → Type} [Monad m] [LawfulMonad m] [MonadAttach m] [LawfulMonadAttach m]

theorem CircuitStep.ends_run (hr : r.WellFormed) (alg : BoolAlgebra m α) {gates : TensorGates m α}
    (hgates : gates.KeepCount) (step : CircuitStep α) (hoperands : step.Operands r) :
    Ends (step.run alg gates r) (fun result => result.2.WellFormed)
      (fun e => e.Uncounted ∨ step.SuppliesCells) := by
  have hvector {x : ExceptT Error m (Storage α)} (h : Ends x (fun _ => True) Error.Uncounted) :
      Ends (do return r.addVector (← x)) (fun result => result.2.WellFormed)
        (fun e => e.Uncounted ∨ step.SuppliesCells) :=
    (h.imp_error fun _ => .inl).bind fun v _ => .pure (hr.addVector v)
  have htensor {x : ExceptT Error m (Tensor α)} (h : Ends x Tensor.WellFormed Error.Uncounted) :
      Ends (do return r.addTensor (← x)) (fun result => result.2.WellFormed)
        (fun e => e.Uncounted ∨ step.SuppliesCells) :=
    (h.imp_error fun _ => .inl).bind fun _ ht => .pure (hr.addTensor ht)
  have hchecked {β : Type} {P : β → Prop} {x : Except Error β} (h : Meets P Error.Uncounted x) :
      Ends (liftM x : ExceptT Error m β) P (fun e => e.Uncounted ∨ step.SuppliesCells) :=
    .of_meets (h.imp_error fun _ => .inl)
  have hplaced {β : Type} {P : β → Prop} {x : Except Error β} (h : Meets P Error.OutOfBounds x) :
      Ends (liftM x : ExceptT Error m β) P (fun e => e.Uncounted ∨ step.SuppliesCells) :=
    hchecked (h.imp_error Error.uncounted_of_outOfBounds)
  cases step with
  | vector elems => exact .pure (hr.addVector _)
  | tensor dims elems =>
    refine (hchecked (Shape.meets_ofInts dims)).bind fun shape _ => ?_
    have hcells := Tensor.meets_ofStorage_any shape (alg.vector elems)
    exact (Ends.of_meets (hcells.imp_error fun _ _ => .inr trivial)).bind
      fun _ h => .pure (hr.addTensor h.1)
  | concat parts => exact .pure (hr.addVector _)
  | split v size =>
    have hsplit := (r.vector v).meets_split (fun _ => meets_checkChunk size)
      Error.uncounted_of_outOfBounds
    exact (hchecked hsplit).bind fun vs _ => .pure (hr.addVectors vs)
  | bitLift values => exact hvector .lift_any
  | bitNot v => exact hvector .lift_any
  | bitGate gate v w => exact hvector (alg.ends_bitGate gate _ _)
  | bitReduce reduction v => exact hvector .lift_any
  | numLift length value => exact hvector .lift_any
  | numNeg v => exact hvector .lift_any
  | numAdd v w => exact hvector (alg.ends_numAdd _ _)
  | numSub v w => exact hvector (alg.ends_numSub _ _)
  | compare comparison v w => exact hvector (alg.ends_numCompare comparison _ _)
  | scalar value =>
    exact htensor ((alg.ends_constant _ value).imp_error Error.uncounted_of_outOfBounds)
  | constant dims value => exact htensor (alg.ends_constantOf dims value)
  | diagonal dim => exact htensor (alg.ends_diagonal dim)
  | polymer t dims mapping =>
    exact (hchecked (Shape.meets_ofInts dims)).bind fun shape _ =>
      htensor (.of_meets ((r.tensor t).meets_polymer shape mapping))
  | joined t count =>
    exact htensor (.of_meets (Tensor.meets_join (hr.tensor hoperands).copy count))
  | get t coords =>
    exact (hplaced ((r.tensor t).meets_get coords)).bind fun _ _ => .pure hr
  | set t coords elem =>
    exact (hplaced (hr.meets_setCell hoperands coords elem)).bind fun _ h => .pure h
  | tensorNot t => exact htensor (hgates.not (hr.tensor hoperands))
  | tensorGate gate t u =>
    exact htensor (hgates.gate gate (hr.tensor hoperands.1) (hr.tensor hoperands.2))
  | tensorReduce reduction t => exact htensor (hgates.reduce reduction _)

theorem ConstraintStep.ends_run (hr : r.WellFormed) (alg : SatAlgebra m α)
    (step : ConstraintStep α) (hoperands : step.Operands r) :
    Ends (step.run alg r) (fun result => result.2.WellFormed)
      (fun e => e.Uncounted ∨ alg.Refuses e) := by
  cases step with
  | addVariable => exact Ends.lift_any.bind fun _ _ => .pure hr
  | addClause clause =>
    exact ((alg.ends_addClause clause).imp_error fun _ => .inr).bind fun _ _ => .pure hr
  | findModel assumptions =>
    exact ((alg.ends_findModel assumptions).imp_error fun _ => .inr).bind
      fun _ _ => .pure hr
  | value elem =>
    exact ((alg.ends_value elem).imp_error fun _ => .inr).bind fun _ _ => .pure hr
  | tensorVariables dims =>
    refine (Ends.of_meets ((Shape.meets_ofInts dims).imp_error fun _ => .inl)).bind
      fun shape _ => ?_
    exact ((alg.ends_tensorVariables shape).imp_error fun _ => .inl).bind
      fun _ ht => .pure (hr.addTensor ht)
  | tensorClauses tensors => exact (alg.ends_tensorClauses _).bind fun _ _ => .pure hr
  | tensorValues t =>
    exact (alg.ends_tensorValues (hr.tensor hoperands)).bind fun _ ht => .pure (hr.addTensor ht)

/-- One operation keeps the number of cells of each tensor, and it is refused for a number of
elements only where they are supplied, or where the algebra itself refuses so. -/
theorem TensorCall.ends_run (hr : r.WellFormed) (call : TensorCall m α)
    (hoperands : call.Operands r) :
    Ends (call.run r) (fun result => result.2.WellFormed)
      (fun e => e.Uncounted ∨ call.SuppliesCells ∨ call.Refuses e) := by
  cases call with
  | tensor step =>
    exact (Ends.of_meets (step.meets_run hr hoperands)).imp_error fun _ => .imp_right .inl
  | circuit alg arrays step =>
    have hgates : (if arrays then packedGates else alg.tensorGates).KeepCount := by
      split_ifs
      · exact TensorGates.keepCount_packed
      · exact TensorGates.keepCount_cells alg
    exact (step.ends_run hr alg hgates hoperands).imp_error fun _ => .imp_right .inl
  | constrain alg step =>
    exact (step.ends_run hr alg hoperands).imp_error fun _ => .imp_right .inr

end Step

/-! ### Operations one after the other -/

section Reached

variable [Element α] {r r' : Registers α}

/-- Registers that an operation can leave, over whatever algebra, in any monad that tells what its
computations can return. -/
inductive Leads : Registers α → Registers α → Prop
  | call {m : Type → Type} [Monad m] [LawfulMonad m] [MonadAttach m] [LawfulMonadAttach m]
      {r r' : Registers α} {call : TensorCall m α} {outcome : Outcome α}
      (hoperands : call.Operands r) (hrun : CanReturn (call.run r).run (.ok (outcome, r'))) :
      Leads r r'

/-- Registers that operations can leave one after the other. -/
def Reaches : Registers α → Registers α → Prop :=
  Relation.ReflTransGen Leads

theorem Registers.WellFormed.of_leads (hr : r.WellFormed) (h : Leads r r') : r'.WellFormed := by
  obtain ⟨hoperands, hrun⟩ := h
  exact TensorCall.ends_run hr _ hoperands _ hrun

theorem Registers.WellFormed.of_reaches (hr : r.WellFormed) (h : Reaches r r') :
    r'.WellFormed := by
  induction h with
  | refl => exact hr
  | tail _ hstep ih => exact ih.of_leads hstep

/-- A program of operations reaches the registers that it leaves. -/
theorem reaches_runAll {calls : List (TensorCall Id α)}
    (h : Along (fun call => call.run) TensorCall.Operands calls r) :
    Reaches r (runAll (m := Id) (fun call => call.run) calls r).2 := by
  induction calls generalizing r with
  | nil => exact .refl
  | cons call calls ih =>
    rw [runAll_cons]
    have hrest := ih h.2
    have hstep : Reaches r (r.after (call.run r)) := by
      cases hrun : call.run r with
      | error e => exact .refl
      | ok result => exact .single (.call (m := Id) h.1 hrun)
    exact hstep.trans hrest

/-- After any operations on tensors, over any algebras, each tensor has as many cells as its shape.
An operation is then refused for a number of elements only where a program supplies them, or where
clauses, solving or values of the algebra are themselves refused so; those of solvers are not. -/
theorem length_elems_of_reaches (hr : r.WellFormed) (h : Reaches r r') :
    (∀ number < r'.views.size,
      (r'.tensor number).elems.length = (r'.tensor number).shape.size) ∧
    (∀ {m : Type → Type} [Monad m] [LawfulMonad m] [MonadAttach m] [LawfulMonadAttach m]
      (call : TensorCall m α), call.Operands r' → ∀ dims needed got,
        CanReturn (call.run r').run (.error (.elementCount dims needed got)) →
          call.SuppliesCells ∨ call.Refuses (.elementCount dims needed got)) ∧
    (∀ engine dims needed got,
      ¬(literalAlgebra engine).Refuses (.elementCount dims needed got)) ∧
    ∀ engine dims needed got,
      ¬(Solver.algebra engine : SatAlgebra (ExceptT Error (SolverM Cell)) Cell).Refuses
        (.elementCount dims needed got) := by
  have hr' := hr.of_reaches h
  refine ⟨fun number hnumber => hr'.tensor hnumber, ?_, ?_, ?_⟩
  · intro m _ _ _ _ call hoperands dims needed got hrun
    exact (call.ends_run hr' hoperands _ hrun).resolve_left id
  · intro engine dims needed got hrefuses
    exact uncounted_literal.refusedWith.of_refuses hrefuses
  · intro engine dims needed got hrefuses
    exact uncounted_cell.refusedWith.of_refuses hrefuses

end Reached

/-- A reduced tensor, one that is joined in its place and one without cells; one element is too few
for a shape of two. -/
theorem length_elems_of_reaches_join :
    let calls : List (TensorCall Id Bool) := [.tensor (.constant [2, 3] true .packed),
      .circuit truthAlgebra true (.tensorReduce .all 0), .tensor (.join 0 2),
      .circuit truthAlgebra false (.diagonal 0)]
    let r := (runAll (m := Id) (fun call => call.run) calls .empty).2
    (List.range 3).map (fun number => (r.tensor number).shape.dims) = [[6], [3], [0, 0]] ∧
    (∀ number < 3, (r.tensor number).elems.length = (r.tensor number).shape.size) ∧
    (.tensor (.ofList [2] [true] .dense) : TensorCall Id Bool).SuppliesCells := by
  intro calls r
  have hsize : r.views.size = 3 := by decide
  have hreaches : Reaches .empty r := reaches_runAll (by decide)
  obtain ⟨hlengths, hrefused, -⟩ :=
    length_elems_of_reaches Registers.wellFormed_empty hreaches
  refine ⟨by decide, fun number hnumber => hlengths number (hnumber.trans_eq hsize.symm), ?_⟩
  exact (hrefused (.tensor (.ofList [2] [true] .dense) : TensorCall Id Bool) trivial [2] 2 1
    rfl).resolve_right id

end BoolTensor
