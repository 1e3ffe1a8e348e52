import BoolTensor.Program.Circuit
import BoolTensor.Proofs.Circuit.Alike
import BoolTensor.Proofs.Program.Registers

/-!
# Programs of circuits over two algebras

A program of circuits, run over two algebras whose gates are read as their values, from registers
that are read alike: each instruction is refused over both or over none of them, for the same
reason, and leaves registers that are read alike.

## Main definitions

* `CircuitStep.Operands`, `CircuitStep.Fits`: the operands of an instruction are there, and what it
  builds is within the limits of a kind of storage
* `CircuitStep.Shaped`: the dimensions of a constant are those of a shape
* `Reading.RegistersAlike`, `Reading.ResultsAlike`: registers, and what instructions give, read
  alike
-/

namespace BoolTensor

/-! ### Instructions -/

namespace CircuitStep

variable {α : Type} [Element α]

/-- The elements that an instruction brings with it. -/
def elems : CircuitStep α → List α
  | vector elems | tensor _ elems => elems
  | set _ _ elem => [elem]
  | _ => []

/-- The operands of an instruction are there. -/
def Operands {ρ : Type} (step : CircuitStep ρ) (r : Registers α) : Prop :=
  match step with
  | concat parts => ∀ v ∈ parts, r.bank.Has v
  | split v _ | bitNot v | bitReduce _ v | numNeg v => r.bank.Has v
  | bitGate _ v w | numAdd v w | numSub v w | compare _ v w => r.bank.Has v ∧ r.bank.Has w
  | polymer t _ _ | joined t _ | get t _ | set t _ _ | tensorNot t | tensorReduce _ t =>
    t < r.views.size
  | tensorGate _ t u => t < r.views.size ∧ u < r.views.size
  | vector _ | tensor _ _ | bitLift _ | numLift _ _ | scalar _ | constant _ _ | diagonal _ => True

/-- What an instruction builds is within the limits of a kind of storage. -/
def Fits {ρ : Type} (kind : Kind) (step : CircuitStep ρ) (r : Registers α) : Prop :=
  match step with
  | split v size => kind.SplitFits (r.vector v).length size
  | constant dims _ => ∀ shape, Shape.ofInts dims = .ok shape → shape.size ≤ indexLimit
  | diagonal dim => dim.toNat * dim.toNat ≤ indexLimit
  | _ => True

/-- The dimensions of a constant are those of a shape. They are looked at once the constant is
made. -/
def Shaped {ρ : Type} : CircuitStep ρ → Prop
  | constant dims _ => ∃ shape, Shape.ofInts dims = .ok shape
  | _ => True

instance {ρ : Type} (step : CircuitStep ρ) (r : Registers α) : Decidable (step.Operands r) :=
  match step with
  | concat parts => inferInstanceAs (Decidable (∀ v ∈ parts, r.bank.Has v))
  | split v _ | bitNot v | bitReduce _ v | numNeg v => inferInstanceAs (Decidable (r.bank.Has v))
  | bitGate _ v w | numAdd v w | numSub v w | compare _ v w =>
    inferInstanceAs (Decidable (r.bank.Has v ∧ r.bank.Has w))
  | polymer t _ _ | joined t _ | get t _ | set t _ _ | tensorNot t | tensorReduce _ t =>
    inferInstanceAs (Decidable (t < r.views.size))
  | tensorGate _ t u => inferInstanceAs (Decidable (t < r.views.size ∧ u < r.views.size))
  | vector _ | tensor _ _ | bitLift _ | numLift _ _ | scalar _ | constant _ _ | diagonal _ =>
    .isTrue trivial

instance {ρ : Type} (kind : Kind) (step : CircuitStep ρ) (r : Registers α) :
    Decidable (step.Fits kind r) :=
  match step with
  | split v size => inferInstanceAs (Decidable (kind.SplitFits (r.vector v).length size))
  | constant dims _ =>
    match h : Shape.ofInts dims with
    | .error _ => .isTrue fun _ hshape => nomatch h.symm.trans hshape
    | .ok shape =>
      decidable_of_iff (shape.size ≤ indexLimit)
        ⟨fun hfits _ hshape => Except.ok.inj (h.symm.trans hshape) ▸ hfits, fun hfits => hfits _ h⟩
  | diagonal dim => inferInstanceAs (Decidable (dim.toNat * dim.toNat ≤ indexLimit))
  | vector _ | tensor _ _ | concat _ | bitLift _ | bitNot _ | bitGate _ _ _ | bitReduce _ _
  | numLift _ _ | numNeg _ | numAdd _ _ | numSub _ _ | compare _ _ _ | scalar _ | polymer _ _ _
  | joined _ _ | get _ _ | set _ _ _ | tensorNot _ | tensorGate _ _ _ | tensorReduce _ _ =>
    .isTrue trivial

/-- Only packed vectors have limits of their own. -/
theorem Fits.dense {ρ : Type} {kind : Kind} {step : CircuitStep ρ} {r : Registers α}
    (h : step.Fits kind r) : step.Fits .dense r := by
  cases step with
  | split v size => exact nofun
  | _ => exact h

omit [Element α] in
theorem map_id (step : CircuitStep α) : step.map id = step := by
  cases step with
  | vector elems => exact congrArg vector (List.map_id elems)
  | tensor dims elems => exact congrArg (tensor dims) (List.map_id elems)
  | _ => rfl

end CircuitStep

/-- What circuits give corresponds: the same vectors and tensors, and related elements. -/
inductive Outcome.Corresponds {α β : Type} (P : α → β → Prop) : Outcome α → Outcome β → Prop
  | nothing : Corresponds P .nothing .nothing
  | vector (handle : Bank.Handle) : Corresponds P (.vector handle) (.vector handle)
  | vectors (handles : List Bank.Handle) : Corresponds P (.vectors handles) (.vectors handles)
  | tensor (number : Nat) : Corresponds P (.tensor number) (.tensor number)
  | element {a : α} {b : β} (h : P a b) : Corresponds P (.element a) (.element b)

theorem Outcome.Corresponds.imp {α β : Type} {P P' : α → β → Prop} {o : Outcome α} {o' : Outcome β}
    (h : o.Corresponds P o') (himp : ∀ a b, P a b → P' a b) : o.Corresponds P' o' := by
  cases h with
  | nothing => exact .nothing
  | vector handle => exact .vector handle
  | vectors handles => exact .vectors handles
  | tensor number => exact .tensor number
  | element h => exact .element (himp _ _ h)

/-- A constant whose dimensions are refused has been made. -/
theorem BoolAlgebra.run_constantOf_of_error {m : Type → Type} [Monad m] {σ α : Type} [Runs m σ]
    [Element α] (alg : BoolAlgebra m α) {dims : List Int} {e : Error}
    (hdims : Shape.ofInts dims = .error e) (value : Bool) (s : σ) :
    Runs.run (alg.constantOf dims value).run s =
      (.error e, (Runs.run (alg.lift value) s).2) := by
  rw [constantOf, hdims, Runs.run_bind_of_ok (Runs.run_liftM ..)]
  exact Runs.run_liftM_except (.error e) _

namespace Reading

variable {m n : Type → Type} [Monad m] [Monad n] {σ τ α β : Type} [Runs m σ] [Runs n τ]
  [Element α] [Element β] {R : Reading σ α} {Q : Reading τ β} {s s' : σ} {t t' : τ}

/-! ### Registers -/

/-- The registers have the same tensors, over vectors that are read alike. -/
structure RegistersAlike (R : Reading σ α) (Q : Reading τ β) (s : σ) (t : τ) (r : Registers α)
    (q : Registers β) : Prop where
  views_eq : r.views = q.views
  vectors : r.bank.Corresponds (StoresAlike R Q s t) q.bank
  tensors : ∀ number < r.views.size, r.HasTensor number ∧ (r.tensor number).WellFormed

/-- What instructions give corresponds, and they leave registers that are read alike. -/
def ResultsAlike (R : Reading σ α) (Q : Reading τ β) (s : σ) (t : τ)
    (x : Outcome α × Registers α) (y : Outcome β × Registers β) : Prop :=
  x.1.Corresponds (ReadsAlike R Q s t) y.1 ∧ RegistersAlike R Q s t x.2 y.2

namespace RegistersAlike

variable {r : Registers α} {q : Registers β} {v : Storage α} {w : Storage β} {u : Tensor α}
  {y : Tensor β} {shape : Shape} {handle : Bank.Handle} {number : Nat}

theorem grows (h : RegistersAlike R Q s t r q) (hs : R.grows s s') (ht : Q.grows t t') :
    RegistersAlike R Q s' t' r q :=
  ⟨h.views_eq, h.vectors.imp fun _ _ hvw => hvw.grows hs ht, h.tensors⟩

theorem vector (h : RegistersAlike R Q s t r q) (hq : q.bank.Has handle) :
    StoresAlike R Q s t (r.vector handle) (q.vector handle) :=
  h.vectors.find handle (hq.trans_eq h.vectors.size_eq.symm)

theorem tensor (h : RegistersAlike R Q s t r q) (hq : number < q.views.size) :
    TensorsAlike R Q (r.view number).shape s t (r.tensor number) (q.tensor number) := by
  obtain ⟨hhas, hlength⟩ := h.tensors number (h.views_eq ▸ hq)
  have hview : q.view number = r.view number := by rw [Registers.view, Registers.view, h.views_eq]
  refine .of_stores ?_ rfl (congrArg View.shape hview) hlength
  rw [Registers.tensor, Registers.tensor, hview]
  exact h.vectors.find _ hhas.2

theorem answer (h : RegistersAlike R Q s t r q) {o : Outcome α} {o' : Outcome β}
    (ho : o.Corresponds (ReadsAlike R Q s t) o') : ResultsAlike R Q s t (o, r) (o', q) :=
  ⟨ho, h⟩

theorem addVector (h : RegistersAlike R Q s t r q) (hvw : StoresAlike R Q s t v w) :
    ResultsAlike R Q s t (r.addVector v) (q.addVector w) := by
  refine ⟨?_, h.views_eq, h.vectors.add hvw, fun number hnumber => ?_⟩
  · have houtcome : (q.addVector w).1 = .vector r.bank.vectors.size :=
      congrArg Outcome.vector h.vectors.size_eq.symm
    rw [houtcome]
    exact .vector _
  · obtain ⟨hhas, hlength⟩ := h.tensors number hnumber
    obtain ⟨hhas', htensor⟩ := Registers.tensor_of_extends (r.bank.extends_add v) hhas
    exact ⟨hhas', htensor ▸ hlength⟩

theorem addVectors (h : RegistersAlike R Q s t r q) {vs : List (Storage α)} {ws : List (Storage β)}
    (hvws : List.Forall₂ (StoresAlike R Q s t) vs ws) :
    ResultsAlike R Q s t (r.addVectors vs) (q.addVectors ws) := by
  refine ⟨?_, h.views_eq, h.vectors.foldl_add hvws, fun number hnumber => ?_⟩
  · rw [Registers.addVectors, Registers.addVectors, ← h.vectors.size_eq, ← hvws.length_eq]
    exact .vectors _
  · obtain ⟨hhas, hlength⟩ := h.tensors number hnumber
    obtain ⟨hhas', htensor⟩ := Registers.tensor_of_extends (r.bank.extends_foldl_add vs) hhas
    exact ⟨hhas', htensor ▸ hlength⟩

theorem addTensor (h : RegistersAlike R Q s t r q) (huy : TensorsAlike R Q shape s t u y) :
    ResultsAlike R Q s t (r.addTensor u) (q.addTensor y) := by
  obtain ⟨hu, hy⟩ := huy.shape_eq
  refine ⟨?_, ?_, h.vectors.add huy.stores, fun number hnumber => ?_⟩
  · have houtcome : (q.addTensor y).1 = .tensor r.views.size := by
      rw [h.views_eq]
      rfl
    rw [houtcome]
    exact .tensor _
  · change r.views.push _ = q.views.push _
    rw [h.views_eq, h.vectors.size_eq, hu, hy]
  · rcases Nat.lt_succ_iff_lt_or_eq.1 (hnumber.trans_eq (Array.size_push _)) with hlt | rfl
    · obtain ⟨hhas, hlength⟩ := h.tensors number hlt
      obtain ⟨hhas', htensor⟩ := Registers.tensor_addTensor hhas u
      exact ⟨hhas', htensor ▸ hlength⟩
    · obtain ⟨hhas, htensor⟩ := r.tensor_addTensor_self u
      have hlength : u.WellFormed := by rw [Tensor.WellFormed, huy.length_eq, hu]
      exact ⟨hhas, htensor.symm ▸ hlength⟩

/-- The cells of a tensor are replaced by as many. -/
theorem replace (h : RegistersAlike R Q s t r q) (hnumber : number < r.views.size)
    (huy : TensorsAlike R Q (r.view number).shape s t u y) :
    RegistersAlike R Q s t { r with bank := r.bank.replace (r.view number).handle u.elems }
      { q with bank := q.bank.replace (q.view number).handle y.elems } := by
  have hview : q.view number = r.view number := by rw [Registers.view, Registers.view, h.views_eq]
  have hhandle := (h.tensors number hnumber).1.2
  refine ⟨h.views_eq, ?_, fun other hother => ?_⟩
  · rw [hview]
    exact h.vectors.replace hhandle huy.stores
  · obtain ⟨hhas, hlength⟩ := h.tensors other hother
    refine ⟨⟨hother, hhas.2.trans_eq (Bank.size_replace ..).symm⟩, ?_⟩
    change ((r.bank.replace _ u.elems).find (r.view other).handle).length = _
    rw [Bank.find_replace hhandle]
    split_ifs with heq
    · have hsame : (r.tensor number).elems.length = (r.tensor other).elems.length := by
        rw [Registers.tensor, Registers.tensor, Bank.tensor, Bank.tensor, heq]
      rw [huy.length_eq]
      exact (h.tensors number hnumber).2.symm.trans (hsame.trans hlength)
    · exact hlength

end RegistersAlike

/-! ### One instruction -/

/-- The circuit of a comparison. -/
theorem Coupled.numCompare {alg : BoolAlgebra m α} {alg' : BoolAlgebra n β}
    (h : Coupled R Q alg alg' s t) (comparison : Comparison) {v v' : Storage α} {w w' : Storage β}
    (hv : StoresAlike R Q s t v w) (hv' : StoresAlike R Q s t v' w') :
    Alike R Q s t (alg.numCompare comparison v v') (alg'.numCompare comparison w w')
      (StoresAlike R Q) := by
  cases comparison with
  | eq => exact h.numEq hv hv'
  | ne => exact h.numNe hv hv'
  | le => exact h.numLe hv hv'
  | lt => exact h.numLt hv hv'

namespace RegistersAlike

variable {r : Registers α} {q : Registers β}

theorem alike_addVector (h : RegistersAlike R Q s t r q)
    {x : ExceptT Error m (Storage α)} {y : ExceptT Error n (Storage β)}
    (hxy : Alike R Q s t x y (StoresAlike R Q)) :
    Alike R Q s t (x >>= fun v => pure (r.addVector v)) (y >>= fun w => pure (q.addVector w))
      (ResultsAlike R Q) :=
  hxy.map fun _ _ _ _ hs ht hvw => (h.grows hs ht).addVector hvw

theorem alike_addTensor (h : RegistersAlike R Q s t r q)
    {x : ExceptT Error m (Tensor α)} {y : ExceptT Error n (Tensor β)}
    (hxy : Alike R Q s t x y fun s t u w => ∃ shape, TensorsAlike R Q shape s t u w) :
    Alike R Q s t (x >>= fun u => pure (r.addTensor u)) (y >>= fun w => pure (q.addTensor w))
      (ResultsAlike R Q) :=
  hxy.map fun _ _ _ _ hs ht huw => (h.grows hs ht).addTensor huw.choose_spec

end RegistersAlike

/-- An instruction goes on over both algebras, or it is refused over both, before anything is
computed. -/
theorem alike_run {alg : BoolAlgebra m α} {alg' : BoolAlgebra n β}
    (h : Coupled R Q alg alg' s t) {r : Registers α} {q : Registers β}
    (hrq : RegistersAlike R Q s t r q) {ρ : Type} (f : ρ → α) (g : ρ → β) (step : CircuitStep ρ)
    (helems : ∀ elem ∈ step.elems, ReadsAlike R Q s t (f elem) (g elem))
    (hoperands : step.Operands q) (hfits : step.Fits R.kind q) (hfits' : step.Fits Q.kind q)
    (hshaped : step.Shaped) :
    Alike R Q s t ((step.map f).run alg alg.tensorGates r)
      ((step.map g).run alg' alg'.tensorGates q) (ResultsAlike R Q) := by
  -- Shapes, lengths and mappings decide what is refused, and these are the same on both sides.
  cases step with
  | vector elems =>
    obtain ⟨values, hvalues, hvalues'⟩ := exists_forall₂ helems
    exact .pure (hrq.addVector
      ⟨values, h.left.stores_vector hvalues, h.right.stores_vector hvalues'⟩)
  | tensor dims elems =>
    obtain ⟨values, hvalues, hvalues'⟩ := exists_forall₂ helems
    refine .lift_bind (.refl (Shape.ofInts dims)) ?_
    rintro shape _ ⟨rfl, -⟩
    exact hrq.alike_addTensor ((h.tensorOf shape hvalues hvalues').imp fun _ _ _ _ hu => ⟨_, hu⟩)
  | concat parts =>
    rw [CircuitStep.map, CircuitStep.map, CircuitStep.run, CircuitStep.run, h.left.kind_eq,
      h.right.kind_eq]
    exact .pure (hrq.addVector (.concat fun part hpart => hrq.vector (hoperands part hpart)))
  | split v size =>
    exact .lift_bind ((hrq.vector hoperands).split hfits hfits') fun _ _ hvws =>
      .pure (hrq.addVectors hvws)
  | bitLift values =>
    exact hrq.alike_addVector (.of_stores (h.left.gives_bitLift h.valid_left values).lift
      (h.right.gives_bitLift h.valid_right values).lift)
  | bitNot v =>
    obtain ⟨values, hv, hw⟩ := hrq.vector hoperands
    exact hrq.alike_addVector (.of_stores (h.left.gives_bitNot h.valid_left hv.reads).lift
      (h.right.gives_bitNot h.valid_right hw.reads).lift)
  | bitGate gate v w =>
    exact hrq.alike_addVector (h.bitGate gate (hrq.vector hoperands.1) (hrq.vector hoperands.2))
  | bitReduce reduction v =>
    obtain ⟨values, hv, hw⟩ := hrq.vector hoperands
    exact hrq.alike_addVector (.of_stores (h.left.gives_bitReduce h.valid_left reduction hv.reads).lift
      (h.right.gives_bitReduce h.valid_right reduction hw.reads).lift)
  | numLift length value =>
    exact hrq.alike_addVector (.of_stores (h.left.gives_numLift h.valid_left length value).lift
      (h.right.gives_numLift h.valid_right length value).lift)
  | numNeg v =>
    obtain ⟨values, hv, hw⟩ := hrq.vector hoperands
    exact hrq.alike_addVector (.of_stores (h.left.gives_numNeg h.valid_left hv.reads).lift
      (h.right.gives_numNeg h.valid_right hw.reads).lift)
  | numAdd v w =>
    exact hrq.alike_addVector (h.numAdd (hrq.vector hoperands.1) (hrq.vector hoperands.2))
  | numSub v w =>
    exact hrq.alike_addVector (h.numSub (hrq.vector hoperands.1) (hrq.vector hoperands.2))
  | compare comparison v w =>
    exact hrq.alike_addVector
      (h.numCompare comparison (hrq.vector hoperands.1) (hrq.vector hoperands.2))
  | scalar value =>
    have hone : Shape.scalar.size ≤ indexLimit := by decide
    exact hrq.alike_addTensor ((h.constant value hone).imp fun _ _ _ _ hu => ⟨_, hu⟩)
  | constant dims value =>
    obtain ⟨shape, hshape⟩ := hshaped
    have hconstant := h.constant value (hfits shape hshape)
    rw [← BoolAlgebra.constantOf_of_ofInts alg hshape,
      ← BoolAlgebra.constantOf_of_ofInts alg' hshape] at hconstant
    exact hrq.alike_addTensor (hconstant.imp fun _ _ _ _ hu => ⟨_, hu⟩)
  | diagonal dim =>
    exact hrq.alike_addTensor ((h.diagonal dim hfits).imp fun _ _ _ _ hu => ⟨_, hu⟩)
  | polymer number dims mapping =>
    refine .lift_bind (.refl (Shape.ofInts dims)) ?_
    rintro shape _ ⟨rfl, -⟩
    exact hrq.alike_addTensor (((hrq.tensor hoperands).polymer shape mapping).imp
      fun _ _ _ _ hu => ⟨_, hu⟩)
  | joined number count =>
    exact .lift_bind ((hrq.tensor hoperands).join count) fun _ _ ⟨_, hu⟩ => .pure (hrq.addTensor hu)
  | get number coords =>
    exact .lift_bind ((hrq.tensor hoperands).get coords) fun _ _ hab =>
      .pure (hrq.answer (.element hab))
  | set number coords elem =>
    have helem := helems elem (List.mem_singleton.2 rfl)
    have hcells := (hrq.tensor hoperands).set h.left h.right coords helem
    have hbanks : Agree (fun bank bank' => RegistersAlike R Q s t { r with bank := bank }
        { q with bank := bank' }) (r.bank.setCell (r.view number) coords (f elem))
        (q.bank.setCell (q.view number) coords (g elem)) :=
      hcells.bind fun _ _ hu => .ok (hrq.replace (hrq.views_eq ▸ hoperands) hu)
    exact .lift_bind hbanks fun _ _ hbank => .pure (hbank.answer .nothing)
  | tensorNot number =>
    exact hrq.alike_addTensor ((h.tensorNot (hrq.tensor hoperands)).imp fun _ _ _ _ hu => ⟨_, hu⟩)
  | tensorGate gate number other =>
    exact hrq.alike_addTensor ((h.tensorGate gate (hrq.tensor hoperands.1)
      (hrq.tensor hoperands.2)).imp fun _ _ _ _ hu => ⟨_, hu⟩)
  | tensorReduce reduction number =>
    exact hrq.alike_addTensor (h.tensorReduce reduction (hrq.tensor hoperands))

/-! ### Runs -/

/-- After an instruction both programs go on, from registers that are read alike. -/
theorem Alike.after {r : Registers α} {q : Registers β}
    {x : ExceptT Error m (Outcome α × Registers α)} {y : ExceptT Error n (Outcome β × Registers β)}
    (h : Alike R Q s t x y (ResultsAlike R Q)) (hrq : RegistersAlike R Q s t r q) :
    let x := Runs.run x.run s
    let y := Runs.run y.run t
    R.grows s x.2 ∧ Q.grows t y.2 ∧ RegistersAlike R Q x.2 y.2 (r.after x.1) (q.after y.1) ∧
      Agree (Outcome.Corresponds (ReadsAlike R Q x.2 y.2)) (x.1.map Prod.fst)
        (y.1.map Prod.fst) := by
  cases h with
  | ok hx hy hs ht h =>
    rw [hx, hy]
    exact ⟨hs, ht, h.2, .ok h.1⟩
  | error e hx hy =>
    rw [hx, hy]
    exact ⟨R.grows_refl s, Q.grows_refl t, hrq, .error e⟩

/-- After an instruction on a constant without a shape both programs go on as well. -/
theorem alike_after {alg : BoolAlgebra m α} {alg' : BoolAlgebra n β}
    (h : Coupled R Q alg alg' s t) {r : Registers α} {q : Registers β}
    (hrq : RegistersAlike R Q s t r q) {ρ : Type} (f : ρ → α) (g : ρ → β) (step : CircuitStep ρ)
    (helems : ∀ elem ∈ step.elems, ReadsAlike R Q s t (f elem) (g elem))
    (hoperands : step.Operands q) (hfits : step.Fits R.kind q) (hfits' : step.Fits Q.kind q) :
    let x := Runs.run ((step.map f).run alg alg.tensorGates r).run s
    let y := Runs.run ((step.map g).run alg' alg'.tensorGates q).run t
    R.grows s x.2 ∧ Q.grows t y.2 ∧ RegistersAlike R Q x.2 y.2 (r.after x.1) (q.after y.1) ∧
      Agree (Outcome.Corresponds (ReadsAlike R Q x.2 y.2)) (x.1.map Prod.fst)
        (y.1.map Prod.fst) := by
  by_cases hshaped : step.Shaped
  · exact (alike_run h hrq f g step helems hoperands hfits hfits' hshaped).after hrq
  cases step with
  | constant dims value =>
    cases hshape : Shape.ofInts dims with
    | ok shape => exact absurd ⟨shape, hshape⟩ hshaped
    | error e =>
      intro x y
      have hx : x = (.error e, (Runs.run (alg.lift value) s).2) :=
        Runs.run_bind_of_error (alg.run_constantOf_of_error hshape value s)
      have hy : y = (.error e, (Runs.run (alg'.lift value) t).2) :=
        Runs.run_bind_of_error (alg'.run_constantOf_of_error hshape value t)
      have hs := (h.left.lift s value h.valid_left).1
      have ht := (h.right.lift t value h.valid_right).1
      rw [hx, hy]
      exact ⟨hs, ht, hrq.grows hs ht, .error e⟩
  | _ => exact absurd trivial hshaped

/-- A program goes on over both algebras with the same outcomes. Over the second one it needs no
state. -/
theorem alike_runAll {Q : Reading Unit β} {alg : BoolAlgebra m α} {alg' : BoolAlgebra Id β}
    (h : Coupled R Q alg alg' s ()) {r : Registers α} {q : Registers β}
    (hrq : RegistersAlike R Q s () r q) {ρ : Type} (f : ρ → α) (g : ρ → β)
    (steps : List (CircuitStep ρ))
    (helems : ∀ step ∈ steps, ∀ elem ∈ step.elems, ReadsAlike R Q s () (f elem) (g elem))
    (hsteps : Along (fun step => (step.map g).run alg' alg'.tensorGates)
      (fun step q => step.Operands q ∧ step.Fits R.kind q ∧ step.Fits Q.kind q) steps q) :
    let x := Runs.run (runAll (fun step => (step.map f).run alg alg.tensorGates) steps r) s
    let y := runAll (m := Id) (fun step => (step.map g).run alg' alg'.tensorGates) steps q
    R.grows s x.2 ∧ RegistersAlike R Q x.2 () x.1.2 y.2 ∧
      List.Forall₂ (Agree (Outcome.Corresponds (ReadsAlike R Q x.2 ()))) x.1.1 y.1 := by
  induction steps generalizing s r q with
  | nil =>
    intro x y
    have hx : x = (([], r), s) := Runs.run_pure _ s
    rw [hx]
    exact ⟨R.grows_refl s, hrq, .nil⟩
  | cons step steps ih =>
    obtain ⟨⟨hoperands, hfits, hfits'⟩, hsteps⟩ := hsteps
    rw [List.forall_mem_cons] at helems
    rw [runs_runAll_cons, runAll_cons]
    obtain ⟨hs, ht, hrq', houtcome⟩ :=
      alike_after h hrq f g step helems.1 hoperands hfits hfits'
    obtain ⟨hgrows, hregisters, houtcomes⟩ := ih (h.grows hs ht) hrq'
      (fun step hstep elem helem => (helems.2 step hstep elem helem).grows hs ht) hsteps
    refine ⟨R.grows_trans hs hgrows, hregisters, .cons ?_ houtcomes⟩
    exact houtcome.imp fun _ _ ho => ho.imp fun _ _ hab => hab.grows hgrows (Q.grows_refl ())

end Reading

end BoolTensor
