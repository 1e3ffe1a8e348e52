import BoolTensor.Program.Registers
import BoolTensor.Proofs.Run

/-!
# What programs find in registers

A new vector or tensor leaves those that are there as they are, and another vector in the place of
one leaves the others. Two banks whose vectors correspond to each other stay so where corresponding
vectors are added or replaced.

## Main definitions

* `Bank.Has`, `Registers.HasTensor`: a handle or number is that of a vector or tensor
* `Bank.Corresponds`: two banks, vector by vector
* `SameUpTo`: the same outcome with related registers
-/

namespace BoolTensor

variable {α β : Type}

namespace Bank

variable {bank : Bank α} {other : Bank β} {handle target : Handle} {v : Storage α} {w : Storage β}

/-- The handle is that of a vector. -/
def Has (bank : Bank α) (handle : Handle) : Prop :=
  handle < bank.vectors.size

@[simp]
theorem size_add (bank : Bank α) (v : Storage α) :
    (bank.add v).1.vectors.size = bank.vectors.size + 1 :=
  Array.size_push v

@[simp]
theorem size_replace (bank : Bank α) (handle : Handle) (v : Storage α) :
    (bank.replace handle v).vectors.size = bank.vectors.size :=
  Array.size_setIfInBounds

variable [Element α] [Element β]

instance : Decidable (bank.Has handle) :=
  inferInstanceAs (Decidable (_ < _))

theorem find_add (bank : Bank α) (v : Storage α) (handle : Handle) :
    (bank.add v).1.find handle = if handle = bank.vectors.size then v else bank.find handle := by
  simp only [find, add, Array.getD_eq_getD_getElem?, Array.getElem?_push]
  split <;> rfl

/-- What holds of a new vector and of the one under a handle holds of what is then found there. -/
theorem of_find_add {P : Storage α → Prop} (hv : P v) (h : P (bank.find handle)) :
    P ((bank.add v).1.find handle) := by
  rw [find_add]
  split_ifs
  · exact hv
  · exact h

theorem of_find_foldl_add {P : Storage α → Prop} {vs : List (Storage α)} (hvs : ∀ v ∈ vs, P v)
    (h : P (bank.find handle)) : P ((vs.foldl (fun bank v => (bank.add v).1) bank).find handle) := by
  induction vs generalizing bank with
  | nil => exact h
  | cons v vs ih =>
    rw [List.forall_mem_cons] at hvs
    exact ih hvs.2 (of_find_add hvs.1 h)

theorem find_replace (h : bank.Has target) (v : Storage α) (handle : Handle) :
    (bank.replace target v).find handle = if handle = target then v else bank.find handle := by
  have hsize : target < bank.vectors.size := h
  simp only [find, replace, Array.getD_eq_getD_getElem?, Array.getElem?_setIfInBounds, hsize]
  by_cases heq : handle = target
  · simp [heq]
  · simp [heq, Ne.symm heq]

theorem find_of_not_has (h : ¬bank.Has handle) : bank.find handle = .empty .dense := by
  rw [find, Array.getD_eq_getD_getElem?, Array.getElem?_eq_none (not_lt.1 h), Option.getD_none]

omit [Element α] in
theorem replace_of_not_has (h : ¬bank.Has handle) (v : Storage α) : bank.replace handle v = bank :=
  congrArg Bank.mk (Array.setIfInBounds_eq_of_size_le (not_lt.1 h))

/-- The later bank has all vectors of the earlier one, as they were there. -/
structure Extends (bank later : Bank α) : Prop where
  has : ∀ {handle}, bank.Has handle → later.Has handle
  find_eq : ∀ {handle}, bank.Has handle → later.find handle = bank.find handle

theorem extends_add (bank : Bank α) (v : Storage α) : bank.Extends (bank.add v).1 where
  has h := (Nat.lt_succ_of_lt h).trans_eq (size_add bank v).symm
  find_eq h := (find_add bank v _).trans (if_neg (Nat.ne_of_lt h))

theorem extends_foldl_add (bank : Bank α) (vs : List (Storage α)) :
    bank.Extends (vs.foldl (fun bank v => (bank.add v).1) bank) := by
  induction vs generalizing bank with
  | nil => exact ⟨id, fun _ => rfl⟩
  | cons v vs ih =>
    have hadd := bank.extends_add v
    have hrest := ih (bank.add v).1
    exact ⟨fun h => hrest.has (hadd.has h), fun h =>
      (hrest.find_eq (hadd.has h)).trans (hadd.find_eq h)⟩

/-- The vectors of two banks correspond to each other. -/
structure Corresponds (P : Storage α → Storage β → Prop) (bank : Bank α) (other : Bank β) :
    Prop where
  size_eq : bank.vectors.size = other.vectors.size
  find : ∀ handle, bank.Has handle → P (bank.find handle) (other.find handle)

namespace Corresponds

variable {P Q : Storage α → Storage β → Prop}

theorem empty : Corresponds P Bank.empty Bank.empty :=
  ⟨rfl, fun handle hhandle => absurd hhandle (Nat.not_lt_zero handle)⟩

theorem imp (h : Corresponds P bank other) (himp : ∀ v w, P v w → Q v w) :
    Corresponds Q bank other :=
  ⟨h.size_eq, fun handle hhandle => himp _ _ (h.find handle hhandle)⟩

theorem has (h : Corresponds P bank other) (hhandle : bank.Has handle) : other.Has handle :=
  hhandle.trans_eq h.size_eq

theorem add (h : Corresponds P bank other) (hvw : P v w) :
    Corresponds P (bank.add v).1 (other.add w).1 := by
  refine ⟨by rw [size_add, size_add, h.size_eq], fun handle hhandle => ?_⟩
  rw [find_add, find_add, ← h.size_eq]
  split_ifs with heq
  · exact hvw
  · rw [Has, size_add] at hhandle
    exact h.find handle (Nat.lt_of_le_of_ne (Nat.le_of_lt_succ hhandle) heq)

theorem replace (h : Corresponds P bank other) (htarget : bank.Has target) (hvw : P v w) :
    Corresponds P (bank.replace target v) (other.replace target w) := by
  refine ⟨by rw [size_replace, size_replace, h.size_eq], fun handle hhandle => ?_⟩
  rw [find_replace htarget, find_replace (h.has htarget)]
  split_ifs with heq
  · exact hvw
  · rw [Has, size_replace] at hhandle
    exact h.find handle hhandle

theorem foldl_add (h : Corresponds P bank other) {vs : List (Storage α)} {ws : List (Storage β)}
    (hvs : List.Forall₂ P vs ws) : Corresponds P (vs.foldl (fun bank v => (bank.add v).1) bank)
      (ws.foldl (fun bank v => (bank.add v).1) other) := by
  induction hvs generalizing bank other with
  | nil => exact h
  | cons hvw _ ih => exact ih (h.add hvw)

end Corresponds

end Bank

namespace Registers

variable [Element α] {r : Registers α} {number : Nat}

/-- The number is that of a tensor whose cells are a vector of the bank. -/
def HasTensor (r : Registers α) (number : Nat) : Prop :=
  number < r.views.size ∧ r.bank.Has (r.view number).handle

/-- New vectors leave the tensors that are there as they are. -/
theorem tensor_of_extends {bank : Bank α} (hbank : r.bank.Extends bank) (h : r.HasTensor number) :
    HasTensor { r with bank := bank } number ∧
      tensor { r with bank := bank } number = r.tensor number :=
  ⟨⟨h.1, hbank.has h.2⟩, congrArg (Tensor.mk _) (hbank.find_eq h.2)⟩

/-- A new tensor leaves those that are there as they are. -/
theorem tensor_addTensor (h : r.HasTensor number) (t : Tensor α) :
    (r.addTensor t).2.HasTensor number ∧ (r.addTensor t).2.tensor number = r.tensor number := by
  have hview : (r.addTensor t).2.view number = r.view number := by
    simp only [view, addTensor, addView, Array.getD_eq_getD_getElem?, Array.getElem?_push, h.1.ne,
      if_false]
  have hextends := r.bank.extends_add t.elems
  have hviews : number < (r.addTensor t).2.views.size :=
    (Nat.lt_succ_of_lt h.1).trans_eq (Array.size_push _).symm
  rw [HasTensor, tensor, hview]
  exact ⟨⟨hviews, hextends.has h.2⟩, congrArg (Tensor.mk _) (hextends.find_eq h.2)⟩

/-- The last tensor is the new one. -/
theorem tensor_addTensor_self (r : Registers α) (t : Tensor α) :
    (r.addTensor t).2.HasTensor r.views.size ∧ (r.addTensor t).2.tensor r.views.size = t := by
  have hview : (r.addTensor t).2.view r.views.size = ⟨t.shape, r.bank.vectors.size⟩ := by
    simp only [view, addTensor, addView, Array.getD_eq_getD_getElem?, Array.getElem?_push_size]
    rfl
  have hfind : (r.bank.add t.elems).1.find r.bank.vectors.size = t.elems :=
    (Bank.find_add ..).trans (if_pos rfl)
  rw [HasTensor, tensor, hview]
  refine ⟨⟨?_, ?_⟩, congrArg (Tensor.mk _) hfind⟩
  · exact (Nat.lt_succ_self _).trans_eq (Array.size_push _).symm
  · exact (Nat.lt_succ_self _).trans_eq (Bank.size_add ..).symm

end Registers

/-! ### Runs -/

section Runs

variable {ι κ : Type}

/-- The registers from which the next instruction runs: those that one leaves, or where it fails
those that were there. -/
def Registers.after (r : Registers α) : Except Error (Outcome α × Registers α) → Registers α
  | .ok (_, s) => s
  | .error _ => r

section States

variable {m : Type → Type} [Monad m] {σ : Type} [Runs m σ]
  {run : ι → Registers α → ExceptT Error m (Outcome α × Registers α)}

theorem runs_runAll_cons (step : ι) (steps : List ι) (r : Registers α) (s : σ) :
    Runs.run (runAll run (step :: steps) r) s =
      let x := Runs.run (run step r).run s
      let y := Runs.run (runAll run steps (r.after x.1)) x.2
      ((x.1.map Prod.fst :: y.1.1, y.1.2), y.2) := by
  rw [runAll, Runs.run_bind]
  rcases Runs.run (run step r).run s with ⟨e | ⟨outcome, r'⟩, t⟩
  · exact (Runs.run_bind ..).trans (Runs.run_pure ..)
  · exact (Runs.run_bind ..).trans (Runs.run_pure ..)

theorem runs_runAll_append (steps more : List ι) (r : Registers α) (s : σ) :
    Runs.run (runAll run (steps ++ more) r) s =
      let x := Runs.run (runAll run steps r) s
      let y := Runs.run (runAll run more x.1.2) x.2
      ((x.1.1 ++ y.1.1, y.1.2), y.2) := by
  induction steps generalizing r s with
  | nil =>
    have hnil : Runs.run (runAll run [] r) s = (([], r), s) := Runs.run_pure _ s
    rw [hnil]
    rfl
  | cons step steps ih =>
    rw [List.cons_append, runs_runAll_cons, runs_runAll_cons]
    dsimp only
    rw [ih]
    rfl

end States

variable {run : ι → Registers α → Except Error (Outcome α × Registers α)}

theorem runAll_cons (step : ι) (steps : List ι) (r : Registers α) :
    runAll (m := Id) run (step :: steps) r =
      ((run step r).map Prod.fst :: (runAll (m := Id) run steps (r.after (run step r))).1,
        (runAll (m := Id) run steps (r.after (run step r))).2) :=
  congrArg Prod.fst (runs_runAll_cons (m := Id) step steps r ())

theorem runAll_append (steps more : List ι) (r : Registers α) :
    runAll (m := Id) run (steps ++ more) r =
      ((runAll (m := Id) run steps r).1 ++
        (runAll (m := Id) run more (runAll (m := Id) run steps r).2).1,
        (runAll (m := Id) run more (runAll (m := Id) run steps r).2).2) :=
  congrArg Prod.fst (runs_runAll_append (m := Id) steps more r ())

/-- A failure leaves the registers as they were. -/
theorem runAll_append_of_error {step : ι} {r : Registers α} {e : Error} (steps : List ι)
    (h : run step (runAll (m := Id) run steps r).2 = .error e) :
    (runAll (m := Id) run (steps ++ [step]) r).2 = (runAll (m := Id) run steps r).2 := by
  rw [runAll_append, runAll_cons, h]
  rfl

/-- A condition holds of each instruction and the registers from which it runs. -/
def Along (run : ι → Registers α → Except Error (Outcome α × Registers α))
    (P : ι → Registers α → Prop) : List ι → Registers α → Prop
  | [], _ => True
  | step :: steps, r => P step r ∧ Along run P steps (r.after (run step r))

variable {P : ι → Registers α → Prop}

instance Along.decidable [∀ step r, Decidable (P step r)] :
    (steps : List ι) → (r : Registers α) → Decidable (Along run P steps r)
  | [], _ => inferInstanceAs (Decidable True)
  | _ :: steps, _ =>
    have := Along.decidable steps
    inferInstanceAs (Decidable (_ ∧ _))

theorem Along.imp {P' : ι → Registers α → Prop} {steps : List ι} {r : Registers α}
    (h : Along run P steps r) (himp : ∀ step r, P step r → P' step r) : Along run P' steps r := by
  induction steps generalizing r with
  | nil => trivial
  | cons step steps ih => exact ⟨himp _ _ h.1, ih h.2⟩

theorem along_append {steps more : List ι} {r : Registers α} :
    Along run P (steps ++ more) r ↔
      Along run P steps r ∧ Along run P more (runAll (m := Id) run steps r).2 := by
  induction steps generalizing r with
  | nil => exact (iff_of_eq (true_and _)).symm
  | cons step steps ih =>
    rw [List.cons_append, Along, Along, ih, runAll_cons, and_assoc]

/-- The first instructions of a program, and those after them. -/
theorem Along.split {steps : List ι} {r : Registers α} (h : Along run P steps r) (n : Nat) :
    Along run P (steps.take n) r ∧
      Along run P (steps.drop n) (runAll (m := Id) run (steps.take n) r).2 :=
  along_append.1 ((List.take_append_drop n steps).symm ▸ h)

theorem Along.getElem {steps : List ι} {r : Registers α} (h : Along run P steps r) {n : Nat}
    (hn : n < steps.length) : P steps[n] (runAll (m := Id) run (steps.take n) r).2 := by
  have hrest := (h.split n).2
  rw [List.drop_eq_getElem_cons hn] at hrest
  exact hrest.1

/-! ### Runs side by side -/

/-- The same outcome, and registers that are related. -/
def SameUpTo (R : Registers α → Registers α → Prop) (x y : Outcome α × Registers α) : Prop :=
  x.1 = y.1 ∧ R x.2 y.2

variable {run' : ι → Registers α → Except Error (Outcome α × Registers α)}
  {R : Registers α → Registers α → Prop} {r s : Registers α}

theorem SameUpTo.after (h : R r s) {x y : Except Error (Outcome α × Registers α)}
    (hxy : Agree (SameUpTo R) x y) :
    x.map Prod.fst = y.map Prod.fst ∧ R (r.after x) (s.after y) := by
  cases hxy with
  | ok hxy => exact ⟨congrArg Except.ok hxy.1, hxy.2⟩
  | error e => exact ⟨rfl, h⟩

/-- Two ways to run instructions give the same outcomes and refusals where each instruction does, and
keeps the registers related. -/
theorem runAll_sameUpTo (hrun : ∀ step r s, R r s → P step s →
      Agree (SameUpTo R) (run step r) (run' step s)) (steps : List ι) (h : R r s)
    (hsteps : Along run' P steps s) :
    (runAll (m := Id) run steps r).1 = (runAll (m := Id) run' steps s).1 ∧
      R (runAll (m := Id) run steps r).2 (runAll (m := Id) run' steps s).2 := by
  induction steps generalizing r s with
  | nil => exact ⟨rfl, h⟩
  | cons step steps ih =>
    obtain ⟨houtcome, hafter⟩ := SameUpTo.after h (hrun step r s h hsteps.1)
    obtain ⟨houtcomes, hregisters⟩ := ih hafter hsteps.2
    rw [runAll_cons, runAll_cons]
    exact ⟨congrArg₂ List.cons houtcome houtcomes, hregisters⟩

end Runs

namespace Bank.Corresponds

variable [Element α] {P : Storage α → Storage α → Prop} {r s : Registers α} {v w : Storage α}
  {vs ws : List (Storage α)} {handle : Handle}

theorem answer (h : r.bank.Corresponds P s.bank) {o o' : Outcome α} (ho : o = o') :
    SameUpTo (fun r s => r.bank.Corresponds P s.bank) (o, r) (o', s) :=
  ⟨ho, h⟩

theorem addVector (h : r.bank.Corresponds P s.bank) (hvw : P v w) :
    SameUpTo (fun r s => r.bank.Corresponds P s.bank) (r.addVector v) (s.addVector w) :=
  ⟨congrArg Outcome.vector h.size_eq, h.add hvw⟩

theorem addVectors (h : r.bank.Corresponds P s.bank) (hvws : List.Forall₂ P vs ws) :
    SameUpTo (fun r s => r.bank.Corresponds P s.bank) (r.addVectors vs) (s.addVectors ws) := by
  refine ⟨?_, h.foldl_add hvws⟩
  rw [Registers.addVectors, Registers.addVectors, h.size_eq, hvws.length_eq]

end Bank.Corresponds

end BoolTensor
