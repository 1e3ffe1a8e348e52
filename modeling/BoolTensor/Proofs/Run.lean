import BoolTensor.Error
import Mathlib

/-!
# Running computations that may fail over a state

A computation over a state that may refuse its arguments gives an answer and the state after it,
also where it fails. The lemmas here run such a computation step by step.

## Main definitions

* `Runs`: monads whose computations run from a state
* `Agree`: two computations that succeed or fail together
-/

namespace BoolTensor

/-- Lawful monads whose computations run from a state, and give an answer and the state after it. -/
class Runs (m : Type → Type) [Monad m] (σ : outParam Type) extends LawfulMonad m where
  run {α : Type} : m α → σ → α × σ
  run_pure {α : Type} (a : α) (s : σ) : run (pure a) s = (a, s)
  run_bind {α β : Type} (x : m α) (f : α → m β) (s : σ) :
    run (x >>= f) s = run (f (run x s).1) (run x s).2

instance (σ : Type) : Runs (StateM σ) σ where
  run x s := x.run s
  run_pure _ _ := rfl
  run_bind _ _ _ := rfl

instance : Runs Id Unit where
  run x s := (x.run, s)
  run_pure _ _ := rfl
  run_bind _ _ _ := rfl

namespace Runs

variable {m : Type → Type} [Monad m] {σ α β : Type} [Runs m σ] {s t : σ}

theorem run_bind_of_ok {x : ExceptT Error m α} {f : α → ExceptT Error m β} {a : α}
    (h : run x.run s = (.ok a, t)) : run (x >>= f).run s = run (f a).run t := by
  rw [ExceptT.run_bind, run_bind, h]

theorem run_bind_of_error {x : ExceptT Error m α} {f : α → ExceptT Error m β} {e : Error}
    (h : run x.run s = (.error e, t)) : run (x >>= f).run s = (.error e, t) := by
  rw [ExceptT.run_bind, run_bind, h, run_pure]

theorem run_liftM (x : m α) (s : σ) :
    run (liftM x : ExceptT Error m α).run s = (.ok (run x s).1, (run x s).2) := by
  have hlift : (liftM x : ExceptT Error m α).run = x >>= fun a => pure (.ok a) :=
    map_eq_pure_bind ..
  rw [hlift, run_bind, run_pure]

theorem run_liftM_except (x : Except Error α) (s : σ) :
    run (liftM x : ExceptT Error m α).run s = (x, s) := by
  cases x with
  | ok a => exact run_pure _ s
  | error e => exact run_pure _ s

end Runs

variable {σ α β : Type} {s t : σ}

/-- After a first computation the second one goes on from its state. -/
theorem run_state_bind {x : StateM σ α} {f : α → StateM σ β} {a : α} (h : x.run s = (a, t)) :
    (x >>= f).run s = (f a).run t := by
  rw [StateT.run_bind, h]
  rfl

/-- After a first computation that succeeds the second one goes on from its state. -/
theorem run_bind_of_ok {x : ExceptT Error (StateM σ) α} {f : α → ExceptT Error (StateM σ) β} {a : α}
    (h : x.run.run s = (.ok a, t)) : (x >>= f).run.run s = (f a).run.run t :=
  Runs.run_bind_of_ok (m := StateM σ) h

/-- Where a first computation fails the second one is not run. -/
theorem run_bind_of_error {x : ExceptT Error (StateM σ) α} {f : α → ExceptT Error (StateM σ) β}
    {e : Error} (h : x.run.run s = (.error e, t)) : (x >>= f).run.run s = (.error e, t) :=
  Runs.run_bind_of_error (m := StateM σ) h

theorem run_pure (a : α) (s : σ) :
    (pure a : ExceptT Error (StateM σ) α).run.run s = (.ok a, s) := rfl

theorem run_getThe (s : σ) :
    (getThe σ : ExceptT Error (StateM σ) σ).run.run s = (.ok s, s) := rfl

theorem run_set (s t : σ) :
    (set t : ExceptT Error (StateM σ) PUnit).run.run s = (.ok ⟨⟩, t) := rfl

theorem run_throw (e : Error) (s : σ) :
    (throw e : ExceptT Error (StateM σ) α).run.run s = (.error e, s) := rfl

/-- A computation over the state alone does not fail. -/
theorem run_liftM {x : StateM σ α} {a : α} (h : x.run s = (a, t)) :
    (liftM x : ExceptT Error (StateM σ) α).run.run s = (.ok a, t) := by
  have hlift : (liftM x : ExceptT Error (StateM σ) α).run.run s =
      (.ok (x.run s).1, (x.run s).2) := rfl
  rw [hlift, h]

theorem run_liftM_pure (a : α) (s : σ) :
    (liftM (pure a : StateM σ α) : ExceptT Error (StateM σ) α).run.run s = (.ok a, s) := rfl

theorem run_liftM_except (x : Except Error α) (s : σ) :
    (liftM x : ExceptT Error (StateM σ) α).run.run s = (x, s) := by
  cases x <;> rfl

/-- What is done with the answer of a computation alone does not matter for the state. -/
theorem run_bind_pure_snd (x : ExceptT Error (StateM σ) α) (f : α → β) (s : σ) :
    ((x >>= fun a => pure (f a)).run.run s).2 = (x.run.run s).2 := by
  rcases h : x.run.run s with ⟨_ | a, t⟩
  · rw [run_bind_of_error h]
  · rw [run_bind_of_ok h]
    rfl

/-! ### Computations without a state -/

section Lifted

variable {m : Type → Type} [Monad m]

theorem liftM_ok (a : α) : (liftM (.ok a : Except Error α) : ExceptT Error m α) = pure a := rfl

variable [LawfulMonad m]

theorem throw_bind (e : Error) (f : α → ExceptT Error m β) :
    (throw e : ExceptT Error m α) >>= f = throw e := by
  apply ExceptT.ext
  rw [ExceptT.run_bind, ExceptT.run_throw, pure_bind, ExceptT.run_throw]

end Lifted

/-! ### Computations side by side -/

/-- Both computations succeed, with related results, or both fail for the same reason. -/
inductive Agree {β γ : Type} (P : β → γ → Prop) : Except Error β → Except Error γ → Prop
  | ok {b : β} {c : γ} (h : P b c) : Agree P (.ok b) (.ok c)
  | error (e : Error) : Agree P (.error e) (.error e)

/-- Lists that agree place by place with the same list agree. -/
theorem forall₂_join {γ : Type} {P : α → γ → Prop} {Q : β → γ → Prop} {as : List α} {bs : List β}
    {cs : List γ} (h : List.Forall₂ P as cs) (h' : List.Forall₂ Q bs cs) :
    List.Forall₂ (fun a b => ∃ c, P a c ∧ Q b c) as bs := by
  induction h generalizing bs with
  | nil =>
    cases h'
    exact .nil
  | cons hac _ ih =>
    cases h' with
    | cons hbc h' => exact .cons ⟨_, hac, hbc⟩ (ih h')

/-- Items that agree each with one value agree with a list of values. -/
theorem exists_forall₂ {ι γ : Type} {P : α → γ → Prop} {Q : β → γ → Prop} {f : ι → α} {g : ι → β}
    {items : List ι} (h : ∀ item ∈ items, ∃ c, P (f item) c ∧ Q (g item) c) :
    ∃ cs, List.Forall₂ P (items.map f) cs ∧ List.Forall₂ Q (items.map g) cs := by
  induction items with
  | nil => exact ⟨[], .nil, .nil⟩
  | cons item items ih =>
    rw [List.forall_mem_cons] at h
    obtain ⟨c, hc, hc'⟩ := h.1
    obtain ⟨cs, hcs, hcs'⟩ := ih h.2
    exact ⟨c :: cs, .cons hc hcs, .cons hc' hcs'⟩

namespace Agree

variable {α' β' : Type} {P : α → β → Prop} {Q : α' → β' → Prop} {x : Except Error α}
  {y : Except Error β}

theorem refl (x : Except Error α) : Agree (fun a b => a = b ∧ x = .ok a) x x := by
  cases x with
  | ok a => exact .ok ⟨rfl, rfl⟩
  | error e => exact .error e

theorem of_map_eq {f : α → α'} {g : β → α'} (h : x.map f = y.map g) :
    Agree (fun a b => f a = g b) x y := by
  cases x with
  | ok a =>
    cases y with
    | ok b => exact .ok (Except.ok.inj h)
    | error e => cases h
  | error e =>
    cases y with
    | ok b => cases h
    | error e' =>
      obtain rfl : e = e' := Except.error.inj h
      exact .error e

theorem imp {P' : α → β → Prop} (h : Agree P x y) (himp : ∀ a b, P a b → P' a b) :
    Agree P' x y := by
  cases h with
  | ok h => exact .ok (himp _ _ h)
  | error e => exact .error e

theorem bind {f : α → Except Error α'} {g : β → Except Error β'} (h : Agree P x y)
    (hfg : ∀ a b, P a b → Agree Q (f a) (g b)) : Agree Q (x >>= f) (y >>= g) := by
  cases h with
  | ok h => exact hfg _ _ h
  | error e => exact .error e

theorem map {f : α → α'} {g : β → β'} (h : Agree P x y) (hfg : ∀ a b, P a b → Q (f a) (g b)) :
    Agree Q (x.map f) (y.map g) := by
  cases h with
  | ok h => exact .ok (hfg _ _ h)
  | error e => exact .error e

theorem eq_error {e : Error} (h : Agree P x (.error e)) : x = .error e := by
  cases h
  rfl

theorem exists_ok {b : β} (h : Agree P x (.ok b)) : ∃ a, x = .ok a ∧ P a b := by
  cases h with
  | ok h => exact ⟨_, rfl, h⟩

/-- What agrees with the same computation agrees. -/
theorem join {P' : α' → β → Prop} {z : Except Error α'} (h : Agree P x y) (h' : Agree P' z y) :
    Agree (fun a a' => ∃ b, P a b ∧ P' a' b) x z := by
  cases h with
  | ok h =>
    cases h' with
    | ok h' => exact .ok ⟨_, h, h'⟩
  | error e =>
    cases h' with
    | error => exact .error e

end Agree

/-! ### Checks -/

/-- Checks of all values succeed where each of them does. -/
theorem forM_eq_ok {check : α → Except Error Unit} {values : List α} :
    values.forM check = .ok () ↔ ∀ value ∈ values, check value = .ok () := by
  induction values with
  | nil => simp [pure, Except.pure]
  | cons value values ih =>
    rw [List.forM, List.forall_mem_cons, ← ih]
    cases check value with
    | error e => simp [bind, Except.bind]
    | ok value => simp [bind, Except.bind]

end BoolTensor
