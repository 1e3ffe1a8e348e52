import BoolTensor.Proofs.Run

/-!
# What computations can end in

A computation in a monad can return some values and not others. Where it may fail it ends in a
result or in an error, and the rules here follow it step by step: each result that it can return has
one property, each error another.

## Main definitions

* `Meets`: a result has one property, or an error the other
* `Ends`: whatever a computation can return does so
-/

namespace BoolTensor

open MonadAttach

/-! ### Computations without a state -/

instance exceptMonadAttach (ε : Type) : MonadAttach (Except ε) where
  CanReturn x a := x = .ok a
  attach
    | .ok a => .ok ⟨a, rfl⟩
    | .error e => .error e

instance exceptLawfulMonadAttach (ε : Type) : LawfulMonadAttach (Except ε) where
  map_attach {_ x} := by cases x <;> rfl
  canReturn_map_imp {_ _ x _} h := by
    cases x with
    | error e => cases h
    | ok b =>
      cases h
      exact b.property

variable {β γ : Type} {P : β → Prop} {Q : γ → Prop} {E : Error → Prop}

/-- A result has the property `P`, an error the property `E`. -/
def Meets (P : β → Prop) (E : Error → Prop) : Except Error β → Prop
  | .ok b => P b
  | .error e => E e

namespace Meets

theorem imp {P' : β → Prop} {E' : Error → Prop} {x : Except Error β} (h : Meets P E x)
    (hok : ∀ b, P b → P' b) (herror : ∀ e, E e → E' e) : Meets P' E' x := by
  cases x with
  | ok b => exact hok b h
  | error e => exact herror e h

theorem top (x : Except Error β) : Meets (fun _ => True) (fun _ => True) x := by
  cases x <;> exact True.intro

theorem imp_error {E' : Error → Prop} {x : Except Error β} (h : Meets P E x)
    (herror : ∀ e, E e → E' e) : Meets P E' x :=
  h.imp (fun _ hb => hb) herror

theorem bind {x : Except Error β} {f : β → Except Error γ} (hx : Meets P E x)
    (hf : ∀ b, P b → Meets Q E (f b)) : Meets Q E (x >>= f) := by
  cases x with
  | ok b => exact hf b hx
  | error e => exact hx

theorem map {x : Except Error β} {f : β → γ} (hx : Meets P E x) (hf : ∀ b, P b → Q (f b)) :
    Meets Q E (x.map f) := by
  cases x with
  | ok b => exact hf b hx
  | error e => exact hx

theorem forall_mem_map {f : β → γ} {x : Except Error (List β)}
    (hx : Meets (fun bs => ∀ b ∈ bs, Q (f b)) E x) :
    Meets (fun cs => ∀ c ∈ cs, Q c) E (x.map (List.map f)) :=
  hx.map fun _ hbs => List.forall_mem_map.2 hbs

/-- A computation that goes on unless something holds. -/
theorem guard {p : Prop} [Decidable p] {e : Error} {f : PUnit → Except Error β}
    {x : Except Error β} (he : E e) (hx : ¬p → Meets P E x) :
    Meets P E (if p then throw e >>= f else x) := by
  split_ifs with hp
  · exact he
  · exact hx hp

theorem mapM {f : β → Except Error γ} {items : List β}
    (h : ∀ item ∈ items, Meets (fun _ => True) E (f item)) :
    Meets (fun _ => True) E (items.mapM f) := by
  induction items with
  | nil => trivial
  | cons item items ih =>
    rw [List.forall_mem_cons] at h
    rw [List.mapM_cons]
    exact h.1.bind fun _ _ => (ih h.2).bind fun _ _ => trivial

theorem forM {f : β → Except Error PUnit} {items : List β}
    (h : ∀ item ∈ items, Meets (fun _ => True) E (f item)) :
    Meets (fun _ => True) E (items.forM f) := by
  induction items with
  | nil => trivial
  | cons item items ih =>
    rw [List.forall_mem_cons] at h
    exact h.1.bind fun _ _ => ih h.2

end Meets

theorem Agree.meets {R : β → γ → Prop} {x : Except Error β} {y : Except Error γ}
    (h : Agree R x y) : Meets (fun b => ∃ c, R b c) (fun _ => True) x := by
  cases h with
  | ok h => exact ⟨_, h⟩
  | error e => exact True.intro

/-! ### Computations in a monad -/

variable {m : Type → Type} [Monad m] [MonadAttach m]

/-- Each result that the computation can return has the property `P`, each error the property
`E`. -/
def Ends (x : ExceptT Error m β) (P : β → Prop) (E : Error → Prop) : Prop :=
  ∀ result, CanReturn x.run result → Meets P E result

variable [LawfulMonad m] [LawfulMonadAttach m]

/-- A list of computations gives one value for each of them. -/
theorem length_of_canReturn_mapM {f : β → m γ} {items : List β} {values : List γ}
    (h : CanReturn (items.mapM f) values) : values.length = items.length := by
  induction items generalizing values with
  | nil => exact LawfulMonadAttach.eq_of_canReturn_pure h ▸ rfl
  | cons item items ih =>
    rw [List.mapM_cons] at h
    obtain ⟨value, -, h⟩ := LawfulMonadAttach.canReturn_bind_imp' h
    obtain ⟨rest, hrest, h⟩ := LawfulMonadAttach.canReturn_bind_imp' h
    obtain rfl := LawfulMonadAttach.eq_of_canReturn_pure h
    rw [List.length_cons, ih hrest, List.length_cons]

namespace Ends

theorem pure {b : β} (h : P b) : Ends (Pure.pure b : ExceptT Error m β) P E := by
  intro result hresult
  obtain rfl := LawfulMonadAttach.eq_of_canReturn_pure (m := m) hresult
  exact h

theorem throw {e : Error} (h : E e) : Ends (MonadExcept.throw e : ExceptT Error m β) P E := by
  intro result hresult
  obtain rfl := LawfulMonadAttach.eq_of_canReturn_pure (m := m) hresult
  exact h

omit [Monad m] [LawfulMonad m] [LawfulMonadAttach m] in
theorem imp {P' : β → Prop} {E' : Error → Prop} {x : ExceptT Error m β} (h : Ends x P E)
    (hok : ∀ b, P b → P' b) (herror : ∀ e, E e → E' e) : Ends x P' E' :=
  fun result hresult => (h result hresult).imp hok herror

omit [Monad m] [LawfulMonad m] [LawfulMonadAttach m] in
theorem imp_error {E' : Error → Prop} {x : ExceptT Error m β} (h : Ends x P E)
    (herror : ∀ e, E e → E' e) : Ends x P E' :=
  h.imp (fun _ hb => hb) herror

theorem bind {x : ExceptT Error m β} {f : β → ExceptT Error m γ} (hx : Ends x P E)
    (hf : ∀ b, P b → Ends (f b) Q E) : Ends (x >>= f) Q E := by
  intro result hresult
  rw [ExceptT.run_bind] at hresult
  obtain ⟨first, hfirst, hrest⟩ := LawfulMonadAttach.canReturn_bind_imp' hresult
  have hmeets := hx first hfirst
  cases first with
  | ok b => exact hf b hmeets result hrest
  | error e =>
    obtain rfl := LawfulMonadAttach.eq_of_canReturn_pure hrest
    exact hmeets

/-- A computation that does not fail. -/
theorem lift {x : m β} (h : ∀ b, CanReturn x b → P b) :
    Ends (liftM x : ExceptT Error m β) P E := by
  intro result hresult
  obtain ⟨b, hb, rfl⟩ := LawfulMonadAttach.canReturn_map_imp' (m := m) hresult
  exact h b hb

theorem lift_any {x : m β} : Ends (liftM x : ExceptT Error m β) (fun _ => True) E :=
  .lift fun _ _ => trivial

/-- A computation without effects. -/
theorem of_meets {x : Except Error β} (h : Meets P E x) :
    Ends (liftM x : ExceptT Error m β) P E := by
  cases x with
  | ok b => exact .pure h
  | error e => exact .throw h

theorem mapM {f : β → ExceptT Error m γ} {items : List β}
    (h : ∀ item ∈ items, Ends (f item) (fun _ => True) E) :
    Ends (items.mapM f) (fun values => values.length = items.length) E := by
  induction items with
  | nil => exact .pure rfl
  | cons item items ih =>
    rw [List.forall_mem_cons] at h
    rw [List.mapM_cons]
    refine h.1.bind fun value _ => (ih h.2).bind fun values hvalues => .pure ?_
    rw [List.length_cons, hvalues, List.length_cons]

theorem forM {f : β → ExceptT Error m PUnit} {items : List β}
    (h : ∀ item ∈ items, Ends (f item) (fun _ => True) E) :
    Ends (items.forM f) (fun _ => True) E := by
  induction items with
  | nil => exact .pure trivial
  | cons item items ih =>
    rw [List.forall_mem_cons] at h
    exact h.1.bind fun _ _ => ih h.2

end Ends

end BoolTensor
