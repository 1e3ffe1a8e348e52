import BoolTensor.Proofs.Algebra.Truth

/-!
# Elements read as truth values

The elements of an algebra over states stand for truth values: in a state an element is read as one,
and states that come later keep what is read. If every gate of the algebra gives an element that is
read as the value of the gate, then every circuit gives what the circuit computes on truth values.
A circuit is followed step by step with the rules for `Reading.Gives` and `Reading.Returns`.

## Main definitions

* `Reading`: states, which of them come later, what elements are read as, and how vectors of them
  are stored
* `Reading.Gives`, `Reading.Returns`: a computation ends in a later state, with a result of which
  something holds there; a computation that might fail does not
* `Reading.ReadsList`, `Reading.ReadsPairs`, `Reading.Stores`: elements in order, by pairs, and as
  the elements of a vector
* `Reading.Realizes`: the gates of an algebra give what is read as their values
* `Reading.truth`: truth values read as themselves
-/

namespace BoolTensor

/-- How the elements of an algebra over states are read as truth values. -/
structure Reading (σ α : Type) where
  kind : Kind
  valid : σ → Prop
  grows : σ → σ → Prop
  reads : σ → α → Bool → Prop
  grows_refl : ∀ s, grows s s
  grows_trans : ∀ {s t u}, grows s t → grows t u → grows s u
  valid_of_grows : ∀ {s t}, grows s t → valid s → valid t
  reads_of_grows : ∀ {s t a value}, grows s t → reads s a value → reads t a value

namespace Reading

variable {m : Type → Type} [Monad m] {σ α β γ : Type} [Runs m σ] {R : Reading σ α} {s t : σ}

/-! ### Computations -/

/-- The computation ends in a later state, and there `P` holds of its result. -/
def Gives (R : Reading σ α) (s : σ) (x : m β) (P : σ → β → Prop) : Prop :=
  R.grows s (Runs.run x s).2 ∧ P (Runs.run x s).2 (Runs.run x s).1

/-- The computation does not fail, and `P` holds of its result. -/
def Returns (R : Reading σ α) (s : σ) (x : ExceptT Error m β) (P : σ → β → Prop) : Prop :=
  ∃ b t, Runs.run x.run s = (.ok b, t) ∧ R.grows s t ∧ P t b

section Rules

variable {P : σ → β → Prop} {Q : σ → γ → Prop}

theorem Gives.pure {b : β} (h : P s b) : R.Gives s (Pure.pure b : m β) P := by
  rw [Gives, Runs.run_pure]
  exact ⟨R.grows_refl s, h⟩

theorem Gives.bind {x : m β} {f : β → m γ} (h : R.Gives s x P)
    (hf : ∀ t b, R.grows s t → P t b → R.Gives t (f b) Q) : R.Gives s (x >>= f) Q := by
  obtain ⟨hgrows, hvalue⟩ := hf _ _ h.1 h.2
  rw [Gives, Runs.run_bind]
  exact ⟨R.grows_trans h.1 hgrows, hvalue⟩

theorem Gives.imp {P' : σ → β → Prop} {x : m β} (h : R.Gives s x P)
    (himp : ∀ t b, R.grows s t → P t b → P' t b) : R.Gives s x P' :=
  ⟨h.1, himp _ _ h.1 h.2⟩

theorem Returns.pure {b : β} (h : P s b) : R.Returns s (Pure.pure b : ExceptT Error m β) P :=
  ⟨b, s, Runs.run_pure _ s, R.grows_refl s, h⟩

theorem Returns.bind {x : ExceptT Error m β} {f : β → ExceptT Error m γ}
    (h : R.Returns s x P) (hf : ∀ t b, R.grows s t → P t b → R.Returns t (f b) Q) :
    R.Returns s (x >>= f) Q := by
  obtain ⟨b, t, hrun, hgrows, hb⟩ := h
  obtain ⟨c, u, hrun', hgrows', hc⟩ := hf t b hgrows hb
  exact ⟨c, u, (Runs.run_bind_of_ok hrun).trans hrun', R.grows_trans hgrows hgrows', hc⟩

theorem Returns.imp {P' : σ → β → Prop} {x : ExceptT Error m β} (h : R.Returns s x P)
    (himp : ∀ t b, R.grows s t → P t b → P' t b) : R.Returns s x P' := by
  obtain ⟨b, t, hrun, hgrows, hb⟩ := h
  exact ⟨b, t, hrun, hgrows, himp t b hgrows hb⟩

/-- A computation over states alone does not fail. -/
theorem Gives.lift {x : m β} (h : R.Gives s x P) :
    R.Returns s (liftM x : ExceptT Error m β) P :=
  ⟨_, _, Runs.run_liftM x s, h.1, h.2⟩

theorem Returns.of_ok {x : Except Error β} {b : β} (hx : x = .ok b) (h : P s b) :
    R.Returns s (liftM x : ExceptT Error m β) P :=
  ⟨b, s, hx ▸ Runs.run_liftM_except x s, R.grows_refl s, h⟩

end Rules

/-! ### Elements in order -/

/-- Elements are read as truth values in the same order. -/
def ReadsList (R : Reading σ α) (s : σ) (elems : List α) (values : List Bool) : Prop :=
  List.Forall₂ (R.reads s) elems values

namespace ReadsList

variable {elems more : List α} {values others : List Bool}

theorem nil : R.ReadsList s [] [] := List.Forall₂.nil

theorem grows (h : R.ReadsList s elems values) (hgrows : R.grows s t) :
    R.ReadsList t elems values :=
  h.imp fun _ _ => R.reads_of_grows hgrows

theorem append (h : R.ReadsList s elems values) (h' : R.ReadsList s more others) :
    R.ReadsList s (elems ++ more) (values ++ others) :=
  List.rel_append h h'

theorem length_eq (h : R.ReadsList s elems values) : elems.length = values.length :=
  List.Forall₂.length_eq h

theorem chunks (h : R.ReadsList s elems values) (size count : Nat) :
    List.Forall₂ (R.ReadsList s) (chunks size count elems) (chunks size count values) := by
  induction count generalizing elems values with
  | zero => exact .nil
  | succ count ih => exact .cons (List.forall₂_take _ h) (ih (List.forall₂_drop _ h))

end ReadsList

/-- Pairs of elements are read as pairs of truth values. -/
def ReadsPairs (R : Reading σ α) (s : σ) (pairs : List (α × α)) (bits : List (Bool × Bool)) :
    Prop :=
  List.Forall₂ (fun pair bit => R.reads s pair.1 bit.1 ∧ R.reads s pair.2 bit.2) pairs bits

theorem ReadsPairs.grows {pairs : List (α × α)} {bits : List (Bool × Bool)}
    (h : R.ReadsPairs s pairs bits) (hgrows : R.grows s t) : R.ReadsPairs t pairs bits :=
  h.imp fun _ _ hpair => ⟨R.reads_of_grows hgrows hpair.1, R.reads_of_grows hgrows hpair.2⟩

theorem ReadsList.zip {elems more : List α} {values others : List Bool}
    (h : R.ReadsList s elems values) (h' : R.ReadsList s more others) :
    R.ReadsPairs s (elems.zip more) (values.zip others) := by
  induction h generalizing more others with
  | nil => exact .nil
  | cons ha _ ih =>
    cases h' with
    | nil => exact .nil
    | cons hb hmore => exact .cons ⟨ha, hb⟩ (ih hmore)

theorem Gives.mapM {f : β → m α} {items : List β} {values : List Bool}
    (h : List.Forall₂ (fun item value => ∀ t, R.grows s t →
      R.Gives t (f item) fun u a => R.reads u a value) items values) :
    R.Gives s (items.mapM f) fun t elems => R.ReadsList t elems values := by
  have hfrom : ∀ t, R.grows s t →
      R.Gives t (items.mapM f) fun u elems => R.ReadsList u elems values := by
    induction h with
    | nil => exact fun t _ => .pure ReadsList.nil
    | cons hitem _ ih =>
      intro t ht
      rw [List.mapM_cons]
      refine (hitem t ht).bind fun u a hu ha => ?_
      refine (ih u (R.grows_trans ht hu)).bind fun w elems hw helems => .pure ?_
      exact .cons (R.reads_of_grows hw ha) helems
  exact hfrom s (R.grows_refl s)

variable [Element α]

/-- The elements of a vector are read as truth values in the same order. -/
structure Stores (R : Reading σ α) (s : σ) (v : Storage α) (values : List Bool) : Prop where
  kind_eq : v.kind = R.kind
  wellFormed : v.WellFormed
  reads : R.ReadsList s v.toList values

namespace Stores

variable {v : Storage α} {values : List Bool}

theorem grows (h : R.Stores s v values) (hgrows : R.grows s t) : R.Stores t v values :=
  ⟨h.kind_eq, h.wellFormed, h.reads.grows hgrows⟩

theorem length_eq (h : R.Stores s v values) : v.length = values.length := by
  rw [← Storage.length_toList, h.reads.length_eq]

theorem holds (h : R.Stores s v values) : v.Holds R.kind v.toList :=
  ⟨h.kind_eq, h.wellFormed, rfl⟩

theorem of_holds {elems : List α} (h : v.Holds R.kind elems) (helems : R.ReadsList s elems values) :
    R.Stores s v values := by
  obtain ⟨hkind, hwell, rfl⟩ := h
  exact ⟨hkind, hwell, helems⟩

theorem copy (h : R.Stores s v values) : R.Stores s v.copy values :=
  of_holds h.holds.copy h.reads

theorem concat {parts : List (Storage α)} {lists : List (List Bool)}
    (h : List.Forall₂ (R.Stores s) parts lists) :
    R.Stores s (.concat R.kind parts) lists.flatten := by
  have hholds : List.Forall₂ (fun v elems => v.Holds R.kind elems) parts
      (parts.map Storage.toList) := by
    rw [List.forall₂_map_right_iff, List.forall₂_same]
    exact ((List.forall₂_and_left _ _).1 (h.imp fun v values hv => ⟨hv.holds, hv⟩)).1
  refine of_holds (Storage.holds_concat hholds) ?_
  induction h with
  | nil => exact .nil
  | cons hv _ ih =>
    rw [List.forall₂_map_right_iff, List.forall₂_cons, ← List.forall₂_map_right_iff] at hholds
    exact hv.reads.append (ih hholds.2)

/-- A vector is cut into vectors of the chunks of its truth values. -/
theorem split (h : R.Stores s v values) {size : Int} (hfits : R.kind.SplitFits v.length size) :
    Agree (List.Forall₂ (R.Stores s)) (v.split size) (if values.length = 0 then .ok []
      else (checkChunk size).map fun size => chunks size (values.length / size) values) := by
  have hsplit := h.holds.split (Storage.length_toList v ▸ hfits)
  rw [h.reads.length_eq] at hsplit
  have hreads : Agree (List.Forall₂ fun values elems => R.ReadsList s elems values)
      (if values.length = 0 then .ok []
        else (checkChunk size).map fun size => chunks size (values.length / size) values)
      (if values.length = 0 then .ok []
        else (checkChunk size).map fun size => chunks size (values.length / size) v.toList) := by
    split_ifs
    · exact .ok .nil
    · cases checkChunk size with
      | error e => exact .error e
      | ok size => exact .ok (h.reads.chunks size _).flip
  refine (hsplit.join hreads).imp fun vs lists => ?_
  rintro ⟨elems, hvs, hlists⟩
  exact (forall₂_join hvs hlists).imp fun _ _ ⟨_, hholds, helems⟩ => of_holds hholds helems

end Stores

/-! ### Algebras -/

/-- The gates of the algebra give what is read as their values. -/
structure Realizes (R : Reading σ α) (alg : BoolAlgebra m α) : Prop where
  kind_eq : alg.kind = R.kind
  lift : ∀ s value, R.valid s → R.Gives s (alg.lift value) fun t a => R.reads t a value
  neg : ∀ s a value, R.valid s → R.reads s a value →
    R.Gives s (alg.neg a) fun t b => R.reads t b (!value)
  gate : ∀ s g a b v w, R.valid s → R.reads s a v → R.reads s b w →
    R.Gives s (alg.gate g a b) fun t c => R.reads t c (g.eval v w)
  maj : ∀ s a b c v w u, R.valid s → R.reads s a v → R.reads s b w → R.reads s c u →
    R.Gives s (alg.maj a b c) fun t d => R.reads t d (Bool.atLeastTwo v w u)
  sum3 : ∀ s a b c v w u, R.valid s → R.reads s a v → R.reads s b w → R.reads s c u →
    R.Gives s (alg.sum3 a b c) fun t d => R.reads t d ((v != w) != u)
  reduce : ∀ s reduction elems values, R.valid s → R.ReadsList s elems.get values →
    R.Gives s (alg.reduce reduction elems) fun t a => R.reads t a (reduction.eval values)
  keeps : ∀ s a value, R.reads s a value → R.reads s (alg.kind.keeps a) value

namespace Realizes

variable {alg : BoolAlgebra m α}

theorem keeps_list (h : R.Realizes alg) {elems : List α} {values : List Bool}
    (helems : R.ReadsList s elems values) :
    R.ReadsList s (elems.map alg.kind.keeps) values :=
  List.forall₂_map_left_iff.2 (helems.imp fun a value => h.keeps s a value)

theorem stores_vector (h : R.Realizes alg) {elems : List α} {values : List Bool}
    (helems : R.ReadsList s elems values) : R.Stores s (alg.vector elems) values := by
  refine ⟨(Storage.kind_ofList _ _).trans h.kind_eq, Storage.wellFormed_ofList _ _, ?_⟩
  rw [BoolAlgebra.vector, Storage.toList_ofList]
  exact h.keeps_list helems

/-! ### Gates on lists -/

variable {elems more : List α} {values others : List Bool}

theorem gives_neg_list (h : R.Realizes alg) (hs : R.valid s) (helems : R.ReadsList s elems values) :
    R.Gives s (elems.mapM alg.neg) fun t negs => R.ReadsList t negs (values.map (!·)) := by
  refine .mapM (List.forall₂_map_right_iff.2 (helems.imp fun a value ha t ht => ?_))
  exact h.neg t a value (R.valid_of_grows ht hs) (R.reads_of_grows ht ha)

theorem gives_gate_list (h : R.Realizes alg) (hs : R.valid s) (gate : Gate)
    (helems : R.ReadsList s elems values) (hmore : R.ReadsList s more others) :
    R.Gives s ((elems.zip more).mapM fun (a, b) => alg.gate gate a b) fun t results =>
      R.ReadsList t results (List.zipWith gate.eval values others) := by
  rw [zipWith_eval]
  refine .mapM (List.forall₂_map_right_iff.2 ?_)
  refine (helems.zip hmore).imp fun pair value hpair t ht => ?_
  exact h.gate t gate pair.1 pair.2 value.1 value.2 (R.valid_of_grows ht hs)
    (R.reads_of_grows ht hpair.1) (R.reads_of_grows ht hpair.2)

end Realizes

/-! ### Truth values -/

/-- Truth values are read as themselves. -/
def truth : Reading Unit Bool where
  kind := .packed
  valid _ := True
  grows _ _ := True
  reads _ a value := a = value
  grows_refl _ := trivial
  grows_trans _ _ := trivial
  valid_of_grows _ _ := trivial
  reads_of_grows _ ha := ha

theorem truth_realizes {m : Type → Type} [Monad m] [Runs m Unit] :
    truth.Realizes (truthAlgebra : BoolAlgebra m Bool) where
  kind_eq := rfl
  lift _ _ _ := .pure rfl
  neg _ _ _ _ ha := .pure (congrArg (!·) ha)
  gate _ g _ _ _ _ _ ha hb := by
    rw [truthAlgebra_gate]
    exact .pure (congrArg₂ g.eval ha hb)
  maj _ a b c _ _ _ _ ha hb hc := by
    subst ha hb hc
    have hmaj : (truthAlgebra : BoolAlgebra m Bool).maj a b c = pure (Bool.atLeastTwo a b c) := by
      cases a <;> cases b <;> cases c <;> exact map_pure _ _
    rw [hmaj]
    exact .pure rfl
  sum3 _ a b c _ _ _ _ ha hb hc := by
    subst ha hb hc
    have hsum : (truthAlgebra : BoolAlgebra m Bool).sum3 a b c = pure ((a != b) != c) := by
      cases a <;> cases b <;> cases c <;> exact map_pure _ _
    rw [hsum]
    exact .pure rfl
  reduce _ reduction elems values _ helems := by
    have hvalues : elems.get = values := List.forall₂_eq_eq_eq ▸ helems
    rw [truthAlgebra_reduce, hvalues]
    exact .pure rfl
  keeps _ _ _ ha := ha

end Reading

end BoolTensor
