import BoolTensor.Proofs.Algebra.Reading

/-!
# Two algebras side by side

The same circuit runs over two algebras, each with elements that are read as truth values. Either
both runs go on with elements that are read alike, or both are refused for the same reason.

## Main definitions

* `Reading.Alike`: two computations, side by side
* `Reading.ReadsAlike`, `Reading.StoresAlike`: elements and vectors that are read alike
-/

namespace BoolTensor

namespace Reading

variable {m n : Type → Type} [Monad m] [Monad n] {σ τ α β γ δ γ' δ' : Type} [Runs m σ] [Runs n τ]
  {R : Reading σ α} {Q : Reading τ β} {s s' : σ} {t t' : τ}

/-- Both computations end in later states, where `P` holds of their results, or both fail for the
same reason and leave their states as they were. -/
inductive Alike (R : Reading σ α) (Q : Reading τ β) (s : σ) (t : τ) (x : ExceptT Error m γ)
    (y : ExceptT Error n δ) (P : σ → τ → γ → δ → Prop) : Prop
  | ok {s' : σ} {t' : τ} {c : γ} {d : δ} (hx : Runs.run x.run s = (.ok c, s'))
    (hy : Runs.run y.run t = (.ok d, t')) (hs : R.grows s s') (ht : Q.grows t t') (h : P s' t' c d)
  | error (e : Error) (hx : Runs.run x.run s = (.error e, s))
    (hy : Runs.run y.run t = (.error e, t))

/-- Both elements are read as the same truth value. -/
def ReadsAlike (R : Reading σ α) (Q : Reading τ β) (s : σ) (t : τ) (a : α) (b : β) : Prop :=
  ∃ value, R.reads s a value ∧ Q.reads t b value

theorem ReadsAlike.grows {a : α} {b : β} (h : ReadsAlike R Q s t a b) (hs : R.grows s s')
    (ht : Q.grows t t') : ReadsAlike R Q s' t' a b := by
  obtain ⟨value, ha, hb⟩ := h
  exact ⟨value, R.reads_of_grows hs ha, Q.reads_of_grows ht hb⟩

namespace Alike

variable {x : ExceptT Error m γ} {y : ExceptT Error n δ}
  {P : σ → τ → γ → δ → Prop} {P' : σ → τ → γ' → δ' → Prop}

theorem of_throw {e : Error} (hx : x = throw e) (hy : y = throw e) : Alike R Q s t x y P := by
  rw [hx, hy]
  exact .error e (Runs.run_pure _ s) (Runs.run_pure _ t)

theorem pure {c : γ} {d : δ} (h : P s t c d) :
    Alike R Q s t (Pure.pure c : ExceptT Error m γ) (Pure.pure d : ExceptT Error n δ) P :=
  .ok (Runs.run_pure _ s) (Runs.run_pure _ t) (R.grows_refl s) (Q.grows_refl t) h

/-- What is done with the results alone does not fail. -/
theorem map {f : γ → γ'} {g : δ → δ'} (h : Alike R Q s t x y P)
    (hfg : ∀ s' t' c d, R.grows s s' → Q.grows t t' → P s' t' c d → P' s' t' (f c) (g d)) :
    Alike R Q s t (x >>= fun c => Pure.pure (f c)) (y >>= fun d => Pure.pure (g d)) P' := by
  cases h with
  | ok hx hy hs ht h =>
    exact .ok ((Runs.run_bind_of_ok hx).trans (Runs.run_pure _ _))
      ((Runs.run_bind_of_ok hy).trans (Runs.run_pure _ _)) hs ht (hfg _ _ _ _ hs ht h)
  | error e hx hy => exact .error e (Runs.run_bind_of_error hx) (Runs.run_bind_of_error hy)

theorem imp {P' : σ → τ → γ → δ → Prop} (h : Alike R Q s t x y P)
    (himp : ∀ s t c d, P s t c d → P' s t c d) : Alike R Q s t x y P' := by
  cases h with
  | ok hx hy hs ht h => exact .ok hx hy hs ht (himp _ _ _ _ h)
  | error e hx hy => exact .error e hx hy

/-- Computations without states come first. -/
theorem lift_bind {x : Except Error γ} {y : Except Error δ} {P : γ → δ → Prop}
    {f : γ → ExceptT Error m γ'} {g : δ → ExceptT Error n δ'} (h : Agree P x y)
    (hfg : ∀ c d, P c d → Alike R Q s t (f c) (g d) P') :
    Alike R Q s t (liftM x >>= f) (liftM y >>= g) P' := by
  cases h with
  | ok h =>
    rw [liftM_ok, liftM_ok, pure_bind, pure_bind]
    exact hfg _ _ h
  | error e => exact of_throw (throw_bind e f) (throw_bind e g)

end Alike

variable [Element α] [Element β]

/-- Both vectors are read as the same truth values. -/
def StoresAlike (R : Reading σ α) (Q : Reading τ β) (s : σ) (t : τ) (v : Storage α)
    (w : Storage β) : Prop :=
  ∃ values, R.Stores s v values ∧ Q.Stores t w values

namespace StoresAlike

variable {v : Storage α} {w : Storage β}

theorem grows (h : StoresAlike R Q s t v w) (hs : R.grows s s') (ht : Q.grows t t') :
    StoresAlike R Q s' t' v w := by
  obtain ⟨values, hv, hw⟩ := h
  exact ⟨values, hv.grows hs, hw.grows ht⟩

theorem length_eq (h : StoresAlike R Q s t v w) : v.length = w.length := by
  obtain ⟨values, hv, hw⟩ := h
  rw [hv.length_eq, hw.length_eq]

theorem concat {ι : Type} {f : ι → Storage α} {g : ι → Storage β} {parts : List ι}
    (h : ∀ part ∈ parts, StoresAlike R Q s t (f part) (g part)) :
    StoresAlike R Q s t (.concat R.kind (parts.map f)) (.concat Q.kind (parts.map g)) := by
  obtain ⟨lists, hlists, hlists'⟩ := exists_forall₂ h
  exact ⟨lists.flatten, .concat hlists, .concat hlists'⟩

theorem split (h : StoresAlike R Q s t v w) {size : Int} (hfits : R.kind.SplitFits w.length size)
    (hfits' : Q.kind.SplitFits w.length size) :
    Agree (List.Forall₂ (StoresAlike R Q s t)) (v.split size) (w.split size) := by
  rw [← h.length_eq] at hfits
  obtain ⟨values, hv, hw⟩ := h
  refine ((hv.split hfits).join (hw.split hfits')).imp ?_
  rintro vs ws ⟨lists, hvs, hws⟩
  exact forall₂_join hvs hws

end StoresAlike

end Reading

end BoolTensor
