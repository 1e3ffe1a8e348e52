import BoolTensor.Cnf.Basic
import Mathlib

/-!
# Assignments and the variables that clauses define

What the value of a literal, a clause or a formula depends on, and when clauses leave no choice for
the variables they speak of. `Formula.Defines` says that clauses fix new variables by older ones and
by free inputs, without restricting these; a circuit is a composition of such definitions, and its
clauses define all its variables by its inputs.

## Main definitions

* `Assignment.AgreeUpTo`: two assignments give the same values to the first variables
* `Formula.Allocated`: all literals of a formula name one of the first variables
* `Formula.Defines`: clauses that define the variables from one number up to another
-/

namespace BoolTensor

/-! ### Literals -/

namespace Literal

variable {σ τ : Assignment} {l : Literal} {n m : Nat}

theorem isAllocated_iff : l.isAllocated n = true ↔ l ≠ 0 ∧ l.natAbs ≤ n := by
  simp [isAllocated]

theorem isAllocated_mono (h : l.isAllocated n = true) (hle : n ≤ m) : l.isAllocated m = true := by
  rw [isAllocated_iff] at h ⊢
  exact ⟨h.1, h.2.trans hle⟩

@[simp]
theorem isAllocated_neg : isAllocated n (-l) = isAllocated n l := by
  rw [Bool.eq_iff_iff, isAllocated_iff, isAllocated_iff, Int.natAbs_neg, neg_ne_zero]

theorem isAllocated_natCast {v : Nat} (hpos : 1 ≤ v) (hle : v ≤ n) :
    isAllocated n (v : Int) = true := by
  rw [isAllocated_iff, Int.natAbs_natCast]
  exact ⟨Int.natCast_ne_zero.2 (Nat.pos_iff_ne_zero.1 hpos), hle⟩

theorem isAllocated_succ : isAllocated (n + 1) ((n + 1 : Nat) : Int) = true :=
  isAllocated_natCast n.succ_pos le_rfl

theorem ne_zero_of_isAllocated (h : l.isAllocated n = true) : l ≠ 0 :=
  (isAllocated_iff.1 h).1

theorem isAllocated_one (h : l.isAllocated n = true) : isAllocated n 1 = true := by
  rw [isAllocated_iff] at h ⊢
  exact ⟨one_ne_zero, (Int.natAbs_pos.2 h.1).trans_le h.2⟩

theorem pos_of_isAllocated (h : l.isAllocated n = true) : 1 ≤ n :=
  (isAllocated_iff.1 (isAllocated_one h)).2

theorem holds_natCast (σ : Assignment) (v : Nat) : holds σ (v : Int) = σ v := by
  simp [holds]

theorem holds_of_pos (σ : Assignment) (h : 0 < l) : holds σ l = σ l.natAbs :=
  if_neg (not_lt.2 h.le)

@[simp]
theorem holds_one (σ : Assignment) : holds σ 1 = σ 1 := rfl

/-- Negation turns the value of a literal round; zero is no literal. -/
theorem holds_neg (σ : Assignment) (h : l ≠ 0) : holds σ (-l) = !holds σ l := by
  rcases lt_or_gt_of_ne h with hneg | hpos
  · simp [holds, hneg, not_lt.2 hneg.le]
  · simp [holds, hpos, not_lt.2 hpos.le]

end Literal

/-! ### Agreement -/

/-- Two assignments give the same values to the first variables. -/
def Assignment.AgreeUpTo (n : Nat) (σ τ : Assignment) : Prop :=
  ∀ v, 1 ≤ v → v ≤ n → σ v = τ v

namespace Assignment.AgreeUpTo

variable {σ τ υ : Assignment} {n m : Nat}

theorem refl (n : Nat) (σ : Assignment) : AgreeUpTo n σ σ := fun _ _ _ => rfl

theorem symm (h : AgreeUpTo n σ τ) : AgreeUpTo n τ σ :=
  fun v hpos hle => (h v hpos hle).symm

theorem trans (h : AgreeUpTo n σ τ) (h' : AgreeUpTo n τ υ) : AgreeUpTo n σ υ :=
  fun v hpos hle => (h v hpos hle).trans (h' v hpos hle)

theorem mono (h : AgreeUpTo m σ τ) (hle : n ≤ m) : AgreeUpTo n σ τ :=
  fun v hpos hv => h v hpos (hv.trans hle)

theorem holds_literal (h : AgreeUpTo n σ τ) {l : Literal} (hl : l.isAllocated n = true) :
    Literal.holds σ l = Literal.holds τ l := by
  rw [Literal.isAllocated_iff] at hl
  have hvalue : σ l.natAbs = τ l.natAbs := h _ (Int.natAbs_pos.2 hl.1) hl.2
  simp only [Literal.holds, hvalue]

theorem holds_clause (h : AgreeUpTo n σ τ) {c : Clause} (hc : ∀ l ∈ c, l.isAllocated n = true) :
    c.holds σ = c.holds τ := by
  rw [Bool.eq_iff_iff, Clause.holds, Clause.holds, List.any_eq_true, List.any_eq_true]
  constructor
  · rintro ⟨l, hl, hvalue⟩
    exact ⟨l, hl, h.holds_literal (hc l hl) ▸ hvalue⟩
  · rintro ⟨l, hl, hvalue⟩
    exact ⟨l, hl, (h.holds_literal (hc l hl)).symm ▸ hvalue⟩

end Assignment.AgreeUpTo

/-! ### Formulas -/

@[simp]
theorem Clause.holds_nil (σ : Assignment) : Clause.holds σ [] = false := rfl

@[simp]
theorem Clause.holds_cons (σ : Assignment) (l : Literal) (c : Clause) :
    Clause.holds σ (l :: c) = (Literal.holds σ l || c.holds σ) := rfl

theorem Clause.holds_iff {σ : Assignment} {c : Clause} :
    c.holds σ = true ↔ ∃ l ∈ c, Literal.holds σ l = true := by
  simp [Clause.holds]

namespace Formula

variable {σ τ : Assignment} {f g : Formula} {n m k : Nat}

theorem holds_iff : f.holds σ = true ↔ ∀ c ∈ f, c.holds σ = true := by
  simp [holds]

@[simp]
theorem holds_nil (σ : Assignment) : holds σ [] = true := rfl

@[simp]
theorem holds_cons (σ : Assignment) (c : Clause) (f : Formula) :
    holds σ (c :: f) = (c.holds σ && f.holds σ) := rfl

theorem holds_append :
    holds σ (f ++ g) = true ↔ f.holds σ = true ∧ g.holds σ = true := by
  simp [holds]

theorem holds_of_subset (h : f.holds σ = true) (hsub : ∀ c ∈ g, c ∈ f) : g.holds σ = true :=
  holds_iff.2 fun c hc => holds_iff.1 h c (hsub c hc)

/-- Every literal of the formula names one of the first variables. -/
def Allocated (n : Nat) (f : Formula) : Prop :=
  ∀ c ∈ f, ∀ l ∈ c, l.isAllocated n = true

theorem Allocated.mono (h : f.Allocated n) (hle : n ≤ m) : f.Allocated m :=
  fun c hc l hl => Literal.isAllocated_mono (h c hc l hl) hle

theorem Allocated.append (hf : f.Allocated n) (hg : g.Allocated n) : Allocated n (f ++ g) := by
  intro c hc
  rcases List.mem_append.1 hc with hc | hc
  · exact hf c hc
  · exact hg c hc

theorem Allocated.holds_congr (h : f.Allocated n) (hagree : σ.AgreeUpTo n τ) :
    f.holds σ = f.holds τ := by
  rw [Bool.eq_iff_iff, holds_iff, holds_iff]
  exact forall₂_congr fun c hc => by rw [hagree.holds_clause (h c hc)]

/-! ### Definitions by clauses -/

/-- The clauses define the variables after the first `n` up to `m`, apart from the free `inputs`
among them: whatever the first variables and the inputs are there is one way to satisfy the
clauses, and no second one. -/
structure Defines (clauses : Formula) (n : Nat) (inputs : List Nat) (m : Nat) : Prop where
  le : n ≤ m
  /-- The inputs are among the new variables. -/
  fresh : ∀ v ∈ inputs, n < v ∧ v ≤ m
  allocated : clauses.Allocated m
  /-- The values of the first variables and of the inputs can be kept. -/
  extends_to : ∀ σ : Assignment, ∃ τ : Assignment, σ.AgreeUpTo n τ ∧ (∀ v ∈ inputs, τ v = σ v) ∧
    clauses.holds τ = true
  /-- These values leave no choice for the other variables. -/
  unique : ∀ σ τ : Assignment, clauses.holds σ = true → clauses.holds τ = true →
    σ.AgreeUpTo n τ → (∀ v ∈ inputs, σ v = τ v) → σ.AgreeUpTo m τ

theorem Defines.nil (n : Nat) : Defines [] n [] n where
  le := le_rfl
  fresh := by simp
  allocated := by simp [Allocated]
  extends_to σ := ⟨σ, .refl n σ, by simp, rfl⟩
  unique _ _ _ _ h _ := h

theorem Defines.input (n : Nat) : Defines [] n [n + 1] (n + 1) where
  le := n.le_succ
  fresh := by simp
  allocated := by simp [Allocated]
  extends_to σ := ⟨σ, .refl n σ, by simp, rfl⟩
  unique σ τ _ _ h hinput := by
    intro v hpos hle
    rcases Nat.le_succ_iff.1 hle with hle | rfl
    · exact h v hpos hle
    · exact hinput _ (by simp)

/-- Clauses that hold just if the next variable has the value of a function of the first ones define
it. -/
theorem Defines.of_iff {clauses : Formula} (f : Assignment → Bool)
    (hclauses : clauses.Allocated (n + 1))
    (hf : ∀ σ τ : Assignment, σ.AgreeUpTo n τ → f σ = f τ)
    (h : ∀ σ : Assignment, clauses.holds σ = true ↔ σ (n + 1) = f σ) :
    Defines clauses n [] (n + 1) where
  le := n.le_succ
  fresh := by simp
  allocated := hclauses
  extends_to σ := by
    let τ : Assignment := Function.update σ (n + 1) (f σ)
    have hagree : σ.AgreeUpTo n τ := fun v _ hle =>
      (Function.update_of_ne (by omega) _ _).symm
    refine ⟨τ, hagree, by simp, ?_⟩
    rw [h, ← hf σ τ hagree]
    exact Function.update_self ..
  unique σ τ hσ hτ hagree _ := by
    intro v hpos hle
    rcases Nat.le_succ_iff.1 hle with hle | rfl
    · exact hagree v hpos hle
    · rw [(h σ).1 hσ, (h τ).1 hτ, hf σ τ hagree]

/-- Definitions one after the other define all their variables. -/
theorem Defines.append {clauses more : Formula} {inputs others : List Nat}
    (h : Defines clauses n inputs m) (h' : Defines more m others k) :
    Defines (clauses ++ more) n (inputs ++ others) k where
  le := h.le.trans h'.le
  fresh v hv := by
    rcases List.mem_append.1 hv with hv | hv
    · exact ⟨(h.fresh v hv).1, (h.fresh v hv).2.trans h'.le⟩
    · exact ⟨h.le.trans_lt (h'.fresh v hv).1, (h'.fresh v hv).2⟩
  allocated := (h.allocated.mono h'.le).append h'.allocated
  extends_to σ := by
    obtain ⟨τ, hτ, hinputs, hclauses⟩ := h.extends_to σ
    -- The second step starts from the values of the first one, with its own inputs as in `σ`.
    let start : Assignment := fun v => if v ≤ m then τ v else σ v
    have hstart : start.AgreeUpTo m τ := fun v _ hle => if_pos hle
    obtain ⟨υ, hυ, hothers, hmore⟩ := h'.extends_to start
    have hagree : τ.AgreeUpTo m υ := hstart.symm.trans hυ
    refine ⟨υ, hτ.trans (hagree.mono h.le), ?_, holds_append.2 ⟨?_, hmore⟩⟩
    · intro v hv
      rcases List.mem_append.1 hv with hv | hv
      · have hbounds := h.fresh v hv
        rw [← hagree v (by omega) hbounds.2, hinputs v hv]
      · rw [hothers v hv]
        exact if_neg (not_le.2 (h'.fresh v hv).1)
    · rwa [← h.allocated.holds_congr hagree]
  unique σ τ hσ hτ hagree hinputs := by
    rw [holds_append] at hσ hτ
    refine h'.unique σ τ hσ.2 hτ.2 (h.unique σ τ hσ.1 hτ.1 hagree ?_) ?_
    · exact fun v hv => hinputs v (List.mem_append_left _ hv)
    · exact fun v hv => hinputs v (List.mem_append_right _ hv)

end Formula

end BoolTensor
