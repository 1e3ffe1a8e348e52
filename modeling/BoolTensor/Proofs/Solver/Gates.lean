import BoolTensor.Proofs.Algebra.Truth
import BoolTensor.Proofs.Cnf.Assignment
import BoolTensor.Solver.Basic

/-!
# What the gates on literals build

A gate on allocated literals gives an allocated literal and records clauses that define the
variables it allocates. Wherever variable 1 is true and these clauses hold, the literal has the value
of the gate. `Solver.Builds` puts this into one statement, which composes along the steps of a gate;
every gate has one lemma of this form.

## Main definitions

* `Solver.grown`: a solver with further variables and clauses
* `Solver.Builds`: the computation gives a literal with a value, and defines all that it adds
-/

namespace BoolTensor

namespace Solver

open LiteralForm SignedForm

theorem formula_eq (s : Solver Literal) : s.formula = s.clauses.toList := by
  simp [formula, literal]

/-! ### Growth -/

/-- The solver with variables up to `n` and with further clauses. -/
def grown (s : Solver Literal) (n : Nat) (clauses : Formula) : Solver Literal :=
  { s with variableCount := n, clauses := s.clauses ++ clauses.toArray }

section Grown

variable (s : Solver Literal) (n m : Nat) (clauses more : Formula)

@[simp]
theorem variableCount_grown : (s.grown n clauses).variableCount = n := rfl

@[simp]
theorem submitted_grown : (s.grown n clauses).submitted = s.submitted := rfl

@[simp]
theorem model_grown : (s.grown n clauses).model = s.model := rfl

@[simp]
theorem formula_grown : (s.grown n clauses).formula = s.formula ++ clauses := by
  simp [formula_eq, grown]

@[simp]
theorem grown_grown : (s.grown n clauses).grown m more = s.grown m (clauses ++ more) := by
  simp [grown]

@[simp]
theorem grown_self : s.grown s.variableCount [] = s := by
  simp [grown]

end Grown

/-! ### Building literals -/

/-- Run from `s`, the computation gives an allocated literal and adds clauses that define the
variables it allocates; where these clauses hold and variable 1 is true, the literal has the
value `f`. -/
def Builds (s : Solver Literal) (x : SolverM Literal Literal) (f : Assignment → Bool) : Prop :=
  ∃ (l : Literal) (n : Nat) (clauses : Formula), x.run s = (l, s.grown n clauses) ∧
    Formula.Defines clauses s.variableCount [] n ∧ l.isAllocated n = true ∧
    ∀ σ : Assignment, σ 1 = true → clauses.holds σ = true → Literal.holds σ l = f σ

namespace Builds

variable {s : Solver Literal} {x : SolverM Literal Literal} {f g : Assignment → Bool}

/-- The value matters only where variable 1 is true. -/
theorem congr (h : s.Builds x f) (hfg : ∀ σ : Assignment, σ 1 = true → f σ = g σ) :
    s.Builds x g := by
  obtain ⟨l, n, clauses, hrun, hdefines, halloc, hvalue⟩ := h
  exact ⟨l, n, clauses, hrun, hdefines, halloc,
    fun σ hσ hclauses => (hvalue σ hσ hclauses).trans (hfg σ hσ)⟩

/-- A literal that is there already is built by nothing. -/
theorem pure {l : Literal} (hl : l.isAllocated s.variableCount = true)
    (hf : ∀ σ : Assignment, σ 1 = true → Literal.holds σ l = f σ) :
    s.Builds (Pure.pure l) f :=
  ⟨l, s.variableCount, [], by rw [grown_self]; rfl, .nil _, hl, fun σ hσ _ => hf σ hσ⟩

/-- The next variable is built by clauses that give it its value. -/
theorem introduce {clauses : Literal → Formula}
    (hclauses : ∀ d : Literal, d.isAllocated (s.variableCount + 1) = true →
      (clauses d).Allocated (s.variableCount + 1))
    (hf : ∀ σ τ : Assignment, σ.AgreeUpTo s.variableCount τ → f σ = f τ)
    (h : ∀ (σ : Assignment) (d : Literal), d ≠ 0 →
      ((clauses d).holds σ = true ↔ Literal.holds σ d = f σ)) :
    s.Builds (Solver.introduce fun d => Pure.pure (clauses d)) f := by
  have hd := Literal.isAllocated_succ (n := s.variableCount)
  have hvalue := fun σ => h σ _ (Literal.ne_zero_of_isAllocated hd)
  refine ⟨_, _, _, rfl, .of_iff f (hclauses _ hd) hf fun σ => ?_, hd, fun σ _ hσ => ?_⟩
  · rw [← Literal.holds_natCast σ (s.variableCount + 1)]
    exact hvalue σ
  · exact (hvalue σ).1 hσ

/-- The next variable is built on operands: its clauses name only these and itself, up to signs, so
that its truth table is all there is to check. -/
theorem introduce_on (operands : List Literal) {clauses : Literal → Formula}
    (hoperands : ∀ a ∈ operands, a.isAllocated s.variableCount = true)
    (hclauses : ∀ d : Literal, ∀ clause ∈ clauses d, ∀ l ∈ clause, ∃ a ∈ d :: operands,
      l = a ∨ l = -a)
    (hf : ∀ σ τ : Assignment, (∀ a ∈ operands, Literal.holds σ a = Literal.holds τ a) → f σ = f τ)
    (h : ∀ (σ : Assignment) (d : Literal),
      (∀ a ∈ d :: operands, Literal.holds σ (-a) = !Literal.holds σ a) →
      ((clauses d).holds σ = true ↔ Literal.holds σ d = f σ)) :
    s.Builds (Solver.introduce fun d => Pure.pure (clauses d)) f := by
  refine introduce (fun d hd clause hclause l hl => ?_)
    (fun σ τ hagree => hf σ τ fun a ha => hagree.holds_literal (hoperands a ha))
    fun σ d hd0 => h σ d fun a ha => Literal.holds_neg σ ?_
  · have hallocated : ∀ a ∈ d :: operands, a.isAllocated (s.variableCount + 1) = true :=
      List.forall_mem_cons.2
        ⟨hd, fun a ha => Literal.isAllocated_mono (hoperands a ha) s.variableCount.le_succ⟩
    obtain ⟨a, ha, rfl | rfl⟩ := hclauses d clause hclause l hl
    · exact hallocated l ha
    · rw [Literal.isAllocated_neg]
      exact hallocated a ha
  · rcases List.mem_cons.1 ha with rfl | ha
    · exact hd0
    · exact Literal.ne_zero_of_isAllocated (hoperands a ha)

/-- What is computed from a literal that was built is built as well. -/
theorem bind {k : Literal → SolverM Literal Literal} {g : Assignment → Bool → Bool}
    (h : s.Builds x f)
    (hk : ∀ (l : Literal) (t : Solver Literal), s.variableCount ≤ t.variableCount →
      l.isAllocated t.variableCount = true → t.Builds (k l) fun σ => g σ (Literal.holds σ l)) :
    s.Builds (x >>= k) fun σ => g σ (f σ) := by
  obtain ⟨l, n, clauses, hrun, hdefines, halloc, hvalue⟩ := h
  obtain ⟨l', m, more, hrun', hdefines', halloc', hvalue'⟩ :=
    hk l (s.grown n clauses) hdefines.le halloc
  refine ⟨l', m, clauses ++ more, ?_, hdefines.append hdefines', halloc', ?_⟩
  · rw [StateT.run_bind, hrun, ← grown_grown]
    exact hrun'
  · intro σ hσ hclauses
    rw [Formula.holds_append] at hclauses
    rw [hvalue' σ hσ hclauses.2]
    exact congrArg (g σ) (hvalue σ hσ hclauses.1)

theorem neg (h : s.Builds x f) :
    s.Builds (x >>= negated) fun σ => !f σ :=
  h.bind (g := fun _ value => !value) fun l t _ hl =>
    .pure (by rwa [Literal.isAllocated_neg]) fun σ _ =>
      Literal.holds_neg σ (Literal.isAllocated_iff.1 hl).1

end Builds

/-! ### Gates on two literals -/

section Equations

variable (a b c : Literal)

theorem or_eq :
    (or a b : SolverM Literal Literal) =
      if a = 1 ∨ b = 1 ∨ a = -b then pure 1
      else if a = -1 ∨ a = b then pure b
      else if b = -1 then pure a
      else introduce fun d => pure [[-a, d], [-b, d], [a, b, -d]] := by
  unfold or
  simp only [same, lift, top, bottom, ofLiteral, negated, id, if_true, Bool.false_eq_true, if_false,
    Bool.or_eq_true, beq_iff_eq, pure_bind]
  split_ifs <;> simp_all

theorem xor_eq :
    (xor a b : SolverM Literal Literal) =
      if a = -1 then pure b
      else if a = 1 then pure (-b)
      else if b = -1 then pure a
      else if b = 1 then pure (-a)
      else if a = b then pure (-1)
      else if a = -b then pure 1
      else introduce fun d => pure [[-a, -b, -d], [a, b, -d], [a, -b, d], [-a, b, d]] := by
  unfold xor
  simp only [same, lift, top, bottom, ofLiteral, negated, id, if_true, Bool.false_eq_true, if_false,
    beq_iff_eq, pure_bind]

/-- What `majRelated?` finds, as a value. -/
def related? : Literal × Literal × Literal → Option Literal
  | (a, b, c) => if a = b then some a else if a = -b then some c else none

/-- What `parityFolds` finds, as a value. -/
def folds : Literal × Literal × Literal → Bool
  | (a, b, _) => a == 1 || a == -1 || a.natAbs == b.natAbs

/-- The majority of literals: related arguments are looked for first, then constant ones. -/
theorem maj_eq :
    (maj a b c : SolverM Literal Literal) =
      match (rotations a b c).findSome? related? with
      | some l => pure l
      | none =>
        match (rotations a b c).findSome? majConstant? with
        | some gate => gate
        | none => introduce fun d => pure [[-a, -b, d], [-a, -c, d], [-b, -c, d],
            [a, b, -d], [a, c, -d], [b, c, -d]] := by
  have hrelated : (majRelated? : _ → SolverM Literal (Option Literal)) =
      fun triple => pure (related? triple) := by
    funext ⟨x, y, z⟩
    simp only [majRelated?, related?, same, negated, beq_iff_eq, pure_bind]
    split_ifs <;> rfl
  have hclauses : (majClauses a b c : Literal → SolverM Literal Formula) = fun d => pure
      [[-a, -b, d], [-a, -c, d], [-b, -c, d], [a, b, -d], [a, c, -d], [b, c, -d]] := rfl
  rw [maj, hrelated, List.findSomeM?_pure, pure_bind, hclauses]
  cases (rotations a b c).findSome? related? with
  | some l => rfl
  | none =>
    cases (rotations a b c).findSome? (majConstant? : _ → Option (SolverM Literal Literal)) <;> rfl

/-- The parity of literals: it folds where an argument is constant or two are related. -/
theorem sum3_eq :
    (sum3 a b c : SolverM Literal Literal) =
      match (rotations a b c).find? folds with
      | some (x, y, z) => xor x y >>= fun l => xor l z
      | none => introduce fun d => pure [[-a, -b, -c, d], [-a, b, c, d], [a, -b, c, d],
          [a, b, -c, d], [a, b, c, -d], [a, -b, -c, -d], [-a, b, -c, -d], [-a, -b, c, -d]] := by
  have hfolds : (parityFolds : _ → SolverM Literal Bool) = fun triple => pure (folds triple) := by
    funext ⟨x, y, z⟩
    simp only [parityFolds, folds, same, lift, top, bottom, ofLiteral, sameVariable, id, if_true,
      Bool.false_eq_true, if_false]
    split_ifs with h
    · simp [h]
    · simp [h]
  have hclauses : (parityClauses a b c : Literal → SolverM Literal Formula) = fun d => pure
      [[-a, -b, -c, d], [-a, b, c, d], [a, -b, c, d], [a, b, -c, d], [a, b, c, -d],
        [a, -b, -c, -d], [-a, b, -c, -d], [-a, -b, c, -d]] := rfl
  rw [sum3, hfolds, List.findM?_pure, pure_bind, hclauses]
  cases (rotations a b c).find? folds <;> rfl

end Equations

/-! ### What the tests leave -/

section Tests

variable {x y z : Literal}

theorem related?_eq_none_iff : related? (x, y, z) = none ↔ x ≠ y ∧ x ≠ -y := by
  simp only [related?]
  split_ifs with heq hneg <;> simp [*]

theorem majConstant?_eq_none_iff :
    (majConstant? (x, y, z) : Option (SolverM Literal Literal)) = none ↔ x ≠ 1 ∧ x ≠ -1 := by
  simp only [majConstant?, same, lift, top, bottom, ofLiteral, id, if_true,
    Bool.false_eq_true, if_false, beq_iff_eq]
  split_ifs with htop hbottom <;> simp [*]

theorem folds_eq_false_iff :
    folds (x, y, z) = false ↔ (x ≠ 1 ∧ x ≠ -1) ∧ x ≠ y ∧ x ≠ -y := by
  simp [folds, Int.natAbs_eq_natAbs_iff]

end Tests

/-! ### What gates are made of -/

/-- A gate on two literals gives one of the literals that are there, a variable that it defines, or
the negation of such a result. -/
theorem of_gate {P : SolverM Literal Literal → Prop} (hpure : ∀ l, P (pure l))
    (hintroduce : ∀ clauses : Literal → Formula, P (introduce fun d => pure (clauses d)))
    (hneg : ∀ x, P x → P (x >>= negated)) (g : Gate) (a b : Literal) : P (gate g a b) := by
  have hor (a b : Literal) : P (or a b) := by
    rw [or_eq]
    split_ifs
    · exact hpure 1
    · exact hpure b
    · exact hpure a
    · exact hintroduce _
  have hxor : P (xor a b) := by
    rw [xor_eq]
    split_ifs
    · exact hpure b
    · exact hpure (-b)
    · exact hpure a
    · exact hpure (-a)
    · exact hpure (-1)
    · exact hpure 1
    · exact hintroduce _
  cases g with
  | or => exact hor a b
  | and => exact hneg _ (hor (-a) (-b))
  | xor => exact hxor
  | equ => exact hneg _ hxor
  | imp => exact hor (-a) b

/-! ### Specifications -/

section Gates

variable {s : Solver Literal} {a b c : Literal}

theorem builds_or (ha : a.isAllocated s.variableCount = true)
    (hb : b.isAllocated s.variableCount = true) :
    s.Builds (or a b) fun σ => Literal.holds σ a || Literal.holds σ b := by
  have hb0 := Literal.ne_zero_of_isAllocated hb
  rw [or_eq]
  -- The result is true, the second operand, the first one, or a variable that is defined.
  split_ifs with htop hleft hright
  · refine .pure (Literal.isAllocated_one ha) fun σ hσ => ?_
    rcases htop with rfl | rfl | rfl
    · simp [hσ]
    · simp [hσ]
    · simp [hσ, Literal.holds_neg σ hb0]
  · refine .pure hb fun σ hσ => ?_
    rcases hleft with rfl | rfl
    · simp [hσ, Literal.holds_neg]
    · simp
  · refine .pure ha fun σ hσ => ?_
    simp [hright, hσ, Literal.holds_neg]
  · refine .introduce_on [a, b] (by simp [ha, hb]) (fun d => by simp) (fun σ τ hagree => ?_)
      fun σ d hneg => ?_
    · rw [hagree a (by simp), hagree b (by simp)]
    · simp only [Formula.holds_cons, Formula.holds_nil, Clause.holds_cons, Clause.holds_nil,
        hneg a (by simp), hneg b (by simp), hneg d (by simp)]
      cases Literal.holds σ a <;> cases Literal.holds σ b <;> cases Literal.holds σ d <;> decide

theorem builds_and (ha : a.isAllocated s.variableCount = true)
    (hb : b.isAllocated s.variableCount = true) :
    s.Builds (and a b) fun σ => Literal.holds σ a && Literal.holds σ b := by
  have hor := builds_or (s := s) (a := -a) (b := -b) (by simpa using ha) (by simpa using hb)
  refine hor.neg.congr fun σ _ => ?_
  rw [Literal.holds_neg σ (Literal.ne_zero_of_isAllocated ha),
    Literal.holds_neg σ (Literal.ne_zero_of_isAllocated hb), Bool.not_or, Bool.not_not,
    Bool.not_not]

theorem builds_imp (ha : a.isAllocated s.variableCount = true)
    (hb : b.isAllocated s.variableCount = true) :
    s.Builds (imp a b) fun σ => !Literal.holds σ a || Literal.holds σ b := by
  have hor := builds_or (s := s) (a := -a) (by simpa using ha) hb
  refine hor.congr fun σ _ => ?_
  rw [Literal.holds_neg σ (Literal.ne_zero_of_isAllocated ha)]

theorem builds_xor (ha : a.isAllocated s.variableCount = true)
    (hb : b.isAllocated s.variableCount = true) :
    s.Builds (xor a b) fun σ => Literal.holds σ a != Literal.holds σ b := by
  have ha0 := Literal.ne_zero_of_isAllocated ha
  have hb0 := Literal.ne_zero_of_isAllocated hb
  have hone := Literal.isAllocated_one ha
  rw [xor_eq]
  split_ifs with h1 h2 h3 h4 h5 h6
  · exact .pure hb fun σ hσ => by simp [h1, hσ, Literal.holds_neg]
  · exact .pure (by simpa using hb) fun σ hσ => by simp [h2, hσ, Literal.holds_neg σ hb0]
  · exact .pure ha fun σ hσ => by simp [h3, hσ, Literal.holds_neg]
  · exact .pure (by simpa using ha) fun σ hσ => by simp [h4, hσ, Literal.holds_neg σ ha0]
  · exact .pure (by simpa using hone) fun σ hσ => by simp [h5, hσ, Literal.holds_neg]
  · exact .pure hone fun σ hσ => by simp [h6, hσ, Literal.holds_neg σ hb0]
  · refine .introduce_on [a, b] (by simp [ha, hb]) (fun d => by simp) (fun σ τ hagree => ?_)
      fun σ d hneg => ?_
    · rw [hagree a (by simp), hagree b (by simp)]
    · simp only [Formula.holds_cons, Formula.holds_nil, Clause.holds_cons, Clause.holds_nil,
        hneg a (by simp), hneg b (by simp), hneg d (by simp)]
      cases Literal.holds σ a <;> cases Literal.holds σ b <;> cases Literal.holds σ d <;> decide

theorem builds_equ (ha : a.isAllocated s.variableCount = true)
    (hb : b.isAllocated s.variableCount = true) :
    s.Builds (equ a b) fun σ => Literal.holds σ a == Literal.holds σ b :=
  (builds_xor ha hb).neg.congr fun σ _ => by
    cases Literal.holds σ a <;> cases Literal.holds σ b <;> rfl

theorem builds_gate (g : Gate) (ha : a.isAllocated s.variableCount = true)
    (hb : b.isAllocated s.variableCount = true) :
    s.Builds (gate g a b) fun σ => g.eval (Literal.holds σ a) (Literal.holds σ b) := by
  cases g with
  | or => exact builds_or ha hb
  | and => exact builds_and ha hb
  | xor => exact builds_xor ha hb
  | equ => exact builds_equ ha hb
  | imp => exact builds_imp ha hb

/-! ### Gates on three literals -/

section Rotations

variable {x y z : Literal}

/-- What holds of three arguments holds of their rotations, if turning them round keeps it. -/
theorem of_mem_rotations {P : Literal → Literal → Literal → Prop} (hmem : (x, y, z) ∈ rotations a b c)
    (hP : ∀ a b c, P a b c → P b c a) (h : P a b c) : P x y z := by
  simp only [rotations, List.mem_cons, Prod.mk.injEq, List.not_mem_nil, or_false] at hmem
  rcases hmem with ⟨rfl, rfl, rfl⟩ | ⟨rfl, rfl, rfl⟩ | ⟨rfl, rfl, rfl⟩
  · exact h
  · exact hP _ _ _ h
  · exact hP _ _ _ (hP _ _ _ h)

theorem isAllocated_of_mem_rotations {n : Nat} (hmem : (x, y, z) ∈ rotations a b c)
    (ha : a.isAllocated n = true) (hb : b.isAllocated n = true) (hc : c.isAllocated n = true) :
    x.isAllocated n = true ∧ y.isAllocated n = true ∧ z.isAllocated n = true :=
  of_mem_rotations (P := fun a b c => a.isAllocated n = true ∧ b.isAllocated n = true ∧
    c.isAllocated n = true) hmem (fun _ _ _ h => ⟨h.2.1, h.2.2, h.1⟩) ⟨ha, hb, hc⟩

/-- A function of three truth values that turning round keeps has the same value on rotations. -/
theorem eq_of_mem_rotations (σ : Assignment) {f : Bool → Bool → Bool → Bool}
    (hf : ∀ a b c, f b c a = f a b c) (hmem : (x, y, z) ∈ rotations a b c) :
    f (Literal.holds σ x) (Literal.holds σ y) (Literal.holds σ z) =
      f (Literal.holds σ a) (Literal.holds σ b) (Literal.holds σ c) :=
  of_mem_rotations (P := fun x y z =>
    f (Literal.holds σ x) (Literal.holds σ y) (Literal.holds σ z) = _) hmem
    (fun _ _ _ h => (hf _ _ _).trans h) rfl

theorem atLeastTwo_of_mem_rotations (σ : Assignment) (hmem : (x, y, z) ∈ rotations a b c) :
    Bool.atLeastTwo (Literal.holds σ x) (Literal.holds σ y) (Literal.holds σ z) =
      Bool.atLeastTwo (Literal.holds σ a) (Literal.holds σ b) (Literal.holds σ c) :=
  eq_of_mem_rotations σ (by decide) hmem

theorem bne_of_mem_rotations (σ : Assignment) (hmem : (x, y, z) ∈ rotations a b c) :
    ((Literal.holds σ x != Literal.holds σ y) != Literal.holds σ z) =
      ((Literal.holds σ a != Literal.holds σ b) != Literal.holds σ c) :=
  eq_of_mem_rotations σ (f := fun a b c => (a != b) != c) (by decide) hmem

end Rotations

/-- Two equal arguments decide, and two opposite ones leave it to the third. -/
theorem builds_related {l : Literal} (hl : related? (a, b, c) = some l)
    (ha : a.isAllocated s.variableCount = true) (hb : b.isAllocated s.variableCount = true)
    (hc : c.isAllocated s.variableCount = true) :
    s.Builds (pure l) fun σ =>
      Bool.atLeastTwo (Literal.holds σ a) (Literal.holds σ b) (Literal.holds σ c) := by
  simp only [related?] at hl
  split_ifs at hl with heq hneg
  · cases hl
    refine .pure ha fun σ _ => ?_
    rw [heq]
    cases Literal.holds σ b <;> simp
  · cases hl
    refine .pure hc fun σ _ => ?_
    rw [hneg, Literal.holds_neg σ (Literal.ne_zero_of_isAllocated hb)]
    cases Literal.holds σ b <;> simp

/-- With a constant argument the majority is a gate on the two others. -/
theorem builds_majConstant {gate : SolverM Literal Literal}
    (hgate : majConstant? (a, b, c) = some gate)
    (hb : b.isAllocated s.variableCount = true) (hc : c.isAllocated s.variableCount = true) :
    s.Builds gate fun σ =>
      Bool.atLeastTwo (Literal.holds σ a) (Literal.holds σ b) (Literal.holds σ c) := by
  simp only [majConstant?, same, lift, top, bottom, ofLiteral, id, if_true, Bool.false_eq_true,
    if_false, beq_iff_eq] at hgate
  split_ifs at hgate with htop hbottom
  · cases hgate
    exact (builds_or hb hc).congr fun σ hσ => by simp [htop, hσ]
  · cases hgate
    exact (builds_and hb hc).congr fun σ hσ => by simp [hbottom, hσ, Literal.holds_neg]

theorem builds_maj (ha : a.isAllocated s.variableCount = true)
    (hb : b.isAllocated s.variableCount = true) (hc : c.isAllocated s.variableCount = true) :
    s.Builds (maj a b c) fun σ =>
      Bool.atLeastTwo (Literal.holds σ a) (Literal.holds σ b) (Literal.holds σ c) := by
  rw [maj_eq]
  split
  · rename_i l hfound
    obtain ⟨⟨x, y, z⟩, hmem, hrelated⟩ := List.exists_of_findSome?_eq_some hfound
    obtain ⟨hx, hy, hz⟩ := isAllocated_of_mem_rotations hmem ha hb hc
    exact (builds_related hrelated hx hy hz).congr fun σ _ => atLeastTwo_of_mem_rotations σ hmem
  · split
    · rename_i gate hfound
      obtain ⟨⟨x, y, z⟩, hmem, hconstant⟩ := List.exists_of_findSome?_eq_some hfound
      obtain ⟨-, hy, hz⟩ := isAllocated_of_mem_rotations hmem ha hb hc
      exact (builds_majConstant hconstant hy hz).congr fun σ _ => atLeastTwo_of_mem_rotations σ hmem
    · -- Nothing folds, so that a variable is defined by the six clauses.
      refine .introduce_on [a, b, c] (by simp [ha, hb, hc]) (fun d => by simp)
        (fun σ τ hagree => ?_) fun σ d hneg => ?_
      · rw [hagree a (by simp), hagree b (by simp), hagree c (by simp)]
      · simp only [Formula.holds_cons, Formula.holds_nil, Clause.holds_cons, Clause.holds_nil,
          hneg a (by simp), hneg b (by simp), hneg c (by simp), hneg d (by simp)]
        cases Literal.holds σ a <;> cases Literal.holds σ b <;> cases Literal.holds σ c <;>
          cases Literal.holds σ d <;> decide

/-- Two gates on two literals build the parity of three. -/
theorem builds_xor_xor (ha : a.isAllocated s.variableCount = true)
    (hb : b.isAllocated s.variableCount = true) (hc : c.isAllocated s.variableCount = true) :
    s.Builds (xor a b >>= fun l => xor l c) fun σ =>
      ((Literal.holds σ a != Literal.holds σ b) != Literal.holds σ c) :=
  (builds_xor ha hb).bind (g := fun σ value => value != Literal.holds σ c)
    fun _ _ hle hl => builds_xor hl (Literal.isAllocated_mono hc hle)

theorem builds_sum3 (ha : a.isAllocated s.variableCount = true)
    (hb : b.isAllocated s.variableCount = true) (hc : c.isAllocated s.variableCount = true) :
    s.Builds (sum3 a b c) fun σ =>
      ((Literal.holds σ a != Literal.holds σ b) != Literal.holds σ c) := by
  rw [sum3_eq]
  split
  · rename_i x y z hfound
    have hmem : (x, y, z) ∈ rotations a b c := List.mem_of_find?_eq_some hfound
    obtain ⟨hx, hy, hz⟩ := isAllocated_of_mem_rotations hmem ha hb hc
    exact (builds_xor_xor hx hy hz).congr fun σ _ => bne_of_mem_rotations σ hmem
  · -- Nothing folds, so that a variable is defined by the eight clauses.
    refine .introduce_on [a, b, c] (by simp [ha, hb, hc]) (fun d => by simp)
      (fun σ τ hagree => ?_) fun σ d hneg => ?_
    · rw [hagree a (by simp), hagree b (by simp), hagree c (by simp)]
    · simp only [Formula.holds_cons, Formula.holds_nil, Clause.holds_cons, Clause.holds_nil,
        hneg a (by simp), hneg b (by simp), hneg c (by simp), hneg d (by simp)]
      cases Literal.holds σ a <;> cases Literal.holds σ b <;> cases Literal.holds σ c <;>
        cases Literal.holds σ d <;> decide

/-! ### Constants and lists -/

theorem builds_lift (value : Bool) (hs : 1 ≤ s.variableCount) :
    s.Builds (pure (lift value)) fun _ => value := by
  have hone : Literal.isAllocated s.variableCount 1 = true :=
    Literal.isAllocated_mono (n := 1) rfl hs
  cases value with
  | true => exact .pure hone fun σ hσ => by simpa [lift, top, ofLiteral] using hσ
  | false =>
    refine .pure (by simpa [lift, bottom, ofLiteral] using hone) fun σ hσ => ?_
    simp [lift, bottom, ofLiteral, Literal.holds_neg, hσ]

/-- A gate that is applied along a list of allocated literals builds its value along the list. -/
theorem builds_foldlM (g : Gate) {x : SolverM Literal Literal} {f : Assignment → Bool}
    (hx : s.Builds x f) (elems : List Literal)
    (helems : ∀ l ∈ elems, l.isAllocated s.variableCount = true) :
    s.Builds (x >>= fun start => elems.foldlM (gate g) start) fun σ =>
      (elems.map (Literal.holds σ)).foldl g.eval (f σ) := by
  induction elems generalizing x f with
  | nil => simpa using hx
  | cons a elems ih =>
    have ha := helems a (by simp)
    have hstep : s.Builds (x >>= fun start => gate g start a) fun σ =>
        g.eval (f σ) (Literal.holds σ a) :=
      hx.bind (g := fun σ value => g.eval value (Literal.holds σ a)) fun l t hle hl =>
        builds_gate g hl (Literal.isAllocated_mono ha hle)
    have htail := ih hstep fun l hl => helems l (by simp [hl])
    simpa only [List.foldlM_cons, List.map_cons, List.foldl_cons, bind_assoc] using htail

theorem builds_reduce (reduction : Reduction) (elems : Thunk (List Literal))
    (hs : 1 ≤ s.variableCount)
    (helems : ∀ l ∈ elems.get, l.isAllocated s.variableCount = true) :
    s.Builds (BoolAlgebra.reduceBy (fun value => pure (lift value)) gate reduction elems) fun σ =>
      reduction.eval (elems.get.map (Literal.holds σ)) := by
  rw [BoolAlgebra.reduceBy_eq]
  have hfold := builds_foldlM reduction.gate (builds_lift (reduction.eval []) hs) elems.get helems
  refine hfold.congr fun σ _ => ?_
  rw [Reduction.foldl_gate, List.nil_append]

end Gates

end Solver

end BoolTensor
