import BoolTensor.Proofs.Solver.Constants
import BoolTensor.Proofs.Solver.Constraints

/-!
# What gates cost

How many variables and clauses a gate adds to a solver depends on its operands: gates fold where one
of these is a constant or where two belong to the same variable. On literals of different variables
each gate takes one variable and a fixed number of clauses, and its result is of a new variable
again. So a gate along a list of such literals has an exact cost.

## Main definitions

* `Solver.Gained`: the later solver has so many further variables and clauses
* `Solver.Adds`: computations that add the same numbers to all solvers with so many variables
* `Solver.Independent`: literals of different variables, none of them constant
* `Gate.clauseCount`: the clauses that define the result of a gate
-/

namespace BoolTensor

/-- The clauses that define the result of a gate on two literals. -/
def Gate.clauseCount : Gate → Nat
  | or => 3
  | and => 3
  | xor => 4
  | equ => 4
  | imp => 3

namespace Solver

/-! ### Counting -/

/-- The later solver has so many further variables and clauses, and is the same otherwise. -/
def Gained (s : Solver Literal) (vars rows : Nat) (t : Solver Literal) : Prop :=
  ∃ added : Formula, added.length = rows ∧ t = s.grown (s.variableCount + vars) added

namespace Gained

variable {s t u : Solver Literal} {vars rows vars' rows' : Nat}

theorem refl (s : Solver Literal) : s.Gained 0 0 s :=
  ⟨[], rfl, s.grown_self.symm⟩

theorem variableCount_eq (h : s.Gained vars rows t) :
    t.variableCount = s.variableCount + vars := by
  obtain ⟨added, -, rfl⟩ := h
  rfl

theorem size_clauses (h : s.Gained vars rows t) :
    t.clauses.size = s.clauses.size + rows := by
  obtain ⟨added, rfl, rfl⟩ := h
  simp [grown]

theorem trans (h : s.Gained vars rows t) (h' : t.Gained vars' rows' u) :
    s.Gained (vars + vars') (rows + rows') u := by
  obtain ⟨added, rfl, rfl⟩ := h
  obtain ⟨more, rfl, rfl⟩ := h'
  refine ⟨added ++ more, List.length_append, ?_⟩
  rw [grown_grown, variableCount_grown, Nat.add_assoc]

end Gained

/-- On a solver with `k` variables the computation adds so many variables and clauses, and gives
what satisfies `P`. -/
def Adds {β : Type} (k : Nat) (x : SolverM Literal β) (vars rows : Nat) (P : β → Prop) :
    Prop :=
  ∀ s : Solver Literal, s.variableCount = k →
    s.Gained vars rows (x.run s).2 ∧ P (x.run s).1

variable {k vars rows vars' rows' : Nat} {β γ : Type} {P P' : β → Prop}
  {Q : γ → Prop}

namespace Adds

theorem pure {b : β} (h : P b) : Adds k (Pure.pure b) 0 0 P :=
  fun s _ => ⟨.refl s, h⟩

theorem bind {x : SolverM Literal β} {f : β → SolverM Literal γ} (hx : Adds k x vars rows P)
    (hf : ∀ b, P b → Adds (k + vars) (f b) vars' rows' Q) :
    Adds k (x >>= f) (vars + vars') (rows + rows') Q := by
  rintro s rfl
  obtain ⟨hgained, hb⟩ := hx s rfl
  obtain ⟨hgained', hc⟩ := hf _ hb _ hgained.variableCount_eq
  exact ⟨hgained.trans hgained', hc⟩

/-- What costs nothing may come first. -/
theorem free_bind {x : SolverM Literal β} {f : β → SolverM Literal γ} (hx : Adds k x 0 0 P)
    (hf : ∀ b, P b → Adds k (f b) vars rows Q) : Adds k (x >>= f) vars rows Q := by
  have h := hx.bind hf
  rwa [Nat.zero_add, Nat.zero_add] at h

theorem imp {x : SolverM Literal β} (h : Adds k x vars rows P) (himp : ∀ b, P b → P' b) :
    Adds k x vars rows P' :=
  fun s hs => ⟨(h s hs).1, himp _ (h s hs).2⟩

theorem neg {x : SolverM Literal Literal} {n : Nat}
    (h : Adds k x vars rows fun l => l.natAbs = n) :
    Adds k (x >>= SignedForm.negated) vars rows fun l => l.natAbs = n :=
  h.bind fun l hl => .pure ((Int.natAbs_neg l).trans hl)

/-- Computations that add nothing, one after the other. -/
theorem mapM {R : γ → β → Prop} {f : γ → SolverM Literal β} {items : List γ}
    (h : ∀ item ∈ items, Adds k (f item) 0 0 (R item)) :
    Adds k (items.mapM f) 0 0 (List.Forall₂ R items) := by
  induction items with
  | nil => exact pure .nil
  | cons item items ih =>
    rw [List.forall_mem_cons] at h
    rw [List.mapM_cons]
    exact h.1.bind fun b hb => (ih h.2).bind fun bs hbs => pure (.cons hb hbs)

/-- The next variable is defined by so many clauses. -/
theorem introduce {definition : Literal → Formula} (h : ∀ d, (definition d).length = rows) :
    Adds k (Solver.introduce fun d => Pure.pure (definition d)) 1 rows
      fun l => l.natAbs = k + 1 := by
  rintro s rfl
  exact ⟨⟨definition ((s.variableCount + 1 : Nat) : Int), h _, rfl⟩, Int.natAbs_natCast _⟩

end Adds

/-! ### Literals of different variables -/

theorem natAbs_lift (value : Bool) : (lift value : Literal).natAbs = 1 := by
  cases value <;> rfl

theorem ne_of_one_lt {a : Literal} (ha : 1 < a.natAbs) : a ≠ 1 ∧ a ≠ -1 := by
  constructor <;> (rintro rfl; exact absurd ha (by decide))

theorem ne_of_natAbs_ne {a b : Literal} (h : a.natAbs ≠ b.natAbs) : a ≠ b ∧ a ≠ -b := by
  constructor
  · rintro rfl
    exact h rfl
  · rintro rfl
    exact h (Int.natAbs_neg b)

/-- The literals are of different variables, among the first `k` and none of them constant. -/
structure Independent (k : Nat) (literals : List Literal) : Prop where
  distinct : (literals.map Int.natAbs).Nodup
  bounds : ∀ l ∈ literals, 1 < l.natAbs ∧ l.natAbs ≤ k

namespace Independent

variable {n : Nat} {a b c l : Literal} {literals others : List Literal}

theorem nil (k : Nat) : Independent k [] :=
  ⟨List.nodup_nil, by simp⟩

theorem mono (h : Independent k literals) (hle : k ≤ n) : Independent n literals :=
  ⟨h.distinct, fun l hl => ⟨(h.bounds l hl).1, (h.bounds l hl).2.trans hle⟩⟩

theorem sublist (h : Independent k literals) (hsub : others.Sublist literals) :
    Independent k others :=
  ⟨h.distinct.sublist (hsub.map _), fun l hl => h.bounds l (hsub.mem hl)⟩

theorem perm (h : Independent k literals) (hperm : literals.Perm others) : Independent k others :=
  ⟨(hperm.map _).nodup h.distinct, fun l hl => h.bounds l (hperm.mem_iff.2 hl)⟩

/-- Only the variables matter. -/
theorem of_map_eq (h : Independent k literals)
    (hmap : literals.map Int.natAbs = others.map Int.natAbs) : Independent k others := by
  refine ⟨hmap ▸ h.distinct, fun l hl => ?_⟩
  obtain ⟨l', hl', heq⟩ := List.mem_map.1 (hmap.symm ▸ List.mem_map_of_mem hl)
  exact heq ▸ h.bounds l' hl'

theorem congr (h : Independent k literals)
    (hsame : List.Forall₂ (fun a b => a.natAbs = b.natAbs) literals others) :
    Independent k others :=
  h.of_map_eq (List.forall₂_eq_eq_eq ▸
    List.forall₂_map_left_iff.2 (List.forall₂_map_right_iff.2 hsame))

/-- A literal of a later variable may be added. -/
theorem cons (h : Independent k literals) (hpos : 1 ≤ k) (hl : k < l.natAbs) (hn : l.natAbs ≤ n) :
    Independent n (l :: literals) := by
  constructor
  · refine List.nodup_cons.2 ⟨fun hmem => ?_, h.distinct⟩
    obtain ⟨l', hl', heq⟩ := List.mem_map.1 hmem
    have hle := (h.bounds l' hl').2
    omega
  · refine List.forall_mem_cons.2 ⟨⟨by omega, hn⟩, ?_⟩
    exact (h.mono (hl.le.trans hn)).bounds

theorem concat (h : Independent k literals) (hpos : 1 ≤ k) (hl : k < l.natAbs)
    (hn : l.natAbs ≤ n) : Independent n (literals ++ [l]) :=
  (h.cons hpos hl hn).perm (List.perm_append_singleton l literals).symm

/-- The result of a gate takes the place of its operands. -/
theorem replace (h : Independent k (a :: literals)) (hl : k < l.natAbs) (hn : l.natAbs ≤ n)
    (hsub : others.Sublist literals) : Independent n (l :: others) := by
  have ha := h.bounds a List.mem_cons_self
  exact (h.sublist (hsub.trans (List.sublist_cons_self _ _))).cons (by omega) hl hn

theorem pair (h : Independent k [a, b]) :
    1 < a.natAbs ∧ 1 < b.natAbs ∧ a.natAbs ≠ b.natAbs := by
  refine ⟨(h.bounds a (by simp)).1, (h.bounds b (by simp)).1, ?_⟩
  simpa using h.distinct

theorem triple (h : Independent k [a, b, c]) : (1 < a.natAbs ∧ 1 < b.natAbs ∧ 1 < c.natAbs) ∧
    a.natAbs ≠ b.natAbs ∧ b.natAbs ≠ c.natAbs ∧ c.natAbs ≠ a.natAbs := by
  have hab : Independent k [a, b] := h.sublist (by simp)
  have hbc : Independent k [b, c] := h.sublist (by simp)
  have hac : Independent k [a, c] := h.sublist (by simp)
  exact ⟨⟨hab.pair.1, hbc.pair.1, hbc.pair.2.1⟩, hab.pair.2.2, hbc.pair.2.2, hac.pair.2.2.symm⟩

theorem neg_left (h : Independent k (a :: literals)) : Independent k (-a :: literals) :=
  h.congr (.cons (Int.natAbs_neg a).symm (List.forall₂_same.2 fun _ _ => rfl))

theorem neg_right (h : Independent k [a, b]) : Independent k [a, -b] :=
  h.congr (.cons rfl (.cons (Int.natAbs_neg b).symm .nil))

end Independent

/-! ### Gates on such literals -/

namespace Adds

variable {a b c l : Literal}

theorem or (h : Independent k [a, b]) :
    Adds k (Solver.or a b) 1 3 fun l => l.natAbs = k + 1 := by
  obtain ⟨ha, hb, hne⟩ := h.pair
  simp only [or_eq, ne_of_one_lt ha, ne_of_one_lt hb, ne_of_natAbs_ne hne, or_self, if_false]
  exact introduce fun d => rfl

theorem and (h : Independent k [a, b]) :
    Adds k (Solver.and a b) 1 3 fun l => l.natAbs = k + 1 :=
  (or h.neg_left.neg_right).neg

theorem xor (h : Independent k [a, b]) :
    Adds k (Solver.xor a b) 1 4 fun l => l.natAbs = k + 1 := by
  obtain ⟨ha, hb, hne⟩ := h.pair
  simp only [xor_eq, ne_of_one_lt ha, ne_of_one_lt hb, ne_of_natAbs_ne hne, if_false]
  exact introduce fun d => rfl

/-- A gate on two literals of different variables defines a variable. -/
theorem gate (g : Gate) (h : Independent k [a, b]) :
    Adds k (Solver.gate g a b) 1 g.clauseCount fun l => l.natAbs = k + 1 := by
  cases g with
  | or => exact or h
  | and => exact and h
  | xor => exact xor h
  | equ => exact (xor h).neg
  | imp => exact or h.neg_left

/-! ### Gates on three literals -/

section Rotations

variable {x y z : Literal}

theorem majConstant?_of_one_lt (hx : 1 < x.natAbs) :
    (majConstant? (x, y, z) : Option (SolverM Literal Literal)) = none :=
  majConstant?_eq_none_iff.2 (ne_of_one_lt hx)

theorem majConstant?_lift (value : Bool) :
    (majConstant? (lift value, y, z) : Option (SolverM Literal Literal)) =
      some (if value then Solver.or y z else Solver.and y z) := by
  cases value <;> rfl

theorem folds_of_one_lt (hx : 1 < x.natAbs) (hxy : x.natAbs ≠ y.natAbs) :
    folds (x, y, z) = false :=
  folds_eq_false_iff.2 ⟨ne_of_one_lt hx, ne_of_natAbs_ne hxy⟩

theorem folds_lift (value : Bool) : folds (lift value, y, z) = true := by
  cases value <;> simp [folds, lift, top, bottom, LiteralForm.ofLiteral]

/-- The majority of literals of different variables does not fold to one of them. -/
theorem findSome?_related?_eq_none (hab : a.natAbs ≠ b.natAbs) (hbc : b.natAbs ≠ c.natAbs)
    (hca : c.natAbs ≠ a.natAbs) : (rotations a b c).findSome? related? = none := by
  have hnone {x y z : Literal} (hxy : x.natAbs ≠ y.natAbs) : related? (x, y, z) = none :=
    related?_eq_none_iff.2 (ne_of_natAbs_ne hxy)
  simp only [rotations, List.findSome?_cons, List.findSome?_nil, hnone hab, hnone hbc, hnone hca]

end Rotations

/-- The majority of three literals of different variables takes six clauses. -/
theorem maj (h : Independent k [a, b, c]) :
    Adds k (Solver.maj a b c) 1 6 fun l => l.natAbs = k + 1 := by
  obtain ⟨⟨ha, hb, hc⟩, hab, hbc, hca⟩ := h.triple
  rw [maj_eq, findSome?_related?_eq_none hab hbc hca]
  simp only [rotations, List.findSome?_cons, List.findSome?_nil, majConstant?_of_one_lt ha,
    majConstant?_of_one_lt hb, majConstant?_of_one_lt hc]
  exact introduce fun d => rfl

/-- The parity of three literals of different variables takes eight clauses. -/
theorem sum3 (h : Independent k [a, b, c]) :
    Adds k (Solver.sum3 a b c) 1 8 fun l => l.natAbs = k + 1 := by
  obtain ⟨⟨ha, hb, hc⟩, hab, hbc, hca⟩ := h.triple
  rw [sum3_eq]
  simp only [rotations, List.find?_cons, List.find?_nil, folds_of_one_lt ha hab,
    folds_of_one_lt hb hbc, folds_of_one_lt hc hca]
  exact introduce fun d => rfl

/-! ### Gates with a constant -/

/-- A conjunction with a constant folds. -/
theorem and_constant (hb : b.natAbs = 1) : Adds k (Solver.and a b) 0 0 fun _ => True := by
  have hor : Adds k (Solver.or (-a) (-b)) 0 0 fun _ => True := by
    rw [or_eq]
    -- The last branch is for a second operand that is not constant.
    split_ifs with htop hleft hright
    · exact pure trivial
    · exact pure trivial
    · exact pure trivial
    · rcases Int.natAbs_eq_iff.1 hb with rfl | rfl
      · exact absurd rfl hright
      · exact absurd (.inr (.inl rfl)) htop
  exact hor.bind fun l _ => pure trivial

/-- An equality with a constant is the other operand or its negation. -/
theorem equ_constant (ha : 1 < a.natAbs) (hb : b.natAbs = 1) :
    Adds k (Solver.equ a b) 0 0 fun l => l.natAbs = a.natAbs := by
  have hxor : Adds k (Solver.xor a b) 0 0 fun l => l.natAbs = a.natAbs := by
    simp only [xor_eq, ne_of_one_lt ha, if_false]
    rcases Int.natAbs_eq_iff.1 hb with rfl | rfl
    · exact pure (Int.natAbs_neg a)
    · exact pure rfl
  exact hxor.neg

/-- With a constant carry the majority is a disjunction or a conjunction. -/
theorem maj_lift (h : Independent k [a, b]) (value : Bool) :
    Adds k (Solver.maj a b (lift value)) 1 3 fun l => l.natAbs = k + 1 := by
  obtain ⟨ha, hb, hne⟩ := h.pair
  have hvalue := natAbs_lift value
  rw [maj_eq, findSome?_related?_eq_none hne (by omega) (by omega)]
  simp only [rotations, List.findSome?_cons, majConstant?_of_one_lt ha, majConstant?_of_one_lt hb,
    majConstant?_lift]
  cases value with
  | true => exact or h
  | false => exact and h

/-- With a constant carry the parity of three is one of two. -/
theorem sum3_lift (h : Independent k [a, b]) (value : Bool) :
    Adds k (Solver.sum3 a b (lift value)) 1 4 fun l => l.natAbs = k + 1 := by
  obtain ⟨ha, hb, hne⟩ := h.pair
  have hvalue := natAbs_lift value
  rw [sum3_eq]
  simp only [rotations, List.find?_cons, folds_of_one_lt ha hne,
    folds_of_one_lt hb (show b.natAbs ≠ (lift value : Literal).natAbs by omega), folds_lift]
  have hcarry : Adds k (Solver.xor (lift value) a) 0 0 fun l => l = a ∨ l = -a := by
    cases value with
    | true => exact pure (.inr rfl)
    | false => exact pure (.inl rfl)
  refine hcarry.free_bind fun l hl => ?_
  rcases hl with rfl | rfl
  · exact xor h
  · exact xor h.neg_left

/-! ### Gates along a list -/

/-- A gate along literals of different variables defines a variable for each after the first. -/
theorem foldlM_gate (g : Gate) {literals : List Literal} (h : Independent k (l :: literals)) :
    Adds k (literals.foldlM (Solver.gate g) l) literals.length (literals.length * g.clauseCount)
      fun _ => True := by
  induction literals generalizing k l with
  | nil => simpa using pure trivial
  | cons a literals ih =>
    have hpair : Independent k [l, a] := h.sublist (by simp)
    rw [List.foldlM_cons, List.length_cons, Nat.add_comm, Nat.add_mul, Nat.one_mul]
    refine (gate g hpair).bind fun l' hl' => ih ?_
    exact h.replace (by omega) hl'.le (List.sublist_cons_self _ _)

/-- A disjunction that starts with the false literal is its other operand. -/
theorem or_bottom (l : Literal) : (Solver.or (-1) l : SolverM Literal Literal) = Pure.pure l := by
  rw [or_eq]
  by_cases htop : l = 1
  · rw [if_pos (.inr (.inl htop)), htop]
  · have hopposite : (-1 : Literal) ≠ -l := fun heq => htop (neg_injective heq).symm
    rw [if_neg (by simp [htop, hopposite]), if_pos (.inl rfl)]

/-- The first literal of a list takes the place of the constant that a gate starts with. -/
theorem gate_start (reduction : Reduction) (l : Literal) :
    (Solver.gate reduction.gate (lift (reduction.eval [])) l : SolverM Literal Literal) =
      Pure.pure l := by
  cases reduction with
  | all =>
    change (Solver.or (-1) (-l) >>= fun l => Pure.pure (-l) : SolverM Literal Literal) = _
    rw [or_bottom, pure_bind, neg_neg]
  | any =>
    change (Solver.or (-1) l : SolverM Literal Literal) = _
    rw [or_bottom]
  | sum =>
    change (Solver.xor (-1) l : SolverM Literal Literal) = _
    rw [xor_eq, if_pos rfl]

/-- A gate on a list of literals of different variables takes one gate less than there are. -/
theorem reduce (engine : Engine) (reduction : Reduction) (elems : Thunk (List Literal))
    (h : Independent k elems.get) :
    Adds k ((literalAlgebra engine).reduce reduction elems) (elems.get.length - 1)
      ((elems.get.length - 1) * reduction.gate.clauseCount) fun _ => True := by
  change Adds k (BoolAlgebra.reduceBy (fun value => Pure.pure (lift value)) Solver.gate reduction
    elems) _ _ _
  rw [BoolAlgebra.reduceBy_eq, BoolAlgebra.foldGate, pure_bind]
  cases helems : elems.get with
  | nil => simpa using pure trivial
  | cons l literals =>
    rw [helems] at h
    rw [List.foldlM_cons, gate_start reduction, pure_bind]
    exact foldlM_gate reduction.gate h

end Adds

end Solver

end BoolTensor
