import BoolTensor.Proofs.Solver.Cost

/-!
# Gates fold or define a variable

On allocated literals a gate gives a literal that is there already, up to sign, or it defines one
new variable by clauses in which no variable occurs twice and none is constant. The tests of a gate
leave clauses to be recorded only where the operands are of different variables and none of them is
constant. A gate on three operands that folds leaves at most one gate on two that may not fold.

## Main definitions

* `Solver.UpToSign`: a literal is one of a list, or the negation of one
* `Solver.Ties`: the clauses by which a new variable is tied to the operands
* `Solver.FoldsOrDefines`: what a gate does to a solver
* `Solver.AllocatesUpTo`: computations that allocate at most so many variables
-/

namespace BoolTensor

namespace Solver

/-- The literal is one of these, or the negation of one of them. -/
def UpToSign (literals : List Literal) (l : Literal) : Prop :=
  ∃ a ∈ literals, l = a ∨ l = -a

/-- The clause mentions variable `k + 1`, and otherwise operands up to sign; its literals are of
different variables, and none of them is constant. -/
structure Ties (k : Nat) (operands : List Literal) (clause : Clause) : Prop where
  independent : Independent (k + 1) clause
  mentions : ((k + 1 : Nat) : Literal) ∈ clause ∨ -((k + 1 : Nat) : Literal) ∈ clause
  upToSign : ∀ l ∈ clause, UpToSign (((k + 1 : Nat) : Literal) :: operands) l

/-- What a gate on the operands does to a solver. -/
inductive FoldsOrDefines (s : Solver Literal) (x : SolverM Literal Literal)
    (operands : List Literal) : Prop
  /-- The solver stays as it is. A constant or an operand is given, up to sign. -/
  | folds (l : Literal) (hrun : x.run s = (l, s)) (hl : UpToSign (1 :: operands) l)
  /-- One variable is allocated and given, up to sign. Each clause that is recorded ties it to the
  operands. -/
  | defines (l : Literal) (clauses : Formula)
    (hrun : x.run s = (l, s.grown (s.variableCount + 1) clauses))
    (hl : UpToSign [((s.variableCount + 1 : Nat) : Literal)] l)
    (hties : ∀ clause ∈ clauses, Ties s.variableCount operands clause)

/-- From every solver the computation allocates at most so many variables. -/
def AllocatesUpTo {β : Type} (count : Nat) (x : SolverM Literal β) : Prop :=
  ∀ s : Solver Literal, (x.run s).2.variableCount ≤ s.variableCount + count

variable {k : Nat} {a b c l : Literal} {operands others : List Literal} {s : Solver Literal}
  {x : SolverM Literal Literal}

/-! ### Literals up to sign -/

theorem upToSign_iff : UpToSign operands l ↔ ∃ a ∈ operands, l.natAbs = a.natAbs := by
  simp only [UpToSign, Int.natAbs_eq_natAbs_iff]

theorem upToSign_of_mem (h : l ∈ operands) : UpToSign operands l :=
  ⟨l, h, .inl rfl⟩

theorem UpToSign.neg (h : UpToSign operands l) : UpToSign operands (-l) := by
  rw [upToSign_iff] at h ⊢
  rwa [Int.natAbs_neg]

theorem UpToSign.trans (h : UpToSign operands l) (hsame : ∀ a ∈ operands, UpToSign others a) :
    UpToSign others l := by
  simp only [upToSign_iff] at h hsame ⊢
  obtain ⟨a, ha, hla⟩ := h
  obtain ⟨b, hb, hab⟩ := hsame a ha
  exact ⟨b, hb, hla.trans hab⟩

theorem UpToSign.isAllocated (h : UpToSign operands l)
    (halloc : ∀ a ∈ operands, a.isAllocated k = true) : l.isAllocated k = true := by
  obtain ⟨a, ha, rfl | rfl⟩ := h
  · exact halloc l ha
  · rw [Literal.isAllocated_neg]
    exact halloc a ha

/-- The operands of which a gate records clauses. -/
theorem independent_iff : Independent k operands ↔
    (∀ l ∈ operands, l.isAllocated k = true ∧ l ≠ 1 ∧ l ≠ -1) ∧
      operands.Pairwise fun a b => a ≠ b ∧ a ≠ -b := by
  have hdistinct : (operands.map Int.natAbs).Nodup ↔
      operands.Pairwise fun a b => a ≠ b ∧ a ≠ -b := by
    rw [List.Nodup, List.pairwise_map]
    simp only [ne_eq, Int.natAbs_eq_natAbs_iff, not_or]
  have hbound (l : Literal) : 1 < l.natAbs ∧ l.natAbs ≤ k ↔
      l.isAllocated k = true ∧ l ≠ 1 ∧ l ≠ -1 := by
    have hone : l.natAbs ≠ 1 ↔ l ≠ 1 ∧ l ≠ -1 := by
      rw [Ne, Int.natAbs_eq_iff, not_or]
      rfl
    rw [Literal.isAllocated_iff, ← hone, ← Int.natAbs_ne_zero]
    omega
  rw [← hdistinct]
  simp only [← hbound]
  exact ⟨fun h => ⟨h.bounds, h.distinct⟩, fun h => ⟨h.2, h.1⟩⟩

theorem independent_pair (ha : a.isAllocated k = true ∧ a ≠ 1 ∧ a ≠ -1)
    (hb : b.isAllocated k = true ∧ b ≠ 1 ∧ b ≠ -1) (hab : a ≠ b ∧ a ≠ -b) :
    Independent k [a, b] :=
  independent_iff.2 ⟨List.forall_mem_cons.2 ⟨ha, List.forall_mem_singleton.2 hb⟩,
    List.pairwise_pair.2 hab⟩

/-- A clause of the new variable and some of the operands, which are of different variables. -/
theorem ties_of_map_eq (own : List Literal) {clause : Clause} (h : Independent k operands)
    (hpos : 1 ≤ k) (hl : l = ((k + 1 : Nat) : Literal)) (hown : own.Sublist operands)
    (hmap : (own ++ [l]).map Int.natAbs = clause.map Int.natAbs) : Ties k operands clause := by
  have hnew : l.natAbs = k + 1 := hl ▸ Int.natAbs_natCast _
  have hindependent := (h.sublist hown).concat hpos (by omega) hnew.le
  refine ⟨hindependent.of_map_eq hmap, ?_, fun l' hl' => ?_⟩
  · have hmem : k + 1 ∈ clause.map Int.natAbs := by
      rw [← hmap, ← hnew]
      exact List.mem_map_of_mem (List.mem_append_right _ (List.mem_singleton.2 rfl))
    obtain ⟨l', hl', heq⟩ := List.mem_map.1 hmem
    rcases Int.natAbs_eq_iff.1 heq with rfl | rfl
    · exact .inl hl'
    · exact .inr hl'
  · have hmem : l'.natAbs ∈ (own ++ [l]).map Int.natAbs := hmap ▸ List.mem_map_of_mem hl'
    obtain ⟨a, ha, heq⟩ := List.mem_map.1 hmem
    refine upToSign_iff.2 ⟨a, ?_, heq.symm⟩
    rcases List.mem_append.1 ha with ha | ha
    · exact List.mem_cons_of_mem _ (hown.mem ha)
    · exact List.mem_cons.2 (.inl ((List.mem_singleton.1 ha).trans hl))

/-! ### Three arguments -/

section Rotated

variable {u v w : Literal}

/-- Where no argument is constant and none is related to the next one round the circle, the three
are of different variables. -/
theorem independent_of_rotations (halloc : ∀ l ∈ [a, b, c], l.isAllocated k = true)
    (h : ∀ u v w, (u, v, w) ∈ rotations a b c → (u ≠ 1 ∧ u ≠ -1) ∧ u ≠ v ∧ u ≠ -v) :
    Independent k [a, b, c] := by
  obtain ⟨ha, hab⟩ := h a b c (by simp [rotations])
  obtain ⟨hb, hbc⟩ := h b c a (by simp [rotations])
  obtain ⟨hc, hca⟩ := h c a b (by simp [rotations])
  have hac : a ≠ c ∧ a ≠ -c := ⟨hca.1.symm, fun heq => hca.2 (by rw [heq, neg_neg])⟩
  have hmem (l : Literal) (hl : l ∈ [a, b, c]) : l ≠ 1 ∧ l ≠ -1 := by
    simp only [List.mem_cons, List.not_mem_nil, or_false] at hl
    rcases hl with rfl | rfl | rfl
    exacts [ha, hb, hc]
  refine independent_iff.2 ⟨fun l hl => ⟨halloc l hl, hmem l hl⟩, List.pairwise_cons.2 ⟨?_, ?_⟩⟩
  · exact List.forall_mem_cons.2 ⟨hab, List.forall_mem_singleton.2 hac⟩
  · exact List.pairwise_pair.2 hbc

/-- The first of the two parities into which a parity of three folds takes no variable. -/
theorem xor_of_folds (h : folds (u, v, w) = true) :
    ∃ l, (xor u v : SolverM Literal Literal) = pure l ∧ UpToSign [1, v] l := by
  have hu : UpToSign [1, v] u := by
    simpa [folds, UpToSign, Int.natAbs_eq_natAbs_iff] using h
  have hv : UpToSign [1, v] v := upToSign_of_mem (by simp)
  have hone : UpToSign [1, v] 1 := upToSign_of_mem (by simp)
  rw [xor_eq]
  split_ifs with hbottom htop hbottom' htop' heq hneg
  · exact ⟨v, rfl, hv⟩
  · exact ⟨-v, rfl, hv.neg⟩
  · exact ⟨u, rfl, hu⟩
  · exact ⟨-u, rfl, hu.neg⟩
  · exact ⟨-1, rfl, hone.neg⟩
  · exact ⟨1, rfl, hone⟩
  · rw [folds_eq_false_iff.2 ⟨⟨htop, hbottom⟩, heq, hneg⟩] at h
    exact absurd h Bool.false_ne_true

end Rotated

namespace FoldsOrDefines

/-! ### Steps of gates -/

theorem pure (hl : UpToSign (1 :: operands) l) : s.FoldsOrDefines (Pure.pure l) operands :=
  .folds l rfl hl

theorem introduce {definition : Literal → Formula}
    (h : ∀ l : Literal, l = ((s.variableCount + 1 : Nat) : Literal) → ∀ clause ∈ definition l,
      Ties s.variableCount operands clause) :
    s.FoldsOrDefines (Solver.introduce fun l => Pure.pure (definition l)) operands :=
  .defines _ _ rfl (upToSign_of_mem (List.mem_singleton.2 rfl)) (h _ rfl)

theorem neg (h : s.FoldsOrDefines x operands) :
    s.FoldsOrDefines (x >>= SignedForm.negated) operands := by
  cases h with
  | folds l hrun hl => exact .folds (-l) (run_state_bind hrun) hl.neg
  | defines l clauses hrun hl hties =>
    exact .defines (-l) clauses (run_state_bind hrun) hl.neg hties

/-- There may be other operands, if those there were are among them up to sign, or constant. -/
theorem of_operands (h : s.FoldsOrDefines x operands)
    (hsame : ∀ a ∈ operands, UpToSign (1 :: others) a) : s.FoldsOrDefines x others := by
  cases h with
  | folds l hrun hl =>
    refine .folds l hrun (hl.trans (List.forall_mem_cons.2 ⟨?_, hsame⟩))
    exact upToSign_of_mem List.mem_cons_self
  | defines l clauses hrun hl hties =>
    refine .defines l clauses hrun hl fun clause hclause => ?_
    obtain ⟨hindependent, hmentions, hupTo⟩ := hties clause hclause
    refine ⟨hindependent, hmentions, fun l' hl' => ?_⟩
    obtain ⟨a, ha, hla⟩ := upToSign_iff.1 (hupTo l' hl')
    rcases List.mem_cons.1 ha with rfl | ha
    · exact upToSign_iff.2 ⟨_, List.mem_cons_self, hla⟩
    · obtain ⟨b, hb, hab⟩ := upToSign_iff.1 (hsame a ha)
      rcases List.mem_cons.1 hb with rfl | hb
      · -- No clause mentions a constant.
        have hlt := (hindependent.bounds l' hl').1
        rw [hla, hab] at hlt
        exact absurd hlt (by decide)
      · exact upToSign_iff.2 ⟨b, List.mem_cons_of_mem _ hb, hla.trans hab⟩

/-! ### Gates on two literals -/

theorem or (ha : a.isAllocated s.variableCount = true)
    (hb : b.isAllocated s.variableCount = true) :
    s.FoldsOrDefines (Solver.or a b) [a, b] := by
  rw [or_eq]
  split_ifs with htop hleft hright
  · exact pure (upToSign_of_mem (by simp))
  · exact pure (upToSign_of_mem (by simp))
  · exact pure (upToSign_of_mem (by simp))
  · rw [not_or, not_or] at htop
    rw [not_or] at hleft
    have h : Independent s.variableCount [a, b] :=
      independent_pair ⟨ha, htop.1, hleft.1⟩ ⟨hb, htop.2.1, hright⟩ ⟨hleft.2, htop.2.2⟩
    have hpos := Literal.pos_of_isAllocated ha
    refine introduce fun d hd clause hclause => ?_
    simp only [List.mem_cons, List.not_mem_nil, or_false] at hclause
    rcases hclause with rfl | rfl | rfl
    · exact ties_of_map_eq [a] h hpos hd (by simp) (by simp)
    · exact ties_of_map_eq [b] h hpos hd (by simp) (by simp)
    · exact ties_of_map_eq [a, b] h hpos hd (by simp) (by simp)

theorem xor (ha : a.isAllocated s.variableCount = true)
    (hb : b.isAllocated s.variableCount = true) :
    s.FoldsOrDefines (Solver.xor a b) [a, b] := by
  rw [xor_eq]
  split_ifs with hbottom htop hbottom' htop' heq hneg
  · exact pure (upToSign_of_mem (by simp))
  · exact pure (upToSign_of_mem (by simp)).neg
  · exact pure (upToSign_of_mem (by simp))
  · exact pure (upToSign_of_mem (by simp)).neg
  · exact pure (upToSign_of_mem (by simp)).neg
  · exact pure (upToSign_of_mem (by simp))
  · have h : Independent s.variableCount [a, b] :=
      independent_pair ⟨ha, htop, hbottom⟩ ⟨hb, htop', hbottom'⟩ ⟨heq, hneg⟩
    refine introduce fun d hd clause hclause => ?_
    simp only [List.mem_cons, List.not_mem_nil, or_false] at hclause
    -- Each clause is the two operands, up to sign, and the new variable.
    rcases hclause with rfl | rfl | rfl | rfl <;>
      exact ties_of_map_eq [a, b] h (Literal.pos_of_isAllocated ha) hd (.refl _) (by simp)

theorem and (ha : a.isAllocated s.variableCount = true)
    (hb : b.isAllocated s.variableCount = true) :
    s.FoldsOrDefines (Solver.and a b) [a, b] := by
  have hor : s.FoldsOrDefines (Solver.or (-a) (-b)) [-a, -b] :=
    or (by simpa using ha) (by simpa using hb)
  refine hor.neg.of_operands (List.forall_mem_cons.2 ⟨?_, List.forall_mem_singleton.2 ?_⟩)
  · exact (upToSign_of_mem (by simp)).neg
  · exact (upToSign_of_mem (by simp)).neg

theorem imp (ha : a.isAllocated s.variableCount = true)
    (hb : b.isAllocated s.variableCount = true) :
    s.FoldsOrDefines (Solver.imp a b) [a, b] := by
  have hor : s.FoldsOrDefines (Solver.or (-a) b) [-a, b] := or (by simpa using ha) hb
  refine hor.of_operands (List.forall_mem_cons.2 ⟨?_, List.forall_mem_singleton.2 ?_⟩)
  · exact (upToSign_of_mem (by simp)).neg
  · exact upToSign_of_mem (by simp)

theorem gate (g : Gate) (ha : a.isAllocated s.variableCount = true)
    (hb : b.isAllocated s.variableCount = true) :
    s.FoldsOrDefines (Solver.gate g a b) [a, b] := by
  cases g with
  | or => exact or ha hb
  | and => exact and ha hb
  | xor => exact xor ha hb
  | equ => exact (xor ha hb).neg
  | imp => exact imp ha hb

/-! ### Gates on three literals -/

section Rotations

variable {u v w : Literal}

theorem of_rotation (hmem : (u, v, w) ∈ rotations a b c) (h : s.FoldsOrDefines x [u, v, w]) :
    s.FoldsOrDefines x [a, b, c] := by
  refine h.of_operands fun l hl => upToSign_of_mem (List.mem_cons_of_mem _ ?_)
  exact of_mem_rotations (P := fun u v w => l ∈ [u, v, w] → l ∈ [a, b, c]) hmem
    (fun u v w hsub hl => hsub (by simpa [or_comm, or_left_comm] using hl)) id hl

/-- Equal arguments and opposite ones leave one of the three. -/
theorem of_related (h : related? (u, v, w) = some l) :
    s.FoldsOrDefines (Pure.pure l) [u, v, w] := by
  simp only [related?] at h
  split_ifs at h with heq hneg
  · exact pure (upToSign_of_mem (by simp_all))
  · exact pure (upToSign_of_mem (by simp_all))

/-- A constant argument leaves a gate on the two others. -/
theorem of_majConstant (h : majConstant? (u, v, w) = some x)
    (hv : v.isAllocated s.variableCount = true) (hw : w.isAllocated s.variableCount = true) :
    s.FoldsOrDefines x [u, v, w] := by
  have hsame : ∀ l ∈ [v, w], UpToSign [1, u, v, w] l := fun l hl =>
    upToSign_of_mem (List.mem_cons_of_mem _ (List.mem_cons_of_mem _ hl))
  simp only [majConstant?] at h
  split_ifs at h with htop hbottom
  · exact Option.some.inj h ▸ (or hv hw).of_operands hsame
  · exact Option.some.inj h ▸ (and hv hw).of_operands hsame

end Rotations

theorem maj (halloc : ∀ l ∈ [a, b, c], l.isAllocated s.variableCount = true) :
    s.FoldsOrDefines (Solver.maj a b c) [a, b, c] := by
  rw [maj_eq]
  split
  · rename_i l hfound
    obtain ⟨⟨u, v, w⟩, hmem, hrelated⟩ := List.exists_of_findSome?_eq_some hfound
    exact of_rotation hmem (of_related hrelated)
  · rename_i hrelated
    split
    · rename_i gate hfound
      obtain ⟨⟨u, v, w⟩, hmem, hconstant⟩ := List.exists_of_findSome?_eq_some hfound
      obtain ⟨-, hv, hw⟩ := isAllocated_of_mem_rotations hmem (halloc a (by simp))
        (halloc b (by simp)) (halloc c (by simp))
      exact of_rotation hmem (of_majConstant hconstant hv hw)
    · rename_i hconstant
      rw [List.findSome?_eq_none_iff] at hrelated hconstant
      have h : Independent s.variableCount [a, b, c] :=
        independent_of_rotations halloc fun u v w hmem =>
          ⟨majConstant?_eq_none_iff.1 (hconstant _ hmem), related?_eq_none_iff.1 (hrelated _ hmem)⟩
      have hpos := Literal.pos_of_isAllocated (halloc a (by simp))
      refine introduce fun d hd clause hclause => ?_
      simp only [List.mem_cons, List.not_mem_nil, or_false] at hclause
      -- Each pair of arguments has two clauses.
      rcases hclause with rfl | rfl | rfl | rfl | rfl | rfl
      · exact ties_of_map_eq [a, b] h hpos hd (by simp) (by simp)
      · exact ties_of_map_eq [a, c] h hpos hd (by simp) (by simp)
      · exact ties_of_map_eq [b, c] h hpos hd (by simp) (by simp)
      · exact ties_of_map_eq [a, b] h hpos hd (by simp) (by simp)
      · exact ties_of_map_eq [a, c] h hpos hd (by simp) (by simp)
      · exact ties_of_map_eq [b, c] h hpos hd (by simp) (by simp)

theorem sum3 (halloc : ∀ l ∈ [a, b, c], l.isAllocated s.variableCount = true) :
    s.FoldsOrDefines (Solver.sum3 a b c) [a, b, c] := by
  rw [sum3_eq]
  split
  · rename_i u v w hfound
    have hmem : (u, v, w) ∈ rotations a b c := List.mem_of_find?_eq_some hfound
    obtain ⟨-, hv, hw⟩ := isAllocated_of_mem_rotations hmem (halloc a (by simp))
      (halloc b (by simp)) (halloc c (by simp))
    obtain ⟨l, hxor, hl⟩ := xor_of_folds (List.find?_some hfound)
    rw [hxor, pure_bind]
    refine of_rotation hmem ((xor (hl.isAllocated ?_) hw).of_operands ?_)
    · exact List.forall_mem_cons.2 ⟨Literal.isAllocated_one hv, List.forall_mem_singleton.2 hv⟩
    · refine List.forall_mem_cons.2 ⟨hl.trans ?_, List.forall_mem_singleton.2 ?_⟩
      · exact fun l hl => upToSign_of_mem (by simp at hl ⊢; tauto)
      · exact upToSign_of_mem (by simp)
  · rename_i hfound
    rw [List.find?_eq_none] at hfound
    have h : Independent s.variableCount [a, b, c] :=
      independent_of_rotations halloc fun u v w hmem =>
        folds_eq_false_iff.1 (Bool.eq_false_iff.2 (hfound _ hmem))
    refine introduce fun d hd clause hclause => ?_
    simp only [List.mem_cons, List.not_mem_nil, or_false] at hclause
    -- Each clause is the three arguments, up to sign, and the new variable.
    rcases hclause with rfl | rfl | rfl | rfl | rfl | rfl | rfl | rfl <;>
      exact ties_of_map_eq [a, b, c] h (Literal.pos_of_isAllocated (halloc a (by simp))) hd
        (.refl _) (by simp)

end FoldsOrDefines

/-! ### Gates along a list -/

namespace AllocatesUpTo

variable {β γ : Type} {count more : Nat}

theorem pure (b : β) : AllocatesUpTo 0 (Pure.pure b) :=
  fun _ => le_rfl

theorem mono {x : SolverM Literal β} (h : AllocatesUpTo count x) (hle : count ≤ more) :
    AllocatesUpTo more x :=
  fun s => (h s).trans (Nat.add_le_add_left hle _)

theorem bind {x : SolverM Literal β} {f : β → SolverM Literal γ} (hx : AllocatesUpTo count x)
    (hf : ∀ b, AllocatesUpTo more (f b)) : AllocatesUpTo (count + more) (x >>= f) := by
  intro s
  have hfirst := hx s
  have hnext := hf (x.run s).1 (x.run s).2
  calc ((x >>= f).run s).2.variableCount
      ≤ (x.run s).2.variableCount + more := hnext
    _ ≤ s.variableCount + count + more := Nat.add_le_add_right hfirst _
    _ = s.variableCount + (count + more) := Nat.add_assoc _ _ _

theorem introduce (definition : Literal → Formula) :
    AllocatesUpTo 1 (Solver.introduce fun d => Pure.pure (definition d)) :=
  fun _ => le_rfl

theorem gate (g : Gate) (a b : Literal) : AllocatesUpTo 1 (Solver.gate g a b) :=
  of_gate (fun l => (pure l).mono zero_le_one) introduce
    (fun _ hx => hx.bind fun l => pure (-l)) g a b

theorem foldlM_gate (g : Gate) (l : Literal) (literals : List Literal) :
    AllocatesUpTo literals.length (literals.foldlM (Solver.gate g) l) := by
  induction literals generalizing l with
  | nil => exact pure l
  | cons a literals ih =>
    rw [List.foldlM_cons, List.length_cons, Nat.add_comm]
    exact (gate g l a).bind ih

/-- The first literal of a list takes no gate. -/
theorem reduce (engine : Engine) (reduction : Reduction) (elems : Thunk (List Literal)) :
    AllocatesUpTo (elems.get.length - 1) ((literalAlgebra engine).reduce reduction elems) := by
  change AllocatesUpTo _ (BoolAlgebra.reduceBy (fun value => Pure.pure (lift value)) Solver.gate
    reduction elems)
  rw [BoolAlgebra.reduceBy_eq, BoolAlgebra.foldGate, pure_bind]
  cases elems.get with
  | nil => exact pure _
  | cons l literals =>
    rw [List.foldlM_cons, Adds.gate_start, pure_bind]
    exact foldlM_gate reduction.gate l literals

end AllocatesUpTo

/-- On allocated literals every gate folds or defines one variable. The gate of a reduction takes at
most one variable for each literal after the first. -/
theorem gates_fold_or_define (engine : Engine) (s : Solver Literal) :
    (∀ (g : Gate) (a b : Literal), (∀ l ∈ [a, b], l.isAllocated s.variableCount = true) →
      s.FoldsOrDefines ((literalAlgebra engine).gate g a b) [a, b]) ∧
    (∀ a b c : Literal, (∀ l ∈ [a, b, c], l.isAllocated s.variableCount = true) →
      s.FoldsOrDefines ((literalAlgebra engine).maj a b c) [a, b, c] ∧
      s.FoldsOrDefines ((literalAlgebra engine).sum3 a b c) [a, b, c]) ∧
    ∀ (reduction : Reduction) (elems : Thunk (List Literal)),
      AllocatesUpTo (elems.get.length - 1) ((literalAlgebra engine).reduce reduction elems) := by
  refine ⟨fun g a b h => ?_, fun a b c h => ⟨.maj h, .sum3 h⟩, .reduce engine⟩
  rw [List.forall_mem_cons, List.forall_mem_singleton] at h
  exact .gate g h.1 h.2

/-- A parity that folds to a gate on two literals, and a majority of three variables. -/
theorem gates_fold_or_define_three_literals :
    let s : Solver Literal := ⟨4, #[[1]], 0, #[], none⟩
    ((∀ l ∈ [3, -3], Literal.isAllocated s.variableCount l = true) ∧
      s.FoldsOrDefines ((literalAlgebra searchEngine).gate .imp 3 (-3)) [3, -3]) ∧
    ((∀ l ∈ [2, -1, 4], Literal.isAllocated s.variableCount l = true) ∧
      s.FoldsOrDefines ((literalAlgebra searchEngine).sum3 2 (-1) 4) [2, -1, 4]) ∧
    (∀ l ∈ [2, -3, 4], Literal.isAllocated s.variableCount l = true) ∧
      s.FoldsOrDefines ((literalAlgebra searchEngine).maj 2 (-3) 4) [2, -3, 4] := by
  obtain ⟨hgate, hthree, -⟩ := gates_fold_or_define searchEngine ⟨4, #[[1]], 0, #[], none⟩
  exact ⟨⟨by decide, hgate .imp 3 (-3) (by decide)⟩,
    ⟨by decide, (hthree 2 (-1) 4 (by decide)).2⟩,
    by decide, (hthree 2 (-3) 4 (by decide)).1⟩

end Solver

end BoolTensor
