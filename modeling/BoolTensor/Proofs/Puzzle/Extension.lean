import BoolTensor.Proofs.Circuit.Growth
import BoolTensor.Proofs.Circuit.SameCells
import BoolTensor.Proofs.Puzzle.Function

/-!
# Functions demanded of any solver

The clauses that make a relation a function are the same for every solver with so many variables,
whatever is recorded there. So what they demand of the variables that there are can be seen on a
new solver with these variables: of those before, only that variable 1 is true matters.

## Main definitions

* `Tensor.relation`: which cells of a matrix are true
-/

namespace BoolTensor

/-- The relation of the true cells of a matrix, for an assignment of the variables. -/
def Tensor.relation (t : Tensor Literal) (σ : Assignment) (y x : Nat) : Bool :=
  Literal.holds σ (t.cellAt [y, x])

namespace Solver

variable {s t : Solver Literal} {n : Nat} {rel : Tensor Literal} {σ τ : Assignment}

/-! ### The same clauses everywhere -/

theorem OnlyAdds.demandFunction (engine : Engine) (rel : Tensor Literal) :
    OnlyAdds ((literalAlgebra engine).demandFunction rel).run := by
  refine (of_except _).bind_except fun size => (tensorReduce engine .any rel).bind_except fun image => ?_
  refine (tensorClauses engine [image]).bind_except fun _ => ?_
  refine (of_except _).bind_except fun first => (of_except _).bind_except fun second => ?_
  refine (countedDiagonal engine size).bind_except fun same => (of_except _).bind_except fun equal => ?_
  refine (tensorNot engine first).bind_except fun _ => (tensorNot engine second).bind_except fun _ => ?_
  exact tensorClauses engine _

/-- How the cells of the relation are stored makes no difference. -/
theorem demandFunction_stored (engine : Engine) (hrel : rel.WellFormed)
    (hshape : rel.shape = ⟨[n, n]⟩) : (literalAlgebra engine).demandFunction rel =
      (literalAlgebra engine).demandFunction rel.stored := by
  have hsame := rel.sameCells_stored
  have hpolymer {a b : Nat} (ha : a < 3) (hb : b < 3) : ∃ t u : Tensor Literal,
      rel.polymer ⟨[n, n, n]⟩ [(a : Int), (b : Int)] = .ok t ∧
      rel.stored.polymer ⟨[n, n, n]⟩ [(a : Int), (b : Int)] = .ok u ∧ t.SameCells u :=
    hsame.exists_polymer hrel (hshape ▸ fits_cube n ha hb)
  obtain ⟨first, first', hfirst, hfirst', hsameFirst⟩ := hpolymer (a := 0) (b := 2)
    (by decide) (by decide)
  obtain ⟨second, second', hsecond, hsecond', hsameSecond⟩ := hpolymer (a := 1) (b := 2)
    (by decide) (by decide)
  have himage : hasImage engine rel = hasImage engine rel.stored := by
    rw [hasImage, hasImage, hsame.tensorReduce_eq]
  have hinjective : sameImage engine n rel = sameImage engine n rel.stored := by
    simp only [Nat.cast_zero, Nat.cast_one, Nat.cast_ofNat] at hfirst hfirst' hsecond hsecond'
    rw [sameImage, sameImage, hfirst, hfirst', hsecond, hsecond']
    simp only [liftM_ok, pure_bind, hsameFirst.tensorNot_eq, hsameSecond.tensorNot_eq]
  rw [demandFunction_eq engine hshape, demandFunction_eq engine (hsame.shape_eq ▸ hshape), himage,
    hinjective]

/-! ### On a new solver -/

section Relation

variable (hrel : rel.WellFormed) (hshape : rel.shape = ⟨[n, n]⟩)

include hshape

theorem contains_pair {y x : Nat} (hy : y < n) (hx : x < n) : rel.shape.Contains [y, x] := by
  rw [hshape]
  exact ⟨hy, hx, trivial⟩

include hrel

theorem storesTensor_stored (σ : Assignment)
    (hallocated : ∀ l ∈ rel.elems.toList, l.isAllocated s.variableCount = true) :
    (reading σ).StoresTensor s rel.stored ⟨[n, n]⟩ (atPair (rel.relation σ)) := by
  have hreads : (reading σ).ReadsList s rel.elems.toList
      (rel.elems.toList.map (Literal.holds σ)) := by
    rw [Reading.ReadsList, List.forall₂_map_right_iff, List.forall₂_same]
    exact fun l hl => ⟨hallocated l hl, fun _ _ => rfl⟩
  have hvalues : rel.elems.toList.map (Literal.holds σ) =
      Shape.cells ⟨[n, n]⟩ (atPair (rel.relation σ)) := by
    rw [← Tensor.cells_cellAt hrel, Shape.map_cells, hshape]
    refine Shape.cells_congr ?_
    simp [Shape.forall_contains_cons, Shape.forall_contains_nil, atPair, Tensor.relation]
  exact ⟨hshape, hvalues ▸ (reading_realizes searchEngine σ).stores_vector hreads⟩

/-- The relation of a matrix is that of the literals at its coordinates. -/
theorem isGraph_relation_iff : IsGraph n (rel.relation σ) ↔ ∀ x < n, ∃! y, y < n ∧
    ∃ l, rel.get [(y : Int), (x : Int)] = .ok l ∧ Literal.holds σ l = true := by
  refine forall₂_congr fun x hx => existsUnique_congr fun y => and_congr_right fun hy => ?_
  have hget : rel.get [(y : Int), (x : Int)] = _ :=
    Tensor.get_eq_cellAt hrel (contains_pair hshape hy hx)
  rw [hget]
  simp [Tensor.relation]

end Relation

/-- The clauses demand of the variables before them just that the relation is a function. -/
theorem demandFunction_extends_iff (engine : Engine) (hs : s.Rooted) (hrel : rel.WellFormed)
    (hshape : rel.shape = ⟨[n, n]⟩)
    (hallocated : ∀ l ∈ rel.elems.toList, l.isAllocated s.variableCount = true) :
    ∃ (m : Nat) (rows : Formula), s.variableCount ≤ m ∧ rows.Allocated m ∧
      ((literalAlgebra engine).demandFunction rel).run.run s = (.ok (), s.grown m rows) ∧
      ∀ σ : Assignment, s.formula.holds σ = true →
        ((∃ τ : Assignment, σ.AgreeUpTo s.variableCount τ ∧ rows.holds τ = true) ↔
          ∀ x < n, ∃! y, y < n ∧
            ∃ l, rel.get [(y : Int), (x : Int)] = .ok l ∧ Literal.holds σ l = true) := by
  -- The clauses are those added to a solver with as many variables and nothing else recorded, where
  -- the literals of `s` cannot be in the way of the new variables.
  let base : Solver Literal := new.grown s.variableCount []
  have hbase : base.Ready := ready_variables hs.pos
  have hcongr (σ τ : Assignment) (hagree : σ.AgreeUpTo s.variableCount τ) :
      ∀ y < n, ∀ x < n, rel.relation σ y x = rel.relation τ y x := fun y hy x hx =>
    hagree.holds_literal (hallocated _ (Tensor.cellAt_mem hrel (contains_pair hshape hy hx)))
  obtain ⟨t, hrun, ht⟩ := run_demandFunction engine hbase
    (fun σ => storesTensor_stored hrel hshape σ hallocated) hcongr
  rw [← demandFunction_stored engine hrel hshape] at hrun
  obtain ⟨value, m, rows, hle, hruns⟩ := OnlyAdds.demandFunction engine rel s.variableCount
  obtain ⟨rfl, rfl⟩ := Prod.mk.inj ((hruns base rfl).symm.trans hrun)
  have hformula (τ : Assignment) :
      (base.grown m rows).formula.holds τ = true ↔ τ 1 = true ∧ rows.holds τ = true := by
    rw [grown_grown, holds_formula_new_grown, List.nil_append]
  refine ⟨m, rows, hle, ?_, hruns s rfl, fun σ hσ => ?_⟩
  · have hallocated := ht.allocated
    rw [formula_grown] at hallocated
    exact fun c hc => hallocated c (List.mem_append_right _ hc)
  · have htop := hs.holds_top hσ
    rw [← isGraph_relation_iff hrel hshape]
    constructor
    · rintro ⟨τ, hagree, hrows⟩
      have htop' : τ 1 = true := (hagree 1 le_rfl hs.pos).symm.trans htop
      refine (ht.sound τ ((hformula τ).2 ⟨htop', hrows⟩)).congr fun y hy x hx => ?_
      exact (hcongr σ τ hagree y hy x hx).symm
    · intro hgraph
      have hσbase : base.formula.holds σ = true := by
        rw [holds_formula_new_grown]
        exact ⟨htop, rfl⟩
      obtain ⟨τ, hagree, hτ⟩ := ht.complete σ hσbase hgraph
      exact ⟨τ, hagree, ((hformula τ).1 hτ).2⟩

/-- A column of one literal twice is no function, whatever the other column is: no assignment
extends. -/
theorem demandFunction_extends_iff_repeated :
    let s : Solver Literal := new.after [(searchEngine, .addVariable)]
    let rel : Tensor Literal := ⟨⟨[2, 2]⟩, .ofList .plain [1, -1, 2, 2]⟩
    s.Rooted ∧ rel.WellFormed ∧
      (∀ l ∈ rel.elems.toList, l.isAllocated s.variableCount = true) ∧
      ∃ (m : Nat) (rows : Formula),
        ((literalAlgebra searchEngine).demandFunction rel).run.run s = (.ok (), s.grown m rows) ∧
        ∀ σ : Assignment, s.formula.holds σ = true →
          ¬∃ τ : Assignment, σ.AgreeUpTo s.variableCount τ ∧ rows.holds τ = true := by
  intro s rel
  have hs : s.Rooted := Rooted.new.after .new _
  have hrel : rel.WellFormed := rfl
  have hallocated : ∀ l ∈ rel.elems.toList, l.isAllocated s.variableCount = true := by decide
  obtain ⟨m, rows, -, -, hrun, hextends⟩ :=
    demandFunction_extends_iff searchEngine hs hrel rfl hallocated
  refine ⟨hs, hrel, hallocated, m, rows, hrun, fun σ hσ h => ?_⟩
  obtain ⟨y, ⟨hy, l, hget, hl⟩, hunique⟩ := (hextends σ hσ).1 h 1 (by decide)
  have hcell : rel.get [(y : Int), 1] = .ok 2 := by
    interval_cases y <;> rfl
  obtain rfl : 2 = l := Except.ok.inj (hcell.symm.trans hget)
  have hfirst : 0 = y := hunique 0 ⟨by decide, 2, rfl, hl⟩
  have hsecond : 1 = y := hunique 1 ⟨by decide, 2, rfl, hl⟩
  exact Nat.zero_ne_one (hfirst.trans hsecond.symm)

end Solver

end BoolTensor
