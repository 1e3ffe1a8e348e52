import BoolTensor.Proofs.Circuit.Binary
import BoolTensor.Proofs.Circuit.Constraint
import BoolTensor.Proofs.Shape.Numbering
import BoolTensor.Puzzle.Addends

/-!
# Two numbers with a given sum are found

The clauses demand of two vectors of variables just that their numbers are in order and have the sum.
So for every width and every sum a right engine finds such numbers, unless there are none.

## Main definitions

* `Addends.pairOf`: the numbers of the variables under an assignment
-/

namespace BoolTensor

namespace Addends

open Solver

/-! ### Pairs with a sum -/

/-- There is a pair with the sum unless there are too few bits. -/
theorem exists_areAddends_iff (bits : Nat) (target : Int) :
    (∃ pair, AreAddends (2 ^ bits) target pair) ↔ ¬(bits = 0 ∨ (bits = 1 ∧ target % 2 = 0)) := by
  constructor
  · rintro ⟨⟨a, b⟩, horder, hbound, hsum⟩ hbits
    simp only at horder hbound hsum
    rcases hbits with rfl | ⟨rfl, heven⟩
    · omega
    · obtain rfl : a = 0 := by omega
      obtain rfl : b = 1 := by omega
      rw [show ((2 ^ 1 : Nat) : Int) = 2 from rfl, heven] at hsum
      exact absurd hsum (by decide)
  · intro hbits
    have hpos : (0 : Int) < (2 ^ bits : Nat) := Int.natCast_pos.2 (Nat.two_pow_pos bits)
    obtain ⟨r, hr⟩ := Int.eq_ofNat_of_zero_le (Int.emod_nonneg target hpos.ne')
    have hlt : r < 2 ^ bits := Int.ofNat_lt.1 (hr ▸ Int.emod_lt_of_pos target hpos)
    by_cases hzero : r = 0
    -- Zero is the sum of 1 and the largest number, which is another one just from two bits on.
    · have hfour : 2 ^ 2 ≤ 2 ^ bits := by
        apply Nat.pow_le_pow_right (by decide)
        by_contra hlow
        have hone : bits = 1 := by omega
        subst hone
        exact hbits (.inr ⟨rfl, by simpa [hzero] using hr⟩)
      refine ⟨(1, 2 ^ bits - 1), by simp only; omega, by simp only; omega, ?_⟩
      have hsum : 1 + (2 ^ bits - 1) = 2 ^ bits := by omega
      rw [hr, hzero, hsum, Int.emod_self]
      rfl
    · refine ⟨(0, r), Nat.pos_of_ne_zero hzero, hlt, ?_⟩
      rw [hr, Nat.zero_add]
      exact Int.emod_eq_of_lt (Int.natCast_nonneg r) (Int.ofNat_lt.2 hlt)

/-- The bits that an assignment gives to the first number. -/
def first (bits : Nat) (σ : Assignment) : List Bool :=
  (List.range' 2 bits).map σ

/-- The bits that an assignment gives to the second number. -/
def second (bits : Nat) (σ : Assignment) : List Bool :=
  (List.range' (2 + bits) bits).map σ

/-- The two numbers that an assignment gives to the variables. -/
def pairOf (bits : Nat) (σ : Assignment) : Nat × Nat :=
  (littleEndian (first bits σ), littleEndian (second bits σ))

/-- Every two numbers below the modulus are given by some assignment. -/
theorem exists_pairOf {bits m n : Nat} (hm : m < 2 ^ bits) (hn : n < 2 ^ bits) :
    ∃ σ : Assignment, σ 1 = true ∧ pairOf bits σ = (m, n) := by
  let σ : Assignment := fun v =>
    if v < 2 then true
    else if v < 2 + bits then numberBit m (v - 2)
    else numberBit n (v - (2 + bits))
  have hvalue : ∀ value : Nat, value < 2 ^ bits →
      littleEndian ((List.range bits).map (numberBit value)) = value := by
    intro value hlt
    have hmod := littleEndian_numberBits bits value
    rw [Int.emod_eq_of_lt (Int.natCast_nonneg value) (by exact_mod_cast hlt)] at hmod
    exact Int.ofNat_inj.1 hmod
  have hfirst : first bits σ = (List.range bits).map (numberBit m) := by
    rw [first, List.range'_eq_map_range, List.map_map]
    refine List.map_congr_left fun i hi => ?_
    rw [List.mem_range] at hi
    have hlow : ¬2 + i < 2 := by omega
    simp only [σ, Function.comp, if_neg hlow, Nat.add_lt_add_iff_left, if_pos hi,
      Nat.add_sub_cancel_left]
  have hsecond : second bits σ = (List.range bits).map (numberBit n) := by
    rw [second, List.range'_eq_map_range, List.map_map]
    refine List.map_congr_left fun i hi => ?_
    have hlow : ¬2 + bits + i < 2 := by omega
    have hfirst : ¬2 + bits + i < 2 + bits := by omega
    simp only [σ, Function.comp, if_neg hlow, if_neg hfirst, Nat.add_sub_cancel_left]
  refine ⟨σ, rfl, ?_⟩
  rw [pairOf, hfirst, hsecond, hvalue m hm, hvalue n hn]

@[simp]
theorem length_first (bits : Nat) (σ : Assignment) : (first bits σ).length = bits := by
  simp [first]

@[simp]
theorem length_second (bits : Nat) (σ : Assignment) : (second bits σ).length = bits := by
  simp [second]

theorem pairOf_congr {bits : Nat} {σ τ : Assignment} (h : σ.AgreeUpTo (1 + bits + bits) τ) :
    pairOf bits σ = pairOf bits τ := by
  have hvalues : ∀ place, 1 ≤ place → place + bits ≤ 2 + bits + bits →
      (List.range' place bits).map σ = (List.range' place bits).map τ := by
    intro place hpos hle
    refine List.map_congr_left fun v hv => ?_
    rw [List.mem_range'_1] at hv
    exact h v (by omega) (by omega)
  rw [pairOf, pairOf, first, first, second, second, hvalues 2 (by omega) (by omega),
    hvalues (2 + bits) (by omega) le_rfl]

theorem dependsUpTo_pairOf {bits n : Nat} (hcount : 1 + bits + bits ≤ n) (P : Nat × Nat → Prop) :
    Assignment.DependsUpTo n fun σ => P (pairOf bits σ) :=
  fun _ _ hagree h => (congrArg P (pairOf_congr (hagree.mono hcount))).mp h

/-- The bits of the sum are those of the target just if the numbers have the sum. -/
theorem sumBits_eq_iff (bits : Nat) (target : Int) (σ : Assignment) :
    sumBits ((first bits σ).zip (second bits σ)) false =
        (List.range bits).map (numberBit target) ↔
      (((pairOf bits σ).1 + (pairOf bits σ).2 : Nat) : Int) % (2 ^ bits : Nat) =
        target % (2 ^ bits : Nat) := by
  have hlength : (first bits σ).length = (second bits σ).length := by
    rw [length_first, length_second]
  have hbits : (sumBits ((first bits σ).zip (second bits σ)) false).length =
      ((List.range bits).map (numberBit target)).length := by
    simp
  have hnumber := littleEndian_numberBits bits target
  rw [← littleEndian_inj hbits, littleEndian_sumBits hlength, length_first, ← Nat.cast_inj (R := Int),
    hnumber, pairOf]
  simp

/-! ### The clauses -/

def start (bits : Nat) : Solver Literal :=
  (new : Solver Literal).grown (1 + bits + bits) []

theorem ready_start (bits : Nat) : (start bits).Ready :=
  ready_variables (by omega)

def tensors (bits : Nat) : Tensor Literal × Tensor Literal :=
  (⟨⟨[bits]⟩, .ofList .dense (fresh 1 bits)⟩, ⟨⟨[bits]⟩, .ofList .dense (fresh (1 + bits) bits)⟩)

section Circuits

variable {s : Solver Literal} {bits : Nat} (engine : Engine)

theorem stores_first (hcount : 1 + bits + bits ≤ s.variableCount) (σ : Assignment) :
    (reading σ).Stores s (tensors bits).1.elems (first bits σ) :=
  stores_fresh ((Nat.le_add_right _ _).trans hcount)

theorem stores_second (hcount : 1 + bits + bits ≤ s.variableCount) (σ : Assignment) :
    (reading σ).Stores s (tensors bits).2.elems (second bits σ) := by
  rw [second, Nat.add_right_comm 1 1 bits]
  exact stores_fresh hcount

/-- The circuit that compares the sum with the target. -/
def sumEquals (bits : Nat) (target : Int) (a b : Tensor Literal) :
    ExceptT Error (SolverM Literal) (Storage Literal) := do
  let total ← (literalAlgebra engine).numAdd a.elems b.elems
  (literalAlgebra engine).numEq total (← (literalAlgebra engine).numLift bits target)

theorem returns_sumEquals (hs : s.Ready) (hcount : 1 + bits + bits ≤ s.variableCount) (target : Int)
    (σ : Assignment) :
    (reading σ).Returns s (sumEquals engine bits target (tensors bits).1 (tensors bits).2)
      fun t v => (reading σ).Stores t v
        [decide ((((pairOf bits σ).1 + (pairOf bits σ).2 : Nat) : Int) % (2 ^ bits : Nat) =
          target % (2 ^ bits : Nat))] := by
  have h := reading_realizes engine σ
  have hlength : (first bits σ).length = (second bits σ).length := by simp
  refine (h.returns_numAdd hs.pos (stores_first hcount σ).reads (stores_second hcount σ).reads
    hlength).bind fun t total ht htotal => ?_
  refine (h.gives_numLift (hs.pos.trans ht.variableCount_le) bits target).lift.bind
    fun u goal hu hgoal => ?_
  have hlater := hs.pos.trans (ht.trans hu).variableCount_le
  rw [← decide_eq_decide.2 (sumBits_eq_iff bits target σ)]
  refine h.returns_numEq hlater (htotal.grows hu).reads hgoal.reads ?_
  simp

/-- The clause over the equality demands that the numbers have the sum. -/
theorem run_demandSum (hs : s.Ready) (hcount : 1 + bits + bits ≤ s.variableCount) (target : Int) :
    ∃ t, (sumEquals engine bits target (tensors bits).1 (tensors bits).2 >>= fun v =>
        (literalAlgebra engine).addClause v.toList).run.run s = (.ok (), t) ∧
      Constrains s t fun σ => (((pairOf bits σ).1 + (pairOf bits σ).2 : Nat) : Int) %
        (2 ^ bits : Nat) = target % (2 ^ bits : Nat) := by
  obtain ⟨t, hrun, ht⟩ := run_demandTrue hs (returns_sumEquals engine hs hcount target)
    (dependsUpTo_pairOf hcount fun pair => decide (((pair.1 + pair.2 : Nat) : Int) %
      (2 ^ bits : Nat) = target % (2 ^ bits : Nat)) = true)
  exact ⟨t, hrun, ht.congr fun σ _ => decide_eq_true_iff⟩

/-- The clause over the comparison demands that the numbers are in order. -/
theorem run_demandOrder (hs : s.Ready) (hcount : 1 + bits + bits ≤ s.variableCount) :
    ∃ t, ((literalAlgebra engine).numLt (tensors bits).1.elems (tensors bits).2.elems >>= fun v =>
        (literalAlgebra engine).addClause v.toList).run.run s = (.ok (), t) ∧
      Constrains s t fun σ => (pairOf bits σ).1 < (pairOf bits σ).2 := by
  have hlength (σ : Assignment) : (first bits σ).length = (second bits σ).length := by
    simp
  have hless (σ : Assignment) : (!atMostBits ((second bits σ).zip (first bits σ)) true) =
      decide ((pairOf bits σ).1 < (pairOf bits σ).2) := by
    rw [atMostBits_eq (hlength σ).symm, ← decide_not, decide_eq_decide, pairOf, Bool.toNat_true]
    omega
  have hreturns (σ : Assignment) := (reading_realizes engine σ).returns_numLt hs.pos
    (stores_first hcount σ).reads (stores_second hcount σ).reads (hlength σ)
  simp only [hless] at hreturns
  obtain ⟨t, hrun, ht⟩ := run_demandTrue hs hreturns
    (dependsUpTo_pairOf hcount fun pair => decide (pair.1 < pair.2) = true)
  exact ⟨t, hrun, ht.congr fun σ _ => decide_eq_true_iff⟩

end Circuits

theorem demand_eq (engine : Engine) (bits : Nat) (target : Int) :
    demand (literalAlgebra engine) bits target = (do
      let a ← (literalAlgebra engine).tensorVariables ⟨[bits]⟩
      let b ← (literalAlgebra engine).tensorVariables ⟨[bits]⟩
      sumEquals engine bits target a b >>= fun v => (literalAlgebra engine).addClause v.toList
      (literalAlgebra engine).numLt a.elems b.elems >>= fun v =>
        (literalAlgebra engine).addClause v.toList
      return (a, b)) := by
  have hshape : Shape.ofInts [(bits : Int)] = .ok ⟨[bits]⟩ := Shape.ofInts_natCast [bits]
  simp only [demand, sumEquals, hshape, liftM_ok, bind_assoc, pure_bind]

/-- The clauses demand that the numbers are in order and have the sum. -/
theorem run_demand (engine : Engine) (bits : Nat) (target : Int) :
    ∃ t, (demand (literalAlgebra engine) bits target).run.run new = (.ok (tensors bits), t) ∧
      Constrains (start bits) t fun σ => AreAddends (2 ^ bits) target (pairOf bits σ) := by
  have hfirst := run_tensorVariables engine ⟨[bits]⟩ new
  have hsecond := run_tensorVariables engine ⟨[bits]⟩ (new.grown (1 + bits) [])
  have hsize : Shape.size ⟨[bits]⟩ = bits := Nat.mul_one bits
  rw [hsize] at hfirst hsecond
  have hcount : 1 + bits + bits ≤ (start bits).variableCount := le_rfl
  obtain ⟨t, hrun, ht⟩ := run_demandSum engine (ready_start bits) hcount target
  have hready := ht.ready (ready_start bits)
  obtain ⟨u, hrun', hu⟩ := run_demandOrder engine hready (hcount.trans ht.variableCount_le)
  refine ⟨u, ?_, ?_⟩
  · rw [demand_eq, run_bind_of_ok hfirst]
    refine (run_bind_of_ok hsecond).trans ?_
    rw [grown_grown]
    exact (run_bind_of_ok hrun).trans (run_bind_of_ok hrun')
  · refine (ht.trans hu (dependsUpTo_pairOf hcount fun pair => pair.1 < pair.2)).congr fun σ _ => ?_
    have hbound : (pairOf bits σ).2 < 2 ^ bits := by
      have hlt := littleEndian_lt (second bits σ)
      rwa [length_second] at hlt
    rw [AreAddends]
    tauto

/-! ### The search -/

/-- A search finds numbers in order with the sum, or there are none. -/
theorem run_search {engine : Engine} (hengine : engine.Correct) (bits : Nat) (target : Int) :
    (∃ (pair : Nat × Nat) (t : Solver Literal), AreAddends (2 ^ bits) target pair ∧
      (search (literalAlgebra engine) bits target).run.run new = (.ok (some pair), t)) ∨
    ((¬∃ pair, AreAddends (2 ^ bits) target pair) ∧ ∃ t : Solver Literal,
      (search (literalAlgebra engine) bits target).run.run new = (.ok none, t)) := by
  obtain ⟨t, hdemand, ht⟩ := run_demand engine bits target
  have hsize : Shape.size ⟨[bits]⟩ = bits := Nat.mul_one bits
  rcases ht.run_findModel (ready_start bits) hengine with
    ⟨σ, u, hσ, hfind, hcount, hmodel⟩ | ⟨hnone, u, hfind⟩
  · have hle := ht.variableCount_le
    have hfirst := run_tensorValues engine ⟨[bits]⟩ 1 hmodel hcount.ge
      (by rw [hsize]; exact (Nat.le_add_right _ _).trans hle)
    have hsecond := run_tensorValues engine ⟨[bits]⟩ (1 + bits) hmodel
      hcount.ge (by rw [hsize]; exact hle)
    rw [hsize] at hfirst hsecond
    refine .inl ⟨pairOf bits σ, u, hσ, ?_⟩
    rw [search, run_bind_of_ok hdemand, run_bind_of_ok hfind]
    refine (run_bind_of_ok hfirst).trans ((run_bind_of_ok hsecond).trans ?_)
    simp only [Storage.truths, Bits.toList_ofList, pairOf, first, second]
    rw [Nat.add_right_comm 1 bits 1]
    rfl
  · refine .inr ⟨?_, u, ?_⟩
    · rintro ⟨⟨m, n⟩, hpair⟩
      obtain ⟨σ, htop, hσ⟩ := exists_pairOf (hpair.1.trans hpair.2.1) hpair.2.1
      exact hnone σ ((holds_formula_new_grown σ).2 ⟨htop, rfl⟩) (hσ.symm ▸ hpair)
    · rw [search, run_bind_of_ok hdemand, run_bind_of_ok hfind]
      rfl

theorem solve_of_run {engine : Engine} {bits target : Int} {result} {t : Solver Literal}
    (h : (search (literalAlgebra engine) bits target).run.run new = (result, t)) :
    solve engine bits target = result.map fun found => (found, t.statistics) := by
  rw [solve]
  simp only [h]

/-- For every width and every target the search ends: with numbers in order whose sum is the target,
or without where there are none, and these are the widths and targets named here. Only a width below
zero is refused. -/
theorem solve_finds_addends (engine : Engine) (hengine : engine.Correct) (bits target : Int) :
    (bits < 0 → solve engine bits target = .error (.negativeDimension [bits])) ∧
    (0 ≤ bits → ∃ found statistics, solve engine bits target = .ok (found, statistics) ∧
      (∀ pair, found = some pair → AreAddends (2 ^ bits.toNat) target pair) ∧
      (found = none ↔ ¬∃ pair, AreAddends (2 ^ bits.toNat) target pair) ∧
      (found = none ↔ bits = 0 ∨ (bits = 1 ∧ target % 2 = 0))) := by
  constructor
  · intro hneg
    have hshape : Shape.ofInts [bits] = .error (.negativeDimension [bits]) :=
      Shape.ofInts_of_neg ⟨bits, by simp, hneg⟩
    have hsearch : (search (literalAlgebra engine) bits target).run.run new =
        (.error (.negativeDimension [bits]), new) := by
      rw [search, demand, hshape]
      rfl
    exact solve_of_run hsearch
  · intro hnonneg
    obtain ⟨n, rfl⟩ := Int.eq_ofNat_of_zero_le hnonneg
    have hnone : (¬∃ pair, AreAddends (2 ^ n) target pair) ↔ n = 0 ∨ (n = 1 ∧ target % 2 = 0) := by
      rw [exists_areAddends_iff, not_not]
    have hwidth : ((n : Int) = 0 ∨ ((n : Int) = 1 ∧ target % 2 = 0)) ↔
        n = 0 ∨ (n = 1 ∧ target % 2 = 0) := by
      simp
    rw [Int.toNat_natCast, hwidth, ← hnone]
    rcases run_search hengine n target with ⟨pair, t, hpair, hsearch⟩ | ⟨hno, t, hsearch⟩
    · refine ⟨some pair, t.statistics, solve_of_run hsearch, ?_, ?_, ?_⟩
      · rintro _ ⟨⟩
        exact hpair
      · exact iff_of_false (Option.some_ne_none pair) (not_not_intro ⟨pair, hpair⟩)
      · exact iff_of_false (Option.some_ne_none pair) (not_not_intro ⟨pair, hpair⟩)
    · refine ⟨none, t.statistics, solve_of_run hsearch, ?_, ?_, ?_⟩
      · rintro _ ⟨⟩
      · exact iff_of_true rfl hno
      · exact iff_of_true rfl hno

/-- Three bits have numbers with the sum -3, and one bit none with the sum 4. -/
theorem solve_finds_addends_searchEngine :
    searchEngine.Correct ∧
      (∃ pair statistics, solve searchEngine 3 (-3) = .ok (some pair, statistics) ∧
        AreAddends (2 ^ 3) (-3) pair) ∧
      (∃ statistics, solve searchEngine 1 4 = .ok (none, statistics)) ∧
      solve searchEngine (-1) 4 = .error (.negativeDimension [-1]) := by
  refine ⟨searchEngine_correct, ?_, ?_, ?_⟩
  · obtain ⟨found, statistics, hsolve, hpair, -, hnone⟩ :=
      (solve_finds_addends searchEngine searchEngine_correct 3 (-3)).2 (by decide)
    obtain ⟨pair, rfl⟩ := Option.ne_none_iff_exists'.1 fun h => absurd (hnone.1 h) (by decide)
    exact ⟨pair, statistics, hsolve, hpair pair rfl⟩
  · obtain ⟨found, statistics, hsolve, -, -, hnone⟩ :=
      (solve_finds_addends searchEngine searchEngine_correct 1 4).2 (by decide)
    obtain rfl := hnone.2 (by decide)
    exact ⟨statistics, hsolve⟩
  · exact (solve_finds_addends searchEngine searchEngine_correct (-1) 4).1 (by decide)

end Addends

end BoolTensor
