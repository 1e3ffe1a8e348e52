import BoolTensor.Proofs.Circuit.Cost
import BoolTensor.Proofs.Puzzle.Addends
import BoolTensor.Proofs.Puzzle.Derangement

/-!
# How large the searches are

The clauses of a search are built on variables that are all different, so that none of the gates on
them folds, except for those with a constant. Hence the number of variables and clauses is a
polynomial in the size, whatever the engine answers, and for numbers with a given sum whatever the
sum is.

## Main results

* `solve_sizes`: the variables and clauses of both searches
-/

namespace BoolTensor

/-- Values at different coordinates are different. -/
theorem Shape.nodup_cells {β : Type} {s : Shape} {f : List Nat → β}
    (h : ∀ coords others, s.Contains coords → s.Contains others → f coords = f others →
      coords = others) : (s.cells f).Nodup := by
  refine List.Nodup.map_on (fun i hi j hj heq => ?_) List.nodup_range
  rw [List.mem_range] at hi hj
  rw [← offset_coordinates hi, ← offset_coordinates hj,
    h _ _ (contains_coordinates hi) (contains_coordinates hj) heq]

namespace Solver

variable {k : Nat} {t u : Tensor Literal}

/-! ### Different variables -/

theorem independent_fresh (hk : 1 ≤ k) (count : Nat) :
    Independent (k + count) (fresh k count) := by
  constructor
  · have hvariables : (fresh k count).map Int.natAbs = List.range' (k + 1) count := by
      rw [fresh, List.map_map]
      exact List.map_id _
    rw [hvariables]
    exact List.nodup_range'
  · intro l hl
    obtain ⟨v, hv, rfl⟩ := List.mem_map.1 hl
    rw [List.mem_range'_1] at hv
    rw [Int.natAbs_natCast]
    omega

theorem fresh_append (k m n : Nat) : fresh k m ++ fresh (k + m) n = fresh k (m + n) := by
  rw [fresh, fresh, fresh, ← List.map_append, Nat.add_right_comm, List.range'_append_1]

theorem Independent.eq_of_cellAt (h : Independent k t.elems.toList) (ht : t.WellFormed)
    {coords others : List Nat} (hcoords : t.shape.Contains coords)
    (hothers : t.shape.Contains others)
    (heq : (t.cellAt coords).natAbs = (t.cellAt others).natAbs) : coords = others := by
  have hplace {coords : List Nat} (hcoords : t.shape.Contains coords) :
      t.shape.offset coords < t.elems.toList.length := by
    rw [Storage.length_toList, ht]
    exact Shape.offset_lt hcoords
  have hoffset : t.shape.offset coords = t.shape.offset others := by
    rw [Tensor.cellAt, Tensor.cellAt, List.getD_eq_getElem _ _ (hplace hcoords),
      List.getD_eq_getElem _ _ (hplace hothers)] at heq
    refine (List.getElem?_inj ((List.length_map _).symm ▸ hplace hcoords) h.distinct).1 ?_
    rw [List.getElem?_map, List.getElem?_map, List.getElem?_eq_getElem (hplace hcoords),
      List.getElem?_eq_getElem (hplace hothers), Option.map_some, Option.map_some, heq]
  rw [← Shape.coordinates_offset hcoords, hoffset, Shape.coordinates_offset hothers]

/-- Where no cell is read twice the reindexed cells are of different variables again. -/
theorem Independent.polymer (h : Independent k t.elems.toList) (ht : t.WellFormed)
    {target : Shape} {places : List Nat} (hfits : Tensor.Fits t.shape target places)
    (hinj : ∀ coords others, target.Contains coords → target.Contains others →
      Tensor.sourceCoords places coords = Tensor.sourceCoords places others → coords = others)
    (hu : t.polymer target (places.map Int.ofNat) = .ok u) : Independent k u.elems.toList := by
  obtain ⟨hwell, rfl, -⟩ := Tensor.of_polymer hu
  have hcell : ∀ coords, u.shape.Contains coords →
      u.cellAt coords = t.cellAt (Tensor.sourceCoords places coords) := by
    intro coords hcoords
    have hget := Tensor.get_of_polymer ht hfits hu hcoords
    rw [Tensor.get_eq_cellAt hwell hcoords, Tensor.get_eq_cellAt ht (hfits.contains hcoords)] at hget
    exact Except.ok.inj hget
  rw [← Tensor.cells_cellAt hwell, Shape.cells_congr hcell]
  constructor
  · rw [Shape.map_cells]
    refine Shape.nodup_cells fun coords others hcoords hothers heq => ?_
    refine hinj coords others hcoords hothers ?_
    exact h.eq_of_cellAt ht (hfits.contains hcoords) (hfits.contains hothers) heq
  · rw [Shape.forall_mem_cells]
    exact fun coords hcoords => h.bounds _ (Tensor.cellAt_mem ht (hfits.contains hcoords))

/-! ### Solving adds nothing -/

/-- A solve leaves variables and clauses, whatever the engine answers. -/
theorem Ready.findModel_keeps {s : Solver Literal} (hs : s.Ready) (engine : Engine) :
    ∃ result t, ((literalAlgebra engine).findModel []).run.run s = (result, t) ∧
      t.variableCount = s.variableCount ∧ t.clauses = s.clauses ∧
      (result = .ok true → ∃ σ : Assignment, t.model = some ⟨s.variableCount, σ⟩) ∧
      (engine.Decides → ∃ answer, result = .ok answer) := by
  refine ⟨_, _, hs.findModel_eq engine (List.forall_mem_nil _), ?_, ?_, fun hanswer => ?_,
    fun hdecides => hdecides.exists_answer _⟩
  · rw [submit_eq]
  · rw [submit_eq]
  · obtain ⟨σ, hσ⟩ := Verdict.answer_eq_true_iff.1 hanswer
    exact ⟨σ, by rw [hσ]; rfl⟩

/-! ### Functions -/

namespace Costs

variable (engine : Engine) {n : Nat}

theorem hasImage (ht : t.WellFormed) (hshape : t.shape = ⟨[n, n]⟩)
    (hcells : Independent k t.elems.toList) :
    Costs k (Solver.hasImage engine t) (n * (n - 1)) (n * ((n - 1) * 3)) fun tensors =>
      tensors ≠ [] ∧ ∀ u ∈ tensors, u.WellFormed ∧ u.shape = ⟨[n]⟩ := by
  have hreduce := tensorReduce engine .any ht hshape hcells
  rw [show Shape.size ⟨[n]⟩ = n from Nat.mul_one n] at hreduce
  refine hreduce.bind fun u hu => pure ⟨List.cons_ne_nil _ _, ?_⟩
  exact List.forall_mem_singleton.2 hu

theorem sameImage (t : Tensor Literal) :
    Costs k (Solver.sameImage engine n t) 0 0 fun tensors =>
      tensors ≠ [] ∧ ∀ u ∈ tensors, u.WellFormed ∧ u.shape = ⟨[n, n, n]⟩ := by
  refine (polymer t ⟨[n, n, n]⟩ [0, 2]).free_bind fun first hfirst => ?_
  refine (polymer t ⟨[n, n, n]⟩ [1, 2]).free_bind fun second hsecond => ?_
  refine (countedDiagonal engine n).free_bind fun diagonal _ => ?_
  refine (polymer diagonal ⟨[n, n, n]⟩ [0, 1]).free_bind fun equal hequal => ?_
  refine (tensorNot engine first).free_bind fun notFirst hnotFirst => ?_
  refine (tensorNot engine second).free_bind fun notSecond hnotSecond => ?_
  rw [hfirst.2] at hnotFirst
  rw [hsecond.2] at hnotSecond
  refine pure ⟨List.cons_ne_nil _ _, ?_⟩
  simp only [List.forall_mem_cons]
  exact ⟨hnotFirst, hnotSecond, hequal, List.forall_mem_nil _⟩

/-- A square of different variables is demanded to be a function by a disjunction for each column,
and by a clause for each column and each two rows. -/
theorem demandFunction (ht : t.WellFormed) (hshape : t.shape = ⟨[n, n]⟩)
    (hcells : Independent k t.elems.toList) :
    Costs k ((literalAlgebra engine).demandFunction t) (n * (n - 1))
      (n * ((n - 1) * 3) + Shape.size ⟨[n]⟩ + Shape.size ⟨[n, n, n]⟩) fun _ => True := by
  have himage : Costs k (Solver.hasImage engine t >>= (literalAlgebra engine).tensorClauses)
      (n * (n - 1)) (n * ((n - 1) * 3) + Shape.size ⟨[n]⟩) fun _ => True :=
    (hasImage engine ht hshape hcells).bind fun _ h => tensorClauses engine h.1 h.2
  have hsame : Costs (k + n * (n - 1))
      (Solver.sameImage engine n t >>= (literalAlgebra engine).tensorClauses) 0
      (Shape.size ⟨[n, n, n]⟩) fun _ => True :=
    (sameImage engine t).free_bind fun _ h => tensorClauses engine h.1 h.2
  rw [demandFunction_eq engine hshape]
  exact himage.bind fun _ _ => hsame

end Costs

end Solver

namespace Derangement

open Solver

theorem wellFormed_square (n : Nat) : (square n).WellFormed := by
  rw [Tensor.WellFormed, ← Storage.length_toList, square, Storage.toList_ofList, List.length_map,
    length_fresh]

theorem independent_square (n : Nat) :
    Independent (1 + Shape.size ⟨[n, n]⟩) (square n).elems.toList := by
  have hcells : (square n).elems.toList = fresh 1 (Shape.size ⟨[n, n]⟩) :=
    (Storage.holds_dense_ofList _).toList_eq
  rw [hcells]
  exact independent_fresh le_rfl _

/-- The converse reads each cell of the square once. -/
theorem independent_converse {n : Nat} {converse : Tensor Literal}
    (h : (square n).polymer ⟨[n, n]⟩ [1, 0] = .ok converse) :
    Independent (1 + Shape.size ⟨[n, n]⟩) converse.elems.toList := by
  have hfits : Tensor.Fits (square n).shape ⟨[n, n]⟩ [1, 0] := .cons rfl (.cons rfl .nil)
  refine (independent_square n).polymer (wellFormed_square n) hfits ?_ h
  have hpairs : ∀ coords, Shape.Contains ⟨[n, n]⟩ coords → ∃ y x, coords = [y, x] := by
    simp only [Shape.forall_contains_cons, Shape.forall_contains_nil]
    exact fun y _ x _ => ⟨y, x, rfl⟩
  intro coords others hcoords hothers heq
  obtain ⟨y, x, rfl⟩ := hpairs coords hcoords
  obtain ⟨z, w, rfl⟩ := hpairs others hothers
  obtain ⟨hx, hy⟩ : x = w ∧ y = z := by simpa [Tensor.sourceCoords] using heq
  rw [hx, hy]

/-- The variables and clauses that the demand for a derangement adds to a new solver. -/
theorem costs_demand (engine : Engine) (n : Nat) :
    Costs 1 (demand (literalAlgebra engine) n)
      (Shape.size ⟨[n, n]⟩ + (n * (n - 1) + n * (n - 1)))
      ((n * ((n - 1) * 3) + Shape.size ⟨[n]⟩ + Shape.size ⟨[n, n, n]⟩) +
        ((n * ((n - 1) * 3) + Shape.size ⟨[n]⟩ + Shape.size ⟨[n, n, n]⟩) + Shape.size ⟨[n, n]⟩))
      fun _ => True := by
  have hmoved (k : Nat) : Costs k (moved engine n (square n)) 0 0 fun tensors =>
      tensors ≠ [] ∧ ∀ u ∈ tensors, u.WellFormed ∧ u.shape = ⟨[n, n]⟩ := by
    refine (Costs.countedDiagonal engine n).free_bind fun diagonal hdiagonal => ?_
    refine (Costs.tensorGate_and engine (square n) hdiagonal).free_bind fun fixed hfixed => ?_
    refine (Costs.tensorNot engine fixed).free_bind fun free hfree => ?_
    rw [hfixed.2] at hfree
    exact .pure ⟨List.cons_ne_nil _ _, List.forall_mem_singleton.2 hfree⟩
  have hlast (k : Nat) : Costs k (moved engine n (square n) >>=
      (literalAlgebra engine).tensorClauses) 0 (Shape.size ⟨[n, n]⟩) fun _ => True :=
    (hmoved k).free_bind fun _ h => Costs.tensorClauses engine h.1 h.2
  have hrest (k : Nat) : Costs k (do
      moved engine n (square n) >>= (literalAlgebra engine).tensorClauses
      return square n) 0 (Shape.size ⟨[n, n]⟩) fun _ => True :=
    (hlast k).bind fun _ _ => .pure trivial
  have hcells := independent_square n
  rw [demand_eq]
  refine Costs.tensorVariables_bind engine ?_
  refine (Costs.demandFunction engine (wellFormed_square n) rfl hcells).bind fun _ _ => ?_
  refine (Costs.of_except fun _ h => h).free_bind fun converse hconverse => ?_
  obtain ⟨hwell, hshape, -⟩ := Tensor.of_polymer hconverse
  have hreads := (independent_converse hconverse).mono (Nat.le_add_right _ (n * (n - 1)))
  exact (Costs.demandFunction engine hwell hshape hreads).bind fun _ _ => hrest _

/-- The search ends with what the demand has added, whatever the engine answers. -/
theorem run_search_size (engine : Engine) (n : Nat) :
    ∃ result t, (search (literalAlgebra engine) n).run.run new = (result, t) ∧
      (t.variableCount : Int) = 3 * n ^ 2 - 2 * n + 1 ∧
      (t.clauses.size : Int) = 2 * n ^ 3 + 7 * n ^ 2 - 4 * n + 1 := by
  obtain ⟨t, hdemand, ht⟩ := run_demand engine n
  have hready : (start n).Ready := ready_variables (Nat.le_add_right 1 _)
  have hgained := (costs_demand engine n new t (square n) rfl hdemand).1
  have hvariables : (t.variableCount : Int) = 3 * n ^ 2 - 2 * n + 1 := by
    rw [hgained.variableCount_eq]
    cases n with
    | zero => rfl
    | succ m =>
      simp [Shape.size, new]
      ring
  have hclauses : (t.clauses.size : Int) = 2 * n ^ 3 + 7 * n ^ 2 - 4 * n + 1 := by
    rw [hgained.size_clauses]
    cases n with
    | zero => rfl
    | succ m =>
      simp [Shape.size, new]
      ring
  obtain ⟨result, u, hfind, hcount, hsame, hmodel, -⟩ := (ht.ready hready).findModel_keeps engine
  have hsearch : ((search (literalAlgebra engine) n).run.run new).2 = u := by
    rw [search, run_bind_of_ok hdemand]
    cases result with
    | error e => rw [run_bind_of_error hfind]
    | ok answer =>
      rw [run_bind_of_ok hfind]
      cases answer with
      | false => rfl
      | true =>
        -- Reading the model changes nothing, also where no permutation is read.
        obtain ⟨σ, hσ⟩ := hmodel rfl
        have hvalues := run_tensorValues engine ⟨[n, n]⟩ 1 hσ hcount.ge ht.variableCount_le
        refine (congrArg Prod.snd (run_bind_of_ok hvalues)).trans ?_
        rw [run_bind_pure_snd, run_liftM_except]
  exact ⟨_, u, Prod.ext rfl hsearch, hcount ▸ hvariables, hsame ▸ hclauses⟩

end Derangement

namespace Addends

open Solver

/-- The variables and clauses that the demand for a sum adds to a new solver. -/
theorem costs_demand (engine : Engine) (m : Nat) (target : Int) :
    Costs 1 (demand (literalAlgebra engine) (m + 1 : Nat) target)
      (Shape.size ⟨[m + 1]⟩ + (Shape.size ⟨[m + 1]⟩ + ((m * 2 + 2 + m) + (m + 1))))
      ((m * 14 + 7 + m * 3 + 1) + (m * 6 + 3 + 1)) fun _ => True := by
  have hsize : Shape.size ⟨[m + 1]⟩ = m + 1 := Nat.mul_one _
  have hlist (k count : Nat) : (Storage.ofList .dense (fresh k count)).toList = fresh k count :=
    (Storage.holds_dense_ofList _).toList_eq
  rw [demand_eq]
  refine Costs.tensorVariables_bind engine (Costs.tensorVariables_bind engine ?_)
  simp only [hsize]
  have hoperands : Independent (1 + (m + 1) + (m + 1))
      ((Storage.ofList .dense (fresh 1 (m + 1))).toList ++
        (Storage.ofList .dense (fresh (1 + (m + 1)) (m + 1))).toList) := by
    rw [hlist, hlist, fresh_append, Nat.add_assoc]
    exact independent_fresh le_rfl _
  have hlength (k : Nat) : (Storage.ofList .dense (fresh k (m + 1))).toList.length = m + 1 := by
    rw [hlist, length_fresh]
  have hsum : Costs (1 + (m + 1) + (m + 1)) (sumEquals engine (m + 1) target
      ⟨⟨[m + 1]⟩, .ofList .dense (fresh 1 (m + 1))⟩
      ⟨⟨[m + 1]⟩, .ofList .dense (fresh (1 + (m + 1)) (m + 1))⟩) (m * 2 + 2 + m)
      (m * 14 + 7 + m * 3) fun _ => True := by
    refine (Costs.numAdd engine hoperands (hlength _) (hlength _)).bind fun total htotal => ?_
    obtain ⟨sum, hholds, hsum, hcount⟩ := htotal
    rw [← hholds.toList_eq] at hsum hcount
    exact (Costs.numLift engine _ target).free_bind fun goal hgoal =>
      Costs.numEq engine hsum hcount hgoal
  have hless (k : Nat) (hk : 1 + (m + 1) + (m + 1) ≤ k) : Costs k
      ((literalAlgebra engine).numLt (.ofList .dense (fresh 1 (m + 1)))
        (.ofList .dense (fresh (1 + (m + 1)) (m + 1)))) (m + 1) (m * 6 + 3) fun _ => True :=
    Costs.numLt engine ((hoperands.mono hk).perm List.perm_append_comm) (hlength _) (hlength _)
  refine Costs.bind (hsum.bind fun v _ => Costs.addClause engine v.toList) fun _ _ => ?_
  exact ((hless _ (Nat.le_add_right _ _)).bind fun v _ => Costs.addClause engine v.toList).bind
    fun _ _ => .pure trivial

/-- The search ends with what the demand has added, whatever the engine answers. -/
theorem run_search_size (engine : Engine) (m : Nat) (target : Int) :
    ∃ result t, (search (literalAlgebra engine) (m + 1 : Nat) target).run.run new = (result, t) ∧
      t.variableCount = 6 * (m + 1) ∧ t.clauses.size = 23 * m + 13 ∧
      (engine.Decides → ∃ found, result = .ok found) := by
  obtain ⟨t, hdemand, ht⟩ := run_demand engine (m + 1) target
  have hsize : Shape.size ⟨[m + 1]⟩ = m + 1 := Nat.mul_one _
  have hgained := (costs_demand engine m target new t _ rfl hdemand).1
  have hvariables : t.variableCount = 6 * (m + 1) := by
    rw [hgained.variableCount_eq, hsize, show (new : Solver Literal).variableCount = 1 from rfl]
    omega
  have hclauses : t.clauses.size = 23 * m + 13 := by
    rw [hgained.size_clauses, show (new : Solver Literal).clauses.size = 1 from rfl]
    omega
  obtain ⟨result, u, hfind, hcount, hsame, hmodel, hdecides⟩ :=
    (ht.ready (ready_start (m + 1))).findModel_keeps engine
  have hsearch : ∃ found,
      (search (literalAlgebra engine) (m + 1 : Nat) target).run.run new = (found, u) ∧
        ((∃ answer, result = .ok answer) → ∃ pair, found = .ok pair) := by
    rw [search, run_bind_of_ok hdemand]
    cases result with
    | error e => exact ⟨_, run_bind_of_error hfind, by simp⟩
    | ok answer =>
      rw [run_bind_of_ok hfind]
      cases answer with
      | false => exact ⟨_, rfl, fun _ => ⟨none, rfl⟩⟩
      | true =>
        obtain ⟨σ, hσ⟩ := hmodel rfl
        have hle := ht.variableCount_le
        have hfirst := run_tensorValues engine ⟨[m + 1]⟩ 1 hσ hcount.ge
          (by rw [hsize]; exact (Nat.le_add_right _ _).trans hle)
        have hsecond := run_tensorValues engine ⟨[m + 1]⟩ (1 + (m + 1)) hσ hcount.ge
          (by rw [hsize]; exact hle)
        rw [hsize] at hfirst hsecond
        exact ⟨_, (run_bind_of_ok hfirst).trans (run_bind_of_ok hsecond), fun _ => ⟨_, rfl⟩⟩
  obtain ⟨found, hfound, hanswered⟩ := hsearch
  exact ⟨found, u, hfound, hcount ▸ hvariables, hsame ▸ hclauses, fun h => hanswered (hdecides h)⟩

end Addends

/-- For every size the search for a derangement ends with so many variables and clauses, and for
every width above zero the search for two numbers with a sum does, whatever the sum is. The engine
makes no difference for them. With one that is right both searches return, the second one with any
that decides. -/
theorem solve_sizes (engine : Engine) :
    (∀ n : Nat, ∃ (result : Except Error (Option (List Nat))) (t : Solver Literal),
      (Derangement.search (literalAlgebra engine) n).run.run Solver.new = (result, t) ∧
      t.statistics.variableCount = 3 * n ^ 2 - 2 * n + 1 ∧
      t.statistics.clauseCount = 2 * n ^ 3 + 7 * n ^ 2 - 4 * n + 1 ∧
      Derangement.solve engine n = result.map (fun found => (found, t.statistics)) ∧
      (engine.Correct → ∃ found, result = .ok found)) ∧
    ∀ bits : Nat, 1 ≤ bits → ∀ target : Int,
      ∃ (result : Except Error (Option (Nat × Nat))) (t : Solver Literal),
        (Addends.search (literalAlgebra engine) bits target).run.run Solver.new = (result, t) ∧
        t.statistics.variableCount = 6 * bits ∧ t.statistics.clauseCount = 23 * bits - 10 ∧
        Addends.solve engine bits target = result.map (fun found => (found, t.statistics)) ∧
        (engine.Decides → ∃ found, result = .ok found) := by
  constructor
  · intro n
    obtain ⟨result, t, hsearch, hvariables, hclauses⟩ := Derangement.run_search_size engine n
    refine ⟨result, t, hsearch, hvariables, hclauses, Derangement.solve_of_run hsearch,
      fun hengine => ?_⟩
    obtain ⟨images, u, -, -, -, hfound⟩ | ⟨-, u, hfound⟩ := Derangement.run_search hengine n
    · exact ⟨_, congrArg Prod.fst (hsearch.symm.trans hfound)⟩
    · exact ⟨_, congrArg Prod.fst (hsearch.symm.trans hfound)⟩
  · intro bits hbits target
    obtain ⟨m, rfl⟩ := Nat.exists_eq_add_of_le' hbits
    obtain ⟨result, t, hsearch, hvariables, hclauses, hfound⟩ :=
      Addends.run_search_size engine m target
    refine ⟨result, t, hsearch, ?_, ?_, Addends.solve_of_run hsearch, hfound⟩
    · simp only [Solver.statistics]
      omega
    · simp only [Solver.statistics]
      omega

/-- Two bits take 12 variables and 36 clauses, whether there are numbers with the sum or not. -/
theorem solve_sizes_two_bits : 1 ≤ 2 ∧ searchEngine.Decides ∧ ∃ found statistics,
    Addends.solve searchEngine 2 (-3) = .ok (found, statistics) ∧
      statistics.variableCount = 12 ∧ statistics.clauseCount = 36 := by
  have hdecides := searchEngine_correct.decides
  obtain ⟨result, t, -, hvariables, hclauses, hsolve, hfound⟩ :=
    (solve_sizes searchEngine).2 2 (by decide) (-3)
  obtain ⟨found, rfl⟩ := hfound hdecides
  exact ⟨by decide, hdecides, found, t.statistics, hsolve, hvariables, hclauses⟩

end BoolTensor
