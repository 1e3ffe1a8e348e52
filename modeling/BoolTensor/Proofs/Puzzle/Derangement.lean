import BoolTensor.Proofs.Puzzle.Function
import BoolTensor.Proofs.Tensor.RowMajor

/-!
# Derangements are found

The clauses demand of a square of variables just that they are the relation of a derangement. So for
every size a right engine finds one, unless there is none, and the first true cell of each column is
its image.

## Main definitions

* `Derangement.related`: the relation of the variables under an assignment
* `Derangement.decoded`: the images that are read off a tensor under an assignment
-/

namespace BoolTensor

namespace Derangement

open Solver

variable {n : Nat}

/-! ### The variables -/

/-- The relation of the variables under an assignment. -/
def related (n : Nat) (σ : Assignment) (y x : Nat) : Bool :=
  σ (2 + Shape.offset ⟨[n, n]⟩ [y, x])

/-- The solver with a variable for each cell of a square. -/
def start (n : Nat) : Solver Literal :=
  new.grown (1 + Shape.size ⟨[n, n]⟩) []

def square (n : Nat) : Tensor Literal :=
  ⟨⟨[n, n]⟩, .ofList .dense (fresh 1 (Shape.size ⟨[n, n]⟩))⟩

theorem related_congr {σ τ : Assignment} (h : σ.AgreeUpTo (start n).variableCount τ) :
    ∀ y < n, ∀ x < n, related n σ y x = related n τ y x := by
  intro y hy x hx
  have hcoords : Shape.Contains ⟨[n, n]⟩ [y, x] := ⟨hy, hx, trivial⟩
  have hlt := Shape.offset_lt hcoords
  have hcount : (start n).variableCount = 1 + Shape.size ⟨[n, n]⟩ := rfl
  exact h _ (by omega) (by omega)

theorem dependsUpTo_irreflexive (n : Nat) :
    Assignment.DependsUpTo (start n).variableCount fun σ => ∀ x < n, related n σ x x = false := by
  intro σ τ hagree h x hx
  rw [← related_congr hagree x hx x hx]
  exact h x hx

theorem storesTensor_square {s : Solver Literal} (hs : (start n).variableCount ≤ s.variableCount)
    (σ : Assignment) : (reading σ).StoresTensor s (square n) ⟨[n, n]⟩ (atPair (related n σ)) := by
  refine (storesTensor_fresh hs).congr ?_
  simp only [Shape.forall_contains_cons, Shape.forall_contains_nil]
  exact fun y _ x _ => rfl

/-- With its dimensions swapped the square is read as the converse relation. -/
theorem exists_converse {s : Solver Literal} (hs : (start n).variableCount ≤ s.variableCount) :
    ∃ converse, (square n).polymer ⟨[n, n]⟩ [1, 0] = .ok converse ∧ ∀ σ,
      (reading σ).StoresTensor s converse ⟨[n, n]⟩ (atPair fun y x => related n σ x y) := by
  have hfits : Tensor.Fits ⟨[n, n]⟩ ⟨[n, n]⟩ [1, 0] := .cons rfl (.cons rfl .nil)
  obtain ⟨converse, t, hrun, -, hconverse⟩ := returns_forall fun σ =>
    (storesTensor_square hs σ).returns_polymer [1, 0] hfits
  rw [run_liftM_except] at hrun
  obtain ⟨hpolymer, rfl⟩ := Prod.mk.inj hrun
  exact ⟨converse, hpolymer, fun σ => (hconverse σ).congr fun coords _ => rfl⟩

/-- Every relation is that of some assignment. -/
theorem exists_related (n : Nat) (rel : Nat → Nat → Bool) :
    ∃ σ : Assignment, σ 1 = true ∧ ∀ y < n, ∀ x < n, related n σ y x = rel y x := by
  refine ⟨fun v => if v = 1 then true else
    atPair rel (Shape.coordinates ⟨[n, n]⟩ (v - 2)), rfl, fun y hy x hx => ?_⟩
  have hcoords : Shape.Contains ⟨[n, n]⟩ [y, x] := ⟨hy, hx, trivial⟩
  have hvariable : ¬2 + Shape.offset ⟨[n, n]⟩ [y, x] = 1 := by omega
  rw [related, if_neg hvariable, Nat.add_sub_cancel_left, Shape.coordinates_offset hcoords]
  rfl

/-! ### The clauses -/

section Demand

variable (engine : Engine)

/-- The tensor that is true where a place does not go to itself. -/
def moved (n : Nat) (rel : Tensor Literal) :
    ExceptT Error (SolverM Literal) (List (Tensor Literal)) := do
  let fixed ← (literalAlgebra engine).tensorGate .and rel
    (← (literalAlgebra engine).countedDiagonal n)
  return [← (literalAlgebra engine).tensorNot fixed]

theorem demand_eq (n : Nat) : demand (literalAlgebra engine) n = (do
    let rel ← (literalAlgebra engine).tensorVariables ⟨[n, n]⟩
    (literalAlgebra engine).demandFunction rel
    let converse ← liftM (rel.polymer ⟨[n, n]⟩ [1, 0])
    (literalAlgebra engine).demandFunction converse
    moved engine n rel >>= (literalAlgebra engine).tensorClauses
    return rel) := by
  have hshape : Shape.ofInts [(n : Int), (n : Int)] = .ok ⟨[n, n]⟩ := Shape.ofInts_natCast [n, n]
  simp only [demand, moved, hshape, liftM_ok, Int.toNat_natCast, bind_assoc, pure_bind]

theorem returns_moved {s : Solver Literal} (hs : s.Ready)
    (hcount : (start n).variableCount ≤ s.variableCount) (σ : Assignment) :
    (reading σ).Returns s (moved engine n (square n)) fun t tensors => tensors ≠ [] ∧
      List.Forall₂ (fun u f => (reading σ).StoresTensor t u ⟨[n, n]⟩ f) tensors
        [fun coords => !(atPair (related n σ) coords && coords.getD 0 0 == coords.getD 1 0)] := by
  have h := reading_realizes engine σ
  have hsquare := storesTensor_square hcount σ
  refine (h.returns_countedDiagonal hs.pos n).bind fun t diagonal ht hdiagonal => ?_
  have ht' := hs.pos.trans ht.variableCount_le
  refine (h.returns_tensorGate ht' .and (hsquare.grows ht) hdiagonal).bind fun u fixed hu hfixed => ?_
  have hu' := ht'.trans hu.variableCount_le
  refine (h.returns_tensorNot hu' hfixed).bind fun v free _ hfree => ?_
  exact .pure ⟨by simp, .cons hfree .nil⟩

theorem run_moved {s : Solver Literal} (hs : s.Ready)
    (hcount : (start n).variableCount ≤ s.variableCount) :
    ∃ t, (moved engine n (square n) >>= (literalAlgebra engine).tensorClauses).run.run s =
        (.ok (), t) ∧ Constrains s t fun σ => ∀ x < n, related n σ x x = false := by
  refine run_demandCells hs (returns_moved engine hs hcount) (fun σ => ?_) ?_
  · simp only [Shape.forall_contains_cons, Shape.forall_contains_nil, List.mem_singleton,
      exists_eq_left, atPair, List.getD_cons_zero, List.getD_cons_succ]
    constructor
    · intro h x hx
      simpa using h x hx x hx
    · intro h y hy x hx
      by_cases hyx : y = x
      · subst hyx
        simp [h y hy]
      · simp [hyx]
  · exact (dependsUpTo_irreflexive n).mono hcount

/-- The clauses demand that the variables are the relation of a derangement. -/
theorem run_demand (n : Nat) :
    ∃ t, (demand (literalAlgebra engine) n).run.run new = (.ok (square n), t) ∧
      Constrains (start n) t fun σ => IsRelation n (related n σ) := by
  have hready : (start n).Ready := ready_variables (Nat.le_add_right 1 _)
  -- The relation is a function, so is its converse, and no place stays where it is.
  obtain ⟨t, hrun, ht⟩ := run_demandFunction engine hready (storesTensor_square le_rfl)
    fun σ τ => related_congr
  have hcount := ht.variableCount_le
  obtain ⟨converse, hpolymer, hconverse⟩ := exists_converse hcount
  obtain ⟨u, hrun', hu⟩ := run_demandFunction engine (ht.ready hready) hconverse
    fun σ τ hagree y hy x hx => related_congr (hagree.mono hcount) x hx y hy
  have hready' := hu.ready (ht.ready hready)
  have hcount' := hcount.trans hu.variableCount_le
  obtain ⟨v, hrun'', hv⟩ := run_moved engine hready' hcount'
  refine ⟨v, ?_, ?_⟩
  · rw [demand_eq, run_bind_of_ok (run_tensorVariables engine _ new)]
    have hlift : (liftM ((square n).polymer ⟨[n, n]⟩ [1, 0]) :
        ExceptT Error (SolverM Literal) _).run.run t = (.ok converse, t) := by
      rw [hpolymer]
      rfl
    exact (run_bind_of_ok hrun).trans ((run_bind_of_ok hlift).trans
      ((run_bind_of_ok hrun').trans (run_bind_of_ok hrun'')))
  · refine ((ht.trans hu ?_).trans hv ?_).congr fun σ _ => ?_
    · exact fun σ τ hagree h => h.congr fun y hy x hx => related_congr hagree x hx y hy
    · exact dependsUpTo_irreflexive n
    · exact ⟨fun ⟨⟨hgraph, hconverse⟩, hmoved⟩ => ⟨hgraph, hconverse, hmoved⟩,
        fun ⟨hgraph, hconverse, hmoved⟩ => ⟨⟨hgraph, hconverse⟩, hmoved⟩⟩

end Demand

/-! ### Models -/

/-- The images that are read off a tensor under an assignment. -/
def decoded (size : Nat) (rel : Tensor Literal) (σ : Assignment) : Except Error (List Nat) :=
  let graph : Tensor Literal := ⟨rel.shape, .packed (.ofList (rel.elems.toList.map (Literal.holds σ)))⟩
  decode size graph

/-- The array of the values of the square has the relation as its entries. -/
theorem entry_square {σ : Assignment} {graph : Tensor Literal} (hshape : graph.shape = ⟨[n, n]⟩)
    (htruths : graph.elems.truths = (List.range' 2 (Shape.size ⟨[n, n]⟩)).map σ) {y x : Nat}
    (hy : y < n) (hx : x < n) :
    graph.toTruthArray.data.toArray.getD (y * n + x) false = related n σ y x := by
  obtain ⟨shape, elems⟩ := graph
  obtain rfl : shape = ⟨[n, n]⟩ := hshape
  have hcoords : Shape.Contains ⟨[n, n]⟩ [y, x] := ⟨hy, hx, trivial⟩
  have hlt := Shape.offset_lt hcoords
  have hplace : Shape.offset ⟨[n, n].reverse⟩ [y, x].reverse = y * n + x := by
    simp only [List.reverse_cons, List.reverse_nil, List.nil_append, List.cons_append, Shape.offset,
      Shape.offsetIn]
    ring
  have hentry := entry_toTruthArray (t := ⟨⟨[n, n]⟩, elems⟩) hcoords
  have hdims : (Tensor.toTruthArray ⟨⟨[n, n]⟩, elems⟩).dims = [n, n] := rfl
  rw [TruthArray.entry, hdims, hplace] at hentry
  rw [Array.getD_eq_getD_getElem?, List.getElem?_toArray, ← List.getD_eq_getElem?_getD, hentry,
    htruths]
  rw [List.getD_eq_getElem?_getD, List.getElem?_map, List.getElem?_range' hlt]
  simp [related]

/-- In a column with one true entry the row of this entry is found. -/
theorem firstTrue_of_entry {data : Array Bool} {rel : Nat → Nat → Bool} (h : IsGraph n rel)
    (hentry : ∀ y < n, ∀ x < n, data.getD (y * n + x) false = rel y x) {x : Nat} (hx : x < n) :
    firstTrue n data x = .ok ((imagesOf n rel).getD x 0) := by
  obtain ⟨y, ⟨hy, hyx⟩, hunique⟩ := h x hx
  have hfind : ((List.range n).find? fun y => data.getD (y * n + x) false) = some y := by
    rw [List.find?_range_eq_some]
    refine ⟨(hentry y hy x hx).trans hyx, List.mem_range.2 hy, fun z hz => ?_⟩
    rw [hentry z (hz.trans hy) x hx, Bool.not_eq_true', ← Bool.not_eq_true]
    exact fun hzx => hz.ne (hunique z ⟨hz.trans hy, hzx⟩)
  have hlt : x < (imagesOf n rel).length := by rwa [length_imagesOf]
  rw [firstTrue, hfind, List.getD_eq_getElem _ _ hlt, getElem_imagesOf h hx hy hyx hlt]

/-- No column of the graph of a function is refused. -/
theorem images_of_entry {graph : TruthArray} {rel : Nat → Nat → Bool} (h : IsGraph n rel)
    (hentry : ∀ y < n, ∀ x < n, graph.data.toArray.getD (y * n + x) false = rel y x) :
    images n graph = .ok (imagesOf n rel) := by
  have hcolumns : images n graph = pure ((List.range n).map fun x => (imagesOf n rel).getD x 0) :=
    mapM_eq_pure fun x hx => firstTrue_of_entry h hentry (List.mem_range.1 hx)
  rw [hcolumns]
  refine congrArg Except.ok (List.ext_getElem (by simp) fun x hx hlt => ?_)
  rw [List.getElem_map, List.getElem_range, List.getD_eq_getElem _ _ hlt]

/-- A square whose cells can be counted is within the limits of arrays. -/
theorem checkArray_square {α : Type} [Element α] {graph : Tensor α}
    (hshape : graph.shape = ⟨[n, n]⟩) (hlength : graph.elems.length = n * n)
    (hcount : graph.elems.length ≤ indexLimit) : graph.checkArray = .ok () := by
  rw [hlength] at hcount
  have hn : n ≤ indexLimit := (Nat.le_mul_self n).trans hcount
  have hdims := arrayDims_matrix hn hn hcount
  rw [Tensor.checkArray, hlength, hshape]
  exact congrArg (fun result => result >>= fun _ => pure ()) hdims

/-- The values of the square. -/
def values (n : Nat) (σ : Assignment) : Tensor Literal :=
  ⟨⟨[n, n]⟩, .packed (.ofList ((List.range' 2 (Shape.size ⟨[n, n]⟩)).map σ))⟩

theorem decoded_square (n : Nat) (σ : Assignment) :
    decoded n (square n) σ = decode n (values n σ) := by
  rw [decoded, square, holds_fresh]
  rfl

/-- What is read off a square of variables that are the graph of a function are its images. -/
theorem decode_values (n : Nat) {σ : Assignment} (h : IsGraph n (related n σ)) :
    decode n (values n σ) = .ok (imagesOf n (related n σ)) := by
  have htruths : (values n σ).elems.truths = (List.range' 2 (Shape.size ⟨[n, n]⟩)).map σ :=
    Bits.toList_ofList _
  have hlength : (values n σ).elems.length = n * n := by
    rw [← Storage.length_toList]
    simp [values, Storage.toList, Shape.size]
  have himages : images n (values n σ).toTruthArray = _ :=
    images_of_entry h fun y hy x hx => entry_square rfl htruths hy hx
  rw [decode]
  split_ifs with hcount
  · rw [checkArray_square rfl hlength hcount]
    exact himages
  · exact himages

/-- The clauses can be satisfied just if there is a derangement. -/
theorem satisfiable_iff {t : Solver Literal}
    (ht : Constrains (start n) t fun σ => IsRelation n (related n σ)) :
    t.formula.Satisfiable ↔ ∃ images, images.length = n ∧ IsDerangement images := by
  constructor
  · rintro ⟨σ, hσ⟩
    exact ⟨_, length_imagesOf n _, (ht.sound σ hσ).isDerangement⟩
  · rintro ⟨images, rfl, himages⟩
    obtain ⟨σ, htop, hσ⟩ := exists_related images.length fun y x => images[x]? == some y
    have hrelation := (isRelation_of_isDerangement himages).congr fun y hy x hx => (hσ y hy x hx).symm
    obtain ⟨τ, -, hτ⟩ := ht.complete σ ((holds_formula_new_grown σ).2 ⟨htop, rfl⟩) hrelation
    exact ⟨τ, hτ⟩

/-! ### The search -/

/-- A search finds a derangement, or the only place there is cannot move. -/
theorem run_search {engine : Engine} (hengine : engine.Correct) (n : Nat) :
    (∃ (images : List Nat) (t : Solver Literal), images.length = n ∧ IsDerangement images ∧ n ≠ 1 ∧
      (search (literalAlgebra engine) n).run.run new = (.ok (some images), t)) ∨
    (n = 1 ∧ ∃ t : Solver Literal,
      (search (literalAlgebra engine) n).run.run new = (.ok none, t)) := by
  obtain ⟨t, hdemand, ht⟩ := run_demand engine n
  have hready : (start n).Ready := ready_variables (Nat.le_add_right 1 _)
  rcases ht.run_findModel hready hengine with ⟨σ, u, hσ, hfind, hcount, hmodel⟩ | ⟨hnone, u, hfind⟩
  · have hvalues := run_tensorValues engine ⟨[n, n]⟩ 1 hmodel hcount.ge
      ht.variableCount_le
    have himages := length_imagesOf n (related n σ)
    have hmoved := hσ.isDerangement
    refine .inl ⟨imagesOf n (related n σ), u, himages, hmoved, ?_, ?_⟩
    · exact (exists_isDerangement_iff n).1 ⟨_, himages, hmoved⟩
    · rw [search, run_bind_of_ok hdemand, run_bind_of_ok hfind]
      refine (run_bind_of_ok hvalues).trans ?_
      have himages' : decode (n : Int).toNat (values n σ) = _ := decode_values n hσ.graph
      exact run_bind_of_ok ((run_liftM_except _ u).trans (congrArg (·, u) himages'))
  · refine .inr ⟨?_, u, ?_⟩
    · by_contra hn
      obtain ⟨τ, hτ⟩ := (satisfiable_iff ht).2 ((exists_isDerangement_iff n).2 hn)
      exact hnone τ (ht.grows.formula_holds hτ) (ht.sound τ hτ)
    · rw [search, run_bind_of_ok hdemand, run_bind_of_ok hfind]
      rfl

theorem solve_of_run {engine : Engine} {size : Int} {result} {t : Solver Literal}
    (h : (search (literalAlgebra engine) size).run.run new = (result, t)) :
    solve engine size = result.map fun found => (found, t.statistics) := by
  rw [solve]
  simp only [h]

/-- For every size the search ends: with a derangement of so many places, or without just where there
is only one. The clauses can be satisfied just if there is a derangement, and every model of them is
read as one. Only a size below zero is refused. -/
theorem solve_finds_derangement (engine : Engine) (hengine : engine.Correct) (size : Int) :
    (size < 0 → solve engine size = .error (.negativeDimension [size, size])) ∧
    (0 ≤ size →
      (∃ found statistics, solve engine size = .ok (found, statistics) ∧
        (∀ images, found = some images → images.length = size.toNat ∧ IsDerangement images) ∧
        (found = none ↔ size = 1)) ∧
      ∃ rel t, (demand (literalAlgebra engine) size).run.run new = (.ok rel, t) ∧
        (t.formula.Satisfiable ↔ ∃ images, images.length = size.toNat ∧ IsDerangement images) ∧
        ∀ σ : Assignment, t.formula.holds σ = true → ∃ images,
          decoded size.toNat rel σ = .ok images ∧ images.length = size.toNat ∧
            IsDerangement images) := by
  constructor
  · intro hneg
    have hshape : Shape.ofInts [size, size] = .error (.negativeDimension [size, size]) :=
      Shape.ofInts_of_neg ⟨size, by simp, hneg⟩
    have hsearch : (search (literalAlgebra engine) size).run.run new =
        (.error (.negativeDimension [size, size]), new) := by
      rw [search, demand, hshape]
      rfl
    exact solve_of_run hsearch
  · intro hnonneg
    obtain ⟨n, rfl⟩ := Int.eq_ofNat_of_zero_le hnonneg
    rw [Int.toNat_natCast]
    constructor
    · rcases run_search hengine n with ⟨images, t, hlength, himages, hn, hsearch⟩ | ⟨rfl, t, hsearch⟩
      · refine ⟨some images, t.statistics, solve_of_run hsearch, ?_, ?_⟩
        · rintro _ ⟨⟩
          exact ⟨hlength, himages⟩
        · exact iff_of_false (Option.some_ne_none images) fun h => hn (Int.ofNat_inj.1 h)
      · refine ⟨none, t.statistics, solve_of_run hsearch, ?_, ?_⟩
        · rintro _ ⟨⟩
        · exact iff_of_true rfl rfl
    · obtain ⟨t, hdemand, ht⟩ := run_demand engine n
      refine ⟨square n, t, hdemand, satisfiable_iff ht, fun σ hσ => ?_⟩
      have hrelation := ht.sound σ hσ
      have hdecoded := (decoded_square n σ).trans (decode_values n hrelation.graph)
      exact ⟨_, hdecoded, length_imagesOf n _, hrelation.isDerangement⟩

/-- Three places have a derangement, and one has none. -/
theorem solve_finds_derangement_searchEngine :
    searchEngine.Correct ∧
      (∃ images statistics, solve searchEngine 3 = .ok (some images, statistics) ∧
        images.length = 3 ∧ IsDerangement images) ∧
      (∃ statistics, solve searchEngine 1 = .ok (none, statistics)) ∧
      solve searchEngine (-1) = .error (.negativeDimension [-1, -1]) := by
  refine ⟨searchEngine_correct, ?_, ?_, ?_⟩
  · obtain ⟨found, statistics, hsolve, himages, hnone⟩ :=
      ((solve_finds_derangement searchEngine searchEngine_correct 3).2 (by decide)).1
    obtain ⟨images, rfl⟩ := Option.ne_none_iff_exists'.1 fun h => absurd (hnone.1 h) (by decide)
    exact ⟨images, statistics, hsolve, himages images rfl⟩
  · obtain ⟨found, statistics, hsolve, -, hnone⟩ :=
      ((solve_finds_derangement searchEngine searchEngine_correct 1).2 (by decide)).1
    obtain rfl := hnone.2 rfl
    exact ⟨statistics, hsolve⟩
  · exact (solve_finds_derangement searchEngine searchEngine_correct (-1)).1 (by decide)

end Derangement

end BoolTensor
