import BoolTensor.Proofs.Circuit.Binary
import BoolTensor.Proofs.Circuit.Clauses
import BoolTensor.Proofs.Solver.Cost

/-!
# What circuits cost

Circuits on tensors and numbers whose literals are of different variables have an exact cost, as far
as they are not refused: along the first dimension a gate less than the dimension for each cell that
is left, and in arithmetic one gate of each kind for each place. Negation, reindexing and constants
cost nothing, and clauses of tensors one clause for each cell.

## Main definitions

* `Solver.Costs`: computations that add the same numbers to all solvers with so many variables,
  unless they are refused
-/

namespace BoolTensor

namespace Solver

/-- On a solver with `k` variables the computation, unless it is refused, adds so many variables and
clauses, and gives what satisfies `P`. -/
def Costs {β : Type} (k : Nat) (x : ExceptT Error (SolverM Literal) β) (vars rows : Nat)
    (P : β → Prop) : Prop :=
  ∀ (s t : Solver Literal) (b : β), s.variableCount = k → x.run.run s = (.ok b, t) →
    s.Gained vars rows t ∧ P b

variable {k vars rows vars' rows' : Nat} {β γ : Type} {P : β → Prop} {Q : γ → Prop}

theorem natAbs_of_constants {s : Solver Literal} {elems : List Literal} {values : List Bool}
    (h : constants.ReadsList s elems values) : ∀ l ∈ elems, l.natAbs = 1 :=
  ((List.forall₂_and_left _ _).1 (h.imp fun _ value hl =>
    ⟨hl ▸ natAbs_lift value, hl⟩)).1

namespace Costs

theorem pure {b : β} (h : P b) : Costs k (Pure.pure b) 0 0 P := by
  intro s t b' _ hrun
  obtain ⟨hb, rfl⟩ := Prod.mk.inj ((run_pure b s).symm.trans hrun)
  obtain rfl := Except.ok.inj hb
  exact ⟨.refl s, h⟩

theorem bind {x : ExceptT Error (SolverM Literal) β} {f : β → ExceptT Error (SolverM Literal) γ}
    (hx : Costs k x vars rows P) (hf : ∀ b, P b → Costs (k + vars) (f b) vars' rows' Q) :
    Costs k (x >>= f) (vars + vars') (rows + rows') Q := by
  rintro s u c rfl hrun
  rcases hfirst : x.run.run s with ⟨_ | b, t⟩
  · rw [run_bind_of_error hfirst] at hrun
    cases hrun
  · rw [run_bind_of_ok hfirst] at hrun
    obtain ⟨hgained, hb⟩ := hx s t b rfl hfirst
    obtain ⟨hgained', hc⟩ := hf b hb t u c hgained.variableCount_eq hrun
    exact ⟨hgained.trans hgained', hc⟩

/-- What costs nothing may come first. -/
theorem free_bind {x : ExceptT Error (SolverM Literal) β}
    {f : β → ExceptT Error (SolverM Literal) γ} (hx : Costs k x 0 0 P)
    (hf : ∀ b, P b → Costs k (f b) vars rows Q) : Costs k (x >>= f) vars rows Q := by
  have h := hx.bind hf
  rwa [Nat.zero_add, Nat.zero_add] at h

theorem lift {x : SolverM Literal β} (h : Adds k x vars rows P) :
    Costs k (liftM x) vars rows P := by
  intro s t b hs hrun
  obtain ⟨hb, rfl⟩ := Prod.mk.inj ((run_liftM rfl).symm.trans hrun)
  obtain rfl := Except.ok.inj hb
  exact h s hs

/-- Checks cost nothing. -/
theorem of_except {x : Except Error β} (h : ∀ b, x = .ok b → P b) : Costs k (liftM x) 0 0 P := by
  intro s t b _ hrun
  obtain ⟨hb, rfl⟩ := Prod.mk.inj ((run_liftM_except x s).symm.trans hrun)
  exact ⟨.refl s, h b hb⟩

/-- What computes on constants costs nothing. -/
theorem of_constants {x : ExceptT Error (SolverM Literal) β}
    (h : ∀ s, constants.Returns s x fun _ b => P b) : Costs k x 0 0 P := by
  intro s t b _ hrun
  obtain ⟨b', t', hrun', hsame, hb⟩ := h s
  obtain ⟨hvalue, rfl⟩ := Prod.mk.inj (hrun'.symm.trans hrun)
  obtain rfl := Except.ok.inj hvalue
  obtain rfl : t' = s := hsame
  exact ⟨.refl t', hb⟩

/-- Computations of one cost, one after the other. -/
theorem mapM {f : β → ExceptT Error (SolverM Literal) γ} {items : List β}
    (h : ∀ item ∈ items, ∀ n, k ≤ n → Costs n (f item) vars rows fun _ => True) :
    Costs k (items.mapM f) (items.length * vars) (items.length * rows) fun _ => True := by
  induction items generalizing k with
  | nil =>
    rw [List.length_nil, Nat.zero_mul, Nat.zero_mul]
    exact pure trivial
  | cons item items ih =>
    rw [List.forall_mem_cons] at h
    rw [List.mapM_cons, List.length_cons, Nat.succ_mul, Nat.succ_mul, Nat.add_comm _ vars,
      Nat.add_comm _ rows]
    have htail : Costs (k + vars) (items.mapM f) _ _ fun _ => True :=
      ih fun item hitem n hn => h.2 item hitem n ((Nat.le_add_right k vars).trans hn)
    exact (h.1 k le_rfl).bind fun c _ => htail.bind fun cs _ => pure trivial

/-! ### Clauses -/

theorem addClause (engine : Engine) (clause : Clause) :
    Costs k ((literalAlgebra engine).addClause clause) 0 1 fun _ => True := by
  intro s t b _ hrun
  have hclause : ((literalAlgebra engine).addClause clause).run.run s = _ := run_addClause s clause
  rw [hclause] at hrun
  cases hfound : clause.find? fun l => !l.isAllocated s.variableCount with
  | some l =>
    rw [hfound] at hrun
    cases hrun
  | none =>
    rw [hfound] at hrun
    cases hrun
    exact ⟨⟨[clause], rfl, rfl⟩, trivial⟩

theorem forM_addClause (engine : Engine) (clauses : Formula) :
    Costs k (clauses.forM (literalAlgebra engine).addClause) 0 clauses.length fun _ => True := by
  induction clauses with
  | nil => exact pure trivial
  | cons clause clauses ih =>
    rw [List.length_cons, Nat.add_comm]
    exact (addClause engine clause).bind fun _ _ => ih

/-! ### Tensors -/

variable (engine : Engine) {shape : Shape} {t u : Tensor Literal}

/-- A tensor of variables takes one for each cell, and no clauses. -/
theorem tensorVariables_bind {f : Tensor Literal → ExceptT Error (SolverM Literal) γ}
    (hf : Costs (k + shape.size) (f ⟨shape, .ofList .dense (fresh k shape.size)⟩) vars rows Q) :
    Costs k ((literalAlgebra engine).tensorVariables shape >>= f) (shape.size + vars) rows Q := by
  rintro s t c rfl hrun
  rw [run_bind_of_ok (run_tensorVariables engine shape s)] at hrun
  obtain ⟨hgained, hc⟩ := hf _ t c rfl hrun
  have hvariables : s.Gained shape.size 0 (s.grown (s.variableCount + shape.size) []) :=
    ⟨[], rfl, rfl⟩
  exact ⟨Nat.zero_add rows ▸ hvariables.trans hgained, hc⟩

theorem tensorOf (shape : Shape) (elems : List Literal) :
    Costs k ((literalAlgebra engine).tensorOf shape elems) 0 0
      fun u => u.WellFormed ∧ u.shape = shape := by
  refine of_except fun u hu => ?_
  rw [Tensor.ofStorage] at hu
  split_ifs at hu with hsize
  cases hu
  exact ⟨hsize.symm, rfl⟩

theorem tensorNot (t : Tensor Literal) :
    Costs k ((literalAlgebra engine).tensorNot t) 0 0
      fun u => u.WellFormed ∧ u.shape = t.shape :=
  (lift (Adds.mapM (R := fun _ _ => True) fun _ _ => .pure trivial)).free_bind
    fun elems _ => tensorOf engine t.shape elems

theorem polymer (t : Tensor Literal) (target : Shape) (mapping : List Int) :
    Costs k (liftM (t.polymer target mapping)) 0 0 fun u => u.WellFormed ∧ u.shape = target :=
  of_except fun _ hu => ⟨(Tensor.of_polymer hu).1, (Tensor.of_polymer hu).2.1⟩

/-- The diagonal is made of constants. -/
theorem countedDiagonal (dim : Nat) :
    Costs k ((literalAlgebra engine).countedDiagonal dim) 0 0
      fun u => ∀ l ∈ u.elems.toList, l.natAbs = 1 :=
  of_constants fun _ => ((constants_realizes engine).returns_countedDiagonal trivial dim).imp
    fun _ _ _ hu => natAbs_of_constants hu.stores.reads

/-- Where cells meet constants their conjunction costs nothing. -/
theorem tensorGate_and (t : Tensor Literal) (hu : ∀ l ∈ u.elems.toList, l.natAbs = 1) :
    Costs k ((literalAlgebra engine).tensorGate .and t u) 0 0
      fun v => v.WellFormed ∧ v.shape = t.shape := by
  have hcheck : Costs k (BoolAlgebra.checkShapes t u) 0 0 fun _ => True := by
    rw [BoolAlgebra.checkShapes]
    split
    · exact pure trivial
    · exact fun s t b _ hrun => by cases hrun
  refine hcheck.free_bind fun _ _ => ?_
  refine (lift (Adds.mapM (R := fun _ _ => True) fun pair hpair => ?_)).free_bind
    fun elems _ => tensorOf engine t.shape elems
  exact .and_constant (hu pair.2 (List.of_mem_zip hpair).2)

/-- A gate along the first dimension takes one gate less than it has places, for each cell that is
left. -/
theorem tensorReduce (reduction : Reduction) {head : Nat} {rest : List Nat} (ht : t.WellFormed)
    (hshape : t.shape = ⟨head :: rest⟩) (hcells : Independent k t.elems.toList) :
    Costs k ((literalAlgebra engine).tensorReduce reduction t) (Shape.size ⟨rest⟩ * (head - 1))
      (Shape.size ⟨rest⟩ * ((head - 1) * reduction.gate.clauseCount))
      fun u => u.WellFormed ∧ u.shape = ⟨rest⟩ := by
  have hsplit : t.shape.splitFirst = .ok (head, ⟨rest⟩) := by
    rw [hshape]
    rfl
  have hlength : t.elems.length = Shape.size ⟨head :: rest⟩ := by
    rw [← hshape]
    exact ht
  have hcell : ∀ i ∈ List.range (Shape.size ⟨rest⟩), ∀ n, k ≤ n → Costs n (do
        (literalAlgebra engine).reduce reduction (← liftM (BoolAlgebra.firstAxisBlock t head i)) :
          ExceptT Error (SolverM Literal) Literal) (head - 1)
      ((head - 1) * reduction.gate.clauseCount) fun _ => True := by
    intro i hi n hn
    obtain ⟨block, hblock, helems⟩ := exists_firstAxisBlock hlength (List.mem_range.1 hi)
    have hblocklength : block.get.length = head := by
      have hend := Shape.block_le_size head (List.mem_range.1 hi)
      rw [helems, List.length_drop, List.length_take, Storage.length_toList, hlength]
      omega
    have hindependent : Independent n block.get := by
      rw [helems]
      exact (hcells.mono hn).sublist ((List.drop_sublist _ _).trans (List.take_sublist _ _))
    rw [hblock, liftM_ok, pure_bind]
    have hreduce := Adds.reduce engine reduction block hindependent
    rw [hblocklength] at hreduce
    exact lift hreduce
  have hcells := mapM hcell
  rw [List.length_range] at hcells
  rw [BoolAlgebra.tensorReduce, hsplit, liftM_ok, pure_bind]
  exact hcells.bind fun elems _ => tensorOf engine ⟨rest⟩ elems

/-- Clauses of tensors of one shape are as many as it has cells. -/
theorem tensorClauses {tensors : List (Tensor Literal)} (hne : tensors ≠ [])
    (h : ∀ u ∈ tensors, u.WellFormed ∧ u.shape = shape) :
    Costs k ((literalAlgebra engine).tensorClauses tensors) 0 shape.size fun _ => True := by
  have hlength : ∀ u ∈ tensors, u.elems.length = shape.size :=
    fun u hu => (h u hu).1.trans (congrArg Shape.size (h u hu).2)
  have hrows : (SatAlgebra.rowsOf shape.size (tensors.map (·.elems.toList))).length =
      shape.size := by
    rw [Tensor.rowsOf_eq_parallelCells (fun u hu => (h u hu).1) fun u hu => (h u hu).2,
      Tensor.parallelCells, Shape.length_cells]
  have hcost := forM_addClause (k := k) engine
    (SatAlgebra.rowsOf shape.size (tensors.map (·.elems.toList)))
  rw [hrows] at hcost
  rwa [tensorClauses_of_shape hne (fun u hu => (h u hu).2) hlength]

end Costs

/-! ### Numbers -/

theorem sublist_operands (a b : Literal) (pairs : List (Literal × Literal)) :
    [a, b].Sublist (((a, b) :: pairs).map Prod.fst ++ ((a, b) :: pairs).map Prod.snd) := by
  have hsecond : [b].Sublist (pairs.map Prod.fst ++ ((a, b) :: pairs).map Prod.snd) :=
    List.singleton_sublist.2 (by simp)
  exact hsecond.cons_cons a

/-- Numbers of one length have a first place. -/
theorem exists_zip_eq_cons {m : Nat} {literals others : List Literal}
    (hliterals : literals.length = m + 1) (hothers : others.length = m + 1) :
    ∃ a b pairs, literals.zip others = (a, b) :: pairs ∧ pairs.length = m := by
  obtain ⟨a, literals, rfl⟩ := List.exists_cons_of_length_eq_add_one hliterals
  obtain ⟨b, others, rfl⟩ := List.exists_cons_of_length_eq_add_one hothers
  refine ⟨a, b, literals.zip others, rfl, ?_⟩
  rw [List.length_zip, Nat.succ.inj hliterals, Nat.succ.inj hothers, Nat.min_self]

namespace Independent

variable {a b c l : Literal} {pairs : List (Literal × Literal)}

theorem zip {literals others : List Literal} (h : Independent k (literals ++ others))
    (hlength : literals.length = others.length) :
    Independent k ((literals.zip others).map Prod.fst ++ (literals.zip others).map Prod.snd) := by
  rwa [List.map_fst_zip hlength.le, List.map_snd_zip hlength.ge]

/-- The operands at the first place and what comes from below are of different variables. -/
theorem place (h : Independent k (c :: (((a, b) :: pairs).map Prod.fst ++
    ((a, b) :: pairs).map Prod.snd))) : Independent k [a, b, c] :=
  (h.sublist ((sublist_operands a b pairs).cons_cons c)).perm (@List.perm_append_comm _ [c] [a, b])

/-- What a place hands on is of a variable of its own, beside the operands above. -/
theorem above (h : Independent k (((a, b) :: pairs).map Prod.fst ++
      ((a, b) :: pairs).map Prod.snd)) {n : Nat} (hl : k < l.natAbs) (hn : l.natAbs ≤ n) :
    Independent n (l :: (pairs.map Prod.fst ++ pairs.map Prod.snd)) :=
  h.replace hl hn ((List.Sublist.refl _).append (List.sublist_cons_self b _))

end Independent

namespace Adds

variable (engine : Engine) {v w result : Storage Literal} {carry below : Literal}
  {pairs : List (Literal × Literal)} {bits : List Literal}

/-- Where the operands and the carry are of different variables a place takes a gate for its bit and
one for the carry, and the bits are of different variables again. -/
theorem ripple (hpairs : Independent k (carry :: (pairs.map Prod.fst ++ pairs.map Prod.snd)))
    (hresult : result.Holds .dense bits) (hbits : Independent k bits) :
    Adds k ((literalAlgebra engine).ripple pairs carry result) (pairs.length * 2)
      (pairs.length * 14) fun r => ∃ sum, r.Holds .dense sum ∧
        Independent (k + pairs.length * 2) sum ∧ sum.length = bits.length + pairs.length := by
  induction pairs generalizing k carry result bits with
  | nil => exact pure ⟨bits, hresult, hbits, rfl⟩
  | cons pair pairs ih =>
    obtain ⟨a, b⟩ := pair
    have hpos : 1 < k := by
      have hcarry := hpairs.bounds carry List.mem_cons_self
      omega
    have hvars : (pairs.length + 1) * 2 = 1 + (1 + pairs.length * 2) := by omega
    have hrows : (pairs.length + 1) * 14 = 8 + (6 + pairs.length * 14) := by omega
    rw [BoolAlgebra.ripple, List.length_cons, hvars, hrows]
    refine (sum3 hpairs.place).bind fun bit hbit => ?_
    refine (maj (hpairs.place.mono k.le_succ)).bind fun carry' hcarry' => ?_
    have habove := (hpairs.sublist (List.sublist_cons_self _ _)).above (n := k + 1 + 1)
      (l := carry') (by omega) (by omega)
    have hsum := hbits.concat (n := k + 1 + 1) hpos.le (l := bit) (by omega) (by omega)
    refine (ih habove (hresult.push bit) hsum).imp ?_
    rintro r ⟨sum, hr, hindependent, hlength⟩
    refine ⟨sum, hr, ?_, ?_⟩
    · simpa only [Nat.add_assoc] using hindependent
    · rw [hlength, List.length_append, List.length_singleton, Nat.add_assoc, Nat.add_comm 1]

/-- With a constant carry from below the gates of the first place are smaller. -/
theorem addWithCarry_lift {m : Nat} (hoperands : Independent k (v.toList ++ w.toList))
    (hv : v.toList.length = m + 1) (hw : w.toList.length = m + 1) (value : Bool) :
    Adds k ((literalAlgebra engine).addWithCarry v w (lift value)) (m * 2 + 2) (m * 14 + 7)
      fun r => ∃ sum, r.Holds .dense sum ∧ Independent (k + (m * 2 + 2)) sum ∧
        sum.length = m + 1 := by
  have hzip := hoperands.zip (hv.trans hw.symm)
  obtain ⟨a, b, pairs, hpairs, rfl⟩ := exists_zip_eq_cons hv hw
  rw [hpairs] at hzip
  have hpair : Independent k [a, b] := hzip.sublist (sublist_operands a b pairs)
  have hpos := hpair.bounds a List.mem_cons_self
  have hvars : pairs.length * 2 + 2 = 1 + (1 + pairs.length * 2) := by omega
  have hrows : pairs.length * 14 + 7 = 4 + (3 + pairs.length * 14) := by omega
  rw [BoolAlgebra.addWithCarry, hpairs, BoolAlgebra.ripple, hvars, hrows]
  refine (sum3_lift hpair value).bind fun bit hbit => ?_
  refine (maj_lift (hpair.mono k.le_succ) value).bind fun carry hcarry => ?_
  have habove := hzip.above (n := k + 1 + 1) (l := carry) (by omega) (by omega)
  have hsum := (Independent.nil k).concat (n := k + 1 + 1) (by omega) (l := bit) (by omega)
    (by omega)
  have hripple := ripple engine habove
    ((Storage.holds_withCapacity .dense (v.length : Int)).push bit) hsum
  refine hripple.imp ?_
  rintro r ⟨sum, hr, hindependent, hlength⟩
  refine ⟨sum, hr, ?_, hlength.trans (Nat.add_comm 1 _)⟩
  simpa only [Nat.add_assoc] using hindependent

/-- The comparison of operands of different variables takes a gate for each place. -/
theorem atMost (hpairs : Independent k (below :: (pairs.map Prod.fst ++ pairs.map Prod.snd))) :
    Adds k ((literalAlgebra engine).atMost pairs below) pairs.length (pairs.length * 6)
      fun _ => True := by
  induction pairs generalizing k below with
  | nil => exact pure trivial
  | cons pair pairs ih =>
    obtain ⟨a, b⟩ := pair
    have hvars : pairs.length + 1 = 1 + pairs.length := Nat.add_comm _ _
    have hrows : (pairs.length + 1) * 6 = 6 + pairs.length * 6 := by omega
    rw [BoolAlgebra.atMost, List.foldlM_cons, List.length_cons, hrows, hvars]
    refine (maj hpairs.place.neg_left).bind fun answer hanswer => ?_
    exact ih ((hpairs.sublist (List.sublist_cons_self _ _)).above (by omega) hanswer.le)

theorem atMost_lift {m : Nat} {literals others : List Literal}
    (hoperands : Independent k (literals ++ others)) (hliterals : literals.length = m + 1)
    (hothers : others.length = m + 1) (value : Bool) :
    Adds k ((literalAlgebra engine).atMost (literals.zip others) (lift value)) (m + 1) (m * 6 + 3)
      fun _ => True := by
  have hzip := hoperands.zip (hliterals.trans hothers.symm)
  obtain ⟨a, b, pairs, hpairs, rfl⟩ := exists_zip_eq_cons hliterals hothers
  rw [hpairs] at hzip
  have hpair : Independent k [a, b] := hzip.sublist (sublist_operands a b pairs)
  rw [hpairs, BoolAlgebra.atMost, List.foldlM_cons, Nat.add_comm _ 1, Nat.add_comm _ 3]
  refine (maj_lift hpair.neg_left value).bind fun answer hanswer => ?_
  exact atMost engine (hzip.above (by omega) hanswer.le)

end Adds

namespace Costs

variable (engine : Engine) {v w : Storage Literal} {m : Nat}

theorem checkLengths (v w : Storage Literal) :
    Costs k (BoolAlgebra.checkLengths v w) 0 0 fun _ => v.length = w.length := by
  rw [BoolAlgebra.checkLengths]
  split
  · exact pure ‹_›
  · exact fun s t b _ hrun => by cases hrun

theorem numAdd (hoperands : Independent k (v.toList ++ w.toList)) (hv : v.toList.length = m + 1)
    (hw : w.toList.length = m + 1) :
    Costs k ((literalAlgebra engine).numAdd v w) (m * 2 + 2) (m * 14 + 7) fun r =>
      ∃ sum, r.Holds .dense sum ∧ Independent (k + (m * 2 + 2)) sum ∧ sum.length = m + 1 := by
  refine (checkLengths v w).free_bind fun _ _ => ?_
  exact lift (Adds.addWithCarry_lift engine hoperands hv hw false)

/-- The bits of an integer are constants. -/
theorem numLift (length value : Int) :
    Costs k (liftM ((literalAlgebra engine).numLift length value)) 0 0
      fun v => ∀ l ∈ v.toList, l.natAbs = 1 :=
  of_constants fun _ => (((constants_realizes engine).gives_numLift trivial length value).lift).imp
    fun _ _ _ hv => natAbs_of_constants hv.reads

/-- The comparison with constants takes the conjunction of the places only. -/
theorem numEq (hv : Independent k v.toList) (hlength : v.toList.length = m + 1)
    (hw : ∀ l ∈ w.toList, l.natAbs = 1) :
    Costs k ((literalAlgebra engine).numEq v w) m (m * 3) fun _ => True := by
  have hbits : Costs k ((literalAlgebra engine).bitGate .equ v w) 0 0 fun r =>
      Independent k r.toList ∧ r.toList.length = m + 1 := by
    refine (checkLengths v w).free_bind fun _ hsame => ?_
    have hzip : (v.toList.zip w.toList).map Prod.fst = v.toList :=
      List.map_fst_zip (by simp [hsame])
    have hgates : Adds k ((v.toList.zip w.toList).mapM fun (a, b) =>
        (literalAlgebra engine).gate .equ a b) 0 0
        (List.Forall₂ (fun pair l => l.natAbs = pair.1.natAbs) (v.toList.zip w.toList)) :=
      .mapM fun pair hpair => .equ_constant (hv.bounds _ (List.of_mem_zip hpair).1).1
        (hw _ (List.of_mem_zip hpair).2)
    refine (lift hgates).free_bind fun elems helems => pure ?_
    have hsame : List.Forall₂ (fun a l => a.natAbs = l.natAbs) v.toList elems := by
      rw [← hzip, List.forall₂_map_left_iff]
      exact helems.imp fun _ _ hl => hl.symm
    have hlist : ((literalAlgebra engine).vector elems).toList = elems :=
      (Storage.holds_dense_ofList elems).toList_eq
    rw [hlist]
    exact ⟨hv.congr hsame, hsame.length_eq.symm.trans hlength⟩
  refine hbits.free_bind fun r hr => ?_
  have hreduce := Adds.reduce engine .all (Thunk.mk fun _ => r.toList) hr.1
  have hcount : (Thunk.mk fun _ => r.toList).get.length - 1 = m := by
    change r.toList.length - 1 = m
    rw [hr.2, Nat.add_sub_cancel]
  rw [hcount] at hreduce
  exact lift (hreduce.bind fun _ _ => .pure trivial)

/-- The comparison of numbers takes a gate for each place. -/
theorem numLt (hoperands : Independent k (w.toList ++ v.toList)) (hv : v.toList.length = m + 1)
    (hw : w.toList.length = m + 1) :
    Costs k ((literalAlgebra engine).numLt v w) (m + 1) (m * 6 + 3) fun _ => True := by
  have hcompare : Costs k ((literalAlgebra engine).numLe w v) (m + 1) (m * 6 + 3) fun _ => True :=
    (checkLengths w v).free_bind fun _ _ =>
      (lift (Adds.atMost_lift engine hoperands hw hv true)).bind fun _ _ => pure trivial
  have hnot (r : Storage Literal) :
      Adds (k + (m + 1)) ((literalAlgebra engine).bitNot r) 0 0 fun _ => True :=
    (Adds.mapM (R := fun _ _ => True) fun _ _ => .pure trivial).free_bind fun _ _ => .pure trivial
  exact hcompare.bind fun r _ => lift (hnot r)

end Costs

end Solver

end BoolTensor
