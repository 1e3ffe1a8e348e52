import BoolTensor.Algebra.Given
import BoolTensor.Program.Netlist
import BoolTensor.Proofs.Program.Gate
import BoolTensor.Proofs.Solver.Constraints

/-!
# Netlists over literals and over truth values

A netlist is run twice: over literals, where it records clauses, and over truth values, where it
computes. The clauses that its gates record define all variables by those that the netlist
allocates itself, and under the one assignment that satisfies them every literal has the value that
the run over truth values gives. The clauses that it demands hold just if they hold there.

## Main definitions

* `Netlist.inputs`: the elements of the lines that allocate a variable
* `Netlist.gateClauses`: the clauses that are recorded by gates
* `Netlist.Extends`: assignments that extend given inputs and satisfy these clauses
* `Netlist.Outcome`: what a run from some values adds to a solver, and what it means
-/

namespace BoolTensor

/-! ### Operands -/

namespace Wire

/-- An operand among values, where the constant and negation are plain. -/
def pick {α : Type} (unit : α) (neg : α → α) (values : List α) (wire : Wire) : α :=
  let source := (wire.source.bind (values[·]?)).getD unit
  if wire.negated then neg source else source

theorem value_literal (engine : Engine) (values : List Literal) :
    value (literalAlgebra engine).toBoolAlgebra values =
      fun wire => pure (wire.pick 1 Neg.neg values) := by
  funext ⟨source, negated⟩
  unfold value pick
  cases negated <;> cases source.bind (values[·]?) <;> rfl

theorem value_given (values : List Bool) :
    value givenAlgebra.toBoolAlgebra values = fun wire => pure (wire.pick true not values) := by
  funext ⟨source, negated⟩
  unfold value pick
  cases negated <;> cases source.bind (values[·]?) <;> rfl

variable {n : Nat} {values : List Literal} (wire : Wire)

theorem isAllocated_pick (hn : 1 ≤ n) (hvalues : ∀ l ∈ values, l.isAllocated n = true) :
    Literal.isAllocated n (wire.pick 1 Neg.neg values) = true := by
  have hsource : Literal.isAllocated n ((wire.source.bind (values[·]?)).getD 1) = true := by
    cases hlook : wire.source.bind (values[·]?) with
    | none => exact Literal.isAllocated_mono (n := 1) rfl hn
    | some l =>
      obtain ⟨place, -, hplace⟩ := Option.bind_eq_some_iff.1 hlook
      exact hvalues l (List.mem_of_getElem? hplace)
  unfold pick
  split
  · simpa using hsource
  · exact hsource

theorem holds_pick {σ : Assignment} (hσ : σ 1 = true)
    (hvalues : ∀ l ∈ values, l.isAllocated n = true) :
    Literal.holds σ (wire.pick 1 Neg.neg values) =
      wire.pick true not (values.map (Literal.holds σ)) := by
  have hlook : wire.source.bind ((values.map (Literal.holds σ))[·]?) =
      (wire.source.bind (values[·]?)).map (Literal.holds σ) := by
    cases wire.source <;> simp
  have hsource : (wire.source.bind (values[·]?)).getD 1 ≠ 0 := by
    cases hfound : wire.source.bind (values[·]?) with
    | none => exact one_ne_zero
    | some l =>
      obtain ⟨place, -, hplace⟩ := Option.bind_eq_some_iff.1 hfound
      exact Literal.ne_zero_of_isAllocated (hvalues l (List.mem_of_getElem? hplace))
  have hvalue : Literal.holds σ ((wire.source.bind (values[·]?)).getD 1) =
      ((wire.source.bind (values[·]?)).map (Literal.holds σ)).getD true := by
    cases wire.source.bind (values[·]?) <;> simp [hσ]
  simp only [pick, hlook]
  split
  · rw [Literal.holds_neg σ hsource, hvalue]
  · exact hvalue

end Wire

/-! ### Gates -/

namespace GateStep

theorem builds_run (engine : Engine) {s : Solver Literal} (step : GateStep Literal)
    (hs : 1 ≤ s.variableCount)
    (hstep : ∀ l ∈ step.operands, l.isAllocated s.variableCount = true) :
    s.Builds (step.run (literalAlgebra engine).toBoolAlgebra) fun σ =>
      (step.map (Literal.holds σ)).eval := by
  cases step with
  | lift value => exact Solver.builds_lift value hs
  | neg a =>
    have ha := hstep a (by simp [operands])
    exact .pure (by simpa using ha) fun σ _ =>
      Literal.holds_neg σ (Literal.ne_zero_of_isAllocated ha)
  | gate g a b =>
    exact Solver.builds_gate g (hstep a (by simp [operands])) (hstep b (by simp [operands]))
  | maj a b c =>
    exact Solver.builds_maj (hstep a (by simp [operands])) (hstep b (by simp [operands]))
      (hstep c (by simp [operands]))
  | sum3 a b c =>
    exact Solver.builds_sum3 (hstep a (by simp [operands])) (hstep b (by simp [operands]))
      (hstep c (by simp [operands]))
  | reduce reduction elems => exact Solver.builds_reduce reduction _ hs hstep

end GateStep

/-! ### Netlists -/

/-- The element of a line that allocates a variable, first among those that follow. -/
def NetlistStep.inputs {α : Type} (values : List α) : NetlistStep → List α
  | addVariable => values.take 1
  | gate _ => []
  | addClause _ => []

namespace Netlist

/-- The elements of the lines that allocate a variable, among those of all lines. -/
def inputs {α : Type} : Netlist → List α → List α
  | [], _ => []
  | line :: lines, values => line.inputs values ++ inputs lines (values.drop line.width)

/-- The clauses that are recorded by gates when the lines are run after some values on a solver. -/
def gateClauses (engine : Engine) : Netlist → List Literal → Solver Literal → Formula
  | [], _, _ => []
  | line :: lines, values, s =>
    match (line.run (literalAlgebra engine) values).run.run s with
    | (.ok after, t) =>
      (if line.isClause then [] else t.formula.drop s.formula.length)
        ++ gateClauses engine lines after t
    | (.error _, _) => []

/-- The assignment gives the inputs the values that `β` gives them, makes variable 1 true, and
satisfies the clauses that gates recorded. -/
structure Extends (gates : Formula) (inputs : List Literal) (β σ : Assignment) : Prop where
  inputs : ∀ l ∈ inputs, Literal.holds σ l = Literal.holds β l
  top : σ 1 = true
  gates : gates.holds σ = true

/-- Run after `values` on `s`, the lines give the literals `more`, of which the inputs are free and
all others are defined by the clauses `gates`. Under these clauses the same lines give over truth
values the values of the literals, and the clauses that they demand there hold just if all clauses
recorded hold. -/
structure Outcome (engine : Engine) (lines : Netlist) (values : List Literal) (s : Solver Literal)
    (more : List Literal) (n : Nat) (clauses gates : Formula) : Prop where
  run_eq : (lines.foldlM (NetlistStep.run (literalAlgebra engine)) values).run.run s =
    (.ok (values ++ more), s.grown n clauses)
  gates_eq : gateClauses engine lines values s = gates
  gates_subset : ∀ c ∈ gates, c ∈ clauses
  /-- They define all new variables by the inputs. -/
  defines : Formula.Defines gates s.variableCount ((lines.inputs more).map Int.natAbs) n
  clauses_allocated : clauses.Allocated n
  inputs_pos : ∀ l ∈ lines.inputs more, 0 < l
  allocated : ∀ l ∈ values ++ more, l.isAllocated n = true
  /-- The run over truth values computes the values of the literals. -/
  truth : ∀ σ : Assignment, σ 1 = true → gates.holds σ = true → ∀ rest demands : List Bool,
    ∃ others : List Bool,
      (lines.foldlM (NetlistStep.run givenAlgebra) (values.map (Literal.holds σ))).run.run
          ⟨(lines.inputs more).map (Literal.holds σ) ++ rest, demands⟩ =
        (.ok ((values ++ more).map (Literal.holds σ)), ⟨rest, demands ++ others⟩) ∧
      clauses.holds σ = others.all id

theorem inputs_cons_append {α : Type} {line : NetlistStep} {lines : Netlist} {more others : List α}
    (hwidth : more.length = line.width) :
    inputs (line :: lines) (more ++ others) = inputs [line] more ++ inputs lines others := by
  have hline : line.inputs (more ++ others) = line.inputs more := by
    cases line with
    | addVariable => exact List.take_append_of_le_length hwidth.ge
    | gate step => rfl
    | addClause wires => rfl
  simp [inputs, hline, ← hwidth]

namespace Outcome

variable {engine : Engine} {line : NetlistStep} {lines : Netlist} {values more others : List Literal}
  {s : Solver Literal} {n m : Nat} {clauses gates clauses' gates' : Formula}

theorem nil (hvalues : ∀ l ∈ values, l.isAllocated s.variableCount = true) :
    Outcome engine [] values s [] s.variableCount [] [] where
  run_eq := by
    rw [List.append_nil, Solver.grown_self]
    rfl
  gates_eq := rfl
  gates_subset := by simp
  defines := .nil _
  clauses_allocated := by simp [Formula.Allocated]
  inputs_pos := by simp [inputs]
  allocated := by simpa using hvalues
  truth σ _ _ rest demands := by
    refine ⟨[], ?_, rfl⟩
    rw [List.append_nil, List.append_nil]
    rfl

/-- A line and the lines after it add what each of them adds. -/
theorem cons (hwidth : more.length = line.width)
    (h : Outcome engine [line] values s more n clauses gates)
    (h' : Outcome engine lines (values ++ more) (s.grown n clauses) others m clauses' gates') :
    Outcome engine (line :: lines) values s (more ++ others) m (clauses ++ clauses')
      (gates ++ gates') := by
  have hline : (line.run (literalAlgebra engine) values).run.run s =
      (.ok (values ++ more), s.grown n clauses) := by
    simpa using h.run_eq
  constructor
  · rw [List.foldlM_cons, run_bind_of_ok hline, h'.run_eq, Solver.grown_grown, List.append_assoc]
  · have hgates := h.gates_eq
    simp only [gateClauses, hline, List.append_nil] at hgates ⊢
    rw [hgates, h'.gates_eq]
  · intro c hc
    rcases List.mem_append.1 hc with hc | hc
    · exact List.mem_append_left _ (h.gates_subset c hc)
    · exact List.mem_append_right _ (h'.gates_subset c hc)
  · rw [inputs_cons_append hwidth, List.map_append]
    exact h.defines.append h'.defines
  · exact (h.clauses_allocated.mono h'.defines.le).append h'.clauses_allocated
  · rw [inputs_cons_append hwidth]
    intro l hl
    rcases List.mem_append.1 hl with hl | hl
    · exact h.inputs_pos l hl
    · exact h'.inputs_pos l hl
  · simpa using h'.allocated
  · -- The inputs of the other lines are what is left over by the first one.
    intro σ hσ hgates rest demands
    rw [Formula.holds_append] at hgates
    obtain ⟨first, hrun, hfirst⟩ := h.truth σ hσ hgates.1
      ((lines.inputs others).map (Literal.holds σ) ++ rest) demands
    obtain ⟨second, hrun', hsecond⟩ := h'.truth σ hσ hgates.2 rest (demands ++ first)
    refine ⟨first ++ second, ?_, ?_⟩
    · simp only [List.foldlM_cons, List.foldlM_nil, bind_pure] at hrun
      rw [inputs_cons_append hwidth, List.map_append, List.append_assoc, List.foldlM_cons,
        run_bind_of_ok hrun, hrun', List.append_assoc, List.append_assoc]
    · rw [Bool.eq_iff_iff, Formula.holds_append, hfirst, hsecond, List.all_append,
        Bool.and_eq_true]

/-- A line that allocates a variable gives a free literal. -/
theorem addVariable (hvalues : ∀ l ∈ values, l.isAllocated s.variableCount = true) :
    Outcome engine [.addVariable] values s [((s.variableCount + 1 : Nat) : Int)]
      (s.variableCount + 1) [] [] := by
  have hrun : (NetlistStep.addVariable.run (literalAlgebra engine) values).run.run s =
      (.ok (values ++ [((s.variableCount + 1 : Nat) : Int)]), s.grown (s.variableCount + 1) []) := by
    have hvariable : (literalAlgebra engine).addVariable.run s = _ := Solver.run_addVariable s
    rw [NetlistStep.run, run_bind_of_ok (run_liftM hvariable), run_pure]
  constructor
  · simpa only [List.foldlM_cons, List.foldlM_nil, bind_pure] using hrun
  · simp [gateClauses, hrun, NetlistStep.isClause]
  · simp
  · exact Formula.Defines.input s.variableCount
  · simp [Formula.Allocated]
  · intro l hl
    rw [List.mem_singleton.1 hl]
    exact Int.natCast_pos.2 s.variableCount.succ_pos
  · intro l hl
    rcases List.mem_append.1 hl with hl | hl
    · exact Literal.isAllocated_mono (hvalues l hl) s.variableCount.le_succ
    · rw [List.mem_singleton.1 hl]
      exact Literal.isAllocated_succ
  · intro σ _ _ rest demands
    refine ⟨[], ?_, rfl⟩
    simp only [List.foldlM_cons, List.foldlM_nil, bind_pure, List.append_nil, List.map_append]
    rfl

/-- A gate gives a literal that its clauses define. -/
theorem gate (step : GateStep Wire) (hs : 1 ≤ s.variableCount)
    (hvalues : ∀ l ∈ values, l.isAllocated s.variableCount = true) :
    ∃ l n clauses, Outcome engine [.gate step] values s [l] n clauses clauses := by
  let operands := step.map (Wire.pick 1 Neg.neg values)
  have hoperands : ∀ l ∈ operands.operands, l.isAllocated s.variableCount = true := by
    intro l hl
    rw [GateStep.operands_map] at hl
    obtain ⟨wire, -, rfl⟩ := List.mem_map.1 hl
    exact wire.isAllocated_pick hs hvalues
  obtain ⟨l, n, clauses, hgate, hdefines, halloc, hvalue⟩ :=
    GateStep.builds_run engine operands hs hoperands
  have hrun : ((NetlistStep.gate step).run (literalAlgebra engine) values).run.run s =
      (.ok (values ++ [l]), s.grown n clauses) := by
    rw [NetlistStep.run, Wire.value_literal, GateStep.mapM_pure, run_bind_of_ok (run_liftM_pure _ s),
      run_bind_of_ok (run_liftM hgate), run_pure]
  refine ⟨l, n, clauses, ?_⟩
  constructor
  · simpa only [List.foldlM_cons, List.foldlM_nil, bind_pure] using hrun
  · simp [gateClauses, hrun, NetlistStep.isClause]
  · exact fun c hc => hc
  · simpa [inputs, NetlistStep.inputs] using hdefines
  · exact hdefines.allocated
  · simp [inputs, NetlistStep.inputs]
  · intro l' hl'
    rcases List.mem_append.1 hl' with hl' | hl'
    · exact Literal.isAllocated_mono (hvalues l' hl') hdefines.le
    · rwa [List.mem_singleton.1 hl']
  · intro σ hσ hclauses rest demands
    refine ⟨[], ?_, hclauses⟩
    -- The values of the wires that are picked are the wires that are picked among the values.
    have hmap : step.map (Wire.pick true not (values.map (Literal.holds σ))) =
        operands.map (Literal.holds σ) := by
      rw [GateStep.map_map]
      exact GateStep.map_congr fun wire _ => (wire.holds_pick hσ hvalues).symm
    have hstep : ∀ given : Given, ((operands.map (Literal.holds σ)).run
        givenAlgebra.toBoolAlgebra).run given = (Literal.holds σ l, given) := by
      intro given
      rw [hvalue σ hσ hclauses]
      exact congrArg (StateT.run · given) (GateStep.run_truth _)
    simp only [List.foldlM_cons, List.foldlM_nil, bind_pure, List.append_nil, List.map_append,
      NetlistStep.run, Wire.value_given, GateStep.mapM_pure, hmap]
    rw [run_bind_of_ok (run_liftM_pure _ _), run_bind_of_ok (run_liftM (hstep _)), run_pure]
    rfl

/-- A line that demands a clause records it. -/
theorem addClause (wires : List Wire) (hs : 1 ≤ s.variableCount)
    (hvalues : ∀ l ∈ values, l.isAllocated s.variableCount = true) :
    Outcome engine [.addClause wires] values s [] s.variableCount
      [wires.map (Wire.pick 1 Neg.neg values)] [] := by
  have hclause : ∀ l ∈ wires.map (Wire.pick 1 Neg.neg values),
      l.isAllocated s.variableCount = true := by
    intro l hl
    obtain ⟨wire, -, rfl⟩ := List.mem_map.1 hl
    exact wire.isAllocated_pick hs hvalues
  have hrun : ((NetlistStep.addClause wires).run (literalAlgebra engine) values).run.run s =
      (.ok values, s.grown s.variableCount [wires.map (Wire.pick 1 Neg.neg values)]) := by
    rw [NetlistStep.run, Wire.value_literal, List.mapM_pure, run_bind_of_ok (run_liftM_pure _ s)]
    exact run_bind_of_ok (Solver.run_addClause_of_allocated hclause)
  constructor
  · simpa only [List.foldlM_cons, List.foldlM_nil, bind_pure, List.append_nil] using hrun
  · simp [gateClauses, hrun, NetlistStep.isClause]
  · simp
  · simpa [inputs, NetlistStep.inputs] using Formula.Defines.nil s.variableCount
  · exact fun c hc => List.mem_singleton.1 hc ▸ hclause
  · simp [inputs, NetlistStep.inputs]
  · simpa using hvalues
  · intro σ hσ _ rest demands
    have hmap : wires.map (Wire.pick true not (values.map (Literal.holds σ))) =
        (wires.map (Wire.pick 1 Neg.neg values)).map (Literal.holds σ) := by
      rw [List.map_map]
      exact List.map_congr_left fun wire _ => (wire.holds_pick hσ hvalues).symm
    refine ⟨[(wires.map (Wire.pick true not (values.map (Literal.holds σ)))).any id], ?_, ?_⟩
    · simp only [List.foldlM_cons, List.foldlM_nil, bind_pure, List.append_nil,
        NetlistStep.run, Wire.value_given, List.mapM_pure]
      rfl
    · rw [hmap]
      simp [Formula.holds, Clause.holds]

end Outcome

/-- Every netlist has an outcome. -/
theorem exists_outcome (engine : Engine) (lines : Netlist) {values : List Literal}
    {s : Solver Literal} (hs : 1 ≤ s.variableCount)
    (hvalues : ∀ l ∈ values, l.isAllocated s.variableCount = true) :
    ∃ more n clauses gates, Outcome engine lines values s more n clauses gates := by
  induction lines generalizing values s with
  | nil => exact ⟨[], _, [], [], .nil hvalues⟩
  | cons line lines ih =>
    -- One line, and then the others from the state that it leaves.
    have hline : ∃ more n clauses gates, more.length = line.width ∧
        Outcome engine [line] values s more n clauses gates := by
      cases line with
      | addVariable => exact ⟨_, _, _, _, rfl, .addVariable hvalues⟩
      | gate step =>
        have hgate : ∃ l n clauses, Outcome engine [.gate step] values s [l] n clauses clauses :=
          Outcome.gate step hs hvalues
        obtain ⟨l, n, clauses, h⟩ := hgate
        exact ⟨[l], n, clauses, clauses, rfl, h⟩
      | addClause wires => exact ⟨_, _, _, _, rfl, .addClause wires hs hvalues⟩
    obtain ⟨more, n, clauses, gates, hwidth, h⟩ := hline
    obtain ⟨others, m, clauses', gates', h'⟩ :=
      ih (s := s.grown n clauses) (hs.trans h.defines.le) h.allocated
    exact ⟨_, _, _, _, .cons hwidth h h'⟩

/-! ### Runs from a new solver -/

namespace Outcome

variable {engine : Engine} {netlist : Netlist} {values : List Literal} {n : Nat}
  {clauses gates : Formula} {β σ τ : Assignment}

/-- The inputs can have any values. -/
theorem exists_extends (h : Outcome engine netlist [] .new values n clauses gates)
    (β : Assignment) : ∃ σ, Extends gates (netlist.inputs values) β σ := by
  -- Variable 1 comes before all inputs, so it can be set to true first.
  obtain ⟨σ, hstart, hfree, hgates⟩ := h.defines.extends_to (Function.update β 1 true)
  have htop : σ 1 = true := by
    rw [← hstart 1 le_rfl le_rfl, Function.update_self]
  have hinputs : ∀ l ∈ netlist.inputs values, Literal.holds σ l = Literal.holds β l := by
    intro l hl
    have hmem : l.natAbs ∈ (netlist.inputs values).map Int.natAbs := List.mem_map_of_mem hl
    have hfresh : l.natAbs ≠ 1 := (h.defines.fresh _ hmem).1.ne'
    have hpos : 0 < l := h.inputs_pos l hl
    rw [Literal.holds_of_pos σ hpos, Literal.holds_of_pos β hpos, hfree _ hmem,
      Function.update_of_ne hfresh]
  exact ⟨σ, hinputs, htop, hgates⟩

/-- Their values leave no choice for the other variables. -/
theorem agreeUpTo_of_extends (h : Outcome engine netlist [] .new values n clauses gates)
    (hσ : Extends gates (netlist.inputs values) β σ)
    (hτ : Extends gates (netlist.inputs values) β τ) : σ.AgreeUpTo n τ := by
  refine h.defines.unique σ τ hσ.gates hτ.gates ?_ ?_
  · intro v hpos hle
    have hv : v = 1 := le_antisymm hle hpos
    rw [hv, hσ.top, hτ.top]
  · intro v hv
    obtain ⟨l, hl, rfl⟩ := List.mem_map.1 hv
    have hpos : 0 < l := h.inputs_pos l hl
    rw [← Literal.holds_of_pos σ hpos, ← Literal.holds_of_pos τ hpos, hσ.inputs l hl,
      hτ.inputs l hl]

/-- The inputs extend to a model of all recorded clauses just if the clauses that were demanded hold
in their extension. -/
theorem exists_model_iff (h : Outcome engine netlist [] .new values n clauses gates)
    (hσ : Extends gates (netlist.inputs values) β σ) :
    (∃ τ : Assignment, (∀ l ∈ netlist.inputs values, Literal.holds τ l = Literal.holds β l) ∧
      (Solver.new.grown n clauses).formula.holds τ = true) ↔ clauses.holds σ = true := by
  constructor
  · rintro ⟨τ, hinputs, hformula⟩
    obtain ⟨htop, hclauses⟩ := (Solver.holds_formula_new_grown τ).1 hformula
    have hτ : Extends gates (netlist.inputs values) β τ :=
      ⟨hinputs, htop, Formula.holds_of_subset hclauses h.gates_subset⟩
    have hagree : σ.AgreeUpTo n τ := h.agreeUpTo_of_extends hσ hτ
    rwa [h.clauses_allocated.holds_congr hagree]
  · intro hclauses
    exact ⟨σ, hσ.inputs, (Solver.holds_formula_new_grown σ).2 ⟨hσ.top, hclauses⟩⟩

end Outcome

/-- Run on a new solver, a netlist succeeds. Any values of its inputs have exactly one extension to
all variables that makes variable 1 true and satisfies the clauses of the gates; there every literal
has the value that the netlist gives over truth values on these inputs; and they extend to a model of
all clauses just if every clause that the netlist demands holds over truth values. -/
theorem run_extends_uniquely (engine : Engine) (netlist : Netlist) :
    ∃ (values : List Literal) (s : Solver Literal),
      (netlist.run (literalAlgebra engine)).run.run Solver.new = (.ok values, s) ∧
      ∀ β : Assignment, ∃ (σ : Assignment) (truths : List Bool) (given : Given),
        Extends (gateClauses engine netlist [] .new) (netlist.inputs values) β σ ∧
        (∀ τ, Extends (gateClauses engine netlist [] .new) (netlist.inputs values) β τ →
          σ.AgreeUpTo s.variableCount τ) ∧
        (netlist.run givenAlgebra).run.run ⟨(netlist.inputs values).map (Literal.holds β), []⟩ =
          (.ok truths, given) ∧
        values.map (Literal.holds σ) = truths ∧
        ((∃ τ : Assignment, (∀ l ∈ netlist.inputs values, Literal.holds τ l = Literal.holds β l) ∧
          s.formula.holds τ = true) ↔ given.holds = true) := by
  obtain ⟨values, n, clauses, gates, h⟩ :=
    exists_outcome engine netlist (s := .new) le_rfl (List.forall_mem_nil _)
  refine ⟨values, _, h.run_eq, fun β => ?_⟩
  obtain ⟨σ, hσ⟩ := h.exists_extends β
  obtain ⟨demands, hrun, hdemands⟩ := h.truth σ hσ.top hσ.gates [] []
  have hmap : (netlist.inputs values).map (Literal.holds σ) =
      (netlist.inputs values).map (Literal.holds β) := List.map_congr_left hσ.inputs
  rw [List.append_nil, hmap] at hrun
  rw [h.gates_eq]
  refine ⟨σ, _, _, hσ, fun τ hτ => h.agreeUpTo_of_extends hσ hτ, hrun, rfl, ?_⟩
  rw [h.exists_model_iff hσ, hdemands]
  rfl

end Netlist

end BoolTensor
