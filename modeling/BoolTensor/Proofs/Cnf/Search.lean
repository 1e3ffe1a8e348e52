import BoolTensor.Proofs.Cnf.Assignment
import BoolTensor.Solver.Basic

/-!
# The search decides satisfiability

Every pass of the search keeps the set of assignments that complete the trail and make the clauses
true. So an assignment that is found makes the formula true, and where none is found there is none.

## Main definitions

* `Trail.Completes`: an assignment that gives every variable the value that it has on the trail
* `Trail.Models`: it also makes the clauses true that are left
-/

namespace BoolTensor

namespace Trail

/-- The assignment gives every variable of the trail its value there. -/
def Completes (trail : Trail) (σ : Assignment) : Prop :=
  ∀ v value, trail.value? v = some value → σ v = value

/-- The assignment completes the trail and makes the clauses true. -/
def Models (trail : Trail) (f : Formula) (σ : Assignment) : Prop :=
  trail.Completes σ ∧ f.holds σ = true

variable {trail after : Trail} {σ : Assignment} {l : Literal} {c left : Clause}
  {f more : Formula} {value : Bool}

/-! ### Values on a trail -/

theorem value?_empty (v : Nat) : empty.value? v = none := rfl

theorem value?_assign (trail : Trail) (l : Literal) (value : Bool) (v : Nat) :
    (trail.assign l value).value? v =
      if v = l.natAbs then some (if l < 0 then !value else value) else trail.value? v := by
  have hplace : l.natAbs < (trail.values ++
      Array.replicate (l.natAbs + 1 - trail.values.size) (none : Option Bool)).size := by
    rw [Array.size_append, Array.size_replicate]
    omega
  unfold value? assign
  rw [Array.getD_eq_getD_getElem?, Array.getElem?_setIfInBounds]
  by_cases heq : v = l.natAbs
  · rw [if_pos heq.symm, if_pos hplace, if_pos heq]
    rfl
  · rw [if_neg (Ne.symm heq), if_neg heq, Array.getElem?_append, Array.getD_eq_getD_getElem?]
    split
    · rfl
    · -- The room that was added has no values.
      rename_i hroom
      rw [Array.getElem?_replicate, Array.getElem?_eq_none (not_lt.1 hroom)]
      split <;> rfl

theorem Completes.holds (h : trail.Completes σ) (hl : trail.literal? l = some value) :
    Literal.holds σ l = value := by
  obtain ⟨place, hplace, rfl⟩ := Option.map_eq_some_iff.1 hl
  rw [Literal.holds, h _ _ hplace]

/-- Giving a value to a literal that has none restricts the assignments to those that give it this
value. -/
theorem completes_assign (hl : trail.literal? l = none) :
    (trail.assign l value).Completes σ ↔ trail.Completes σ ∧ Literal.holds σ l = value := by
  have hnone : trail.value? l.natAbs = none := Option.map_eq_none_iff.1 hl
  have hplace : σ l.natAbs = (if l < 0 then !value else value) ↔ Literal.holds σ l = value := by
    unfold Literal.holds
    split_ifs <;> cases σ l.natAbs <;> cases value <;> decide
  rw [← hplace]
  constructor
  · intro h
    refine ⟨fun v w hv => h v w ?_, h _ _ ?_⟩
    · rw [value?_assign, if_neg, hv]
      rintro rfl
      simp [hnone] at hv
    · rw [value?_assign, if_pos rfl]
  · rintro ⟨h, hvalue⟩ v w hv
    rw [value?_assign] at hv
    by_cases heq : v = l.natAbs
    · rw [if_pos heq] at hv
      rw [heq, hvalue]
      exact Option.some.inj hv
    · rw [if_neg heq] at hv
      exact h v w hv

theorem completes_empty (σ : Assignment) : empty.Completes σ := by
  simp [Completes, value?_empty]

theorem completes_complete (trail : Trail) : trail.Completes trail.complete := by
  intro v value hv
  rw [complete, hv, Option.getD_some]

/-! ### Passes -/

/-- A clause that goes away is true wherever the trail is completed. -/
theorem Completes.holds_of_reduce_eq_none (h : trail.Completes σ) (hc : trail.reduce c = none) :
    c.holds σ = true := by
  unfold reduce at hc
  split_ifs at hc with htrue
  obtain ⟨l, hl, hvalue⟩ := List.any_eq_true.1 htrue
  exact Clause.holds_iff.2 ⟨l, hl, h.holds (beq_iff_eq.1 hvalue)⟩

/-- What is left of a clause has the value of the clause wherever the trail is completed. -/
theorem Completes.holds_reduce (h : trail.Completes σ) (hc : trail.reduce c = some left) :
    c.holds σ = true ↔ left.holds σ = true := by
  unfold reduce at hc
  split_ifs at hc with htrue
  obtain rfl := Option.some.inj hc
  rw [Clause.holds_iff, Clause.holds_iff]
  constructor
  · rintro ⟨l, hl, hvalue⟩
    refine ⟨l, List.mem_filter.2 ⟨hl, ?_⟩, hvalue⟩
    cases hlook : trail.literal? l with
    | none => rfl
    | some value =>
      obtain rfl : true = value := hvalue.symm.trans (h.holds hlook)
      exact absurd (List.any_eq_true.2 ⟨l, hl, by simp [hlook]⟩) htrue
  · rintro ⟨l, hl, hvalue⟩
    exact ⟨l, List.mem_of_mem_filter hl, hvalue⟩

theorem literal?_of_mem_reduce (hc : trail.reduce c = some left) (hl : l ∈ left) :
    trail.literal? l = none := by
  unfold reduce at hc
  split_ifs at hc with htrue
  obtain rfl := Option.some.inj hc
  exact beq_iff_eq.1 (List.mem_filter.1 hl).2

theorem models_nil : trail.Models [] σ ↔ trail.Completes σ :=
  and_iff_left rfl

theorem models_cons : trail.Models (c :: f) σ ↔ trail.Models f σ ∧ c.holds σ = true := by
  rw [Models, Models, Formula.holds_cons, Bool.and_eq_true, and_right_comm, and_assoc]

/-- One pass keeps the assignments that are looked for, and without a result there are none. -/
theorem models_sweep (trail : Trail) (f : Formula) (σ : Assignment) :
    trail.Models f σ ↔ ∃ result ∈ trail.sweep f, result.1.Models result.2 σ := by
  induction f generalizing trail with
  | nil => simp [sweep]
  | cons clause rest ih =>
    rw [models_cons, sweep]
    split
    · -- The clause is true.
      rename_i hreduce
      rw [← ih]
      exact and_iff_left_of_imp fun h => h.1.holds_of_reduce_eq_none hreduce
    · -- Nothing is left of it.
      rename_i hreduce
      simp only [reduceCtorEq, Option.mem_def, false_and, exists_false, iff_false, not_and]
      intro h hclause
      simpa using (h.1.holds_reduce hreduce).1 hclause
    · -- One literal is left, which must be true.
      rename_i l hreduce
      have hl : trail.literal? l = none := literal?_of_mem_reduce hreduce (by simp)
      rw [← ih, Models, Models, completes_assign hl, and_right_comm]
      refine and_congr_left fun _ => and_congr_right fun h => ?_
      rw [h.holds_reduce hreduce]
      simp
    · -- What is left of it stays.
      rename_i first second others hreduce
      simp only [Option.mem_def, Option.map_eq_some_iff, Prod.exists]
      constructor
      · rintro ⟨h, hclause⟩
        have hleft := (h.1.holds_reduce hreduce).1 hclause
        obtain ⟨⟨after, left⟩, hresult, hmodels⟩ := (ih trail).1 h
        exact ⟨_, _, ⟨_, _, hresult, rfl⟩, models_cons.2 ⟨hmodels, hleft⟩⟩
      · rintro ⟨_, _, ⟨after, left, hresult, heq⟩, hmodels⟩
        obtain ⟨rfl, rfl⟩ := Prod.mk.inj heq
        rw [models_cons] at hmodels
        have h := (ih trail).2 ⟨_, hresult, hmodels.1⟩
        exact ⟨h, (h.1.holds_reduce hreduce).2 hmodels.2⟩

/-- A pass in which no clause goes away gives no values, and no literal that is left has one. -/
theorem sweep_of_length_le (h : trail.sweep f = some (after, more)) :
    more.length ≤ f.length ∧ (f.length ≤ more.length → after = trail ∧
      ∀ c ∈ more, ∀ l ∈ c, trail.literal? l = none) := by
  induction f generalizing trail after more with
  | nil =>
    obtain ⟨rfl, rfl⟩ := Prod.mk.inj (Option.some.inj h)
    simp
  | cons clause rest ih =>
    rw [sweep] at h
    split at h
    · -- A clause that is true goes away, and so does one that gives a value.
      have hrest := (ih h).1
      exact ⟨hrest.trans (Nat.le_succ _), fun hle => absurd (hle.trans hrest) (by simp)⟩
    · simp at h
    · have hrest := (ih h).1
      exact ⟨hrest.trans (Nat.le_succ _), fun hle => absurd (hle.trans hrest) (by simp)⟩
    · -- The clause stays, with those of its literals that have no value.
      rename_i first second others hreduce
      obtain ⟨⟨trail', left⟩, hresult, heq⟩ := Option.map_eq_some_iff.1 h
      obtain ⟨rfl, rfl⟩ := Prod.mk.inj heq
      obtain ⟨hle, hsame⟩ := ih hresult
      refine ⟨Nat.succ_le_succ hle, fun hge => ?_⟩
      obtain ⟨htrail, hleft⟩ := hsame (Nat.le_of_succ_le_succ hge)
      refine ⟨htrail, fun c hc => ?_⟩
      rcases List.mem_cons.1 hc with rfl | hc
      · exact fun l hl => literal?_of_mem_reduce hreduce hl
      · exact hleft c hc

theorem models_propagate (trail : Trail) (f : Formula) (σ : Assignment) :
    trail.Models f σ ↔ ∃ result ∈ trail.propagate f, result.1.Models result.2 σ := by
  induction f using WellFounded.induction
    (measure (List.length : Formula → Nat)).wf generalizing trail with
  | _ f ih =>
    rw [models_sweep, propagate]
    split
    · rename_i hnone
      simp [hnone]
    · rename_i after left hsweep
      split
      · rename_i hshorter
        rw [← ih left hshorter, hsweep]
        simp
      · rw [hsweep]

theorem literal?_of_propagate (h : trail.propagate f = some (after, more)) :
    ∀ c ∈ more, ∀ l ∈ c, after.literal? l = none := by
  induction f using WellFounded.induction
    (measure (List.length : Formula → Nat)).wf generalizing trail with
  | _ f ih =>
    rw [propagate] at h
    split at h
    · simp at h
    · rename_i trail' left hsweep
      split at h
      · rename_i hshorter
        exact ih left hshorter h
      · rename_i hlonger
        obtain ⟨rfl, rfl⟩ := Prod.mk.inj (Option.some.inj h)
        obtain ⟨rfl, hleft⟩ := (sweep_of_length_le hsweep).2 (not_lt.1 hlonger)
        exact hleft

/-! ### The search -/

/-- Trying both values of a literal that is left looks for all assignments. -/
theorem models_branch {others : Clause} (hl : trail.literal? l = none) :
    trail.Models ((l :: others) :: f) σ ↔
      ((trail.assign l true).Models f σ ∨ (trail.assign l false).Models (others :: f) σ) := by
  rw [models_cons, models_cons, Models, Models, Models, completes_assign hl, completes_assign hl,
    Clause.holds_cons]
  cases Literal.holds σ l <;> simp

/-- The search, by what the passes leave. -/
theorem search_eq (trail : Trail) (f : Formula) :
    trail.search f =
      match trail.propagate f with
      | none => none
      | some (after, []) => some after
      | some (_, [] :: _) => none
      | some (after, (l :: others) :: rest) =>
        match (after.assign l true).search rest with
        | some found => some found
        | none => (after.assign l false).search (others :: rest) := by
  rw [search]
  split
  · simp_all
  · simp_all
  · simp_all
  · rename_i after l others rest hpropagate
    cases hfirst : (after.assign l true).search rest <;> simp only [hpropagate, hfirst]

/-- Every assignment that completes a trail that is found is looked for. -/
theorem models_of_search (h : trail.search f = some after) (hσ : after.Completes σ) :
    trail.Models f σ := by
  rw [models_propagate]
  -- After propagation: a conflict, no clause left, an empty clause, or a branch on a literal whose
  -- first value succeeds or fails.
  induction trail, f using Trail.search.induct with
  | case1 trail f hpropagate => simp [search_eq, hpropagate] at h
  | case2 trail f last hpropagate =>
    rw [search_eq, hpropagate] at h
    obtain rfl := Option.some.inj h
    exact ⟨_, hpropagate, models_nil.2 hσ⟩
  | case3 trail f last rest hpropagate => simp [search_eq, hpropagate] at h
  | case4 trail f last l others rest hpropagate found hfound ih =>
    have hl := literal?_of_propagate hpropagate _ List.mem_cons_self l List.mem_cons_self
    rw [search_eq, hpropagate] at h
    simp only [hfound] at h
    obtain rfl := Option.some.inj h
    exact ⟨_, hpropagate, (models_branch hl).2 (.inl ((models_propagate ..).2 (ih hfound)))⟩
  | case5 trail f last l others rest hpropagate hnone ih ih' =>
    have hl := literal?_of_propagate hpropagate _ List.mem_cons_self l List.mem_cons_self
    rw [search_eq, hpropagate] at h
    simp only [hnone] at h
    exact ⟨_, hpropagate, (models_branch hl).2 (.inr ((models_propagate ..).2 (ih' h)))⟩

/-- Where no trail is found there is no assignment. -/
theorem not_models_of_search (h : trail.search f = none) : ¬trail.Models f σ := by
  rw [models_propagate]
  induction trail, f using Trail.search.induct with
  | case1 trail f hpropagate => simp [hpropagate]
  | case2 trail f after hpropagate => simp [search_eq, hpropagate] at h
  | case3 trail f after rest hpropagate => simp [hpropagate, Models]
  | case4 trail f after l others rest hpropagate found hfound =>
    rw [search_eq, hpropagate] at h
    simp [hfound] at h
  | case5 trail f after l others rest hpropagate hnone ih ih' =>
    have hl := literal?_of_propagate hpropagate _ List.mem_cons_self l List.mem_cons_self
    rw [search_eq, hpropagate] at h
    simp only [hnone] at h
    rintro ⟨result, hresult, hmodels⟩
    obtain rfl := Option.some.inj (hpropagate.symm.trans hresult)
    rcases (models_branch hl).1 hmodels with htrue | hfalse
    · exact ih hnone ((models_propagate ..).1 htrue)
    · exact ih' h ((models_propagate ..).1 hfalse)

end Trail

/-! ### Engines -/

theorem Formula.holds_of_solve? {f : Formula} {σ : Assignment} (h : f.solve? = some σ) :
    f.holds σ = true := by
  obtain ⟨found, hfound, rfl⟩ := Option.map_eq_some_iff.1 h
  exact (Trail.models_of_search hfound found.completes_complete).2

theorem Formula.not_satisfiable_of_solve? {f : Formula} (h : f.solve? = none) :
    ¬f.Satisfiable := by
  rintro ⟨σ, hσ⟩
  exact Trail.not_models_of_search (Option.map_eq_none_iff.1 h) ⟨Trail.completes_empty σ, hσ⟩

namespace Verdict

variable {verdict : Verdict}

theorem answer_eq_true_iff : verdict.answer = .ok true ↔ ∃ σ, verdict = .satisfied σ := by
  cases verdict <;> simp [answer]

theorem answer_eq_false_iff : verdict.answer = .ok false ↔ verdict = .refuted := by
  cases verdict <;> simp [answer]

/-- Only giving up is no answer. -/
theorem answer_eq_error_iff {e : Error} :
    verdict.answer = .error e ↔ ∃ reason, verdict = .unknown reason ∧ e = .gaveUp reason := by
  cases verdict <;> simp [answer, eq_comm]

end Verdict

/-- An engine that decides answers. -/
theorem Engine.Decides.exists_answer {engine : Engine} (h : engine.Decides) (f : Formula) :
    ∃ answer, (engine.solve f).answer = .ok answer := by
  cases hanswer : (engine.solve f).answer with
  | ok answer => exact ⟨answer, rfl⟩
  | error e =>
    obtain ⟨reason, hreason, -⟩ := Verdict.answer_eq_error_iff.1 hanswer
    exact absurd ⟨f, hreason⟩ (h reason)

/-- An engine that is right answers whether there is an assignment. -/
theorem Engine.Correct.answer_eq_true_iff {engine : Engine} (h : engine.Correct) {f : Formula}
    {answer : Bool} (hanswer : (engine.solve f).answer = .ok answer) :
    answer = true ↔ f.Satisfiable := by
  cases answer with
  | true =>
    obtain ⟨σ, hσ⟩ := Verdict.answer_eq_true_iff.1 hanswer
    exact iff_of_true rfl ⟨σ, h.sound f σ hσ⟩
  | false =>
    exact iff_of_false Bool.false_ne_true (h.complete f (Verdict.answer_eq_false_iff.1 hanswer))

theorem solve_searchEngine (f : Formula) :
    searchEngine.solve f =
      match f.solve? with
      | some σ => .satisfied σ
      | none => .refuted := rfl

/-- The search that is built in decides every formula. -/
theorem searchEngine_correct : searchEngine.Correct where
  sound f σ h := by
    rw [solve_searchEngine] at h
    cases hsolve : f.solve? with
    | none => simp [hsolve] at h
    | some found =>
      obtain rfl : found = σ := by simpa [hsolve] using h
      exact Formula.holds_of_solve? hsolve
  complete f h := by
    rw [solve_searchEngine] at h
    cases hsolve : f.solve? with
    | none => exact Formula.not_satisfiable_of_solve? hsolve
    | some found => simp [hsolve] at h
  decides reason := by
    rintro ⟨f, h⟩
    rw [solve_searchEngine] at h
    cases hsolve : f.solve? <;> simp [hsolve] at h

end BoolTensor
