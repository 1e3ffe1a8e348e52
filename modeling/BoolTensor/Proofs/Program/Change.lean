import BoolTensor.Proofs.Program.Histories

/-!
# One vector along a program

An instruction changes the vectors that it names as its targets and leaves the others. What it makes
of a vector is said once, operation by operation; a property of one vector that each of these keeps
holds after any program.

## Main definitions

* `VectorStep.Changes`: an instruction has a vector as its target
* `Registers.Becomes`: what an instruction makes of a vector
-/

namespace BoolTensor

variable {α : Type} [Element α] {r : Registers α} {handle target : Bank.Handle}

/-- The vector with this handle is one that the instruction changes. -/
def VectorStep.Changes (handle : Bank.Handle) : VectorStep α → Prop
  | push v _ | pop v | set v _ _ | write v _ _ | resize v _ _ | truncate v _ | clear v | reserve v _
  | extend v _ | extendFrom v _ => v = handle
  | append v other => v = handle ∨ other = handle
  | _ => False

instance VectorStep.Changes.decidable (handle : Bank.Handle) (step : VectorStep α) :
    Decidable (step.Changes handle) :=
  match step with
  | push v _ | pop v | set v _ _ | write v _ _ | resize v _ _ | truncate v _ | clear v | reserve v _
  | extend v _ | extendFrom v _ => inferInstanceAs (Decidable (v = handle))
  | append v other => inferInstanceAs (Decidable (v = handle ∨ other = handle))
  | empty _ | withCapacity _ _ | fromElem _ _ | ofList _ _ | ofArray _ _ | concat _ _ | ofLength _
  | split _ _ | get _ _ | read _ _ | copy _ | isEmpty _ | length _ | toList _ | range _ _ _
  | gather _ _ | same _ _ | render _ | capacity _ | toArray _ => inferInstanceAs (Decidable False)

/-- What an instruction that is not refused makes of the vector with a handle. -/
inductive Registers.Becomes (r : Registers α) (handle : Bank.Handle) :
    VectorStep α → Storage α → Prop
  | kept {step : VectorStep α} (h : ¬step.Changes handle) : Becomes r handle step (r.vector handle)
  | push (a : α) : Becomes r handle (.push handle a) ((r.vector handle).push a)
  | pop {a : α} {w : Storage α} (h : (r.vector handle).pop = .ok (a, w)) :
    Becomes r handle (.pop handle) w
  | set {index : Int} {a : α} {w : Storage α} (h : (r.vector handle).set index a = .ok w) :
    Becomes r handle (.set handle index a) w
  | write (place : Nat) (a : α) :
    Becomes r handle (.write handle place a) ((r.vector handle).write place a)
  | resize {newLength : Int} {a : α} {w : Storage α}
    (h : (r.vector handle).resize newLength a = .ok w) :
    Becomes r handle (.resize handle newLength a) w
  | truncate {newLength : Int} {w : Storage α} (h : (r.vector handle).truncate newLength = .ok w) :
    Becomes r handle (.truncate handle newLength) w
  | clear : Becomes r handle (.clear handle) (r.vector handle).clear
  | reserve (additional : Int) :
    Becomes r handle (.reserve handle additional) ((r.vector handle).reserve additional)
  | extend (elems : List α) :
    Becomes r handle (.extend handle elems) ((r.vector handle).extend elems)
  | extendFrom (other : Bank.Handle) :
    Becomes r handle (.extendFrom handle other) ((r.vector handle).extendFrom (r.vector other))
  | append {other : Bank.Handle} (h : other ≠ handle) :
    Becomes r handle (.append handle other) ((r.vector handle).extendFrom (r.vector other))
  /-- The elements are moved onto another vector. -/
  | moved {target : Bank.Handle} (h : target ≠ handle) :
    Becomes r handle (.append target handle) (r.vector handle).clear

/-! ### One instruction -/

theorem Meets.result {β : Type} (x : Except Error β) :
    Meets (fun b => x = .ok b) (fun _ => True) x := by
  cases x with
  | ok b => exact rfl
  | error e => trivial

namespace Bank

variable {bank : Bank α} {v : Storage α}

theorem find_replace_self (h : bank.Has handle) : (bank.replace handle v).find handle = v :=
  (find_replace h v handle).trans (if_pos rfl)

theorem find_replace_of_ne (h : target ≠ handle) :
    (bank.replace target v).find handle = bank.find handle := by
  by_cases htarget : bank.Has target
  · exact (find_replace htarget v handle).trans (if_neg h.symm)
  · rw [replace_of_not_has htarget]

omit [Element α] in
theorem has_replace : (bank.replace target v).Has handle ↔ bank.Has handle := by
  rw [Has, Has, size_replace]

end Bank

namespace Registers

variable {step : VectorStep α} {v : Storage α}

/-- The last vector is the new one. -/
theorem vector_addVector_self (r : Registers α) (v : Storage α) :
    (r.addVector v).2.bank.Has r.bank.vectors.size ∧
      (r.addVector v).2.vector r.bank.vectors.size = v :=
  ⟨(Nat.lt_succ_self _).trans_eq (Bank.size_add r.bank v).symm,
    (Bank.find_add ..).trans (if_pos rfl)⟩

/-- Another vector in the place of one changes this one only. -/
theorem becomes_replace (hhas : r.bank.Has handle)
    (hself : target = handle → r.Becomes handle step v)
    (hother : target ≠ handle → ¬step.Changes handle) :
    (r.replace target v).2.bank.Has handle ∧
      r.Becomes handle step ((r.replace target v).2.vector handle) := by
  refine ⟨Bank.has_replace.2 hhas, ?_⟩
  by_cases heq : target = handle
  · have hfind : (r.replace target v).2.vector handle = v := by
      rw [heq]
      exact Bank.find_replace_self hhas
    rw [hfind]
    exact hself heq
  · have hfind : (r.replace target v).2.vector handle = r.vector handle :=
      Bank.find_replace_of_ne heq
    rw [hfind]
    exact .kept (hother heq)

/-- New vectors leave those that are there. -/
theorem becomes_of_extends {bank : Bank α} (hbank : r.bank.Extends bank)
    (hhas : r.bank.Has handle) (hstep : ¬step.Changes handle) :
    bank.Has handle ∧ r.Becomes handle step (bank.find handle) := by
  have hfind : bank.find handle = r.vector handle := hbank.find_eq hhas
  rw [hfind]
  exact ⟨hbank.has hhas, .kept hstep⟩

/-- Moving elements changes the vector that gets them and the one that is emptied. -/
theorem becomes_append (hhas : r.bank.Has handle) (target other : Bank.Handle) :
    Meets (fun bank => bank.Has handle ∧ r.Becomes handle (.append target other) (bank.find handle))
      (fun _ => True) (r.bank.append target other) := by
  rw [Bank.append]
  split_ifs with hself
  · trivial
  have hreplaced (v : Storage α) : (r.bank.replace target v).Has handle := Bank.has_replace.2 hhas
  refine ⟨Bank.has_replace.2 (hreplaced _), ?_⟩
  by_cases hother : other = handle
  · subst hother
    rw [Bank.find_replace_self (hreplaced _)]
    exact .moved hself
  rw [Bank.find_replace_of_ne hother]
  by_cases htarget : target = handle
  · subst htarget
    rw [Bank.find_replace_self hhas]
    exact .append hother
  · rw [Bank.find_replace_of_ne htarget]
    exact .kept (not_or.2 ⟨htarget, hother⟩)

/-- What an instruction makes of a vector, operation by operation. -/
theorem becomes_run (step : VectorStep α) (hhas : r.bank.Has handle) :
    Meets (fun result => result.2.bank.Has handle ∧ r.Becomes handle step (result.2.vector handle))
      (fun _ => True) (step.run r) := by
  have hadd (v : Storage α) := r.bank.extends_add v
  cases step with
  | empty kind => exact becomes_of_extends (hadd (.empty kind)) hhas id
  | withCapacity kind room =>
    exact (Meets.top _).bind fun _ _ => becomes_of_extends (hadd (.withCapacity kind room)) hhas id
  | fromElem kind a => exact becomes_of_extends (hadd (.fromElem kind a)) hhas id
  | ofList kind elems => exact becomes_of_extends (hadd (.ofList kind elems)) hhas id
  | ofArray dims data =>
    exact (Meets.top _).bind fun array _ =>
      becomes_of_extends (hadd (.packed (.ofList array.data))) hhas id
  | concat kind parts =>
    exact becomes_of_extends (hadd (.concat kind (parts.map r.vector))) hhas id
  | ofLength count => exact becomes_of_extends (hadd (.ofLength count)) hhas id
  | split v size =>
    exact (Meets.top _).map fun parts _ =>
      becomes_of_extends (r.bank.extends_foldl_add parts) hhas id
  | push v a => exact becomes_replace hhas (fun h => h ▸ .push a) id
  | pop v =>
    exact (Meets.result _).map fun _ hpop =>
      becomes_replace hhas (by rintro rfl; exact .pop hpop) id
  | get v index => exact (Meets.top _).map fun _ _ => ⟨hhas, .kept id⟩
  | set v index a =>
    exact (Meets.result _).map fun _ hset =>
      becomes_replace hhas (by rintro rfl; exact .set hset) id
  | write v place a => exact becomes_replace hhas (fun h => h ▸ .write place a) id
  | resize v newLength a =>
    exact (Meets.result _).map fun _ hresize =>
      becomes_replace hhas (by rintro rfl; exact .resize hresize) id
  | truncate v newLength =>
    exact (Meets.result _).map fun _ hcut =>
      becomes_replace hhas (by rintro rfl; exact .truncate hcut) id
  | clear v => exact becomes_replace hhas (fun h => h ▸ .clear) id
  | reserve v additional =>
    exact (Meets.top _).bind fun _ _ =>
      becomes_replace hhas (fun h => h ▸ .reserve additional) id
  | append v other => exact (becomes_append hhas v other).map fun _ h => h
  | extend v elems => exact becomes_replace hhas (fun h => h ▸ .extend elems) id
  | extendFrom v other => exact becomes_replace hhas (fun h => h ▸ .extendFrom other) id
  | copy v => exact becomes_of_extends (hadd (r.vector v).copy) hhas id
  | range v start stop => exact (Meets.top _).map fun _ _ => ⟨hhas, .kept id⟩
  | gather v indices => exact becomes_of_extends (hadd ((r.vector v).gather indices)) hhas id
  | read | isEmpty | length | toList | same | render | capacity | toArray => exact ⟨hhas, .kept id⟩

theorem Becomes.kind_eq {step : VectorStep α} {w : Storage α} (h : r.Becomes handle step w) :
    w.kind = (r.vector handle).kind := by
  cases h with
  | kept => rfl
  | push => exact Storage.kind_push ..
  | pop h => exact Storage.kind_of_pop h
  | set h =>
    obtain ⟨place, -, rfl⟩ := exists_of_map_eq_ok h
    exact Storage.kind_write ..
  | write => exact Storage.kind_write ..
  | resize h => exact Storage.kind_of_resize h
  | truncate h => exact Storage.kind_of_truncate h
  | clear | moved => exact Storage.kind_clear _
  | reserve => exact Storage.kind_reserve ..
  | extend => exact Storage.kind_extend ..
  | extendFrom | append => exact Storage.kind_extendFrom ..

end Registers

/-! ### Programs -/

namespace VectorStep

/-- After an instruction a vector is what it was, where this is refused, or what this makes of it. -/
theorem vector_after (step : VectorStep α) (hhas : r.bank.Has handle) :
    (r.after (step.run r)).bank.Has handle ∧
      ((r.after (step.run r)).vector handle = r.vector handle ∨
        r.Becomes handle step ((r.after (step.run r)).vector handle)) := by
  have hrun := Registers.becomes_run step hhas
  cases hresult : step.run r with
  | ok result =>
    rw [hresult] at hrun
    exact ⟨hrun.1, .inr hrun.2⟩
  | error e => exact ⟨hhas, .inl rfl⟩

/-- A property of a vector that each instruction keeps holds after all of them. -/
theorem vector_runAll {C : VectorStep α → Registers α → Prop} {Q : Storage α → Prop}
    (hstep : ∀ step r w, C step r → Q (r.vector handle) → r.Becomes handle step w → Q w)
    (steps : List (VectorStep α)) (hhas : r.bank.Has handle) (hvector : Q (r.vector handle))
    (hsteps : Along run C steps r) :
    (runAll (m := Id) run steps r).2.bank.Has handle ∧
      Q ((runAll (m := Id) run steps r).2.vector handle) := by
  induction steps generalizing r with
  | nil => exact ⟨hhas, hvector⟩
  | cons step steps ih =>
    obtain ⟨hafter, hkept | hbecomes⟩ := vector_after step hhas
    · exact runAll_cons step steps r ▸ ih hafter (hkept ▸ hvector) hsteps.2
    · exact runAll_cons step steps r ▸ ih hafter (hstep step r _ hsteps.1 hvector hbecomes) hsteps.2

end VectorStep

end BoolTensor
