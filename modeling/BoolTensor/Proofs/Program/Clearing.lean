import BoolTensor.Proofs.Program.Change
import BoolTensor.Proofs.Storage.Room

/-!
# The room of cleared vectors

Clearing a vector keeps its room, and so does moving its elements onto another vector. For packed
and counted vectors this holds after any history. A dense vector keeps only the room that was
reserved, by its construction or later; it has more room than that while it has grown beyond it, and
then clearing takes the rest away.

## Main definitions

* `VectorStep.GrowsWithin`: an instruction adds no more elements to a vector than there is room for
-/

namespace BoolTensor

variable {α : Type} [Element α] {r : Registers α} {handle : Bank.Handle}

/-- The instruction adds no more elements to the vector than there is room for. -/
def VectorStep.GrowsWithin (handle : Bank.Handle) (step : VectorStep α) (r : Registers α) : Prop :=
  let v := r.vector handle
  match step with
  | push target _ => target = handle → v.length + 1 ≤ v.capacity
  | resize target newLength _ => target = handle → newLength ≤ v.capacity
  | extend target elems => target = handle → v.length + elems.length ≤ v.capacity
  | extendFrom target other | append target other =>
    target = handle → v.length + (r.vector other).length ≤ v.capacity
  | _ => True

/-! ### One instruction -/

namespace Registers

/-- Growth within the room of a dense vector is growth within what was reserved. -/
theorem Becomes.withinRoom {step : VectorStep α} {w : Storage α} (h : r.Becomes handle step w)
    (hstep : step.GrowsWithin handle r) (hroom : (r.vector handle).WithinRoom) : w.WithinRoom := by
  by_cases hkind : (r.vector handle).kind = .dense
  swap
  · exact Storage.withinRoom_of_kind_ne (h.kind_eq ▸ hkind)
  obtain ⟨v, hv⟩ := Storage.exists_dense_of_kind hkind
  have hsize : v.WithinRoom := by rwa [hv] at hroom
  have hcapacity : (r.vector handle).capacity = v.reserved := by
    rw [hv]
    exact Storage.capacity_of_withinRoom hsize
  have hgrown {n : Nat} (hn : (r.vector handle).length + n ≤ (r.vector handle).capacity) :
      v.cells.size + n ≤ v.reserved := by
    rwa [hcapacity, hv] at hn
  cases h with
  | kept => exact hroom
  | push a =>
    rw [hv]
    exact (Array.size_push a).trans_le (hgrown (hstep rfl))
  | pop h =>
    rw [hv] at h
    obtain ⟨⟨a, w⟩, hpop, hw⟩ := exists_of_map_eq_ok h
    obtain ⟨-, rfl⟩ := Prod.mk.inj hw
    exact hsize.pop hpop
  | set h =>
    obtain ⟨place, -, rfl⟩ := exists_of_map_eq_ok h
    rw [hv]
    exact Array.size_setIfInBounds.trans_le hsize
  | write place a =>
    rw [hv]
    exact Array.size_setIfInBounds.trans_le hsize
  | @resize newLength a w h =>
    have hlength : newLength ≤ v.reserved := hcapacity ▸ hstep rfl
    obtain rfl := Storage.eq_withLength_of_resize h
    rw [hv]
    exact hsize.withLength hlength a
  | truncate h =>
    rw [hv] at h
    obtain ⟨w, hcut, rfl⟩ := exists_of_map_eq_ok h
    exact hsize.truncate hcut
  | clear | moved =>
    rw [hv]
    exact Nat.zero_le _
  | reserve additional =>
    rw [hv]
    exact hsize.trans (le_max_left _ _)
  | extend elems =>
    rw [hv]
    exact Array.size_append.trans_le (hgrown (hstep rfl))
  | extendFrom other | append =>
    rw [hv]
    refine Array.size_append.trans_le (hgrown ?_)
    rw [List.size_toArray, Storage.length_toList]
    exact hstep rfl

end Registers

namespace Bank

variable {bank : Bank α}

/-- A handle that is not that of a vector reads as that of one without elements. -/
theorem withinRoom_of_not_has (h : ¬bank.Has handle) : (bank.find handle).WithinRoom := by
  rw [find_of_not_has h]
  exact Storage.withinRoom_empty .dense

end Bank

namespace VectorStep

open Storage

/-- A vector is made with room reserved for its elements. -/
theorem withinRoom_run_of_not_has (step : VectorStep α) (h : ¬r.bank.Has handle) :
    Meets (fun result => (result.2.vector handle).WithinRoom) (fun _ => True) (step.run r) := by
  have hold : (r.vector handle).WithinRoom := Bank.withinRoom_of_not_has h
  have hadd {v : Storage α} (hv : v.WithinRoom) : ((r.addVector v).2.vector handle).WithinRoom :=
    Bank.of_find_add hv hold
  have hreplace (target : Bank.Handle) (v : Storage α) :
      ((r.replace target v).2.vector handle).WithinRoom :=
    Bank.withinRoom_of_not_has (h ∘ Bank.has_replace.1)
  cases step with
  | empty kind => exact hadd (withinRoom_empty kind)
  | withCapacity kind room =>
    exact (Meets.top _).bind fun _ _ => hadd (withinRoom_withCapacity kind room)
  | fromElem kind a => exact hadd (withinRoom_fromElem kind a)
  | ofList kind elems => exact hadd (withinRoom_ofList kind elems)
  | ofArray dims data =>
    exact (Meets.top _).bind fun array _ => hadd (v := .packed (.ofList array.data)) trivial
  | concat kind parts => exact hadd (withinRoom_concat kind _)
  | ofLength count => exact hadd (v := .ofLength count) trivial
  | split v size =>
    exact (withinRoom_split (r.vector v) size).map fun _ hparts =>
      Bank.of_find_foldl_add hparts hold
  | copy v => exact hadd (withinRoom_copy (r.vector v))
  | gather v indices => exact hadd (withinRoom_gather (r.vector v) indices)
  | push | write | clear | extend | extendFrom => exact hreplace _ _
  | pop | set | truncate | resize => exact (Meets.top _).map fun _ _ => hreplace _ _
  | reserve => exact (Meets.top _).bind fun _ _ => hreplace _ _
  | append target other =>
    refine Meets.map (P := fun bank => (bank.find handle).WithinRoom) ?_ fun _ hbank => hbank
    rw [Bank.append]
    split_ifs
    · trivial
    · exact Bank.withinRoom_of_not_has (h ∘ Bank.has_replace.1 ∘ Bank.has_replace.1)
  | get | range => exact (Meets.top _).map fun _ _ => hold
  | read | isEmpty | length | toList | same | render | capacity | toArray => exact hold

theorem withinRoom_runAll (steps : List (VectorStep α)) (h : (r.vector handle).WithinRoom)
    (hsteps : Along run (GrowsWithin handle) steps r) :
    ((runAll (m := Id) run steps r).2.vector handle).WithinRoom := by
  induction steps generalizing r with
  | nil => exact h
  | cons step steps ih =>
    have hrun : Meets (fun result => (result.2.vector handle).WithinRoom) (fun _ => True)
        (step.run r) := by
      by_cases hhas : r.bank.Has handle
      · exact (Registers.becomes_run step hhas).imp
          (fun _ hbecomes => hbecomes.2.withinRoom hsteps.1 h) fun _ htrivial => htrivial
      · exact withinRoom_run_of_not_has step hhas
    have hafter : ((r.after (step.run r)).vector handle).WithinRoom := by
      cases hresult : step.run r with
      | ok result =>
        rw [hresult] at hrun
        exact hrun
      | error e => exact h
    exact runAll_cons step steps r ▸ ih hafter hsteps.2

/-- After any history clearing a vector takes its elements off, and so does moving them onto another
one, if they can be counted. The vector then has the room that it had, unless it is a dense one with
more elements than room was reserved for, to which it must have grown beyond its room at the
time. -/
theorem clear_keeps_capacity {steps : List (VectorStep α)}
    (hr : (runAll (m := Id) run steps .empty).2 = r) (hhas : r.bank.Has handle)
    (hkind : (r.vector handle).kind ≠ .plain) :
    let v := r.vector handle
    (∃ s, run (.clear handle) r = .ok (.nothing, s) ∧ (s.vector handle).length = 0 ∧
      ((s.vector handle).capacity = v.capacity ↔ v.WithinRoom)) ∧
    (v.length ≤ indexLimit → ∀ target, target ≠ handle →
      ∃ s, run (.append target handle) r = .ok (.nothing, s) ∧ (s.vector handle).length = 0 ∧
        ((s.vector handle).capacity = v.capacity ↔ v.WithinRoom)) ∧
    ((v.kind = .dense → Along run (GrowsWithin handle) steps .empty) → v.WithinRoom) := by
  have hcleared {bank : Bank α} (hbank : bank.find handle = (r.vector handle).clear) :
      (bank.find handle).length = 0 ∧
        ((bank.find handle).capacity = (r.vector handle).capacity ↔
          (r.vector handle).WithinRoom) := by
    rw [hbank]
    exact ⟨length_clear _, capacity_clear_iff hkind⟩
  refine ⟨⟨_, rfl, hcleared (Bank.find_replace_self hhas)⟩, fun _ target htarget => ?_,
    fun hgrows => ?_⟩
  · have happend : r.bank.append target handle = .ok ((r.bank.replace target
        ((r.vector target).extendFrom (r.vector handle))).replace handle (r.vector handle).clear) :=
      if_neg htarget
    refine ⟨_, by rw [run, happend]; rfl, hcleared (Bank.find_replace_self ?_)⟩
    exact Bank.has_replace.2 hhas
  · by_cases hdense : (r.vector handle).kind = .dense
    · exact hr ▸ withinRoom_runAll steps (withinRoom_empty .dense) (hgrows hdense)
    · exact withinRoom_of_kind_ne hdense

/-- Room for three elements stays when the two that there are go. -/
theorem clear_keeps_capacity_reserved : ∃ r : Registers Bool, (r.vector 0).length = 2 ∧
    (r.vector 0).capacity = 3 ∧
    (∃ s, run (.clear 0) r = .ok (.nothing, s) ∧ (s.vector 0).capacity = 3) ∧
    ∃ s, run (.append 1 0) r = .ok (.nothing, s) ∧ (s.vector 0).length = 0 ∧
      (s.vector 0).capacity = 3 := by
  let steps : List (VectorStep Bool) :=
    [.withCapacity .dense 3, .empty .packed, .push 0 true, .resize 0 2 false]
  have hgrows : Along run (GrowsWithin 0) steps .empty :=
    ⟨trivial, trivial, fun _ => by decide, fun _ => by decide, trivial⟩
  have hhas : (runAll (m := Id) run steps .empty).2.bank.Has 0 := by
    decide
  obtain ⟨⟨s, hclear, -, hkept⟩, happend, hroom⟩ := clear_keeps_capacity rfl hhas nofun
  obtain ⟨t, hmove, hempty, hmoved⟩ := happend (by decide) 1 (by decide)
  have hwithin := hroom fun _ => hgrows
  exact ⟨_, by decide, by decide, ⟨s, hclear, hkept.2 hwithin⟩, t, hmove, hempty,
    hmoved.2 hwithin⟩

/-- A dense vector without reserved room that got an element has room for it, and loses this when it
is cleared. -/
theorem exists_clear_loses_capacity : ∃ (steps : List (VectorStep Bool)) (s : Registers Bool),
    let r := (runAll (m := Id) run steps .empty).2
    Along run Proper steps .empty ∧ r.bank.Has 0 ∧ (r.vector 0).kind = .dense ∧
      run (.clear 0) r = .ok (.nothing, s) ∧
      (r.vector 0).capacity = 1 ∧ (s.vector 0).capacity = 0 :=
  ⟨[.empty .dense, .push 0 true], _, by decide, by decide, rfl, rfl, by decide, by decide⟩

end VectorStep

end BoolTensor
