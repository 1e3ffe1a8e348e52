import BoolTensor.Proofs.Program.Change
import BoolTensor.Proofs.Storage.Room

/-!
# The room of packed vectors

What room a packed vector has after each instruction of a program. Room that was asked for stays as
it is while the elements fit into it, whatever else is done, and a vector to which elements are added
one at a time has the least power of two of words that hold them.

## Main definitions

* `VectorStep.Accepted`: an instruction is not refused
* `VectorStep.capacityAfter`: the room of a packed vector after an instruction
* `VectorStep.StaysWithin`: an instruction leaves a vector within some room
* `VectorStep.PushesOnly`: an instruction changes a vector by a push, if at all
-/

namespace BoolTensor

variable {α : Type} [Element α] {r : Registers α} {handle : Bank.Handle}

/-! ### Refusals -/

/-- The instruction is not refused: the elements that it takes, reads or keeps are there, there can
be an array with the room that it asks for, and no vector is moved onto itself. -/
def VectorStep.Accepted (step : VectorStep α) (r : Registers α) : Prop :=
  match step with
  | withCapacity kind room => Storage.checkRoom kind room = .ok ()
  | ofArray dims data => ∃ array, TruthArray.ofInts dims data = .ok array
  | split v size => ∃ parts, (r.vector v).split size = .ok parts
  | pop v => 0 < (r.vector v).length
  | get v index | set v index _ => 0 ≤ index ∧ index < (r.vector v).length
  | resize v newLength _ =>
    Storage.checkResize (r.vector v).kind (r.vector v).length newLength = .ok ()
  | truncate v newLength => newLength ≤ (r.vector v).length
  | reserve v additional =>
    Storage.checkRoom (r.vector v).kind (max 0 ((r.vector v).length + additional)) = .ok ()
  | append v other => v ≠ other
  | range v start stop => 0 ≤ start ∧ start ≤ stop ∧ stop ≤ (r.vector v).length
  | _ => True

section Results

variable {β γ : Type}

theorem exists_map_eq_ok_iff {x : Except Error β} {f : β → γ} :
    (∃ c, x.map f = .ok c) ↔ ∃ b, x = .ok b := by
  cases x with
  | ok b => exact ⟨fun _ => ⟨b, rfl⟩, fun _ => ⟨f b, rfl⟩⟩
  | error e => exact ⟨nofun, nofun⟩

theorem exists_guard_eq_ok_iff {x : Except Error Unit} {c : γ} :
    (∃ d, (do x; return c) = .ok d) ↔ x = .ok () := by
  cases x with
  | ok b => exact ⟨fun _ => rfl, fun _ => ⟨c, rfl⟩⟩
  | error e => exact ⟨nofun, nofun⟩

theorem exists_ite_eq_ok_iff {p : Prop} [Decidable p] {b : β} {e : Error} :
    (∃ c, (if p then .ok b else .error e : Except Error β) = .ok c) ↔ p := by
  split_ifs with h
  · exact ⟨fun _ => h, fun _ => ⟨b, rfl⟩⟩
  · exact ⟨nofun, fun hp => absurd hp h⟩

theorem exists_ite_error_eq_ok_iff {p : Prop} [Decidable p] {b : β} {e : Error} :
    (∃ c, (if p then .error e else .ok b : Except Error β) = .ok c) ↔ ¬p := by
  split_ifs with h
  · exact ⟨nofun, fun hp => absurd h hp⟩
  · exact ⟨fun _ => h, fun _ => ⟨b, rfl⟩⟩

theorem exists_back_eq_ok_iff (cells : Array β) {e : Error} {f : β → γ} :
    (∃ c, (match cells.back? with
      | none => .error e
      | some b => .ok (f b) : Except Error γ) = .ok c) ↔ 0 < cells.size := by
  rcases cells.size.eq_zero_or_pos with hsize | hsize
  · have hback : cells.back? = none := by
      rw [Array.back?, hsize, Array.getElem?_eq_none (by omega)]
    rw [hback]
    exact ⟨nofun, fun h => absurd hsize h.ne'⟩
  · have hback : cells.back? = some cells[cells.size - 1] :=
      Array.getElem?_eq_getElem (Nat.sub_one_lt hsize.ne')
    rw [hback]
    exact ⟨fun _ => hsize, fun _ => ⟨f _, rfl⟩⟩

end Results

namespace Storage

variable {v : Storage α}

theorem exists_pop_eq_ok_iff : (∃ result, v.pop = .ok result) ↔ 0 < v.length := by
  cases v with
  | dense v => exact exists_map_eq_ok_iff.trans (exists_back_eq_ok_iff v.cells)
  | packed v =>
    refine exists_map_eq_ok_iff.trans (exists_ite_error_eq_ok_iff.trans ?_)
    exact Nat.pos_iff_ne_zero.symm
  | counted v =>
    refine exists_map_eq_ok_iff.trans (exists_ite_error_eq_ok_iff.trans ?_)
    exact Nat.pos_iff_ne_zero.symm
  | plain v => exact exists_map_eq_ok_iff.trans (exists_back_eq_ok_iff v.cells)

theorem exists_truncate_eq_ok_iff {n : Int} :
    (∃ w, v.truncate n = .ok w) ↔ n ≤ v.length := by
  cases v <;> exact exists_map_eq_ok_iff.trans (exists_ite_error_eq_ok_iff.trans not_lt)

theorem exists_resize_eq_ok_iff {n : Int} {a : α} :
    (∃ w, v.resize n a = .ok w) ↔ checkResize v.kind v.length n = .ok () := by
  rw [resize_eq]
  exact exists_map_eq_ok_iff.trans ⟨fun ⟨_, h⟩ => h, fun h => ⟨(), h⟩⟩

theorem exists_set_eq_ok_iff {index : Int} {a : α} :
    (∃ w, v.set index a = .ok w) ↔ 0 ≤ index ∧ index < v.length :=
  exists_map_eq_ok_iff.trans exists_ite_eq_ok_iff

theorem exists_get_eq_ok_iff {index : Int} :
    (∃ a, v.get index = .ok a) ↔ 0 ≤ index ∧ index < v.length :=
  exists_map_eq_ok_iff.trans exists_ite_eq_ok_iff

theorem exists_range_eq_ok_iff {start stop : Int} :
    (∃ elems, v.range start stop = .ok elems) ↔ 0 ≤ start ∧ start ≤ stop ∧ stop ≤ v.length :=
  exists_map_eq_ok_iff.trans exists_ite_eq_ok_iff

end Storage

namespace VectorStep

theorem exists_run_eq_ok_iff (step : VectorStep α) :
    (∃ result, step.run r = .ok result) ↔ step.Accepted r := by
  cases step with
  | withCapacity | reserve => exact exists_guard_eq_ok_iff
  | ofArray | split => exact exists_map_eq_ok_iff
  | pop => exact exists_map_eq_ok_iff.trans Storage.exists_pop_eq_ok_iff
  | get => exact exists_map_eq_ok_iff.trans Storage.exists_get_eq_ok_iff
  | set => exact exists_map_eq_ok_iff.trans Storage.exists_set_eq_ok_iff
  | resize => exact exists_map_eq_ok_iff.trans Storage.exists_resize_eq_ok_iff
  | truncate => exact exists_map_eq_ok_iff.trans Storage.exists_truncate_eq_ok_iff
  | append => exact exists_map_eq_ok_iff.trans exists_ite_error_eq_ok_iff
  | range => exact exists_map_eq_ok_iff.trans Storage.exists_range_eq_ok_iff
  | _ => exact ⟨fun _ => trivial, fun _ => ⟨_, rfl⟩⟩

/-! ### One instruction -/

/-- The room of a packed vector after an instruction that is not refused. -/
def capacityAfter (handle : Bank.Handle) (step : VectorStep α) (r : Registers α) : Nat :=
  let v := r.vector handle
  match step with
  | push target _ =>
    if target = handle then Bits.grown v.capacity (v.length + 1) else v.capacity
  | resize target newLength _ =>
    if target = handle ∧ v.length < newLength then Bits.grown v.capacity newLength.toNat
    else v.capacity
  | reserve target additional =>
    if target = handle then Bits.grown v.capacity (v.length + additional).toNat else v.capacity
  | extend target elems =>
    if target = handle ∧ elems ≠ [] then wordBits * wordCount (v.length + elems.length)
    else v.capacity
  | extendFrom target other | append target other =>
    if target = handle ∧ (r.vector other).length ≠ 0 then
      wordBits * wordCount (v.length + (r.vector other).length)
    else v.capacity
  | _ => v.capacity

theorem capacityAfter_of_not_changes {step : VectorStep α} (h : ¬step.Changes handle) :
    step.capacityAfter handle r = (r.vector handle).capacity := by
  cases step with
  | push | reserve => exact if_neg h
  | resize | extend | extendFrom => exact if_neg fun hchanges => h hchanges.1
  | append => exact if_neg fun hchanges => h (.inl hchanges.1)
  | _ => rfl

end VectorStep

/-- A handle that is not that of a vector reads as that of a dense one. -/
theorem Registers.has_of_kind (h : (r.vector handle).kind = .packed) : r.bank.Has handle := by
  by_contra hhas
  rw [vector, Bank.find_of_not_has hhas] at h
  cases h

theorem Storage.capacity_extend_packed (v : Bits) (elems : List α) :
    ((packed v).extend elems).capacity =
      if elems ≠ [] then wordBits * wordCount (v.length + elems.length) else v.capacity := by
  have hextend := Bits.capacity_extend v (elems.map Element.truth)
  simp only [List.map_eq_nil_iff, List.length_map] at hextend
  exact hextend.trans (ite_not ..).symm

theorem Storage.capacity_extendFrom_packed (v : Bits) (other : Storage α) :
    ((packed v).extendFrom other).capacity =
      if other.length ≠ 0 then wordBits * wordCount (v.length + other.length) else v.capacity := by
  have hextend := Bits.capacity_extend v other.truths
  simp only [← List.length_eq_zero_iff, Storage.length_truths] at hextend
  exact hextend.trans (ite_not ..).symm

/-- An instruction leaves a packed vector with the room that the table says. -/
theorem Registers.Becomes.capacity {step : VectorStep α} {w : Storage α}
    (h : r.Becomes handle step w) (hkind : (r.vector handle).kind = .packed) :
    w.capacity = step.capacityAfter handle r := by
  obtain ⟨v, hv⟩ := Storage.exists_packed_of_kind hkind
  cases h with
  | kept h => exact (VectorStep.capacityAfter_of_not_changes h).symm
  | push =>
    simp only [VectorStep.capacityAfter, if_true, hv]
    exact Bits.capacity_push v _
  | pop h =>
    rw [hv] at h
    obtain ⟨⟨value, w⟩, hpop, hw⟩ := exists_of_map_eq_ok h
    obtain ⟨-, rfl⟩ := Prod.mk.inj hw
    simp only [VectorStep.capacityAfter, hv]
    exact Bits.capacity_of_pop hpop
  | set h =>
    obtain ⟨place, -, rfl⟩ := exists_of_map_eq_ok h
    exact Storage.capacity_write ..
  | write => exact Storage.capacity_write ..
  | resize h =>
    obtain rfl := Storage.eq_withLength_of_resize h
    simp only [VectorStep.capacityAfter, true_and, hv]
    exact Bits.capacity_withLength v _ _
  | truncate h =>
    rw [hv] at h
    obtain ⟨w, hcut, rfl⟩ := exists_of_map_eq_ok h
    simp only [VectorStep.capacityAfter, hv]
    exact Bits.capacity_of_truncate hcut
  | clear =>
    simp only [VectorStep.capacityAfter, hv]
    exact Bits.capacity_zeros ..
  | reserve =>
    simp only [VectorStep.capacityAfter, if_true, hv]
    exact Bits.size_grow ..
  | extend elems =>
    simp only [VectorStep.capacityAfter, true_and, hv]
    exact Storage.capacity_extend_packed v elems
  | extendFrom | append =>
    simp only [VectorStep.capacityAfter, true_and, hv]
    exact Storage.capacity_extendFrom_packed v _
  | moved h =>
    simp only [VectorStep.capacityAfter, h, false_and, if_false, hv]
    exact Bits.capacity_zeros ..

namespace VectorStep

open Storage

/-! ### Room that was asked for -/

/-- The instruction leaves the vector with at most so many elements, and does not pack it anew. -/
def StaysWithin (handle : Bank.Handle) (room : Int) (step : VectorStep α) (r : Registers α) : Prop :=
  match step with
  | push target _ => target = handle → (r.vector handle).length + 1 ≤ room
  | resize target newLength _ => target = handle → newLength ≤ room
  | reserve target additional => target = handle → (r.vector handle).length + additional ≤ room
  | extend target elems => target = handle → elems = []
  | extendFrom target other | append target other => target = handle → (r.vector other).length = 0
  | _ => True

theorem capacityAfter_of_staysWithin {step : VectorStep α} {room : Int}
    (h : step.StaysWithin handle room r) (hroom : room ≤ (r.vector handle).capacity) :
    step.capacityAfter handle r = (r.vector handle).capacity := by
  have hfits {p : Prop} [Decidable p] {n : Nat} (hn : p → n ≤ (r.vector handle).capacity) :
      (if p then Bits.grown (r.vector handle).capacity n else (r.vector handle).capacity) =
        (r.vector handle).capacity := by
    split_ifs with hp
    · exact Bits.grown_of_le (hn hp)
    · rfl
  cases step with
  | push | reserve =>
    refine hfits fun htarget => ?_
    have hlength := h htarget
    omega
  | resize =>
    refine hfits fun hlonger => ?_
    have hlength := h hlonger.1
    omega
  | extend | extendFrom | append => exact if_neg fun hmore => hmore.2 (h hmore.1)
  | _ => rfl

theorem capacity_runAll_of_staysWithin {room : Int} (hhas : r.bank.Has handle)
    (hkind : (r.vector handle).kind = .packed) (hroom : room ≤ (r.vector handle).capacity)
    (steps : List (VectorStep α)) (hsteps : Along run (StaysWithin handle room) steps r) :
    ((runAll (m := Id) run steps r).2.vector handle).capacity = (r.vector handle).capacity := by
  refine (vector_runAll (Q := fun w => w.kind = .packed ∧ w.capacity = (r.vector handle).capacity)
    (fun step s w hstep hs hbecomes => ?_) steps hhas ⟨hkind, rfl⟩ hsteps).2.2
  have hroom' : room ≤ (s.vector handle).capacity := hroom.trans_eq (congrArg _ hs.2.symm)
  rw [hbecomes.capacity hs.1, capacityAfter_of_staysWithin hstep hroom', hs.2]
  exact ⟨hbecomes.kind_eq.trans hs.1, rfl⟩

/-! ### Elements one at a time -/

/-- The instruction pushes onto the vector. -/
def pushes (handle : Bank.Handle) : VectorStep α → Bool
  | push target _ => target == handle
  | _ => false

/-- The instruction changes the vector by a push, if at all. -/
def PushesOnly (handle : Bank.Handle) (step : VectorStep α) (_ : Registers α) : Prop :=
  step.Changes handle → step.pushes handle = true

instance PushesOnly.decidable (handle : Bank.Handle) (step : VectorStep α) (r : Registers α) :
    Decidable (step.PushesOnly handle r) :=
  inferInstanceAs (Decidable (_ → _))

omit [Element α] in
theorem exists_of_pushes {step : VectorStep α} (h : step.pushes handle = true) :
    ∃ a, step = .push handle a := by
  cases step with
  | push target a =>
    obtain rfl := beq_iff_eq.1 h
    exact ⟨a, rfl⟩
  | _ => cases h

theorem changes_of_becomes {step : VectorStep α} {w : Storage α} (h : r.Becomes handle step w) :
    w = r.vector handle ∨ step.Changes handle := by
  cases h with
  | kept => exact .inl rfl
  | append => exact .inr (.inl rfl)
  | moved => exact .inr (.inr rfl)
  | _ => exact .inr rfl

theorem doubling_of_becomes {step : VectorStep α} {w : Storage α} (hv : Doubling (r.vector handle))
    (hstep : step.PushesOnly handle r) (h : r.Becomes handle step w) : Doubling w := by
  obtain rfl | hchanges := changes_of_becomes h
  · exact hv
  obtain ⟨a, rfl⟩ := exists_of_pushes (hstep hchanges)
  have hcapacity := h.capacity hv.kind_eq
  have hlength : w.length = (r.vector handle).length + 1 := by
    cases h with
    | kept h => exact absurd rfl h
    | push a => exact length_push _ a
  refine ⟨h.kind_eq.trans hv.kind_eq, .inr ?_⟩
  simp only [capacityAfter, if_true] at hcapacity
  rw [hcapacity, hlength]
  rcases hv.capacity_eq with ⟨hlength, hcapacity⟩ | ⟨p, hp, hcapacity⟩
  · rw [hlength, hcapacity]
    exact ⟨1, ⟨⟨⟨0, rfl⟩, le_rfl⟩, fun q ⟨⟨k, hq⟩, _⟩ => hq ▸ Nat.one_le_two_pow⟩, rfl⟩
  · rw [hcapacity]
    exact Bits.leastPower_grown hp

theorem doubling_runAll (steps : List (VectorStep α)) (hhas : r.bank.Has handle)
    (hv : Doubling (r.vector handle)) (hsteps : Along run (PushesOnly handle) steps r) :
    Doubling ((runAll (m := Id) run steps r).2.vector handle) := by
  have hstep (step : VectorStep α) (s : Registers α) (w : Storage α)
      (honly : step.PushesOnly handle s) (hs : Doubling (s.vector handle))
      (hbecomes : s.Becomes handle step w) : Doubling w :=
    doubling_of_becomes hs honly hbecomes
  exact (vector_runAll hstep steps hhas hv hsteps).2

/-- The length counts the pushes. -/
theorem length_runAll_of_pushesOnly (steps : List (VectorStep α)) (hhas : r.bank.Has handle)
    (hsteps : Along run (PushesOnly handle) steps r) :
    ((runAll (m := Id) run steps r).2.vector handle).length =
      (r.vector handle).length + steps.countP (pushes handle) := by
  induction steps generalizing r with
  | nil => rfl
  | cons step steps ih =>
    obtain ⟨hafter, hvector⟩ := vector_after step hhas
    rw [runAll_cons]
    dsimp only
    rw [ih hafter hsteps.2, List.countP_cons]
    by_cases hpush : step.pushes handle = true
    · obtain ⟨a, rfl⟩ := exists_of_pushes hpush
      have hreplace : (r.after (run (.push handle a) r)).vector handle = (r.vector handle).push a :=
        Bank.find_replace_self hhas
      rw [hreplace, length_push, if_pos hpush]
      omega
    · have hsame : (r.after (step.run r)).vector handle = r.vector handle :=
        hvector.elim id fun hbecomes =>
          (changes_of_becomes hbecomes).resolve_right fun hchanges => hpush (hsteps.1 hchanges)
      rw [hsame, if_neg hpush, Nat.add_zero]

/-! ### Any history -/

variable {steps : List (VectorStep α)}

/-- An instruction leaves a packed vector with the room that the table says, unless it is refused. -/
theorem run_capacity (step : VectorStep α) (hhas : r.bank.Has handle)
    (hkind : (r.vector handle).kind = .packed) :
    (step.Accepted r → ∃ outcome s, step.run r = .ok (outcome, s) ∧
      (s.vector handle).kind = .packed ∧ (s.vector handle).capacity = step.capacityAfter handle r) ∧
    (¬step.Accepted r → ∃ e, step.run r = .error e) := by
  have hbecomes := Registers.becomes_run step hhas
  rw [← exists_run_eq_ok_iff]
  cases hrun : step.run r with
  | ok result =>
    rw [hrun] at hbecomes
    have hresult : (result.2.vector handle).kind = .packed := hbecomes.2.kind_eq.trans hkind
    exact ⟨fun _ => ⟨result.1, result.2, rfl, hresult, hbecomes.2.capacity hkind⟩,
      fun h => absurd ⟨result, rfl⟩ h⟩
  | error e => exact ⟨nofun, fun _ => ⟨e, rfl⟩⟩

/-- With room for some elements, no word is added before there are more. -/
theorem capacity_runAll_withCapacity {room : Int} {s : Registers α} (hhas : s.bank.Has handle)
    (hs : s.vector handle = .withCapacity .packed room) {later : List (VectorStep α)}
    (hlater : Along run (StaysWithin handle room) later s) :
    ((runAll (m := Id) run later s).2.vector handle).capacity = wordBits * wordCount room.toNat := by
  have hcapacity : (s.vector handle).capacity = wordBits * wordCount room.toNat := by
    rw [hs, Nat.mul_comm]
    exact Bits.capacity_zeros ..
  have hroom : room ≤ (s.vector handle).capacity := by
    have henough := Bits.wordCount_le room.toNat
    omega
  rw [capacity_runAll_of_staysWithin hhas (hs ▸ rfl) hroom later hlater, hcapacity]

/-- With room for more elements, no word is added before there are so many more. -/
theorem capacity_runAll_reserve (hhas : r.bank.Has handle)
    (hkind : (r.vector handle).kind = .packed) {additional : Int} {result : Outcome α × Registers α}
    (hrun : run (.reserve handle additional) r = .ok result) {later : List (VectorStep α)}
    (hlater : Along run (StaysWithin handle ((r.vector handle).length + additional)) later
      result.2) :
    ((runAll (m := Id) run later result.2).2.vector handle).capacity =
      Bits.grown (r.vector handle).capacity ((r.vector handle).length + additional).toNat := by
  have hbecomes := Registers.becomes_run (.reserve handle additional) hhas
  rw [hrun] at hbecomes
  obtain ⟨hhas', hbecomes⟩ := hbecomes
  have hkind' : (result.2.vector handle).kind = .packed := hbecomes.kind_eq.trans hkind
  have hcapacity := hbecomes.capacity hkind
  simp only [capacityAfter, if_true] at hcapacity
  have henough := Bits.le_grown (r.vector handle).capacity
    ((r.vector handle).length + additional).toNat
  rw [capacity_runAll_of_staysWithin hhas' hkind' (by omega) later hlater, hcapacity]

/-- Along any history the elements of a packed vector are within its room, and a proper instruction
that is not refused leaves it with the room that the table says; a copy has the same room. Room
that was reserved, or that a vector was made with, stays as it is while the vector stays within it. A
new vector whose elements are all pushed has the least power of two of words that hold them. -/
theorem packed_capacity [LawfulElement α] (hsteps : Along run Proper steps .empty)
    (hr : (runAll (m := Id) run steps .empty).2 = r) (hkind : (r.vector handle).kind = .packed) :
    let v := r.vector handle
    let new := r.bank.vectors.size
    v.length ≤ v.capacity ∧
    (∀ step : VectorStep α, step.Proper r →
      (step.Accepted r → ∃ outcome s, step.run r = .ok (outcome, s) ∧
        (s.vector handle).kind = .packed ∧
        (s.vector handle).capacity = step.capacityAfter handle r) ∧
      (¬step.Accepted r → ∃ e, step.run r = .error e)) ∧
    (∃ s, run (.copy handle) r = .ok (.vector new, s) ∧ (s.vector new).kind = .packed ∧
      (s.vector new).capacity = v.capacity) ∧
    (∀ additional, Accepted (.reserve handle additional) r →
      ∃ s, run (.reserve handle additional) r = .ok (.nothing, s) ∧
        ∀ later, Along run
            (fun step s => step.Proper s ∧ step.StaysWithin handle (v.length + additional) s) later s →
          ((runAll (m := Id) run later s).2.vector handle).capacity =
            Bits.grown v.capacity (v.length + additional).toNat) ∧
    (∀ room, Accepted (.withCapacity .packed room) r →
      ∃ s, run (.withCapacity .packed room) r = .ok (.vector new, s) ∧
        ∀ later, Along run (fun step s => step.Proper s ∧ step.StaysWithin new room s) later s →
          ((runAll (m := Id) run later s).2.vector new).capacity = wordBits * wordCount room.toNat) ∧
    ∃ s, run (.empty .packed) r = .ok (.vector new, s) ∧
      ∀ later, Along run (PushesOnly new) later s →
        let w := (runAll (m := Id) run later s).2.vector new
        w.length = later.countP (pushes new) ∧
        (0 < w.length → ∃ p, LeastPower (wordCount w.length) p ∧ w.capacity = wordBits * p) := by
  have hhas : r.bank.Has handle := Registers.has_of_kind hkind
  have hwell : (r.vector handle).WellFormed :=
    hr ▸ padded_runAll steps Registers.padded_empty hsteps handle
  refine ⟨length_le_capacity hwell hkind, fun step _ => run_capacity step hhas hkind, ?copied,
    fun additional hroom => ?reserved, fun room hroom => ?asked, ?pushed⟩
  case copied =>
    have hvector := (r.vector_addVector_self (r.vector handle).copy).2
    exact ⟨_, rfl, (congrArg kind hvector).trans ((kind_copy _).trans hkind),
      (congrArg Storage.capacity hvector).trans (capacity_copy hkind)⟩
  case reserved =>
    have hrun : run (.reserve handle additional) r =
        .ok (r.replace handle ((r.vector handle).reserve additional)) := by
      rw [run, show checkRoom _ _ = .ok () from hroom]
      rfl
    exact ⟨_, hrun, fun later hlater =>
      capacity_runAll_reserve hhas hkind hrun (hlater.imp fun _ _ h => h.2)⟩
  case asked =>
    obtain ⟨hhas', hvector⟩ := r.vector_addVector_self (.withCapacity .packed room)
    have hrun : run (.withCapacity .packed room) r =
        .ok (r.addVector (.withCapacity .packed room)) := by
      rw [run, show checkRoom .packed room = .ok () from hroom]
      rfl
    exact ⟨_, hrun, fun later hlater =>
      capacity_runAll_withCapacity hhas' hvector (hlater.imp fun _ _ h => h.2)⟩
  case pushed =>
    obtain ⟨hhas', hvector⟩ := r.vector_addVector_self (.empty .packed)
    have hstart : Doubling ((r.addVector (.empty .packed)).2.vector r.bank.vectors.size) := by
      rw [hvector]
      exact ⟨rfl, .inl ⟨rfl, rfl⟩⟩
    refine ⟨_, rfl, fun later hlater => ⟨?_, fun hpos => ?_⟩⟩
    · have hlength := length_runAll_of_pushesOnly later hhas' hlater
      rw [hvector] at hlength
      exact hlength.trans (Nat.zero_add _)
    · have hdoubling := doubling_runAll later hhas' hstart hlater
      exact hdoubling.capacity_eq.resolve_left fun hempty => hpos.ne' hempty.1

/-- From one word, room for 65 elements takes three words; pushed one at a time they take four. -/
theorem packed_capacity_of_one_word : ∃ r : Registers Bool, (r.vector 0).capacity = 32 ∧
    (∃ s, run (.reserve 0 64) r = .ok (.nothing, s) ∧
      ((runAll (m := Id) run [.resize 0 65 true, .pop 0, .resize 0 65 false] s).2.vector
        0).capacity = 96) ∧
    ∃ s, run (.empty .packed) r = .ok (.vector 1, s) ∧
      ((runAll (m := Id) run (List.replicate 65 (.push 1 true)) s).2.vector 1).capacity = 128 := by
  let r : Registers Bool := (runAll (m := Id) run [.ofList .packed [true]] .empty).2
  have hkind : (r.vector 0).kind = .packed := rfl
  have hproper : Along (α := Bool) run Proper [.ofList .packed [true]] .empty := by decide
  obtain ⟨-, -, -, hreserve, -, s, hempty, hpushed⟩ := packed_capacity hproper rfl hkind
  obtain ⟨t, hrun, hkept⟩ := hreserve 64 (show Storage.checkRoom .packed 65 = .ok () from rfl)
  have hwithin : Along run (fun step s => step.Proper s ∧ step.StaysWithin 0 65 s)
      [.resize 0 65 true, .pop 0, .resize 0 65 false] t :=
    ⟨⟨Int.natCast_nonneg 65, fun _ => le_rfl⟩, ⟨trivial, trivial⟩,
      ⟨Int.natCast_nonneg 65, fun _ => le_rfl⟩, trivial⟩
  have honly (n : Nat) (r : Registers Bool) :
      Along run (PushesOnly 1) (List.replicate n (.push 1 true)) r := by
    induction n generalizing r with
    | zero => trivial
    | succ n ih => exact ⟨fun _ => rfl, ih _⟩
  obtain ⟨hpushes, hpower⟩ := hpushed (List.replicate 65 (.push 1 true)) (honly 65 s)
  have hlength := hpushes.trans (show _ = 65 by decide +kernel)
  obtain ⟨p, hp, hwords⟩ := hpower (by rw [hlength]; decide)
  have hleast : LeastPower (wordCount 65) 4 := by
    refine ⟨⟨⟨2, rfl⟩, by decide⟩, ?_⟩
    rintro q ⟨⟨k, rfl⟩, hk⟩
    have hlt : 1 < k := (Nat.pow_lt_pow_iff_right one_lt_two).1 (Nat.lt_of_succ_le hk)
    exact Nat.pow_le_pow_right two_pos hlt
  rw [hlength] at hp
  exact ⟨r, by decide +kernel, ⟨t, hrun, (hkept _ hwithin).trans (by decide +kernel)⟩, s, hempty,
    hwords.trans (congrArg (wordBits * ·) (hp.unique hleast))⟩

end VectorStep

end BoolTensor
