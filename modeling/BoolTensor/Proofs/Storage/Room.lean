import BoolTensor.Proofs.Storage.Inherited

/-!
# Room in vectors

How many elements a vector has room for after each operation. A packed vector that grows past its
room gets at least twice the words that it had; with several elements at its end it is packed anew,
into as many words as they need; otherwise it keeps its words. A dense vector has the room that was
reserved, and what elements beyond it take.

## Main definitions

* `Bits.grown`: the room after growth to a length
* `LeastPower`: the least power of two from a number on
* `Storage.Doubling`: a vector has no room yet, or a power of two of words
* `Dense.WithinRoom`, `Storage.WithinRoom`: a dense vector has no more elements than there is room
  reserved for
-/

namespace BoolTensor

/-- The least power of two that is not below `n`. -/
def LeastPower (n p : Nat) : Prop :=
  IsLeast {p | (∃ k, p = 2 ^ k) ∧ n ≤ p} p

namespace Bits

variable {v : Bits}

/-- The room of a packed vector that grows to a length: as it is where the length fits, otherwise
that of as many words as the length needs, and of at least twice the words that there were. -/
def grown (capacity newLength : Nat) : Nat :=
  if newLength ≤ capacity then capacity
  else wordBits * max (wordCount newLength) (2 * (capacity / wordBits))

theorem grown_of_le {capacity n : Nat} (h : n ≤ capacity) : grown capacity n = capacity :=
  if_pos h

theorem le_grown (capacity n : Nat) : n ≤ grown capacity n := by
  rw [grown]
  split_ifs with h
  · exact h
  · exact (wordCount_le n).trans (Nat.mul_le_mul_left _ (le_max_left _ _))

/-- Room that doubles when it is full stays the least power of two that will do. -/
theorem leastPower_grown {n p : Nat} (hp : LeastPower (wordCount n) p) :
    ∃ q, LeastPower (wordCount (n + 1)) q ∧ grown (wordBits * p) (n + 1) = wordBits * q := by
  obtain ⟨⟨⟨k, rfl⟩, henough⟩, hleast⟩ := hp
  have hcount : wordCount n ≤ wordCount (n + 1) := Nat.div_le_div_right (by omega)
  by_cases hfits : n + 1 ≤ wordBits * 2 ^ k
  · refine ⟨2 ^ k, ⟨⟨⟨k, rfl⟩, ?_⟩, fun q hq => hleast ⟨hq.1, hcount.trans hq.2⟩⟩,
      grown_of_le hfits⟩
    simp only [wordCount, wordBits] at hfits ⊢
    omega
  · -- All words are full, so that one more element asks for just one more word.
    have hfull : wordCount (n + 1) = 2 ^ k + 1 := by
      simp only [wordCount, wordBits] at hfits henough ⊢
      omega
    have hpos : 0 < 2 ^ k := Nat.two_pow_pos k
    refine ⟨2 ^ (k + 1), ⟨⟨⟨k + 1, rfl⟩, ?_⟩, ?_⟩, ?_⟩
    · rw [hfull, Nat.pow_succ]
      omega
    · rintro q ⟨⟨j, rfl⟩, hj⟩
      have hlt : k < j := (Nat.pow_lt_pow_iff_right one_lt_two).1 (hfull.symm.trans_le hj)
      exact Nat.pow_le_pow_right two_pos hlt
    · rw [grown, if_neg hfits, hfull, Nat.mul_div_cancel_left _ (by decide), Nat.pow_succ,
        max_eq_right (by omega), Nat.mul_comm 2]

theorem size_grow (words : Array UInt32) (n : Nat) :
    (grow words n).size * wordBits = grown (words.size * wordBits) n := by
  have hfits : wordCount n > words.size ↔ ¬n ≤ words.size * wordBits := by
    simp only [wordCount, wordBits]
    omega
  rw [grow, grown]
  by_cases hle : n ≤ words.size * wordBits
  · rw [if_neg (not_not.2 hle ∘ hfits.1), if_pos hle]
  · have hmore : words.size ≤ max (wordCount n) (2 * words.size) := by
      omega
    rw [if_pos (hfits.2 hle), if_neg hle, Array.size_append, Array.size_replicate,
      Nat.add_sub_of_le hmore, Nat.mul_div_cancel _ (by decide), Nat.mul_comm]

theorem length_le_capacity (h : v.WellFormed) : v.length ≤ v.capacity :=
  h.1.trans_eq (Nat.mul_comm ..)

theorem capacity_ofList (elems : List Bool) :
    (ofList elems).capacity = wordBits * wordCount elems.length := by
  have hsize : (ofList elems).words.size = wordCount elems.length := Array.size_ofFn
  rw [capacity, hsize, Nat.mul_comm]

theorem capacity_zeros (count length : Nat) :
    capacity ⟨Array.replicate count 0, length⟩ = count * wordBits :=
  congrArg (· * wordBits) Array.size_replicate

theorem capacity_assign (words : Array UInt32) (p length : Nat) (value : Bool) :
    capacity ⟨Words.assign words p value, length⟩ = words.size * wordBits :=
  congrArg (· * wordBits) (Words.size_assign ..)

theorem capacity_cut (v : Bits) (n : Nat) : (v.cut n).capacity = v.capacity :=
  congrArg (· * wordBits) Array.size_mapIdx

theorem capacity_push (v : Bits) (value : Bool) :
    (v.push value).capacity = grown v.capacity (v.length + 1) := by
  rw [capacity, capacity, ← size_grow, push]
  cases value with
  | true => exact capacity_assign ..
  | false => rfl

theorem capacity_withLength (v : Bits) (newLength : Int) (value : Bool) :
    (v.withLength newLength value).capacity =
      if v.length < newLength then grown v.capacity newLength.toNat else v.capacity := by
  rw [withLength]
  by_cases hcut : newLength ≤ v.length
  · rw [if_pos hcut, if_neg (not_lt.2 hcut)]
    exact capacity_cut ..
  · rw [if_neg hcut, if_pos (not_le.1 hcut), capacity, capacity, ← size_grow]
    cases value with
    | true => exact congrArg (· * wordBits) (Words.size_fill ..)
    | false => rfl

theorem capacity_extend (v : Bits) (elems : List Bool) :
    (v.extend elems).capacity =
      if elems = [] then v.capacity else wordBits * wordCount (v.length + elems.length) := by
  rw [extend]
  simp only [List.isEmpty_iff]
  split_ifs
  · rfl
  · rw [capacity_ofList, List.length_append, length_toList]

theorem capacity_of_pop {value : Bool} {w : Bits} (h : v.pop = .ok (value, w)) :
    w.capacity = v.capacity := by
  rw [pop] at h
  split_ifs at h
  obtain ⟨-, rfl⟩ := Prod.mk.inj (Except.ok.inj h)
  exact capacity_assign ..

theorem capacity_of_truncate {newLength : Int} {w : Bits} (h : v.truncate newLength = .ok w) :
    w.capacity = v.capacity := by
  rw [truncate] at h
  split_ifs at h
  obtain rfl := Except.ok.inj h
  exact capacity_cut ..

end Bits

namespace Dense

variable {α : Type} {v w : Dense α}

/-- There are no more elements than there is room reserved for. -/
def WithinRoom (v : Dense α) : Prop :=
  v.cells.size ≤ v.reserved

theorem reserved_foldl_extend (v : Dense α) (lists : List (List α)) :
    (lists.foldl extend v).reserved = v.reserved := by
  induction lists generalizing v with
  | nil => rfl
  | cons list lists ih => exact ih (v.extend list)

theorem size_take_le (cells : Array α) (n : Nat) : (cells.take n).size ≤ cells.size := by
  rw [Array.take_eq_extract, Array.size_extract]
  exact (Nat.sub_le _ _).trans (min_le_right _ _)

theorem WithinRoom.pop (h : v.WithinRoom) {a : α} (hpop : v.pop = .ok (a, w)) :
    w.WithinRoom := by
  rw [Dense.pop] at hpop
  cases hback : v.cells.back? with
  | none =>
    rw [hback] at hpop
    cases hpop
  | some last =>
    rw [hback] at hpop
    obtain ⟨-, rfl⟩ := Prod.mk.inj (Except.ok.inj hpop)
    exact Array.size_pop.trans_le ((Nat.sub_le _ _).trans h)

theorem WithinRoom.truncate (h : v.WithinRoom) {newLength : Int}
    (hcut : v.truncate newLength = .ok w) : w.WithinRoom := by
  rw [Dense.truncate] at hcut
  split_ifs at hcut
  obtain rfl := Except.ok.inj hcut
  exact (size_take_le ..).trans h

theorem WithinRoom.withLength (h : v.WithinRoom) {newLength : Int}
    (hlength : newLength ≤ v.reserved) (a : α) : (v.withLength newLength a).WithinRoom := by
  rw [Dense.withLength]
  split_ifs
  · refine Array.size_append.trans_le ?_
    rw [Array.size_replicate]
    change v.cells.size + (newLength.toNat - v.cells.size) ≤ v.reserved
    omega
  · exact (size_take_le ..).trans h

end Dense

namespace Storage

variable {α : Type} [Element α]

omit [Element α] in
theorem exists_packed_of_kind {v : Storage α} (h : v.kind = .packed) : ∃ w, v = packed w := by
  cases v with
  | packed v => exact ⟨v, rfl⟩
  | _ => cases h

omit [Element α] in
theorem exists_dense_of_kind {v : Storage α} (h : v.kind = .dense) : ∃ w, v = dense w := by
  cases v with
  | dense v => exact ⟨v, rfl⟩
  | _ => cases h

theorem length_push (v : Storage α) (a : α) : (v.push a).length = v.length + 1 := by
  cases v with
  | dense v => exact Array.size_push a
  | plain v => exact Array.size_push a
  | _ => rfl

theorem length_le_capacity {v : Storage α} (h : v.WellFormed) (hkind : v.kind = .packed) :
    v.length ≤ v.capacity := by
  obtain ⟨v, rfl⟩ := exists_packed_of_kind hkind
  exact Bits.length_le_capacity h

theorem capacity_copy {v : Storage α} (hkind : v.kind = .packed) :
    v.copy.capacity = v.capacity := by
  obtain ⟨v, rfl⟩ := exists_packed_of_kind hkind
  rfl

/-- A packed vector has no room yet, or the least power of two of words that hold its elements. -/
structure Doubling (v : Storage α) : Prop where
  kind_eq : v.kind = .packed
  capacity_eq : v.length = 0 ∧ v.capacity = 0 ∨
    ∃ p, LeastPower (wordCount v.length) p ∧ v.capacity = wordBits * p

/-! ### Room that was reserved -/

/-- A dense vector has no more elements than there is room reserved for. -/
def WithinRoom : Storage α → Prop
  | dense v => v.WithinRoom
  | _ => True

omit [Element α] in
theorem withinRoom_of_kind_ne {v : Storage α} (h : v.kind ≠ .dense) : v.WithinRoom := by
  cases v with
  | dense v => exact absurd rfl h
  | _ => trivial

theorem length_clear (v : Storage α) : v.clear.length = 0 := by
  cases v <;> rfl

/-- Clearing keeps the room just where there are no elements beyond what was reserved. -/
theorem capacity_clear_iff {v : Storage α} (hkind : v.kind ≠ .plain) :
    v.clear.capacity = v.capacity ↔ v.WithinRoom := by
  cases v with
  | dense v =>
    have hclear : (dense v).clear.capacity = v.reserved := Nat.max_zero _
    rw [hclear]
    exact left_eq_sup
  | packed v => exact iff_of_true (Bits.capacity_zeros ..) trivial
  | counted v => exact iff_of_true rfl trivial
  | plain v => exact absurd rfl hkind

theorem capacity_of_withinRoom {v : Dense α} (h : (dense v).WithinRoom) :
    (dense v).capacity = v.reserved :=
  max_eq_left h

theorem withinRoom_empty (kind : Kind) : (empty kind : Storage α).WithinRoom := by
  cases kind with
  | dense => exact le_rfl
  | _ => trivial

theorem withinRoom_withCapacity (kind : Kind) (room : Int) :
    (withCapacity kind room : Storage α).WithinRoom := by
  cases kind with
  | dense => exact Nat.zero_le _
  | _ => trivial

theorem withinRoom_fromElem (kind : Kind) (a : α) : (fromElem kind a).WithinRoom := by
  cases kind with
  | dense => exact le_rfl
  | _ => trivial

theorem withinRoom_ofList (kind : Kind) (elems : List α) : (ofList kind elems).WithinRoom := by
  cases kind with
  | dense => exact le_rfl
  | _ => trivial

theorem withinRoom_concat (kind : Kind) (parts : List (Storage α)) :
    (concat kind parts).WithinRoom := by
  cases kind with
  | dense =>
    have hlength : (concat .dense parts).length = (parts.map length).foldr (· + ·) 0 := by
      rw [← length_toList, toList_concat_dense, List.length_flatten, List.map_map]
      exact congrArg List.sum (List.map_congr_left fun v _ => length_toList v)
    have hreserved := Dense.reserved_foldl_extend
      (Sequence.withCapacity ((parts.map length).foldr (· + ·) 0 : Nat)) (parts.map toList)
    exact (hlength.trans hreserved.symm).le
  | _ => trivial

theorem withinRoom_copy (v : Storage α) : v.copy.WithinRoom := by
  cases v with
  | dense v => exact le_rfl
  | _ => trivial

theorem withinRoom_gather (v : Storage α) (indices : List Int) : (v.gather indices).WithinRoom := by
  cases v with
  | dense v => exact le_rfl
  | _ => trivial

theorem withinRoom_split (v : Storage α) (size : Int) :
    Meets (fun parts => ∀ part ∈ parts, part.WithinRoom) (fun _ => True) (v.split size) :=
  forall_mem_split (withinRoom_ofList .dense) (fun _ => trivial) (fun _ => trivial)
    (fun _ => trivial) v size

end Storage

end BoolTensor
