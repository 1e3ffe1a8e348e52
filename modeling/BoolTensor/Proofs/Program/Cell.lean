import BoolTensor.Program.Tensor
import BoolTensor.Proofs.Program.Registers
import BoolTensor.Proofs.Shape.Indexing
import BoolTensor.Proofs.Storage.Holds
import BoolTensor.Proofs.Tensor.Polymer

/-!
# One cell of a tensor is set

In dense storage, among the bits of a word and where only the number of elements is stored: at each
coordinates there is a cell of its own, so that a cell which is set reads back what the storage
keeps of the element, and the cells at all other coordinates read as before. Where there is no cell,
a tensor refuses to be set for the reason for which it refuses to be read.

## Main definitions

* `Tensor.write`, `Registers.writeCell`: the tensor and the registers with one cell replaced
-/

namespace BoolTensor

variable {α : Type} [Element α]

theorem Shape.exists_index_eq_error {s : Shape} {coords : List Int} (h : ¬s.Locates coords) :
    ∃ e, s.index coords = .error e := by
  cases hindex : s.index coords with
  | error e => exact ⟨e, rfl⟩
  | ok n =>
    obtain ⟨places, hplaces, rfl, -⟩ := Shape.index_eq_ok_iff.1 hindex
    exact absurd (Shape.locates_iff_exists.2 ⟨places, hplaces, rfl⟩) h

namespace Tensor

/-- The tensor with another element in the cell at coordinates that it has. -/
def write (t : Tensor α) (places : List Nat) (elem : α) : Tensor α :=
  { t with elems := t.elems.write (t.shape.offset places) elem }

variable {t : Tensor α} {places others : List Nat} {coords : List Int}

theorem WellFormed.write (ht : t.WellFormed) (places : List Nat) (elem : α) :
    (t.write places elem).WellFormed :=
  (Storage.length_write ..).trans ht

theorem set_of_contains (ht : t.WellFormed) (h : t.shape.Contains places) (elem : α) :
    t.set (places.map Int.ofNat) elem = .ok (t.write places elem) := by
  have hplace : t.shape.offset places < t.elems.length := ht ▸ Shape.offset_lt h
  have hset : t.elems.set (t.shape.offset places : Nat) elem = _ := Storage.set_of_lt hplace elem
  rw [set, Shape.index_of_contains h]
  change (t.elems.set (t.shape.offset places : Nat) elem >>= fun elems =>
    pure { t with elems := elems }) = _
  rw [hset]
  rfl

/-- Other coordinates are those of another cell. -/
theorem cellAt_write (ht : t.WellFormed) (hstored : t.elems.WellFormed)
    (h : t.shape.Contains places) (hothers : t.shape.Contains others) (elem : α) :
    (t.write places elem).cellAt others =
      if others = places then t.elems.kind.keeps elem else t.cellAt others := by
  have hplace : t.shape.offset places < t.elems.length := ht ▸ Shape.offset_lt h
  rw [cellAt, write, Storage.toList_write hstored hplace, List.getD_eq_getElem?_getD,
    List.getElem?_set]
  by_cases hsame : others = places
  · subst hsame
    simp [Storage.length_toList, hplace]
  · have hne : t.shape.offset places ≠ t.shape.offset others := fun heq =>
      hsame ((Shape.Within.offsetIn_inj h hothers).1 heq).symm
    rw [if_neg hne, if_neg hsame, cellAt, List.getD_eq_getElem?_getD]

theorem get_write (ht : t.WellFormed) (hstored : t.elems.WellFormed)
    (h : t.shape.Contains places) (hothers : t.shape.Contains others) (elem : α) :
    (t.write places elem).get (others.map Int.ofNat) =
      .ok (if others = places then t.elems.kind.keeps elem else t.cellAt others) := by
  rw [get_eq_cellAt (ht.write places elem) hothers, cellAt_write ht hstored h hothers]

/-- Where there is no cell, it is neither read nor set. -/
theorem exists_get_set_eq_error (h : ¬t.shape.Locates coords) (elem : α) :
    ∃ e, t.get coords = .error e ∧ t.set coords elem = .error e := by
  obtain ⟨e, he⟩ := Shape.exists_index_eq_error h
  refine ⟨e, ?_, ?_⟩
  · rw [get, he]
    rfl
  · rw [set, he]
    rfl

end Tensor

namespace Registers

/-- The registers with another element in a cell of a tensor. -/
def writeCell (r : Registers α) (number : Nat) (places : List Nat) (elem : α) : Registers α :=
  { r with
    bank := r.bank.replace (r.view number).handle ((r.tensor number).write places elem).elems }

variable {r : Registers α} {number : Nat} {places : List Nat} {coords : List Int}

theorem tensor_writeCell (h : r.HasTensor number) (elem : α) :
    (r.writeCell number places elem).tensor number = (r.tensor number).write places elem :=
  congrArg (Tensor.mk _) ((Bank.find_replace h.2 _ _).trans (if_pos rfl))

theorem hasTensor_writeCell (h : r.HasTensor number) (elem : α) :
    (r.writeCell number places elem).HasTensor number :=
  ⟨h.1, h.2.trans_eq (Bank.size_replace ..).symm⟩

theorem vector_writeCell (h : r.HasTensor number) {handle : Bank.Handle}
    (hother : handle ≠ (r.view number).handle) (elem : α) :
    (r.writeCell number places elem).vector handle = r.vector handle :=
  (Bank.find_replace h.2 _ _).trans (if_neg hother)

end Registers

namespace TensorStep

variable {r : Registers α} {number : Nat} {places : List Nat} {coords : List Int}

theorem run_set_of_contains (hcount : (r.tensor number).WellFormed)
    (hplaces : (r.tensor number).shape.Contains places) (elem : α) :
    (set number (places.map Int.ofNat) elem).run r =
      .ok (.nothing, r.writeCell number places elem) := by
  have hset : (r.bank.tensor (r.view number)).set (places.map Int.ofNat) elem =
      .ok ((r.tensor number).write places elem) := Tensor.set_of_contains hcount hplaces elem
  rw [run, Bank.setCell, hset]
  rfl

theorem exists_run_eq_error (h : ¬(r.tensor number).shape.Locates coords) (elem : α) :
    ∃ e, (get number coords).run r = .error e ∧ (set number coords elem).run r = .error e := by
  obtain ⟨e, hget, hset⟩ := Tensor.exists_get_set_eq_error h elem
  refine ⟨e, ?_, ?_⟩
  · rw [run, hget]
    rfl
  · have hset' : (r.bank.tensor (r.view number)).set coords elem = .error e := hset
    rw [run, Bank.setCell, hset']
    rfl

end TensorStep

/-- At the coordinates of a cell, a tensor in whatever storage is set and then reads what the
storage keeps of the element there, which is the element itself if it is of the type that is stored.
At all other coordinates it reads as before; its shape, its length and the room that it has stay,
and so do the other vectors, so that the next cell can be set in the same way. At coordinates
without a cell it is refused with the error with which reading is, and a program goes on from the
registers that were there. -/
theorem set_changes_one_cell {r : Registers α} {number : Nat} (hnumber : r.HasTensor number)
    (hcount : (r.tensor number).WellFormed) (hstored : (r.tensor number).elems.WellFormed)
    (coords : List Int) (elem : α) :
    let t := r.tensor number
    (t.shape.Locates coords → ∃ r', (TensorStep.set number coords elem).run r = .ok (.nothing, r') ∧
      (r'.tensor number).get coords = .ok (t.elems.kind.keeps elem) ∧
      (t.elems.kind.keeps elem = elem → (r'.tensor number).get coords = .ok elem) ∧
      (∀ others, t.shape.Locates others → others ≠ coords → ∃ value,
        t.get others = .ok value ∧ (r'.tensor number).get others = .ok value) ∧
      (r'.tensor number).shape = t.shape ∧ (r'.tensor number).elems.kind = t.elems.kind ∧
      (r'.tensor number).elems.length = t.elems.length ∧
      (r'.tensor number).elems.capacity = t.elems.capacity ∧
      (r'.HasTensor number ∧ (r'.tensor number).WellFormed ∧
        (r'.tensor number).elems.WellFormed) ∧
      r'.views = r.views ∧
      ∀ handle, handle ≠ (r.view number).handle → r'.vector handle = r.vector handle) ∧
    (¬t.shape.Locates coords → ∃ e,
      runAll (m := Id) TensorStep.run [.get number coords, .set number coords elem] r =
        ([.error e, .error e], r)) := by
  intro t
  constructor
  · intro hlocates
    obtain ⟨places, hplaces, rfl⟩ := Shape.locates_iff_exists.1 hlocates
    have htensor : (r.writeCell number places elem).tensor number = t.write places elem :=
      Registers.tensor_writeCell hnumber elem
    have hread : (t.write places elem).get (places.map Int.ofNat) =
        .ok (t.elems.kind.keeps elem) := by
      rw [Tensor.get_write hcount hstored hplaces hplaces, if_pos rfl]
    refine ⟨_, TensorStep.run_set_of_contains hcount hplaces elem, ?_⟩
    rw [htensor]
    refine ⟨hread, fun hkeeps => hread.trans (congrArg Except.ok hkeeps), ?others, rfl,
      Storage.kind_write .., Storage.length_write .., Storage.capacity_write ..,
      ⟨Registers.hasTensor_writeCell hnumber elem, hcount.write places elem,
        hstored.write (hcount ▸ Shape.offset_lt hplaces) elem⟩, rfl,
      fun handle hother => Registers.vector_writeCell hnumber hother elem⟩
    case others =>
      intro others hothers hne
      obtain ⟨places', hplaces', rfl⟩ := Shape.locates_iff_exists.1 hothers
      have hne' : places' ≠ places := fun heq => hne (congrArg _ heq)
      refine ⟨t.cellAt places', Tensor.get_eq_cellAt hcount hplaces', ?_⟩
      rw [Tensor.get_write hcount hstored hplaces hplaces', if_neg hne']
  · intro hlocates
    obtain ⟨e, hget, hset⟩ := TensorStep.exists_run_eq_error hlocates elem
    refine ⟨e, ?_⟩
    have hkept : r.after (.error e) = r := rfl
    rw [runAll_cons, hget, hkept, runAll_cons, hset]
    rfl

/-- Bits of two words and a dense tensor: the first cell of the second word is set, and the last
ones of the first word stay. -/
theorem set_changes_one_cell_of_words :
    let r := (runAll (m := Id) TensorStep.run [.constant [3, 11] false .packed,
      .ofList [2] [true, false] .dense] (.empty : Registers Bool)).2
    (∃ r', (TensorStep.set 0 [2, 10] true).run r = .ok (.nothing, r') ∧
      (r'.tensor 0).get [2, 10] = .ok true ∧ (r'.tensor 0).get [1, 10] = .ok false ∧
      (r'.tensor 0).elems.capacity = 64 ∧ r'.vector 1 = r.vector 1) ∧
    (∃ r', (TensorStep.set 1 [1] true).run r = .ok (.nothing, r') ∧
      (r'.tensor 1).get [1] = .ok true) ∧
    ∃ e, runAll (m := Id) TensorStep.run [.get 1 [2], .set 1 [2] true] r =
      ([.error e, .error e], r) := by
  intro r
  have hnumber : r.HasTensor 0 := ⟨by decide +kernel, by decide +kernel⟩
  have hnumber' : r.HasTensor 1 := ⟨by decide +kernel, by decide +kernel⟩
  have hcount : (r.tensor 0).WellFormed := by decide +kernel
  have hcount' : (r.tensor 1).WellFormed := by decide +kernel
  have hstored : (r.tensor 0).elems.WellFormed :=
    (Storage.holds_withLength_withCapacity .packed (33 : Nat) 33 false).wellFormed
  obtain ⟨hpacked, -⟩ := set_changes_one_cell hnumber hcount hstored [2, 10] true
  obtain ⟨hdense, -⟩ := set_changes_one_cell hnumber' hcount' trivial [1] true
  obtain ⟨-, hout⟩ := set_changes_one_cell hnumber' hcount' trivial [2] true
  refine ⟨?_, ?_, hout fun hlocates =>
    absurd (hlocates.2 0 (by decide +kernel)) (by decide +kernel)⟩
  · obtain ⟨r', hrun, -, hread, hothers, -, -, -, hcapacity, -, -, hvectors⟩ :=
      hpacked ⟨by decide +kernel, by decide +kernel⟩
    obtain ⟨value, hbefore, hafter⟩ := hothers [1, 10] ⟨by decide +kernel, by decide +kernel⟩
      (by decide)
    have hfalse : (r.tensor 0).get [1, 10] = .ok false := by decide +kernel
    refine ⟨r', hrun, hread rfl, hafter.trans (hbefore.symm.trans hfalse), ?_,
      hvectors 1 (by decide +kernel)⟩
    exact hcapacity.trans (by decide +kernel)
  · obtain ⟨r', hrun, -, hread, -⟩ := hdense ⟨by decide +kernel, by decide +kernel⟩
    exact ⟨r', hrun, hread rfl⟩

end BoolTensor
