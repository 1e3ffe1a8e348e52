import BoolTensor.Proofs.Ending
import BoolTensor.Proofs.Storage.Basic

/-!
# Vectors that hold elements

What an operation on vectors gives is determined by the elements that they hold. A vector of any
kind that holds some elements holds the expected ones after each operation, and where one is
refused, it is for the elements alone. Only plain vectors have refusals of their own.

## Main definitions

* `Storage.Holds`: a well-formed vector of a kind, with its elements
-/

namespace BoolTensor

theorem keptLength_of_le {length n : Nat} (hn : n ≤ length) : keptLength length n = n := by
  rw [keptLength, if_neg (by omega), Int.toNat_natCast, min_eq_right hn]

theorem Sequence.split_eq {V α : Type} [Sequence V α] (v : V) (size : Int) :
    Sequence.split v size = if Sequence.length v = 0 then .ok [] else (checkChunk size).map fun size =>
      (chunks size (Sequence.length v / size) (Sequence.toList v)).map Sequence.ofList := by
  rw [Sequence.split]
  split
  · rfl
  · cases checkChunk size <;> rfl

theorem Dense.split_eq {α : Type} (v : Dense α) (size : Int) :
    v.split size = if v.cells.size = 0 then .ok [] else (checkChunk size).map fun size =>
      (chunks size (v.cells.size / size) v.toList).map ofList := by
  rw [split]
  split
  · rfl
  · cases checkChunk size <;> rfl

theorem Count.split_eq (v : Count) (size : Int) :
    v.split size = if v.length = 0 then .ok [] else (checkChunk size).map
      fun size => List.replicate (v.length / size) ⟨size⟩ := by
  rw [split]
  split
  · rfl
  · cases checkChunk size <;> rfl

section Chunks

variable {α β : Type}

theorem length_chunks (size count : Nat) (elems : List α) :
    (chunks size count elems).length = count := by
  induction count generalizing elems with
  | zero => rfl
  | succ count ih => rw [chunks, List.length_cons, ih]

theorem map_chunks (f : α → β) (size count : Nat) (elems : List α) :
    chunks size count (elems.map f) = (chunks size count elems).map (List.map f) := by
  induction count generalizing elems with
  | zero => rfl
  | succ count ih =>
    rw [chunks, chunks, List.map_cons, List.map_take, ← List.map_drop, ih]

theorem chunks_replicate {size count n : Nat} (h : count * size ≤ n) (a : α) :
    chunks size count (List.replicate n a) = List.replicate count (List.replicate size a) := by
  induction count generalizing n with
  | zero => rfl
  | succ count ih =>
    rw [Nat.succ_mul] at h
    have hrest : count * size ≤ n - size := Nat.le_sub_of_add_le h
    rw [chunks, List.take_replicate, List.drop_replicate, ih hrest, List.replicate_succ,
      min_eq_left ((Nat.le_add_left _ _).trans h)]

theorem forall₂_replicate {P : α → β → Prop} {a : α} {b : β} (h : P a b) (n : Nat) :
    List.Forall₂ P (List.replicate n a) (List.replicate n b) := by
  induction n with
  | zero => exact .nil
  | succ n ih => exact .cons h ih

end Chunks

/-! ### Fewer elements -/

namespace Dense

variable {α : Type} {n : Nat}

theorem truncate_of_le (v : Dense α) (hn : n ≤ v.cells.size) :
    v.truncate n = .ok ⟨v.cells.take n, v.reserved⟩ := by
  rw [truncate, if_neg (by omega), keptLength_of_le hn]

theorem withLength_of_le (v : Dense α) (hn : n ≤ v.cells.size) (a : α) :
    v.withLength n a = ⟨v.cells.take n, v.reserved⟩ := by
  rw [withLength, if_neg (by omega), keptLength_of_le hn]

theorem toList_take (v : Dense α) (n : Nat) :
    toList ⟨v.cells.take n, v.reserved⟩ = v.toList.take n := by
  simp [toList]

theorem toList_foldl_extend (v : Dense α) (lists : List (List α)) :
    (lists.foldl extend v).toList = v.toList ++ lists.flatten := by
  induction lists generalizing v with
  | nil => simp
  | cons list lists ih =>
    rw [List.foldl_cons, ih, List.flatten_cons, ← List.append_assoc]
    exact congrArg (· ++ _) Array.toList_append

end Dense

namespace Plain

variable {α : Type} {n : Nat}

theorem truncate_of_le (v : Plain α) (hn : n ≤ v.cells.size) :
    v.truncate n = .ok ⟨v.cells.take n⟩ := by
  rw [truncate, if_neg (by omega), keptLength_of_le hn]

theorem withLength_of_le (v : Plain α) (hn : n ≤ v.cells.size) (a : α) :
    v.withLength n a = ⟨v.cells.take n⟩ := by
  rw [withLength, if_neg (by omega), keptLength_of_le hn]

theorem toList_take (v : Plain α) (n : Nat) : (v.cells.take n).toList = v.cells.toList.take n := by
  simp

end Plain

namespace Bits

variable {n : Nat}

theorem truncate_of_le (v : Bits) (hn : n ≤ v.length) : v.truncate n = .ok (v.cut n) := by
  rw [truncate, if_neg (by omega), Int.toNat_natCast]

theorem withLength_of_le (v : Bits) (hn : n ≤ v.length) (value : Bool) :
    v.withLength n value = v.cut n := by
  rw [withLength, if_pos (by omega), Int.toNat_natCast]

end Bits

/-- The largest number of bits whose words fit into an array. -/
def packedLimit : Nat := indexLimit / wordBytes * wordBits

/-- The limits of arrays leave room for cutting a packed vector into chunks. -/
def Kind.SplitFits (kind : Kind) (length : Nat) (size : Int) : Prop :=
  kind = .packed → 0 < length → length ≤ indexLimit ∧ size ≤ indexLimit

instance {kind : Kind} {length : Nat} {size : Int} : Decidable (kind.SplitFits length size) :=
  inferInstanceAs (Decidable (_ → _ → _))

theorem indexLimit_le_packedLimit : indexLimit ≤ packedLimit := by
  decide

namespace Storage

variable {α : Type} [Element α]

theorem checkRoom_packed_eq_ok_iff {n : Nat} :
    checkRoom .packed n = .ok () ↔ n ≤ packedLimit := by
  have hcount : wordCount n ≤ indexLimit ∧ wordBytes * wordCount n ≤ indexLimit ↔
      n ≤ packedLimit := by
    simp only [packedLimit, wordCount, wordBytes, wordBits, indexLimit]
    omega
  exact (checkArray_row_eq_ok_iff (by decide)).trans hcount

theorem checkRoom_of_le (kind : Kind) {n : Nat} (h : n ≤ packedLimit) :
    checkRoom kind n = .ok () := by
  cases kind with
  | packed => exact checkRoom_packed_eq_ok_iff.2 h
  | _ => rfl

/-- A length that can be counted is refused to no vector. -/
theorem checkResize_of_le (kind : Kind) (length : Nat) {n : Nat} (h : n ≤ indexLimit) :
    checkResize kind length n = .ok () := by
  have hcopies : (n : Int) - length ≤ indexLimit := by omega
  cases kind with
  | dense => exact if_pos hcopies
  | packed =>
    rw [checkResize, max_eq_right (Int.natCast_nonneg n)]
    exact checkRoom_of_le .packed (h.trans indexLimit_le_packedLimit)
  | counted => rfl
  | plain => exact if_pos hcopies

theorem lt_of_checkIndex {length p : Nat} {index : Int} (h : checkIndex length index = .ok p) :
    p < length := by
  rw [checkIndex] at h
  split at h
  · obtain rfl := Except.ok.inj h
    omega
  · cases h

theorem le_of_checkRange {length : Nat} {start stop : Int} {bounds : Nat × Nat}
    (h : checkRange length start stop = .ok bounds) : bounds.2 ≤ length := by
  rw [checkRange] at h
  split at h
  · obtain rfl := Except.ok.inj h
    exact Int.toNat_le.2 (by omega)
  · cases h

/-- What is read between two places depends on the elements only. -/
theorem range_congr {v w : Storage α} (h : v.toList = w.toList) (start stop : Int) :
    v.range start stop = w.range start stop := by
  have hlength : v.length = w.length := by rw [← length_toList, h, length_toList]
  rw [range, range, hlength]
  cases hcheck : checkRange w.length start stop with
  | error e => rfl
  | ok bounds =>
    have hstop := le_of_checkRange hcheck
    have hslice : v.slice bounds.1 bounds.2 = w.slice bounds.1 bounds.2 := by
      rw [slice_eq v (hlength ▸ hstop), slice_eq w hstop, h]
    exact congrArg (fun elems => Except.ok (Thunk.mk fun _ => elems)) hslice

/-- A well-formed vector of the kind, with these elements. -/
structure Holds (v : Storage α) (kind : Kind) (elems : List α) : Prop where
  kind_eq : v.kind = kind
  wellFormed : v.WellFormed
  toList_eq : v.toList = elems

variable {v w : Storage α} {kind : Kind} {elems others : List α} {a : α} {n : Nat}

theorem Holds.length_eq (h : v.Holds kind elems) : v.length = elems.length := by
  rw [← length_toList, h.toList_eq]

theorem Holds.isEmpty_eq (h : v.Holds kind elems) : v.isEmpty = (elems.length == 0) := by
  rw [isEmpty, h.length_eq]

/-! ### Construction -/

theorem holds_empty (kind : Kind) : (empty kind : Storage α).Holds kind [] := by
  cases kind with
  | packed => exact ⟨rfl, Bits.wellFormed_ofList [], rfl⟩
  | _ => exact ⟨rfl, trivial, rfl⟩

theorem holds_withCapacity (kind : Kind) (room : Int) :
    (withCapacity kind room : Storage α).Holds kind [] :=
  ⟨kind_withCapacity kind room, wellFormed_withCapacity kind room, toList_withCapacity kind room⟩

theorem holds_fromElem (kind : Kind) (a : α) : (fromElem kind a).Holds kind [kind.keeps a] :=
  ⟨kind_fromElem kind a, wellFormed_fromElem kind a, toList_fromElem kind a⟩

theorem holds_ofList (kind : Kind) (elems : List α) :
    (ofList kind elems).Holds kind (elems.map kind.keeps) :=
  ⟨kind_ofList kind elems, wellFormed_ofList kind elems, toList_ofList kind elems⟩

theorem holds_dense_ofList (elems : List α) :
    (dense (Dense.ofList elems)).Holds .dense elems :=
  ⟨rfl, trivial, rfl⟩

theorem holds_plain_ofList (elems : List α) :
    (plain (Sequence.ofList elems)).Holds .plain elems :=
  ⟨rfl, trivial, toList_plain_extend Sequence.empty elems⟩

/-! ### Single elements -/

namespace Holds

theorem push (h : v.Holds kind elems) (a : α) :
    (v.push a).Holds kind (elems ++ [kind.keeps a]) := by
  obtain ⟨rfl, hwell, rfl⟩ := h
  exact ⟨kind_push v a, hwell.push a, toList_push hwell a⟩

theorem pop_nil (h : v.Holds kind []) (hkind : kind ≠ .plain) : v.pop = .error .emptyVector := by
  obtain ⟨rfl, -, helems⟩ := h
  cases v with
  | dense v =>
    have hcells : v.cells = #[] := Array.toList_eq_nil_iff.1 helems
    simp [pop, Sequence.pop, Dense.pop, hcells, Except.map]
  | packed v =>
    have hlength : v.length = 0 := by
      rw [← Bits.length_toList, List.map_eq_nil_iff.1 helems, List.length_nil]
    simp [pop, Sequence.pop, Bits.pop, hlength, Except.map]
  | counted v =>
    have hlength : v.length = 0 := (List.replicate_eq_nil_iff _).1 helems
    simp [pop, Sequence.pop, Count.pop, hlength, Except.map]
  | plain v => exact absurd rfl hkind

theorem pop_append (h : v.Holds kind (elems ++ [a])) :
    ∃ w, v.pop = .ok (a, w) ∧ w.Holds kind elems := by
  obtain ⟨rfl, hwell, helems⟩ := h
  cases v with
  | dense v =>
    have hcells : v.cells = elems.toArray.push a := by
      rw [List.push_toArray, ← helems]
      exact Array.toArray_toList.symm
    refine ⟨dense ⟨elems.toArray, v.reserved⟩, ?_, rfl, trivial, rfl⟩
    simp [pop, Sequence.pop, Dense.pop, hcells, Except.map]
  | packed v =>
    obtain ⟨bits, last, hbits, rfl, hlast⟩ := List.map_eq_append_iff.1 helems
    obtain ⟨value, rfl, rfl⟩ := List.map_eq_singleton_iff.1 hlast
    obtain ⟨w, hpop, hw, hwbits⟩ := Bits.pop_of_toList hwell hbits
    refine ⟨packed w, ?_, rfl, hw, congrArg _ hwbits⟩
    rw [pop]
    exact congrArg (Except.map _) hpop
  | counted v =>
    have hlength : v.length = elems.length + 1 := by
      simpa [toList] using congrArg List.length helems
    have hblank : ∀ b ∈ elems ++ [a], b = Element.blank := by
      intro b hb
      rw [← helems] at hb
      exact List.eq_of_mem_replicate hb
    obtain rfl : a = Element.blank := hblank a (by simp)
    refine ⟨counted ⟨elems.length⟩, ?_, rfl, trivial, ?_⟩
    · simp [pop, Sequence.pop, Count.pop, hlength, Except.map]
    · exact (List.eq_replicate_iff.2 ⟨rfl, fun b hb => hblank b (by simp [hb])⟩).symm
  | plain v =>
    have hcells : v.cells = elems.toArray.push a := by
      rw [List.push_toArray, ← helems]
      exact Array.toArray_toList.symm
    refine ⟨plain ⟨elems.toArray⟩, ?_, rfl, trivial, rfl⟩
    simp [pop, Sequence.pop, Plain.pop, hcells, Except.map]

theorem pop (h : v.Holds kind elems) (hkind : kind ≠ .plain) :
    Agree (fun result expected => result.1 = expected.1 ∧ result.2.Holds kind expected.2) v.pop
      (match elems.getLast? with
        | none => .error .emptyVector
        | some last => .ok (last, elems.dropLast)) := by
  rcases List.eq_nil_or_concat elems with rfl | ⟨front, last, rfl⟩
  · rw [h.pop_nil hkind]
    exact .error _
  · rw [List.concat_eq_append] at h ⊢
    obtain ⟨w, hpop, hw⟩ := h.pop_append
    rw [hpop, List.getLast?_concat, List.dropLast_concat]
    exact .ok ⟨rfl, hw⟩

theorem read (h : v.Holds kind elems) (hn : n < elems.length) : v.read n = elems[n] := by
  obtain ⟨rfl, -, rfl⟩ := h
  exact read_eq_getElem hn

theorem write (h : v.Holds kind elems) (hn : n < elems.length) (a : α) :
    (v.write n a).Holds kind (elems.set n (kind.keeps a)) := by
  obtain ⟨rfl, hwell, rfl⟩ := h
  rw [length_toList] at hn
  exact ⟨kind_write v n a, hwell.write hn a, toList_write hwell hn a⟩

theorem get (h : v.Holds kind elems) (index : Int) :
    v.get index = (checkIndex elems.length index).map fun p => elems.getD p Element.blank := by
  rw [Storage.get, h.length_eq]
  cases hcheck : checkIndex elems.length index with
  | error e => rfl
  | ok p =>
    have hp := lt_of_checkIndex hcheck
    have hread : v.read p = elems.getD p Element.blank := by
      rw [h.read hp, List.getD_eq_getElem _ _ hp]
    exact congrArg Except.ok hread

theorem set (h : v.Holds kind elems) (index : Int) (a : α) :
    Agree (fun w elems => w.Holds kind elems) (v.set index a)
      ((checkIndex elems.length index).map fun p => elems.set p (kind.keeps a)) := by
  rw [Storage.set, h.length_eq]
  cases hcheck : checkIndex elems.length index with
  | error e => exact .error e
  | ok p => exact .ok (h.write (lt_of_checkIndex hcheck) a)

/-! ### Length and room -/

theorem clear (h : v.Holds kind elems) : v.clear.Holds kind [] := by
  obtain ⟨rfl, -, -⟩ := h
  cases v with
  | packed v => exact ⟨rfl, Bits.wellFormed_zeros _, rfl⟩
  | _ => exact ⟨rfl, trivial, rfl⟩

theorem truncate_of_le (h : v.Holds kind elems) (hn : n ≤ elems.length) :
    ∃ w, v.truncate n = .ok w ∧ w.Holds kind (elems.take n) := by
  obtain ⟨rfl, hwell, rfl⟩ := h
  rw [length_toList] at hn
  cases v with
  | dense v =>
    exact ⟨_, congrArg (Except.map dense) (v.truncate_of_le hn), rfl, trivial, v.toList_take n⟩
  | packed v =>
    have hcut := congrArg (List.map (Element.ofTruth : Bool → α)) (Bits.toList_cut v hn)
    exact ⟨_, congrArg (Except.map packed) (v.truncate_of_le hn), rfl, Bits.WellFormed.cut hwell hn,
      hcut.trans List.map_take⟩
  | counted v =>
    have hwithin : ¬(n : Int) > v.length := not_lt.2 (Int.ofNat_le.2 hn)
    refine ⟨counted ⟨n⟩, congrArg (Except.map counted) (if_neg hwithin), rfl, trivial, ?_⟩
    exact (List.take_replicate.trans (congrArg (List.replicate · _) (min_eq_left hn))).symm
  | plain v =>
    exact ⟨_, congrArg (Except.map plain) (v.truncate_of_le hn), rfl, trivial, v.toList_take n⟩

theorem truncate_of_lt (h : v.Holds kind elems) (hkind : kind ≠ .plain) (hn : elems.length < n) :
    v.truncate n = .error (.truncateBeyondEnd elems.length n) := by
  obtain ⟨rfl, -, rfl⟩ := h
  rw [length_toList] at hn ⊢
  have hbeyond : (n : Int) > v.length := Int.ofNat_lt.2 hn
  cases v with
  | dense v => exact congrArg (Except.map dense) (if_pos hbeyond)
  | packed v => exact congrArg (Except.map packed) (if_pos hbeyond)
  | counted v => exact congrArg (Except.map counted) (if_pos hbeyond)
  | plain v => exact absurd rfl hkind

theorem truncate (h : v.Holds kind elems) (hkind : kind ≠ .plain) (n : Nat) :
    Agree (fun w elems => w.Holds kind elems) (v.truncate n)
      (if elems.length < n then .error (.truncateBeyondEnd elems.length n)
        else .ok (elems.take n)) := by
  split_ifs with hn
  · rw [h.truncate_of_lt hkind hn]
    exact .error _
  · obtain ⟨w, htruncate, hw⟩ := h.truncate_of_le (not_lt.1 hn)
    rw [htruncate]
    exact .ok hw

theorem withLength_of_le (h : v.Holds kind elems) (hn : n ≤ elems.length) (a : α) :
    (v.withLength n a).Holds kind (elems.take n) := by
  obtain ⟨rfl, hwell, rfl⟩ := h
  rw [length_toList] at hn
  cases v with
  | dense v =>
    have hshorter : (dense v).withLength n a = _ := congrArg dense (v.withLength_of_le hn a)
    exact hshorter ▸ ⟨rfl, trivial, v.toList_take n⟩
  | packed v =>
    have hshorter : (packed v).withLength n a = _ :=
      congrArg packed (v.withLength_of_le hn (Element.truth a))
    have hcut := congrArg (List.map (Element.ofTruth : Bool → α)) (Bits.toList_cut v hn)
    exact hshorter ▸ ⟨rfl, Bits.WellFormed.cut hwell hn, hcut.trans List.map_take⟩
  | counted v =>
    refine ⟨rfl, trivial, ?_⟩
    exact (List.take_replicate.trans (congrArg (List.replicate · _) (min_eq_left hn))).symm
  | plain v =>
    have hshorter : (plain v).withLength n a = _ := congrArg plain (v.withLength_of_le hn a)
    exact hshorter ▸ ⟨rfl, trivial, v.toList_take n⟩

theorem withLength_of_lt (h : v.Holds kind elems) (hn : elems.length < n) (a : α) :
    (v.withLength n a).Holds kind (elems ++ List.replicate (n - elems.length) (kind.keeps a)) := by
  obtain ⟨rfl, hwell, rfl⟩ := h
  rw [length_toList] at hn ⊢
  have hbeyond : (n : Int) > v.length := Int.ofNat_lt.2 hn
  refine ⟨kind_withLength v n a, ?_, ?_⟩
  · cases v with
    | packed v => exact Bits.WellFormed.withLength hwell hn _
    | _ => trivial
  · cases v with
    | dense v =>
      have hlonger : v.withLength n a = ⟨_, _⟩ := if_pos hbeyond
      refine (congrArg Dense.toList hlonger).trans ?_
      simp [toList, Dense.toList, Kind.keeps, Storage.kind, length, Sequence.length]
    | packed v =>
      have hlist := Bits.toList_withLength hwell hn (Element.truth a)
      refine (congrArg (List.map Element.ofTruth) hlist).trans ?_
      rw [List.map_append, List.map_replicate]
      rfl
    | counted v =>
      have hsum : n = v.length + (n - v.length) := (Nat.add_sub_cancel' hn.le).symm
      exact (congrArg (List.replicate · _) hsum).trans (List.replicate_add ..)
    | plain v =>
      have hlonger : v.withLength n a = ⟨_⟩ := if_pos hbeyond
      refine (congrArg (fun w => w.cells.toList) hlonger).trans ?_
      simp [toList, Kind.keeps, Storage.kind, length, Sequence.length]

theorem withLength (h : v.Holds kind elems) (n : Nat) (a : α) :
    (v.withLength n a).Holds kind (if elems.length < n
      then elems ++ List.replicate (n - elems.length) (kind.keeps a) else elems.take n) := by
  split_ifs with hn
  · exact h.withLength_of_lt hn a
  · exact h.withLength_of_le (not_lt.1 hn) a

theorem reserve (h : v.Holds kind elems) (additional : Int) :
    (v.reserve additional).Holds kind elems := by
  obtain ⟨rfl, hwell, rfl⟩ := h
  cases v with
  | packed v =>
    have hbits := Bits.toList_reserved v (v.length + additional).toNat
    exact ⟨rfl, Bits.WellFormed.reserved hwell _, congrArg (List.map Element.ofTruth) hbits⟩
  | _ => exact ⟨rfl, trivial, rfl⟩

/-! ### Whole vectors -/

theorem extend (h : v.Holds kind elems) (more : List α) :
    (v.extend more).Holds kind (elems ++ more.map kind.keeps) := by
  obtain ⟨rfl, hwell, rfl⟩ := h
  cases v with
  | dense v =>
    refine ⟨rfl, trivial, Array.toList_append.trans ?_⟩
    exact congrArg (_ ++ ·) (List.map_id more).symm
  | packed v =>
    have hlist := Bits.toList_extend v (more.map Element.truth)
    refine ⟨rfl, Bits.WellFormed.extend hwell _, ?_⟩
    refine (congrArg (List.map Element.ofTruth) hlist).trans ?_
    rw [List.map_append, List.map_map]
    rfl
  | counted v =>
    refine ⟨rfl, trivial, (List.replicate_add ..).trans ?_⟩
    exact congrArg (_ ++ ·) (List.map_const' ..).symm
  | plain v =>
    refine ⟨rfl, trivial, (toList_plain_extend v more).trans ?_⟩
    exact congrArg (_ ++ ·) (List.map_id more).symm

theorem extendFrom (h : v.Holds kind elems) (hw : w.Holds kind others) :
    (v.extendFrom w).Holds kind (elems ++ others) := by
  obtain ⟨rfl, hwell, rfl⟩ := h
  obtain ⟨hkind, hwell', rfl⟩ := hw
  cases v with
  | dense v => exact ⟨rfl, trivial, Array.toList_append⟩
  | packed v =>
    cases w with
    | packed w =>
      have hlist := Bits.toList_extend v w.toList
      exact ⟨rfl, Bits.WellFormed.extend hwell _,
        (congrArg (List.map Element.ofTruth) hlist).trans List.map_append⟩
    | _ => cases hkind
  | counted v =>
    cases w with
    | counted w => exact ⟨rfl, trivial, List.replicate_add ..⟩
    | _ => cases hkind
  | plain v => exact ⟨rfl, trivial, toList_plain_extend v w.toList⟩

theorem copy (h : v.Holds kind elems) : v.copy.Holds kind elems := by
  obtain ⟨rfl, hwell, rfl⟩ := h
  cases v with
  | plain v => exact ⟨rfl, trivial, toList_plain_extend Sequence.empty v.cells.toList⟩
  | _ => exact ⟨rfl, hwell, rfl⟩

theorem range (h : v.Holds kind elems) (start stop : Int) :
    (v.range start stop).map Thunk.get =
      (checkRange elems.length start stop).map fun (start, stop) =>
        (elems.take stop).drop start := by
  rw [Storage.range, h.length_eq]
  cases hcheck : checkRange elems.length start stop with
  | error e => rfl
  | ok bounds =>
    have hstop : bounds.2 ≤ v.length := h.length_eq ▸ le_of_checkRange hcheck
    refine congrArg Except.ok ?_
    rw [← h.toList_eq]
    exact slice_eq v hstop

theorem gather (h : v.Holds kind elems) (places : List Nat)
    (hplaces : ∀ p ∈ places, p < elems.length) : (v.gather (places.map Int.ofNat)).Holds kind
      (places.map fun p => elems.getD p Element.blank) := by
  obtain ⟨rfl, -, rfl⟩ := h
  simp only [length_toList] at hplaces
  exact ⟨kind_gather v _, wellFormed_gather v _, toList_gather v places hplaces⟩

/-- Chunks of one representation agree with chunks of elements. -/
theorem agree_split {V : Type} (wrap : V → Storage α) {cut : Nat → List V} {length : Nat}
    {size : Int} (h : ∀ size, List.Forall₂ (fun w elems => w.Holds kind elems) ((cut size).map wrap)
      (chunks size (length / size) elems)) :
    Agree (List.Forall₂ fun w elems => w.Holds kind elems)
      ((if length = 0 then .ok [] else (checkChunk size).map cut).map (List.map wrap))
      (if length = 0 then .ok []
        else (checkChunk size).map fun size => chunks size (length / size) elems) := by
  split_ifs
  · exact .ok .nil
  · cases checkChunk size with
    | error e => exact .error e
    | ok size => exact .ok (h size)

theorem forall₂_map_map {V : Type} {wrap : V → Storage α} {f : List α → V}
    (h : ∀ chunk, (wrap (f chunk)).Holds kind chunk) (chunks : List (List α)) :
    List.Forall₂ (fun w elems => w.Holds kind elems) ((chunks.map f).map wrap) chunks := by
  rw [List.map_map, List.forall₂_map_left_iff, List.forall₂_same]
  exact fun chunk _ => h chunk

/-- Vectors are cut into the chunks of their elements. -/
theorem split (h : v.Holds kind elems) {size : Int} (hfits : kind.SplitFits elems.length size) :
    Agree (List.Forall₂ fun w elems => w.Holds kind elems) (v.split size)
      (if elems.length = 0 then .ok []
        else (checkChunk size).map fun size => chunks size (elems.length / size) elems) := by
  obtain ⟨rfl, hwell, rfl⟩ := h
  rw [length_toList] at hfits ⊢
  cases v with
  | dense v =>
    have hsplit : (dense v).split size = _ :=
      congrArg (Except.map (List.map dense)) (v.split_eq size)
    rw [hsplit]
    exact agree_split dense fun size => forall₂_map_map holds_dense_ofList _
  | packed v =>
    -- The one kind that is cut as an array, whose dimensions have limits.
    have hsplit : (packed v : Storage α).split size = _ :=
      congrArg (Except.map (List.map packed)) (Bits.split_eq (hfits rfl))
    rw [hsplit]
    refine agree_split packed fun size => ?_
    have hchunks := map_chunks (Element.ofTruth : Bool → α) size (v.length / size) v.toList
    refine hchunks ▸ ?_
    rw [List.map_map, List.forall₂_map_left_iff, List.forall₂_map_right_iff,
      List.forall₂_same]
    exact fun bits _ =>
      ⟨rfl, Bits.wellFormed_ofList bits, congrArg (List.map _) (Bits.toList_ofList bits)⟩
  | counted v =>
    have hsplit : (counted v : Storage α).split size = _ :=
      congrArg (Except.map (List.map counted)) (v.split_eq size)
    rw [hsplit]
    refine agree_split counted fun size => ?_
    have hchunks := chunks_replicate (Nat.div_mul_le_self v.length size) (Element.blank : α)
    refine hchunks ▸ ?_
    rw [List.map_replicate]
    exact forall₂_replicate ⟨rfl, trivial, rfl⟩ _
  | plain v =>
    have hsplit : (plain v).split size = _ :=
      congrArg (Except.map (List.map plain)) (Sequence.split_eq v size)
    rw [hsplit]
    refine agree_split plain fun size => forall₂_map_map (fun chunk => ?_) _
    exact holds_plain_ofList chunk

end Holds

/-- A vector that is filled from the start holds copies of one element. -/
theorem holds_withLength_withCapacity (kind : Kind) (room : Int) (n : Nat) (a : α) :
    ((withCapacity kind room).withLength n a).Holds kind (List.replicate n (kind.keeps a)) := by
  have hfilled := (holds_withCapacity kind room).withLength n a
  rcases n.eq_zero_or_pos with rfl | hn
  · exact hfilled
  · rwa [List.length_nil, if_pos hn, List.nil_append, Nat.sub_zero] at hfilled

/-! ### Several vectors -/

/-- Chunks are built anew from elements, whatever room the vector has that they are cut from. -/
theorem forall_mem_split {P : Storage α → Prop} (hdense : ∀ elems, P (dense (.ofList elems)))
    (hpacked : ∀ bits, P (packed (.ofList bits))) (hcounted : ∀ v, P (counted v))
    (hplain : ∀ elems, P (plain (Sequence.ofList elems))) (v : Storage α) (size : Int) :
    Meets (fun parts => ∀ part ∈ parts, P part) (fun _ => True) (v.split size) := by
  cases v with
  | dense v =>
    refine Meets.forall_mem_map (f := dense) ?_
    rw [Dense.split_eq]
    split_ifs
    · exact List.forall_mem_nil _
    · exact (Meets.top _).map fun size _ => List.forall_mem_map.2 fun elems _ => hdense elems
  | packed v =>
    refine Meets.forall_mem_map (f := packed) ?_
    rw [Bits.split]
    split_ifs
    · exact List.forall_mem_nil _
    · exact (Meets.top _).bind fun size _ => (Meets.top _).bind fun _ _ =>
        List.forall_mem_map.2 fun bits _ => hpacked bits
  | counted v =>
    exact Meets.forall_mem_map (f := counted)
      ((Meets.top _).imp (fun _ _ w _ => hcounted w) fun _ h => h)
  | plain v =>
    refine Meets.forall_mem_map (f := plain) ?_
    rw [Sequence.split_eq]
    split_ifs
    · exact List.forall_mem_nil _
    · exact (Meets.top _).map fun size _ => List.forall_mem_map.2 fun elems _ => hplain elems

theorem toList_foldl_plain_extend (v : Plain α) (lists : List (List α)) :
    (lists.foldl Sequence.extend v).cells.toList = v.cells.toList ++ lists.flatten := by
  induction lists generalizing v with
  | nil => simp
  | cons list lists ih =>
    rw [List.foldl_cons, ih, toList_plain_extend, List.flatten_cons, List.append_assoc]

theorem toList_concat_dense (parts : List (Storage α)) :
    (concat .dense parts).toList = (parts.map toList).flatten :=
  Dense.toList_foldl_extend (Sequence.withCapacity ((parts.map length).foldr (· + ·) 0 : Nat))
    (parts.map toList)

theorem toList_concat_plain (parts : List (Storage α)) :
    (concat .plain parts).toList = (parts.map toList).flatten :=
  toList_foldl_plain_extend (Sequence.withCapacity
    (((parts.map toList).map List.length).foldr (· + ·) 0 : Nat)) (parts.map toList)

theorem holds_concat {parts : List (Storage α)} {lists : List (List α)}
    (h : List.Forall₂ (fun v elems => v.Holds kind elems) parts lists) :
    (concat kind parts).Holds kind lists.flatten := by
  have hkinds : ∀ v ∈ parts, v.kind = kind :=
    ((List.forall₂_and_left _ _).1 (h.imp fun v elems hv => ⟨hv.kind_eq, hv⟩)).1
  have hlists : lists = parts.map toList := by
    have heq := List.forall₂_map_left_iff.2 (h.imp fun v elems hv => hv.toList_eq)
    exact (List.forall₂_eq_eq_eq ▸ heq).symm
  subst hlists
  cases kind with
  | dense => exact ⟨rfl, trivial, toList_concat_dense parts⟩
  | packed =>
    have htruths : (parts.map truths).flatten.map Element.ofTruth = (parts.map toList).flatten := by
      rw [List.map_flatten, List.map_map]
      refine congrArg List.flatten (List.map_congr_left fun v hv => ?_)
      have hkind := hkinds v hv
      cases v with
      | packed v => rfl
      | _ => cases hkind
    exact ⟨rfl, Bits.wellFormed_ofList _,
      (congrArg (List.map _) (Bits.toList_ofList _)).trans htruths⟩
  | counted =>
    refine ⟨rfl, trivial, (List.eq_replicate_iff.2 ⟨?_, ?_⟩).symm⟩
    · rw [List.length_flatten, List.map_map]
      exact congrArg List.sum (List.map_congr_left fun v _ => length_toList v)
    · intro a ha
      obtain ⟨v, hv, ha⟩ := List.exists_of_mem_flatMap (List.flatMap_def ▸ ha)
      have hkind := hkinds v hv
      cases v with
      | counted v => exact List.eq_of_mem_replicate ha
      | _ => cases hkind
  | plain => exact ⟨rfl, trivial, toList_concat_plain parts⟩

/-- Truth values are compared place by place. -/
theorem same_elems_iff {elems others : List Bool} :
    (elems.length == others.length &&
      (elems.zip others).all fun (a, b) => Element.same a b) = true ↔ elems = others := by
  induction elems generalizing others with
  | nil => cases others <;> simp
  | cons a elems ih =>
    cases others with
    | nil => simp
    | cons b others =>
      rw [List.cons_eq_cons, ← ih]
      cases a <;> cases b <;> simp [Element.same]

/-- Vectors of truth values are the same where they hold the same. -/
theorem Holds.same_iff {v w : Storage Bool} {elems others : List Bool} (h : v.Holds kind elems)
    (hw : w.Holds kind others) : v.same w = true ↔ elems = others := by
  obtain ⟨rfl, hwell, rfl⟩ := h
  obtain ⟨hkind, hwell', rfl⟩ := hw
  cases v with
  | dense v =>
    cases w with
    | dense w => exact same_elems_iff
    | _ => cases hkind
  | packed v =>
    cases w with
    | packed w =>
      refine (Bits.same_iff hwell hwell').trans ?_
      simp only [toList, Element.ofTruth, List.map_id]
    | _ => cases hkind
  | counted v =>
    cases w with
    | counted w =>
      refine beq_iff_eq.trans ?_
      simp [toList]
    | _ => cases hkind
  | plain v =>
    cases w with
    | plain w => exact same_elems_iff
    | _ => cases hkind

end Storage

end BoolTensor
