import BoolTensor.Proofs.Storage.Bits
import BoolTensor.Storage.Basic

/-!
# Elements of vectors

The list of elements that operations on vectors of every kind leave. A vector keeps of an element
what its kind keeps.

## Main definitions

* `Storage.WellFormed`: packed vectors keep the bits after their last element at zero
* `Storage.checkResize`: what refuses another length for a vector of a kind
-/

namespace BoolTensor

theorem Sequence.same_congr {V α : Type} [Sequence V α] [Element α] {v w : V}
    (hlength : length v = length w) (hlist : toList v = toList w) (u : V) :
    same v u = same w u := by
  rw [same, same, hlength, hlist]

namespace Storage

variable {α : Type} [Element α]

/-- Packed vectors keep the bits after their last element at zero. -/
def WellFormed : Storage α → Prop
  | packed v => v.WellFormed
  | _ => True

variable {v : Storage α} {kind : Kind} {p n : Nat}

omit [Element α] in
theorem wellFormed_of_kind_ne (h : v.kind ≠ .packed) : v.WellFormed := by
  cases v with
  | packed v => exact absurd rfl h
  | _ => trivial

@[simp]
theorem length_toList (v : Storage α) : v.toList.length = v.length := by
  cases v with
  | dense v => rfl
  | packed v =>
    rw [toList, List.length_map, Bits.length_toList]
    rfl
  | counted v =>
    rw [toList, List.length_replicate]
    rfl
  | plain v => rfl

@[simp]
theorem length_truths (v : Storage α) : v.truths.length = v.length := by
  cases v with
  | packed v => exact Bits.length_toList v
  | _ => exact (List.length_map _).trans (length_toList _)

/-- Elements that are truth values are those of their truths. -/
theorem toList_eq_map_truths (h : ∀ a ∈ v.toList, Element.ofTruth (Element.truth a) = a) :
    v.toList = v.truths.map Element.ofTruth := by
  have hmap : (v.toList.map Element.truth).map Element.ofTruth = v.toList := by
    rw [List.map_map]
    exact (List.map_congr_left h).trans (List.map_id _)
  cases v with
  | packed v => rfl
  | _ => exact hmap.symm

/-! ### Construction -/

theorem toList_plain_extend (v : Plain α) (elems : List α) :
    (Sequence.extend v elems).cells.toList = v.cells.toList ++ elems := by
  induction elems generalizing v with
  | nil => simp [Sequence.extend]
  | cons a elems ih =>
    have hpush : Sequence.extend v (a :: elems) = Sequence.extend (Sequence.push v a) elems := rfl
    rw [hpush, ih]
    simp [Sequence.push]

@[simp]
theorem kind_ofList (kind : Kind) (elems : List α) : (ofList kind elems).kind = kind := by
  cases kind <;> rfl

theorem toList_ofList (kind : Kind) (elems : List α) :
    (ofList kind elems).toList = elems.map kind.keeps := by
  cases kind with
  | dense => exact (List.map_id elems).symm
  | packed => simp [ofList, toList, Kind.keeps]
  | counted =>
    have hkeeps : Kind.counted.keeps = fun _ : α => Element.blank := rfl
    rw [hkeeps, List.map_const']
    rfl
  | plain =>
    have hextend := toList_plain_extend (Sequence.empty : Plain α) elems
    exact hextend.trans (List.map_id elems).symm

@[simp]
theorem length_ofList (kind : Kind) (elems : List α) :
    (ofList kind elems).length = elems.length := by
  rw [← length_toList, toList_ofList, List.length_map]

@[simp]
theorem length_copy (v : Storage α) : v.copy.length = v.length := by
  cases v with
  | plain v => exact length_ofList .plain v.cells.toList
  | _ => rfl

@[simp]
theorem toList_copy (v : Storage α) : v.copy.toList = v.toList := by
  cases v with
  | plain v => exact toList_plain_extend Sequence.empty v.cells.toList
  | _ => rfl

@[simp]
theorem kind_copy (v : Storage α) : v.copy.kind = v.kind := by
  cases v <;> rfl

@[simp]
theorem read_copy (v : Storage α) (p : Nat) : v.copy.read p = v.read p := by
  cases v with
  | plain v =>
    have hcells : (Sequence.copy v).cells = v.cells :=
      Array.toList_inj.1 (toList_plain_extend Sequence.empty v.cells.toList)
    exact congrArg (fun cells => cells.getD p Element.blank) hcells
  | _ => rfl

theorem get_copy (v : Storage α) (p : Int) : v.copy.get p = v.get p := by
  simp only [get, length_copy, read_copy]

theorem wellFormed_ofList (kind : Kind) (elems : List α) : (ofList kind elems).WellFormed := by
  cases kind with
  | packed => exact Bits.wellFormed_ofList _
  | _ => trivial

@[simp]
theorem kind_withCapacity (kind : Kind) (room : Int) :
    (withCapacity kind room : Storage α).kind = kind := by
  cases kind <;> rfl

@[simp]
theorem toList_withCapacity (kind : Kind) (room : Int) :
    (withCapacity kind room : Storage α).toList = [] := by
  cases kind <;> rfl

theorem wellFormed_withCapacity (kind : Kind) (room : Int) :
    (withCapacity kind room : Storage α).WellFormed := by
  cases kind with
  | packed => exact Bits.wellFormed_zeros _
  | _ => trivial

/-! ### Elements at the end -/

@[simp]
theorem kind_push (v : Storage α) (a : α) : (v.push a).kind = v.kind := by
  cases v <;> rfl

theorem toList_push (h : v.WellFormed) (a : α) :
    (v.push a).toList = v.toList ++ [v.kind.keeps a] := by
  cases v with
  | dense v => simp [push, toList, Sequence.push, Dense.toList, Storage.kind, Kind.keeps]
  | packed v =>
    have hpush := Bits.toList_push h (Element.truth a)
    exact (congrArg (List.map Element.ofTruth) hpush).trans List.map_append
  | counted v => exact List.replicate_succ'
  | plain v => simp [push, toList, Sequence.push, Storage.kind, Kind.keeps]

theorem WellFormed.push (h : v.WellFormed) (a : α) : (v.push a).WellFormed := by
  cases v with
  | packed v => exact Bits.WellFormed.push h _
  | _ => trivial

theorem fromElem_eq (kind : Kind) (a : α) : fromElem kind a = (withCapacity kind 1).push a := by
  cases kind <;> rfl

@[simp]
theorem kind_fromElem (kind : Kind) (a : α) : (fromElem kind a).kind = kind := by
  rw [fromElem_eq, kind_push, kind_withCapacity]

theorem toList_fromElem (kind : Kind) (a : α) : (fromElem kind a).toList = [kind.keeps a] := by
  rw [fromElem_eq, toList_push (wellFormed_withCapacity kind 1), toList_withCapacity,
    kind_withCapacity, List.nil_append]

theorem wellFormed_fromElem (kind : Kind) (a : α) : (fromElem kind a).WellFormed := by
  rw [fromElem_eq]
  exact (wellFormed_withCapacity kind 1).push a

/-! ### Another length -/

@[simp]
theorem kind_withLength (v : Storage α) (n : Int) (a : α) : (v.withLength n a).kind = v.kind := by
  cases v <;> rfl

/-- What refuses another length for a vector of a kind and a length. -/
def checkResize (kind : Kind) (length : Nat) (newLength : Int) : Except Error Unit :=
  match kind with
  -- The copies that are added are counted, or the words of all elements.
  | .dense => checkCount (newLength - length) .countTooWide
  | .packed => Bits.checkRoom (max 0 newLength)
  | .counted => .ok ()
  | .plain => checkCount (newLength - length) .lengthTooWide

/-- Whether a vector gets another length depends on its kind and length, and not on the elements. -/
theorem resize_eq (v : Storage α) (n : Int) (a : α) :
    v.resize n a = (checkResize v.kind v.length n).map fun _ => v.withLength n a := by
  cases v with
  | dense v =>
    change (Dense.resize v n a).map dense = (checkCount (n - v.cells.size) _).map _
    rw [Dense.resize]
    cases checkCount (n - v.cells.size) .countTooWide <;> rfl
  | packed v =>
    change (Bits.resize v n (Element.truth a)).map packed = (Bits.checkRoom (max 0 n)).map _
    rw [Bits.resize]
    cases Bits.checkRoom (max 0 n) <;> rfl
  | counted v => rfl
  | plain v =>
    change (Plain.resize v n a).map plain = (checkCount (n - v.cells.size) _).map _
    rw [Plain.resize]
    cases checkCount (n - v.cells.size) .lengthTooWide <;> rfl

/-! ### Single elements -/

theorem checkIndex_of_lt {length p : Nat} (hp : p < length) : checkIndex length p = .ok p := by
  rw [checkIndex, if_pos ⟨Int.natCast_nonneg p, Int.ofNat_lt.2 hp⟩, Int.toNat_natCast]

theorem read_eq_getElem (h : p < v.toList.length) : v.read p = v.toList[p] := by
  cases v with
  | dense v => exact Array.getElem_eq_getD .. |>.symm
  | packed v =>
    have hp : p < (Bits.toList v).length := by simpa [toList] using h
    have hbit := congrArg (Element.ofTruth : Bool → α) (Bits.getElem_toList hp)
    exact hbit.symm.trans (List.getElem_map _).symm
  | counted v => exact (List.getElem_replicate ..).symm
  | plain v => exact Array.getElem_eq_getD .. |>.symm

theorem toList_write (h : v.WellFormed) (hp : p < v.length) (a : α) :
    (v.write p a).toList = v.toList.set p (v.kind.keeps a) := by
  cases v with
  | dense v => exact Array.toList_setIfInBounds ..
  | packed v =>
    have hwrite := Bits.toList_write h hp (Element.truth a)
    exact (congrArg (List.map Element.ofTruth) hwrite).trans List.map_set
  | counted v => exact List.set_replicate_self.symm
  | plain v => exact Array.toList_setIfInBounds ..

@[simp]
theorem length_write (v : Storage α) (p : Nat) (a : α) : (v.write p a).length = v.length := by
  cases v with
  | dense v => exact Array.size_setIfInBounds
  | plain v => exact Array.size_setIfInBounds
  | _ => rfl

@[simp]
theorem capacity_write (v : Storage α) (p : Nat) (a : α) :
    (v.write p a).capacity = v.capacity := by
  cases v with
  | dense v => exact congrArg (max v.reserved) Array.size_setIfInBounds
  | packed v => exact congrArg (· * wordBits) Array.size_modify
  | counted v => rfl
  | plain v => exact Array.size_setIfInBounds

theorem WellFormed.write (h : v.WellFormed) (hp : p < v.length) (a : α) :
    (v.write p a).WellFormed := by
  cases v with
  | packed v => exact Bits.WellFormed.write h hp _
  | _ => trivial

@[simp]
theorem kind_write (v : Storage α) (p : Nat) (a : α) : (v.write p a).kind = v.kind := by
  cases v <;> rfl

theorem get_of_lt (hp : p < v.length) : v.get p = .ok (v.toList.getD p Element.blank) := by
  have hp' : p < v.toList.length := by rwa [length_toList]
  rw [get, checkIndex_of_lt hp, List.getD_eq_getElem _ _ hp', ← read_eq_getElem hp']
  rfl

theorem set_of_lt (hp : p < v.length) (a : α) : v.set p a = .ok (v.write p a) := by
  rw [set, checkIndex_of_lt hp]
  rfl

/-! ### Several elements -/

theorem slice_eq {start stop : Nat} (v : Storage α) (h : stop ≤ v.length) :
    v.slice start stop = (v.toList.take stop).drop start := by
  cases v with
  | dense v =>
    simp [slice, Dense.slice, toList, Dense.toList, List.extract_eq_take_drop, List.drop_take]
  | packed v =>
    have hslice := Bits.slice_eq v start h
    simp only [slice, toList, hslice, List.map_drop, List.map_take]
  | counted v =>
    have hlength : stop ≤ Count.length v := h
    simp [slice, toList, List.take_replicate, hlength]
  | plain v => rfl

theorem range_of_le {start stop : Nat} (hstart : start ≤ stop) (h : stop ≤ v.length) :
    ∃ elems, v.range start stop = .ok elems ∧ elems.get = (v.toList.take stop).drop start := by
  have hrange : checkRange v.length start stop = .ok (start, stop) := by
    rw [checkRange, if_pos ⟨Int.natCast_nonneg start, Int.ofNat_le.2 hstart, Int.ofNat_le.2 h⟩]
    simp
  refine ⟨Thunk.mk fun _ => v.slice start stop, ?_, slice_eq v h⟩
  rw [range, hrange]
  rfl

theorem toList_gather (v : Storage α) (places : List Nat) (h : ∀ p ∈ places, p < v.length) :
    (v.gather (places.map Int.ofNat)).toList =
      places.map fun p => v.toList.getD p Element.blank := by
  have hread : ∀ p ∈ places, v.read p = v.toList.getD p Element.blank := by
    intro p hp
    have hlt : p < v.toList.length := by
      rw [length_toList]
      exact h p hp
    rw [read_eq_getElem hlt, List.getD_eq_getElem _ _ hlt]
  rw [← List.map_congr_left hread]
  cases v with
  | dense v =>
    have hget := List.map_map (f := Int.ofNat) (l := places)
      (g := fun index => v.cells.getD index.toNat Element.blank)
    exact hget
  | packed v =>
    simp only [gather, toList, Bits.gather, Bits.toList_ofList, List.map_map]
    rfl
  | counted v =>
    simp only [gather, toList, List.length_map]
    exact (List.map_const' ..).symm
  | plain v =>
    have hextend := toList_plain_extend (Sequence.empty : Plain α)
      ((places.map Int.ofNat).map fun index => Sequence.read v index.toNat)
    refine hextend.trans ?_
    rw [List.map_map]
    rfl

@[simp]
theorem length_gather (v : Storage α) (indices : List Int) :
    (v.gather indices).length = indices.length := by
  cases v with
  | dense v => simp [gather, length, Sequence.length, Dense.gather, Dense.ofList, Dense.ofArray]
  | packed v =>
    rw [← length_toList]
    simp [gather, toList, Bits.gather]
  | counted v => rfl
  | plain v =>
    have hextend := toList_plain_extend (Sequence.empty : Plain α)
      (indices.map fun index => Sequence.read v index.toNat)
    refine (congrArg List.length hextend).trans ?_
    exact List.length_map _

@[simp]
theorem kind_gather (v : Storage α) (indices : List Int) : (v.gather indices).kind = v.kind := by
  cases v <;> rfl

theorem wellFormed_gather (v : Storage α) (indices : List Int) : (v.gather indices).WellFormed := by
  cases v with
  | packed v => exact Bits.wellFormed_ofList _
  | _ => trivial

/-- Elements that are read from a vector built of elements read from another are read from that. -/
theorem build_read_build {V β : Type} [Sequence V β] {build : List β → V}
    (hread : ∀ (elems : List β) (p : Nat) (hp : p < elems.length),
      Sequence.read (build elems) p = elems[p]) (v : V) {places others : List Nat}
    (h : ∀ p ∈ others, p < places.length) :
    build ((others.map Int.ofNat).map fun index => Sequence.read
      (build ((places.map Int.ofNat).map fun index => Sequence.read v index.toNat)) index.toNat) =
    build (((others.map fun p => places.getD p 0).map Int.ofNat).map fun index =>
      Sequence.read v index.toNat) := by
  rw [List.map_map, List.map_map, List.map_map, List.map_map]
  refine congrArg build (List.map_congr_left fun p hp => ?_)
  have hp' : p < (places.map ((fun index : Int => Sequence.read v index.toNat) ∘ Int.ofNat)).length := by
    rw [List.length_map]
    exact h p hp
  simp only [Function.comp, Int.ofNat_eq_natCast, Int.toNat_natCast] at hp' ⊢
  rw [hread _ _ hp', List.getElem_map, List.getD_eq_getElem _ _ (h p hp)]
  rfl

/-- Gathering twice is gathering once, at the places that are read through. -/
theorem gather_gather (v : Storage α) {places others : List Nat}
    (h : ∀ p ∈ others, p < places.length) :
    (v.gather (places.map Int.ofNat)).gather (others.map Int.ofNat) =
      v.gather ((others.map fun p => places.getD p 0).map Int.ofNat) := by
  cases v with
  | dense v =>
    have hread (elems : List α) (p : Nat) (hp : p < elems.length) :
        Sequence.read (Dense.ofList elems) p = elems[p] := by
      simp [Sequence.read, Dense.ofList, Dense.ofArray, hp]
    exact congrArg dense (build_read_build hread v h)
  | packed v => exact congrArg packed (build_read_build (fun _ _ => Bits.bit_ofList) v h)
  | counted v => simp [gather]
  | plain v =>
    have hread (elems : List α) (p : Nat) (hp : p < elems.length) :
        Sequence.read (Sequence.ofList elems : Plain α) p = elems[p] := by
      have hcells : (plain (Sequence.ofList elems)).toList = elems :=
        toList_plain_extend (Sequence.empty : Plain α) elems
      refine (read_eq_getElem (v := plain (Sequence.ofList elems)) (hcells.symm ▸ hp)).trans ?_
      simp only [hcells]
    exact congrArg plain (build_read_build hread v h)

theorem toList_gather_range (v : Storage α) :
    (v.gather ((List.range v.length).map Int.ofNat)).toList = v.toList := by
  rw [toList_gather v _ fun p hp => List.mem_range.1 hp]
  apply List.ext_getElem
  · rw [List.length_map, List.length_range, length_toList]
  · intro p _ hp
    rw [List.getElem_map, List.getElem_range, List.getD_eq_getElem _ _ hp]

/-- The vector of all elements of a vector is the same as that for every comparison. -/
theorem same_gather_range (h : v.WellFormed) (w : Storage α) :
    (v.gather ((List.range v.length).map Int.ofNat)).same w = v.same w := by
  have hlength : (v.gather ((List.range v.length).map Int.ofNat)).length = v.length := by simp
  have hlist := toList_gather_range v
  cases v with
  | dense v =>
    cases w with
    | dense w => exact Sequence.same_congr hlength hlist w
    | _ => rfl
  | packed v =>
    have hbits : (v.gather ((List.range v.length).map Int.ofNat)).toList = v.toList := by
      rw [Bits.gather, Bits.toList_ofList, Bits.toList, Words.slice_eq, List.range_eq_range',
        List.map_map]
      rfl
    cases w with
    | packed w =>
      exact Bits.same_congr ((Bits.same_iff (Bits.wellFormed_ofList _) h).2 hbits) w
    | _ => rfl
  | counted v =>
    cases w with
    | counted w => exact congrArg (· == w.length) hlength
    | _ => rfl
  | plain v =>
    cases w with
    | plain w => exact Sequence.same_congr hlength hlist w
    | _ => rfl

end Storage

end BoolTensor
