import BoolTensor.Proofs.Limits
import BoolTensor.Proofs.Storage.Ranges

/-!
# Elements of packed vectors

The list of elements that each operation on packed vectors leaves, and that it keeps the bits after
the last element at zero.
-/

namespace BoolTensor

namespace Bits

variable {v : Bits} {words : Array UInt32} {p n : Nat}

@[simp]
theorem length_toList (v : Bits) : v.toList.length = v.length := by
  simp [toList, Words.slice_eq]

theorem getElem_toList (h : p < v.toList.length) : v.toList[p] = Words.bit v.words p := by
  simp [toList, Words.slice_eq]

/-- A vector has the elements that its bits are. -/
theorem toList_eq {elems : List Bool} (hlength : v.length = elems.length)
    (hbits : ∀ p (h : p < elems.length), Words.bit v.words p = elems[p]) : v.toList = elems := by
  apply List.ext_getElem
  · rw [length_toList, hlength]
  · intro p hp hp'
    rw [getElem_toList, hbits p hp']

theorem wordCount_le (n : Nat) : n ≤ wordBits * wordCount n := by
  simp only [wordCount, wordBits]
  omega

/-! ### Packing -/

@[simp]
theorem toList_ofList (elems : List Bool) : (ofList elems).toList = elems := by
  refine toList_eq rfl fun p hp => ?_
  rw [ofList, ofArray, Words.bit_pack, Array.getD_eq_getD_getElem?, List.getElem?_toArray,
    List.getElem?_eq_getElem hp, Option.getD_some]

theorem bit_ofList {elems : List Bool} {p : Nat} (hp : p < elems.length) :
    Words.bit (ofList elems).words p = elems[p] := by
  rw [← getElem_toList (by rwa [toList_ofList])]
  simp only [toList_ofList]

theorem wellFormed_ofList (elems : List Bool) : (ofList elems).WellFormed := by
  constructor
  · have hsize : (Words.pack elems.toArray).size = wordCount elems.length := Array.size_ofFn
    rw [ofList, ofArray, hsize]
    exact wordCount_le elems.length
  · intro p hp
    have hnone : elems[p]? = none := List.getElem?_eq_none hp
    rw [ofList, ofArray, Words.bit_pack, Array.getD_eq_getD_getElem?, List.getElem?_toArray, hnone,
      Option.getD_none]

/-! ### Room -/

theorem wellFormed_zeros (count : Nat) : WellFormed ⟨Array.replicate count 0, 0⟩ :=
  ⟨Nat.zero_le _, fun p _ => Words.bit_zeros count p⟩

theorem bit_grow (words : Array UInt32) (n p : Nat) :
    Words.bit (grow words n) p = Words.bit words p := by
  unfold grow
  split
  · exact Words.bit_append_zeros ..
  · rfl

theorem le_grow (words : Array UInt32) (n : Nat) : n ≤ wordBits * (grow words n).size := by
  have hcount : wordCount n ≤ (grow words n).size := by
    unfold grow
    split
    · rw [Array.size_append, Array.size_replicate]
      omega
    · omega
  exact (wordCount_le n).trans (Nat.mul_le_mul_left _ hcount)

/-! ### Elements at the end -/

theorem bit_push (h : v.WellFormed) (value : Bool) (p : Nat) :
    Words.bit (v.push value).words p =
      if p = v.length then value else Words.bit v.words p := by
  have hroom := le_grow v.words (v.length + 1)
  unfold push
  cases value with
  | true =>
    simp only [if_true]
    rw [Words.bit_assign hroom, bit_grow]
  | false =>
    simp only [Bool.false_eq_true, if_false]
    rw [bit_grow]
    split_ifs with heq
    · rw [heq, h.2 _ le_rfl]
    · rfl

theorem toList_push (h : v.WellFormed) (value : Bool) :
    (v.push value).toList = v.toList ++ [value] := by
  refine toList_eq ?_ fun p hp => ?_
  · rw [List.length_append, length_toList]
    rfl
  · rw [bit_push h]
    by_cases heq : p = v.length
    · rw [if_pos heq, List.getElem_append_right (by rw [length_toList, heq])]
      simp
    · have hlt : p < v.toList.length := by
        rw [List.length_append, length_toList, List.length_singleton] at hp
        rw [length_toList]
        omega
      rw [if_neg heq, List.getElem_append_left hlt, getElem_toList]

theorem WellFormed.push (h : v.WellFormed) (value : Bool) : (v.push value).WellFormed := by
  constructor
  · have hroom := le_grow v.words (v.length + 1)
    unfold Bits.push Words.assign
    cases value with
    | true => simpa using hroom
    | false => exact hroom
  · intro p hp
    have hlt : v.length + 1 ≤ p := hp
    rw [bit_push h, if_neg (by omega), h.2 p (by omega)]

theorem bit_withLength (hn : v.length < n) (value : Bool) (p : Nat) :
    Words.bit (v.withLength n value).words p =
      (Words.bit v.words p || (value && (decide (v.length ≤ p) && decide (p < n)))) := by
  have hroom := le_grow v.words n
  have hlonger : ¬(n : Int) ≤ v.length := by
    omega
  unfold withLength
  rw [if_neg hlonger]
  cases value with
  | true =>
    simp only [if_true, Int.toNat_natCast, Bool.true_and]
    rw [Words.bit_fill _ hn.le hroom, bit_grow]
  | false => simp [bit_grow]

theorem length_withLength (hn : v.length < n) (value : Bool) : (v.withLength n value).length = n := by
  have hlonger : ¬(n : Int) ≤ v.length := by
    omega
  rw [withLength, if_neg hlonger, Int.toNat_natCast]

theorem toList_withLength (h : v.WellFormed) (hn : v.length < n) (value : Bool) :
    (v.withLength n value).toList = v.toList ++ List.replicate (n - v.length) value := by
  refine toList_eq ?_ fun p hp => ?_
  · rw [length_withLength hn, List.length_append, length_toList, List.length_replicate]
    omega
  · rw [List.length_append, length_toList, List.length_replicate] at hp
    rw [bit_withLength hn]
    by_cases hlt : p < v.length
    · have hmem : p < v.toList.length := by rwa [length_toList]
      rw [List.getElem_append_left hmem, getElem_toList]
      simp [hlt]
    · have hpn : p < n := by omega
      have hge : v.toList.length ≤ p := by
        rw [length_toList]
        omega
      rw [List.getElem_append_right hge, List.getElem_replicate, h.2 p (by omega)]
      simp [hpn, not_lt.1 hlt]

theorem WellFormed.withLength (h : v.WellFormed) (hn : v.length < n) (value : Bool) :
    (v.withLength n value).WellFormed := by
  constructor
  · have hroom := le_grow v.words n
    have hlonger : ¬(n : Int) ≤ v.length := by
      omega
    rw [Bits.withLength, if_neg hlonger]
    cases value with
    | true => simpa using hroom
    | false => simpa using hroom
  · intro p hp
    rw [length_withLength hn] at hp
    rw [bit_withLength hn, h.2 p (by omega)]
    simp [not_lt.2 hp]

/-! ### Single elements -/

theorem toList_write (h : v.WellFormed) (hp : p < v.length) (value : Bool) :
    toList ⟨Words.assign v.words p value, v.length⟩ = v.toList.set p value := by
  refine toList_eq ?_ fun q hq => ?_
  · rw [List.length_set, length_toList]
  · have hq' : q < v.toList.length := by rwa [List.length_set] at hq
    rw [Words.bit_assign (hp.trans_le h.1), List.getElem_set, getElem_toList hq']
    by_cases heq : q = p
    · rw [if_pos heq, if_pos heq.symm]
    · rw [if_neg heq, if_neg (Ne.symm heq)]

theorem WellFormed.write (h : v.WellFormed) (hp : p < v.length) (value : Bool) :
    WellFormed ⟨Words.assign v.words p value, v.length⟩ := by
  constructor
  · simpa [Words.assign] using h.1
  · intro q hq
    have hlt : p < q := hp.trans_le hq
    rw [Words.bit_assign (hp.trans_le h.1), if_neg hlt.ne', h.2 q hq]

theorem slice_eq (v : Bits) (start : Nat) {stop : Nat} (h : stop ≤ v.length) :
    v.slice start stop = (v.toList.take stop).drop start := by
  apply List.ext_getElem
  · rw [List.length_drop, List.length_take, length_toList, min_eq_left h]
    simp [slice, Words.slice_eq]
  · intro p hp hp'
    simp [slice, Words.slice_eq, toList]

/-! ### Fewer elements -/

theorem toList_cut (v : Bits) (hn : n ≤ v.length) : (v.cut n).toList = v.toList.take n := by
  have hlength : (v.toList.take n).length = n := by
    rw [List.length_take, length_toList, min_eq_left hn]
  refine toList_eq hlength.symm fun p hp => ?_
  rw [List.getElem_take, getElem_toList, cut, Words.bit_keep, decide_eq_true (hlength ▸ hp),
    Bool.and_true]

theorem WellFormed.cut (h : v.WellFormed) (hn : n ≤ v.length) : (v.cut n).WellFormed := by
  constructor
  · simpa [Bits.cut, Words.keep] using hn.trans h.1
  · intro p hp
    have hafter : ¬p < n := not_lt.2 hp
    rw [Bits.cut, Words.bit_keep, decide_eq_false hafter, Bool.and_false]

theorem pop_of_toList {elems : List Bool} {value : Bool} (h : v.WellFormed)
    (helems : v.toList = elems ++ [value]) :
    ∃ w, v.pop = .ok (value, w) ∧ w.WellFormed ∧ w.toList = elems := by
  have hlength : v.length = elems.length + 1 := by
    rw [← length_toList, helems, List.length_append, List.length_singleton]
  have hroom : elems.length < wordBits * v.words.size := by
    have hfits := h.1
    omega
  have hbit {p : Nat} (hp : p < v.toList.length) : Words.bit v.words p = v.toList[p] :=
    (getElem_toList hp).symm
  refine ⟨⟨Words.assign v.words elems.length false, elems.length⟩, ?_, ⟨?_, fun p hp => ?_⟩,
    toList_eq rfl fun p hp => ?_⟩
  · rw [pop, if_neg (by omega), hlength, Nat.add_sub_cancel,
      hbit (by rw [length_toList, hlength]; exact Nat.lt_succ_self _)]
    simp [helems]
  · simpa [Words.assign] using hroom.le
  · have hafter : elems.length ≤ p := hp
    rw [Words.bit_assign hroom]
    split_ifs with heq
    · rfl
    · exact h.2 p (by omega)
  · rw [Words.bit_assign hroom, if_neg hp.ne, hbit (by rw [length_toList, hlength]; omega)]
    simp [helems, List.getElem_append_left hp]

/-! ### Whole vectors -/

theorem toList_of_bits_eq {w : Bits} (hlength : v.length = w.length)
    (hbits : ∀ p, Words.bit v.words p = Words.bit w.words p) : v.toList = w.toList := by
  refine toList_eq (by rw [length_toList, hlength]) fun p hp => ?_
  rw [hbits, getElem_toList]

theorem WellFormed.reserved (h : v.WellFormed) (n : Nat) :
    WellFormed ⟨grow v.words n, v.length⟩ := by
  have hsize : v.words.size ≤ (grow v.words n).size := by
    unfold grow
    split
    · rw [Array.size_append]
      exact Nat.le_add_right _ _
    · exact le_rfl
  exact ⟨h.1.trans (Nat.mul_le_mul_left _ hsize), fun p hp => (bit_grow ..).trans (h.2 p hp)⟩

theorem toList_reserved (v : Bits) (n : Nat) : toList ⟨grow v.words n, v.length⟩ = v.toList :=
  toList_of_bits_eq rfl fun p => bit_grow v.words n p

theorem toList_extend (v : Bits) (elems : List Bool) :
    (v.extend elems).toList = v.toList ++ elems := by
  unfold extend
  split
  · rename_i hempty
    rw [List.isEmpty_iff.1 hempty, List.append_nil]
  · exact toList_ofList _

theorem WellFormed.extend (h : v.WellFormed) (elems : List Bool) : (v.extend elems).WellFormed := by
  unfold Bits.extend
  split
  · exact h
  · exact wellFormed_ofList _

/-- The words that hold the elements are determined by these. -/
theorem same_iff {w : Bits} (hv : v.WellFormed) (hw : w.WellFormed) :
    v.same w = true ↔ v.toList = w.toList := by
  have hcount {u : Bits} (hu : u.WellFormed) : wordCount u.length ≤ u.words.size := by
    have hfits := hu.1
    simp only [wordCount, wordBits] at hfits ⊢
    omega
  rw [same, Bool.and_eq_true, beq_iff_eq, beq_iff_eq]
  constructor
  · rintro ⟨hlength, hwords⟩
    refine toList_eq (by rw [length_toList, hlength]) fun p hp => ?_
    have hp' : p < v.length := by rwa [length_toList, ← hlength] at hp
    have hword : p / wordBits < wordCount v.length := by
      simp only [wordCount, wordBits]
      omega
    have hget := congrArg (fun words => words[p / wordBits]?) hwords
    simp only [Array.getElem?_extract, Nat.zero_add, Nat.sub_zero, min_eq_left (hcount hv),
      min_eq_left (hcount hw), hword, hlength ▸ hword, if_true] at hget
    rw [getElem_toList, Words.bit, Words.bit, Array.getD_eq_getD_getElem?, hget,
      Array.getD_eq_getD_getElem?]
  · intro heq
    have hlength : v.length = w.length := by rw [← length_toList, heq, length_toList]
    -- Whole words are compared, so the bits after the elements matter: these are zeros on both sides.
    have hbits (p : Nat) : Words.bit v.words p = Words.bit w.words p := by
      by_cases hp : p < v.length
      · have hv' : p < v.toList.length := by rwa [length_toList]
        have hw' : p < w.toList.length := by rwa [length_toList, ← hlength]
        rw [← getElem_toList hv', ← getElem_toList hw']
        simp only [heq]
      · rw [hv.2 p (not_lt.1 hp), hw.2 p (hlength ▸ not_lt.1 hp)]
    refine ⟨hlength, Array.ext ?_ fun index hi hi' => ?_⟩
    · rw [Array.size_extract, Array.size_extract, min_eq_left (hcount hv), min_eq_left (hcount hw),
        hlength]
    · rw [Array.size_extract] at hi hi'
      rw [Array.getElem_extract, Array.getElem_extract]
      refine Word.eq_of_bit_eq fun p hp => ?_
      rw [Words.bit_word (by omega) hp, Words.bit_word (by omega) hp, hbits]

/-- A vector compares with others as one that is the same does. -/
theorem same_congr {v w : Bits} (h : v.same w = true) (u : Bits) : v.same u = w.same u := by
  rw [same, Bool.and_eq_true, beq_iff_eq, beq_iff_eq] at h
  rw [same, same, h.2, h.1]

/-- Within the limits of arrays, vectors are cut into chunks. -/
theorem split_eq {size : Int}
    (hfits : 0 < v.length → v.length ≤ indexLimit ∧ size ≤ indexLimit) :
    v.split size = if v.length = 0 then .ok [] else (checkChunk size).map
      fun size => (chunks size (v.length / size) v.toList).map ofList := by
  rw [split]
  split_ifs with hzero
  · rfl
  · cases hchunk : checkChunk size with
    | error e => rfl
    | ok count =>
      rw [checkChunk] at hchunk
      split at hchunk
      · cases hchunk
      obtain rfl := Except.ok.inj hchunk
      obtain ⟨hlength, hsize⟩ := hfits (Nat.pos_of_ne_zero hzero)
      have hdims := arrayDims_matrix ((Nat.div_le_self _ size.toNat).trans hlength)
        (Int.toNat_le.2 hsize) ((Nat.div_mul_le_self _ _).trans hlength)
      simp only [hdims, bind, Except.bind, pure, Except.pure, Except.map]

end Bits

end BoolTensor
