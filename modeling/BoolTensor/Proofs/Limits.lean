import BoolTensor.Limits
import Mathlib

/-!
# Arrays within the limits

Which products of dimensions are within the limits of arrays, which dimensions arrays can have, and
what dimensions a matrix gets.

## Main definitions

* `HasArrays`: there are arrays of these dimensions
-/

namespace BoolTensor

theorem isIndex_natCast {n : Nat} : isIndex n = true ↔ n ≤ indexLimit := by
  rw [isIndex, Bool.and_eq_true, decide_eq_true_iff, decide_eq_true_iff]
  omega

theorem checkDims_of_le (dims : List Nat) (hrank : dims.length ≤ rankLimit)
    (hdims : ∀ dim ∈ dims, dim ≤ indexLimit) : checkDims (dims.map Int.ofNat) = .ok () := by
  have hall : (dims.map Int.ofNat).all isIndex = true := by
    rw [List.all_map, List.all_eq_true]
    exact fun dim hdim => isIndex_natCast.2 (hdims dim hdim)
  rw [checkDims, if_neg (by simpa using hrank), hall]
  rfl

theorem checkArray_natCast (entrySize : Nat) (dims : List Nat) :
    checkArray entrySize (dims.map Int.ofNat) = (do
      checkDims (dims.map Int.ofNat)
      if (boundedProduct entrySize (dims.filter (· ≠ 0))).isNone then throw .arrayTooLarge) := by
  have hnonneg : (dims.map Int.ofNat).any (· < 0) = false := by
    rw [List.any_map, List.any_eq_false]
    exact fun dim _ => by simp
  have hnonzero : ((dims.map Int.ofNat).filter (· ≠ 0)).map Int.toNat = dims.filter (· ≠ 0) := by
    rw [List.filter_map, List.map_map]
    refine (List.map_congr_left fun dim _ => Int.toNat_natCast dim).trans ?_
    rw [List.map_id']
    exact List.filter_congr fun dim _ => by simp
  rw [checkArray, hnonneg, hnonzero]
  rfl

/-- There is an array where its dimensions, and the product of those that are not zero, are within
the limits. -/
theorem checkArray_of_isSome {entrySize : Nat} (dims : List Nat) (hrank : dims.length ≤ rankLimit)
    (hdims : ∀ dim ∈ dims, dim ≤ indexLimit)
    (hproduct : (boundedProduct entrySize (dims.filter (· ≠ 0))).isSome) :
    checkArray entrySize (dims.map Int.ofNat) = .ok () := by
  rw [checkArray_natCast, checkDims_of_le dims hrank hdims,
    Option.isNone_eq_false_iff.2 hproduct]
  rfl

/-! ### Dimensions of arrays -/

/-- There are arrays of these dimensions, with a byte for an entry: there are not too many of them,
and each of them, and the product of those that are not zero, is an index. -/
structure HasArrays (dims : List Nat) : Prop where
  rank_le : dims.length ≤ rankLimit
  dim_le : ∀ dim ∈ dims, dim ≤ indexLimit
  product_le : (dims.filter (· ≠ 0)).prod ≤ indexLimit

instance (dims : List Nat) : Decidable (HasArrays dims) :=
  decidable_of_iff (dims.length ≤ rankLimit ∧ (∀ dim ∈ dims, dim ≤ indexLimit) ∧
    (dims.filter (· ≠ 0)).prod ≤ indexLimit)
    ⟨fun h => ⟨h.1, h.2.1, h.2.2⟩, fun h => ⟨h.1, h.2, h.3⟩⟩

theorem boundedProduct_cons (size dim : Nat) (dims : List Nat) :
    boundedProduct size (dim :: dims) =
      if size * dim ≤ indexLimit then boundedProduct (size * dim) dims else none := by
  rw [boundedProduct, List.foldlM_cons]
  split_ifs <;> rfl

theorem boundedProduct_eq_some_of_le {size : Nat} {dims : List Nat}
    (h : size * (dims.filter (· ≠ 0)).prod ≤ indexLimit) :
    boundedProduct size dims = some (size * dims.prod) := by
  induction dims generalizing size with
  | nil => simp [boundedProduct]
  | cons dim dims ih =>
    rw [boundedProduct_cons, List.prod_cons, ← Nat.mul_assoc]
    by_cases hdim : dim = 0
    · subst hdim
      rw [if_pos (by simp), ih (by simp)]
    · rw [List.filter_cons_of_pos (by simpa using hdim), List.prod_cons, ← Nat.mul_assoc] at h
      have hrest : 0 < (dims.filter (· ≠ 0)).prod :=
        Nat.pos_of_ne_zero (List.prod_ne_zero (by simp))
      rw [if_pos ((Nat.le_mul_of_pos_right _ hrest).trans h), ih h]

theorem le_of_boundedProduct {size product : Nat} {dims : List Nat} (hsize : size ≤ indexLimit)
    (h : boundedProduct size dims = some product) :
    product = size * dims.prod ∧ product ≤ indexLimit := by
  induction dims generalizing size with
  | nil =>
    obtain rfl := Option.some.inj h
    simp [hsize]
  | cons dim dims ih =>
    rw [boundedProduct_cons] at h
    split_ifs at h with hdim
    obtain ⟨rfl, hle⟩ := ih hdim h
    rw [List.prod_cons, ← Nat.mul_assoc]
    exact ⟨rfl, hle⟩

theorem checkDims_natCast_eq_ok_iff {dims : List Nat} : checkDims (dims.map Int.ofNat) = .ok () ↔
    dims.length ≤ rankLimit ∧ ∀ dim ∈ dims, dim ≤ indexLimit := by
  constructor
  · intro h
    rw [checkDims, List.length_map] at h
    split_ifs at h with hrank hdims
    rw [Bool.not_eq_true', Bool.not_eq_false, List.all_map, List.all_eq_true] at hdims
    exact ⟨not_lt.1 hrank, fun dim hdim => isIndex_natCast.1 (hdims dim hdim)⟩
  · exact fun h => checkDims_of_le dims h.1 h.2

/-- There is an array just where its dimensions, and the bytes of those that are not zero, are
within the limits. -/
theorem checkArray_eq_ok_iff {entrySize : Nat} (hentry : entrySize ≤ indexLimit) {dims : List Nat} :
    checkArray entrySize (dims.map Int.ofNat) = .ok () ↔ dims.length ≤ rankLimit ∧
      (∀ dim ∈ dims, dim ≤ indexLimit) ∧ entrySize * (dims.filter (· ≠ 0)).prod ≤ indexLimit := by
  constructor
  · intro h
    rw [checkArray_natCast] at h
    rcases hdims : checkDims (dims.map Int.ofNat) with e | u
    · rw [hdims] at h
      cases h
    obtain ⟨hrank, hle⟩ := checkDims_natCast_eq_ok_iff.1 hdims
    rcases hproduct : boundedProduct entrySize (dims.filter (· ≠ 0)) with _ | product
    · rw [hdims, hproduct] at h
      cases h
    obtain ⟨rfl, hlimit⟩ := le_of_boundedProduct hentry hproduct
    exact ⟨hrank, hle, hlimit⟩
  · rintro ⟨hrank, hle, hlimit⟩
    have hproduct : boundedProduct entrySize (dims.filter (· ≠ 0)) =
        some (entrySize * (dims.filter (· ≠ 0)).prod) := by
      refine boundedProduct_eq_some_of_le ?_
      rw [List.filter_filter]
      simpa using hlimit
    exact checkArray_of_isSome dims hrank hle (by rw [hproduct]; rfl)

/-- The check passes where there are arrays. -/
theorem checkArray_natCast_eq_ok_iff {dims : List Nat} :
    checkArray 1 (dims.map Int.ofNat) = .ok () ↔ HasArrays dims := by
  rw [checkArray_eq_ok_iff (by decide), Nat.one_mul]
  exact ⟨fun h => ⟨h.1, h.2.1, h.2.2⟩, fun h => ⟨h.rank_le, h.dim_le, h.product_le⟩⟩

/-- There is an array of one dimension just where its entries and bytes are within the limits. -/
theorem checkArray_row_eq_ok_iff {entrySize count : Nat} (hentry : entrySize ≤ indexLimit) :
    checkArray entrySize [(count : Int)] = .ok () ↔
      count ≤ indexLimit ∧ entrySize * count ≤ indexLimit := by
  have hrow : [(count : Int)] = [count].map Int.ofNat := rfl
  rw [hrow, checkArray_eq_ok_iff hentry, List.forall_mem_singleton]
  rcases Nat.eq_zero_or_pos count with rfl | hpos
  · simp [rankLimit, hentry]
  · simp [rankLimit, hpos.ne']

/-- No dimension is open. -/
theorem arrayDims_natCast (count : Nat) (dims : List Nat) :
    arrayDims count (dims.map Int.ofNat) = (do
      checkDims (dims.map Int.ofNat)
      if boundedProduct 1 dims = some count then do
        checkArray 1 (dims.map Int.ofNat)
        return dims
      else throw (.entryCount count (dims.map Int.ofNat))) := by
  have hopen : (dims.map Int.ofNat).countP (· < 0) = 0 := by
    rw [List.countP_eq_zero]
    simp
  have hclosed (size : Nat) : closed (dims.map Int.ofNat) size = dims := by
    rw [closed, List.map_map]
    exact (List.map_congr_left fun dim _ => by simp).trans (List.map_id dims)
  rw [arrayDims, hopen, hclosed]
  refine bind_congr fun _ => ?_
  rcases boundedProduct 1 dims with _ | product
  · simp
  · by_cases hproduct : product = count
    · simp [hclosed, hproduct]
    · simp [hproduct]
      rfl

/-- Dimensions for so many entries are given as they are where there are arrays of them. -/
theorem arrayDims_natCast_eq_ok_iff {count : Nat} {dims dims' : List Nat} :
    arrayDims count (dims.map Int.ofNat) = .ok dims' ↔
      dims' = dims ∧ dims.prod = count ∧ HasArrays dims := by
  rw [arrayDims_natCast]
  constructor
  · intro h
    rcases hdims : checkDims (dims.map Int.ofNat) with e | u
    · rw [hdims] at h
      cases h
    rw [hdims] at h
    change (if boundedProduct 1 dims = some count then _ else _) = _ at h
    split_ifs at h with hproduct
    rcases harray : checkArray 1 (dims.map Int.ofNat) with e | u
    · rw [harray] at h
      cases h
    rw [harray] at h
    obtain rfl := Except.ok.inj h
    obtain ⟨rfl, -⟩ := le_of_boundedProduct (by decide) hproduct
    exact ⟨rfl, (Nat.one_mul _).symm, checkArray_natCast_eq_ok_iff.1 harray⟩
  · rintro ⟨rfl, rfl, h⟩
    have hdims := checkDims_of_le _ h.rank_le h.dim_le
    have hproduct := boundedProduct_eq_some_of_le ((Nat.one_mul _).trans_le h.product_le)
    rw [Nat.one_mul] at hproduct
    rw [hdims, hproduct, if_pos rfl, checkArray_natCast_eq_ok_iff.2 h]
    rfl

/-- A matrix has its dimensions where these and their product are within the limits. -/
theorem arrayDims_matrix {rows width : Nat} (hrows : rows ≤ indexLimit)
    (hwidth : width ≤ indexLimit) (hsize : rows * width ≤ indexLimit) :
    arrayDims (rows * width) [(rows : Int), (width : Int)] = .ok [rows, width] := by
  have hone : 1 ≤ indexLimit := by decide
  have hproduct : ([rows, width].filter (· ≠ 0)).prod ≤ indexLimit := by
    by_cases hrows' : rows = 0
    · by_cases hwidth' : width = 0 <;> simp [hrows', hwidth', hwidth, hone]
    · by_cases hwidth' : width = 0 <;> simp [hrows', hwidth', hrows, hsize]
  have harrays : HasArrays [rows, width] :=
    ⟨by simp [rankLimit], by simp [hrows, hwidth], hproduct⟩
  exact arrayDims_natCast_eq_ok_iff.2 ⟨rfl, by simp, harrays⟩

end BoolTensor
