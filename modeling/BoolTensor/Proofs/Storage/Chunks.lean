import BoolTensor.Proofs.Circuit.Numeral
import BoolTensor.Proofs.Storage.Kept

/-!
# Splitting and joining vectors

The chunks of a vector, joined again, are its elements without the remainder, and vectors of one
length, joined and split again, are what they were. Read as a number with the lowest bit first, a
vector is split into the digits of its value, and vectors are joined to the number of these digits.
-/

namespace BoolTensor

section Chunks

variable {α : Type} {size count : Nat}

theorem flatten_chunks (size count : Nat) (elems : List α) :
    (chunks size count elems).flatten = elems.take (size * count) := by
  induction count generalizing elems with
  | zero => rfl
  | succ count ih =>
    rw [chunks, List.flatten_cons, ih, Nat.mul_succ, Nat.add_comm, List.take_add]

theorem chunks_flatten {lists : List (List α)} (h : ∀ list ∈ lists, list.length = size) :
    chunks size lists.length lists.flatten = lists := by
  induction lists with
  | nil => rfl
  | cons list lists ih =>
    rw [List.forall_mem_cons] at h
    rw [List.length_cons, chunks, List.flatten_cons, List.take_left' h.1, List.drop_left' h.1,
      ih h.2]

theorem getElem_chunks (elems : List α) {j : Nat} (hj : j < (chunks size count elems).length) :
    (chunks size count elems)[j] = (elems.drop (size * j)).take size := by
  induction count generalizing elems j with
  | zero => exact absurd hj (Nat.not_lt_zero j)
  | succ count ih =>
    cases j with
    | zero => rfl
    | succ j =>
      have hj' : j < (chunks size count (elems.drop size)).length := Nat.lt_of_succ_lt_succ hj
      have hrest := ih (elems.drop size) hj'
      rw [List.drop_drop, Nat.add_comm, ← Nat.mul_succ] at hrest
      exact hrest

theorem length_of_mem_chunks {elems chunk : List α} (hlength : size * count ≤ elems.length)
    (h : chunk ∈ chunks size count elems) : chunk.length = size := by
  obtain ⟨j, hj, rfl⟩ := List.mem_iff_getElem.1 h
  have hcount : j + 1 ≤ count := length_chunks size count elems ▸ hj
  have hplace : size * j + size ≤ elems.length := (Nat.mul_le_mul_left size hcount).trans hlength
  rw [getElem_chunks, List.length_take, List.length_drop]
  omega

end Chunks

/-- A chunk of bits is one digit of their value, in a base that is a power of two. -/
theorem littleEndian_chunk (bits : List Bool) (size j : Nat) :
    littleEndian ((bits.drop (size * j)).take size) =
      littleEndian bits >>> (size * j) % 2 ^ size := by
  rw [littleEndian_take, littleEndian_drop]

theorem checkChunk_of_pos {size : Nat} (h : 0 < size) : checkChunk size = .ok size := by
  rw [checkChunk, if_neg (by omega), Int.toNat_natCast]

namespace Storage

variable {α : Type} [Element α] {v : Storage α} {kind : Kind} {elems : List α} {size : Nat}

/-- A vector is split into the chunks of its elements; a vector without elements has none. -/
theorem Holds.exists_split (h : v.Holds kind elems) (hsize : 0 < size)
    (hfits : kind.SplitFits elems.length size) : ∃ parts, v.split size = .ok parts ∧
      List.Forall₂ (fun part chunk => part.Holds kind chunk) parts
        (chunks size (elems.length / size) elems) := by
  have hchunks : (if elems.length = 0 then .ok []
      else (checkChunk size).map fun size => chunks size (elems.length / size) elems) =
        Except.ok (chunks size (elems.length / size) elems) := by
    split_ifs with hzero
    · rw [hzero, Nat.zero_div]
      rfl
    · rw [checkChunk_of_pos hsize]
      rfl
  exact (hchunks ▸ h.split hfits).exists_ok

variable [LawfulElement α]

theorem Holds.truths_eq (h : v.Holds kind elems) : v.truths = elems.map Element.truth := by
  rw [← h.toList_eq, map_truth_toList]

/-- The parts that a vector is split into have the digits of its value. -/
theorem littleEndian_parts (h : v.Holds kind elems) {count : Nat} {parts : List (Storage α)}
    (hparts : List.Forall₂ (fun part chunk => part.Holds kind chunk) parts
      (chunks size count elems)) {j : Nat} (hj : j < parts.length) :
    littleEndian parts[j].truths = littleEndian v.truths >>> (size * j) % 2 ^ size := by
  have hj' : j < (chunks size count elems).length := hparts.length_eq ▸ hj
  have hpart : parts[j].Holds kind (chunks size count elems)[j] := hparts.get hj hj'
  rw [hpart.truths_eq, h.truths_eq, getElem_chunks, ← littleEndian_chunk, List.map_take,
    List.map_drop]

/-- Vectors of one length, joined and split again, are the vectors that there were, up to what the
kind keeps of their elements. -/
theorem exists_split_concat (hsize : 0 < size) {parts : List (Storage α)}
    (hparts : ∀ part ∈ parts, part.length = size)
    (hfits : kind.SplitFits (size * parts.length) size) :
    ∃ chunks, (concat kind parts).split size = .ok chunks ∧ List.Forall₂
      (fun chunk part => chunk.Holds kind (part.toList.map kind.keeps)) chunks parts := by
  have hlists : ∀ list ∈ parts.map fun part => part.toList.map kind.keeps, list.length = size := by
    intro list hlist
    obtain ⟨part, hpart, rfl⟩ := List.mem_map.1 hlist
    rw [List.length_map, length_toList, hparts part hpart]
  have hconcat := holds_concat_map kind parts
  have hflatten : (parts.map toList).flatten.map kind.keeps =
      (parts.map fun part => part.toList.map kind.keeps).flatten := by
    rw [List.map_flatten, List.map_map]
    rfl
  have hlength : (parts.map fun part => part.toList.map kind.keeps).flatten.length =
      size * parts.length := by
    rw [List.length_flatten, List.map_congr_left hlists, List.map_const', List.sum_replicate,
      List.length_map, smul_eq_mul, Nat.mul_comm]
  rw [hflatten] at hconcat
  obtain ⟨vs, hsplit, hvs⟩ := hconcat.exists_split hsize (hlength ▸ hfits)
  have hcount : (parts.map fun part => part.toList.map kind.keeps).length = parts.length :=
    List.length_map _
  rw [hlength, Nat.mul_div_cancel_left _ hsize, ← hcount, chunks_flatten hlists] at hvs
  exact ⟨vs, hsplit, List.forall₂_map_right_iff.1 hvs⟩

/-- A vector of the same kind and with the same elements as another compares as that one does, and
is the same as it where its elements are the same as themselves. -/
theorem Holds.compares_as (hv : v.Holds kind elems) {w : Storage α} (hw : w.Holds kind elems) :
    (∀ u, v.same u = w.same u) ∧ ((∀ a ∈ elems, Element.same a a = true) → v.same w = true) := by
  have hsame := same_congr hv.wellFormed hw.wellFormed (hv.kind_eq.trans hw.kind_eq.symm)
    (hv.toList_eq.trans hw.toList_eq.symm)
  exact ⟨hsame, fun h => (hsame w).trans (same_self hw.wellFormed (hw.toList_eq.symm ▸ h))⟩

/-- A vector is split into as many chunks as it has elements for, each of them a digit of its value,
and these joined are its elements without the remainder. -/
theorem exists_split_parts (hv : v.WellFormed) (hsize : 0 < size)
    (hfits : v.kind.SplitFits v.length size) :
    ∃ parts, v.split size = .ok parts ∧ parts.length = v.length / size ∧
      (∀ part ∈ parts, part.WellFormed ∧ part.kind = v.kind ∧ part.length = size) ∧
      (concat v.kind parts).Holds v.kind (v.toList.take (size * (v.length / size))) ∧
      ∀ (j : Nat) (hj : j < parts.length),
        littleEndian parts[j].truths = littleEndian v.truths >>> (size * j) % 2 ^ size := by
  have h : v.Holds v.kind v.toList := ⟨rfl, hv, rfl⟩
  obtain ⟨parts, hsplit, hparts⟩ := h.exists_split hsize ((length_toList v).symm ▸ hfits)
  have hcount : parts.length = v.length / size := by
    rw [hparts.length_eq, length_chunks, length_toList]
  have hconcat := holds_concat hparts
  rw [flatten_chunks, length_toList] at hconcat
  refine ⟨parts, hsplit, hcount, fun part hpart => ?_, hconcat, fun j hj =>
    littleEndian_parts h hparts hj⟩
  obtain ⟨j, hj, rfl⟩ := List.mem_iff_getElem.1 hpart
  have hj' := hparts.length_eq ▸ hj
  have hchunk : parts[j].Holds v.kind _ := hparts.get hj hj'
  have hlength : parts[j].length = size := by
    rw [← length_toList, hchunk.toList_eq]
    exact length_of_mem_chunks (Nat.mul_div_le ..) (List.getElem_mem hj')
  exact ⟨hchunk.wellFormed, hchunk.kind_eq, hlength⟩

/-- The value of joined vectors is the sum of theirs, each shifted by what comes before it. -/
theorem littleEndian_concat (hkind : kind ≠ .counted) (parts : List (Storage α)) :
    littleEndian (concat kind parts).truths = ∑ j : Fin parts.length,
      littleEndian parts[j].truths * 2 ^ ((parts.take j).map length).sum := by
  have hlengths (j : Nat) :
      (((parts.map truths).take j).map List.length).sum = ((parts.take j).map length).sum := by
    rw [← List.map_take, List.map_map]
    exact congrArg List.sum (List.map_congr_left fun part _ => length_truths part)
  rw [truths_concat hkind, littleEndian_flatten]
  refine Fintype.sum_equiv (finCongr (List.length_map _)) _ _ fun j => ?_
  rw [hlengths]
  exact congrArg (littleEndian · * _) (List.getElem_map _)

/-- The chunks of a vector, joined, are its elements without the remainder, and vectors of one
length, joined and split again, are the ones that there were. Read as numbers, the chunks are the
digits of the vector, and vectors are joined to the number that has theirs. In each case the elements
that are split or joined can be counted. -/
theorem split_concat_roundtrip (hsize : 0 < size) :
    (∀ v : Storage α, v.WellFormed → v.length ≤ indexLimit → v.kind.SplitFits v.length size →
      ∃ parts, v.split size = .ok parts ∧ parts.length = v.length / size ∧
        (∀ part ∈ parts, part.WellFormed ∧ part.kind = v.kind ∧ part.length = size) ∧
        (concat v.kind parts).Holds v.kind (v.toList.take (size * (v.length / size))) ∧
        ∀ (j : Nat) (hj : j < parts.length),
          littleEndian parts[j].truths = littleEndian v.truths >>> (size * j) % 2 ^ size) ∧
    (∀ (kind : Kind) (parts : List (Storage α)), (∀ part ∈ parts, part.length = size) →
      size * parts.length ≤ indexLimit →
      ∃ chunks, (concat kind parts).split size = .ok chunks ∧ List.Forall₂ (fun chunk part =>
        chunk.Holds kind (part.toList.map kind.keeps) ∧
        (part.WellFormed → part.kind = kind → chunk.toList = part.toList ∧
          (∀ u, chunk.same u = part.same u) ∧
          ((∀ a ∈ part.toList, Element.same a a = true) → chunk.same part = true))) chunks parts) ∧
    ∀ (kind : Kind) (parts : List (Storage α)), kind ≠ .counted →
      (parts.map length).sum ≤ indexLimit →
      littleEndian (concat kind parts).truths = ∑ j : Fin parts.length,
        littleEndian parts[j].truths * 2 ^ ((parts.take j).map length).sum := by
  refine ⟨fun v hv _ hfits => exists_split_parts hv hsize hfits, fun kind parts hparts hcount => ?_,
    fun kind parts hkind _ => littleEndian_concat hkind parts⟩
  have hfits : kind.SplitFits (size * parts.length) size := by
    intro _ hpos
    have hle : size ≤ size * parts.length :=
      Nat.le_mul_of_pos_right _ (Nat.pos_of_mul_pos_left hpos)
    exact ⟨hcount, Int.ofNat_le.2 (hle.trans hcount)⟩
  obtain ⟨chunks, hsplit, hchunks⟩ := exists_split_concat hsize hparts hfits
  refine ⟨chunks, hsplit, hchunks.imp fun chunk part hchunk => ⟨hchunk, fun hpart hkind => ?_⟩⟩
  subst hkind
  rw [map_keeps_toList] at hchunk
  exact ⟨hchunk.toList_eq, hchunk.compares_as ⟨rfl, hpart, rfl⟩⟩

/-- Chunks of 20 bits, the second of them across two words; the last five of 45 bits are dropped. -/
theorem split_concat_roundtrip_words :
    let v : Storage Bool := .ofList .packed ((List.range 45).map fun p => p % 3 == 0)
    (∃ parts, v.split 20 = .ok parts ∧ parts.length = 2 ∧
      (concat .packed parts).toList = v.toList.take 40) ∧
    (∃ chunks, (concat .packed [v, v]).split 45 = .ok chunks ∧
      List.Forall₂ (fun chunk part => chunk.same part = true) chunks [v, v]) ∧
    littleEndian (concat .packed [v, v]).truths =
      littleEndian v.truths + littleEndian v.truths * 2 ^ 45 := by
  intro v
  have hv : v.WellFormed := wellFormed_ofList _ _
  have hlength : v.length = 45 := by decide
  obtain ⟨hsplit, -⟩ := split_concat_roundtrip (α := Bool) (by decide : 0 < 20)
  obtain ⟨-, hconcat, hvalue⟩ := split_concat_roundtrip (α := Bool) (by decide : 0 < 45)
  refine ⟨?_, ?_, ?_⟩
  · obtain ⟨parts, hparts, hcount, -, helems, -⟩ := hsplit v hv (by decide) (by decide)
    rw [hlength] at hcount helems
    exact ⟨parts, hparts, hcount, helems.toList_eq⟩
  · obtain ⟨chunks, hchunks, hsame⟩ := hconcat .packed [v, v] (by simp [hlength]) (by decide)
    refine ⟨chunks, hchunks, ?_⟩
    obtain _ | ⟨hfirst, _ | ⟨hsecond, ⟨⟩⟩⟩ := hsame
    have hself : ∀ a ∈ v.toList, Element.same a a = true := fun a _ => beq_self_eq_true a
    exact .cons ((hfirst.2 hv rfl).2.2 hself) (.cons ((hsecond.2 hv rfl).2.2 hself) .nil)
  · rw [hvalue .packed [v, v] nofun (by simp [hlength, indexLimit])]
    refine (Fin.sum_univ_two _).trans ?_
    simp [hlength]

/-- A packed vector is not cut into chunks longer than any dimension of an array, where there are
none to cut. -/
theorem exists_split_refused : ∃ v : Storage Bool, v = .ofList .packed [true, false, true] ∧
    v.WellFormed ∧ v.length / 2 ^ 63 = 0 ∧ v.split (2 ^ 63) = .error .dimensionTooLarge :=
  ⟨_, rfl, wellFormed_ofList _ _, by decide, rfl⟩

end Storage

end BoolTensor
