import BoolTensor.Proofs.Storage.Word
import BoolTensor.Storage.Bits

/-!
# Ranges of bits

A range of a row of bits is read out of the words that hold it, and it is set in three runs: one by
one up to the first place of a word, then word by word, and the rest one by one. Each run goes on at
the place that the one before it has reached, so which bits are set follows from where the runs end.
Every run ends, as each step leaves fewer places before `stop`.

## Main statements

* `Words.slice_eq`: reading a range gives the bits at its places, in order
* `Words.bit_fill`: setting a range sets these bits and no others
-/

namespace BoolTensor

namespace Words

/-! ### Reading a range -/

theorem unpack_eq (words : Array UInt32) (first last : Nat) :
    unpack words first last =
      (List.range' (wordBits * first) (wordBits * (last - first))).map (bit words) := by
  rw [unpack]
  induction last - first with
  | zero => rfl
  | succ count ih =>
    have hword : (List.range wordBits).map (Word.bit (words.getD (first + count) 0)) =
        (List.range' (wordBits * first + wordBits * count) wordBits).map (bit words) := by
      rw [List.range'_eq_map_range, List.map_map, ← Nat.mul_add]
      exact List.map_congr_left fun p hp =>
        (bit_word_add words (first + count) (List.mem_range.1 hp)).symm
    rw [List.range_succ, List.flatMap_append, List.flatMap_singleton, ih, hword, ← List.map_append,
      List.range'_append_1, Nat.mul_succ]

theorem slice_eq (words : Array UInt32) (start stop : Nat) :
    slice words start stop = (List.range' start (stop - start)).map (bit words) := by
  have hfirst := Nat.div_add_mod start wordBits
  -- The words reach at least up to `stop`, and the first of them begins at most at `start`.
  have hlast : stop - start ≤
      wordBits * (wordCount stop - start / wordBits) - (start - wordBits * (start / wordBits)) := by
    simp only [wordCount, wordBits] at *
    omega
  rw [slice, unpack_eq]
  apply List.ext_getElem
  · simpa using hlast
  · intro k hk hk'
    simp only [List.getElem_take, List.getElem_drop, List.getElem_map, List.getElem_range',
      Nat.one_mul]
    congr 1
    omega

/-! ### Setting a range -/

section Runs

variable (ends : Nat → Bool) (words : Array UInt32) {start stop : Nat}

@[simp]
theorem size_assign (p : Nat) (value : Bool) : (assign words p value).size = words.size :=
  Array.size_modify

@[simp]
theorem size_setUntil (start stop : Nat) :
    (setUntil ends words start stop).1.size = words.size := by
  fun_induction setUntil ends words start stop with
  | case1 words start h ih => rw [ih, size_assign]
  | case2 words start h => rfl

theorem le_setUntil (start stop : Nat) : start ≤ (setUntil ends words start stop).2 := by
  fun_induction setUntil ends words start stop with
  | case1 words start h ih => exact (Nat.le_succ start).trans ih
  | case2 words start h => exact le_rfl

theorem setUntil_le (h : start ≤ stop) : (setUntil ends words start stop).2 ≤ stop := by
  fun_induction setUntil ends words start stop with
  | case1 words start hmore ih => exact ih hmore.1
  | case2 words start hmore => exact h

/-- A run that does not reach `stop` has come to a place where it ends. -/
theorem ends_setUntil (start stop : Nat) (h : (setUntil ends words start stop).2 < stop) :
    ends (setUntil ends words start stop).2 = true := by
  fun_induction setUntil ends words start stop with
  | case1 words start hmore ih => exact ih h
  | case2 words start hmore => simpa [h] using hmore

/-- A run that no place ends reaches `stop`. -/
theorem setUntil_false (h : start ≤ stop) :
    (setUntil (fun _ => false) words start stop).2 = stop := by
  refine (setUntil_le _ words h).eq_of_not_lt fun hlt => ?_
  exact Bool.false_ne_true (ends_setUntil _ words start stop hlt)

theorem bit_setUntil (start : Nat) (hstop : stop ≤ wordBits * words.size) (p : Nat) :
    bit (setUntil ends words start stop).1 p = (bit words p ||
      (decide (start ≤ p) && decide (p < (setUntil ends words start stop).2))) := by
  fun_induction setUntil ends words start stop with
  | case1 words start hmore ih =>
    have hnext := le_setUntil ends (assign words start true) (start + 1) stop
    rw [ih (by rwa [size_assign]), bit_assign (hmore.1.trans_le hstop)]
    by_cases heq : p = start
    · subst heq
      simp [Nat.lt_of_succ_le hnext]
    · have hle : decide (start + 1 ≤ p) = decide (start ≤ p) := by
        rw [decide_eq_decide]
        omega
      rw [if_neg heq, hle]
  | case2 words start hmore =>
    have hnone : ¬(start ≤ p ∧ p < start) := by
      omega
    simp [← Bool.decide_and, hnone]

@[simp]
theorem size_fillWords (first last : Nat) : (fillWords words first last).size = words.size :=
  Array.size_mapIdx

theorem bit_fillWords {first last : Nat} (hlast : last ≤ words.size) (p : Nat) :
    bit (fillWords words first last) p = (bit words p ||
      (decide (wordBits * first ≤ p) && decide (p < wordBits * last))) := by
  have hmod : p % wordBits < wordBits := Nat.mod_lt _ (by decide)
  have hfirst : first ≤ p / wordBits ↔ wordBits * first ≤ p := by
    rw [Nat.le_div_iff_mul_le (by decide), Nat.mul_comm]
  have hbefore : p / wordBits < last ↔ p < wordBits * last := by
    rw [Nat.div_lt_iff_lt_mul (by decide), Nat.mul_comm]
  by_cases hp : p < wordBits * words.size
  · rw [fillWords, bit_mapIdx _ _ hp, ← Bool.decide_and]
    simp only [hfirst, hbefore]
    split_ifs with hrange
    · rw [Word.bit_not hmod, Word.bit_zero]
      simp [hrange]
    · rw [decide_eq_false hrange, Bool.or_false, bit]
  · have hout : ¬p < wordBits * last := fun h =>
      hp (h.trans_le (Nat.mul_le_mul_left _ hlast))
    rw [bit_of_size_le (by rwa [size_fillWords, ← not_lt]), bit_of_size_le (not_lt.1 hp)]
    simp [hout]

@[simp]
theorem size_fill (start stop : Nat) : (fill words start stop).size = words.size := by
  rw [fill]
  dsimp only
  split_ifs <;> simp

/-- Two ranges one after the other are one range. -/
theorem range_or_range {middle p : Nat} (h : start ≤ middle) (h' : middle ≤ stop) :
    ((decide (start ≤ p) && decide (p < middle)) || (decide (middle ≤ p) && decide (p < stop))) =
      (decide (start ≤ p) && decide (p < stop)) := by
  simp only [← Bool.decide_and, ← Bool.decide_or, decide_eq_decide]
  omega

theorem bit_fill (hle : start ≤ stop) (hstop : stop ≤ wordBits * words.size) (p : Nat) :
    bit (fill words start stop) p = (bit words p || (decide (start ≤ p) && decide (p < stop))) := by
  have hfrom := le_setUntil (· % wordBits == 0) words start stop
  have hupto := setUntil_le (· % wordBits == 0) words hle
  have hends := ends_setUntil (· % wordBits == 0) words start stop
  have hbits := bit_setUntil (· % wordBits == 0) words start hstop p
  have hsize := size_setUntil (· % wordBits == 0) words start stop
  rw [fill]
  generalize setUntil (· % wordBits == 0) words start stop = head at *
  obtain ⟨set, reached⟩ := head
  dsimp only at *
  have hroom : stop ≤ wordBits * set.size := by rwa [hsize]
  split_ifs with hwhole
  · -- The first run has come to the first place of a word, and the words up to `stop` are set.
    have hreached : wordBits * (reached / wordBits) = reached := by
      have hzero := hends (hwhole.trans_le (Nat.sub_le _ _))
      rw [beq_iff_eq] at hzero
      exact Nat.mul_div_cancel' (Nat.dvd_of_mod_eq_zero hzero)
    have hlast : wordBits * ((stop - stop % wordBits) / wordBits) = stop - stop % wordBits :=
      Nat.mul_div_cancel' (Nat.dvd_sub_mod stop)
    have hwords : (stop - stop % wordBits) / wordBits ≤ set.size :=
      Nat.div_le_of_le_mul ((Nat.sub_le _ _).trans hroom)
    rw [bit_setUntil _ _ _ (by rwa [size_fillWords]), setUntil_false _ (Nat.sub_le _ _),
      bit_fillWords _ hwords, hreached, hlast, hbits, Bool.or_assoc, Bool.or_assoc,
      range_or_range hwhole.le (Nat.sub_le _ _), range_or_range hfrom hupto]
  · rw [bit_setUntil _ _ _ hroom, setUntil_false _ hupto, hbits, Bool.or_assoc,
      range_or_range hfrom hupto]

end Runs

/-- Setting a range of a row, whatever its words hold, sets the bits at the places of the range and
leaves every other bit of every word; reading a range of a vector gives the bits at its places, in
order. -/
theorem fill_sets_slice_reads :
    (∀ (words : Array UInt32) (start stop : Nat), start ≤ stop → stop ≤ wordBits * words.size →
      (fill words start stop).size = words.size ∧
        ∀ p, bit (fill words start stop) p =
          if start ≤ p ∧ p < stop then true else bit words p) ∧
    ∀ (v : Bits) (start stop : Nat), start ≤ stop → stop ≤ v.length →
      v.slice start stop = (List.range' start (stop - start)).map (bit v.words) := by
  refine ⟨fun words start stop hle hstop => ⟨size_fill words start stop, fun p => ?_⟩,
    fun v start stop _ _ => slice_eq v.words start stop⟩
  rw [bit_fill words hle hstop, ← Bool.decide_and]
  split_ifs with hrange
  · rw [decide_eq_true hrange, Bool.or_true]
  · rw [decide_eq_false hrange, Bool.or_false]

/-- A range from the first of three words over the second one into the third, which holds a bit
inside of it and one after it; and one that is read across the last two words. -/
theorem fill_sets_slice_reads_three_words :
    let words : Array UInt32 := #[5, 0, 36]
    (fill words 30 67).size = 3 ∧
      (List.range' 28 42).map (bit (fill words 30 67)) =
        [false, false] ++ List.replicate 37 true ++ [false, false, true] ∧
      (⟨words, 70⟩ : Bits).slice 63 70 = [false, false, false, true, false, false, true] := by
  intro words
  obtain ⟨hfill, hslice⟩ := fill_sets_slice_reads
  obtain ⟨hsize, hbits⟩ := hfill words 30 67 (by decide) (by decide)
  refine ⟨hsize, ?_, (hslice ⟨words, 70⟩ 63 70 (by decide) (by decide)).trans (by decide)⟩
  rw [List.map_congr_left fun p _ => hbits p]
  decide

end Words

end BoolTensor
