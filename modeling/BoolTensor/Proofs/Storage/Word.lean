import BoolTensor.Storage.Word
import Mathlib

/-!
# Bits of words

Which bits the operations on words and on rows of words leave, bit by bit.
-/

namespace BoolTensor

namespace Word

variable {word other : UInt32} {p q : Nat}

theorem bit_eq_getLsbD (word : UInt32) (p : Nat) : bit word p = word.toBitVec.getLsbD p := rfl

theorem bit_zero (p : Nat) : bit 0 p = false := by
  simp [bit]

/-- A word is determined by its bits. -/
theorem eq_of_bit_eq (h : ∀ p < wordBits, bit word p = bit other p) : word = other :=
  UInt32.toBitVec_inj.1 (BitVec.eq_of_getLsbD_eq h)

theorem bit_or : bit (word ||| other) p = (bit word p || bit other p) := by
  simp only [bit_eq_getLsbD, UInt32.toBitVec_or, BitVec.getLsbD_or]

theorem bit_and : bit (word &&& other) p = (bit word p && bit other p) := by
  simp only [bit_eq_getLsbD, UInt32.toBitVec_and, BitVec.getLsbD_and]

theorem bit_not (h : p < wordBits) : bit (~~~word) p = !bit word p := by
  have h32 : p < 32 := h
  simp only [bit_eq_getLsbD, UInt32.toBitVec_not, BitVec.getLsbD_not, h32, decide_true,
    Bool.true_and]

theorem toNat_single (h : p < wordBits) : (single p).toNat = 2 ^ p := by
  have h32 : p < 32 := h
  have hsize : p < UInt32.size := h32.trans (by decide)
  have hpow : 2 ^ p < 2 ^ 32 := Nat.pow_lt_pow_right (by decide) h32
  have hplace : (UInt32.ofNat p).toNat = p := UInt32.toNat_ofNat_of_lt hsize
  rw [single, UInt32.toNat_shiftLeft, hplace, UInt32.toNat_one, Nat.mod_eq_of_lt h32,
    Nat.shiftLeft_eq, one_mul, Nat.mod_eq_of_lt hpow]

theorem bit_single (h : p < wordBits) : bit (single p) q = decide (p = q) := by
  rw [bit, toNat_single h, Nat.testBit_two_pow]

theorem bit_below (h : p < wordBits) (stop : Nat) : bit (below stop) p = decide (p < stop) := by
  unfold below
  split
  · rename_i hstop
    have hone : (1 : UInt32).toNat ≤ (single stop).toNat := by
      rw [toNat_single hstop]
      exact Nat.one_le_two_pow
    rw [bit, UInt32.toNat_sub_of_le _ _ hone, toNat_single hstop, UInt32.toNat_one,
      Nat.testBit_two_pow_sub_one]
  · rename_i hstop
    rw [bit_not h, bit_zero]
    simpa using h.trans_le (not_lt.1 hstop)

theorem bit_assign (h : p < wordBits) (hq : q < wordBits) (value : Bool) :
    bit (assign word p value) q = if q = p then value else bit word q := by
  unfold assign
  by_cases heq : q = p
  · subst heq
    cases value with
    | true => simp [bit_or, bit_single h]
    | false => simp [bit_and, bit_not hq, bit_single h]
  · cases value with
    | true => simp [bit_or, bit_single h, heq, Ne.symm heq]
    | false => simp [bit_and, bit_not hq, bit_single h, heq, Ne.symm heq]

theorem bit_ofBits (h : p < wordBits) (value : Nat → Bool) : bit (ofBits value) p = value p := by
  -- The bits are set one after the other, up to `count` of them.
  have hprefix : ∀ count ≤ wordBits, bit ((List.range count).foldl
      (fun word place => if value place then word ||| single place else word) 0) p =
        (decide (p < count) && value p) := by
    intro count hcount
    induction count with
    | zero => simp [bit_zero]
    | succ count ih =>
      have hbits := ih (Nat.le_of_succ_le hcount)
      rw [List.range_succ, List.foldl_append, List.foldl_cons, List.foldl_nil]
      by_cases heq : p = count
      · subst heq
        cases hvalue : value p with
        | true => simp [bit_or, bit_single hcount]
        | false => simpa [hvalue] using hbits
      · have hlt : decide (p < count + 1) = decide (p < count) := by
          rw [decide_eq_decide]
          omega
        rw [hlt, ← hbits]
        cases value count with
        | true => simp [bit_or, bit_single hcount, Ne.symm heq]
        | false => rfl
  rw [ofBits, hprefix wordBits le_rfl]
  simp [h]

end Word

namespace Words

variable {words : Array UInt32} {p q : Nat}

theorem bit_of_size_le (h : wordBits * words.size ≤ p) : bit words p = false := by
  have hword : words.size ≤ p / wordBits := by
    rw [Nat.le_div_iff_mul_le (by decide), mul_comm]
    exact h
  rw [bit, Array.getD_eq_getD_getElem?, Array.getElem?_eq_none hword]
  exact Word.bit_zero _

theorem bit_word_add (words : Array UInt32) (index : Nat) (hp : p < wordBits) :
    bit words (wordBits * index + p) = Word.bit (words.getD index 0) p := by
  have hword : (wordBits * index + p) / wordBits = index := by
    rw [Nat.mul_add_div (by decide), Nat.div_eq_of_lt hp, Nat.add_zero]
  have hplace : (wordBits * index + p) % wordBits = p := by
    rw [Nat.mul_add_mod, Nat.mod_eq_of_lt hp]
  rw [bit, hword, hplace]

/-- The bits of a word of the row. -/
theorem bit_word {index : Nat} (h : index < words.size) (hp : p < wordBits) :
    Word.bit words[index] p = bit words (wordBits * index + p) := by
  rw [bit_word_add words index hp, Array.getD_eq_getD_getElem?, Array.getElem?_eq_getElem h,
    Option.getD_some]

theorem bit_append_zeros (words : Array UInt32) (count p : Nat) :
    bit (words ++ Array.replicate count 0) p = bit words p := by
  rw [bit, bit, Array.getD_eq_getD_getElem?, Array.getD_eq_getD_getElem?, Array.getElem?_append]
  split
  · rfl
  · rename_i hword
    rw [Array.getElem?_replicate, Array.getElem?_eq_none (not_lt.1 hword)]
    split <;> rfl

theorem bit_zeros (count p : Nat) : bit (Array.replicate count 0) p = false := by
  rw [bit, Array.getD_eq_getD_getElem?, Array.getElem?_replicate]
  split <;> exact Word.bit_zero _

theorem bit_assign (h : p < wordBits * words.size) (value : Bool) (q : Nat) :
    bit (assign words p value) q = if q = p then value else bit words q := by
  have hword : p / wordBits < words.size := Nat.div_lt_of_lt_mul h
  have hp := Nat.div_add_mod p wordBits
  have hq := Nat.div_add_mod q wordBits
  rw [bit, bit, assign, Array.getD_eq_getD_getElem?, Array.getD_eq_getD_getElem?,
    Array.getElem?_modify]
  by_cases heq : p / wordBits = q / wordBits
  · rw [if_pos heq, ← heq, Array.getElem?_eq_getElem hword]
    simp only [Option.map_some, Option.getD_some]
    rw [Word.bit_assign (Nat.mod_lt _ (by decide)) (Nat.mod_lt _ (by decide))]
    have hiff : q % wordBits = p % wordBits ↔ q = p := by
      constructor
      · intro hmod
        rw [← hp, ← hq, heq, hmod]
      · intro hqp
        rw [hqp]
    simp only [hiff]
  · have hne : q ≠ p := by
      rintro rfl
      exact heq rfl
    rw [if_neg heq, if_neg hne]

/-- A bit after every word is changed by its number. -/
theorem bit_mapIdx (f : Nat → UInt32 → UInt32) (words : Array UInt32)
    (h : p < wordBits * words.size) :
    bit (words.mapIdx f) p =
      Word.bit (f (p / wordBits) (words.getD (p / wordBits) 0)) (p % wordBits) := by
  have hword : p / wordBits < words.size := Nat.div_lt_of_lt_mul h
  rw [bit, Array.getD_eq_getD_getElem?, Array.getD_eq_getD_getElem?, Array.getElem?_mapIdx,
    Array.getElem?_eq_getElem hword]
  rfl

/-- The place in a word is below what is left of a place in the row just if it comes before it. -/
theorem mod_lt_sub_iff (p stop : Nat) :
    p % wordBits < stop - wordBits * (p / wordBits) ↔ p < stop := by
  have hp := Nat.div_add_mod p wordBits
  omega

theorem bit_keep (words : Array UInt32) (stop p : Nat) :
    bit (keep words stop) p = (bit words p && decide (p < stop)) := by
  have hmod : p % wordBits < wordBits := Nat.mod_lt _ (by decide)
  by_cases h : p < wordBits * words.size
  · rw [keep, bit_mapIdx _ _ h, Word.bit_and, Word.bit_below hmod, bit]
    simp only [mod_lt_sub_iff]
  · have hsize : (keep words stop).size = words.size := Array.size_mapIdx
    rw [bit_of_size_le (not_lt.1 h), bit_of_size_le (hsize ▸ not_lt.1 h), Bool.false_and]

theorem bit_pack (bits : Array Bool) (p : Nat) : bit (pack bits) p = bits.getD p false := by
  have hmod : p % wordBits < wordBits := Nat.mod_lt _ (by decide)
  have hsize : (pack bits).size = wordCount bits.size := Array.size_ofFn
  have hplace : wordBits * (p / wordBits) + p % wordBits = p := Nat.div_add_mod p wordBits
  by_cases hword : p / wordBits < wordCount bits.size
  · have hget : (pack bits)[p / wordBits]? =
        some (Word.ofBits fun place => bits.getD (wordBits * (p / wordBits) + place) false) := by
      rw [pack, Array.getElem?_ofFn, dif_pos hword]
    rw [bit, Array.getD_eq_getD_getElem?, hget, Option.getD_some, Word.bit_ofBits hmod, hplace]
  · -- After the words there are no bits.
    have hbits : bits.size ≤ p := by
      simp only [wordCount, wordBits] at hword hplace
      omega
    have hrow : wordBits * (pack bits).size ≤ p := by
      rw [hsize]
      simp only [wordCount, wordBits] at hword hplace ⊢
      omega
    rw [bit_of_size_le hrow, Array.getD_eq_getD_getElem?, Array.getElem?_eq_none hbits]
    rfl

end Words

end BoolTensor
