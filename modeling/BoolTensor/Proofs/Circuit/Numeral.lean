import BoolTensor.Circuit.Binary
import Mathlib

/-!
# Arithmetic on bits

What the carries of addition and of comparison compute, on bits with the lowest first, and which
bits an integer has.

## Main definitions

* `sumBits`: the bits of a sum, without its last carry
* `atMostBits`: the comparison that runs from the lowest bit up
-/

namespace BoolTensor

/-! ### The value of bits -/

theorem littleEndian_lt (bits : List Bool) : littleEndian bits < 2 ^ bits.length := by
  induction bits with
  | nil => decide
  | cons bit bits ih =>
    have hbit : bit.toNat ≤ 1 := bit.toNat_le
    rw [littleEndian, List.length_cons, pow_succ]
    omega

/-- Bits are determined by their number and their value. -/
theorem littleEndian_inj {bits others : List Bool} (hlength : bits.length = others.length) :
    littleEndian bits = littleEndian others ↔ bits = others := by
  constructor
  · intro h
    induction bits generalizing others with
    | nil => exact (List.length_eq_zero_iff.1 hlength.symm).symm
    | cons bit bits ih =>
      cases others with
      | nil => simp at hlength
      | cons other others =>
        rw [littleEndian, littleEndian] at h
        have hbit : bit = other := by
          cases bit <;> cases other <;> simp at h ⊢ <;> omega
        have hvalue : littleEndian bits = littleEndian others := by
          rw [hbit] at h
          omega
        rw [hbit, ih (Nat.succ_inj.1 hlength) hvalue]
  · rintro rfl
    rfl

/-- A low bit below the remainder of the bits above it. -/
theorem add_two_mul_mod_two_pow {low : Nat} (hlow : low < 2) (high n : Nat) :
    (low + 2 * high) % 2 ^ (n + 1) = low + 2 * (high % 2 ^ n) := by
  have hmod := Nat.mod_lt high (Nat.two_pow_pos n)
  have hsplit : low + 2 * high = low + 2 * (high % 2 ^ n) + 2 ^ (n + 1) * (high / 2 ^ n) := by
    have hdiv := Nat.mod_add_div high (2 ^ n)
    rw [pow_succ, mul_comm (2 ^ n) 2, mul_assoc]
    omega
  rw [hsplit, Nat.add_mul_mod_self_left, Nat.mod_eq_of_lt]
  rw [pow_succ]
  omega

theorem littleEndian_append (bits others : List Bool) :
    littleEndian (bits ++ others) =
      littleEndian bits + littleEndian others * 2 ^ bits.length := by
  induction bits with
  | nil => simp [littleEndian]
  | cons bit bits ih =>
    rw [List.cons_append, littleEndian, ih, littleEndian, List.length_cons, pow_succ]
    ring

/-- The lowest bits have the remainder of the value. -/
theorem littleEndian_take (bits : List Bool) (n : Nat) :
    littleEndian (bits.take n) = littleEndian bits % 2 ^ n := by
  induction n generalizing bits with
  | zero => rw [List.take_zero, littleEndian, pow_zero, Nat.mod_one]
  | succ n ih =>
    cases bits with
    | nil => rw [List.take_nil, littleEndian, Nat.zero_mod]
    | cons bit bits =>
      rw [List.take_succ_cons, littleEndian, littleEndian, ih,
        add_two_mul_mod_two_pow (Bool.toNat_lt bit)]

/-- The bits above the lowest have the value that is left without them. -/
theorem littleEndian_drop (bits : List Bool) (n : Nat) :
    littleEndian (bits.drop n) = littleEndian bits >>> n := by
  induction n generalizing bits with
  | zero => rfl
  | succ n ih =>
    cases bits with
    | nil => rw [List.drop_nil, littleEndian, Nat.zero_shiftRight]
    | cons bit bits =>
      have hbit := Bool.toNat_lt bit
      have hhalf : (bit.toNat + 2 * littleEndian bits) / 2 = littleEndian bits := by omega
      rw [List.drop_succ_cons, ih, littleEndian, Nat.shiftRight_succ_inside, hhalf]

/-- Bits one after the other have the sum of their values, each shifted by the bits before. -/
theorem littleEndian_flatten (parts : List (List Bool)) :
    littleEndian parts.flatten = ∑ j : Fin parts.length,
      littleEndian parts[j] * 2 ^ ((parts.take j).map List.length).sum := by
  induction parts with
  | nil => rfl
  | cons part parts ih =>
    have hrest (j : Fin parts.length) :
        littleEndian parts[j] * 2 ^ ((parts.take j).map List.length).sum * 2 ^ part.length =
          littleEndian (part :: parts)[j.succ] *
            2 ^ (((part :: parts).take j.succ).map List.length).sum := by
      rw [mul_assoc, ← pow_add, Fin.val_succ, List.take_succ_cons, List.map_cons, List.sum_cons,
        Nat.add_comm part.length]
      rfl
    rw [List.flatten_cons, littleEndian_append, ih, Finset.sum_mul,
      Finset.sum_congr rfl fun j _ => hrest j]
    refine Eq.trans ?_ (Fin.sum_univ_succ (n := parts.length) _).symm
    exact congrArg (· + _) (Nat.mul_one _).symm

/-! ### Sums -/

/-- The bits of the sum of two numbers and a carry from below, without the last carry. -/
def sumBits : List (Bool × Bool) → Bool → List Bool
  | [], _ => []
  | (a, b) :: pairs, carry =>
    ((a != b) != carry) :: sumBits pairs (Bool.atLeastTwo a b carry)

@[simp]
theorem length_sumBits (pairs : List (Bool × Bool)) (carry : Bool) :
    (sumBits pairs carry).length = pairs.length := by
  induction pairs generalizing carry with
  | nil => rfl
  | cons pair pairs ih => simp [sumBits, ih]

/-- One place of a sum: the bit and the carry have the value of what is added. -/
theorem fullAdder_toNat (a b carry : Bool) :
    ((a != b) != carry).toNat + 2 * (Bool.atLeastTwo a b carry).toNat =
      a.toNat + b.toNat + carry.toNat := by
  cases a <;> cases b <;> cases carry <;> rfl

theorem littleEndian_sumBits {bits others : List Bool} (hlength : bits.length = others.length)
    (carry : Bool) :
    littleEndian (sumBits (bits.zip others) carry) =
      (littleEndian bits + littleEndian others + carry.toNat) % 2 ^ bits.length := by
  induction bits generalizing others carry with
  | nil => simp [sumBits, littleEndian, Nat.mod_one]
  | cons a bits ih =>
    cases others with
    | nil => simp at hlength
    | cons b others =>
      have hplace := fullAdder_toNat a b carry
      have hbit : ((a != b) != carry).toNat < 2 := Bool.toNat_lt _
      have hsum : littleEndian (a :: bits) + littleEndian (b :: others) + carry.toNat =
          ((a != b) != carry).toNat + 2 * (littleEndian bits + littleEndian others +
            (Bool.atLeastTwo a b carry).toNat) := by
        rw [littleEndian, littleEndian]
        omega
      rw [hsum, List.length_cons, add_two_mul_mod_two_pow hbit, List.zip_cons_cons, sumBits,
        littleEndian, ih (Nat.succ_inj.1 hlength)]

/-- Flipped bits are what is missing to all ones. -/
theorem littleEndian_add_map_not (bits : List Bool) :
    littleEndian bits + littleEndian (bits.map (!·)) + 1 = 2 ^ bits.length := by
  induction bits with
  | nil => rfl
  | cons bit bits ih =>
    have hbit : bit.toNat + (!bit).toNat = 1 := by cases bit <;> rfl
    rw [List.map_cons, littleEndian, littleEndian, List.length_cons, pow_succ, ← ih]
    omega

theorem littleEndian_replicate_false (n : Nat) : littleEndian (List.replicate n false) = 0 := by
  induction n with
  | zero => rfl
  | succ n ih => rw [List.replicate_succ, littleEndian, ih, Bool.toNat_false]

/-- The sum with flipped bits and a carry from below is the difference. -/
theorem littleEndian_sumBits_not {bits others : List Bool} (hlength : bits.length = others.length) :
    (littleEndian (sumBits (bits.zip (others.map (!·))) true) : Int) =
      ((littleEndian bits : Int) - littleEndian others) % 2 ^ bits.length := by
  have hflipped := littleEndian_add_map_not others
  have hsum : ((littleEndian bits + littleEndian (others.map (!·)) + true.toNat : Nat) : Int) =
      littleEndian bits - littleEndian others + 2 ^ bits.length := by
    rw [hlength, Bool.toNat_true]
    zify at hflipped
    omega
  rw [littleEndian_sumBits (by rw [List.length_map, hlength]), Int.natCast_mod, hsum]
  push_cast
  exact Int.add_emod_right _ _

/-- The flipped bits with a carry from below are the negation. -/
theorem littleEndian_sumBits_neg (bits : List Bool) :
    (littleEndian (sumBits (bits.map fun bit => (!bit, false)) true) : Int) =
      -(littleEndian bits : Int) % 2 ^ bits.length := by
  have hzip : (bits.map fun bit => (!bit, false)) =
      (bits.map (!·)).zip (List.replicate bits.length false) := by
    rw [List.zip_map_left]
    induction bits with
    | nil => rfl
    | cons bit bits ih => simp [List.replicate_succ, ih]
  have hflipped := littleEndian_add_map_not bits
  have hsum : ((littleEndian (bits.map (!·)) + 0 + true.toNat : Nat) : Int) =
      -littleEndian bits + 2 ^ bits.length := by
    rw [Bool.toNat_true]
    zify at hflipped
    omega
  rw [hzip, littleEndian_sumBits (by simp), littleEndian_replicate_false, Int.natCast_mod, hsum,
    List.length_map]
  push_cast
  exact Int.add_emod_right _ _

/-! ### Comparison -/

/-- Whether a number is at most another, given the answer for the bits below. -/
def atMostBits (pairs : List (Bool × Bool)) (below : Bool) : Bool :=
  pairs.foldl (fun below pair => Bool.atLeastTwo (!pair.1) pair.2 below) below

theorem atMostBits_eq {bits others : List Bool} (hlength : bits.length = others.length)
    (below : Bool) :
    atMostBits (bits.zip others) below =
      decide (littleEndian bits < littleEndian others + below.toNat) := by
  induction bits generalizing others below with
  | nil =>
    obtain rfl := List.length_eq_zero_iff.1 hlength.symm
    cases below <;> rfl
  | cons a bits ih =>
    cases others with
    | nil => simp at hlength
    | cons b others =>
      have hplace : littleEndian bits < littleEndian others + (Bool.atLeastTwo (!a) b below).toNat ↔
          littleEndian (a :: bits) < littleEndian (b :: others) + below.toNat := by
        rw [littleEndian, littleEndian]
        cases a <;> cases b <;> cases below <;> simp <;> omega
      rw [List.zip_cons_cons, atMostBits, List.foldl_cons, ← atMostBits,
        ih (Nat.succ_inj.1 hlength), decide_eq_decide, hplace]

/-! ### Bits of an integer -/

theorem numberBit_zero (value : Int) : numberBit value 0 = (value % 2 == 1) := by
  simp [numberBit]

theorem numberBit_succ (value : Int) (place : Nat) :
    numberBit value (place + 1) = numberBit (value / 2) place := by
  rw [numberBit, numberBit, Int.shiftRight_eq_div_pow, Int.shiftRight_eq_div_pow, pow_succ',
    Nat.cast_mul, Int.ediv_ediv_of_nonneg (by decide)]
  rfl

/-- The lowest bits of an integer have its value modulo a power of two. -/
theorem littleEndian_numberBits (n : Nat) (value : Int) :
    (littleEndian ((List.range n).map (numberBit value)) : Int) = value % 2 ^ n := by
  induction n generalizing value with
  | zero => simp [littleEndian]
  | succ n ih =>
    have hbits : (List.range (n + 1)).map (numberBit value) =
        (value % 2 == 1) :: (List.range n).map (numberBit (value / 2)) := by
      rw [List.range_succ_eq_map, List.map_cons, List.map_map, numberBit_zero]
      exact congrArg _ (List.map_congr_left fun place _ => numberBit_succ value place)
    have hlow : ((value % 2 == 1).toNat : Int) = value % 2 := by
      rcases Int.emod_two_eq_zero_or_one value with h | h <;> rw [h] <;> rfl
    -- The lowest bit, twice the bits above it, and what is above all of them.
    have hmod := Int.emod_nonneg (value / 2) (pow_ne_zero n two_ne_zero)
    have hlt := Int.emod_lt_of_pos (value / 2) (pow_pos two_pos n)
    have hsplit : value =
        value % 2 + 2 * (value / 2 % 2 ^ n) + 2 ^ (n + 1) * (value / 2 / 2 ^ n) := by
      have hdiv := Int.emod_add_mul_ediv (value / 2) (2 ^ n)
      rw [pow_succ', mul_assoc]
      omega
    have hvalue : value % 2 ^ (n + 1) = value % 2 + 2 * (value / 2 % 2 ^ n) := by
      refine (congrArg (· % (2 : Int) ^ (n + 1)) hsplit).trans ?_
      rw [Int.add_mul_emod_self_left]
      apply Int.emod_eq_of_lt
      · omega
      · rw [pow_succ']
        omega
    rw [hvalue, hbits, littleEndian, Nat.cast_add, Nat.cast_mul, ih, hlow]
    rfl

end BoolTensor
