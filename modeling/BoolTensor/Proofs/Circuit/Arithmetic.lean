import BoolTensor.Program.Circuit
import BoolTensor.Proofs.Circuit.Binary

/-!
# Binary numbers over truth values

Over the algebra of truth the circuits on binary numbers compute with the unsigned values of their
operands, modulo a power of two, at every width and in every representation of the vectors.

## Main definitions

* `Storage.value`: the unsigned value of the bits of a vector, the lowest first
* `Storage.Represents`: a vector of so many bits has the value of an integer, modulo a power of two
* `Comparison.eval`: what a comparison tells of two numbers
-/

namespace BoolTensor

/-- The unsigned value of the bits of a vector, the lowest first. -/
def Storage.value (v : Storage Bool) : Nat :=
  littleEndian v.truths

/-- The vector has so many bits, and the value of the integer modulo their power of two. -/
def Storage.Represents (v : Storage Bool) (width : Nat) (value : Int) : Prop :=
  v.length = width ∧ (v.value : Int) = value % 2 ^ width

instance (v : Storage Bool) (width : Nat) (value : Int) : Decidable (v.Represents width value) :=
  inferInstanceAs (Decidable (_ ∧ _))

/-- What a comparison tells of two numbers. -/
def Comparison.eval : Comparison → Nat → Nat → Bool
  | eq, a, b => a == b
  | ne, a, b => a != b
  | le, a, b => a ≤ b
  | lt, a, b => a < b

variable {v w : Storage Bool}

theorem Storage.length_truths_congr (h : v.length = w.length) :
    v.truths.length = w.truths.length := by
  rw [length_truths, length_truths, h]

/-! ### Results without an effect -/

namespace Reading

/-- The elements of a vector of truth values are read as themselves. -/
theorem truth_readsList (v : Storage Bool) : truth.ReadsList () v.toList v.truths := by
  rw [truths_eq_toList, ReadsList, truth, List.forall₂_eq_eq_eq]

theorem truths_of_stores {bits : List Bool} (h : truth.Stores () v bits) : v.truths = bits := by
  have hreads := h.reads
  rw [ReadsList, truth, List.forall₂_eq_eq_eq] at hreads
  rw [truths_eq_toList, hreads]

/-- Over truth values a circuit that does not fail is its result. -/
theorem exists_of_returns {x : ExceptT Error Id (Storage Bool)} {bits : List Bool}
    (h : truth.Returns () x fun s u => truth.Stores s u bits) :
    ∃ u, x = pure u ∧ u.truths = bits := by
  obtain ⟨u, _, hrun, -, hu⟩ := h
  exact ⟨u, congrArg Prod.fst hrun, truths_of_stores hu⟩

theorem truths_of_gives {x : Id (Storage Bool)} {bits : List Bool}
    (h : truth.Gives () x fun s u => truth.Stores s u bits) : x.run.truths = bits :=
  truths_of_stores h.2

end Reading

theorem Storage.Represents.of_truths {bits : List Bool} {width : Nat} {value : Int}
    (h : v.truths = bits) (hlength : bits.length = width)
    (hvalue : (littleEndian bits : Int) = value % 2 ^ width) : v.Represents width value := by
  refine ⟨?_, ?_⟩
  · rw [← length_truths, h, hlength]
  · rw [Storage.value, h, hvalue]

namespace BoolAlgebra

/-- The realization of truth values by themselves, without an effect. -/
theorem truths_realized : Reading.truth.Realizes (truthAlgebra : BoolAlgebra Id Bool) :=
  Reading.truth_realizes

/-! ### Arithmetic -/

theorem numAdd_represents (h : v.length = w.length) :
    ∃ u, (truthAlgebra : BoolAlgebra Id Bool).numAdd v w = pure u ∧
      u.Represents v.length (v.value + w.value) := by
  have hlength := Storage.length_truths_congr h
  obtain ⟨u, hu, htruths⟩ := Reading.exists_of_returns (truths_realized.returns_numAdd trivial
    (Reading.truth_readsList v) (Reading.truth_readsList w) hlength)
  refine ⟨u, hu, .of_truths htruths ?_ ?_⟩
  · rw [length_sumBits, List.length_zip, ← hlength, Nat.min_self, Storage.length_truths]
  · rw [littleEndian_sumBits hlength, Storage.length_truths]
    rfl

theorem numSub_represents (h : v.length = w.length) :
    ∃ u, (truthAlgebra : BoolAlgebra Id Bool).numSub v w = pure u ∧
      u.Represents v.length (v.value - w.value) := by
  have hlength := Storage.length_truths_congr h
  obtain ⟨u, hu, htruths⟩ := Reading.exists_of_returns (truths_realized.returns_numSub trivial
    (Reading.truth_readsList v) (Reading.truth_readsList w) hlength)
  refine ⟨u, hu, .of_truths htruths ?_ ?_⟩
  · rw [length_sumBits, List.length_zip, List.length_map, ← hlength, Nat.min_self,
      Storage.length_truths]
  · rw [littleEndian_sumBits_not hlength, Storage.length_truths]
    rfl

theorem numNeg_represents (v : Storage Bool) :
    ((truthAlgebra : BoolAlgebra Id Bool).numNeg v).run.Represents v.length (-v.value) := by
  have htruths := Reading.truths_of_gives
    (truths_realized.gives_numNeg trivial (Reading.truth_readsList v))
  refine .of_truths htruths ?_ ?_
  · rw [length_sumBits, List.length_map, Storage.length_truths]
  · rw [littleEndian_sumBits_neg, Storage.length_truths]
    rfl

theorem numLift_represents (width : Nat) (value : Int) :
    ((truthAlgebra : BoolAlgebra Id Bool).numLift width value).run.Represents width value := by
  have htruths := Reading.truths_of_gives (truths_realized.gives_numLift trivial width value)
  rw [Int.toNat_natCast] at htruths
  refine .of_truths htruths ?_ (littleEndian_numberBits width value)
  rw [List.length_map, List.length_range]

/-- Arithmetic on bit vectors of any width is arithmetic modulo a power of two: a sum and a
difference of operands of the same length, which are refused of others, a negation, and the bits
of any integer. -/
theorem arithmetic_modulo_two_pow (v w : Storage Bool) (width : Nat) (value : Int) :
    (v.length = w.length →
      (∃ u, (truthAlgebra : BoolAlgebra Id Bool).numAdd v w = pure u ∧
        u.Represents v.length (v.value + w.value)) ∧
      ∃ u, (truthAlgebra : BoolAlgebra Id Bool).numSub v w = pure u ∧
        u.Represents v.length (v.value - w.value)) ∧
    (v.length ≠ w.length →
      (truthAlgebra : BoolAlgebra Id Bool).numAdd v w =
        throw (.operandLengths v.length w.length) ∧
      (truthAlgebra : BoolAlgebra Id Bool).numSub v w =
        throw (.operandLengths v.length w.length)) ∧
    ((truthAlgebra : BoolAlgebra Id Bool).numNeg v).run.Represents v.length (-v.value) ∧
    ((truthAlgebra : BoolAlgebra Id Bool).numLift width value).run.Represents width value :=
  ⟨fun h => ⟨numAdd_represents h, numSub_represents h⟩,
    fun h => ⟨numAdd_of_ne h, numSub_of_ne h⟩, numNeg_represents v, numLift_represents width value⟩

/-- Three and six in three bits and in different representations, and the bits of minus five. -/
theorem arithmetic_modulo_eight :
    let v : Storage Bool := .ofList .packed [true, true, false]
    let w : Storage Bool := .ofList .dense [false, true, true]
    (∃ u, (truthAlgebra : BoolAlgebra Id Bool).numAdd v w = pure u ∧ u.Represents 3 9) ∧
    (∃ u, (truthAlgebra : BoolAlgebra Id Bool).numSub v w = pure u ∧ u.Represents 3 (-3)) ∧
    (truthAlgebra : BoolAlgebra Id Bool).numAdd v (.empty .packed) =
      throw (.operandLengths 3 0) ∧
    ((truthAlgebra : BoolAlgebra Id Bool).numNeg v).run.Represents 3 (-3) ∧
    ((truthAlgebra : BoolAlgebra Id Bool).numLift 3 (-5)).run.Represents 3 (-5) := by
  intro v w
  obtain ⟨hsame, -, hneg, hlift⟩ := arithmetic_modulo_two_pow v w 3 (-5)
  obtain ⟨hadd, hsub⟩ := hsame (by decide)
  have hne := (arithmetic_modulo_two_pow v (.empty .packed) 3 (-5)).2.1 (by decide)
  exact ⟨hadd, hsub, hne.1, hneg, hlift⟩

/-! ### Comparison -/

theorem returns_numCompare (comparison : Comparison) (h : v.length = w.length) :
    Reading.truth.Returns ()
      ((truthAlgebra : BoolAlgebra Id Bool).numCompare comparison v w) fun s u =>
        Reading.truth.Stores s u [comparison.eval v.value w.value] := by
  have hlength := Storage.length_truths_congr h
  have hv := Reading.truth_readsList v
  have hw := Reading.truth_readsList w
  have heq : (v.value == w.value) = decide (v.truths = w.truths) := by
    rw [beq_eq_decide, decide_eq_decide]
    exact littleEndian_inj hlength
  -- The majority starts with truth, so that equal numbers count as ordered.
  have hle {bits others : List Bool} (h : bits.length = others.length) :
      decide (littleEndian bits ≤ littleEndian others) = atMostBits (bits.zip others) true := by
    rw [atMostBits_eq h, decide_eq_decide, Bool.toNat_true, Nat.lt_succ_iff]
  cases comparison with
  | eq =>
    rw [Comparison.eval, heq]
    exact truths_realized.returns_numEq trivial hv hw hlength
  | ne =>
    rw [Comparison.eval, bne, heq]
    exact truths_realized.returns_numNe trivial hv hw hlength
  | le =>
    rw [Comparison.eval, Storage.value, Storage.value, hle hlength]
    exact truths_realized.returns_numLe trivial hv hw hlength
  | lt =>
    rw [Comparison.eval, ← decide_eq_decide.2 not_le, decide_not, Storage.value, Storage.value,
      hle hlength.symm]
    exact truths_realized.returns_numLt trivial hv hw hlength

theorem numCompare_of_ne (comparison : Comparison) (h : v.length ≠ w.length) :
    (truthAlgebra : BoolAlgebra Id Bool).numCompare comparison v w =
      throw (if comparison = .lt then .operandLengths w.length v.length
        else .operandLengths v.length w.length) := by
  cases comparison with
  | eq => exact numEq_of_ne h
  | ne => exact numNe_of_ne h
  | le => exact numLe_of_ne h
  | lt => exact numLt_of_ne h

/-- Comparison of bit vectors of any width gives one bit, what it tells of the unsigned values;
operands of different lengths are refused. -/
theorem numCompare_decides (comparison : Comparison) (v w : Storage Bool) :
    (v.length = w.length →
      ∃ u, (truthAlgebra : BoolAlgebra Id Bool).numCompare comparison v w = pure u ∧
        u.truths = [comparison.eval v.value w.value]) ∧
    (v.length ≠ w.length →
      (truthAlgebra : BoolAlgebra Id Bool).numCompare comparison v w =
        throw (if comparison = .lt then .operandLengths w.length v.length
          else .operandLengths v.length w.length)) :=
  ⟨fun h => Reading.exists_of_returns (returns_numCompare comparison h),
    numCompare_of_ne comparison⟩

/-- The higher bit decides over the lower one, and a vector without bits is as long as no other. -/
theorem numCompare_decides_two_one :
    let v : Storage Bool := .ofList .packed [false, true]
    let w : Storage Bool := .ofList .packed [true, false]
    (∃ u, (truthAlgebra : BoolAlgebra Id Bool).numCompare .lt w v = pure u ∧ u.truths = [true]) ∧
    (truthAlgebra : BoolAlgebra Id Bool).numCompare .lt v (.empty .packed) =
      throw (.operandLengths 0 2) := by
  intro v w
  exact ⟨(numCompare_decides .lt w v).1 (by decide),
    (numCompare_decides .lt v (.empty .packed)).2 (by decide)⟩

/-- Two vectors without bits are equal. -/
example : [.eq, .ne, .le, .lt].map (fun comparison : Comparison =>
    ((truthAlgebra : BoolAlgebra Id Bool).numCompare comparison (.empty .packed)
      (.empty .packed)).run.run.toOption.map Storage.truths) =
    [some [true], some [false], some [true], some [false]] := by
  decide

end BoolAlgebra

end BoolTensor
