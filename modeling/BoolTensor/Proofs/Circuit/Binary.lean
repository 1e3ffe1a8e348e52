import BoolTensor.Proofs.Algebra.Reading
import BoolTensor.Proofs.Circuit.Numeral

/-!
# Circuits on binary numbers, read as truth values

Over every algebra whose gates are read as their values, the circuits on bit vectors give what the
same gates compute on the bits, and addition and comparison give what their carries compute.
-/

namespace BoolTensor

/-- Bits are equal where all places agree. -/
theorem eval_all_zipWith_equ {values others : List Bool} (hlength : values.length = others.length) :
    Reduction.all.eval (List.zipWith Gate.equ.eval values others) = decide (values = others) := by
  induction values generalizing others with
  | nil =>
    obtain rfl := List.length_eq_zero_iff.1 hlength.symm
    rfl
  | cons value values ih =>
    cases others with
    | nil => simp at hlength
    | cons other others =>
      have htail := ih (Nat.succ_inj.1 hlength)
      rw [Reduction.eval] at htail ⊢
      rw [List.zipWith_cons_cons, List.all_cons, htail]
      cases value <;> cases other <;> simp [Gate.eval]

/-! ### Operands of different lengths -/

namespace BoolAlgebra

variable {m : Type → Type} [Monad m] [LawfulMonad m] {α : Type} [Element α] {alg : BoolAlgebra m α}
  {v w : Storage α}

theorem checkLengths_bind_of_ne {β : Type} (h : v.length ≠ w.length)
    (f : Unit → ExceptT Error m β) :
    (checkLengths v w >>= f) = throw (.operandLengths v.length w.length) := by
  rw [checkLengths, if_neg h, throw_bind]

theorem bitGate_of_ne (gate : Gate) (h : v.length ≠ w.length) :
    alg.bitGate gate v w = throw (.operandLengths v.length w.length) :=
  checkLengths_bind_of_ne h _

theorem numAdd_of_ne (h : v.length ≠ w.length) :
    alg.numAdd v w = throw (.operandLengths v.length w.length) :=
  checkLengths_bind_of_ne h _

theorem numSub_of_ne (h : v.length ≠ w.length) :
    alg.numSub v w = throw (.operandLengths v.length w.length) :=
  checkLengths_bind_of_ne h _

theorem numEq_of_ne (h : v.length ≠ w.length) :
    alg.numEq v w = throw (.operandLengths v.length w.length) := by
  rw [numEq, bitGate_of_ne .equ h, throw_bind]

theorem numNe_of_ne (h : v.length ≠ w.length) :
    alg.numNe v w = throw (.operandLengths v.length w.length) := by
  rw [numNe, numEq_of_ne h, throw_bind]

theorem numLe_of_ne (h : v.length ≠ w.length) :
    alg.numLe v w = throw (.operandLengths v.length w.length) :=
  checkLengths_bind_of_ne h _

theorem numLt_of_ne (h : v.length ≠ w.length) :
    alg.numLt v w = throw (.operandLengths w.length v.length) := by
  rw [numLt, numLe_of_ne h.symm, throw_bind]

end BoolAlgebra

namespace Reading.Realizes

variable {m : Type → Type} [Monad m] {σ α : Type} [Runs m σ] [Element α] {R : Reading σ α}
  {alg : BoolAlgebra m α} {s : σ} {v w : Storage α} {values others : List Bool}

/-! ### Bit vectors -/

theorem gives_bitLift (h : R.Realizes alg) (hs : R.valid s) (values : List Bool) :
    R.Gives s (alg.bitLift values) fun t v => R.Stores t v values := by
  have hlift : R.Gives s (values.mapM alg.lift) fun t elems => R.ReadsList t elems values := by
    refine .mapM (List.forall₂_same.2 fun value _ t ht => ?_)
    exact h.lift t value (R.valid_of_grows ht hs)
  exact hlift.bind fun t elems _ helems => .pure (h.stores_vector helems)

theorem gives_bitNot (h : R.Realizes alg) (hs : R.valid s) (hv : R.ReadsList s v.toList values) :
    R.Gives s (alg.bitNot v) fun t w => R.Stores t w (values.map (!·)) :=
  (h.gives_neg_list hs hv).bind fun _ _ _ helems => .pure (h.stores_vector helems)

omit [Runs m σ] in
theorem checkLengths_of_reads (hv : R.ReadsList s v.toList values)
    (hw : R.ReadsList s w.toList others) (hlength : values.length = others.length) :
    (BoolAlgebra.checkLengths v w : ExceptT Error m Unit) = pure () := by
  have heq : v.length = w.length := by
    rw [← Storage.length_toList v, ← Storage.length_toList w, hv.length_eq, hw.length_eq, hlength]
  exact if_pos heq

theorem returns_bitGate (h : R.Realizes alg) (hs : R.valid s) (gate : Gate)
    (hv : R.ReadsList s v.toList values) (hw : R.ReadsList s w.toList others)
    (hlength : values.length = others.length) :
    R.Returns s (alg.bitGate gate v w) fun t u =>
      R.Stores t u (List.zipWith gate.eval values others) := by
  rw [BoolAlgebra.bitGate, checkLengths_of_reads hv hw hlength,
    pure_bind]
  exact (h.gives_gate_list hs gate hv hw).lift.bind fun _ _ _ helems =>
    .pure (h.stores_vector helems)

theorem stores_fromElem (h : R.Realizes alg) {a : α} {value : Bool} (ha : R.reads s a value) :
    R.Stores s (.fromElem alg.kind a) [value] := by
  refine ⟨(Storage.kind_fromElem _ _).trans h.kind_eq, Storage.wellFormed_fromElem _ _, ?_⟩
  rw [Storage.toList_fromElem]
  exact .cons (h.keeps s a value ha) .nil

theorem gives_bitReduce (h : R.Realizes alg) (hs : R.valid s) (reduction : Reduction)
    (hv : R.ReadsList s v.toList values) :
    R.Gives s (alg.bitReduce reduction v) fun t w => R.Stores t w [reduction.eval values] :=
  (h.reduce s reduction (Thunk.mk fun _ => v.toList) values hs hv).bind fun _ _ _ ha =>
    .pure (h.stores_fromElem ha)

/-! ### Binary numbers -/

theorem gives_numLift (h : R.Realizes alg) (hs : R.valid s) (length value : Int) :
    R.Gives s (alg.numLift length value) fun t v =>
      R.Stores t v ((List.range length.toNat).map (numberBit value)) :=
  h.gives_bitLift hs _

theorem stores_push (h : R.Realizes alg) {a : α} {value : Bool} (hv : R.Stores s v values)
    (ha : R.reads s a value) : R.Stores s (v.push a) (values ++ [value]) := by
  refine ⟨(Storage.kind_push v a).trans hv.kind_eq, hv.wellFormed.push a, ?_⟩
  rw [Storage.toList_push hv.wellFormed, hv.kind_eq, ← h.kind_eq]
  exact hv.reads.append (.cons (h.keeps s a value ha) .nil)

theorem stores_withCapacity (h : R.Realizes alg) (room : Int) :
    R.Stores s (.withCapacity alg.kind room) [] := by
  refine ⟨(Storage.kind_withCapacity _ _).trans h.kind_eq, Storage.wellFormed_withCapacity _ _, ?_⟩
  rw [Storage.toList_withCapacity]
  exact ReadsList.nil

theorem gives_ripple (h : R.Realizes alg) {pairs : List (α × α)} {bits : List (Bool × Bool)}
    {carry : α} {below : Bool} (hs : R.valid s)
    (hpairs : R.ReadsPairs s pairs bits)
    (hcarry : R.reads s carry below) (hv : R.Stores s v values) :
    R.Gives s (alg.ripple pairs carry v) fun t w =>
      R.Stores t w (values ++ sumBits bits below) := by
  -- Each place reads its carry from the place below, in a state that has grown since.
  induction pairs generalizing s bits carry below v values with
  | nil =>
    cases hpairs
    refine .pure ?_
    rwa [sumBits, List.append_nil]
  | cons pair pairs ih =>
    cases hpairs with
    | @cons _ bit _ bits hpair hpairs =>
      obtain ⟨ha, hb⟩ := hpair
      rw [BoolAlgebra.ripple]
      refine (h.sum3 s pair.1 pair.2 carry _ _ _ hs ha hb hcarry).bind fun t c ht hc => ?_
      refine (h.maj t pair.1 pair.2 carry _ _ _ (R.valid_of_grows ht hs) (R.reads_of_grows ht ha)
        (R.reads_of_grows ht hb) (R.reads_of_grows ht hcarry)).bind fun u d hu hd => ?_
      have hlater := R.grows_trans ht hu
      have hpairs' := ReadsPairs.grows hpairs hlater
      have hpush := h.stores_push (hv.grows hlater) (R.reads_of_grows hu hc)
      have htail := ih (R.valid_of_grows hlater hs) hpairs' hd hpush
      refine htail.imp fun w result _ hresult => ?_
      rwa [sumBits, List.append_cons]

theorem gives_addWithCarry (h : R.Realizes alg) {carry : α} {below : Bool} (hs : R.valid s)
    (hv : R.ReadsList s v.toList values) (hw : R.ReadsList s w.toList others)
    (hcarry : R.reads s carry below) :
    R.Gives s (alg.addWithCarry v w carry) fun t u =>
      R.Stores t u (sumBits (values.zip others) below) :=
  h.gives_ripple hs (hv.zip hw) hcarry (h.stores_withCapacity _)

theorem returns_numAdd (h : R.Realizes alg) (hs : R.valid s) (hv : R.ReadsList s v.toList values)
    (hw : R.ReadsList s w.toList others) (hlength : values.length = others.length) :
    R.Returns s (alg.numAdd v w) fun t u => R.Stores t u (sumBits (values.zip others) false) := by
  rw [BoolAlgebra.numAdd, checkLengths_of_reads hv hw hlength,
    pure_bind]
  refine (h.lift s false hs).lift.bind fun t carry ht hcarry => ?_
  exact (h.gives_addWithCarry (R.valid_of_grows ht hs) (hv.grows ht) (hw.grows ht) hcarry).lift

/-- Negation flips each bit and adds one, as the sum with zeros and a carry from below does. -/
theorem gives_negateBits (h : R.Realizes alg) {elems : List α} {bits : List Bool} {carry : α}
    {below : Bool} (hs : R.valid s) (helems : R.ReadsList s elems bits)
    (hcarry : R.reads s carry below) (hv : R.Stores s v values) :
    R.Gives s (alg.negateBits elems carry v) fun t w =>
      R.Stores t w (values ++ sumBits (bits.map fun bit => (!bit, false)) below) := by
  induction elems generalizing s bits carry below v values with
  | nil =>
    cases helems
    refine .pure ?_
    rwa [List.map_nil, sumBits, List.append_nil]
  | cons a elems ih =>
    cases helems with
    | @cons _ bit _ bits ha helems =>
      rw [BoolAlgebra.negateBits]
      refine (h.neg s a _ hs ha).bind fun t b ht hb => ?_
      have hcarry' := R.reads_of_grows ht hcarry
      have ht' := R.valid_of_grows ht hs
      refine (h.gate t .xor b carry _ _ ht' hb hcarry').bind fun u c hu hc => ?_
      refine (h.gate u .and b carry _ _ (R.valid_of_grows hu ht') (R.reads_of_grows hu hb)
        (R.reads_of_grows hu hcarry')).bind fun w d hw hd => ?_
      have hlater := R.grows_trans ht (R.grows_trans hu hw)
      have hpush := h.stores_push (hv.grows hlater) (R.reads_of_grows hw hc)
      refine (ih (R.valid_of_grows hlater hs) (ReadsList.grows helems hlater) hd hpush).imp
        fun _ result _ hresult => ?_
      -- Two gates stand for those of a full adder whose second operand is zero.
      have hsum : ((!bit) != below) = (((!bit) != false) != below) := by
        cases bit <;> cases below <;> rfl
      have hcarries : ((!bit) && below) = Bool.atLeastTwo (!bit) false below := by
        cases bit <;> cases below <;> rfl
      rw [Gate.eval, Gate.eval, hsum, hcarries, List.append_assoc] at hresult
      exact hresult

theorem gives_numNeg (h : R.Realizes alg) (hs : R.valid s)
    (hv : R.ReadsList s v.toList values) :
    R.Gives s (alg.numNeg v) fun t w =>
      R.Stores t w (sumBits (values.map fun value => (!value, false)) true) :=
  (h.lift s true hs).bind fun _ _ ht hunit =>
    h.gives_negateBits (R.valid_of_grows ht hs) (hv.grows ht) hunit (h.stores_withCapacity _)

theorem returns_numSub (h : R.Realizes alg) (hs : R.valid s) (hv : R.ReadsList s v.toList values)
    (hw : R.ReadsList s w.toList others) (hlength : values.length = others.length) :
    R.Returns s (alg.numSub v w) fun t u =>
      R.Stores t u (sumBits (values.zip (others.map (!·))) true) := by
  rw [BoolAlgebra.numSub, checkLengths_of_reads hv hw hlength,
    pure_bind]
  refine (h.gives_bitNot hs hw).lift.bind fun t flipped ht hflipped => ?_
  have ht' := R.valid_of_grows ht hs
  refine (h.lift t true ht').lift.bind fun u unit hu hunit => ?_
  exact (h.gives_addWithCarry (R.valid_of_grows hu ht') ((hv.grows ht).grows hu)
    (hflipped.grows hu).reads hunit).lift

theorem returns_numEq (h : R.Realizes alg) (hs : R.valid s) (hv : R.ReadsList s v.toList values)
    (hw : R.ReadsList s w.toList others) (hlength : values.length = others.length) :
    R.Returns s (alg.numEq v w) fun t u => R.Stores t u [decide (values = others)] := by
  refine (h.returns_bitGate hs .equ hv hw hlength).bind fun t u ht hu => ?_
  rw [← eval_all_zipWith_equ hlength]
  exact (h.gives_bitReduce (R.valid_of_grows ht hs) .all hu.reads).lift

theorem gives_atMost (h : R.Realizes alg) {pairs : List (α × α)} {bits : List (Bool × Bool)}
    {below : α} {value : Bool} (hs : R.valid s)
    (hpairs : R.ReadsPairs s pairs bits)
    (hbelow : R.reads s below value) :
    R.Gives s (alg.atMost pairs below) fun t a => R.reads t a (atMostBits bits value) := by
  induction pairs generalizing s bits below value with
  | nil =>
    cases hpairs
    exact .pure hbelow
  | cons pair pairs ih =>
    cases hpairs with
    | @cons _ bit _ bits hpair hpairs =>
      obtain ⟨ha, hb⟩ := hpair
      have hcons : alg.atMost (pair :: pairs) below = alg.neg pair.1 >>= fun c =>
          alg.maj c pair.2 below >>= fun d => alg.atMost pairs d := by
        rw [BoolAlgebra.atMost, List.foldlM_cons, bind_assoc]
        rfl
      rw [hcons]
      refine (h.neg s pair.1 _ hs ha).bind fun t c ht hc => ?_
      refine (h.maj t c pair.2 below _ _ _ (R.valid_of_grows ht hs) hc (R.reads_of_grows ht hb)
        (R.reads_of_grows ht hbelow)).bind fun u d hu hd => ?_
      have hlater := R.grows_trans ht hu
      have htail := ih (R.valid_of_grows hlater hs) (ReadsPairs.grows hpairs hlater) hd
      exact htail

theorem returns_numLe (h : R.Realizes alg) (hs : R.valid s) (hv : R.ReadsList s v.toList values)
    (hw : R.ReadsList s w.toList others) (hlength : values.length = others.length) :
    R.Returns s (alg.numLe v w) fun t u => R.Stores t u [atMostBits (values.zip others) true] := by
  rw [BoolAlgebra.numLe, checkLengths_of_reads hv hw hlength,
    pure_bind]
  refine (h.lift s true hs).lift.bind fun t unit ht hunit => ?_
  have hpairs := (hv.grows ht).zip (hw.grows ht)
  refine (h.gives_atMost (R.valid_of_grows ht hs) hpairs hunit).lift.bind fun u a _ ha => ?_
  exact .pure (h.stores_fromElem ha)

theorem returns_numLt (h : R.Realizes alg) (hs : R.valid s) (hv : R.ReadsList s v.toList values)
    (hw : R.ReadsList s w.toList others) (hlength : values.length = others.length) :
    R.Returns s (alg.numLt v w) fun t u => R.Stores t u [!atMostBits (others.zip values) true] := by
  refine (h.returns_numLe hs hw hv hlength.symm).bind fun t u ht hu => ?_
  exact (h.gives_bitNot (R.valid_of_grows ht hs) hu.reads).lift

theorem returns_numNe (h : R.Realizes alg) (hs : R.valid s) (hv : R.ReadsList s v.toList values)
    (hw : R.ReadsList s w.toList others) (hlength : values.length = others.length) :
    R.Returns s (alg.numNe v w) fun t u => R.Stores t u [!decide (values = others)] := by
  refine (h.returns_numEq hs hv hw hlength).bind fun t u ht hu => ?_
  exact (h.gives_bitNot (R.valid_of_grows ht hs) hu.reads).lift

end Reading.Realizes

end BoolTensor
