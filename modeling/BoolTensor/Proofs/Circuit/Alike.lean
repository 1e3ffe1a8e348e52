import BoolTensor.Proofs.Algebra.Alike
import BoolTensor.Proofs.Circuit.Binary
import BoolTensor.Proofs.Circuit.Tensor

/-!
# Circuits on vectors and tensors that are read alike

Over two algebras whose gates are read as their values, a circuit on vectors or tensors that are
read alike gives vectors or tensors that are read alike. It is refused over one of them if and only
if it is over the other, for the same reason, and before any gate has been computed.

## Main definitions

* `Reading.TensorsAlike`: two tensors of one shape, whose cells are read alike
* `Reading.Coupled`: two algebras whose gates are read as their values, from states where they are
-/

namespace BoolTensor

namespace Reading

variable {m n : Type → Type} [Monad m] [Monad n] {σ τ α β : Type} [Runs m σ] [Runs n τ]
  [Element α] [Element β] {R : Reading σ α} {Q : Reading τ β} {s s' : σ} {t t' : τ}

/-! ### Vectors -/

section Vectors

variable {v v' : Storage α} {w w' : Storage β}

theorem Alike.of_stores {x : ExceptT Error m (Storage α)}
    {y : ExceptT Error n (Storage β)} {values : List Bool}
    (hx : R.Returns s x fun s v => R.Stores s v values)
    (hy : Q.Returns t y fun t w => Q.Stores t w values) :
    Alike R Q s t x y (StoresAlike R Q) := by
  obtain ⟨v, s', hx, hs, hv⟩ := hx
  obtain ⟨w, t', hy, ht, hw⟩ := hy
  exact .ok hx hy hs ht ⟨values, hv, hw⟩

/-- A circuit that refuses operands of different lengths, and nothing else. -/
theorem Alike.of_lengths {x : ExceptT Error m (Storage α)}
    {y : ExceptT Error n (Storage β)} (f : List Bool → List Bool → List Bool)
    (hv : StoresAlike R Q s t v w) (hv' : StoresAlike R Q s t v' w')
    (hx : ∀ values others, R.ReadsList s v.toList values → R.ReadsList s v'.toList others →
      values.length = others.length → R.Returns s x fun s u => R.Stores s u (f values others))
    (hy : ∀ values others, Q.ReadsList t w.toList values → Q.ReadsList t w'.toList others →
      values.length = others.length → Q.Returns t y fun t u => Q.Stores t u (f values others))
    (e : Nat → Nat → Error) (hx' : v.length ≠ v'.length → x = throw (e v.length v'.length))
    (hy' : w.length ≠ w'.length → y = throw (e w.length w'.length)) :
    Alike R Q s t x y (StoresAlike R Q) := by
  by_cases hlength : v.length = v'.length
  · obtain ⟨values, hvalues, hvalues'⟩ := hv
    obtain ⟨others, hothers, hothers'⟩ := hv'
    rw [hvalues.length_eq, hothers.length_eq] at hlength
    exact .of_stores (hx values others hvalues.reads hothers.reads hlength)
      (hy values others hvalues'.reads hothers'.reads hlength)
  · have hlength' : w.length ≠ w'.length := by rwa [← hv.length_eq, ← hv'.length_eq]
    refine .of_throw (hx' hlength) ?_
    rw [hy' hlength', hv.length_eq, hv'.length_eq]

end Vectors

/-! ### Tensors -/

/-- Both tensors have the shape, and their cells are read as the values of one function. -/
def TensorsAlike (R : Reading σ α) (Q : Reading τ β) (shape : Shape) (s : σ) (t : τ) (u : Tensor α)
    (w : Tensor β) : Prop :=
  ∃ f, R.StoresTensor s u shape f ∧ Q.StoresTensor t w shape f

theorem Alike.of_storesTensor {x : ExceptT Error m (Tensor α)}
    {y : ExceptT Error n (Tensor β)} {shape : Shape} {f : List Nat → Bool}
    (hx : R.Returns s x fun s u => R.StoresTensor s u shape f)
    (hy : Q.Returns t y fun t w => Q.StoresTensor t w shape f) :
    Alike R Q s t x y (TensorsAlike R Q shape) := by
  obtain ⟨u, s', hx, hs, hu⟩ := hx
  obtain ⟨w, t', hy, ht, hw⟩ := hy
  exact .ok hx hy hs ht ⟨f, hu, hw⟩

namespace TensorsAlike

variable {u : Tensor α} {w : Tensor β} {shape : Shape}

/-- Vectors that are read alike are the cells of tensors. -/
theorem of_stores (h : StoresAlike R Q s t u.elems w.elems) (hu : u.shape = shape)
    (hw : w.shape = shape) (hlength : u.elems.length = shape.size) :
    TensorsAlike R Q shape s t u w := by
  obtain ⟨values, hu', hw'⟩ := h
  rw [hu'.length_eq] at hlength
  have hvalues : shape.cells (fun coords => values.getD (shape.offset coords) false) = values :=
    Shape.cells_getD hlength false
  exact ⟨_, ⟨hu, hvalues.symm ▸ hu'⟩, hw, hvalues.symm ▸ hw'⟩

theorem stores (h : TensorsAlike R Q shape s t u w) : StoresAlike R Q s t u.elems w.elems := by
  obtain ⟨f, hu, hw⟩ := h
  exact ⟨_, hu.stores, hw.stores⟩

theorem shape_eq (h : TensorsAlike R Q shape s t u w) : u.shape = shape ∧ w.shape = shape := by
  obtain ⟨f, hu, hw⟩ := h
  exact ⟨hu.shape_eq, hw.shape_eq⟩

theorem length_eq (h : TensorsAlike R Q shape s t u w) : u.elems.length = shape.size := by
  obtain ⟨f, hu, -⟩ := h
  exact hu.length_eq

/-- A tensor is reindexed, or the mapping misfits the shapes. -/
theorem polymer (h : TensorsAlike R Q shape s t u w) (target : Shape) (mapping : List Int) :
    Alike R Q s t (liftM (u.polymer target mapping) : ExceptT Error m (Tensor α))
      (liftM (w.polymer target mapping) : ExceptT Error n (Tensor β))
      (TensorsAlike R Q target) := by
  obtain ⟨f, hu, hw⟩ := h
  by_cases hmisfits : Tensor.Misfits shape target mapping
  · have hu' := Tensor.polymer_of_misfits (hu.shape_eq ▸ hmisfits)
    have hw' := Tensor.polymer_of_misfits (hw.shape_eq ▸ hmisfits)
    rw [hu.shape_eq] at hu'
    rw [hw.shape_eq] at hw'
    rw [hu', hw']
    exact .of_throw rfl rfl
  · obtain ⟨hmapping, hfits⟩ := Tensor.fits_of_not_misfits hmisfits
    have hu' := hu.returns_polymer (m := m) _ hfits
    have hw' := hw.returns_polymer (m := n) _ hfits
    rw [hmapping] at hu' hw'
    exact .of_storesTensor hu' hw'

/-- The first dimensions are joined, or there are not so many of them. -/
theorem join (h : TensorsAlike R Q shape s t u w) (count : Int) :
    Agree (fun u w => ∃ joined, TensorsAlike R Q joined s t u w) (u.copy.join count)
      (w.copy.join count) := by
  obtain ⟨hu, hw⟩ := h.shape_eq
  obtain ⟨values, hvalues, hvalues'⟩ := h.stores
  have hcopies : StoresAlike R Q s t u.elems.copy w.elems.copy :=
    ⟨values, hvalues.copy, hvalues'.copy⟩
  rw [Tensor.join, Tensor.join, Tensor.copy, Tensor.copy, hu, hw, Shape.join]
  split_ifs
  · refine .ok ⟨_, of_stores hcopies rfl rfl ?_⟩
    rw [Shape.size_joined, hvalues.copy.length_eq, ← hvalues.length_eq, h.length_eq]
  · exact .error _

/-- A cell is read, or there are no such coordinates. -/
theorem get (h : TensorsAlike R Q shape s t u w) (coords : List Int) :
    Agree (ReadsAlike R Q s t) (u.get coords) (w.get coords) := by
  rw [Tensor.get, Tensor.get, h.shape_eq.1, h.shape_eq.2]
  cases hindex : shape.index coords with
  | error e => exact .error e
  | ok n =>
    obtain ⟨values, hu, hw⟩ := h.stores
    have hn : n < u.elems.length := h.length_eq ▸ Shape.lt_of_index hindex
    have hn' : n < w.elems.length := h.stores.length_eq ▸ hn
    change Agree _ (u.elems.get n) (w.elems.get n)
    rw [Storage.get_of_lt hn, Storage.get_of_lt hn']
    rw [hu.length_eq] at hn
    exact .ok ⟨_, hu.reads.getD hn _, hw.reads.getD hn _⟩

/-- A cell is replaced, or there are no such coordinates. -/
theorem set {alg : BoolAlgebra m α} {alg' : BoolAlgebra n β} (hR : R.Realizes alg)
    (hQ : Q.Realizes alg') (h : TensorsAlike R Q shape s t u w) (coords : List Int) {a : α} {b : β}
    (hab : ReadsAlike R Q s t a b) :
    Agree (TensorsAlike R Q shape s t) (u.set coords a) (w.set coords b) := by
  obtain ⟨hu, hw⟩ := h.shape_eq
  rw [Tensor.set, Tensor.set, hu, hw]
  cases hindex : shape.index coords with
  | error e => exact .error e
  | ok n =>
    obtain ⟨values, hvalues, hvalues'⟩ := h.stores
    obtain ⟨value, ha, hb⟩ := hab
    have hn : n < u.elems.length := h.length_eq ▸ Shape.lt_of_index hindex
    have hn' : n < w.elems.length := h.stores.length_eq ▸ hn
    change Agree _ (u.elems.set n a >>= _) (w.elems.set n b >>= _)
    rw [Storage.set_of_lt hn, Storage.set_of_lt hn']
    have hwritten := hR.stores_write hvalues ha hn
    refine .ok (of_stores ⟨_, hwritten, hQ.stores_write hvalues' hb hn'⟩ rfl rfl ?_)
    rw [hwritten.length_eq, List.length_set, ← hvalues.length_eq, h.length_eq]

end TensorsAlike

/-! ### Gates -/

/-- The gates of both algebras give what is read as their values, and do so from these states. -/
structure Coupled (R : Reading σ α) (Q : Reading τ β) (alg : BoolAlgebra m α)
    (alg' : BoolAlgebra n β) (s : σ) (t : τ) : Prop where
  left : R.Realizes alg
  right : Q.Realizes alg'
  valid_left : R.valid s
  valid_right : Q.valid t

namespace Coupled

variable {alg : BoolAlgebra m α} {alg' : BoolAlgebra n β} {v v' : Storage α}
  {w w' : Storage β} {u u' : Tensor α} {y y' : Tensor β} {shape shape' : Shape}

theorem grows (h : Coupled R Q alg alg' s t) (hs : R.grows s s') (ht : Q.grows t t') :
    Coupled R Q alg alg' s' t' :=
  ⟨h.left, h.right, R.valid_of_grows hs h.valid_left, Q.valid_of_grows ht h.valid_right⟩

theorem bitGate (h : Coupled R Q alg alg' s t) (gate : Gate) (hv : StoresAlike R Q s t v w)
    (hv' : StoresAlike R Q s t v' w') :
    Alike R Q s t (alg.bitGate gate v v') (alg'.bitGate gate w w') (StoresAlike R Q) :=
  .of_lengths (List.zipWith gate.eval) hv hv'
    (fun _ _ => h.left.returns_bitGate h.valid_left gate)
    (fun _ _ => h.right.returns_bitGate h.valid_right gate)
    .operandLengths (BoolAlgebra.bitGate_of_ne gate) (BoolAlgebra.bitGate_of_ne gate)

theorem numAdd (h : Coupled R Q alg alg' s t) (hv : StoresAlike R Q s t v w)
    (hv' : StoresAlike R Q s t v' w') :
    Alike R Q s t (alg.numAdd v v') (alg'.numAdd w w') (StoresAlike R Q) :=
  .of_lengths (fun values others => sumBits (values.zip others) false) hv hv'
    (fun _ _ => h.left.returns_numAdd h.valid_left)
    (fun _ _ => h.right.returns_numAdd h.valid_right)
    .operandLengths BoolAlgebra.numAdd_of_ne BoolAlgebra.numAdd_of_ne

theorem numSub (h : Coupled R Q alg alg' s t) (hv : StoresAlike R Q s t v w)
    (hv' : StoresAlike R Q s t v' w') :
    Alike R Q s t (alg.numSub v v') (alg'.numSub w w') (StoresAlike R Q) :=
  .of_lengths (fun values others => sumBits (values.zip (others.map (!·))) true) hv hv'
    (fun _ _ => h.left.returns_numSub h.valid_left)
    (fun _ _ => h.right.returns_numSub h.valid_right)
    .operandLengths BoolAlgebra.numSub_of_ne BoolAlgebra.numSub_of_ne

theorem numEq (h : Coupled R Q alg alg' s t) (hv : StoresAlike R Q s t v w)
    (hv' : StoresAlike R Q s t v' w') :
    Alike R Q s t (alg.numEq v v') (alg'.numEq w w') (StoresAlike R Q) :=
  .of_lengths (fun values others => [decide (values = others)]) hv hv'
    (fun _ _ => h.left.returns_numEq h.valid_left)
    (fun _ _ => h.right.returns_numEq h.valid_right)
    .operandLengths BoolAlgebra.numEq_of_ne BoolAlgebra.numEq_of_ne

theorem numNe (h : Coupled R Q alg alg' s t) (hv : StoresAlike R Q s t v w)
    (hv' : StoresAlike R Q s t v' w') :
    Alike R Q s t (alg.numNe v v') (alg'.numNe w w') (StoresAlike R Q) :=
  .of_lengths (fun values others => [!decide (values = others)]) hv hv'
    (fun _ _ => h.left.returns_numNe h.valid_left)
    (fun _ _ => h.right.returns_numNe h.valid_right)
    .operandLengths BoolAlgebra.numNe_of_ne BoolAlgebra.numNe_of_ne

theorem numLe (h : Coupled R Q alg alg' s t) (hv : StoresAlike R Q s t v w)
    (hv' : StoresAlike R Q s t v' w') :
    Alike R Q s t (alg.numLe v v') (alg'.numLe w w') (StoresAlike R Q) :=
  .of_lengths (fun values others => [atMostBits (values.zip others) true]) hv hv'
    (fun _ _ => h.left.returns_numLe h.valid_left)
    (fun _ _ => h.right.returns_numLe h.valid_right)
    .operandLengths BoolAlgebra.numLe_of_ne BoolAlgebra.numLe_of_ne

theorem numLt (h : Coupled R Q alg alg' s t) (hv : StoresAlike R Q s t v w)
    (hv' : StoresAlike R Q s t v' w') :
    Alike R Q s t (alg.numLt v v') (alg'.numLt w w') (StoresAlike R Q) :=
  .of_lengths (fun values others => [!atMostBits (others.zip values) true]) hv hv'
    (fun _ _ => h.left.returns_numLt h.valid_left)
    (fun _ _ => h.right.returns_numLt h.valid_right)
    (fun length length' => .operandLengths length' length) BoolAlgebra.numLt_of_ne
    BoolAlgebra.numLt_of_ne

theorem tensorOf (h : Coupled R Q alg alg' s t) (shape : Shape) {elems : List α} {elems' : List β}
    {values : List Bool} (helems : R.ReadsList s elems values)
    (helems' : Q.ReadsList t elems' values) :
    Alike R Q s t (alg.tensorOf shape elems) (alg'.tensorOf shape elems')
      (TensorsAlike R Q shape) := by
  have hv := h.left.stores_vector helems
  have hw := h.right.stores_vector helems'
  by_cases hlength : values.length = shape.size
  · rw [← Shape.cells_getD hlength false] at helems helems'
    exact .of_storesTensor (h.left.returns_tensorOf helems) (h.right.returns_tensorOf helems')
  · refine .of_throw (e := .elementCount shape.dims shape.size values.length) ?_ ?_
    · rw [BoolAlgebra.tensorOf, Tensor.ofStorage, hv.length_eq, if_neg (Ne.symm hlength)]
      rfl
    · rw [BoolAlgebra.tensorOf, Tensor.ofStorage, hw.length_eq, if_neg (Ne.symm hlength)]
      rfl

theorem constant (h : Coupled R Q alg alg' s t) (value : Bool)
    (hcount : shape.size ≤ indexLimit) :
    Alike R Q s t (alg.constant shape value) (alg'.constant shape value)
      (TensorsAlike R Q shape) :=
  .of_storesTensor (h.left.returns_constant h.valid_left shape value hcount)
    (h.right.returns_constant h.valid_right shape value hcount)

theorem diagonal (h : Coupled R Q alg alg' s t) (dim : Int)
    (hcount : dim.toNat * dim.toNat ≤ indexLimit) :
    Alike R Q s t (alg.diagonal dim) (alg'.diagonal dim)
      (TensorsAlike R Q ⟨[dim.toNat, dim.toNat]⟩) := by
  rcases Int.lt_or_le dim 0 with hdim | hdim
  · have hshape : Shape.ofInts [dim, dim] = .error (.negativeDimension [dim, dim]) :=
      Shape.ofInts_of_neg ⟨dim, by simp, hdim⟩
    refine .of_throw (e := .negativeDimension [dim, dim]) ?_ ?_
    · rw [BoolAlgebra.diagonal, hshape]
      exact throw_bind _ _
    · rw [BoolAlgebra.diagonal, hshape]
      exact throw_bind _ _
  · lift dim to Nat using hdim
    exact .of_storesTensor (h.left.returns_diagonal h.valid_left dim hcount)
      (h.right.returns_diagonal h.valid_right dim hcount)

theorem tensorNot (h : Coupled R Q alg alg' s t) (hu : TensorsAlike R Q shape s t u y) :
    Alike R Q s t (alg.tensorNot u) (alg'.tensorNot y) (TensorsAlike R Q shape) := by
  obtain ⟨f, hu, hy⟩ := hu
  exact .of_storesTensor (h.left.returns_tensorNot h.valid_left hu)
    (h.right.returns_tensorNot h.valid_right hy)

theorem tensorGate (h : Coupled R Q alg alg' s t) (gate : Gate)
    (hu : TensorsAlike R Q shape s t u y) (hu' : TensorsAlike R Q shape' s t u' y') :
    Alike R Q s t (alg.tensorGate gate u u') (alg'.tensorGate gate y y')
      (TensorsAlike R Q shape) := by
  obtain ⟨f, hu, hy⟩ := hu
  obtain ⟨g, hu', hy'⟩ := hu'
  by_cases hshape : shape = shape'
  · subst hshape
    exact .of_storesTensor (h.left.returns_tensorGate h.valid_left gate hu hu')
      (h.right.returns_tensorGate h.valid_right gate hy hy')
  · refine .of_throw (e := .shapeMismatch shape.dims shape'.dims) ?_ ?_
    · rw [BoolAlgebra.tensorGate, BoolAlgebra.checkShapes, hu.shape_eq, hu'.shape_eq, if_neg hshape]
      exact throw_bind _ _
    · rw [BoolAlgebra.tensorGate, BoolAlgebra.checkShapes, hy.shape_eq, hy'.shape_eq, if_neg hshape]
      exact throw_bind _ _

theorem tensorReduce (h : Coupled R Q alg alg' s t) (reduction : Reduction)
    (hu : TensorsAlike R Q shape s t u y) :
    Alike R Q s t (alg.tensorReduce reduction u) (alg'.tensorReduce reduction y) fun s t u y =>
      ∃ shape, TensorsAlike R Q shape s t u y := by
  obtain ⟨f, hu, hy⟩ := hu
  obtain ⟨dims⟩ := shape
  cases dims with
  | nil =>
    refine .of_throw (e := .noFirstDimension) ?_ ?_
    · rw [BoolAlgebra.tensorReduce, hu.shape_eq]
      exact throw_bind _ _
    · rw [BoolAlgebra.tensorReduce, hy.shape_eq]
      exact throw_bind _ _
  | cons head rest =>
    exact (Alike.of_storesTensor (h.left.returns_tensorReduce h.valid_left reduction hu)
      (h.right.returns_tensorReduce h.valid_right reduction hy)).imp fun _ _ _ _ hw => ⟨_, hw⟩

end Coupled

end Reading

end BoolTensor
