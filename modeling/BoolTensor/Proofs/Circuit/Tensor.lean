import BoolTensor.Proofs.Algebra.Reading
import BoolTensor.Proofs.Circuit.Diagonal

/-!
# Circuits on tensors, read as truth values

A tensor is read as a function on the coordinates of its shape. Over every algebra whose gates are
read as their values the circuits on tensors give what the same gates compute at each coordinate.

## Main definitions

* `Reading.StoresTensor`: the cells of a tensor are read as the values of a function
-/

namespace BoolTensor

/-- The cells along the first dimension lie together. -/
theorem exists_firstAxisBlock {α : Type} [Element α] {t : Tensor α} {head i : Nat} {rest : List Nat}
    (ht : t.elems.length = Shape.size ⟨head :: rest⟩) (hi : i < Shape.size ⟨rest⟩) :
    ∃ block, BoolAlgebra.firstAxisBlock t head i = .ok block ∧
      block.get = (t.elems.toList.take (i * head + head)).drop (i * head) := by
  have hend : i * head + head ≤ t.elems.length := ht ▸ Shape.block_le_size head hi
  exact Storage.range_of_le (Nat.le_add_right (i * head) head) hend

namespace Reading

variable {m : Type → Type} [Monad m] {σ α β : Type} [Runs m σ] {R : Reading σ α} {s t : σ}

/-! ### Lists -/

namespace ReadsList

variable {elems : List α} {values : List Bool}

theorem getD (h : R.ReadsList s elems values) {p : Nat} (hp : p < values.length) (a : α) :
    R.reads s (elems.getD p a) (values.getD p false) := by
  have hp' : p < elems.length := h.length_eq.symm ▸ hp
  rw [List.getD_eq_getElem _ _ hp', List.getD_eq_getElem _ _ hp]
  exact List.Forall₂.get h hp' hp

theorem set (h : R.ReadsList s elems values) (p : Nat) {a : α} {value : Bool}
    (ha : R.reads s a value) : R.ReadsList s (elems.set p a) (values.set p value) := by
  induction h generalizing p with
  | nil => exact .nil
  | cons hb helems ih =>
    cases p with
    | zero => exact .cons ha helems
    | succ p => exact .cons hb (ih p)

theorem block (h : R.ReadsList s elems values) (start stop : Nat) :
    R.ReadsList s ((elems.take stop).drop start) ((values.take stop).drop start) :=
  List.forall₂_drop _ (List.forall₂_take _ h)

end ReadsList

theorem Returns.mapM {f : β → ExceptT Error m α} {items : List β} {values : List Bool}
    (h : List.Forall₂ (fun item value => ∀ t, R.grows s t →
      R.Returns t (f item) fun u a => R.reads u a value) items values) :
    R.Returns s (items.mapM f) fun t elems => R.ReadsList t elems values := by
  have hfrom : ∀ t, R.grows s t →
      R.Returns t (items.mapM f) fun u elems => R.ReadsList u elems values := by
    induction h with
    | nil => exact fun t _ => .pure ReadsList.nil
    | cons hitem _ ih =>
      intro t ht
      rw [List.mapM_cons]
      refine (hitem t ht).bind fun u a hu ha => ?_
      refine (ih u (R.grows_trans ht hu)).bind fun w elems hw helems => .pure ?_
      exact .cons (R.reads_of_grows hw ha) helems
  exact hfrom s (R.grows_refl s)

/-! ### Tensors -/

variable [Element α]

/-- The cells of a tensor of the shape are read as the values of a function on coordinates. -/
structure StoresTensor (R : Reading σ α) (s : σ) (t : Tensor α) (shape : Shape)
    (f : List Nat → Bool) : Prop where
  shape_eq : t.shape = shape
  stores : R.Stores s t.elems (shape.cells f)

namespace StoresTensor

variable {u : Tensor α} {shape target : Shape} {f g : List Nat → Bool}

theorem grows (h : R.StoresTensor s u shape f) (hgrows : R.grows s t) :
    R.StoresTensor t u shape f :=
  ⟨h.shape_eq, h.stores.grows hgrows⟩

theorem congr (h : R.StoresTensor s u shape f)
    (hfg : ∀ coords, shape.Contains coords → f coords = g coords) : R.StoresTensor s u shape g :=
  ⟨h.shape_eq, Shape.cells_congr hfg ▸ h.stores⟩

theorem length_eq (h : R.StoresTensor s u shape f) : u.elems.length = shape.size := by
  rw [h.stores.length_eq, Shape.length_cells]

/-- A reindexed tensor is read as the function of the source coordinates. -/
theorem returns_polymer (h : R.StoresTensor s u shape f) (places : List Nat)
    (hfits : Tensor.Fits shape target places) :
    R.Returns s (liftM (u.polymer target (places.map Int.ofNat)) : ExceptT Error m _)
      fun t w => R.StoresTensor t w target fun coords => f (Tensor.sourceCoords places coords) := by
  obtain rfl := h.shape_eq
  refine .of_ok (Tensor.polymer_of_fits hfits)
    ⟨rfl, (Storage.kind_gather _ _).trans h.stores.kind_eq, Storage.wellFormed_gather _ _, ?_⟩
  have hbound : ∀ p ∈ target.cells fun coords => u.shape.offset (Tensor.sourceCoords places coords),
      p < u.elems.length := by
    rw [h.length_eq]
    exact Tensor.forall_mem_offsets_lt hfits
  rw [Storage.toList_gather _ _ hbound, Shape.map_cells]
  refine Shape.forall₂_cells fun coords hcoords => ?_
  have hsource := hfits.contains hcoords
  rw [← Shape.getD_cells hsource f false]
  apply h.stores.reads.getD
  rw [Shape.length_cells]
  exact Shape.offset_lt hsource

end StoresTensor

namespace Realizes

variable {alg : BoolAlgebra m α} {u w : Tensor α} {shape : Shape} {f g : List Nat → Bool}

theorem returns_tensorOf (h : R.Realizes alg) {elems : List α}
    (helems : R.ReadsList s elems (shape.cells f)) :
    R.Returns s (alg.tensorOf shape elems) fun t u => R.StoresTensor t u shape f := by
  have hlength : shape.size = (alg.vector elems).length := by
    rw [(h.stores_vector helems).length_eq, Shape.length_cells]
  exact .of_ok (if_pos hlength) ⟨rfl, h.stores_vector helems⟩

theorem returns_tensorNot (h : R.Realizes alg) (hs : R.valid s) (hu : R.StoresTensor s u shape f) :
    R.Returns s (alg.tensorNot u) fun t w => R.StoresTensor t w shape fun coords => !f coords := by
  obtain rfl := hu.shape_eq
  have hneg := h.gives_neg_list hs hu.stores.reads
  rw [Shape.map_cells] at hneg
  exact hneg.lift.bind fun t elems _ helems => h.returns_tensorOf helems

theorem returns_tensorGate (h : R.Realizes alg) (hs : R.valid s) (gate : Gate)
    (hu : R.StoresTensor s u shape f) (hw : R.StoresTensor s w shape g) :
    R.Returns s (alg.tensorGate gate u w) fun t v =>
      R.StoresTensor t v shape fun coords => gate.eval (f coords) (g coords) := by
  obtain rfl := hu.shape_eq
  have hcheck : (BoolAlgebra.checkShapes u w : ExceptT Error m Unit) = pure () :=
    if_pos hw.shape_eq.symm
  have hgates := h.gives_gate_list hs gate hu.stores.reads hw.stores.reads
  rw [Shape.zipWith_cells] at hgates
  rw [BoolAlgebra.tensorGate, hcheck, pure_bind]
  exact hgates.lift.bind fun t elems _ helems => h.returns_tensorOf helems

/-- The cells along the first dimension are read together. -/
theorem firstAxisBlock_of_lt {head i : Nat} {rest : List Nat}
    (hu : R.StoresTensor s u ⟨head :: rest⟩ f) (hi : i < Shape.size ⟨rest⟩) :
    ∃ elems, BoolAlgebra.firstAxisBlock u head i = .ok elems ∧ R.ReadsList s elems.get
      ((List.range head).map fun k => f (k :: Shape.coordinates ⟨rest⟩ i)) := by
  obtain ⟨elems, hrange, helems⟩ := exists_firstAxisBlock hu.length_eq hi
  refine ⟨elems, hrange, ?_⟩
  rw [helems, Shape.coordinates, ← Shape.drop_take_cells hi f]
  exact hu.stores.reads.block _ _

theorem returns_tensorReduce (h : R.Realizes alg) (hs : R.valid s) (reduction : Reduction)
    {head : Nat} {rest : List Nat} (hu : R.StoresTensor s u ⟨head :: rest⟩ f) :
    R.Returns s (alg.tensorReduce reduction u) fun t w => R.StoresTensor t w ⟨rest⟩ fun coords =>
      reduction.eval ((List.range head).map fun k => f (k :: coords)) := by
  have hsplit : u.shape.splitFirst = .ok (head, ⟨rest⟩) := by
    rw [hu.shape_eq]
    rfl
  have hblocks : R.Returns s ((List.range (Shape.size ⟨rest⟩)).mapM fun i => (do
        alg.reduce reduction (← liftM (BoolAlgebra.firstAxisBlock u head i)) : ExceptT Error m α))
      fun t elems => R.ReadsList t elems (Shape.cells ⟨rest⟩ fun coords =>
        reduction.eval ((List.range head).map fun k => f (k :: coords))) := by
    refine .mapM (List.forall₂_map_right_iff.2 (List.forall₂_same.2 fun i hi t ht => ?_))
    obtain ⟨elems, hblock, helems⟩ := firstAxisBlock_of_lt hu (List.mem_range.1 hi)
    rw [hblock, liftM_ok, pure_bind]
    exact (h.reduce t reduction elems _ (R.valid_of_grows ht hs) (helems.grows ht)).lift
  rw [BoolAlgebra.tensorReduce, hsplit, liftM_ok, pure_bind]
  exact hblocks.bind fun t elems _ helems => h.returns_tensorOf helems

/-! ### Constants -/

/-- Cells that cannot be counted are refused. -/
theorem returns_constant (h : R.Realizes alg) (hs : R.valid s) (shape : Shape) (value : Bool)
    (hcount : shape.size ≤ indexLimit) :
    R.Returns s (alg.constant shape value) fun t u =>
      R.StoresTensor t u shape fun _ => value := by
  refine (h.lift s value hs).lift.bind fun t a _ ha => ?_
  obtain ⟨hkind, hwell, hlist⟩ :=
    Storage.holds_withLength_withCapacity alg.kind shape.size shape.size a
  refine .of_ok (Tensor.constant_of_le hcount a) ⟨rfl, hkind.trans h.kind_eq, hwell, ?_⟩
  rw [hlist, ← Shape.cells_const]
  exact Shape.forall₂_cells fun _ _ => h.keeps t a value ha

theorem stores_write (h : R.Realizes alg) {v : Storage α} {a : α} {value : Bool}
    {values : List Bool} (hv : R.Stores s v values) (ha : R.reads s a value) {p : Nat}
    (hp : p < v.length) : R.Stores s (v.write p a) (values.set p value) := by
  refine ⟨(Storage.kind_write v p a).trans hv.kind_eq, hv.wellFormed.write hp a, ?_⟩
  rw [Storage.toList_write hv.wellFormed hp, hv.kind_eq, ← h.kind_eq]
  exact hv.reads.set p (h.keeps s a value ha)

/-- The square tensor of equal coordinates. -/
theorem returns_countedDiagonal (h : R.Realizes alg) (hs : R.valid s) (dim : Nat) :
    R.Returns s (alg.countedDiagonal dim) fun t u =>
      R.StoresTensor t u ⟨[dim, dim]⟩ fun coords => coords.getD 0 0 == coords.getD 1 0 := by
  refine (h.lift s false hs).lift.bind fun t zero ht hzero => ?_
  refine (h.lift t true (R.valid_of_grows ht hs)).lift.bind fun u unit hu hunit => ?_
  obtain ⟨hkind, hwell, hlist⟩ := Tensor.holds_marked alg.kind dim zero unit
  refine .pure ⟨rfl, hkind.trans h.kind_eq, hwell, ?_⟩
  rw [hlist]
  refine Shape.forall₂_cells fun coords _ => ?_
  by_cases hequal : coords.getD 0 0 = coords.getD 1 0
  · rw [if_pos hequal, beq_iff_eq.2 hequal]
    exact h.keeps u unit true hunit
  · rw [if_neg hequal, beq_false_of_ne hequal]
    exact h.keeps u zero false (R.reads_of_grows hu hzero)

theorem returns_diagonal (h : R.Realizes alg) (hs : R.valid s) (dim : Nat)
    (hcount : dim * dim ≤ indexLimit) :
    R.Returns s (alg.diagonal dim) fun t u => R.StoresTensor t u ⟨[dim, dim]⟩ fun coords =>
      coords.getD 0 0 == coords.getD 1 0 := by
  rw [alg.diagonal_eq_countedDiagonal hcount]
  exact h.returns_countedDiagonal hs dim

end Realizes

end Reading

end BoolTensor
