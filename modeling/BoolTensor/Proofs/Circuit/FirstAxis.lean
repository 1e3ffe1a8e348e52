import BoolTensor.Proofs.Circuit.Packed
import BoolTensor.Proofs.Tensor.Tabulated

/-!
# Gates along the first dimension

The cells that differ in the first coordinate alone lie together, and a gate along the first
dimension takes each such block to one cell. Joined dimensions make the blocks longer: a gate along
them is one along each dimension after the other.

## Main definitions

* `Reduction.HoldsBelow`: what a gate on any number of truth values says of numbers below a bound
* `Tensor.Holds`: a tensor is stored in one way, with the cells of a function on coordinates
-/

namespace BoolTensor

/-! ### Statements about numbers below a bound -/

/-- All numbers below a bound, some of them, or an odd number of them have a property. -/
def Reduction.HoldsBelow (bound : Nat) (P : Nat → Prop) [DecidablePred P] : Reduction → Prop
  | all => ∀ k < bound, P k
  | any => ∃ k < bound, P k
  | sum => Odd (Nat.count P bound)

instance (bound : Nat) (P : Nat → Prop) [DecidablePred P] (reduction : Reduction) :
    Decidable (reduction.HoldsBelow bound P) :=
  match reduction with
  | .all => inferInstanceAs (Decidable (∀ k < bound, P k))
  | .any => inferInstanceAs (Decidable (∃ k < bound, P k))
  | .sum => inferInstanceAs (Decidable (Odd _))

theorem Reduction.eval_range_iff (reduction : Reduction) (bound : Nat) (value : Nat → Bool)
    {P : Nat → Prop} [DecidablePred P] (h : ∀ k < bound, value k = true ↔ P k) :
    reduction.eval ((List.range bound).map value) = true ↔ reduction.HoldsBelow bound P := by
  cases reduction with
  | all =>
    simp only [eval, HoldsBelow, List.all_map, List.all_eq_true, List.mem_range]
    exact forall₂_congr h
  | any =>
    simp only [eval, HoldsBelow, List.any_map, List.any_eq_true, List.mem_range]
    exact exists_congr fun k => and_congr_right (h k)
  | sum =>
    have hcount : ((List.range bound).map value).count true = Nat.count P bound := by
      induction bound with
      | zero => rfl
      | succ bound ih =>
        rw [List.range_succ, List.map_append, List.count_append, Nat.count_succ,
          ih fun k hk => h k (Nat.lt_succ_of_lt hk)]
        have hlast := h bound (Nat.lt_succ_self bound)
        simp [List.count_singleton, ← hlast]
    rw [eval, HoldsBelow, hcount, beq_iff_eq, Nat.odd_iff]

namespace Tensor

variable {m : Type → Type} [Monad m] [LawfulMonad m] {t u : Tensor Bool} {head : Nat}
  {front rest coords : List Nat} {f g : List Nat → Bool} {kind : Kind} {shape : Shape}

/-! ### Blocks -/

/-- A gate along the first dimension gives at each list of the other coordinates its value on the
cells there. -/
theorem tensorReduce_eq (ht : t.WellFormed) (hdims : t.shape.dims = head :: rest)
    (reduction : Reduction) : (truthAlgebra : BoolAlgebra m Bool).tensorReduce reduction t =
      pure (tabulate ⟨rest⟩ fun coords =>
        reduction.eval ((List.range head).map fun k => t.truthAt (k :: coords))) := by
  have hshape : t.shape = ⟨head :: rest⟩ := congrArg Shape.mk hdims
  have hblocks : ((List.range (Shape.size ⟨rest⟩)).map fun i =>
      reduction.eval ((t.elems.toList.take (i * head + head)).drop (i * head))) =
      Shape.cells ⟨rest⟩ fun coords =>
        reduction.eval ((List.range head).map fun k => t.truthAt (k :: coords)) := by
    refine List.map_congr_left fun i hi => ?_
    rw [toList_eq_cells ht, hshape, Shape.drop_take_cells (List.mem_range.1 hi)]
    rfl
  rw [tensorReduce_truthAlgebra reduction ht hshape, hblocks, ofBits_cells, liftM_ok]

/-- A gate along the first dimension gives a tensor of the other dimensions. A cell of it is true
where all cells along the first dimension are, some of them, or an odd number, and the blocks of
cells that are read are within bounds. -/
theorem tensorReduce_first_axis (ht : t.WellFormed) (hdims : t.shape.dims = head :: rest)
    (reduction : Reduction) :
    (∃ u, (truthAlgebra : BoolAlgebra m Bool).tensorReduce reduction t = pure u ∧
      u.shape = ⟨rest⟩ ∧ ∀ coords, Shape.Contains ⟨rest⟩ coords →
        ∃ value, u.get (coords.map Int.ofNat) = .ok value ∧ (value = true ↔
          reduction.HoldsBelow head fun y => t.get ((y :: coords).map Int.ofNat) = .ok true)) ∧
    ∀ i < Shape.size ⟨rest⟩, i * head + head ≤ t.elems.length ∧
      ∃ block, BoolAlgebra.firstAxisBlock t head i = .ok block := by
  have hshape : t.shape = ⟨head :: rest⟩ := congrArg Shape.mk hdims
  refine ⟨⟨_, tensorReduce_eq ht hdims reduction, rfl, fun coords hcoords => ?cell⟩,
    fun i hi => ⟨?bound, ?block⟩⟩
  case cell =>
    refine ⟨_, get_tabulate hcoords _, reduction.eval_range_iff head _ fun y hy => ?_⟩
    have hcontains : t.shape.Contains (y :: coords) := hshape ▸ ⟨hy, hcoords⟩
    rw [get_eq_truthAt ht hcontains, Except.ok.injEq]
  case bound =>
    rw [ht, hshape]
    exact Shape.block_le_size head hi
  case block =>
    obtain ⟨block, hblock, -⟩ := exists_firstAxisBlock (ht.trans (congrArg Shape.size hshape)) hi
    exact ⟨block, hblock⟩

/-- Both cells of the last of four columns are true, which are not odd in number. -/
theorem tensorReduce_first_axis_two_four :
    let t : Tensor Bool :=
      ⟨⟨[2, 4]⟩, .ofList .packed [false, false, true, false, false, true, true, true]⟩
    t.WellFormed ∧ t.shape.dims = [2, 4] ∧
      ∃ u, (truthAlgebra : BoolAlgebra Id Bool).tensorReduce .sum t = pure u ∧
        u.shape = ⟨[4]⟩ ∧ u.get [3] = .ok false := by
  intro t
  have ht : t.WellFormed := by decide
  obtain ⟨⟨u, hu, hshape, hcells⟩, -⟩ := tensorReduce_first_axis (m := Id) ht rfl .sum
  obtain ⟨value, hget, hvalue⟩ := hcells [3] ⟨by decide, trivial⟩
  have hfalse : value = false := by
    rw [← Bool.not_eq_true, hvalue]
    decide
  exact ⟨ht, rfl, u, hu, hshape, hfalse ▸ hget⟩

/-! ### Joined dimensions -/

/-- A tensor of a shape, stored in one way, with the values of a function as its cells. -/
structure Holds (t : Tensor Bool) (kind : Kind) (shape : Shape) (f : List Nat → Bool) : Prop where
  shape_eq : t.shape = shape
  holds : t.elems.Holds kind (shape.cells f)

theorem WellFormed.holds (ht : t.WellFormed) (helems : t.elems.WellFormed) :
    t.Holds t.elems.kind t.shape t.truthAt :=
  ⟨rfl, rfl, helems, toList_eq_cells ht⟩

theorem holds_tabulate (shape : Shape) (f : List Nat → Bool) :
    (tabulate shape f).Holds .packed shape f :=
  ⟨rfl, rfl, Bits.wellFormed_ofList _, toList_tabulate shape f⟩

namespace Holds

theorem wellFormed (h : t.Holds kind shape f) : t.WellFormed := by
  rw [WellFormed, h.holds.length_eq, h.shape_eq, Shape.length_cells]

theorem truthAt_eq (h : t.Holds kind shape f) (hcoords : shape.Contains coords) :
    t.truthAt coords = f coords := by
  rw [truthAt, h.holds.toList_eq, h.shape_eq, Shape.getD_cells hcoords]

theorem congr (h : t.Holds kind shape f) (hfg : ∀ coords, shape.Contains coords →
    f coords = g coords) : t.Holds kind shape g :=
  ⟨h.shape_eq, Shape.cells_congr hfg ▸ h.holds⟩

/-- Tensors that hold the same are the same. -/
theorem same_eq (h : t.Holds kind shape f) (hu : u.Holds kind shape f) : t.same u = true := by
  rw [same, Bool.and_eq_true, beq_iff_eq, h.shape_eq, hu.shape_eq]
  exact ⟨rfl, (h.holds.same_iff hu.holds).2 rfl⟩

theorem tensorReduce_eq (h : t.Holds kind ⟨head :: rest⟩ f) (reduction : Reduction) :
    (truthAlgebra : BoolAlgebra m Bool).tensorReduce reduction t =
      pure (tabulate ⟨rest⟩ fun coords =>
        reduction.eval ((List.range head).map fun k => f (k :: coords))) := by
  rw [Tensor.tensorReduce_eq h.wellFormed (congrArg Shape.dims h.shape_eq)]
  refine congrArg pure (tabulate_congr fun coords hcoords => ?_)
  refine congrArg _ (List.map_congr_left fun k hk => ?_)
  exact h.truthAt_eq ⟨List.mem_range.1 hk, hcoords⟩

/-- A copy with the first dimensions joined, the joined ones as the digits of the first one. -/
theorem exists_join (h : t.Holds kind ⟨front ++ rest⟩ f) :
    ∃ joined, t.copy.join front.length = .ok joined ∧
      joined.Holds kind ⟨Shape.size ⟨front⟩ :: rest⟩ fun coords =>
        f (Shape.digits front (coords.headD 0) ++ coords.tail) := by
  have hjoin : t.copy.shape.join front.length = .ok ⟨Shape.size ⟨front⟩ :: rest⟩ := by
    have hcount : 0 ≤ (front.length : Int) ∧ (front.length : Int) ≤ t.shape.rank := by
      simp [h.shape_eq, Shape.rank]
    rw [copy, Shape.join, if_pos hcount, h.shape_eq]
    simp
  refine ⟨⟨⟨Shape.size ⟨front⟩ :: rest⟩, t.elems.copy⟩, ?_, rfl, ?_⟩
  · rw [join, hjoin]
    rfl
  · rw [← Shape.cells_append]
    exact h.holds.copy

end Holds

end Tensor

namespace TensorTerm

open Tensor

variable {m : Type → Type} [Monad m] [LawfulMonad m] {t u : Tensor Bool} {front rest : List Nat}
  {f : List Nat → Bool}

/-- A gate along one dimension after the other is one on all cells of these dimensions. -/
theorem exists_eval_iterate_reduce (reduction : Reduction) {a : TensorTerm}
    (ha : a.eval (truthAlgebra : BoolAlgebra m Bool).tensorGates = pure u)
    (h : u.Holds .packed ⟨front ++ rest⟩ f) : ∃ v,
      ((reduce reduction)^[front.length] a).eval (truthAlgebra : BoolAlgebra m Bool).tensorGates =
        pure v ∧
      (v.Holds .packed ⟨rest⟩ fun coords =>
        reduction.eval (Shape.cells ⟨front⟩ fun part => f (part ++ coords))) ∧
      (front = [] → v = u) := by
  -- The first gate is along the first dimension; the other ones go on from the tensor it gives, whose
  -- cells are no longer those of `f`.
  induction front generalizing a u f with
  | nil =>
    refine ⟨u, ha, h.congr fun coords _ => ?_, fun _ => rfl⟩
    exact (reduction.eval_singleton (f coords)).symm
  | cons head front ih =>
    have hreduce : (reduce reduction a).eval (truthAlgebra : BoolAlgebra m Bool).tensorGates =
        pure (tabulate ⟨front ++ rest⟩ fun coords =>
          reduction.eval ((List.range head).map fun k => f (k :: coords))) := by
      rw [eval, ha, pure_bind]
      exact h.tensorReduce_eq reduction
    obtain ⟨v, hv, hholds, -⟩ := ih hreduce (holds_tabulate _ _)
    refine ⟨v, hv, hholds.congr fun coords _ => ?_, fun hnil => absurd hnil (List.cons_ne_nil _ _)⟩
    rw [Shape.cells_cons, Reduction.eval_flatten, Shape.map_cells]
    rfl

theorem given_iterate_reduce (reduction : Reduction) (count : Nat) (a : TensorTerm) :
    ((reduce reduction)^[count] a).given = a.given := by
  induction count generalizing a with
  | zero => rfl
  | succ count ih => exact ih (reduce reduction a)

/-- What gates give cell by cell they give on whole arrays. -/
theorem eval_on_arrays {term : TensorTerm}
    (hgiven : ∀ t ∈ term.given, t.WellFormed ∧ t.shape.Addressable)
    (h : term.eval (truthAlgebra : BoolAlgebra m Bool).tensorGates = pure u) :
    term.eval (packedGates : TensorGates m Bool) = pure u := by
  obtain ⟨result, hpacked, hcells, -⟩ := coincide_eval (m := m) term hgiven
  rw [hpacked, ← hcells, h]

/-- A gate along joined dimensions of a packed tensor gives the tensor that the gate gives along one
of them after the other; where it is along none of them that is the tensor itself. So it is on whole
arrays too, if the shape of the tensor and the joined one are those of arrays. -/
theorem eval_reduce_join (ht : t.WellFormed) (hkind : t.elems.kind = .packed)
    (helems : t.elems.WellFormed) {count : Nat} (hcount : count ≤ t.shape.rank)
    (reduction : Reduction) : ∃ joined u v, t.copy.join count = .ok joined ∧
      (reduce reduction (tensor joined)).eval (truthAlgebra : BoolAlgebra m Bool).tensorGates =
        pure u ∧
      ((reduce reduction)^[count] (tensor t)).eval
        (truthAlgebra : BoolAlgebra m Bool).tensorGates = pure v ∧
      u.shape = v.shape ∧ u.elems.kind = v.elems.kind ∧ u.elems.toList = v.elems.toList ∧
      u.same v = true ∧ (count = 0 → v = t) ∧
      (t.shape.Addressable → joined.shape.Addressable →
        (reduce reduction (tensor joined)).eval (packedGates : TensorGates m Bool) = pure u ∧
        ((reduce reduction)^[count] (tensor t)).eval (packedGates : TensorGates m Bool) =
          pure v) := by
  obtain ⟨front, rest, hshape, rfl⟩ :
      ∃ front rest, t.shape = ⟨front ++ rest⟩ ∧ front.length = count :=
    ⟨t.shape.dims.take count, t.shape.dims.drop count, by rw [List.take_append_drop],
      List.length_take_of_le hcount⟩
  have h : t.Holds .packed ⟨front ++ rest⟩ t.truthAt := hkind ▸ hshape ▸ ht.holds helems
  -- Both ways the result holds the gate on all cells of the joined dimensions, but for no dimension
  -- one of them is the tensor itself, whose storage may have room for more. So they are compared.
  obtain ⟨joined, hjoin, hjoined⟩ := h.exists_join
  have hreduce : (reduce reduction (tensor joined)).eval
      (truthAlgebra : BoolAlgebra m Bool).tensorGates = pure (tabulate ⟨rest⟩ fun coords =>
        reduction.eval (Shape.cells ⟨front⟩ fun part => t.truthAt (part ++ coords))) := by
    rw [eval, eval, pure_bind]
    exact hjoined.tensorReduce_eq reduction
  obtain ⟨v, hv, hholds, hnone⟩ := exists_eval_iterate_reduce (m := m) reduction
    (a := tensor t) rfl h
  have hu := holds_tabulate ⟨rest⟩ fun coords =>
    reduction.eval (Shape.cells ⟨front⟩ fun part => t.truthAt (part ++ coords))
  refine ⟨joined, _, v, hjoin, hreduce, hv, hu.shape_eq.trans hholds.shape_eq.symm,
    hu.holds.kind_eq.trans hholds.holds.kind_eq.symm,
    hu.holds.toList_eq.trans hholds.holds.toList_eq.symm, hu.same_eq hholds,
    fun hcount => hnone (List.length_eq_zero_iff.1 hcount), fun htensor hdims => ⟨?_, ?_⟩⟩
  · refine eval_on_arrays ?_ hreduce
    simpa [given] using ⟨hjoined.wellFormed, hdims⟩
  · refine eval_on_arrays ?_ hv
    simpa [given_iterate_reduce, given] using ⟨ht, htensor⟩

/-- Two dimensions without a cell in them, joined or one after the other, leave all cells true. -/
theorem eval_reduce_join_empty :
    let t : Tensor Bool := ⟨⟨[2, 0, 3]⟩, .ofList .packed []⟩
    t.WellFormed ∧ t.elems.kind = .packed ∧ t.elems.WellFormed ∧ 2 ≤ t.shape.rank ∧
      ∃ joined u v, t.copy.join 2 = .ok joined ∧
        (reduce .all (tensor joined)).eval (truthAlgebra : BoolAlgebra Id Bool).tensorGates =
          pure u ∧
        ((reduce .all)^[2] (tensor t)).eval (truthAlgebra : BoolAlgebra Id Bool).tensorGates =
          pure v ∧
        u.same v = true ∧ u.elems.toList = [true, true, true] := by
  intro t
  have ht : t.WellFormed := rfl
  have helems : t.elems.WellFormed := Storage.wellFormed_ofList .packed ([] : List Bool)
  have hrank : 2 ≤ t.shape.rank := by decide
  obtain ⟨joined, u, v, hjoin, hu, hv, -, -, -, hsame, -⟩ :=
    eval_reduce_join (m := Id) ht rfl helems hrank .all
  refine ⟨ht, rfl, helems, hrank, joined, u, v, hjoin, hu, hv, hsame, ?_⟩
  obtain rfl := Except.ok.inj hjoin
  obtain rfl := Except.ok.inj hu
  decide

end TensorTerm

end BoolTensor
