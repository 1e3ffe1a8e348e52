import BoolTensor.Algebra.Point
import BoolTensor.Algebra.Truth
import BoolTensor.Circuit.Tensor
import BoolTensor.Proofs.Storage.Holds
import BoolTensor.Proofs.Tensor.Polymer
import BoolTensor.Solver.Basic

/-!
# Diagonals

A square tensor is filled with one constant, and then the other one is put at the places that lie
one row and one column apart, from the first cell on. These are the places of equal coordinates, and
all of them are inside. So a diagonal is made over every algebra, of its two constants alone, unless
its cells cannot be counted.

## Main definitions

* `Tensor.IsDiagonal`: a square tensor that reads one element where its coordinates agree, and
  another one elsewhere
-/

namespace BoolTensor

/-! ### Marked places -/

theorem size_square (dim : Nat) : Shape.size ⟨[dim, dim]⟩ = dim * dim := by
  simp [Shape.size]

theorem forall_mem_diagonalPlaces_lt (dim : Nat) : ∀ p ∈ diagonalPlaces dim, p < dim * dim := by
  rw [diagonalPlaces, List.forall_mem_map]
  intro i hi
  rw [List.mem_range] at hi
  calc i * (dim + 1) = i * dim + i := Nat.mul_add_one i dim
    _ < i * dim + dim := Nat.add_lt_add_left hi _
    _ = (i + 1) * dim := (Nat.succ_mul i dim).symm
    _ ≤ dim * dim := Nat.mul_le_mul_right dim hi

/-- Steps of one row and one column more meet the places whose row and column are equal. -/
theorem mem_diagonalPlaces_iff {dim n : Nat} (hn : n < dim * dim) :
    n ∈ diagonalPlaces dim ↔ n % dim = n / dim := by
  have hdiv : n / dim < dim := Nat.div_lt_of_lt_mul hn
  have hdim : 0 < dim := Nat.zero_lt_of_lt hdiv
  rw [diagonalPlaces, List.mem_map]
  constructor
  · rintro ⟨i, hi, rfl⟩
    rw [List.mem_range] at hi
    rw [Nat.mul_add_one, Nat.mul_comm i, Nat.mul_add_mod, Nat.mul_add_div hdim,
      Nat.mod_eq_of_lt hi, Nat.div_eq_of_lt hi, Nat.add_zero]
  · intro heq
    refine ⟨n / dim, List.mem_range.2 hdiv, ?_⟩
    have hsplit := Nat.mod_add_div n dim
    rw [heq] at hsplit
    rw [Nat.mul_add_one, Nat.mul_comm, Nat.add_comm, hsplit]

section Lists

variable {β : Type}

theorem length_foldl_set (places : List Nat) (elems : List β) (b : β) :
    (places.foldl (fun elems p => elems.set p b) elems).length = elems.length := by
  induction places generalizing elems with
  | nil => rfl
  | cons p places ih => rw [List.foldl_cons, ih, List.length_set]

theorem getElem?_foldl_set (places : List Nat) (elems : List β) (b : β) {n : Nat}
    (hn : n < elems.length) :
    (places.foldl (fun elems p => elems.set p b) elems)[n]? =
      if n ∈ places then some b else elems[n]? := by
  induction places generalizing elems with
  | nil => simp
  | cons p places ih =>
    rw [List.foldl_cons, ih _ (by rwa [List.length_set])]
    by_cases hp : p = n
    · subst hp
      simp [hn]
    · simp [List.mem_cons, Ne.symm hp, List.getElem?_set_ne hp]

/-- The cells of a square that is marked are those of a function on coordinates. -/
theorem foldl_set_diagonalPlaces (dim : Nat) (zero unit : β) :
    (diagonalPlaces dim).foldl (fun elems p => elems.set p unit)
        (List.replicate (dim * dim) zero) =
      Shape.cells ⟨[dim, dim]⟩ fun coords =>
        if coords.getD 0 0 = coords.getD 1 0 then unit else zero := by
  apply List.ext_getElem?
  intro n
  by_cases hn : n < dim * dim
  · have hdiv : n / dim < dim := Nat.div_lt_of_lt_mul hn
    rw [getElem?_foldl_set _ _ _ (by rwa [List.length_replicate])]
    simp only [mem_diagonalPlaces_iff hn, Shape.cells, size_square, List.getElem?_map,
      List.getElem?_range hn, Option.map_some, Shape.coordinates, Shape.digits,
      List.getD_cons_zero, List.getD_cons_succ, Nat.mod_eq_of_lt hdiv,
      List.getElem?_replicate_of_lt hn]
    split <;> rfl
  · have hend : dim * dim ≤ n := not_lt.1 hn
    rw [List.getElem?_eq_none, List.getElem?_eq_none]
    · rwa [Shape.length_cells, size_square]
    · rwa [length_foldl_set, List.length_replicate]

end Lists

/-! ### Vectors and tensors -/

section Tensors

variable {α : Type} [Element α] {kind : Kind} {v : Storage α} {elems : List α} {dim : Nat}

namespace Storage

theorem foldlM_set_eq (a : α) {places : List Nat} (hplaces : ∀ p ∈ places, p < v.length) :
    places.foldlM (fun elems (p : Nat) => elems.set p a) v =
      .ok (places.foldl (fun elems p => elems.write p a) v) := by
  induction places generalizing v with
  | nil => rfl
  | cons p places ih =>
    rw [List.forall_mem_cons] at hplaces
    rw [List.foldlM_cons, set_of_lt hplaces.1]
    exact ih (by simpa only [length_write] using hplaces.2)

theorem Holds.foldl_write (h : v.Holds kind elems) (a : α) {places : List Nat}
    (hplaces : ∀ p ∈ places, p < elems.length) :
    (places.foldl (fun elems p => elems.write p a) v).Holds kind
      (places.foldl (fun elems p => elems.set p (kind.keeps a)) elems) := by
  induction places generalizing v elems with
  | nil => exact h
  | cons p places ih =>
    rw [List.forall_mem_cons] at hplaces
    exact ih (h.write hplaces.1 a) (by simpa only [List.length_set] using hplaces.2)

end Storage

namespace Tensor

/-- A tensor of one constant is made or refused whatever the constant is. -/
theorem constant_eq (shape : Shape) (a : α) (kind : Kind) :
    constant shape a kind = do
      Storage.checkRoom kind shape.size
      Storage.checkResize kind 0 shape.size
      checkCount shape.size .lengthTooWide
      return ⟨shape, (Storage.withCapacity kind shape.size).withLength shape.size a⟩ := by
  have hempty := Storage.holds_withCapacity (α := α) kind shape.size
  have hlength : ((Storage.withCapacity kind shape.size).withLength shape.size a).length =
      shape.size :=
    (Storage.holds_withLength_withCapacity kind shape.size shape.size a).length_eq.trans
      List.length_replicate
  rw [constant, Storage.resize_eq, hempty.kind_eq, hempty.length_eq, List.length_nil]
  refine bind_congr fun _ => ?_
  cases Storage.checkResize kind 0 shape.size with
  | error e => rfl
  | ok _ =>
    change (Storage.checkLength _ >>= fun _ => ofStorage _ _) = _
    rw [Storage.checkLength, hlength, ofStorage, if_pos hlength.symm]
    rfl

theorem constant_of_le {shape : Shape} (hcount : shape.size ≤ indexLimit) (a : α) :
    constant shape a kind =
      .ok ⟨shape, (Storage.withCapacity kind shape.size).withLength shape.size a⟩ := by
  have hroom := Storage.checkRoom_of_le kind (hcount.trans indexLimit_le_packedLimit)
  have hlength : checkCount (shape.size : Int) .lengthTooWide = .ok () :=
    if_pos (Int.ofNat_le.2 hcount)
  rw [constant_eq, hroom, Storage.checkResize_of_le kind 0 hcount, hlength]
  rfl

/-- No tensor has more cells than can be counted, of whatever kind its vector is. -/
theorem exists_constant_eq_error {shape : Shape} (hcount : indexLimit < shape.size) (kind : Kind) :
    ∃ e, ∀ a : α, constant shape a kind = .error e := by
  have hlength : checkCount (shape.size : Int) .lengthTooWide = .error .lengthTooWide :=
    if_neg (by omega)
  simp only [constant_eq, hlength]
  rcases Storage.checkRoom kind shape.size with e | _
  · exact ⟨e, fun _ => rfl⟩
  rcases Storage.checkResize kind 0 shape.size with e | _
  · exact ⟨e, fun _ => rfl⟩
  · exact ⟨.lengthTooWide, fun _ => rfl⟩

theorem holds_marked (kind : Kind) (dim : Nat) (zero unit : α) :
    (marked kind dim zero unit).elems.Holds kind (Shape.cells ⟨[dim, dim]⟩ fun coords =>
      if coords.getD 0 0 = coords.getD 1 0 then kind.keeps unit else kind.keeps zero) := by
  have hfilled := Storage.holds_withLength_withCapacity kind (dim * dim : Nat) (dim * dim) zero
  have hplaces : ∀ p ∈ diagonalPlaces dim,
      p < (List.replicate (dim * dim) (kind.keeps zero)).length := by
    rw [List.length_replicate]
    exact forall_mem_diagonalPlaces_lt dim
  rw [← foldl_set_diagonalPlaces]
  exact hfilled.foldl_write unit hplaces

/-- A square tensor that reads `unit` where the coordinates agree, and `zero` elsewhere. -/
structure IsDiagonal (t : Tensor α) (dim : Nat) (zero unit : α) : Prop where
  shape_eq : t.shape = ⟨[dim, dim]⟩
  wellFormed : t.WellFormed
  get_eq : ∀ i j : Nat, i < dim → j < dim → t.get [i, j] = .ok (if i = j then unit else zero)

theorem isDiagonal_marked (kind : Kind) (dim : Nat) (zero unit : α) :
    (marked kind dim zero unit).IsDiagonal dim (kind.keeps zero) (kind.keeps unit) := by
  have hholds := holds_marked kind dim zero unit
  have hwell : (marked kind dim zero unit).WellFormed := by
    rw [WellFormed, hholds.length_eq, Shape.length_cells]
    rfl
  refine ⟨rfl, hwell, fun i j hi hj => ?_⟩
  have hcoords : Shape.Contains ⟨[dim, dim]⟩ [i, j] := ⟨hi, hj, trivial⟩
  refine (get_of_contains hwell hcoords).trans ?_
  rw [hholds.toList_eq]
  exact congrArg Except.ok (Shape.getD_cells hcoords _ _)

end Tensor

namespace BoolAlgebra

theorem markDiagonal_eq (hv : v.length = dim * dim) (a : α) :
    markDiagonal dim a v =
      .ok ((diagonalPlaces dim).foldl (fun elems p => elems.write p a) v) := by
  rw [← Storage.foldlM_set_eq a (hv ▸ forall_mem_diagonalPlaces_lt dim), diagonalPlaces,
    List.foldlM_map]
  rfl

variable {m : Type → Type} [Monad m] [LawfulMonad m] (alg : BoolAlgebra m α)

omit [LawfulMonad m] in
theorem constantOf_of_ofInts {dims : List Int} {shape : Shape}
    (hshape : Shape.ofInts dims = .ok shape) (value : Bool) :
    alg.constantOf dims value = alg.constant shape value := by
  rw [constantOf, hshape]
  rfl

/-- A constant whose cells cannot be counted is refused once it is made. -/
theorem exists_run_constant_eq_error {shape : Shape} (hcount : indexLimit < shape.size)
    (value : Bool) : ∃ e, (alg.constant shape value).run = do
      let _ ← alg.lift value
      return .error e := by
  obtain ⟨e, he⟩ := Tensor.exists_constant_eq_error (α := α) hcount alg.kind
  refine ⟨e, (ExceptT.run_bind_lift _ _).trans (bind_congr fun elem => ?_)⟩
  rw [he]
  rfl

theorem diagonal_natCast (dim : Nat) :
    alg.diagonal dim = do
      let zero ← alg.zero
      let tensor ← liftM (Tensor.constant ⟨[dim, dim]⟩ zero alg.kind)
      let unit ← alg.unit
      let elems ← liftM (markDiagonal dim unit tensor.elems)
      return { tensor with elems := elems } := by
  have hshape : Shape.ofInts [(dim : Int), (dim : Int)] = .ok ⟨[dim, dim]⟩ :=
    Shape.ofInts_natCast [dim, dim]
  rw [diagonal, hshape, liftM_ok, pure_bind, constant, bind_assoc]
  rfl

/-- Where its cells can be counted there is nothing to refuse a diagonal for. -/
theorem diagonal_eq_countedDiagonal (hcount : dim * dim ≤ indexLimit) :
    alg.diagonal dim = alg.countedDiagonal dim := by
  rw [diagonal_natCast, countedDiagonal]
  refine bind_congr fun zero => ?_
  rw [Tensor.constant_of_le (by rwa [size_square]), liftM_ok, pure_bind, size_square]
  refine bind_congr fun unit => ?_
  have hfilled := Storage.holds_withLength_withCapacity alg.kind (dim * dim : Nat) (dim * dim) zero
  have hlength := hfilled.length_eq.trans List.length_replicate
  rw [markDiagonal_eq hlength, liftM_ok, pure_bind]
  rfl

theorem run_diagonal_of_le (hcount : dim * dim ≤ indexLimit) :
    (alg.diagonal dim).run = do
      let zero ← alg.zero
      let unit ← alg.unit
      return .ok (Tensor.marked alg.kind dim zero unit) := by
  rw [diagonal_eq_countedDiagonal alg hcount]
  exact (ExceptT.run_bind_lift _ _).trans (bind_congr fun zero => ExceptT.run_bind_lift _ _)

/-- Where they cannot it is refused, and only the first constant was made. -/
theorem exists_run_diagonal_eq_error (hcount : indexLimit < dim * dim) :
    ∃ e, (alg.diagonal dim).run = do
      let _ ← alg.zero
      return .error e := by
  rw [← size_square] at hcount
  obtain ⟨e, he⟩ := alg.exists_run_constant_eq_error hcount false
  have hshape : Shape.ofInts [(dim : Int), (dim : Int)] = .ok ⟨[dim, dim]⟩ :=
    Shape.ofInts_natCast [dim, dim]
  refine ⟨e, ?_⟩
  rw [diagonal, hshape, liftM_ok, pure_bind, ExceptT.run_bind, he, bind_assoc]
  exact bind_congr fun zero => pure_bind _ _

end BoolAlgebra

end Tensors

/-- Over every algebra a diagonal reads one constant of the algebra where the coordinates agree, and
the other one elsewhere, as its vectors keep them; it is refused just where so many cells cannot be
counted. On truth values these are truth and falsity. Over a solver they are the literals of
variable 1, and nothing is added. -/
theorem diagonal_reads_constants (dim : Nat) :
    (∀ (m : Type → Type) [Monad m] [LawfulMonad m] (α : Type) [Element α] (alg : BoolAlgebra m α),
      (dim * dim ≤ indexLimit →
        ((alg.diagonal dim).run = do
          let zero ← alg.zero
          let unit ← alg.unit
          return .ok (Tensor.marked alg.kind dim zero unit)) ∧
        ∀ zero unit : α, (Tensor.marked alg.kind dim zero unit).IsDiagonal dim
          (alg.kind.keeps zero) (alg.kind.keeps unit)) ∧
      (indexLimit < dim * dim → ∃ e, (alg.diagonal dim).run = do
        let _ ← alg.zero
        return .error e)) ∧
    (dim * dim ≤ indexLimit →
      (∃ t : Tensor Bool, (truthAlgebra.diagonal dim : ExceptT Error Id (Tensor Bool)).run = .ok t ∧
        t.IsDiagonal dim false true) ∧
      (∃ t : Tensor Unit, (pointAlgebra.diagonal dim : ExceptT Error Id (Tensor Unit)).run = .ok t ∧
        t.IsDiagonal dim () ()) ∧
      ∀ engine : Engine, ∃ t : Tensor Literal, t.IsDiagonal dim (-1) 1 ∧
        ∀ s : Solver Literal, ((literalAlgebra engine).diagonal dim).run.run s = (.ok t, s)) := by
  refine ⟨fun m _ _ α _ alg => ⟨fun hcount => ⟨?_, ?_⟩, ?_⟩, fun hcount => ⟨?_, ?_, fun engine => ?_⟩⟩
  · exact alg.run_diagonal_of_le hcount
  · exact Tensor.isDiagonal_marked alg.kind dim
  · exact alg.exists_run_diagonal_eq_error
  · exact ⟨_, truthAlgebra.run_diagonal_of_le hcount,
      Tensor.isDiagonal_marked .packed dim false true⟩
  · exact ⟨_, pointAlgebra.run_diagonal_of_le hcount, Tensor.isDiagonal_marked .counted dim () ()⟩
  · refine ⟨_, Tensor.isDiagonal_marked .dense dim (-1) 1, fun s => ?_⟩
    rw [(literalAlgebra engine).run_diagonal_of_le hcount]
    rfl

/-- Three rows and columns are made over each algebra; those of `2 ^ 32` cannot be counted,
and the solver is what it was. -/
theorem diagonal_reads_constants_three :
    (3 * 3 ≤ indexLimit ∧
      (∃ t : Tensor Bool, (truthAlgebra.diagonal 3 : ExceptT Error Id (Tensor Bool)).run = .ok t ∧
        t.get [1, 1] = .ok true ∧ t.get [2, 1] = .ok false) ∧
      (∃ t : Tensor Unit, (pointAlgebra.diagonal 3 : ExceptT Error Id (Tensor Unit)).run = .ok t ∧
        t.get [2, 2] = .ok ()) ∧
      ∃ t : Tensor Literal, t.get [0, 0] = .ok 1 ∧ t.get [0, 2] = .ok (-1) ∧
        ((literalAlgebra searchEngine).diagonal 3).run.run Solver.new = (.ok t, Solver.new)) ∧
    (indexLimit < 4294967296 * 4294967296 ∧
      ∃ e, ((literalAlgebra searchEngine).diagonal (4294967296 : Nat)).run.run Solver.new =
        (.error e, Solver.new)) := by
  obtain ⟨-, hmade⟩ := diagonal_reads_constants 3
  obtain ⟨⟨t, hrun, ht⟩, ⟨u, hrun', hu⟩, hsolver⟩ := hmade (by decide)
  obtain ⟨w, hw, hrun''⟩ := hsolver searchEngine
  have hrefused := (diagonal_reads_constants 4294967296).1 (SolverM Literal) Literal
  obtain ⟨e, he⟩ := (hrefused (literalAlgebra searchEngine).toBoolAlgebra).2 (by decide)
  refine ⟨⟨by decide, ⟨t, hrun, ?_, ?_⟩, ⟨u, hrun', ?_⟩, w, ?_, ?_, hrun'' Solver.new⟩, by decide,
    e, by rw [he]; rfl⟩
  · exact ht.get_eq 1 1 (by decide) (by decide)
  · exact ht.get_eq 2 1 (by decide) (by decide)
  · exact hu.get_eq 2 2 (by decide) (by decide)
  · exact hw.get_eq 0 0 (by decide) (by decide)
  · exact hw.get_eq 0 2 (by decide) (by decide)

/-- The cells of `2 ^ 32` rows and columns cannot be counted, and there are no words of `2 ^ 68` bits
either, so there are no such diagonals. -/
theorem diagonal_refused_of_too_many_cells :
    (pointAlgebra.diagonal 4294967296 : ExceptT Error Id (Tensor Unit)).run =
        .error .lengthTooWide ∧
      ((literalAlgebra searchEngine).diagonal 4294967296).run.run Solver.new =
        (.error .countTooWide, Solver.new) ∧
      (truthAlgebra.diagonal 17179869184 : ExceptT Error Id (Tensor Bool)).run =
        .error .dimensionTooLarge :=
  ⟨rfl, rfl, rfl⟩

end BoolTensor
