import BoolTensor.Proofs.Ending
import BoolTensor.Proofs.Storage.Kept

/-!
# Bulk operations from primitives

Vectors of one kind are a sequence through the primitives of this kind, so the bulk operations that
the contract derives run on them, one element after the other. They leave the elements that the
bulk operations of the kind itself leave.

## Main definitions

* `Storage.OfKind`: the vectors of one kind, with the primitives of this kind only
* `Storage.own`: a vector among those of its kind
-/

namespace BoolTensor

open MonadAttach

theorem exists_of_map_eq_ok {β γ : Type} {f : β → γ} {x : Except Error β} {c : γ}
    (h : x.map f = .ok c) : ∃ b, x = .ok b ∧ f b = c := by
  cases x with
  | ok b => exact ⟨b, rfl, Except.ok.inj h⟩
  | error e => cases h

namespace Storage

variable {α : Type} [Element α]

theorem kind_of_truncate {v w : Storage α} {n : Int} (h : v.truncate n = .ok w) :
    w.kind = v.kind := by
  cases v <;> obtain ⟨-, -, rfl⟩ := exists_of_map_eq_ok h <;> rfl

theorem kind_of_pop {v : Storage α} {result : α × Storage α} (h : v.pop = .ok result) :
    result.2.kind = v.kind := by
  cases v <;> obtain ⟨-, -, rfl⟩ := exists_of_map_eq_ok h <;> rfl

theorem eq_withLength_of_resize {v w : Storage α} {n : Int} {a : α} (h : v.resize n a = .ok w) :
    w = v.withLength n a := by
  rw [resize_eq] at h
  obtain ⟨-, -, rfl⟩ := exists_of_map_eq_ok h
  rfl

theorem kind_of_resize {v w : Storage α} {n : Int} {a : α} (h : v.resize n a = .ok w) :
    w.kind = v.kind :=
  eq_withLength_of_resize h ▸ kind_withLength v n a

@[simp]
theorem kind_clear (v : Storage α) : v.clear.kind = v.kind := by
  cases v <;> rfl

@[simp]
theorem kind_reserve (v : Storage α) (additional : Int) : (v.reserve additional).kind = v.kind := by
  cases v <;> rfl

@[simp]
theorem kind_extend (v : Storage α) (elems : List α) : (v.extend elems).kind = v.kind := by
  cases v <;> rfl

@[simp]
theorem kind_extendFrom (v w : Storage α) : (v.extendFrom w).kind = v.kind := by
  cases v <;> rfl

@[simp]
theorem kind_empty (kind : Kind) : (empty kind : Storage α).kind = kind := by
  cases kind <;> rfl

/-- A vector of the kind. -/
def OfKind (α : Type) (kind : Kind) : Type :=
  {v : Storage α // v.kind = kind}

instance (kind : Kind) : Sequence (OfKind α kind) α where
  empty := ⟨empty kind, kind_empty kind⟩
  withCapacity room := ⟨withCapacity kind room, kind_withCapacity kind room⟩
  length v := v.1.length
  toList v := v.1.toList
  capacity v := v.1.capacity
  read v place := v.1.read place
  write v place elem := ⟨v.1.write place elem, (kind_write ..).trans v.2⟩
  clear v := ⟨v.1.clear, (kind_clear _).trans v.2⟩
  truncate v newLength :=
    (attach (v.1.truncate newLength)).map fun w => ⟨w.1, (kind_of_truncate w.2).trans v.2⟩
  resize v newLength elem :=
    (attach (v.1.resize newLength elem)).map fun w => ⟨w.1, (kind_of_resize w.2).trans v.2⟩
  reserve v additional := ⟨v.1.reserve additional, (kind_reserve ..).trans v.2⟩
  push v elem := ⟨v.1.push elem, (kind_push ..).trans v.2⟩
  pop v := (attach v.1.pop).map fun result =>
    (result.1.1, ⟨result.1.2, (kind_of_pop result.2).trans v.2⟩)

/-- A vector among those of its kind. -/
def own (v : Storage α) : OfKind α v.kind := ⟨v, rfl⟩

/-! ### Elements one after the other -/

variable {kind : Kind} {elems : List α}

theorem Holds.inherited_extend {v : OfKind α kind} (h : v.1.Holds kind elems) (more : List α) :
    (Sequence.extend v more).1.Holds kind (elems ++ more.map kind.keeps) := by
  induction more generalizing v elems with
  | nil =>
    rw [List.map_nil, List.append_nil]
    exact h
  | cons a more ih =>
    rw [List.map_cons, List.append_cons]
    exact ih (v := Sequence.push v a) (h.push a)

theorem holds_inherited_ofList (kind : Kind) (elems : List α) :
    (Sequence.ofList elems : OfKind α kind).1.Holds kind (elems.map kind.keeps) := by
  have hempty : (Sequence.empty : OfKind α kind).1.Holds kind [] := holds_empty kind
  exact hempty.inherited_extend elems

theorem Holds.inherited_foldl_extend {v : OfKind α kind} (h : v.1.Holds kind elems)
    (lists : List (List α)) :
    (lists.foldl Sequence.extend v).1.Holds kind (elems ++ lists.flatten.map kind.keeps) := by
  induction lists generalizing v elems with
  | nil =>
    rw [List.flatten_nil, List.map_nil, List.append_nil]
    exact h
  | cons list lists ih =>
    rw [List.flatten_cons, List.map_append, ← List.append_assoc]
    exact ih (h.inherited_extend list)

theorem holds_inherited_concat (kind : Kind) (lists : List (List α)) :
    (Sequence.concat lists : OfKind α kind).1.Holds kind (lists.flatten.map kind.keeps) := by
  have hroom (room : Int) : (Sequence.withCapacity room : OfKind α kind).1.Holds kind [] :=
    holds_withCapacity kind room
  exact (hroom _).inherited_foldl_extend lists

/-! ### Elements of the vector again -/

section Lawful

variable [LawfulElement α]

/-- Elements that a vector reads back are kept as they are. -/
theorem Holds.map_keeps {v : Storage α} (h : v.Holds kind elems) :
    elems.map kind.keeps = elems := by
  obtain ⟨rfl, -, rfl⟩ := h
  exact map_keeps_toList v

theorem Holds.inherited_copy {v : OfKind α kind} (h : v.1.Holds kind elems) :
    (Sequence.copy v).1.Holds kind elems := by
  have hlist : Sequence.toList v = elems := h.toList_eq
  have hofList := holds_inherited_ofList kind elems
  rw [h.map_keeps] at hofList
  rwa [Sequence.copy, hlist]

theorem Holds.inherited_gather {v : OfKind α kind} (h : v.1.Holds kind elems) (places : List Nat)
    (hplaces : ∀ p ∈ places, p < elems.length) :
    (Sequence.gather v (places.map Int.ofNat)).1.Holds kind
      (places.map fun p => elems.getD p Element.blank) := by
  have hreads : ((places.map Int.ofNat).map fun index => v.1.read index.toNat).map kind.keeps =
      places.map fun p => elems.getD p Element.blank := by
    rw [List.map_map, List.map_map]
    refine List.map_congr_left fun p hp => ?_
    have hkept := List.map_inj_left.1 (h.map_keeps.trans (List.map_id elems).symm) _
      (List.getElem_mem (hplaces p hp))
    rw [List.getD_eq_getElem _ _ (hplaces p hp)]
    exact (congrArg kind.keeps (h.read (hplaces p hp))).trans hkept
  have hgather := holds_inherited_ofList kind
    ((places.map Int.ofNat).map fun index => v.1.read index.toNat)
  rwa [hreads] at hgather

theorem Holds.inherited_split {v : OfKind α kind} (h : v.1.Holds kind elems) (size : Int) :
    Agree (List.Forall₂ fun w elems => w.1.Holds kind elems) (Sequence.split v size)
      (if elems.length = 0 then .ok []
        else (checkChunk size).map fun size => chunks size (elems.length / size) elems) := by
  have hlength : Sequence.length v = elems.length := h.length_eq
  have hlist : Sequence.toList v = elems := h.toList_eq
  rw [Sequence.split_eq, hlength, hlist]
  split_ifs
  · exact .ok .nil
  · cases checkChunk size with
    | error e => exact .error e
    | ok size =>
      -- The chunks are elements of the vector, so they are kept as they are.
      have hchunks : (chunks size (elems.length / size) elems).map (List.map kind.keeps) =
          chunks size (elems.length / size) elems := by
        rw [← map_chunks, h.map_keeps]
      refine .ok (List.forall₂_map_left_iff.2 (List.forall₂_same.2 fun chunk hchunk => ?_))
      have hkept := List.map_inj_left.1 (hchunks.trans (List.map_id _).symm) chunk hchunk
      have hofList := holds_inherited_ofList kind chunk
      rwa [hkept] at hofList

end Lawful

theorem Holds.inherited_range {v : OfKind α kind} (h : v.1.Holds kind elems) (start stop : Int) :
    Sequence.range v start stop =
      (checkRange elems.length start stop).map fun (start, stop) =>
        (elems.take stop).drop start := by
  have hlength : Sequence.length v = elems.length := h.length_eq
  have hlist : Sequence.toList v = elems := h.toList_eq
  rw [Sequence.range, hlength, hlist]
  cases checkRange elems.length start stop <;> rfl

theorem Holds.inherited_same {v w : OfKind α kind} {others : List α} (h : v.1.Holds kind elems)
    (hw : w.1.Holds kind others) : Sequence.same v w = sameElems elems others := by
  have hlength : Sequence.length v = elems.length := h.length_eq
  have hlength' : Sequence.length w = others.length := hw.length_eq
  have hlist : Sequence.toList v = elems := h.toList_eq
  have hlist' : Sequence.toList w = others := hw.toList_eq
  rw [Sequence.same, hlength, hlength', hlist, hlist']
  rfl

end Storage

end BoolTensor
