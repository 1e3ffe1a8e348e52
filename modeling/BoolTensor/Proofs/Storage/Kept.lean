import BoolTensor.Proofs.Storage.Holds

/-!
# What vectors keep of elements

A vector that takes elements from vectors of other kinds keeps of each what its own kind keeps.
Where the bits and placeholders that are kept read back as what they stand for, a vector keeps what
it reads back, and the comparison of vectors is that of their elements, whichever way a kind goes
about it.

## Main definitions

* `LawfulElement`: element types whose bits and placeholders read back as what they stand for
* `Storage.sameElems`: the comparison of lists of elements, place by place
-/

namespace BoolTensor

/-- A bit reads back with the truth it was kept for, and elements that were kept as bits or as
placeholders are compared by what was kept. -/
class LawfulElement (α : Type) [Element α] : Prop where
  truth_ofTruth (value : Bool) : Element.truth (Element.ofTruth value : α) = value
  same_ofTruth (a b : Bool) :
    Element.same (Element.ofTruth a : α) (Element.ofTruth b : α) = (a == b)
  same_blank : Element.same (Element.blank : α) (Element.blank : α) = true

export LawfulElement (truth_ofTruth same_ofTruth same_blank)

instance : LawfulElement Bool where
  truth_ofTruth _ := rfl
  same_ofTruth _ _ := rfl
  same_blank := rfl

instance : LawfulElement Int where
  truth_ofTruth := by decide
  same_ofTruth := by decide
  same_blank := rfl

instance : LawfulElement Cell where
  truth_ofTruth _ := rfl
  same_ofTruth := by decide
  same_blank := rfl

variable {α : Type} [Element α] [LawfulElement α] {kind : Kind}

theorem ofTruth_injective : Function.Injective (Element.ofTruth : Bool → α) :=
  Function.LeftInverse.injective truth_ofTruth

/-- Only a placeholder loses the truth of an element. -/
theorem Kind.truth_keeps (hkind : kind ≠ .counted) (a : α) :
    Element.truth (kind.keeps a) = Element.truth a := by
  cases kind with
  | packed => exact truth_ofTruth (Element.truth a)
  | counted => exact absurd rfl hkind
  | _ => rfl

namespace Storage

variable {v w : Storage α} {elems : List α}

theorem map_truth_toList (v : Storage α) : v.toList.map Element.truth = v.truths := by
  cases v with
  | packed v =>
    refine (List.map_map ..).trans ((List.map_congr_left fun value _ => ?_).trans (List.map_id _))
    exact truth_ofTruth value
  | _ => rfl

/-- What a vector reads back it keeps. -/
theorem map_keeps_toList (v : Storage α) : v.toList.map v.kind.keeps = v.toList := by
  cases v with
  | packed v =>
    refine (List.map_map ..).trans (List.map_congr_left fun value _ => ?_)
    exact congrArg Element.ofTruth (truth_ofTruth value)
  | counted v => exact List.map_replicate
  | dense v => exact List.map_id _
  | plain v => exact List.map_id _

/-! ### Vectors of other kinds -/

theorem extendFrom_eq (v w : Storage α) : v.extendFrom w = v.extend w.toList := by
  cases v with
  | packed v => exact congrArg (fun bits => packed (v.extend bits)) (map_truth_toList w).symm
  | counted v => exact congrArg (fun n => counted (v.extend n)) (length_toList w).symm
  | _ => rfl

theorem Holds.extendFrom_map (h : v.Holds kind elems) (w : Storage α) :
    (v.extendFrom w).Holds kind (elems ++ w.toList.map kind.keeps) := by
  rw [extendFrom_eq]
  exact h.extend w.toList

/-- The parts may be of any kind; of their elements is kept what the new vector keeps. -/
theorem holds_concat_map (kind : Kind) (parts : List (Storage α)) :
    (concat kind parts).Holds kind ((parts.map toList).flatten.map kind.keeps) := by
  cases kind with
  | dense => exact ⟨rfl, trivial, (toList_concat_dense parts).trans (List.map_id _).symm⟩
  | packed =>
    have htruths : parts.map truths = (parts.map toList).map (List.map Element.truth) := by
      rw [List.map_map]
      exact List.map_congr_left fun v _ => (map_truth_toList v).symm
    refine ⟨rfl, Bits.wellFormed_ofList _, (congrArg (List.map _) (Bits.toList_ofList _)).trans ?_⟩
    rw [htruths, ← List.map_flatten, List.map_map]
    rfl
  | counted =>
    have hlength : (parts.map length).sum = (parts.map toList).flatten.length := by
      rw [List.length_flatten, List.map_map]
      exact congrArg List.sum (List.map_congr_left fun v _ => (length_toList v).symm)
    refine ⟨rfl, trivial, ?_⟩
    exact (congrArg (List.replicate · _) hlength).trans (List.map_const' ..).symm
  | plain => exact ⟨rfl, trivial, (toList_concat_plain parts).trans (List.map_id _).symm⟩

theorem truths_concat (hkind : kind ≠ .counted) (parts : List (Storage α)) :
    (concat kind parts).truths = (parts.map truths).flatten := by
  rw [← map_truth_toList, (holds_concat_map kind parts).toList_eq, List.map_map, List.map_flatten,
    List.map_map]
  refine congrArg List.flatten (List.map_congr_left fun v _ => ?_)
  rw [← map_truth_toList]
  exact List.map_congr_left fun a _ => Kind.truth_keeps hkind a

/-! ### Comparison -/

omit [LawfulElement α] in
theorem same_of_kind_ne (h : v.kind ≠ w.kind) : v.same w = false := by
  cases v <;> cases w <;> first | rfl | exact absurd rfl h

/-- Whether lists have the same elements, place by place. -/
def sameElems (elems others : List α) : Bool :=
  elems.length == others.length && (elems.zip others).all fun (a, b) => Element.same a b

theorem sameElems_map_ofTruth (bits others : List Bool) :
    sameElems (bits.map Element.ofTruth : List α) (others.map Element.ofTruth) =
      decide (bits = others) := by
  have hbits : sameElems bits others = decide (bits = others) := by
    rw [Bool.eq_iff_iff, decide_eq_true_iff]
    exact same_elems_iff
  rw [← hbits, sameElems, sameElems, List.zip_map, List.all_map, List.length_map, List.length_map]
  refine congrArg _ (congrArg (List.all _) (funext fun ab => ?_))
  exact same_ofTruth ab.1 ab.2

theorem sameElems_replicate_blank (n m : Nat) :
    sameElems (List.replicate n (Element.blank : α)) (List.replicate m Element.blank) =
      (n == m) := by
  have hall : ∀ ab ∈ (List.replicate n (Element.blank : α)).zip (List.replicate m Element.blank),
      Element.same ab.1 ab.2 = true := by
    rintro ⟨a, b⟩ hab
    obtain ⟨ha, hb⟩ := List.of_mem_zip hab
    rw [List.eq_of_mem_replicate ha, List.eq_of_mem_replicate hb]
    exact same_blank
  rw [sameElems, List.all_eq_true.2 hall, Bool.and_true, List.length_replicate,
    List.length_replicate]

omit [LawfulElement α] in
theorem sameElems_self (h : ∀ a ∈ elems, Element.same a a = true) :
    sameElems elems elems = true := by
  rw [sameElems, beq_self_eq_true, Bool.true_and]
  induction elems with
  | nil => rfl
  | cons a elems ih =>
    rw [List.forall_mem_cons] at h
    rw [List.zip_cons_cons, List.all_cons]
    exact Bool.and_eq_true_iff.2 ⟨h.1, ih h.2⟩

/-- Vectors of one kind are compared by their elements. -/
theorem same_eq (hv : v.WellFormed) (hw : w.WellFormed) (hkind : v.kind = w.kind) :
    v.same w = sameElems v.toList w.toList := by
  cases v with
  | dense v =>
    cases w with
    | dense w => rfl
    | _ => cases hkind
  | packed v =>
    cases w with
    | packed w =>
      refine Eq.trans ?_ (sameElems_map_ofTruth v.toList w.toList).symm
      rw [Bool.eq_iff_iff, decide_eq_true_iff]
      exact Bits.same_iff hv hw
    | _ => cases hkind
  | counted v =>
    cases w with
    | counted w => exact (sameElems_replicate_blank ..).symm
    | _ => cases hkind
  | plain v =>
    cases w with
    | plain w => rfl
    | _ => cases hkind

/-- Vectors of one kind and with the same elements compare alike with every other. -/
theorem same_congr (hv : v.WellFormed) (hw : w.WellFormed) (hkind : v.kind = w.kind)
    (h : v.toList = w.toList) (u : Storage α) : v.same u = w.same u := by
  cases v with
  | packed v =>
    -- The other vector may have any bits after its last element here.
    cases w with
    | packed w =>
      have hbits : v.toList = w.toList := List.map_injective_iff.2 ofTruth_injective h
      cases u with
      | packed u => exact Bits.same_congr ((Bits.same_iff hv hw).2 hbits) u
      | _ => rfl
    | _ => cases hkind
  | _ =>
    by_cases hu : u.kind = w.kind
    · have hu' : u.WellFormed := wellFormed_of_kind_ne (hu ▸ hkind ▸ nofun)
      rw [same_eq hv hu' (hkind.trans hu.symm), same_eq hw hu' hu.symm, h]
    · rw [same_of_kind_ne (Ne.symm hu), same_of_kind_ne (hkind ▸ Ne.symm hu)]

/-- A vector is the same as itself where each of its elements is. -/
theorem same_self (hv : v.WellFormed) (h : ∀ a ∈ v.toList, Element.same a a = true) :
    v.same v = true := by
  rw [same_eq hv hv rfl]
  exact sameElems_self h

end Storage

end BoolTensor
