import BoolTensor.Program.Vector
import BoolTensor.Proofs.Program.Registers
import BoolTensor.Proofs.Storage.Inherited

/-!
# Vectors with a history

Whatever instructions have been run on a packed vector, with whatever became of other vectors, the
bits after its last element are zero. So the comparison of words is that of elements: how much room
a vector has and what it held before do not show.

## Main definitions

* `VectorStep.Proper`: what a caller owes to the operations that check nothing
* `Bank.Padded`, `Registers.Padded`: each packed vector has zeros after its last element
* `Storage.Arises`: a vector after some instructions
-/

namespace BoolTensor

variable {α : Type} [Element α]

namespace Storage

variable {v w : Storage α} {kind : Kind} {elems : List α}

theorem WellFormed.holds (hv : v.WellFormed) : v.Holds v.kind v.toList :=
  ⟨rfl, hv, rfl⟩

theorem WellFormed.pop (hv : v.WellFormed) :
    Meets (fun result => result.2.WellFormed) (fun _ => True) v.pop := by
  by_cases hkind : v.kind = .packed
  · have hpop := hv.holds.pop (hkind ▸ nofun)
    exact hpop.meets.imp (fun _ ⟨_, _, hw⟩ => hw.wellFormed) fun _ h => h
  · cases h : v.pop with
    | ok result => exact wellFormed_of_kind_ne (kind_of_pop h ▸ hkind)
    | error e => trivial

theorem WellFormed.truncate (hv : v.WellFormed) (n : Nat) :
    Meets WellFormed (fun _ => True) (v.truncate n) := by
  by_cases hkind : v.kind = .packed
  · have htruncate := hv.holds.truncate (hkind ▸ nofun) n
    exact htruncate.meets.imp (fun _ ⟨_, hw⟩ => hw.wellFormed) fun _ h => h
  · cases h : v.truncate n with
    | ok w => exact wellFormed_of_kind_ne (kind_of_truncate h ▸ hkind)
    | error e => trivial

theorem WellFormed.resize (hv : v.WellFormed) (n : Nat) (a : α) :
    Meets WellFormed (fun _ => True) (v.resize n a) := by
  rw [resize_eq]
  exact (Meets.top _).map fun _ _ => (hv.holds.withLength n a).wellFormed

theorem WellFormed.set (hv : v.WellFormed) (index : Int) (a : α) :
    Meets WellFormed (fun _ => True) (v.set index a) :=
  (hv.holds.set index a).meets.imp (fun _ ⟨_, hw⟩ => hw.wellFormed) fun _ h => h

/-- Chunks are packed anew. -/
theorem wellFormed_split (v : Storage α) (size : Int) :
    Meets (fun parts => ∀ part ∈ parts, part.WellFormed) (fun _ => True) (v.split size) :=
  forall_mem_split (fun _ => trivial) Bits.wellFormed_ofList (fun _ => trivial)
    (fun _ => trivial) v size

end Storage

namespace Bank

variable {bank : Bank α} {v : Storage α}

/-- Each packed vector has zeros after its last element. -/
def Padded (bank : Bank α) : Prop :=
  ∀ handle, (bank.find handle).WellFormed

namespace Padded

theorem add (h : bank.Padded) (hv : v.WellFormed) : (bank.add v).1.Padded :=
  fun handle => of_find_add hv (h handle)

theorem replace (h : bank.Padded) (target : Handle) (hv : v.WellFormed) :
    (bank.replace target v).Padded := by
  by_cases htarget : bank.Has target
  · intro handle
    rw [find_replace htarget]
    split_ifs
    · exact hv
    · exact h handle
  · rw [replace_of_not_has htarget]
    exact h

theorem foldl_add (h : bank.Padded) {vs : List (Storage α)} (hvs : ∀ v ∈ vs, v.WellFormed) :
    (vs.foldl (fun bank v => (bank.add v).1) bank).Padded :=
  fun handle => of_find_foldl_add hvs (h handle)

theorem append [LawfulElement α] (h : bank.Padded) (target other : Handle) :
    Meets Padded (fun _ => True) (bank.append target other) := by
  rw [Bank.append]
  split_ifs
  · trivial
  · have hextended := (h target).holds.extendFrom_map (bank.find other)
    exact (h.replace target hextended.wellFormed).replace other (h other).holds.clear.wellFormed

end Padded

end Bank

namespace Registers

variable {r : Registers α} {v : Storage α}

/-- Each packed vector has zeros after its last element. -/
def Padded (r : Registers α) : Prop :=
  r.bank.Padded

theorem padded_empty : (empty : Registers α).Padded :=
  fun _ => trivial

namespace Padded

theorem vector (h : r.Padded) (handle : Bank.Handle) : (r.vector handle).WellFormed :=
  h handle

theorem addVector (h : r.Padded) (hv : v.WellFormed) : (r.addVector v).2.Padded :=
  h.add hv

theorem addVectors (h : r.Padded) {vs : List (Storage α)} (hvs : ∀ v ∈ vs, v.WellFormed) :
    (r.addVectors vs).2.Padded :=
  h.foldl_add hvs

theorem replace (h : r.Padded) (handle : Bank.Handle) (hv : v.WellFormed) :
    (r.replace handle v).2.Padded :=
  Bank.Padded.replace h handle hv

theorem after (h : r.Padded) {x : Except Error (Outcome α × Registers α)}
    (hx : Meets (fun result => result.2.Padded) (fun _ => True) x) : (r.after x).Padded := by
  cases x with
  | ok result => exact hx
  | error e => exact h

end Padded

end Registers

namespace VectorStep

/-- What a caller owes to the operations that check nothing: places are there, lengths are not
negative, and no vector is extended while its own elements are read. -/
def Proper (step : VectorStep α) (r : Registers α) : Prop :=
  match step with
  | read v place | write v place _ => place < (r.vector v).length
  | resize _ newLength _ | truncate _ newLength => 0 ≤ newLength
  | extendFrom v other => v ≠ other
  | gather v indices => ∀ index ∈ indices, 0 ≤ index ∧ index < (r.vector v).length
  | _ => True

instance Proper.decidable (step : VectorStep α) (r : Registers α) : Decidable (step.Proper r) :=
  match step with
  | read v place | write v place _ => inferInstanceAs (Decidable (place < (r.vector v).length))
  | resize _ newLength _ | truncate _ newLength => inferInstanceAs (Decidable (0 ≤ newLength))
  | extendFrom v other => inferInstanceAs (Decidable (v ≠ other))
  | gather v indices => inferInstanceAs
      (Decidable (∀ index ∈ indices, 0 ≤ index ∧ index < (r.vector v).length))
  | empty _ | withCapacity _ _ | fromElem _ _ | ofList _ _ | ofArray _ _ | concat _ _ | ofLength _
  | split _ _ | push _ _ | pop _ | get _ _ | set _ _ _ | clear _ | reserve _ _ | append _ _
  | extend _ _ | copy _ | isEmpty _ | length _ | toList _ | range _ _ _ | same _ _ | render _
  | capacity _ | toArray _ => inferInstanceAs (Decidable True)

variable [LawfulElement α] {r : Registers α}

open Storage

/-- An instruction leaves zeros after the last element of each packed vector. -/
theorem padded_run (step : VectorStep α) (h : r.Padded) (hstep : step.Proper r) :
    Meets (fun result => result.2.Padded) (fun _ => True) (step.run r) := by
  cases step with
  | empty kind => exact h.addVector (holds_empty kind).wellFormed
  | withCapacity kind room =>
    exact (Meets.top _).bind fun _ _ => h.addVector (wellFormed_withCapacity kind room)
  | fromElem kind a => exact h.addVector (wellFormed_fromElem kind a)
  | ofList kind elems => exact h.addVector (wellFormed_ofList kind elems)
  | ofArray dims data =>
    exact (Meets.top _).bind fun _ _ => h.addVector (Bits.wellFormed_ofList _)
  | concat kind parts => exact h.addVector (holds_concat_map kind _).wellFormed
  | ofLength count => exact h.addVector trivial
  | split v size =>
    exact (wellFormed_split (r.vector v) size).map fun _ hparts => h.addVectors hparts
  | push v a => exact h.replace v ((h.vector v).push a)
  | pop v => exact (h.vector v).pop.map fun _ hrest => h.replace v hrest
  | get v index => exact (Meets.top _).map fun _ _ => h
  | set v index a => exact ((h.vector v).set index a).map fun _ hw => h.replace v hw
  | read => exact h
  | write v place a => exact h.replace v ((h.vector v).write hstep a)
  | resize v newLength a =>
    obtain ⟨n, rfl⟩ := Int.eq_ofNat_of_zero_le hstep
    exact ((h.vector v).resize n a).map fun _ hw => h.replace v hw
  | truncate v newLength =>
    obtain ⟨n, rfl⟩ := Int.eq_ofNat_of_zero_le hstep
    exact ((h.vector v).truncate n).map fun _ hw => h.replace v hw
  | clear v => exact h.replace v (h.vector v).holds.clear.wellFormed
  | reserve v additional =>
    have hreserved := (h.vector v).holds.reserve additional
    exact (Meets.top _).bind fun _ _ => h.replace v hreserved.wellFormed
  | append v other => exact (h.append v other).map fun _ hbank => hbank
  | extend v elems => exact h.replace v ((h.vector v).holds.extend elems).wellFormed
  | extendFrom v other =>
    exact h.replace v ((h.vector v).holds.extendFrom_map (r.vector other)).wellFormed
  | copy v => exact h.addVector (h.vector v).holds.copy.wellFormed
  | range v start stop => exact (Meets.top _).map fun _ _ => h
  | gather v indices => exact h.addVector (wellFormed_gather (r.vector v) indices)
  | isEmpty | length | toList | same | render | capacity | toArray => exact h

theorem padded_runAll (steps : List (VectorStep α)) (h : r.Padded)
    (hsteps : Along run Proper steps r) : (runAll (m := Id) run steps r).2.Padded := by
  induction steps generalizing r with
  | nil => exact h
  | cons step steps ih =>
    rw [runAll_cons]
    exact ih (h.after (padded_run step h hsteps.1)) hsteps.2

end VectorStep

/-! ### Comparison -/

namespace Storage

open VectorStep

/-- The vector is one of those that some instructions leave, run one after the other. -/
def Arises (v : Storage α) : Prop :=
  ∃ (steps : List (VectorStep α)) (handle : Bank.Handle), Along run Proper steps .empty ∧
    (runAll (m := Id) run steps .empty).2.bank.Has handle ∧
    (runAll (m := Id) run steps .empty).2.vector handle = v

variable [LawfulElement α]

theorem Arises.wellFormed {v : Storage α} (h : v.Arises) : v.WellFormed := by
  obtain ⟨steps, handle, hsteps, -, rfl⟩ := h
  exact padded_runAll steps Registers.padded_empty hsteps handle

omit [LawfulElement α] in
theorem toList_eq_iff {v w : Storage α} : v.toList = w.toList ↔
    v.length = w.length ∧ ∀ p : Nat, p < v.length → v.get p = w.get p := by
  constructor
  · intro h
    have hlength : v.length = w.length := by rw [← length_toList, h, length_toList]
    refine ⟨hlength, fun p hp => ?_⟩
    rw [get_of_lt hp, get_of_lt (hlength ▸ hp), h]
  · rintro ⟨hlength, hget⟩
    refine List.ext_getElem (by rw [length_toList, length_toList, hlength]) fun p hp hp' => ?_
    have hplace : p < v.length := by rwa [length_toList] at hp
    have helem := hget p hplace
    rw [get_of_lt hplace, get_of_lt (hlength ▸ hplace)] at helem
    rw [← List.getD_eq_getElem _ Element.blank hp, ← List.getD_eq_getElem _ Element.blank hp']
    exact Except.ok.inj helem

/-- The comparison of words is that of elements. -/
theorem same_iff_of_packed {v w : Storage α} (hv : v.Arises) (hw : w.Arises)
    (hkind : v.kind = .packed) (hkind' : w.kind = .packed) :
    v.same w = true ↔ v.toList = w.toList := by
  have hwell := hv.wellFormed
  have hwell' := hw.wellFormed
  cases v with
  | packed v =>
    cases w with
    | packed w =>
      exact (Bits.same_iff hwell hwell').trans
        (List.map_injective_iff.2 ofTruth_injective).eq_iff.symm
    | _ => cases hkind'
  | _ => cases hkind

/-- A vector that holds the same elements compares with any vector as this one does, on either
side. -/
theorem Holds.same_eq_same {u v w : Storage α} {kind : Kind} {elems : List α}
    (hu : u.Holds kind elems) (hv : v.Holds kind elems) (hw : w.WellFormed) :
    u.same w = v.same w ∧ w.same u = w.same v := by
  have hkind : u.kind = v.kind := hu.kind_eq.trans hv.kind_eq.symm
  have hlist : u.toList = v.toList := hu.toList_eq.trans hv.toList_eq.symm
  refine ⟨same_congr hu.wellFormed hv.wellFormed hkind hlist w, ?_⟩
  by_cases hw' : w.kind = v.kind
  · rw [same_eq hw hu.wellFormed (hw'.trans hkind.symm), same_eq hw hv.wellFormed hw', hlist]
  · rw [same_of_kind_ne hw', same_of_kind_ne (hkind ▸ hw')]

/-- Two packed vectors, whatever their histories, are the same just where they have the same length
and the same element at every place. So the comparison is an equivalence, neither room nor copying
changes it, and a vector packed from the truth of the elements of another is the same as that. -/
theorem packed_same_iff :
    (∀ v w : Storage α, v.Arises → w.Arises → v.kind = .packed → w.kind = .packed →
      (v.same w = true ↔ v.length = w.length ∧ ∀ p : Nat, p < v.length → v.get p = w.get p)) ∧
    (Equivalence fun v w : {v : Storage α // v.Arises ∧ v.kind = .packed} => v.1.same w.1 = true) ∧
    (∀ v w : Storage α, v.Arises → w.Arises → v.kind = .packed → w.kind = .packed →
      (∀ n, (v.reserve n).same w = v.same w ∧ w.same (v.reserve n) = w.same v) ∧
      v.copy.same w = v.same w ∧ w.same v.copy = w.same v) ∧
    ∀ v : Storage α, v.Arises → v.kind = .packed →
      (packed (.ofArray v.truths.toArray)).same v = true := by
  have hsame (v w : {v : Storage α // v.Arises ∧ v.kind = .packed}) :
      v.1.same w.1 = true ↔ v.1.toList = w.1.toList :=
    same_iff_of_packed v.2.1 w.2.1 v.2.2 w.2.2
  refine ⟨fun v w hv hw hkind hkind' => ?_, ⟨fun v => ?_, fun {v w} h => ?_,
    fun {u v w} h h' => ?_⟩, fun v w hv hw hkind hkind' => ?_, fun v hv hkind => ?_⟩
  · exact (same_iff_of_packed hv hw hkind hkind').trans toList_eq_iff
  · exact (hsame v v).2 rfl
  · exact (hsame w v).2 ((hsame v w).1 h).symm
  · exact (hsame u w).2 (((hsame u v).1 h).trans ((hsame v w).1 h'))
  · have hholds := hv.wellFormed.holds
    exact ⟨fun n => (hholds.reserve n).same_eq_same hholds hw.wellFormed,
      hholds.copy.same_eq_same hholds hw.wellFormed⟩
  · have hwell := hv.wellFormed
    cases v with
    | packed v =>
      refine (Bits.same_iff (Bits.wellFormed_ofList v.toList) hwell).2 ?_
      exact Bits.toList_ofList v.toList
    | _ => cases hkind

/-- A vector that was longer and has room for more is the same as one that was packed at once. -/
theorem packed_same_iff_truncated : ∃ v w : Storage Bool, v.Arises ∧ w.Arises ∧
    v.capacity = 192 ∧ w.capacity = 32 ∧ v.same w = true := by
  let steps : List (VectorStep Bool) := [.ofList .packed [true, false, true], .resize 0 70 true,
    .split 0 (2 ^ 63), .pop 0, .truncate 0 2, .reserve 0 100]
  let others : List (VectorStep Bool) := [.ofArray [1, 2] [true, false]]
  have hv : Arises ((runAll (m := Id) run steps .empty).2.vector 0) :=
    ⟨steps, 0, by decide, by decide, rfl⟩
  have hw : Arises ((runAll (m := Id) run others .empty).2.vector 0) :=
    ⟨others, 0, by decide, by decide, rfl⟩
  refine ⟨_, _, hv, hw, by decide +kernel, by decide +kernel, ?_⟩
  exact (packed_same_iff.1 _ _ hv hw rfl rfl).2 ⟨by decide +kernel, by decide +kernel⟩

end Storage

end BoolTensor
