import BoolTensor.Program.Vector
import BoolTensor.Proofs.Program.Registers
import BoolTensor.Proofs.Storage.Holds

/-!
# Instructions on packed and on dense vectors

A program on vectors of truth values gives the same whether the vectors are packed or dense. Only
where it needs an array beyond the limits, packed vectors refuse what dense ones do.

## Main definitions

* `VectorStep.runAs`: an instruction, with new vectors in one representation
* `VectorStep.Admits`: its operands are there, and no array that packed vectors need passes the
  limits
* `Storage.PackedAs`: a packed vector with the elements of a dense one
-/

namespace BoolTensor

namespace Storage

/-- The first vector is packed, with zeros behind its last element, and has the elements of the
second one, which is dense. -/
structure PackedAs (v w : Storage Bool) : Prop where
  packed : v.Holds .packed w.toList
  dense : w.Holds .dense w.toList

namespace PackedAs

variable {v w v' w' : Storage Bool} {elems : List Bool}

theorem of_holds (hv : v.Holds .packed elems) (hw : w.Holds .dense elems) : v.PackedAs w := by
  obtain rfl := hw.toList_eq
  exact ⟨hv, hw⟩

theorem length_eq (h : v.PackedAs w) : v.length = w.length := by
  rw [h.packed.length_eq, h.dense.length_eq]

theorem pop (h : v.PackedAs w) :
    Agree (fun x y => x.1 = y.1 ∧ x.2.PackedAs y.2) v.pop w.pop := by
  refine ((h.packed.pop nofun).join (h.dense.pop nofun)).imp ?_
  rintro x y ⟨⟨last, front⟩, ⟨hx, hv⟩, hy, hw⟩
  exact ⟨hx.trans hy.symm, of_holds hv hw⟩

theorem exists_bits (h : v.PackedAs w) : ∃ (bits : Bits) (cells : Dense Bool),
    v = .packed bits ∧ bits.WellFormed ∧ w = .dense cells ∧ bits.toList = cells.toList := by
  obtain ⟨⟨hv, hwell, helems⟩, ⟨hw, -, -⟩⟩ := h
  cases v with
  | packed bits =>
    cases w with
    | dense cells => exact ⟨bits, cells, rfl, hwell, rfl, (List.map_id _).symm.trans helems⟩
    | _ => cases hw
  | _ => cases hv

theorem get (h : v.PackedAs w) (index : Int) : Agree Eq (v.get index) (w.get index) := by
  rw [h.packed.get, h.dense.get]
  exact .of_map_eq rfl

theorem set (h : v.PackedAs w) (index : Int) (a : Bool) :
    Agree PackedAs (v.set index a) (w.set index a) :=
  ((h.packed.set index a).join (h.dense.set index a)).imp fun _ _ ⟨_, hv, hw⟩ => of_holds hv hw

theorem truncate (h : v.PackedAs w) (n : Nat) : Agree PackedAs (v.truncate n) (w.truncate n) :=
  ((h.packed.truncate nofun n).join (h.dense.truncate nofun n)).imp fun _ _ ⟨_, hv, hw⟩ =>
    of_holds hv hw

theorem split (h : v.PackedAs w) {size : Int} (hfits : Kind.packed.SplitFits w.length size) :
    Agree (List.Forall₂ PackedAs) (v.split size) (w.split size) := by
  rw [← length_toList] at hfits
  refine ((h.packed.split hfits).join (h.dense.split nofun)).imp ?_
  rintro vs ws ⟨chunks, hvs, hws⟩
  exact (forall₂_join hvs hws).imp fun _ _ ⟨_, hv, hw⟩ => of_holds hv hw

theorem range (h : v.PackedAs w) (start stop : Int) :
    Agree (fun elems elems' => elems.get = elems'.get)
      (v.range start stop) (w.range start stop) := by
  refine .of_map_eq ?_
  rw [h.packed.range, h.dense.range]

theorem gather (h : v.PackedAs w) {indices : List Int}
    (hindices : ∀ index ∈ indices, 0 ≤ index ∧ index < w.length) :
    (v.gather indices).PackedAs (w.gather indices) := by
  lift indices to List Nat using fun index hindex => (hindices index hindex).1
  have hplaces : ∀ p ∈ indices, p < w.toList.length := by
    intro p hp
    rw [length_toList]
    exact Int.ofNat_lt.1 (hindices p (List.mem_map_of_mem hp)).2
  exact of_holds (h.packed.gather indices hplaces) (h.dense.gather indices hplaces)

theorem concat {vs ws : List (Storage Bool)} (h : List.Forall₂ PackedAs vs ws) :
    (concat .packed vs).PackedAs (concat .dense ws) := by
  have hvs : List.Forall₂ (fun v elems => v.Holds .packed elems) vs (ws.map toList) :=
    List.forall₂_map_right_iff.2 (h.imp fun _ _ hvw => hvw.packed)
  have hdense : ∀ w ∈ ws, w.Holds .dense w.toList :=
    ((List.forall₂_and_left _ _).1
      (List.Forall₂.flip (h.imp fun _ _ hvw => (⟨hvw.dense, hvw⟩ : _ ∧ _)))).1
  have hws : List.Forall₂ (fun w elems => w.Holds .dense elems) ws (ws.map toList) :=
    List.forall₂_map_right_iff.2 (List.forall₂_same.2 hdense)
  exact of_holds (holds_concat hvs) (holds_concat hws)

theorem same (h : v.PackedAs w) (h' : v'.PackedAs w') : v.same v' = w.same w' := by
  rw [Bool.eq_iff_iff, h.packed.same_iff h'.packed, h.dense.same_iff h'.dense]

end PackedAs

end Storage

namespace VectorStep

variable {α : Type}

/-- The same instruction, with a new vector in one representation. -/
def ofKind (kind : Kind) : VectorStep α → VectorStep α
  | empty _ => empty kind
  | withCapacity _ room => withCapacity kind room
  | fromElem _ elem => fromElem kind elem
  | ofList _ elems => ofList kind elems
  | concat _ parts => concat kind parts
  | step => step

/-- What an instruction does where new vectors get one representation. -/
def runAs [Element α] (kind : Kind) (step : VectorStep α) (r : Registers α) :
    Except Error (Outcome α × Registers α) :=
  (step.ofKind kind).run r

/-- The operands of an instruction that both representations have are there, and the arrays that
packed vectors need for it are within the limits. -/
def Admits [Element α] (step : VectorStep α) (r : Registers α) : Prop :=
  match step with
  | empty _ | fromElem _ _ | ofList _ _ => True
  | withCapacity _ room => 0 ≤ room ∧ room ≤ packedLimit
  | concat _ parts => ∀ v ∈ parts, r.bank.Has v
  | split v size => r.bank.Has v ∧ Kind.packed.SplitFits (r.vector v).length size
  | read v place | write v place _ => r.bank.Has v ∧ place < (r.vector v).length
  | resize v newLength _ =>
    r.bank.Has v ∧ 0 ≤ newLength ∧ newLength ≤ packedLimit ∧
      newLength - (r.vector v).length ≤ indexLimit
  | truncate v newLength => r.bank.Has v ∧ 0 ≤ newLength
  | reserve v additional =>
    r.bank.Has v ∧ 0 ≤ additional ∧ (r.vector v).length + additional ≤ packedLimit
  | append v w | same v w => r.bank.Has v ∧ r.bank.Has w
  | extendFrom v w => r.bank.Has v ∧ r.bank.Has w ∧ v ≠ w
  | gather v indices =>
    r.bank.Has v ∧ ∀ index ∈ indices, 0 ≤ index ∧ index < (r.vector v).length
  | push v _ | pop v | get v _ | set v _ _ | clear v | extend v _ | copy v | isEmpty v | length v
  | toList v | range v _ _ => r.bank.Has v
  | ofArray _ _ | ofLength _ | render _ | capacity _ | toArray _ => False

instance Admits.decidable [Element α] (step : VectorStep α) (r : Registers α) :
    Decidable (step.Admits r) := by
  cases step <;> (dsimp only [Admits]; infer_instance)

end VectorStep

/-! ### One instruction -/

/-- The vectors of the first registers are packed, and have the elements of the second ones. -/
def Registers.PackedAs (r s : Registers Bool) : Prop :=
  r.bank.Corresponds Storage.PackedAs s.bank

/-- What instructions give is the same, and they leave registers of the same elements. -/
def SameResult (x y : Outcome Bool × Registers Bool) : Prop :=
  x.1 = y.1 ∧ x.2.PackedAs y.2

namespace Registers.PackedAs

variable {r s : Registers Bool} {v w : Storage Bool} {handle other : Bank.Handle}

theorem has (h : r.PackedAs s) (hs : s.bank.Has handle) : r.bank.Has handle :=
  hs.trans_eq h.size_eq.symm

theorem vector (h : r.PackedAs s) (hs : s.bank.Has handle) :
    (r.vector handle).PackedAs (s.vector handle) :=
  h.find handle (h.has hs)

theorem replace (h : r.PackedAs s) (hs : s.bank.Has handle) (hvw : v.PackedAs w) :
    SameResult (r.replace handle v) (s.replace handle w) :=
  ⟨rfl, Bank.Corresponds.replace h (h.has hs) hvw⟩

theorem append (h : r.PackedAs s) (hs : s.bank.Has handle) (hother : s.bank.Has other) :
    Agree (Bank.Corresponds Storage.PackedAs) (r.bank.append handle other)
      (s.bank.append handle other) := by
  rw [Bank.append, Bank.append]
  split_ifs with heq
  · exact .error _
  · have hv := h.vector hs
    have hw := h.vector hother
    have hextended := Bank.Corresponds.replace h (h.has hs)
      (.of_holds (hv.packed.extendFrom hw.packed) (hv.dense.extendFrom hw.dense))
    refine .ok (hextended.replace ?_ (.of_holds hw.packed.clear hw.dense.clear))
    rw [Bank.Has, Bank.size_replace]
    exact h.has hother

end Registers.PackedAs

namespace VectorStep

open Storage

variable {r s : Registers Bool}

/-- An instruction on packed vectors gives what it gives on dense ones. -/
theorem runAs_packed (step : VectorStep Bool) (h : r.PackedAs s) (hstep : step.Admits s) :
    Agree SameResult (step.runAs .packed r) (step.runAs .dense s) := by
  cases step with
  | empty => exact .ok (h.addVector (.of_holds (holds_empty _) (holds_empty _)))
  | withCapacity _ room =>
    -- Only packed vectors check the room, and within the limits they find it.
    obtain ⟨n, rfl⟩ := Int.eq_ofNat_of_zero_le hstep.1
    have hroom : checkRoom .packed n = .ok () := checkRoom_of_le .packed (Int.ofNat_le.1 hstep.2)
    change Agree _ (checkRoom .packed _ >>= _) _
    rw [hroom]
    exact .ok (h.addVector (.of_holds (holds_withCapacity _ _) (holds_withCapacity _ _)))
  | fromElem _ a =>
    exact .ok (h.addVector (.of_holds (holds_fromElem .packed a) (holds_fromElem .dense a)))
  | ofList _ elems =>
    exact .ok (h.addVector (.of_holds (holds_ofList .packed elems) (holds_ofList .dense elems)))
  | concat _ parts =>
    refine .ok (h.addVector (.concat ?_))
    rw [List.forall₂_map_left_iff, List.forall₂_map_right_iff, List.forall₂_same]
    exact fun v hv => h.vector (hstep v hv)
  | split v size =>
    exact ((h.vector hstep.1).split hstep.2).map fun _ _ hvws => h.addVectors hvws
  | push v a =>
    have hv := h.vector hstep
    exact .ok (h.replace hstep (.of_holds (hv.packed.push a) (hv.dense.push a)))
  | pop v =>
    exact (h.vector hstep).pop.map fun _ _ hrest =>
      ⟨congrArg Outcome.element hrest.1, (h.replace hstep hrest.2).2⟩
  | get v index =>
    exact ((h.vector hstep).get index).map fun _ _ helem =>
      h.answer (congrArg Outcome.element helem)
  | set v index a => exact ((h.vector hstep).set index a).map fun _ _ hvw => h.replace hstep hvw
  | read v place =>
    have hv := h.vector hstep.1
    have hplace := length_toList (s.vector v) ▸ hstep.2
    exact .ok (h.answer (congrArg Outcome.element
      ((hv.packed.read hplace).trans (hv.dense.read hplace).symm)))
  | write v place a =>
    have hv := h.vector hstep.1
    have hplace := length_toList (s.vector v) ▸ hstep.2
    exact .ok (h.replace hstep.1 (.of_holds (hv.packed.write hplace a) (hv.dense.write hplace a)))
  | resize v newLength a =>
    obtain ⟨hhas, hnonneg, hroom, hcopies⟩ := hstep
    have hv := h.vector hhas
    obtain ⟨n, rfl⟩ := Int.eq_ofNat_of_zero_le hnonneg
    have hpacked : checkResize .packed (r.vector v).length n = .ok () := by
      rw [checkResize, max_eq_right hnonneg]
      exact checkRoom_of_le .packed (Int.ofNat_le.1 hroom)
    have hdense : checkResize .dense (s.vector v).length n = .ok () := if_pos hcopies
    change Agree _ (((r.vector v).resize n a).map _) (((s.vector v).resize n a).map _)
    rw [resize_eq, resize_eq, hv.packed.kind_eq, hv.dense.kind_eq, hpacked, hdense]
    exact .ok (h.replace hhas (.of_holds (hv.packed.withLength n a) (hv.dense.withLength n a)))
  | truncate v newLength =>
    obtain ⟨n, rfl⟩ := Int.eq_ofNat_of_zero_le hstep.2
    exact ((h.vector hstep.1).truncate n).map fun _ _ hvw => h.replace hstep.1 hvw
  | clear v =>
    have hv := h.vector hstep
    exact .ok (h.replace hstep (.of_holds hv.packed.clear hv.dense.clear))
  | reserve v additional =>
    have hv := h.vector hstep.1
    obtain ⟨n, rfl⟩ := Int.eq_ofNat_of_zero_le hstep.2.1
    have hroom : checkRoom .packed (max 0 ((r.vector v).length + (n : Int))) = .ok () := by
      rw [hv.length_eq, max_eq_right (by omega)]
      exact checkRoom_of_le .packed (Int.ofNat_le.1 hstep.2.2)
    change Agree _ (checkRoom (r.vector v).kind _ >>= _) (checkRoom (s.vector v).kind _ >>= _)
    rw [hv.packed.kind_eq, hv.dense.kind_eq, hroom]
    exact .ok (h.replace hstep.1 (.of_holds (hv.packed.reserve n) (hv.dense.reserve n)))
  | append v w => exact (h.append hstep.1 hstep.2).map fun _ _ hbanks => ⟨rfl, hbanks⟩
  | extend v more =>
    have hv := h.vector hstep
    exact .ok (h.replace hstep (.of_holds (hv.packed.extend more) (hv.dense.extend more)))
  | extendFrom v w =>
    have hv := h.vector hstep.1
    have hw := h.vector hstep.2.1
    exact .ok (h.replace hstep.1
      (.of_holds (hv.packed.extendFrom hw.packed) (hv.dense.extendFrom hw.dense)))
  | copy v =>
    have hv := h.vector hstep
    exact .ok (h.addVector (.of_holds hv.packed.copy hv.dense.copy))
  | isEmpty v =>
    have hv := h.vector hstep
    exact .ok (h.answer (congrArg Outcome.truth
      (hv.packed.isEmpty_eq.trans hv.dense.isEmpty_eq.symm)))
  | length v => exact .ok (h.answer (congrArg Outcome.count (h.vector hstep).length_eq))
  | toList v => exact .ok (h.answer (congrArg Outcome.elements (h.vector hstep).packed.toList_eq))
  | range v start stop =>
    exact ((h.vector hstep).range start stop).map fun _ _ helems =>
      h.answer (congrArg Outcome.elements helems)
  | gather v indices => exact .ok (h.addVector ((h.vector hstep.1).gather hstep.2))
  | same v w =>
    exact .ok (h.answer (congrArg Outcome.truth ((h.vector hstep.1).same (h.vector hstep.2))))
  | ofArray | ofLength | render | capacity | toArray => exact hstep.elim

/-! ### Runs -/

theorem runAll_packed (steps : List (VectorStep Bool)) (h : r.PackedAs s)
    (hsteps : Along (runAs .dense) Admits steps s) :
    (runAll (m := Id) (runAs .packed) steps r).1 = (runAll (m := Id) (runAs .dense) steps s).1 ∧
      (runAll (m := Id) (runAs .packed) steps r).2.PackedAs
        (runAll (m := Id) (runAs .dense) steps s).2 :=
  runAll_sameUpTo (fun step _ _ => runAs_packed step) steps h hsteps

/-- Packed and dense vectors give the same after any number of instructions: the same outcomes and
refusals, and the same elements in each vector. All packed vectors have zeros behind their last
element, and where an instruction is refused no vector is changed. -/
theorem runAll_packed_eq_dense {steps : List (VectorStep Bool)}
    (h : Along (runAs .dense) Admits steps .empty) (n : Nat) :
    let packed (n : Nat) := runAll (m := Id) (runAs .packed) (steps.take n) .empty
    let dense (n : Nat) := runAll (m := Id) (runAs .dense) (steps.take n) .empty
    (packed n).1 = (dense n).1 ∧
    (packed n).2.bank.vectors.size = (dense n).2.bank.vectors.size ∧
    (∀ handle, (packed n).2.bank.Has handle → ∃ bits cells,
      (packed n).2.vector handle = .packed bits ∧ bits.WellFormed ∧
      (dense n).2.vector handle = .dense cells ∧ bits.toList = cells.toList) ∧
    ∀ step e, steps[n]? = some step → runAs .dense step (dense n).2 = .error e →
      runAs .packed step (packed n).2 = .error e ∧
      (packed (n + 1)).2 = (packed n).2 ∧ (dense (n + 1)).2 = (dense n).2 := by
  intro packed dense
  have hempty : Registers.PackedAs .empty .empty := Bank.Corresponds.empty
  obtain ⟨houtcomes, hregisters⟩ := runAll_packed _ hempty (h.split n).1
  refine ⟨houtcomes, hregisters.size_eq, fun handle hhandle =>
    (hregisters.find handle hhandle).exists_bits, fun step e hstep hdense => ?_⟩
  obtain ⟨hn, rfl⟩ := List.getElem?_eq_some_iff.1 hstep
  have htake : steps.take (n + 1) = steps.take n ++ [steps[n]] :=
    List.take_succ_eq_append_getElem hn
  have hagree := runAs_packed steps[n] hregisters (h.getElem hn)
  have hpacked : runAs .packed steps[n] (packed n).2 = .error e := (hdense ▸ hagree).eq_error
  refine ⟨hpacked, ?_, ?_⟩
  · simp only [packed, htake]
    exact runAll_append_of_error _ hpacked
  · simp only [dense, htake]
    exact runAll_append_of_error _ hdense

/-- The empty places that `pop` and `truncate` leave are filled again, and too high an index is
refused. -/
theorem runAll_packed_eq_dense_refused :
    let steps : List (VectorStep Bool) := [.ofList .dense [true, false, true], .pop 0,
      .push 0 false, .resize 0 40 true, .truncate 0 33, .resize 0 34 false, .get 0 34, .split 0 17]
    Along (runAs .dense) Admits steps .empty ∧
      (runAll (m := Id) (runAs .packed) steps .empty).1 =
        (runAll (m := Id) (runAs .dense) steps .empty).1 ∧
      (runAll (m := Id) (runAs .packed) steps .empty).1[6]? =
        some (.error (.indexOutOfRange 34 34)) := by
  intro steps
  have h : Along (runAs .dense) Admits steps .empty := by decide
  exact ⟨h, (runAll_packed_eq_dense h 8).1, rfl⟩

/-- Chunks longer than any dimension of an array are refused for packed vectors alone. -/
theorem exists_runAll_packed_ne_dense : ∃ steps : List (VectorStep Bool),
    steps = [.ofList .dense [true, false, true], .split 0 (2 ^ 63)] ∧
    (runAll (m := Id) (runAs .packed) steps .empty).1 =
      [.ok (.vector 0), .error .dimensionTooLarge] ∧
    (runAll (m := Id) (runAs .dense) steps .empty).1 = [.ok (.vector 0), .ok (.vectors [])] :=
  ⟨_, rfl, rfl, rfl⟩

end VectorStep

end BoolTensor
