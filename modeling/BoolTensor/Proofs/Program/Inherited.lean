import BoolTensor.Proofs.Program.Histories

/-!
# Instructions with derived bulk operations

A kind of vector may have bulk operations of its own, or it may have those that the contract derives
from its primitives. A program does not tell them apart: it gives the same, and is refused the same,
whether vectors and lists of elements are added, joined, cut, gathered and compared in the one way
or in the other, vectors of other kinds among them, as long as all elements can be counted. Only
where packed vectors are cut into chunks beyond the limits of arrays there is a difference.

## Main definitions

* `VectorStep.runInherited`: an instruction, with the bulk operations that the contract derives
* `Registers.Countable`: the elements of each vector can be counted
* `VectorStep.Inheritable`: the instructions on which both are compared
* `Storage.SameElements`: well-formed vectors of one kind with the same elements
-/

namespace BoolTensor

variable {α : Type} [Element α]

/-! ### Derived operations -/

/-- The comparison that the contract derives; vectors of different kinds are never the same. -/
def Storage.inheritedSame (v w : Storage α) : Bool :=
  if h : w.kind = v.kind then Sequence.same v.own (⟨w, h⟩ : OfKind α v.kind) else false

/-- Moves the elements of the vector `other` onto the end of the vector `target`, one by one. -/
def Bank.inheritedAppend (bank : Bank α) (target other : Handle) : Except Error (Bank α) :=
  if target = other then .error .appendToItself
  else
    let (extended, emptied) := Sequence.append (bank.find target).own (bank.find other).own
    .ok ((bank.replace target extended.1).replace other emptied.1)

/-- What an instruction does where bulk operations are those that the contract derives. -/
def VectorStep.runInherited (step : VectorStep α) (r : Registers α) :
    Except Error (Outcome α × Registers α) :=
  match step with
  | ofList kind elems => .ok (r.addVector (Sequence.ofList elems : Storage.OfKind α kind).1)
  | concat kind parts =>
    let lists := (parts.map r.vector).map Storage.toList
    .ok (r.addVector (Sequence.concat lists : Storage.OfKind α kind).1)
  | split v size =>
    (Sequence.split (r.vector v).own size).map fun parts => r.addVectors (parts.map (·.1))
  | append v other =>
    (r.bank.inheritedAppend v other).map fun bank => (.nothing, { r with bank := bank })
  | extend v elems => .ok (r.replace v (Sequence.extend (r.vector v).own elems).1)
  | extendFrom v other =>
    .ok (r.replace v (Sequence.extend (r.vector v).own (r.vector other).toList).1)
  | copy v => .ok (r.addVector (Sequence.copy (r.vector v).own).1)
  | range v start stop =>
    (Sequence.range (r.vector v).own start stop).map fun elems => (.elements elems, r)
  | gather v indices => .ok (r.addVector (Sequence.gather (r.vector v).own indices).1)
  | same v w => .ok (.truth ((r.vector v).inheritedSame (r.vector w)), r)
  | step => step.run r

/-- The elements of each vector can be counted. -/
def Registers.Countable (r : Registers α) : Prop :=
  ∀ v ∈ r.bank.vectors, v.length ≤ indexLimit

instance (r : Registers α) : Decidable r.Countable :=
  inferInstanceAs (Decidable (∀ v ∈ r.bank.vectors, v.length ≤ indexLimit))

/-- An instruction on countable vectors that keeps to what callers owe, cuts no chunks beyond the
limits of arrays and does not ask for the room that there is. -/
def VectorStep.Inheritable (step : VectorStep α) (r : Registers α) : Prop :=
  step.Proper r ∧ r.Countable ∧ match step with
    | split v size => (r.vector v).kind.SplitFits (r.vector v).length size
    | capacity _ => False
    | _ => True

instance VectorStep.Inheritable.decidable (step : VectorStep α) (r : Registers α) :
    Decidable (step.Inheritable r) :=
  match step with
  | split v size => inferInstanceAs
      (Decidable (_ ∧ _ ∧ (r.vector v).kind.SplitFits (r.vector v).length size))
  | capacity _ => inferInstanceAs (Decidable (_ ∧ _ ∧ False))
  | empty _ | withCapacity _ _ | fromElem _ _ | ofList _ _ | ofArray _ _ | concat _ _ | ofLength _
  | push _ _ | pop _ | get _ _ | set _ _ _ | read _ _ | write _ _ _ | resize _ _ _ | truncate _ _
  | clear _ | reserve _ _ | append _ _ | extend _ _ | extendFrom _ _ | copy _ | isEmpty _
  | length _ | toList _ | range _ _ _ | gather _ _ | same _ _ | render _ | toArray _ =>
    inferInstanceAs (Decidable (_ ∧ _ ∧ True))

/-! ### Vectors with the same elements -/

namespace Storage

/-- Well-formed vectors of one kind with the same elements. -/
structure SameElements (v w : Storage α) : Prop where
  left : v.Holds w.kind w.toList
  right : w.Holds w.kind w.toList

variable {v w : Storage α} {kind : Kind} {elems : List α}

theorem WellFormed.sameElements (hv : v.WellFormed) : v.SameElements v :=
  ⟨hv.holds, hv.holds⟩

namespace SameElements

theorem of_holds (hv : v.Holds kind elems) (hw : w.Holds kind elems) : v.SameElements w := by
  obtain ⟨rfl, hwell, rfl⟩ := hw
  exact ⟨hv, hwell.holds⟩

theorem length_eq (h : v.SameElements w) : v.length = w.length := by
  rw [h.left.length_eq, length_toList]

/-- Plain vectors have their elements and nothing more. -/
theorem eq_of_plain (h : v.SameElements w) (hkind : w.kind = .plain) : v = w := by
  obtain ⟨⟨hv, -, hlist⟩, -⟩ := h
  cases w with
  | plain w =>
    cases v with
    | plain v => exact congrArg (fun cells => plain ⟨cells⟩) (Array.toList_inj.1 hlist)
    | _ => cases hv
  | _ => cases hkind

theorem pop (h : v.SameElements w) :
    Agree (fun x y => x.1 = y.1 ∧ x.2.SameElements y.2) v.pop w.pop := by
  -- Plain vectors are refused for reasons of their own.
  by_cases hkind : w.kind = .plain
  · obtain rfl := h.eq_of_plain hkind
    refine (Agree.refl _).imp ?_
    rintro x _ ⟨rfl, hx⟩
    have hpop := h.right.wellFormed.pop
    rw [hx] at hpop
    exact ⟨rfl, WellFormed.sameElements hpop⟩
  · refine ((h.left.pop hkind).join (h.right.pop hkind)).imp ?_
    rintro x y ⟨⟨last, front⟩, ⟨hx, hv⟩, hy, hw⟩
    exact ⟨hx.trans hy.symm, of_holds hv hw⟩

theorem truncate (h : v.SameElements w) (n : Nat) :
    Agree SameElements (v.truncate n) (w.truncate n) := by
  by_cases hkind : w.kind = .plain
  · obtain rfl := h.eq_of_plain hkind
    refine (Agree.refl _).imp ?_
    rintro x _ ⟨rfl, hx⟩
    have htruncate := h.right.wellFormed.truncate n
    rw [hx] at htruncate
    exact WellFormed.sameElements htruncate
  · exact ((h.left.truncate hkind n).join (h.right.truncate hkind n)).imp fun _ _ ⟨_, hv, hw⟩ =>
      of_holds hv hw

theorem resize (h : v.SameElements w) (n : Nat) (a : α) :
    Agree SameElements (v.resize n a) (w.resize n a) := by
  rw [resize_eq, resize_eq, h.left.kind_eq, h.length_eq]
  exact (Agree.refl _).map fun _ _ _ => of_holds (h.left.withLength n a) (h.right.withLength n a)

theorem get (h : v.SameElements w) (index : Int) : v.get index = w.get index := by
  rw [h.left.get, h.right.get]

theorem set (h : v.SameElements w) (index : Int) (a : α) :
    Agree SameElements (v.set index a) (w.set index a) :=
  ((h.left.set index a).join (h.right.set index a)).imp fun _ _ ⟨_, hv, hw⟩ => of_holds hv hw

theorem render (h : v.SameElements w) : v.render = w.render := by
  obtain ⟨⟨hkind, -, hlist⟩, -⟩ := h
  have hlength : v.length = w.length := by rw [← length_toList, hlist, length_toList]
  have htext : v.kind.title ++ "(" ++ bracketed (v.toList.map Element.text) ++ ")" =
      w.kind.title ++ "(" ++ bracketed (w.toList.map Element.text) ++ ")" := by rw [hkind, hlist]
  cases v with
  | counted v =>
    cases w with
    | counted w => exact congrArg (fun n => render (counted ⟨n⟩ : Storage α)) hlength
    | _ => cases hkind
  | _ =>
    cases w with
    | counted w => cases hkind
    | _ => exact htext

section Lawful

variable [LawfulElement α]

theorem truths (h : v.SameElements w) : v.truths = w.truths := by
  rw [← map_truth_toList, h.left.toList_eq, map_truth_toList]

theorem split (h : v.SameElements w) {size : Int} (hfits : w.kind.SplitFits w.length size) :
    Agree (List.Forall₂ fun part part' => part.SameElements part'.1) (v.split size)
      (Sequence.split w.own size) := by
  rw [← length_toList] at hfits
  have hinherited := Holds.inherited_split (v := w.own) h.right size
  refine ((h.left.split hfits).join hinherited).imp ?_
  rintro parts parts' ⟨chunks, hparts, hparts'⟩
  exact (forall₂_join hparts hparts').imp fun _ _ ⟨_, hv, hw⟩ => of_holds hv hw

theorem gather (h : v.SameElements w) {indices : List Int}
    (hindices : ∀ index ∈ indices, 0 ≤ index ∧ index < w.length) :
    (v.gather indices).SameElements (Sequence.gather w.own indices).1 := by
  lift indices to List Nat using fun index hindex => (hindices index hindex).1
  have hplaces : ∀ p ∈ indices, p < w.toList.length := by
    intro p hp
    rw [length_toList]
    exact Int.ofNat_lt.1 (hindices p (List.mem_map_of_mem hp)).2
  exact of_holds (h.left.gather indices hplaces)
    (Holds.inherited_gather (v := w.own) h.right indices hplaces)

theorem same {v' w' : Storage α} (h : v.SameElements w) (h' : v'.SameElements w') :
    v.same v' = w.inheritedSame w' := by
  rw [inheritedSame]
  split_ifs with hkind
  · have hkinds : v.kind = v'.kind := by rw [h.left.kind_eq, h'.left.kind_eq, hkind]
    rw [same_eq h.left.wellFormed h'.left.wellFormed hkinds, h.left.toList_eq, h'.left.toList_eq]
    have hw' : w'.Holds w.kind w'.toList := ⟨hkind, h'.right.wellFormed, rfl⟩
    exact (Holds.inherited_same (v := w.own) (w := ⟨w', hkind⟩) h.right hw').symm
  · refine same_of_kind_ne fun hkinds => hkind ?_
    rw [← h.left.kind_eq, hkinds, h'.left.kind_eq]

end Lawful

theorem range (h : v.SameElements w) (start stop : Int) :
    Agree (fun elems elems' => elems.get = elems') (v.range start stop)
      (Sequence.range w.own start stop) := by
  refine Agree.of_map_eq (f := Thunk.get) (g := id) ?_
  rw [h.left.range, Holds.inherited_range (v := w.own) h.right]
  exact (id_map _).symm

end SameElements

end Storage

/-! ### One instruction -/

namespace Registers

/-- The vectors of two registers have the same elements, one by one. -/
def SameElements (r s : Registers α) : Prop :=
  r.bank.Corresponds Storage.SameElements s.bank

theorem Padded.sameElements {r : Registers α} (h : r.Padded) : r.SameElements r :=
  ⟨rfl, fun handle _ => (h handle).sameElements⟩

end Registers

namespace Bank.Corresponds

variable {bank other : Bank α}

/-- A handle that names no vector is read as an empty one. -/
theorem sameElements_find (h : bank.Corresponds Storage.SameElements other) (handle : Handle) :
    (bank.find handle).SameElements (other.find handle) := by
  by_cases hhandle : bank.Has handle
  · exact h.find handle hhandle
  · have hother : ¬other.Has handle := fun hother => hhandle (hother.trans_eq h.size_eq.symm)
    rw [find_of_not_has hhandle, find_of_not_has hother]
    exact .of_holds (Storage.holds_empty _) (Storage.holds_empty _)

theorem sameElements_replace (h : bank.Corresponds Storage.SameElements other) (target : Handle)
    {v w : Storage α} (hvw : v.SameElements w) :
    (bank.replace target v).Corresponds Storage.SameElements (other.replace target w) := by
  by_cases htarget : bank.Has target
  · exact h.replace htarget hvw
  · have hother : ¬other.Has target := fun hother => htarget (hother.trans_eq h.size_eq.symm)
    rw [replace_of_not_has htarget, replace_of_not_has hother]
    exact h

variable [LawfulElement α]

theorem inheritedAppend (h : bank.Corresponds Storage.SameElements other) (target source : Handle) :
    Agree (Corresponds Storage.SameElements) (bank.append target source)
      (other.inheritedAppend target source) := by
  rw [Bank.append, Bank.inheritedAppend]
  split_ifs
  · exact .error _
  · have htarget := h.sameElements_find target
    have hsource := h.sameElements_find source
    have hextended := htarget.left.extendFrom_map (bank.find source)
    rw [hsource.left.toList_eq] at hextended
    have hinherited := Storage.Holds.inherited_extend (v := (other.find target).own) htarget.right
      (other.find source).toList
    exact .ok ((h.sameElements_replace target (.of_holds hextended hinherited)).sameElements_replace
      source (.of_holds hsource.left.clear hsource.right.clear))

end Bank.Corresponds

namespace Registers.SameElements

variable {r s : Registers α} {v w : Storage α}

theorem vector (h : r.SameElements s) (handle : Bank.Handle) :
    (r.vector handle).SameElements (s.vector handle) :=
  h.sameElements_find handle

theorem replace (h : r.SameElements s) (handle : Bank.Handle) (hvw : v.SameElements w) :
    SameUpTo SameElements (r.replace handle v) (s.replace handle w) :=
  ⟨rfl, h.sameElements_replace handle hvw⟩

end Registers.SameElements

namespace VectorStep

open Storage

variable [LawfulElement α] {r s : Registers α}

/-- An instruction gives the same with the bulk operations of a kind and with the derived ones. -/
theorem run_inherited (step : VectorStep α) (h : r.SameElements s) (hstep : step.Inheritable s) :
    Agree (SameUpTo Registers.SameElements) (step.run r) (step.runInherited s) := by
  obtain ⟨hproper, -, hlimits⟩ := hstep
  cases step with
  | empty kind => exact .ok (h.addVector (.of_holds (holds_empty kind) (holds_empty kind)))
  | withCapacity kind room =>
    -- Room is checked for by kind and length, which are the same on both sides.
    refine (Agree.refl (checkRoom kind room)).bind fun _ _ _ => .ok (h.addVector ?_)
    exact .of_holds (holds_withCapacity kind room) (holds_withCapacity kind room)
  | fromElem kind a =>
    exact .ok (h.addVector (.of_holds (holds_fromElem kind a) (holds_fromElem kind a)))
  | ofList kind elems =>
    exact .ok (h.addVector
      (.of_holds (holds_ofList kind elems) (holds_inherited_ofList kind elems)))
  | ofArray dims data =>
    refine (Agree.refl (TruthArray.ofInts dims data)).bind ?_
    rintro a _ ⟨rfl, -⟩
    exact .ok (h.addVector (WellFormed.sameElements (Bits.wellFormed_ofList a.data)))
  | concat kind parts =>
    have hlists : (parts.map r.vector).map Storage.toList =
        (parts.map s.vector).map Storage.toList := by
      rw [List.map_map, List.map_map]
      exact List.map_congr_left fun v _ => (h.vector v).left.toList_eq
    have hconcat := holds_concat_map kind (parts.map r.vector)
    rw [hlists] at hconcat
    exact .ok (h.addVector (.of_holds hconcat (holds_inherited_concat kind _)))
  | ofLength count => exact .ok (h.addVector (WellFormed.sameElements trivial))
  | split v size =>
    refine ((h.vector v).split hlimits).map fun parts parts' hparts => h.addVectors ?_
    exact List.forall₂_map_right_iff.2 hparts
  | push v a =>
    have hv := h.vector v
    exact .ok (h.replace v (.of_holds (hv.left.push a) (hv.right.push a)))
  | pop v =>
    exact (h.vector v).pop.map fun _ _ hrest =>
      ⟨congrArg Outcome.element hrest.1, (h.replace v hrest.2).2⟩
  | get v index =>
    have hget := (h.vector v).get index
    exact (Agree.of_map_eq (f := id) (g := id) (congrArg _ hget)).map fun _ _ helem =>
      h.answer (congrArg Outcome.element helem)
  | set v index a => exact ((h.vector v).set index a).map fun _ _ hvw => h.replace v hvw
  | read v place =>
    have hplace : place < (s.vector v).toList.length := by
      rw [length_toList]
      exact hproper
    have hv := h.vector v
    exact .ok (h.answer (congrArg Outcome.element
      ((hv.left.read hplace).trans (hv.right.read hplace).symm)))
  | write v place a =>
    have hplace : place < (s.vector v).toList.length := by
      rw [length_toList]
      exact hproper
    have hv := h.vector v
    exact .ok (h.replace v (.of_holds (hv.left.write hplace a) (hv.right.write hplace a)))
  | resize v newLength a =>
    obtain ⟨n, rfl⟩ := Int.eq_ofNat_of_zero_le hproper
    exact ((h.vector v).resize n a).map fun _ _ hvw => h.replace v hvw
  | truncate v newLength =>
    obtain ⟨n, rfl⟩ := Int.eq_ofNat_of_zero_le hproper
    exact ((h.vector v).truncate n).map fun _ _ hvw => h.replace v hvw
  | clear v =>
    have hv := h.vector v
    exact .ok (h.replace v (.of_holds hv.left.clear hv.right.clear))
  | reserve v additional =>
    have hv := h.vector v
    change Agree _ (checkRoom (r.vector v).kind _ >>= _) (checkRoom (s.vector v).kind _ >>= _)
    rw [hv.left.kind_eq, hv.length_eq]
    refine (Agree.refl _).bind fun _ _ _ => .ok (h.replace v ?_)
    exact .of_holds (hv.left.reserve additional) (hv.right.reserve additional)
  | append v other => exact (h.inheritedAppend v other).map fun _ _ hbanks => ⟨rfl, hbanks⟩
  | extend v elems =>
    have hv := h.vector v
    exact .ok (h.replace v (.of_holds (hv.left.extend elems)
      (Holds.inherited_extend (v := (s.vector v).own) hv.right elems)))
  | extendFrom v other =>
    have hv := h.vector v
    have hextended := hv.left.extendFrom_map (r.vector other)
    rw [(h.vector other).left.toList_eq] at hextended
    exact .ok (h.replace v (.of_holds hextended
      (Holds.inherited_extend (v := (s.vector v).own) hv.right _)))
  | copy v =>
    have hv := h.vector v
    exact .ok (h.addVector (.of_holds hv.left.copy
      (Holds.inherited_copy (v := (s.vector v).own) hv.right)))
  | isEmpty v =>
    have hv := h.vector v
    exact .ok (h.answer (congrArg Outcome.truth
      (hv.left.isEmpty_eq.trans hv.right.isEmpty_eq.symm)))
  | length v => exact .ok (h.answer (congrArg Outcome.count (h.vector v).length_eq))
  | toList v => exact .ok (h.answer (congrArg Outcome.elements (h.vector v).left.toList_eq))
  | range v start stop =>
    exact ((h.vector v).range start stop).map fun _ _ helems =>
      h.answer (congrArg Outcome.elements helems)
  | gather v indices => exact .ok (h.addVector ((h.vector v).gather hproper))
  | same v w => exact .ok (h.answer (congrArg Outcome.truth ((h.vector v).same (h.vector w))))
  | render v => exact .ok (h.answer (congrArg Outcome.text (h.vector v).render))
  | capacity v => exact hlimits.elim
  | toArray v =>
    have hv := h.vector v
    refine .ok (h.answer ?_)
    rw [hv.length_eq, hv.truths]

/-! ### Runs -/

theorem runAll_inherited (steps : List (VectorStep α)) (h : r.SameElements s)
    (hsteps : Along runInherited Inheritable steps s) :
    (runAll (m := Id) run steps r).1 = (runAll (m := Id) runInherited steps s).1 ∧
      (runAll (m := Id) run steps r).2.SameElements (runAll (m := Id) runInherited steps s).2 :=
  runAll_sameUpTo (fun step _ _ => run_inherited step) steps h hsteps

/-- From vectors of any kinds whose elements can be counted, instructions give the same outcomes and
refusals, and leave vectors of the same kinds with the same elements, whether each kind has its own
bulk operations or those that the contract derives from its primitives. -/
theorem runAll_eq_runAll_inherited (h : r.Padded) {steps : List (VectorStep α)}
    (hsteps : Along runInherited Inheritable steps r) :
    let own := runAll (m := Id) run steps r
    let inherited := runAll (m := Id) runInherited steps r
    own.1 = inherited.1 ∧ own.2.bank.vectors.size = inherited.2.bank.vectors.size ∧
      ∀ handle, (own.2.vector handle).kind = (inherited.2.vector handle).kind ∧
        (own.2.vector handle).toList = (inherited.2.vector handle).toList := by
  intro own inherited
  obtain ⟨houtcomes, hregisters⟩ := runAll_inherited steps h.sameElements hsteps
  refine ⟨houtcomes, hregisters.size_eq, fun handle => ?_⟩
  have hvectors := hregisters.vector handle
  exact ⟨hvectors.left.kind_eq, hvectors.left.toList_eq⟩

/-- Scalars of several types in a dense, a packed and a counted vector, which are joined, moved and
cut; a vector is not appended to itself. -/
theorem runAll_eq_runAll_inherited_mixed :
    let steps : List (VectorStep Cell) := [.ofList .dense [.int 3, .text "", .truth true],
      .ofList .packed [.int 0, .null], .ofLength 2, .concat .packed [0, 1, 2], .append 1 0,
      .extendFrom 0 3, .split 3 3, .append 1 1, .gather 3 [6, 0, 4], .copy 1, .range 3 2 5,
      .same 1 0, .concat .counted [0, 3]]
    Along runInherited Inheritable steps .empty ∧
      (runAll (m := Id) run steps .empty).1 = (runAll (m := Id) runInherited steps .empty).1 ∧
      (runAll (m := Id) run steps .empty).1[7]? = some (.error .appendToItself) := by
  intro steps
  have hsteps : Along runInherited Inheritable steps .empty := by decide +kernel
  exact ⟨hsteps, (runAll_eq_runAll_inherited Registers.padded_empty hsteps).1, rfl⟩

/-- Chunks longer than any dimension of an array are refused for packed vectors, where the derived
operation finds that there are none. -/
theorem exists_runAll_ne_inherited : ∃ steps : List (VectorStep Bool),
    steps = [.ofList .packed [true, false, true], .split 0 (2 ^ 63)] ∧
    (runAll (m := Id) run steps .empty).1 = [.ok (.vector 0), .error .dimensionTooLarge] ∧
    (runAll (m := Id) runInherited steps .empty).1 = [.ok (.vector 0), .ok (.vectors [])] :=
  ⟨_, rfl, rfl, rfl⟩

end VectorStep

end BoolTensor
