import San.Redefinition

/-! # The frame of an assignment

An assignment `dst = rvalue` to a whole local runs through a long list of clears, carries facts over
from what it reads, and ends in one of a dozen arms.  All of this writes the entries of `dst`, and
those of a local it moves from.  `EntriesKept x s t` says that no entry keyed by `x` has changed;
every stage keeps the entries of every other local, and `assignment_frame` adds what happens to the
pairs, to the aliases of `dst`, and to the fields that are not keyed by locals.
-/
namespace San

/-! ## Entries keyed by a local -/

/-- **Every entry keyed by `x`** is the same in both states, the owners it aliases apart. -/
structure EntriesKept (x : Local) (s t : BlockState) : Prop where
  pointsTo : t.pointsTo.get x = s.pointsTo.get x
  localProto : t.localProto.get x = s.localProto.get x
  init : t.init.get x = s.init.get x
  facts : ∀ k, (t.facts k).get x = (s.facts k).get x
  pairFacts : ∀ k, (t.pairFacts k).get x = (s.pairFacts k).get x
  constFacts : ∀ k, (t.constFacts k).get x = (s.constFacts k).get x
  mustSets : ∀ k, x ∈ t.mustSets k ↔ x ∈ s.mustSets k
  maySets : ∀ k, x ∈ t.maySets k ↔ x ∈ s.maySets k
  fnPtrTargets : t.fnPtrTargets.get x = s.fnPtrTargets.get x
  constUpper : t.constUpper.get x = s.constUpper.get x
  constLower : t.constLower.get x = s.constLower.get x
  arrayComponents : t.arrayComponents.get x = s.arrayComponents.get x
  fieldOwned : ∀ f, t.fieldOwned.get (x, f) = s.fieldOwned.get (x, f)
  muRawPtr : t.muRawPtr.get x = s.muRawPtr.get x
  muFieldInits : t.muFieldInits.get x = s.muFieldInits.get x
  activeVariant : t.activeVariant.get x = s.activeVariant.get x

section Maps
variable {x src dst : Local} {isMove : Bool} {V : Type}

theorem mem_propagateSet_iff (hdst : x ≠ dst) (hsrc : isMove = true → x ≠ src)
    (m : Finset Local) : x ∈ propagateSet src dst isMove m ↔ x ∈ m := by
  have hinsert : x ∈ insert dst m ↔ x ∈ m := by rw [Finset.mem_insert, or_iff_right hdst]
  unfold propagateSet
  split
  · cases isMove with
    | false => exact hinsert
    | true => exact (Finset.mem_erase.trans (and_iff_right (hsrc rfl))).trans hinsert
  · exact Iff.rfl

theorem get_propagateMap_of_ne (hdst : x ≠ dst) (hsrc : isMove = true → x ≠ src)
    (m : FMap Local V) : (propagateMap src dst isMove m).get x = m.get x := by
  unfold propagateMap
  split
  · cases isMove with
    | false => exact FMap.get_insert_of_ne _ _ hdst
    | true => exact (FMap.get_erase_of_ne _ (hsrc rfl)).trans (FMap.get_insert_of_ne _ _ hdst)
  · rfl

theorem get_transferMap_of_ne (hdst : x ≠ dst) (hsrc : isMove = true → x ≠ src)
    (m : FMap Local V) : (transferMap src dst isMove m).get x = m.get x := by
  unfold transferMap
  split
  · cases isMove with
    | false => exact FMap.get_insert_of_ne _ _ hdst
    | true => exact (FMap.get_erase_of_ne _ (hsrc rfl)).trans (FMap.get_insert_of_ne _ _ hdst)
  · exact FMap.get_erase_of_ne _ hdst

theorem mem_moveSet_iff (hdst : x ≠ dst) (hsrc : x ≠ src) (m : Finset Local) :
    x ∈ moveSet src dst m ↔ x ∈ m := by
  have herase : x ∈ m.erase src ↔ x ∈ m := Finset.mem_erase.trans (and_iff_right hsrc)
  unfold moveSet
  split
  · rw [Finset.mem_insert, or_iff_right hdst, herase]
  · rw [Finset.mem_erase, and_iff_right hdst, herase]

theorem mem_copySet_iff (hdst : x ≠ dst) (src : Local) (m : Finset Local) :
    x ∈ copySet src dst m ↔ x ∈ m := by
  unfold copySet
  split
  · rw [Finset.mem_insert, or_iff_right hdst]
  · rw [Finset.mem_erase, and_iff_right hdst]

theorem get_moveKey_of_ne (hdst : x ≠ dst) (hsrc : x ≠ src) (m : FMap Local V) :
    (m.moveKey src dst).get x = m.get x := by
  rw [FMap.get_moveKey, if_neg hdst, if_neg hsrc]

theorem get_copyKey_of_ne (h : x ≠ dst) (src : Local) (m : FMap Local V) :
    (m.copyKey src dst).get x = m.get x := by
  rw [FMap.get_copyKey, if_neg h]

end Maps

namespace EntriesKept
variable {x l : Local} {s t u : BlockState}

theorem refl (x : Local) (s : BlockState) : EntriesKept x s s :=
  ⟨rfl, rfl, rfl, fun _ => rfl, fun _ => rfl, fun _ => rfl, fun _ => Iff.rfl, fun _ => Iff.rfl, rfl,
    rfl, rfl, rfl, fun _ => rfl, rfl, rfl, rfl⟩

theorem trans (h : EntriesKept x s t) (h' : EntriesKept x t u) : EntriesKept x s u where
  pointsTo := h'.pointsTo.trans h.pointsTo
  localProto := h'.localProto.trans h.localProto
  init := h'.init.trans h.init
  facts k := (h'.facts k).trans (h.facts k)
  pairFacts k := (h'.pairFacts k).trans (h.pairFacts k)
  constFacts k := (h'.constFacts k).trans (h.constFacts k)
  mustSets k := (h'.mustSets k).trans (h.mustSets k)
  maySets k := (h'.maySets k).trans (h.maySets k)
  fnPtrTargets := h'.fnPtrTargets.trans h.fnPtrTargets
  constUpper := h'.constUpper.trans h.constUpper
  constLower := h'.constLower.trans h.constLower
  arrayComponents := h'.arrayComponents.trans h.arrayComponents
  fieldOwned f := (h'.fieldOwned f).trans (h.fieldOwned f)
  muRawPtr := h'.muRawPtr.trans h.muRawPtr
  muFieldInits := h'.muFieldInits.trans h.muFieldInits
  activeVariant := h'.activeVariant.trans h.activeVariant

/-! ### Updates -/

theorem onFacts (h : EntriesKept x s t) (ks : List Fact) {f : FMap Local Local → FMap Local Local}
    (hf : ∀ m, (f m).get x = m.get x) : EntriesKept x s (t.onFacts ks f) := by
  refine { h with facts := fun k => ?_ }
  rw [← h.facts k]
  dsimp only [BlockState.onFacts]
  split
  · exact hf _
  · rfl

theorem onPairFacts (h : EntriesKept x s t) (ks : List PairFact)
    {f : FMap Local (Local × Local) → FMap Local (Local × Local)}
    (hf : ∀ m, (f m).get x = m.get x) : EntriesKept x s (t.onPairFacts ks f) := by
  refine { h with pairFacts := fun k => ?_ }
  rw [← h.pairFacts k]
  dsimp only [BlockState.onPairFacts]
  split
  · exact hf _
  · rfl

theorem onConstFacts (h : EntriesKept x s t) (ks : List ConstFact)
    {f : FMap Local (Local × U64) → FMap Local (Local × U64)}
    (hf : ∀ m, (f m).get x = m.get x) : EntriesKept x s (t.onConstFacts ks f) := by
  refine { h with constFacts := fun k => ?_ }
  rw [← h.constFacts k]
  dsimp only [BlockState.onConstFacts]
  split
  · exact hf _
  · rfl

theorem onMustSets (h : EntriesKept x s t) (ks : List MustSet) {f : Finset Local → Finset Local}
    (hf : ∀ m, x ∈ f m ↔ x ∈ m) : EntriesKept x s (t.onMustSets ks f) := by
  refine { h with mustSets := fun k => ?_ }
  rw [← h.mustSets k]
  dsimp only [BlockState.onMustSets]
  split
  · exact hf _
  · rfl

theorem onMaySets (h : EntriesKept x s t) (ks : List MaySet) {f : Finset Local → Finset Local}
    (hf : ∀ m, x ∈ f m ↔ x ∈ m) : EntriesKept x s (t.onMaySets ks f) := by
  refine { h with maySets := fun k => ?_ }
  rw [← h.maySets k]
  dsimp only [BlockState.onMaySets]
  split
  · exact hf _
  · rfl

theorem onMustPairs (h : EntriesKept x s t) (ks : List MustPairs)
    (f : Finset (Local × Local) → Finset (Local × Local)) :
    EntriesKept x s (t.onMustPairs ks f) := { h with }

/-! ### Updates of another local -/

section Other
variable (hx : x ≠ l)
include hx

theorem eraseFacts (h : EntriesKept x s t) (ks : List Fact) :
    EntriesKept x s (t.onFacts ks (·.erase l)) := h.onFacts ks fun m => FMap.get_erase_of_ne m hx

theorem eraseMust (h : EntriesKept x s t) (ks : List MustSet) :
    EntriesKept x s (t.onMustSets ks (·.erase l)) :=
  h.onMustSets ks fun _ => Finset.mem_erase.trans (and_iff_right hx)

theorem eraseMay (h : EntriesKept x s t) (ks : List MaySet) :
    EntriesKept x s (t.onMaySets ks (·.erase l)) :=
  h.onMaySets ks fun _ => Finset.mem_erase.trans (and_iff_right hx)

theorem insertFact (h : EntriesKept x s t) (k : Fact) (v : Local) :
    EntriesKept x s (t.insertFact k l v) := h.onFacts [k] fun m => FMap.get_insert_of_ne m v hx

theorem insertMust (h : EntriesKept x s t) (k : MustSet) : EntriesKept x s (t.insertMust k l) :=
  h.onMustSets [k] fun _ => Finset.mem_insert.trans (or_iff_right hx)

theorem insertMay (h : EntriesKept x s t) (k : MaySet) : EntriesKept x s (t.insertMay k l) :=
  h.onMaySets [k] fun _ => Finset.mem_insert.trans (or_iff_right hx)

theorem setObjects (h : EntriesKept x s t) (o : Option (Finset ObjectId)) :
    EntriesKept x s (t.setObjects l o) :=
  { h with pointsTo := (FMap.get_put_of_ne hx o).trans h.pointsTo }

theorem dropProto (h : EntriesKept x s t) : EntriesKept x s (t.dropProto l) :=
  { h with localProto := (FMap.get_erase_of_ne _ hx).trans h.localProto }

theorem clearInit (h : EntriesKept x s t) : EntriesKept x s (t.clearInit l) :=
  { h with init := (FMap.get_erase_of_ne _ hx).trans h.init }

theorem clearScalarFacts (h : EntriesKept x s t) : EntriesKept x s (t.clearScalarFacts l) :=
  ((h.clearInit hx).eraseFacts hx Fact.comparisons).eraseMust hx MustSet.scalar

theorem clearBounds (h : EntriesKept x s t) : EntriesKept x s (t.clearBounds l) :=
  { h with
    constUpper := (FMap.get_erase_of_ne _ hx).trans h.constUpper
    constLower := (FMap.get_erase_of_ne _ hx).trans h.constLower
    arrayComponents := (FMap.get_erase_of_ne _ hx).trans h.arrayComponents }

theorem clearParts (h : EntriesKept x s t) : EntriesKept x s (t.clearParts l) :=
  { h with
    activeVariant := (FMap.get_erase_of_ne _ hx).trans h.activeVariant
    muRawPtr := (FMap.get_erase_of_ne _ hx).trans h.muRawPtr
    muFieldInits := (FMap.get_erase_of_ne _ hx).trans h.muFieldInits }

theorem clearFieldOwnedFor (h : EntriesKept x s t) : EntriesKept x s (t.clearFieldOwnedFor l) := by
  refine { h with fieldOwned := fun f => ?_ }
  rw [← h.fieldOwned f]
  show ((t.fieldOwned.retain fun key _ => key.1 ≠ l).get (x, f)) = _
  rw [FMap.get_retain]
  cases t.fieldOwned.get (x, f) with
  | none => rfl
  | some objs => exact if_pos (decide_eq_true hx)

/-- **The clears of a redefinition** touch no other local. -/
theorem clearRedefined (h : EntriesKept x s t) : EntriesKept x s (t.clearRedefined l) := by
  have hfacts := h.eraseFacts hx Fact.derived
  have hpairs := hfacts.onPairFacts PairFact.all fun m => FMap.get_erase_of_ne m hx
  have hconst := hpairs.onConstFacts ConstFact.all fun m => FMap.get_erase_of_ne m hx
  have hmust := hconst.eraseMust hx MustSet.derived
  have hmustPairs := hmust.onMustPairs MustPairs.all (·.filter fun p => p.1 ≠ l ∧ p.2 ≠ l)
  exact (hmustPairs.eraseMay hx [.fdConsumed]).clearBounds hx

theorem clearAssigned (h : EntriesKept x s t) : EntriesKept x s (t.clearAssigned l) :=
  ((h.eraseMay hx [.constPtrCast, .mulOverflow, .layoutOverflow]).clearParts hx).clearFieldOwnedFor
    hx

theorem setActiveVariant (h : EntriesKept x s t) (f : FieldIdx) :
    EntriesKept x s (t.setActiveVariant l f) :=
  { h with activeVariant := (FMap.get_insert_of_ne _ f hx).trans h.activeVariant }

theorem setConstant (h : EntriesKept x s t) (val : U64) : EntriesKept x s (t.setConstant l val) :=
  { h with
    constUpper := (FMap.get_insert_of_ne _ val hx).trans h.constUpper
    constLower := (FMap.get_insert_of_ne _ val hx).trans h.constLower }

theorem boundAboveBy (h : EntriesKept x s t) (o : Option U64) :
    EntriesKept x s (t.boundAboveBy l o) := by
  cases o with
  | none => exact h
  | some ub => exact { h with constUpper := (FMap.get_insert_of_ne _ _ hx).trans h.constUpper }

theorem setComponents (h : EntriesKept x s t) (cs : List Local) :
    EntriesKept x s (San.setComponents l cs t) :=
  { h with arrayComponents := (FMap.get_insert_of_ne _ cs hx).trans h.arrayComponents }

theorem enforceTypeFacts (h : EntriesKept x s t) (tcx : TyCtxt) (ty : Ty) :
    EntriesKept x s (San.enforceTypeFacts tcx l ty t) := by
  unfold San.enforceTypeFacts
  split
  · exact (h.insertMust hx .nonzero).boundAboveBy hx _
  · exact h.boundAboveBy hx _

/-- What most arms do to their destination. -/
theorem resetTo (h : EntriesKept x s t) (o : Option (Finset ObjectId)) :
    EntriesKept x s (((t.setObjects l o).dropProto l).clearScalarFacts l) :=
  ((h.setObjects hx o).dropProto hx).clearScalarFacts hx

end Other

theorem invalidateOwner (h : EntriesKept x s t) (owner : Local) :
    EntriesKept x s (t.invalidateOwner owner) := by
  unfold BlockState.invalidateOwner BlockState.invalidateOwners
  split
  · exact h
  · exact { h with }

/-! ## The stages of an assignment -/

section Stages
variable {dst : Local} (hdst : x ≠ dst)
include hdst

theorem redefine (h : EntriesKept x s t) (body : Body) (rvalue : Rvalue) :
    EntriesKept x s (San.redefine body dst rvalue t) := by
  have hlookup : EntriesKept x s
      (updateFnPtrTarget dst rvalue (updateOwnerAlias body dst rvalue t)) :=
    { h with fnPtrTargets := (FMap.get_put_of_ne hdst _).trans h.fnPtrTargets }
  exact (hlookup.clearRedefined hdst).clearAssigned hdst

theorem recordRefBase (h : EntriesKept x s t) (rvalue : Rvalue) :
    EntriesKept x s (San.recordRefBase dst rvalue t) := by
  unfold San.recordRefBase
  split
  · exact h.insertFact hdst .refBase _
  · exact h.insertFact hdst .refBase _
  · exact h

theorem recordLenOf (h : EntriesKept x s t) (rvalue : Rvalue) :
    EntriesKept x s (San.recordLenOf dst rvalue t) := by
  unfold San.recordLenOf
  split
  · split
    · exact h.insertFact hdst .lenOf _
    · exact h
  · exact h

theorem propagateUse (h : EntriesKept x s t) {src : Local} {isMove : Bool}
    (hsrc : isMove = true → x ≠ src) : EntriesKept x s (San.propagateUse src dst isMove t) := by
  have hmust := h.onMustSets MustSet.derived (mem_propagateSet_iff hdst hsrc)
  have hmay := hmust.onMaySets [.fdConsumed, .mulOverflow, .layoutOverflow]
    (mem_propagateSet_iff hdst hsrc)
  have hfacts := hmay.onFacts [.castOrigin] (get_propagateMap_of_ne hdst hsrc)
  exact { hfacts with
    activeVariant := (get_transferMap_of_ne hdst hsrc _).trans hfacts.activeVariant
    muRawPtr := (get_transferMap_of_ne hdst hsrc _).trans hfacts.muRawPtr
    muFieldInits := (get_transferMap_of_ne hdst hsrc _).trans hfacts.muFieldInits
    arrayComponents := (get_propagateMap_of_ne hdst hsrc _).trans hfacts.arrayComponents
    constUpper := (get_propagateMap_of_ne hdst hsrc _).trans hfacts.constUpper
    constLower := (get_propagateMap_of_ne hdst hsrc _).trans hfacts.constLower }

theorem assignMove (h : EntriesKept x s t) {src : Local} (hsrc : x ≠ src) :
    EntriesKept x s (San.assignMove src dst t) := by
  have htracked : EntriesKept x s (moveTracked src dst t) := { h with
    pointsTo := ((FMap.get_put_of_ne hdst _).trans (FMap.get_erase_of_ne _ hsrc)).trans h.pointsTo
    localProto := ((FMap.get_put_of_ne hdst _).trans (FMap.get_erase_of_ne _ hsrc)).trans h.localProto
    init := (get_moveKey_of_ne hdst hsrc _).trans h.init }
  have hfacts := htracked.onFacts Fact.comparisons (get_moveKey_of_ne hdst hsrc)
  exact (hfacts.onMustSets MustSet.scalar (mem_moveSet_iff hdst hsrc)).onMaySets [.constPtrCast]
    (mem_moveSet_iff hdst hsrc)

theorem assignCopy (h : EntriesKept x s t) (src : Local) :
    EntriesKept x s (San.assignCopy src dst t) := by
  have htracked : EntriesKept x s (copyTracked src dst t) := { h with
    pointsTo := (get_copyKey_of_ne hdst src _).trans h.pointsTo
    localProto := (get_copyKey_of_ne hdst src _).trans h.localProto
    init := (get_copyKey_of_ne hdst src _).trans h.init }
  have hfacts := htracked.onFacts Fact.comparisons (get_copyKey_of_ne hdst src)
  exact (hfacts.onMustSets MustSet.scalar (mem_copySet_iff hdst src)).onMaySets [.constPtrCast]
    (mem_copySet_iff hdst src)

theorem assignFieldRead (h : EntriesKept x s t) (src : Place) :
    EntriesKept x s (San.assignFieldRead src dst t) :=
  (h.resetTo hdst _).onMaySets [.mulOverflow] (mem_copySet_iff hdst src.base)

theorem assignAggregate (h : EntriesKept x s t) (tcx : TyCtxt) (kind : AggregateKind)
    (operands : List Operand) : EntriesKept x s (San.assignAggregate tcx kind operands dst t) := by
  have hreset := h.resetTo hdst (nonempty (some ((operands.filterMap operandLocal).foldr
    (fun l objs => t.objectsFor l ∪ objs) ∅)))
  unfold San.assignAggregate
  dsimp only
  split
  · split
    · exact hreset
    · exact hreset.setActiveVariant hdst _
  · exact hreset
  · exact hreset
  · split
    · exact hreset.setComponents hdst _
    · exact hreset
  · split
    · exact hreset.setComponents hdst _
    · exact hreset

theorem assignPtrCast (h : EntriesKept x s t) (body : Body) (src : Local) (ty : Ty) :
    EntriesKept x s (San.assignPtrCast body src dst ty t) := by
  have hobjs := h.setObjects hdst (t.pointsTo.get src)
  unfold San.assignPtrCast
  dsimp only
  split
  · exact ((hobjs.insertMay hdst .constPtrCast).dropProto hdst).clearScalarFacts hdst
  · exact (hobjs.dropProto hdst).clearScalarFacts hdst

theorem assignNumericCast (h : EntriesKept x s t) (kind : CastKind) (src : Local) (ty : Ty) :
    EntriesKept x s (San.assignNumericCast kind src dst ty t) := by
  have hcast := h.insertFact hdst .castOrigin src
  unfold San.assignNumericCast
  dsimp only
  split
  · have hmax := hcast.boundAboveBy hdst (uintTypeMax ty)
    split
    · exact (hmax.insertMust hdst .nonzero).boundAboveBy hdst _
    · exact hmax.boundAboveBy hdst _
  · exact hcast

theorem assignConstant (h : EntriesKept x s t) (c : Const) :
    EntriesKept x s (San.assignConstant c dst t) := by
  unfold San.assignConstant
  dsimp only
  split
  · split
    · exact ((h.insertMust hdst .nonzero).setConstant hdst _).resetTo hdst none
    · exact ((h.eraseMust hdst [.nonzero]).setConstant hdst _).resetTo hdst none
  · exact h.resetTo hdst none

/-! ### Binary operations -/

theorem setComparison (h : EntriesKept x s t) (k : Fact) (lhs : Option Local) :
    EntriesKept x s (San.setComparison t k dst lhs) :=
  (h.eraseFacts hdst Fact.comparisons).onFacts [k] fun _ => FMap.get_put_of_ne hdst lhs

theorem putFor (h : EntriesKept x s t) (k : PairFact) (o : Option (Local × Local)) :
    EntriesKept x s (t.onPairFacts [k] (·.put dst o)) :=
  h.onPairFacts [k] fun _ => FMap.get_put_of_ne hdst o

theorem recordSpare (h : EntriesKept x s t) (kind : Fact) (op1 op2 : Operand) (capFirst : Bool) :
    EntriesKept x s (San.recordSpare kind dst op1 op2 capFirst t) := by
  unfold San.recordSpare
  split
  · dsimp only
    split
    · split
      · exact h.insertFact hdst kind _
      · exact h
    · exact h
  · exact h

theorem recordFull (h : EntriesKept x s t) (kind : Fact) (op1 op2 : Operand) :
    EntriesKept x s (San.recordFull kind dst op1 op2 t) := by
  unfold San.recordFull
  split
  · split
    · exact h.insertFact hdst kind _
    · exact h
  · exact h

theorem recordConst (h : EntriesKept x s t) (kind : ConstFact) (o : Option Local) (k : Option U64) :
    EntriesKept x s (San.recordConst kind dst o k t) := by
  unfold San.recordConst
  split
  · exact h.onConstFacts [kind] fun m => FMap.get_insert_of_ne m _ hdst
  · exact h

theorem recordNonzero (h : EntriesKept x s t) (o : Option Local) (k : Option U64)
    (p : U64 → Bool) : EntriesKept x s (San.recordNonzero dst o k p t) := by
  unfold San.recordNonzero
  split
  · split
    · exact h.insertFact hdst .nonzeroIfTrue _
    · exact h
  · exact h

theorem recordPair (h : EntriesKept x s t) (kind : PairFact) (op1 op2 : Operand) :
    EntriesKept x s (San.recordPair kind dst op1 op2 t) := by
  unfold San.recordPair
  split
  · exact h.onPairFacts [kind] fun m => FMap.get_insert_of_ne m _ hdst
  · exact h

theorem compareEq (h : EntriesKept x s t) (full onZero : Fact) (pair : PairFact)
    (op1 op2 : Operand) : EntriesKept x s (San.compareEq full onZero pair dst op1 op2 t) := by
  have hfull := (h.eraseFacts hdst Fact.comparisons).recordFull hdst full op1 op2
  unfold San.compareEq
  dsimp only
  split
  · exact (hfull.insertFact hdst onZero _).recordPair hdst pair op1 op2
  · exact hfull.recordPair hdst pair op1 op2

theorem boundArith (h : EntriesKept x s t) (f : Nat → Nat → Nat) (op1 op2 : Operand) :
    EntriesKept x s (San.boundArith f dst op1 op2 t) := by
  unfold San.boundArith
  split
  · rename_i a b _ _
    have hbound := h.boundAboveBy hdst (some (toU64 (f a.val b.val)))
    dsimp only
    split
    · exact hbound.insertMay hdst .mulOverflow
    · exact hbound.eraseMay hdst [.mulOverflow]
  · exact h.insertMay hdst .mulOverflow

theorem clearComparisons (h : EntriesKept x s t) : EntriesKept x s (San.clearComparisons dst t) :=
  h.eraseFacts hdst Fact.comparisons

/-- **A binary operation** writes facts about its result only. -/
theorem recordBinaryOp (h : EntriesKept x s t) (body : Body) (op : BinOp) (op1 op2 : Operand) :
    EntriesKept x s (San.recordBinaryOp body op op1 op2 dst t) := by
  have hsum := h.boundArith hdst (· + ·) op1 op2
  have hproduct := h.boundArith hdst (· * ·) op1 op2
  have hbound := (h.boundAboveBy hdst (binaryUpper op t op1 op2)).clearComparisons hdst
  cases op with
  | lt =>
    have hfor := h.putFor hdst .ltFor (boundedFor t op1 op2)
    have hlt := (hfor.setComparison hdst .ltFacts (operandLocal op1)).recordSpare hdst
      .spareIfTrue op1 op2 false
    exact ((hlt.recordConst hdst .constLt _ _).recordConst hdst .constGt _ _).recordNonzero hdst _ _ _
  | ge =>
    have hge := (h.setComparison hdst .geFacts (operandLocal op1)).recordSpare hdst
      .spareIfFalse op1 op2 false
    exact ((hge.recordConst hdst .constGe _ _).recordNonzero hdst _ _ _).recordConst hdst .constLe _ _
  | le =>
    have hfor := h.putFor hdst .leFor (boundedFor t op1 op2)
    have hle := (hfor.setComparison hdst .leFacts (operandLocal op1)).recordSpare hdst
      .spareIfFalse op1 op2 true
    exact ((hle.recordConst hdst .constLe _ _).recordConst hdst .constGe _ _).recordNonzero hdst _ _ _
  | gt =>
    have hgt := (h.setComparison hdst .gtFacts (operandLocal op1)).recordSpare hdst
      .spareIfTrue op1 op2 true
    exact ((hgt.recordConst hdst .constGt _ _).recordNonzero hdst _ _ _).recordConst hdst .constLt _ _
  | eq => exact h.compareEq hdst _ _ _ op1 op2
  | ne => exact h.compareEq hdst _ _ _ op1 op2
  | bitOr =>
    unfold San.recordBinaryOp
    dsimp only
    split
    · exact (h.insertMust hdst .nonzero).clearComparisons hdst
    · exact h.clearComparisons hdst
  | bitAnd => exact hbound
  | rem => exact hbound
  | shr => exact hbound
  | mul => exact hproduct.clearComparisons hdst
  | add =>
    unfold San.recordBinaryOp
    dsimp only
    split
    · exact hsum.clearComparisons hdst
    · exact h.clearComparisons hdst
  | mulWithOverflow => exact hproduct
  | addWithOverflow =>
    unfold San.recordBinaryOp
    dsimp only
    split
    · exact hsum
    · exact h
  | _ => exact h.clearComparisons hdst

theorem assignBinaryOp (h : EntriesKept x s t) (body : Body) (op : BinOp) (op1 op2 : Operand) :
    EntriesKept x s (San.assignBinaryOp body op op1 op2 dst t) := by
  have hdrop := (h.setObjects hdst (offsetObjects op op1 op2 t)).dropProto hdst
  exact ((hdrop.clearInit hdst).eraseMust hdst MustSet.scalar).recordBinaryOp hdst body op op1 op2

end Stages

theorem clearTracking (h : EntriesKept x s t) (hx : x ≠ l) :
    EntriesKept x s (San.clearTracking l t) := h.resetTo hx none

theorem consumeField (h : EntriesKept x s t) {src : Place} (hsrc : x ≠ src.base) :
    EntriesKept x s (San.consumeField src t) := by
  unfold San.consumeField
  split
  · refine { h with fieldOwned := fun f => ?_ }
    exact (FMap.get_erase_of_ne _ fun heq => hsrc (congrArg Prod.fst heq)).trans (h.fieldOwned f)
  · exact h

end EntriesKept

/-! ## The whole assignment -/

/-- The root of the place that an operand moves from. -/
def Operand.movedRoot : Operand → Option Local
  | .move p => some p.base
  | _ => none

/-- The roots of the places that an rvalue moves from. -/
def Rvalue.movedRoots : Rvalue → List Local
  | .use op => op.movedRoot.toList
  | .cast _ op _ => op.movedRoot.toList
  | .binaryOp _ op1 op2 => [op1, op2].filterMap Operand.movedRoot
  | .unaryOp _ op => op.movedRoot.toList
  | .aggregate _ operands => operands.filterMap Operand.movedRoot
  | _ => []

theorem Rvalue.ne_of_use_move {x : Local} {p : Place} (h : x ∉ (Rvalue.use (.move p)).movedRoots) :
    x ≠ p.base := fun hx => h (hx ▸ List.mem_cons_self)

namespace EntriesKept
variable {x dst : Local} {rvalue : Rvalue} {s t : BlockState} (hdst : x ≠ dst)
  (hmoved : x ∉ rvalue.movedRoots)
include hdst hmoved

theorem propagateRvalue (h : EntriesKept x s t) :
    EntriesKept x s (San.propagateRvalue dst rvalue t) := by
  unfold San.propagateRvalue
  split
  · split
    · exact h.propagateUse hdst fun _ => Rvalue.ne_of_use_move hmoved
    · exact h
  · split
    · exact h.propagateUse hdst nofun
    · exact h
  · exact h

theorem assignUnknown (h : EntriesKept x s t) : EntriesKept x s (San.assignUnknown rvalue dst t) := by
  have hclear := h.clearTracking hdst
  unfold San.assignUnknown
  dsimp only
  split
  · have hsrc := Rvalue.ne_of_use_move hmoved
    split
    · exact hclear
    · exact (hclear.consumeField hsrc).clearTracking hsrc
  · exact hclear

/-- **Every arm of an assignment** keeps the entries of the locals it does not move from. -/
theorem assignRvalue (h : EntriesKept x s t) (tcx : TyCtxt) (body : Body) :
    EntriesKept x s (San.assignRvalue tcx body dst rvalue t) := by
  have hunknown := h.assignUnknown hdst hmoved
  unfold San.assignRvalue
  split
  · exact h.assignConstant hdst _
  · split
    · exact h.assignMove hdst (Rvalue.ne_of_use_move hmoved)
    · split
      · exact h.assignFieldRead hdst _
      · exact hunknown
  · split
    · exact h.assignCopy hdst _
    · split
      · exact h.assignFieldRead hdst _
      · exact hunknown
  · exact h.resetTo hdst _
  · exact h.resetTo hdst _
  · exact h.resetTo hdst _
  · exact h.assignAggregate hdst tcx _ _
  · split
    · split
      · exact h.assignPtrCast hdst body _ _
      · split
        · exact h.assignNumericCast hdst _ _ _
        · exact hunknown
    · exact hunknown
  · exact h.assignBinaryOp hdst body _ _ _
  · exact hunknown

theorem assignLocal (h : EntriesKept x s t) (tcx : TyCtxt) (body : Body) :
    EntriesKept x s (San.assignLocal tcx body dst rvalue t) := by
  have hcleared := (h.redefine hdst body rvalue).recordRefBase hdst rvalue
  have hlen := (hcleared.propagateRvalue hdst hmoved).recordLenOf hdst rvalue
  exact (hlen.assignRvalue hdst hmoved tcx body).enforceTypeFacts hdst tcx _

end EntriesKept

/-- The owners of another local lose the one that is assigned to. -/
theorem assignLocal_ownerAlias (tcx : TyCtxt) (body : Body) {dst x : Local} (rvalue : Rvalue)
    (hx : x ≠ dst) (s : BlockState) :
    (assignLocal tcx body dst rvalue (s.invalidateOwner dst)).ownerAlias.get x =
      nonempty ((s.ownerAlias.get x).map (·.erase dst)) := by
  have hlater : (assignLocal tcx body dst rvalue (s.invalidateOwner dst)).ownerAlias =
      (redefine body dst rvalue (s.invalidateOwner dst)).ownerAlias :=
    assignLocal_redefined _ tcx body dst rvalue .ownerAlias (by decide)
  have hset : (redefine body dst rvalue (s.invalidateOwner dst)).ownerAlias.get x =
      (s.invalidateOwner dst).ownerAlias.get x := FMap.get_put_of_ne hx _
  rw [hlater, hset]
  unfold BlockState.invalidateOwner BlockState.invalidateOwners
  rw [if_neg (Finset.singleton_ne_empty dst), FMap.get_filterMap]
  cases s.ownerAlias.get x with
  | none => rfl
  | some owners =>
    show (if owners \ {dst} = ∅ then none else some (owners \ {dst})) = _
    rw [Finset.sdiff_singleton_eq_erase]
    unfold nonempty
    by_cases hempty : owners.erase dst = ∅
    · rw [if_pos hempty, Option.map_some, hempty]
      rfl
    · have hkept : decide (owners.erase dst ≠ ∅) = true := decide_eq_true hempty
      rw [if_neg hempty, Option.map_some]
      exact (if_pos hkept).symm

/-- **The frame of an assignment** `dst = rvalue` to a whole local.  The fields that are not keyed
by locals stay as they are, and so do the reallocated parameters.  Of the pairs exactly those that
contain `dst` are dropped, and none is added.  And every local other than `dst` that the rvalue does
not move from keeps all its entries, except that `dst` leaves the owners it aliases, and these are
dropped if none is left. -/
theorem assignment_frame (tcx : TyCtxt) (body : Body) (s : BlockState) (dst : Local)
    (rvalue : Rvalue) (span : Span) :
    let t := applyStatement tcx body ⟨.assign (Place.ofLocal dst) rvalue, span⟩ s
    (t.heap = s.heap ∧ t.typestate = s.typestate ∧
      t.maySets .reallocedParams = s.maySets .reallocedParams ∧
      t.threadSpawned = s.threadSpawned ∧ t.untrackedForgetSeen = s.untrackedForgetSeen) ∧
    (∀ k, t.mustPairs k = (s.mustPairs k).filter fun p => p.1 ≠ dst ∧ p.2 ≠ dst) ∧
    ∀ x, x ≠ dst → x ∉ rvalue.movedRoots →
      EntriesKept x s t ∧
        t.ownerAlias.get x = nonempty ((s.ownerAlias.get x).map (·.erase dst)) := by
  intro t
  have ht : t = assignLocal tcx body dst rvalue (s.invalidateOwner dst) :=
    applyStatement_assign tcx body rfl s
  have hw : Writes Field.assignable s t := by
    rw [ht]
    exact ((s.invalidateOwners_writes {dst}).mono (by decide)).trans
      (assignLocal_assignable _ tcx body dst rvalue)
  refine ⟨⟨hw .heap (by decide), hw .typestate (by decide),
    hw (.maySet .reallocedParams) (by decide), hw .threadSpawned (by decide),
    hw .untrackedForgetSeen (by decide)⟩, fun k => applyStatement_mustPairs tcx body rfl s k,
    fun x hx hmoved => ?_⟩
  rw [ht]
  exact ⟨((EntriesKept.refl x s).invalidateOwner dst).assignLocal hx hmoved tcx body,
    assignLocal_ownerAlias tcx body rvalue hx s⟩

end San
