import San.State
import San.DefPaths

/-! # The transfer function of a statement

`applyStatement` follows `apply_statement` line by line.  An assignment to a
projected place only moves ownership around; an assignment to a whole local first
forgets everything known about the local and then re-establishes what the rvalue
proves.  Each arm of the source's `match rvalue` is a definition of its own.

Updates that the source writes out at every use are named here: `setObjects`,
`clearScalarFacts` (the nine `remove` lines that end most arms), `clearRedefined`
(what an assignment and a call have in common), `boundAbove` and `boundBelow` (the
`entry(..).or_insert(..)` updates of the constant bounds).
-/
namespace San

/-! ## Operands and places -/

/-- The whole local an operand names, if it names one. -/
def operandLocal : Operand → Option Local
  | .move p => if p.isLocal then some p.base else none
  | .copy p => if p.isLocal then some p.base else none
  | .constant _ => none

def rvalueLocal : Rvalue → Option Local
  | .use op => operandLocal op
  | _ => none

/-- The bits of a scalar constant, if they fit 64 bits. -/
def Const.toU64 (c : Const) : Option U64 :=
  c.scalarInt.bind fun bits => if h : bits.val < 2 ^ 64 then some ⟨bits.val, h⟩ else none

def constU64 : Operand → Option U64
  | .constant c => c.toU64
  | _ => none

/-- The last field of a projection with at most a leading dereference. -/
def lastSimpleFieldIdx (projection : List ProjectionElem) : Option FieldIdx :=
  if projection.tail.any ProjectionElem.isDeref then none
  else projection.reverse.findSome? fun
    | .field f _ => some f
    | _ => none

/-- `core`, `alloc` and `std` unions are not tracked. -/
def isStdCrate (krate : String) : Bool := ["core", "alloc", "std"].contains krate

def Ty.unionAdt : Ty → Option AdtDef
  | .adt a => if a.isUnion then some a else none
  | _ => none

/-- A field of a user-defined union, directly or behind one pointer. -/
def directUnionFieldAccess (tcx : TyCtxt) (body : Body) (place : Place) :
    Option (Local × FieldIdx) :=
  let unionAdt := match body.localTy place.base with
    | .rawPtr inner _ => inner.unionAdt
    | .ref inner _ => inner.unionAdt
    | ty => ty.unionAdt
  unionAdt.bind fun adt =>
    if isStdCrate (tcx.crateName adt.did) then none
    else (lastSimpleFieldIdx place.projection).map fun f => (place.base, f)

/-- Is `l` a parameter? -/
def isParam (body : Body) (l : Local) : Bool :=
  decide (1 ≤ l.index.val) && decide (l.index.val ≤ body.argCount)

def isReferenceParam (body : Body) (l : Local) : Bool := isParam body l && (body.localTy l).isRef

/-! ## Type facts -/

def u64Max : U64 := ⟨2 ^ 64 - 1, by decide⟩

/-- The largest value of an unsigned type. -/
def uintTypeMax : Ty → Option U64
  | .bool => some 1
  | .char => some ⟨0x10FFFF, by decide⟩
  | .uint .u8 => some ⟨2 ^ 8 - 1, by decide⟩
  | .uint .u16 => some ⟨2 ^ 16 - 1, by decide⟩
  | .uint .u32 => some ⟨2 ^ 32 - 1, by decide⟩
  | .uint .u64 => some u64Max
  | .uint .usize => some u64Max
  | _ => none

def tyIsNonzero (tcx : TyCtxt) : Ty → Bool
  | .adt a => contains (tcx.defPathStr a.did) "NonZero" || contains (tcx.defPathStr a.did) "NonNull"
  | _ => false

/-! ## Named updates -/

/-- Keep a set only if it is not empty. -/
def nonempty {α : Type} [DecidableEq α] (o : Option (Finset α)) : Option (Finset α) :=
  o.filter fun s => decide (s ≠ ∅)

/-- The comparison temporaries' facts. -/
def Fact.comparisons : List Fact := [.ltFacts, .geFacts, .leFacts, .gtFacts]

/-- The facts that every redefinition of a local drops. -/
def Fact.derived : List Fact :=
  [.refBase, .lenOf, .capOf, .spareIfTrue, .spareIfFalse, .fullIfTrue, .fullIfFalse,
    .nonzeroIfTrue, .nonzeroIfFalse, .finiteIfTrue, .nanIfTrue, .castOrigin]

/-- The must-sets that every redefinition of a local drops. -/
def MustSet.derived : List MustSet := [.hasSpare, .isFull, .nonzero, .finite, .fdOrigin]

/-- The must-sets cleared with the comparison facts. -/
def MustSet.scalar : List MustSet := [.bufWritten, .bounded, .boundedOrEq]

namespace BlockState

/-- Point `l` to `o`, or to nothing tracked. -/
def setObjects (s : BlockState) (l : Local) (o : Option (Finset ObjectId)) : BlockState :=
  { s with pointsTo := s.pointsTo.put l o }

/-- Let `l` alias the owners `o`, or none. -/
def setOwners (s : BlockState) (l : Local) (o : Option (Finset Local)) : BlockState :=
  { s with ownerAlias := s.ownerAlias.put l o }

def dropProto (s : BlockState) (l : Local) : BlockState :=
  { s with localProto := s.localProto.erase l }

def clearInit (s : BlockState) (l : Local) : BlockState := { s with init := s.init.erase l }

def insertInit (s : BlockState) (l : Local) : BlockState :=
  { s with init := s.init.insert l .initialized }

/-- Forget that `l` is initialized, written to, compared or bounded. -/
def clearScalarFacts (s : BlockState) (l : Local) : BlockState :=
  ((s.clearInit l).onFacts Fact.comparisons (·.erase l)).onMustSets MustSet.scalar (·.erase l)

/-- Forget the constant bounds and the components of `l`. -/
def clearBounds (s : BlockState) (l : Local) : BlockState :=
  { s with
    constUpper := s.constUpper.erase l
    constLower := s.constLower.erase l
    arrayComponents := s.arrayComponents.erase l }

/-- Forget what a redefinition of `l` makes stale, whether by an assignment or by a
call. -/
def clearRedefined (s : BlockState) (l : Local) : BlockState :=
  let s := s.onFacts Fact.derived (·.erase l)
  let s := s.onPairFacts PairFact.all (·.erase l)
  let s := s.onConstFacts ConstFact.all (·.erase l)
  let s := s.onMustSets MustSet.derived (·.erase l)
  let s := s.onMustPairs MustPairs.all (·.filter fun p => p.1 ≠ l ∧ p.2 ≠ l)
  let s := s.onMaySets [.fdConsumed] (·.erase l)
  s.clearBounds l

/-- Forget what `l` held as a union, as a `MaybeUninit` or as a pointer into one. -/
def clearParts (s : BlockState) (l : Local) : BlockState :=
  { s with
    activeVariant := s.activeVariant.erase l
    muRawPtr := s.muRawPtr.erase l
    muFieldInits := s.muFieldInits.erase l }

/-- Forget what only an assignment to `l` makes stale. -/
def clearAssigned (s : BlockState) (l : Local) : BlockState :=
  let s := s.onMaySets [.constPtrCast, .mulOverflow, .layoutOverflow] (·.erase l)
  (s.clearParts l).clearFieldOwnedFor l

def insertFact (s : BlockState) (k : Fact) (l v : Local) : BlockState :=
  s.onFacts [k] (·.insert l v)

def insertMust (s : BlockState) (k : MustSet) (l : Local) : BlockState :=
  s.onMustSets [k] (insert l)

def insertMay (s : BlockState) (k : MaySet) (l : Local) : BlockState :=
  s.onMaySets [k] (insert l)

/-- Record the union field written last. -/
def setActiveVariant (s : BlockState) (l : Local) (f : FieldIdx) : BlockState :=
  { s with activeVariant := s.activeVariant.insert l f }

/-- Record the value of a constant. -/
def setConstant (s : BlockState) (l : Local) (val : U64) : BlockState :=
  { s with
    constUpper := s.constUpper.insert l val
    constLower := s.constLower.insert l val }

def boundAbove (s : BlockState) (l : Local) (ub : U64) : BlockState :=
  { s with constUpper := s.constUpper.insert l (min ((s.constUpper.get l).getD u64Max) ub) }

/-- Apply an upper bound if there is one. -/
def boundAboveBy (s : BlockState) (l : Local) : Option U64 → BlockState
  | some ub => s.boundAbove l ub
  | none => s

def boundBelow (s : BlockState) (l : Local) (lb : U64) : BlockState :=
  { s with constLower := s.constLower.insert l (max ((s.constLower.get l).getD 0) lb) }

end BlockState

/-- What the declared type of a local guarantees after any assignment. -/
def enforceTypeFacts (tcx : TyCtxt) (l : Local) (ty : Ty) (s : BlockState) : BlockState :=
  (if tyIsNonzero tcx ty then s.insertMust .nonzero l else s).boundAboveBy l (uintTypeMax ty)

/-! ## Storing into a projected place -/

/-- Store the objects of `src` in field `f` of `base`. -/
def storeField (base : Local) (f : FieldIdx) (src : Local) (s : BlockState) : BlockState :=
  { s with
    fieldOwned := s.fieldOwned.put (base, f) (nonempty (s.pointsTo.get src))
    pointsTo := s.pointsTo.erase src
    localProto := s.localProto.erase src
    ownerAlias := s.ownerAlias.erase src }

/-- Where the objects of the stored value go: into the return place, into a field,
or out of sight. -/
def storeObjects (dst : Place) (rvalue : Rvalue) (s : BlockState) : BlockState :=
  match rvalueLocal rvalue with
  | none => s
  | some src =>
      if dst.base = Local.returnPlace ∧ dst.hasDeref = false then
        match nonempty (s.pointsTo.get src) with
        | some objs =>
            s.setObjects Local.returnPlace (some (s.objectsFor Local.returnPlace ∪ objs))
        | none => s
      else
        match lastSimpleFieldIdx dst.projection with
        | some f => storeField dst.base f src s
        | none => s.escapeLocal src

/-- The number of fields of the struct a raw pointer points to. -/
def structFields : Ty → Option Nat
  | .rawPtr (.adt a) _ => if a.isStruct ∧ 0 < a.numFields then some a.numFields else none
  | _ => none

/-- Record the fields written so far of a `MaybeUninit`. -/
def setMuFields (mu : Local) (written : Finset FieldIdx) (s : BlockState) : BlockState :=
  { s with muFieldInits := s.muFieldInits.insert mu written }

/-- `(*ptr).field = val` through the raw pointer of a `MaybeUninit`: once every field
is written the `MaybeUninit` is initialized. -/
def writeMaybeUninitField (body : Body) (dst : Place) (s : BlockState) : BlockState :=
  match lastSimpleFieldIdx dst.projection, s.muRawPtr.get dst.base,
    structFields (body.localTy dst.base) with
  | some f, some mu, some n =>
      let written := insert f ((s.muFieldInits.get mu).getD ∅)
      if n ≤ written.card then (setMuFields mu written s).insertInit mu
      else setMuFields mu written s
  | _, _, _ => s

def assignProjected (tcx : TyCtxt) (body : Body) (dst : Place) (rvalue : Rvalue)
    (s : BlockState) : BlockState :=
  let s := storeObjects dst rvalue s
  let s := match directUnionFieldAccess tcx body dst with
    | some (l, f) => s.setActiveVariant l f
    | none => s
  writeMaybeUninitField body dst s

/-! ## Provenance of the assigned local -/

/-- The place an rvalue reads, borrows or casts. -/
def rvaluePlace : Rvalue → Option Place
  | .use op => op.place
  | .ref p => some p
  | .rawPtr p => some p
  | .cast _ op _ => op.place
  | _ => none

/-- Integers, floats, booleans and characters never alias a buffer. -/
def Ty.isScalar : Ty → Bool
  | .int _ => true
  | .uint _ => true
  | .float => true
  | .bool => true
  | .char => true
  | _ => false

/-- The owners the value of a place aliases. -/
def placeOwners (body : Body) (place : Place) (s : BlockState) : Finset Local :=
  match s.ownerAlias.get place.base with
  | some existing => existing
  | none =>
      if place.hasDeref ∧ isReferenceParam body place.base then {place.base}
      else if place.projection.any ProjectionElem.isField ∧ isParam body place.base then
        {place.base}
      else ∅

/-- The owners the value of an rvalue aliases. -/
def rvalueOwners (body : Body) (dst : Local) (rvalue : Rvalue) (s : BlockState) : Finset Local :=
  match rvalue with
  | .aggregate _ operands =>
      (operands.filterMap operandLocal).foldr (fun l owners => s.ownersOf l ∪ owners) ∅
  | rvalue =>
      match rvaluePlace rvalue with
      | none => ∅
      | some place => if (body.localTy dst).isScalar then ∅ else placeOwners body place s

def updateOwnerAlias (body : Body) (dst : Local) (rvalue : Rvalue) (s : BlockState) :
    BlockState :=
  s.setOwners dst (nonempty (some (rvalueOwners body dst rvalue s)))

/-- The function a function-pointer value was reified from. -/
def rvalueFnTarget (rvalue : Rvalue) (s : BlockState) : Option DefId :=
  match rvalue with
  | .cast .reifyFnPointer op _ => op.constFnDef.map Prod.fst
  | rvalue => (rvalueLocal rvalue).bind s.fnPtrTargets.get

def updateFnPtrTarget (dst : Local) (rvalue : Rvalue) (s : BlockState) : BlockState :=
  { s with fnPtrTargets := s.fnPtrTargets.put dst (rvalueFnTarget rvalue s) }

/-- `dst = &base` and the reborrow `dst = &*base` remember what was borrowed. -/
def recordRefBase (dst : Local) (rvalue : Rvalue) (s : BlockState) : BlockState :=
  match rvalue with
  | .ref ⟨base, []⟩ => s.insertFact .refBase dst base
  | .ref ⟨base, [.deref]⟩ => s.insertFact .refBase dst base
  | _ => s

/-! ## Moves and copies of a whole local -/

/-- Carry the membership of `src` over to `dst`; a move gives it up at `src`. -/
def propagateSet (src dst : Local) (isMove : Bool) (m : Finset Local) : Finset Local :=
  if src ∈ m then (if isMove then (insert dst m).erase src else insert dst m) else m

/-- Carry the binding of `src` over to `dst`; a move gives it up at `src`. -/
def propagateMap {V : Type} (src dst : Local) (isMove : Bool) (m : FMap Local V) :
    FMap Local V :=
  match m.get src with
  | some v => if isMove then (m.insert dst v).erase src else m.insert dst v
  | none => m

/-- As `propagateMap`, but `dst` is unbound when `src` is. -/
def transferMap {V : Type} (src dst : Local) (isMove : Bool) (m : FMap Local V) :
    FMap Local V :=
  match m.get src with
  | some v => if isMove then (m.insert dst v).erase src else m.insert dst v
  | none => m.erase dst

/-- The maps that a plain move or copy carries over. -/
def propagateMaps (src dst : Local) (isMove : Bool) (s : BlockState) : BlockState :=
  { s with
    activeVariant := transferMap src dst isMove s.activeVariant
    muRawPtr := transferMap src dst isMove s.muRawPtr
    muFieldInits := transferMap src dst isMove s.muFieldInits
    arrayComponents := propagateMap src dst isMove s.arrayComponents
    constUpper := propagateMap src dst isMove s.constUpper
    constLower := propagateMap src dst isMove s.constLower }

/-- What a plain move or copy carries over in the domains that both treat alike. -/
def propagateUse (src dst : Local) (isMove : Bool) (s : BlockState) : BlockState :=
  let s := s.onMustSets MustSet.derived (propagateSet src dst isMove)
  let s := s.onMaySets [.fdConsumed, .mulOverflow, .layoutOverflow] (propagateSet src dst isMove)
  let s := s.onFacts [.castOrigin] (propagateMap src dst isMove)
  propagateMaps src dst isMove s

/-- Move the membership of `src` to `dst`, which loses its own. -/
def moveSet (src dst : Local) (m : Finset Local) : Finset Local :=
  if src ∈ m then insert dst (m.erase src) else (m.erase src).erase dst

/-- Copy the membership of `src` to `dst`, which loses its own. -/
def copySet (src dst : Local) (m : Finset Local) : Finset Local :=
  if src ∈ m then insert dst m else m.erase dst

theorem propagateSet_mono (src dst : Local) (isMove : Bool) :
    Monotone (propagateSet src dst isMove) := by
  intro m n hmn
  show propagateSet src dst isMove m ⊆ propagateSet src dst isMove n
  unfold propagateSet
  by_cases hm : src ∈ m
  · rw [if_pos hm, if_pos (hmn hm)]
    split
    · exact Finset.erase_subset_erase src (Finset.insert_subset_insert dst hmn)
    · exact Finset.insert_subset_insert dst hmn
  · rw [if_neg hm]
    split
    · split
      · exact Finset.subset_erase.mpr ⟨hmn.trans (Finset.subset_insert dst n), hm⟩
      · exact hmn.trans (Finset.subset_insert dst n)
    · exact hmn

theorem moveSet_mono (src dst : Local) : Monotone (moveSet src dst) := by
  intro m n hmn
  have herase : m.erase src ⊆ n.erase src := Finset.erase_subset_erase src hmn
  show moveSet src dst m ⊆ moveSet src dst n
  unfold moveSet
  by_cases hm : src ∈ m
  · rw [if_pos hm, if_pos (hmn hm)]
    exact Finset.insert_subset_insert dst herase
  · rw [if_neg hm]
    split
    · exact ((Finset.erase_subset dst _).trans herase).trans (Finset.subset_insert dst _)
    · exact Finset.erase_subset_erase dst herase

theorem copySet_mono (src dst : Local) : Monotone (copySet src dst) := by
  intro m n hmn
  show copySet src dst m ⊆ copySet src dst n
  unfold copySet
  by_cases hm : src ∈ m
  · rw [if_pos hm, if_pos (hmn hm)]
    exact Finset.insert_subset_insert dst hmn
  · rw [if_neg hm]
    split
    · exact ((Finset.erase_subset dst m).trans hmn).trans (Finset.subset_insert dst n)
    · exact Finset.erase_subset_erase dst hmn

theorem agreeOn_propagateMap {V : Type} {L : Finset Local} {m n : FMap Local V}
    (h : FMap.AgreeOn L m n) {src : Local} (hsrc : src ∈ L) (dst : Local) (isMove : Bool) :
    FMap.AgreeOn L (propagateMap src dst isMove m) (propagateMap src dst isMove n) := by
  unfold propagateMap
  rw [h src hsrc]
  split
  · rename_i v _
    have hins : FMap.AgreeOn L (m.insert dst v) (n.insert dst v) :=
      (h.insert dst v).mono (Finset.subset_insert dst L)
    split
    · exact (hins.erase src).mono (Finset.subset_insert src L)
    · exact hins
  · exact h

/-- A bound carried over to a local that has none yet. -/
theorem within_propagateMap {V : Type} {r : V → V → Prop} {m n : FMap Local V}
    (h : FMap.Within r m n) {src dst : Local} (hdst : m.get dst = none) (isMove : Bool) :
    FMap.Within r (propagateMap src dst isMove m) (propagateMap src dst isMove n) := by
  unfold propagateMap
  cases hm : m.get src with
  | some v =>
      obtain ⟨w, hw, hr⟩ := h src v hm
      rw [hw]
      dsimp only
      split
      · exact (h.insert dst hr).erase src
      · exact h.insert dst hr
  | none =>
      cases hn : n.get src with
      | none => exact h
      | some w =>
          have hins : FMap.Within r m (n.insert dst w) :=
            h.insert_right dst fun v hv => by rw [hdst] at hv; cases hv
          dsimp only
          split
          · intro x v hv
            have hx : x ≠ src := fun he => by rw [he, hm] at hv; cases hv
            rw [FMap.get_erase_of_ne _ hx]
            exact hins x v hv
          · exact hins

/-- Where a carried-over entry comes from. -/
theorem propagateMap_source {V : Type} {m : FMap Local V} {src dst x : Local} {isMove : Bool}
    {w : V} (h : (propagateMap src dst isMove m).get x = some w) :
    x = dst ∧ m.get src = some w ∨ m.get x = some w := by
  unfold propagateMap at h
  cases hsrc : m.get src with
  | none => rw [hsrc] at h; exact Or.inr h
  | some v =>
    rw [hsrc] at h
    have hins : (m.insert dst v).get x = some w := by
      cases isMove with
      | false => exact h
      | true => exact (FMap.get_erase_eq_some_iff.mp h).2
    rw [FMap.get_insert] at hins
    split at hins
    · rename_i hx
      exact Or.inl ⟨hx, hins⟩
    · exact Or.inr hins

theorem transferMap_source {V : Type} {m : FMap Local V} {src dst x : Local} {isMove : Bool}
    {w : V} (h : (transferMap src dst isMove m).get x = some w) :
    x = dst ∧ m.get src = some w ∨ m.get x = some w := by
  cases hsrc : m.get src with
  | none =>
    unfold transferMap at h
    rw [hsrc] at h
    exact Or.inr (FMap.get_erase_eq_some_iff.mp h).2
  | some v =>
    have hpropagated : (propagateMap src dst isMove m).get x = some w := by
      unfold transferMap at h
      unfold propagateMap
      rw [hsrc] at h ⊢
      exact h
    rw [← hsrc]
    exact propagateMap_source hpropagated

/-- What is carried over from `src` is within what was. -/
theorem within_transferMap {V : Type} {r : V → V → Prop} {m n : FMap Local V}
    (h : FMap.Within r m n) (src dst : Local) (isMove : Bool) :
    FMap.Within r (transferMap src dst isMove m) (transferMap src dst isMove n) := by
  unfold transferMap
  cases hm : m.get src with
  | some v =>
      obtain ⟨w, hw, hr⟩ := h src v hm
      rw [hw]
      dsimp only
      split
      · exact (h.insert dst hr).erase src
      · exact h.insert dst hr
  | none =>
      cases hn : n.get src with
      | none => exact h.erase dst
      | some w =>
          -- only the path binds `src`; the merged state binds neither `src` nor `dst`
          have hins : FMap.Within r (m.erase dst) (n.insert dst w) := by
            intro x v hv
            obtain ⟨hx, hold⟩ := FMap.get_erase_eq_some_iff.mp hv
            rw [FMap.get_insert, if_neg hx]
            exact h x v hold
          dsimp only
          split
          · intro x v hv
            have hx : x ≠ src := by
              rintro rfl
              cases hm.symm.trans (FMap.get_erase_eq_some_iff.mp hv).2
            rw [FMap.get_erase_of_ne _ hx]
            exact hins x v hv
          · exact hins

/-- Move what is tracked of `src` to `dst`. -/
def moveTracked (src dst : Local) (s : BlockState) : BlockState :=
  { s with
    pointsTo := (s.pointsTo.erase src).put dst (nonempty (s.pointsTo.get src))
    localProto := (s.localProto.erase src).put dst (nonempty (s.localProto.get src))
    init := s.init.moveKey src dst }

/-- `dst = move src`. -/
def assignMove (src dst : Local) (s : BlockState) : BlockState :=
  let s := moveTracked src dst s
  let s := s.onFacts Fact.comparisons (·.moveKey src dst)
  let s := s.onMustSets MustSet.scalar (moveSet src dst)
  s.onMaySets [.constPtrCast] (moveSet src dst)

/-- Copy what is tracked of `src` to `dst`. -/
def copyTracked (src dst : Local) (s : BlockState) : BlockState :=
  { s with
    pointsTo := s.pointsTo.copyKey src dst
    localProto := s.localProto.copyKey src dst
    init := s.init.copyKey src dst }

/-- `dst = copy src`. -/
def assignCopy (src dst : Local) (s : BlockState) : BlockState :=
  let s := copyTracked src dst s
  let s := s.onFacts Fact.comparisons (·.copyKey src dst)
  let s := s.onMustSets MustSet.scalar (copySet src dst)
  s.onMaySets [.constPtrCast] (copySet src dst)

/-! ## Reads, borrows, aggregates and casts -/

/-- A projection whose only dereference, if any, comes first. -/
def derefsOnlyFirst (projection : List ProjectionElem) : Bool :=
  !projection.tail.any ProjectionElem.isDeref

/-- `dst = src.field`. -/
def assignFieldRead (src : Place) (dst : Local) (s : BlockState) : BlockState :=
  let fromField := (lastSimpleFieldIdx src.projection).bind fun f => s.fieldOwned.get (src.base, f)
  let s := s.setObjects dst ((s.pointsTo.get src.base).or fromField)
  let s := (s.dropProto dst).clearScalarFacts dst
  -- The value half of a checked operation inherits the pair's overflow mark.
  s.onMaySets [.mulOverflow] (copySet src.base dst)

/-- `dst = &base`, `dst = &raw base` and `dst = &raw *base`. -/
def assignBorrow (base dst : Local) (s : BlockState) : BlockState :=
  let s := s.setObjects dst (nonempty (s.pointsTo.get base))
  (s.dropProto dst).clearScalarFacts dst

/-- The components of an aggregate made of whole locals only. -/
def aggregateComponents (operands : List Operand) : Option (List Local) :=
  operands.mapM operandLocal

/-- Record the components of an array or a tuple. -/
def setComponents (dst : Local) (components : List Local) (s : BlockState) : BlockState :=
  { s with arrayComponents := s.arrayComponents.insert dst components }

def assignAggregate (tcx : TyCtxt) (kind : AggregateKind) (operands : List Operand) (dst : Local)
    (s : BlockState) : BlockState :=
  let objs := (operands.filterMap operandLocal).foldr (fun l objs => s.objectsFor l ∪ objs) ∅
  let s := s.setObjects dst (nonempty (some objs))
  let s := (s.dropProto dst).clearScalarFacts dst
  match kind with
  | .adt did (some activeField) =>
      if isStdCrate (tcx.crateName did) then s
      else s.setActiveVariant dst activeField
  | .adt _ none | .other => s
  | .array | .tuple =>
      match aggregateComponents operands with
      | some (c :: cs) => setComponents dst (c :: cs) s
      | _ => s

def Ty.isConstPtr : Ty → Bool
  | .rawPtr _ .not => true
  | _ => false

def Ty.isMutPtr : Ty → Bool
  | .rawPtr _ .mut => true
  | _ => false

/-- A pointer cast keeps the allocation; casting `const` away is remembered. -/
def assignPtrCast (body : Body) (src dst : Local) (ty : Ty) (s : BlockState) : BlockState :=
  let s := s.setObjects dst (s.pointsTo.get src)
  let s := if ty.isMutPtr ∧ ((body.localTy src).isConstPtr ∨ src ∈ s.maySets .constPtrCast)
    then s.insertMay .constPtrCast dst else s
  (s.dropProto dst).clearScalarFacts dst

/-- A numeric cast.  Unlike every other arm this one leaves the objects, the
comparison facts and the scalar facts of `dst` as they were. -/
def assignNumericCast (kind : CastKind) (src dst : Local) (ty : Ty) (s : BlockState) :
    BlockState :=
  let s := s.insertFact .castOrigin dst src
  if kind = .intToInt then
    let s := s.boundAboveBy dst (uintTypeMax ty)
    let s := if src ∈ s.mustSets .nonzero then s.insertMust .nonzero dst else s
    s.boundAboveBy dst (s.constUpper.get src)
  else s

def CastKind.isNumeric : CastKind → Bool
  | .intToInt => true
  | .intToFloat => true
  | .floatToInt => true
  | .floatToFloat => true
  | _ => false

/-! ## Binary operations -/

/-- The operations whose result is the outcome of a comparison. -/
def BinOp.isComparison : BinOp → Bool
  | .lt | .le | .ge | .gt | .eq | .ne => true
  | _ => false

def Rvalue.isComparison : Rvalue → Bool
  | .binaryOp op _ _ => op.isComparison
  | _ => false

/-- The first operand that is a tracked pointer gives the result its objects. -/
def offsetObjects (op : BinOp) (op1 op2 : Operand) (s : BlockState) : Option (Finset ObjectId) :=
  if op = .offset ∨ op = .add ∨ op = .sub then
    [op1, op2].findSome? fun o => (operandLocal o).bind s.pointsTo.get
  else none

/-- Replace the comparison facts of `dst` by the single fact `k`, if there is one. -/
def setComparison (s : BlockState) (k : Fact) (dst : Local) (lhs : Option Local) : BlockState :=
  (s.onFacts Fact.comparisons (·.erase dst)).onFacts [k] (·.put dst lhs)

/-- The collection whose length `l` holds, directly or behind one borrow. -/
def lenCollection (s : BlockState) (l : Local) : Option Local :=
  ((s.facts .lenOf).get l).or (((s.facts .refBase).get l).bind (s.facts .lenOf).get)

/-- The index and the collection of a comparison against a length. -/
def boundedFor (s : BlockState) (op1 op2 : Operand) : Option (Local × Local) :=
  (operandLocal op1).bind fun lhs =>
    ((operandLocal op2).bind (lenCollection s)).map fun coll => (lhs, coll)

/-- A comparison of `len()` with `capacity()` of one collection, recorded as `kind`. -/
def recordSpare (kind : Fact) (dst : Local) (op1 op2 : Operand) (capFirst : Bool)
    (s : BlockState) : BlockState :=
  match operandLocal op1, operandLocal op2 with
  | some a, some b =>
      let len := if capFirst then b else a
      let cap := if capFirst then a else b
      match (s.facts .lenOf).get len, (s.facts .capOf).get cap with
      | some cl, some cc => if cl = cc then s.insertFact kind dst cl else s
      | _, _ => s
  | _, _ => s

/-- The collection whose length and capacity `a` and `b` hold, in this order. -/
def sameCollection (s : BlockState) (a b : Local) : Option Local :=
  ((s.facts .lenOf).get a).bind fun cl =>
    ((s.facts .capOf).get b).bind fun cc => if cl = cc then some cl else none

/-- An equality of `len()` and `capacity()` in either order, recorded as `kind`. -/
def recordFull (kind : Fact) (dst : Local) (op1 op2 : Operand) (s : BlockState) : BlockState :=
  match operandLocal op1, operandLocal op2 with
  | some a, some b =>
      match (sameCollection s a b).or (sameCollection s b a) with
      | some coll => s.insertFact kind dst coll
      | none => s
  | _, _ => s

/-- A comparison of a local with a constant, recorded as `kind` at `dst`. -/
def recordConst (kind : ConstFact) (dst : Local) (l : Option Local) (k : Option U64)
    (s : BlockState) : BlockState :=
  match l, k with
  | some l, some k => s.onConstFacts [kind] (·.insert dst (l, k))
  | _, _ => s

/-- The local compared with a constant is nonzero when the comparison holds, for
constants that satisfy `p`. -/
def recordNonzero (dst : Local) (l : Option Local) (k : Option U64) (p : U64 → Bool)
    (s : BlockState) : BlockState :=
  match l, k with
  | some l, some k => if p k then s.insertFact .nonzeroIfTrue dst l else s
  | _, _ => s

/-- The local that is compared with the constant zero. -/
def comparedWithZero (op1 op2 : Operand) : Option Local :=
  ((operandLocal op1).bind fun l => if constU64 op2 = some 0 then some l else none).or
    (if constU64 op1 = some 0 then operandLocal op2 else none)

/-- Two whole locals compared for equality, recorded as `kind`. -/
def recordPair (kind : PairFact) (dst : Local) (op1 op2 : Operand) (s : BlockState) :
    BlockState :=
  match operandLocal op1, operandLocal op2 with
  | some a, some b => s.onPairFacts [kind] (·.insert dst (a, b))
  | _, _ => s

/-- `dst = op1 < op2`. -/
def compareLt (dst : Local) (op1 op2 : Operand) (s : BlockState) : BlockState :=
  let s := s.onPairFacts [.ltFor] (·.put dst (boundedFor s op1 op2))
  let s := setComparison s .ltFacts dst (operandLocal op1)
  let s := recordSpare .spareIfTrue dst op1 op2 false s
  let s := recordConst .constLt dst (operandLocal op1) (constU64 op2) s
  let s := recordConst .constGt dst (operandLocal op2) (constU64 op1) s
  recordNonzero dst (operandLocal op2) (constU64 op1) (fun k => decide (k = 0)) s

/-- `dst = op1 >= op2`. -/
def compareGe (dst : Local) (op1 op2 : Operand) (s : BlockState) : BlockState :=
  let s := setComparison s .geFacts dst (operandLocal op1)
  let s := recordSpare .spareIfFalse dst op1 op2 false s
  let s := recordConst .constGe dst (operandLocal op1) (constU64 op2) s
  let s := recordNonzero dst (operandLocal op1) (constU64 op2) (fun k => decide (1 ≤ k)) s
  recordConst .constLe dst (operandLocal op2) (constU64 op1) s

/-- `dst = op1 <= op2`. -/
def compareLe (dst : Local) (op1 op2 : Operand) (s : BlockState) : BlockState :=
  let s := s.onPairFacts [.leFor] (·.put dst (boundedFor s op1 op2))
  let s := setComparison s .leFacts dst (operandLocal op1)
  let s := recordSpare .spareIfFalse dst op1 op2 true s
  let s := recordConst .constLe dst (operandLocal op1) (constU64 op2) s
  let s := recordConst .constGe dst (operandLocal op2) (constU64 op1) s
  recordNonzero dst (operandLocal op2) (constU64 op1) (fun k => decide (1 ≤ k)) s

/-- `dst = op1 > op2`. -/
def compareGt (dst : Local) (op1 op2 : Operand) (s : BlockState) : BlockState :=
  let s := setComparison s .gtFacts dst (operandLocal op1)
  let s := recordSpare .spareIfTrue dst op1 op2 true s
  let s := recordConst .constGt dst (operandLocal op1) (constU64 op2) s
  let s := recordNonzero dst (operandLocal op1) (constU64 op2) (fun k => decide (k = 0)) s
  recordConst .constLt dst (operandLocal op2) (constU64 op1) s

/-- `dst = op1 == op2`, with `onZero` and `pair` naming what each edge proves. -/
def compareEq (full onZero : Fact) (pair : PairFact) (dst : Local) (op1 op2 : Operand)
    (s : BlockState) : BlockState :=
  let s := s.onFacts Fact.comparisons (·.erase dst)
  let s := recordFull full dst op1 op2 s
  let s := match comparedWithZero op1 op2 with
    | some l => s.insertFact onZero dst l
    | none => s
  recordPair pair dst op1 op2 s

/-- The largest value an operand may have, if one is known. -/
def operandUpper (s : BlockState) (op : Operand) : Option U64 :=
  (constU64 op).or ((operandLocal op).bind s.constUpper.get)

def isizeMax : Nat := 2 ^ 63 - 1

/-- `v as u64`, saturating. -/
def toU64 (v : Nat) : U64 := ⟨min v (2 ^ 64 - 1), by omega⟩

/-- A product or sum: bound the result by the operands' bounds, and mark it when it
may exceed `isize::MAX`. -/
def boundArith (f : Nat → Nat → Nat) (dst : Local) (op1 op2 : Operand) (s : BlockState) :
    BlockState :=
  match operandUpper s op1, operandUpper s op2 with
  | some a, some b =>
      let result := f a.val b.val
      let s := s.boundAbove dst (toU64 result)
      if isizeMax < result then s.insertMay .mulOverflow dst
      else s.onMaySets [.mulOverflow] (·.erase dst)
  | _, _ => s.insertMay .mulOverflow dst

/-- Is the operand proven nonzero? -/
def operandNonzero (s : BlockState) (op : Operand) : Bool :=
  (operandLocal op).any (fun l => decide (l ∈ s.mustSets .nonzero))
    || (constU64 op).any (fun k => decide (k ≠ 0))

/-- The least of the known bounds of `op1 & op2`. -/
def andUpper (s : BlockState) (op1 op2 : Operand) : Option U64 :=
  [(constU64 op2).or (constU64 op1), (operandLocal op1).bind s.constUpper.get,
    (operandLocal op2).bind s.constUpper.get].reduceOption.min?

/-- `ub >> shift`, zero once everything is shifted out; the shift amount is cut to
32 bits first. -/
def shrUpper (ub shift : U64) : U64 :=
  if shift.val % 2 ^ 32 < 64 then
    ⟨ub.val / 2 ^ (shift.val % 2 ^ 32), Nat.lt_of_le_of_lt (Nat.div_le_self _ _) ub.isLt⟩
  else 0

/-- The bound a right shift or a remainder by a constant gives. -/
def binaryUpper (op : BinOp) (s : BlockState) (op1 op2 : Operand) : Option U64 :=
  match op with
  | .bitAnd => andUpper s op1 op2
  | .rem => (constU64 op2).bind fun d =>
      if 0 < d then some ⟨d.val - 1, U64.pred_lt d⟩ else none
  | .shr => (constU64 op2).map fun shift =>
      shrUpper (((operandLocal op1).bind s.constUpper.get).getD u64Max) shift
  | _ => none

/-- The first component of a tuple type, and any other type itself. -/
def Ty.firstComponent : Ty → Ty
  | .tuple (t :: _) => t
  | ty => ty

def clearComparisons (dst : Local) (s : BlockState) : BlockState :=
  s.onFacts Fact.comparisons (·.erase dst)

/-- What a binary operation proves about its result.  The two overflow-checked
operations leave the comparison facts of `dst` as they were. -/
def recordBinaryOp (body : Body) (op : BinOp) (op1 op2 : Operand) (dst : Local)
    (s : BlockState) : BlockState :=
  match op with
  | .lt => compareLt dst op1 op2 s
  | .ge => compareGe dst op1 op2 s
  | .le => compareLe dst op1 op2 s
  | .gt => compareGt dst op1 op2 s
  | .eq => compareEq .fullIfTrue .nonzeroIfFalse .eqPairIfTrue dst op1 op2 s
  | .ne => compareEq .fullIfFalse .nonzeroIfTrue .nePairIfTrue dst op1 op2 s
  | .bitOr =>
      clearComparisons dst
        (if operandNonzero s op1 || operandNonzero s op2 then s.insertMust .nonzero dst else s)
  | .bitAnd | .rem | .shr =>
      clearComparisons dst (s.boundAboveBy dst (binaryUpper op s op1 op2))
  | .mul => clearComparisons dst (boundArith (· * ·) dst op1 op2 s)
  | .add =>
      clearComparisons dst
        (if (body.localTy dst).isInteger then boundArith (· + ·) dst op1 op2 s else s)
  | .mulWithOverflow => boundArith (· * ·) dst op1 op2 s
  | .addWithOverflow =>
      if (body.localTy dst).firstComponent.isInteger then boundArith (· + ·) dst op1 op2 s else s
  | _ => clearComparisons dst s

/-- `dst = op1 <op> op2`. -/
def assignBinaryOp (body : Body) (op : BinOp) (op1 op2 : Operand) (dst : Local)
    (s : BlockState) : BlockState :=
  let s := (s.setObjects dst (offsetObjects op op1 op2 s)).dropProto dst
  let s := (s.clearInit dst).onMustSets MustSet.scalar (·.erase dst)
  recordBinaryOp body op op1 op2 dst s

/-! ## Constants and the rest -/

/-- `dst = const`. -/
def assignConstant (c : Const) (dst : Local) (s : BlockState) : BlockState :=
  let s := match c.toU64 with
    | some val =>
        (if val ≠ 0 then s.insertMust .nonzero dst
          else s.onMustSets [.nonzero] (·.erase dst)).setConstant dst val
    | none => s
  ((s.setObjects dst none).dropProto dst).clearScalarFacts dst

/-- Forget the tracking of `l` altogether. -/
def clearTracking (l : Local) (s : BlockState) : BlockState :=
  ((s.setObjects l none).dropProto l).clearScalarFacts l

/-- Moving out of a field consumes what was stored in it. -/
def consumeField (src : Place) (s : BlockState) : BlockState :=
  match lastSimpleFieldIdx src.projection with
  | some f => { s with fieldOwned := s.fieldOwned.erase (src.base, f) }
  | none => s

/-- Any other rvalue; moving out of a projected place also clears its base. -/
def assignUnknown (rvalue : Rvalue) (dst : Local) (s : BlockState) : BlockState :=
  let s := clearTracking dst s
  match rvalue with
  | .use (.move src) =>
      if src.isLocal then s
      else
        clearTracking src.base (consumeField src s)
  | _ => s

/-- What the rvalue proves about the local it is assigned to. -/
def assignRvalue (tcx : TyCtxt) (body : Body) (dst : Local) (rvalue : Rvalue)
    (s : BlockState) : BlockState :=
  match rvalue with
  | .use (.constant c) => assignConstant c dst s
  | .use (.move src) =>
      if src.isLocal then assignMove src.base dst s
      else if derefsOnlyFirst src.projection then assignFieldRead src dst s
      else assignUnknown rvalue dst s
  | .use (.copy src) =>
      if src.isLocal then assignCopy src.base dst s
      else if derefsOnlyFirst src.projection then assignFieldRead src dst s
      else assignUnknown rvalue dst s
  | .ref ⟨base, []⟩ => assignBorrow base dst s
  | .rawPtr ⟨base, [.deref]⟩ => assignBorrow base dst s
  | .rawPtr ⟨base, []⟩ => assignBorrow base dst s
  | .aggregate kind operands => assignAggregate tcx kind operands dst s
  | .cast kind op ty =>
      match operandLocal op with
      | some src =>
          if kind = .ptrToPtr ∨ kind = .transmute then assignPtrCast body src dst ty s
          else if kind.isNumeric then assignNumericCast kind src dst ty s
          else assignUnknown rvalue dst s
      | none => assignUnknown rvalue dst s
  | .binaryOp op op1 op2 => assignBinaryOp body op op1 op2 dst s
  | _ => assignUnknown rvalue dst s

/-- The domains that a plain move or copy of a whole local carries over. -/
def propagateRvalue (dst : Local) (rvalue : Rvalue) (s : BlockState) : BlockState :=
  match rvalue with
  | .use (.move src) => if src.isLocal then propagateUse src.base dst true s else s
  | .use (.copy src) => if src.isLocal then propagateUse src.base dst false s else s
  | _ => s

/-- The length of a slice is the length of the collection it borrows. -/
def recordLenOf (dst : Local) (rvalue : Rvalue) (s : BlockState) : BlockState :=
  match rvalue with
  | .unaryOp .ptrMetadata op =>
      match operandLocal op with
      | some l => s.insertFact .lenOf dst (s.derefBase l)
      | none => s
  | _ => s

/-- `dst = rvalue` for a whole local. -/
def assignLocal (tcx : TyCtxt) (body : Body) (dst : Local) (rvalue : Rvalue) (s : BlockState) :
    BlockState :=
  let s := updateOwnerAlias body dst rvalue s
  let s := updateFnPtrTarget dst rvalue s
  let s := (s.clearRedefined dst).clearAssigned dst
  let s := recordRefBase dst rvalue s
  let s := propagateRvalue dst rvalue s
  let s := recordLenOf dst rvalue s
  let s := assignRvalue tcx body dst rvalue s
  enforceTypeFacts tcx dst (body.localTy dst) s

/-- The effect of one statement. -/
def applyStatement (tcx : TyCtxt) (body : Body) (stmt : Statement) (s : BlockState) :
    BlockState :=
  match stmt.kind with
  | .other => s
  | .assign dst rvalue =>
      -- Any write below a local breaks the aliases to its interior.
      let s := s.invalidateOwner dst.base
      if dst.isLocal then assignLocal tcx body dst.base rvalue s
      else assignProjected tcx body dst rvalue s

end San
