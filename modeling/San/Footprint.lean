import San.Dataflow

/-! # Footprints of the transfer functions

A transfer function is a pipeline of small stages, and each stage writes a few
fields of the state.  `Writes F s t` says that `t` differs from `s` in the fields
`F` at most, and every stage gets one lemma that states its footprint.  An invariant
of some fields, or a relation between two runs on some fields, then passes every
stage whose footprint avoids them; only the stages that write those fields need an
argument of their own.
-/
namespace San

open Discipline

/-- The fields of a state; the members of a family count as fields of their own. -/
inductive Field
  | heap | pointsTo | localProto | typestate | untrackedForgetSeen | init
  | fact (k : Fact) | pairFact (k : PairFact) | constFact (k : ConstFact)
  | mustSet (k : MustSet) | mustPairs (k : MustPairs) | maySet (k : MaySet)
  | ownerAlias | fnPtrTargets | constUpper | constLower | arrayComponents | threadSpawned
  | fieldOwned | muRawPtr | muFieldInits | activeVariant
deriving DecidableEq

/-- The states `s` and `t` agree in the field. -/
def Field.Same (s t : BlockState) : Field → Prop
  | .heap => t.heap = s.heap
  | .pointsTo => t.pointsTo = s.pointsTo
  | .localProto => t.localProto = s.localProto
  | .typestate => t.typestate = s.typestate
  | .untrackedForgetSeen => t.untrackedForgetSeen = s.untrackedForgetSeen
  | .init => t.init = s.init
  | .fact k => t.facts k = s.facts k
  | .pairFact k => t.pairFacts k = s.pairFacts k
  | .constFact k => t.constFacts k = s.constFacts k
  | .mustSet k => t.mustSets k = s.mustSets k
  | .mustPairs k => t.mustPairs k = s.mustPairs k
  | .maySet k => t.maySets k = s.maySets k
  | .ownerAlias => t.ownerAlias = s.ownerAlias
  | .fnPtrTargets => t.fnPtrTargets = s.fnPtrTargets
  | .constUpper => t.constUpper = s.constUpper
  | .constLower => t.constLower = s.constLower
  | .arrayComponents => t.arrayComponents = s.arrayComponents
  | .threadSpawned => t.threadSpawned = s.threadSpawned
  | .fieldOwned => t.fieldOwned = s.fieldOwned
  | .muRawPtr => t.muRawPtr = s.muRawPtr
  | .muFieldInits => t.muFieldInits = s.muFieldInits
  | .activeVariant => t.activeVariant = s.activeVariant

theorem Field.Same.refl (s : BlockState) (f : Field) : f.Same s s := by cases f <;> rfl

theorem Field.Same.symm {s t : BlockState} {f : Field} (h : f.Same s t) : f.Same t s := by
  cases f <;> exact Eq.symm h

theorem Field.Same.trans {s t u : BlockState} {f : Field} (h : f.Same s t) (h' : f.Same t u) :
    f.Same s u := by
  cases f <;> exact Eq.trans h' h

/-- Only the fields `F` of `s` were written on the way to `t`. -/
def Writes (F : List Field) (s t : BlockState) : Prop := ∀ f, f ∉ F → f.Same s t

namespace Writes
variable {F G : List Field} {s t u : BlockState}

theorem refl (F : List Field) (s : BlockState) : Writes F s s := fun f _ => .refl s f

theorem mono (h : Writes F s t) (hF : F ⊆ G) : Writes G s t := fun f hf => h f fun hm => hf (hF hm)

theorem symm (h : Writes F s t) : Writes F t s := fun f hf => (h f hf).symm

theorem trans (h : Writes F s t) (h' : Writes F t u) : Writes F s u :=
  fun f hf => (h f hf).trans (h' f hf)

theorem ite {c : Prop} [Decidable c] (ht : Writes F s t) (hu : Writes F s u) :
    Writes F s (if c then t else u) := by
  split
  · exact ht
  · exact hu

/-- A fold whose steps all write `F` writes `F`. -/
theorem foldl {α : Type} {step : BlockState → α → BlockState}
    (hstep : ∀ s a, Writes F s (step s a)) (as : List α) (s : BlockState) :
    Writes F s (as.foldl step s) := by
  induction as generalizing s with
  | nil => exact refl F s
  | cons a as ih => exact (hstep s a).trans (ih (step s a))

end Writes

/-! ## Named updates -/

namespace BlockState
variable (s : BlockState)

theorem onFacts_writes (ks : List Fact) (f) : Writes (ks.map Field.fact) s (s.onFacts ks f) := by
  intro field hf
  cases field with
  | fact k => exact if_neg fun hk => hf (List.mem_map_of_mem hk)
  | _ => rfl

theorem onPairFacts_writes (ks : List PairFact) (f) :
    Writes (ks.map Field.pairFact) s (s.onPairFacts ks f) := by
  intro field hf
  cases field with
  | pairFact k => exact if_neg fun hk => hf (List.mem_map_of_mem hk)
  | _ => rfl

theorem onConstFacts_writes (ks : List ConstFact) (f) :
    Writes (ks.map Field.constFact) s (s.onConstFacts ks f) := by
  intro field hf
  cases field with
  | constFact k => exact if_neg fun hk => hf (List.mem_map_of_mem hk)
  | _ => rfl

theorem onMustSets_writes (ks : List MustSet) (f) :
    Writes (ks.map Field.mustSet) s (s.onMustSets ks f) := by
  intro field hf
  cases field with
  | mustSet k => exact if_neg fun hk => hf (List.mem_map_of_mem hk)
  | _ => rfl

theorem onMustPairs_writes (ks : List MustPairs) (f) :
    Writes (ks.map Field.mustPairs) s (s.onMustPairs ks f) := by
  intro field hf
  cases field with
  | mustPairs k => exact if_neg fun hk => hf (List.mem_map_of_mem hk)
  | _ => rfl

theorem onMaySets_writes (ks : List MaySet) (f) :
    Writes (ks.map Field.maySet) s (s.onMaySets ks f) := by
  intro field hf
  cases field with
  | maySet k => exact if_neg fun hk => hf (List.mem_map_of_mem hk)
  | _ => rfl

theorem insertFact_writes (k : Fact) (l v : Local) : Writes [.fact k] s (s.insertFact k l v) :=
  s.onFacts_writes [k] _

theorem insertMust_writes (k : MustSet) (l : Local) : Writes [.mustSet k] s (s.insertMust k l) :=
  s.onMustSets_writes [k] _

theorem insertMay_writes (k : MaySet) (l : Local) : Writes [.maySet k] s (s.insertMay k l) :=
  s.onMaySets_writes [k] _

theorem setObjects_writes (l : Local) (o) : Writes [.pointsTo] s (s.setObjects l o) := by
  intro field hf
  cases field <;> first | rfl | exact absurd (by decide) hf

theorem setOwners_writes (l : Local) (o) : Writes [.ownerAlias] s (s.setOwners l o) := by
  intro field hf
  cases field <;> first | rfl | exact absurd (by decide) hf

theorem dropProto_writes (l : Local) : Writes [.localProto] s (s.dropProto l) := by
  intro field hf
  cases field <;> first | rfl | exact absurd (by decide) hf

theorem clearInit_writes (l : Local) : Writes [.init] s (s.clearInit l) := by
  intro field hf
  cases field <;> first | rfl | exact absurd (by decide) hf

theorem insertInit_writes (l : Local) : Writes [.init] s (s.insertInit l) := by
  intro field hf
  cases field <;> first | rfl | exact absurd (by decide) hf

theorem boundAbove_writes (l : Local) (ub : U64) :
    Writes [.constUpper] s (s.boundAbove l ub) := by
  intro field hf
  cases field <;> first | rfl | exact absurd (by decide) hf

theorem boundAboveBy_writes (l : Local) (o : Option U64) :
    Writes [.constUpper] s (s.boundAboveBy l o) := by
  cases o with
  | none => exact .refl _ s
  | some ub => exact s.boundAbove_writes l ub

theorem boundBelow_writes (l : Local) (lb : U64) :
    Writes [.constLower] s (s.boundBelow l lb) := by
  intro field hf
  cases field <;> first | rfl | exact absurd (by decide) hf

theorem setConstant_writes (l : Local) (val : U64) :
    Writes [.constUpper, .constLower] s (s.setConstant l val) := by
  intro field hf
  cases field <;> first | rfl | exact absurd (by decide) hf

theorem clearBounds_writes (l : Local) :
    Writes [.constUpper, .constLower, .arrayComponents] s (s.clearBounds l) := by
  intro field hf
  cases field <;> first | rfl | exact absurd (by decide) hf

theorem clearParts_writes (l : Local) :
    Writes [.activeVariant, .muRawPtr, .muFieldInits] s (s.clearParts l) := by
  intro field hf
  cases field <;> first | rfl | exact absurd (by decide) hf

theorem setActiveVariant_writes (l : Local) (f : FieldIdx) :
    Writes [.activeVariant] s (s.setActiveVariant l f) := by
  intro field hf
  cases field <;> first | rfl | exact absurd (by decide) hf

theorem clearFieldOwnedFor_writes (l : Local) :
    Writes [.fieldOwned] s (s.clearFieldOwnedFor l) := by
  intro field hf
  cases field <;> first | rfl | exact absurd (by decide) hf

theorem escapeLocal_writes (l : Local) :
    Writes [.heap, .pointsTo, .localProto, .ownerAlias] s (s.escapeLocal l) := by
  intro field hf
  cases field <;> first | rfl | exact absurd (by decide) hf

theorem reconstitute_writes (l : Local) :
    Writes [.heap] s (s.reconstitute l) := by
  intro field hf
  cases field <;> first | rfl | exact absurd (by decide) hf

theorem mintRawOwned_writes (dest : Local) (bb : Nat) :
    Writes [.heap, .pointsTo] s (s.mintRawOwned dest bb) := by
  intro field hf
  cases field <;> first | rfl | exact absurd (by decide) hf

theorem invalidateOwners_writes (owners : Finset Local) :
    Writes [.ownerAlias] s (s.invalidateOwners owners) := by
  unfold invalidateOwners
  split
  · exact .refl _ s
  · intro field hf
    cases field <;> first | rfl | exact absurd (by decide) hf

end BlockState

/-! ## Redefinitions, field by field -/

namespace Field

/-- What every redefinition of a local clears. -/
def derived : List Field :=
  Fact.derived.map Field.fact ++ PairFact.all.map Field.pairFact ++
    ConstFact.all.map Field.constFact ++ MustSet.derived.map Field.mustSet ++
    MustPairs.all.map Field.mustPairs ++ [MaySet.fdConsumed].map Field.maySet ++
    [Field.constUpper, Field.constLower, Field.arrayComponents]

/-- What an assignment clears besides. -/
def dropped : List Field :=
  [MaySet.constPtrCast, MaySet.mulOverflow, MaySet.layoutOverflow].map Field.maySet ++
    [Field.activeVariant, Field.muRawPtr, Field.muFieldInits] ++ [Field.fieldOwned]

end Field

namespace BlockState
variable (s : BlockState) (l : Local)

theorem clearRedefined_facts (k : Fact) :
    (s.clearRedefined l).facts k =
      if k ∈ Fact.derived then (s.facts k).erase l else s.facts k := by
  simp only [clearRedefined, onFacts, onPairFacts, onConstFacts, onMustSets, onMustPairs, onMaySets,
    clearBounds]

theorem clearRedefined_pairFacts (k : PairFact) :
    (s.clearRedefined l).pairFacts k = (s.pairFacts k).erase l := by
  simp only [clearRedefined, onFacts, onPairFacts, onConstFacts, onMustSets, onMustPairs, onMaySets,
    clearBounds, k.mem_all, if_true]

theorem clearRedefined_constFacts (k : ConstFact) :
    (s.clearRedefined l).constFacts k = (s.constFacts k).erase l := by
  simp only [clearRedefined, onFacts, onPairFacts, onConstFacts, onMustSets, onMustPairs, onMaySets,
    clearBounds, k.mem_all, if_true]

theorem clearRedefined_mustSets (k : MustSet) :
    (s.clearRedefined l).mustSets k =
      if k ∈ MustSet.derived then (s.mustSets k).erase l else s.mustSets k := by
  simp only [clearRedefined, onFacts, onPairFacts, onConstFacts, onMustSets, onMustPairs, onMaySets,
    clearBounds]

theorem clearRedefined_mustPairs (k : MustPairs) :
    (s.clearRedefined l).mustPairs k = (s.mustPairs k).filter fun p => p.1 ≠ l ∧ p.2 ≠ l := by
  simp only [clearRedefined, onFacts, onPairFacts, onConstFacts, onMustSets, onMustPairs, onMaySets,
    clearBounds, k.mem_all, if_true]

theorem clearRedefined_constUpper : (s.clearRedefined l).constUpper = s.constUpper.erase l := by
  simp only [clearRedefined, onFacts, onPairFacts, onConstFacts, onMustSets, onMustPairs, onMaySets,
    clearBounds]

theorem clearRedefined_constLower : (s.clearRedefined l).constLower = s.constLower.erase l := by
  simp only [clearRedefined, onFacts, onPairFacts, onConstFacts, onMustSets, onMustPairs, onMaySets,
    clearBounds]

/-- No other field is redefined but marks of the local. -/
theorem clearRedefined_writes :
    Writes Field.derived s (s.clearRedefined l) :=
  ((s.onFacts_writes Fact.derived _).mono (by decide)).trans <|
    ((onPairFacts_writes _ PairFact.all _).mono (by decide)).trans <|
    ((onConstFacts_writes _ ConstFact.all _).mono (by decide)).trans <|
    ((onMustSets_writes _ MustSet.derived _).mono (by decide)).trans <|
    ((onMustPairs_writes _ MustPairs.all _).mono (by decide)).trans <|
    ((onMaySets_writes _ [.fdConsumed] _).mono (by decide)).trans <|
    (clearBounds_writes _ l).mono (by decide)

end BlockState

/-! ## Groups of fields -/

namespace Field

/-- What is tracked: objects, owners and protocol instances. -/
def tracked : List Field :=
  [.heap, .pointsTo, .localProto, .ownerAlias, .fieldOwned, .typestate, .untrackedForgetSeen]

/-- What a call does to objects, owners and protocol instances. -/
def handled : List Field :=
  [.heap, .pointsTo, .localProto, .ownerAlias, .typestate, .untrackedForgetSeen]

/-- What a call that points into no `MaybeUninit` writes before it clears the scalar facts
of its destination. -/
def moved : List Field := handled ++ [Field.init, .mustSet .bufWritten]

/-- What a recognised call writes before it clears the scalar facts of its destination. -/
def called : List Field := handled ++ [Field.init, .muRawPtr, .mustSet .bufWritten]

/-- What a local holds as a `MaybeUninit` or as a pointer into one. -/
def contents : List Field := [.init, .muRawPtr, .muFieldInits]

/-- Marks of single locals that no other domain depends on. -/
def marks : List Field :=
  [.mustSet .bufWritten, .maySet .mulOverflow, .maySet .layoutOverflow, .arrayComponents]

/-- What depends on itself only: descriptors, casts, threads and unions. -/
def taints : List Field :=
  [.maySet .fdConsumed, .maySet .constPtrCast, .threadSpawned, .activeVariant]

/-- The conditional facts other than what is borrowed, and what has been proven of the
values of single locals. -/
def values : List Field :=
  (Fact.all.erase .refBase).map Field.fact ++ PairFact.all.map Field.pairFact ++
    ConstFact.all.map Field.constFact ++
    ((MustSet.all.erase .bufWritten).erase .fdOrigin).map Field.mustSet ++
    [Field.constUpper, Field.constLower]

/-- What most arms clear last: whether a local is initialized, written to, compared or
bounded. -/
def scalars : List Field :=
  [Field.init] ++ Fact.comparisons.map Field.fact ++ MustSet.scalar.map Field.mustSet

/-- What a comparison may change. -/
def compared : List Field :=
  (Fact.all.erase .refBase).map Field.fact ++ PairFact.all.map Field.pairFact ++
    ConstFact.all.map Field.constFact

/-- What a binary operation that is no comparison may change, once its destination has been
cleared. -/
def computed : List Field :=
  [Field.mustSet .nonzero, .constUpper, .maySet .mulOverflow] ++ Fact.comparisons.map Field.fact

/-- What a plain move or copy carries over before anything else. -/
def carried : List Field :=
  MustSet.derived.map Field.mustSet ++ [Field.maySet .fdConsumed, .maySet .mulOverflow,
    .maySet .layoutOverflow, .fact .castOrigin, .activeVariant, .muRawPtr, .muFieldInits,
    .arrayComponents, .constUpper, .constLower]

/-- What an rvalue that computes no number may change. -/
def quiet : List Field :=
  [Field.pointsTo, .localProto, .maySet .constPtrCast, .maySet .mulOverflow, .activeVariant,
    .arrayComponents, .fieldOwned] ++ scalars

/-- What an rvalue that compares nothing may change. -/
def plain : List Field :=
  [Field.pointsTo, .localProto, .fact .castOrigin, .mustSet .nonzero, .constUpper, .constLower,
    .maySet .constPtrCast, .maySet .mulOverflow, .activeVariant, .arrayComponents, .fieldOwned] ++
    scalars

/-- What clearing a local may change. -/
def cleared : List Field := tracked ++ contents ++ marks ++ values

/-- What the value assigned to a local, or returned by a call, may change. -/
def assigned : List Field := taints ++ cleared

/-- What a call to a known function may change, the reallocated parameters apart. -/
def returned : List Field :=
  .threadSpawned :: .maySet .layoutOverflow :: (derived ++ called ++ scalars)

/-- What a redefinition of a local may change: all but the targets of function pointers
and the reallocated parameters. -/
def redefined : List Field :=
  .fact .refBase :: .mustSet .fdOrigin :: (MustPairs.all.map Field.mustPairs ++ assigned)

/-- What an assignment to a whole local may write. -/
def assignable : List Field :=
  [.ownerAlias, .fnPtrTargets] ++ derived ++ dropped ++ [.fact .refBase] ++ carried ++ plain ++
    (marks ++ values)

end Field

section Stages
variable (s : BlockState)

/-! ## Statements -/

theorem clearScalarFacts_writes (l : Local) :
    Writes Field.scalars s (s.clearScalarFacts l) :=
  ((s.clearInit_writes l).mono (by decide)).trans <|
    ((BlockState.onFacts_writes _ Fact.comparisons _).mono (by decide)).trans <|
    (BlockState.onMustSets_writes _ MustSet.scalar _).mono (by decide)

theorem clearAssigned_writes (l : Local) :
    Writes Field.dropped s (s.clearAssigned l) :=
  ((s.onMaySets_writes _ _).mono (by decide)).trans <|
    ((BlockState.clearParts_writes _ l).mono (by decide)).trans <|
    (BlockState.clearFieldOwnedFor_writes _ l).mono (by decide)

theorem enforceTypeFacts_writes (tcx : TyCtxt) (l : Local) (ty : Ty) :
    Writes [.mustSet .nonzero, .constUpper] s (enforceTypeFacts tcx l ty s) := by
  refine Writes.trans ?_ ((BlockState.boundAboveBy_writes _ l _).mono (by decide))
  split
  · exact (s.insertMust_writes .nonzero l).mono (by decide)
  · exact .refl _ s

theorem storeField_writes (base : Local) (f : FieldIdx) (src : Local) :
    Writes Field.tracked s (storeField base f src s) := by
  intro field hf
  cases field <;> first | rfl | exact absurd (by decide) hf

theorem storeObjects_writes (dst : Place) (rvalue : Rvalue) :
    Writes Field.tracked s (storeObjects dst rvalue s) := by
  unfold storeObjects
  split
  · exact .refl _ s
  · split
    · split
      · exact (s.setObjects_writes _ _).mono (by decide)
      · exact .refl _ s
    · split
      · exact storeField_writes s _ _ _
      · exact (s.escapeLocal_writes _).mono (by decide)

theorem setMuFields_writes (mu : Local) (written : Finset FieldIdx) :
    Writes Field.contents s (setMuFields mu written s) := by
  intro field hf
  cases field <;> first | rfl | exact absurd (by decide) hf

theorem writeMaybeUninitField_writes (body : Body) (dst : Place) :
    Writes Field.contents s (writeMaybeUninitField body dst s) := by
  unfold writeMaybeUninitField
  split
  · dsimp only
    split
    · exact (setMuFields_writes s _ _).trans ((BlockState.insertInit_writes _ _).mono (by decide))
    · exact setMuFields_writes s _ _
  · exact .refl _ s

theorem setUnionField_writes (tcx : TyCtxt) (body : Body) (dst : Place) :
    Writes [.activeVariant] s (match directUnionFieldAccess tcx body dst with
      | some (l, f) => s.setActiveVariant l f
      | none => s) := by
  split
  · exact s.setActiveVariant_writes _ _
  · exact .refl _ s

theorem updateOwnerAlias_writes (body : Body) (dst : Local) (rvalue : Rvalue) :
    Writes [.ownerAlias] s (updateOwnerAlias body dst rvalue s) := s.setOwners_writes dst _

theorem updateFnPtrTarget_writes (dst : Local) (rvalue : Rvalue) :
    Writes [.fnPtrTargets] s (updateFnPtrTarget dst rvalue s) := by
  intro field hf
  cases field <;> first | rfl | exact absurd (by decide) hf

theorem recordRefBase_writes (dst : Local) (rvalue : Rvalue) :
    Writes [.fact .refBase] s (recordRefBase dst rvalue s) := by
  unfold recordRefBase
  split
  · exact s.insertFact_writes _ _ _
  · exact s.insertFact_writes _ _ _
  · exact .refl _ s

theorem recordLenOf_writes (dst : Local) (rvalue : Rvalue) :
    Writes [.fact .lenOf] s (recordLenOf dst rvalue s) := by
  unfold recordLenOf
  split
  · split
    · exact s.insertFact_writes _ _ _
    · exact .refl _ s
  · exact .refl _ s

theorem propagateMaps_writes (src dst : Local) (isMove : Bool) :
    Writes [.activeVariant, .muRawPtr, .muFieldInits, .arrayComponents, .constUpper, .constLower] s
      (propagateMaps src dst isMove s) := by
  intro field hf
  cases field <;> first | rfl | exact absurd (by decide) hf

theorem propagateUse_writes (src dst : Local) (isMove : Bool) :
    Writes Field.carried s (propagateUse src dst isMove s) :=
  ((s.onMustSets_writes MustSet.derived _).mono (by decide)).trans <|
    ((BlockState.onMaySets_writes _ _ _).mono (by decide)).trans <|
    ((BlockState.onFacts_writes _ [.castOrigin] _).mono (by decide)).trans <|
    (propagateMaps_writes _ src dst isMove).mono (by decide)

theorem propagateRvalue_writes (dst : Local) (rvalue : Rvalue) :
    Writes Field.carried s (propagateRvalue dst rvalue s) := by
  unfold propagateRvalue
  split
  · split
    · exact propagateUse_writes s _ _ _
    · exact .refl _ s
  · split
    · exact propagateUse_writes s _ _ _
    · exact .refl _ s
  · exact .refl _ s

theorem setComponents_writes (l : Local) (cs : List Local) :
    Writes [.arrayComponents] s (setComponents l cs s) := by
  intro field hf
  cases field <;> first | rfl | exact absurd (by decide) hf

theorem moveTracked_writes (src dst : Local) :
    Writes [.pointsTo, .localProto, .init] s (moveTracked src dst s) := by
  intro field hf
  cases field <;> first | rfl | exact absurd (by decide) hf

theorem copyTracked_writes (src dst : Local) :
    Writes [.pointsTo, .localProto, .init] s (copyTracked src dst s) := by
  intro field hf
  cases field <;> first | rfl | exact absurd (by decide) hf

/-- What is left of a move or a copy once the tracked data has been carried over. -/
theorem carryScalars_writes (f : FMap Local Local → FMap Local Local)
    (g h : Finset Local → Finset Local) :
    Writes (Fact.comparisons.map Field.fact ++ MustSet.scalar.map Field.mustSet ++
      [Field.maySet .constPtrCast]) s
      (((s.onFacts Fact.comparisons f).onMustSets MustSet.scalar g).onMaySets
        [.constPtrCast] h) :=
  ((s.onFacts_writes Fact.comparisons f).mono (by decide)).trans <|
    ((BlockState.onMustSets_writes _ MustSet.scalar g).mono (by decide)).trans <|
    (BlockState.onMaySets_writes _ [.constPtrCast] h).mono (by decide)

/-- Whether an aggregate remembers its active field or its components. -/
theorem aggregateKind_writes (tcx : TyCtxt) (kind : AggregateKind) (operands : List Operand)
    (dst : Local) :
    Writes [.activeVariant, .arrayComponents] s (match kind with
      | .adt did (some activeField) =>
          if isStdCrate (tcx.crateName did) then s else s.setActiveVariant dst activeField
      | .adt _ none | .other => s
      | .array | .tuple =>
          match aggregateComponents operands with
          | some (c :: cs) => setComponents dst (c :: cs) s
          | _ => s) := by
  have hcomponents : Writes [.activeVariant, .arrayComponents] s
      (match aggregateComponents operands with
        | some (c :: cs) => setComponents dst (c :: cs) s
        | _ => s) := by
    split
    · exact (setComponents_writes s _ _).mono (by decide)
    · exact .refl _ s
  split
  · split
    · exact .refl _ s
    · exact (s.setActiveVariant_writes _ _).mono (by decide)
  · exact .refl _ s
  · exact .refl _ s
  · exact hcomponents
  · exact hcomponents

theorem assignNumericCast_writes (kind : CastKind) (src dst : Local) (ty : Ty) :
    Writes [.fact .castOrigin, .mustSet .nonzero, .constUpper] s
      (assignNumericCast kind src dst ty s) := by
  have horigin : Writes [.fact .castOrigin, .mustSet .nonzero, .constUpper] s
      (s.insertFact .castOrigin dst src) := (s.insertFact_writes _ _ _).mono (by decide)
  have hbound : ∀ (t : BlockState) o, Writes [.fact .castOrigin, .mustSet .nonzero, .constUpper] t
      (t.boundAboveBy dst o) := fun t o => (t.boundAboveBy_writes dst o).mono (by decide)
  unfold assignNumericCast
  dsimp only
  split
  · refine horigin.trans ((hbound _ (uintTypeMax ty)).trans (Writes.trans ?_ (hbound _ _)))
    exact .ite ((BlockState.insertMust_writes _ _ _).mono (by decide)) (.refl _ _)
  · exact horigin

theorem setComparison_writes {k : Fact} (hk : k ∈ Fact.comparisons) (dst : Local)
    (lhs : Option Local) :
    Writes (Fact.comparisons.map Field.fact) s (setComparison s k dst lhs) :=
  (s.onFacts_writes Fact.comparisons _).trans <|
    (BlockState.onFacts_writes _ [k] _).mono fun _ hf =>
      List.mem_singleton.mp hf ▸ List.mem_map_of_mem hk

theorem recordSpare_writes (k : Fact) (dst : Local) (op1 op2 : Operand) (capFirst : Bool) :
    Writes [.fact k] s (recordSpare k dst op1 op2 capFirst s) := by
  unfold recordSpare
  split
  · dsimp only
    split
    · exact .ite (s.insertFact_writes k _ _) (.refl _ s)
    · exact .refl _ s
  · exact .refl _ s

theorem recordFull_writes (k : Fact) (dst : Local) (op1 op2 : Operand) :
    Writes [.fact k] s (recordFull k dst op1 op2 s) := by
  unfold recordFull
  split
  · split
    · exact s.insertFact_writes k _ _
    · exact .refl _ s
  · exact .refl _ s

theorem recordConst_writes (k : ConstFact) (dst : Local) (l : Option Local) (v : Option U64) :
    Writes [.constFact k] s (recordConst k dst l v s) := by
  unfold recordConst
  split
  · exact s.onConstFacts_writes [k] _
  · exact .refl _ s

theorem recordNonzero_writes (dst : Local) (l : Option Local) (v : Option U64) (p : U64 → Bool) :
    Writes [.fact .nonzeroIfTrue] s (recordNonzero dst l v p s) := by
  unfold recordNonzero
  split
  · exact .ite (s.insertFact_writes _ _ _) (.refl _ s)
  · exact .refl _ s

theorem recordPair_writes (k : PairFact) (dst : Local) (op1 op2 : Operand) :
    Writes [.pairFact k] s (recordPair k dst op1 op2 s) := by
  unfold recordPair
  split
  · exact s.onPairFacts_writes [k] _
  · exact .refl _ s

theorem compareEq_writes (full onZero : Fact) (pair : PairFact) (dst : Local)
    (op1 op2 : Operand) :
    Writes ([.fact full, .fact onZero, .pairFact pair] ++ Fact.comparisons.map Field.fact) s
      (compareEq full onZero pair dst op1 op2 s) := by
  refine ((s.onFacts_writes Fact.comparisons (·.erase dst)).mono
      (List.subset_append_right _ _)).trans <|
    ((recordFull_writes _ full dst op1 op2).mono (by simp)).trans <|
    Writes.trans ?_ ((recordPair_writes _ pair dst op1 op2).mono (by simp))
  split
  · exact (BlockState.insertFact_writes _ _ _ _).mono (by simp)
  · exact .refl _ _

theorem boundArith_writes (f : Nat → Nat → Nat) (dst : Local) (op1 op2 : Operand) :
    Writes [.maySet .mulOverflow, .constUpper] s (boundArith f dst op1 op2 s) := by
  unfold boundArith
  split
  · rename_i a b _ _
    refine Writes.trans ((s.boundAbove_writes dst (toU64 (f a.val b.val))).mono (by decide))
      (.ite ?_ ?_)
    · exact (BlockState.insertMay_writes _ _ _).mono (by decide)
    · exact (BlockState.onMaySets_writes _ _ _).mono (by decide)
  · exact (s.insertMay_writes _ _).mono (by decide)

/-- A comparison records facts and nothing else, and not where a value was cast from. -/
theorem recordBinaryOp_facts (body : Body) {op : BinOp} (hop : op.isComparison = true)
    (op1 op2 : Operand) (dst : Local) :
    Writes (Field.compared.erase (.fact .castOrigin)) s (recordBinaryOp body op op1 op2 dst s) := by
  unfold recordBinaryOp
  cases op with
  | lt =>
    exact ((s.onPairFacts_writes _ _).mono (by decide)).trans <|
      ((setComparison_writes _ (by decide) _ _).mono (by decide)).trans <|
      ((recordSpare_writes _ _ _ _ _ _).mono (by decide)).trans <|
      ((recordConst_writes _ _ _ _ _).mono (by decide)).trans <|
      ((recordConst_writes _ _ _ _ _).mono (by decide)).trans <|
      (recordNonzero_writes _ _ _ _ _).mono (by decide)
  | ge =>
    exact ((setComparison_writes s (by decide) _ _).mono (by decide)).trans <|
      ((recordSpare_writes _ _ _ _ _ _).mono (by decide)).trans <|
      ((recordConst_writes _ _ _ _ _).mono (by decide)).trans <|
      ((recordNonzero_writes _ _ _ _ _).mono (by decide)).trans <|
      (recordConst_writes _ _ _ _ _).mono (by decide)
  | le =>
    exact ((s.onPairFacts_writes _ _).mono (by decide)).trans <|
      ((setComparison_writes _ (by decide) _ _).mono (by decide)).trans <|
      ((recordSpare_writes _ _ _ _ _ _).mono (by decide)).trans <|
      ((recordConst_writes _ _ _ _ _).mono (by decide)).trans <|
      ((recordConst_writes _ _ _ _ _).mono (by decide)).trans <|
      (recordNonzero_writes _ _ _ _ _).mono (by decide)
  | gt =>
    exact ((setComparison_writes s (by decide) _ _).mono (by decide)).trans <|
      ((recordSpare_writes _ _ _ _ _ _).mono (by decide)).trans <|
      ((recordConst_writes _ _ _ _ _).mono (by decide)).trans <|
      ((recordNonzero_writes _ _ _ _ _).mono (by decide)).trans <|
      (recordConst_writes _ _ _ _ _).mono (by decide)
  | eq => exact (compareEq_writes s _ _ _ _ _ _).mono (by decide)
  | ne => exact (compareEq_writes s _ _ _ _ _ _).mono (by decide)
  | _ => cases hop

theorem recordBinaryOp_compared (body : Body) {op : BinOp} (hop : op.isComparison = true)
    (op1 op2 : Operand) (dst : Local) :
    Writes Field.compared s (recordBinaryOp body op op1 op2 dst s) :=
  (recordBinaryOp_facts s body hop op1 op2 dst).mono List.erase_subset

/-- Any other operation bounds its result, and clears comparisons. -/
theorem recordBinaryOp_computed (body : Body) {op : BinOp} (hop : op.isComparison = false)
    (op1 op2 : Operand) (dst : Local) :
    Writes Field.computed s (recordBinaryOp body op op1 op2 dst s) := by
  have hclear : ∀ t, Writes Field.computed s t → Writes Field.computed s (clearComparisons dst t) :=
    fun t ht => ht.trans ((t.onFacts_writes Fact.comparisons _).mono (by decide))
  have harith : ∀ f, Writes Field.computed s (boundArith f dst op1 op2 s) :=
    fun f => (boundArith_writes s f dst op1 op2).mono (by decide)
  have hbound : ∀ o, Writes Field.computed s (s.boundAboveBy dst o) :=
    fun o => (s.boundAboveBy_writes dst o).mono (by decide)
  cases op with
  | bitOr => exact hclear _ (.ite ((s.insertMust_writes _ _).mono (by decide)) (.refl _ s))
  | bitAnd => exact hclear _ (hbound _)
  | rem => exact hclear _ (hbound _)
  | shr => exact hclear _ (hbound _)
  | mul => exact hclear _ (harith _)
  | add => exact hclear _ (.ite (harith _) (.refl _ s))
  | mulWithOverflow => exact harith _
  | addWithOverflow => exact .ite (harith _) (.refl _ s)
  | lt => cases hop
  | le => cases hop
  | ge => cases hop
  | gt => cases hop
  | eq => cases hop
  | ne => cases hop
  | _ => exact hclear _ (.refl _ s)

/-- What a binary operation proves is about values only. -/
theorem recordBinaryOp_writes (body : Body) (op : BinOp) (op1 op2 : Operand) (dst : Local) :
    Writes (Field.marks ++ Field.values) s (recordBinaryOp body op op1 op2 dst s) := by
  cases hop : op.isComparison with
  | false => exact (recordBinaryOp_computed s body hop op1 op2 dst).mono (by decide)
  | true => exact (recordBinaryOp_compared s body hop op1 op2 dst).mono (by decide)

/-- What is known of a constant. -/
theorem constantFacts_writes (c : Const) (dst : Local) :
    Writes [.mustSet .nonzero, .constUpper, .constLower] s (match c.toU64 with
      | some val =>
          (if val ≠ 0 then s.insertMust .nonzero dst
            else s.onMustSets [.nonzero] (·.erase dst)).setConstant dst val
      | none => s) := by
  split
  · refine Writes.trans ?_ ((BlockState.setConstant_writes _ _ _).mono (by decide))
    exact .ite ((s.insertMust_writes .nonzero dst).mono (by decide))
      ((s.onMustSets_writes [.nonzero] (·.erase dst)).mono (by decide))
  · exact .refl _ s

theorem consumeField_writes (src : Place) : Writes [.fieldOwned] s (consumeField src s) := by
  unfold consumeField
  split
  · intro field hf
    cases field <;> first | rfl | exact absurd (by decide) hf
  · exact .refl _ s

theorem clearTracking_writes (l : Local) :
    Writes (.pointsTo :: .localProto :: Field.scalars) s (clearTracking l s) :=
  ((s.setObjects_writes l none).mono (by decide)).trans <|
    ((BlockState.dropProto_writes _ l).mono (by decide)).trans <|
    (clearScalarFacts_writes _ l).mono (by decide)

theorem assignUnknown_writes (rvalue : Rvalue) (dst : Local) :
    Writes (.fieldOwned :: .pointsTo :: .localProto :: Field.scalars) s
      (assignUnknown rvalue dst s) := by
  unfold assignUnknown
  refine ((clearTracking_writes s dst).mono (by decide)).trans ?_
  split
  · next src =>
      refine .ite (.refl _ _) (((consumeField_writes _ src).mono (by decide)).trans ?_)
      exact (clearTracking_writes _ _).mono (by decide)
  · exact .refl _ _

/-- A constant, a numeric cast or a binary operation. -/
def Rvalue.isNumeric : Rvalue → Bool
  | .use (.constant _) => true
  | .cast kind _ _ => kind.isNumeric
  | .binaryOp _ _ _ => true
  | _ => false

/-- **Other rvalues prove nothing of numbers.** -/
theorem assignRvalue_quiet (tcx : TyCtxt) (body : Body) (dst : Local) {rvalue : Rvalue}
    (hrvalue : rvalue.isNumeric = false) :
    Writes Field.quiet s (assignRvalue tcx body dst rvalue s) := by
  have hobjects : ∀ (t : BlockState) o, Writes Field.quiet t (t.setObjects dst o) :=
    fun t o => (t.setObjects_writes dst o).mono (by decide)
  have hdrop : ∀ t : BlockState, Writes Field.quiet t (t.dropProto dst) :=
    fun t => (t.dropProto_writes dst).mono (by decide)
  have hclear : ∀ t : BlockState, Writes Field.quiet t (t.clearScalarFacts dst) :=
    fun t => (clearScalarFacts_writes t dst).mono (by decide)
  have hunknown : Writes Field.quiet s (assignUnknown rvalue dst s) :=
    (assignUnknown_writes s rvalue dst).mono (by decide)
  have hread : ∀ src, Writes Field.quiet s (assignFieldRead src dst s) := fun src =>
    (hobjects s _).trans <| (hdrop _).trans <| (hclear _).trans <|
      (BlockState.onMaySets_writes _ _ _).mono (by decide)
  have hborrow : ∀ base, Writes Field.quiet s (assignBorrow base dst s) := fun base =>
    (hobjects s _).trans ((hdrop _).trans (hclear _))
  unfold assignRvalue
  split
  · cases hrvalue
  · refine .ite ?_ (.ite (hread _) hunknown)
    exact ((moveTracked_writes s _ dst).mono (by decide)).trans
      ((carryScalars_writes _ _ _ _).mono (by decide))
  · refine .ite ?_ (.ite (hread _) hunknown)
    exact ((copyTracked_writes s _ dst).mono (by decide)).trans
      ((carryScalars_writes _ _ _ _).mono (by decide))
  · exact hborrow _
  · exact hborrow _
  · exact hborrow _
  · exact (hobjects s _).trans <| (hdrop _).trans <| (hclear _).trans <|
      (aggregateKind_writes _ tcx _ _ dst).mono (by decide)
  · split
    · refine .ite ?_ ?_
      · refine (hobjects s _).trans (Writes.trans (.ite ?_ (.refl _ _)) ((hdrop _).trans (hclear _)))
        exact (BlockState.insertMay_writes _ _ _).mono (by decide)
      · rw [if_neg (by rw [show CastKind.isNumeric _ = _ from hrvalue]; exact Bool.false_ne_true)]
        exact hunknown
    · exact hunknown
  · cases hrvalue
  · exact hunknown

/-- What a constant proves. -/
theorem assignConstant_writes (c : Const) (dst : Local) :
    Writes ([.mustSet .nonzero, .constUpper, .constLower, .pointsTo, .localProto] ++ Field.scalars)
      s (assignConstant c dst s) :=
  ((constantFacts_writes s c dst).mono (by decide)).trans <|
    ((BlockState.setObjects_writes _ dst none).mono (by decide)).trans <|
    ((BlockState.dropProto_writes _ dst).mono (by decide)).trans <|
    (clearScalarFacts_writes _ dst).mono (by decide)

/-- What a binary operation forgets of its destination first. -/
def enterBinaryOp (op : BinOp) (op1 op2 : Operand) (dst : Local) (s : BlockState) : BlockState :=
  (((s.setObjects dst (offsetObjects op op1 op2 s)).dropProto dst).clearInit dst).onMustSets
    MustSet.scalar (·.erase dst)

theorem assignBinaryOp_eq (body : Body) (op : BinOp) (op1 op2 : Operand) (dst : Local) :
    assignBinaryOp body op op1 op2 dst s =
      recordBinaryOp body op op1 op2 dst (enterBinaryOp op op1 op2 dst s) := rfl

theorem enterBinaryOp_writes (op : BinOp) (op1 op2 : Operand) (dst : Local) :
    Writes ([.pointsTo, .localProto, .init] ++ MustSet.scalar.map Field.mustSet) s
      (enterBinaryOp op op1 op2 dst s) :=
  ((s.setObjects_writes dst _).mono (by decide)).trans <|
    ((BlockState.dropProto_writes _ dst).mono (by decide)).trans <|
    ((BlockState.clearInit_writes _ dst).mono (by decide)).trans <|
    (BlockState.onMustSets_writes _ MustSet.scalar (·.erase dst)).mono (by decide)

/-- A cast of a whole local that is numeric. -/
theorem assignRvalue_numericCast (tcx : TyCtxt) (body : Body) (dst : Local) {kind : CastKind}
    (hkind : kind.isNumeric = true) (op : Operand) (ty : Ty) :
    assignRvalue tcx body dst (.cast kind op ty) s =
      match operandLocal op with
      | some src => assignNumericCast kind src dst ty s
      | none => assignUnknown (.cast kind op ty) dst s := by
  have hother : ¬(kind = .ptrToPtr ∨ kind = .transmute) := by
    rintro (rfl | rfl) <;> cases hkind
  unfold assignRvalue
  dsimp only
  cases operandLocal op with
  | none => rfl
  | some src => dsimp only; rw [if_neg hother, if_pos hkind]

/-- **What an rvalue proves of its destination** is written to the plain fields, and to
those that a binary operation writes. -/
theorem assignRvalue_within (tcx : TyCtxt) (body : Body) (dst : Local) (rvalue : Rvalue)
    {F : List Field} (hF : Field.plain ⊆ F)
    (hbinary : ∀ t op op1 op2, rvalue = .binaryOp op op1 op2 →
      Writes F t (recordBinaryOp body op op1 op2 dst t)) :
    Writes F s (assignRvalue tcx body dst rvalue s) := by
  have hplain : ∀ {G : List Field} {t u : BlockState}, Writes G t u → G ⊆ Field.plain →
      Writes F t u := fun hw hG => hw.mono (List.Subset.trans hG hF)
  cases hrvalue : rvalue.isNumeric with
  | false => exact hplain (assignRvalue_quiet s tcx body dst hrvalue) (by decide)
  | true =>
    cases rvalue with
    | use op =>
      cases op with
      | constant c => exact hplain (assignConstant_writes s c dst) (by decide)
      | copy p => cases hrvalue
      | move p => cases hrvalue
    | cast kind op ty =>
      rw [assignRvalue_numericCast s tcx body dst hrvalue op ty]
      split
      · exact hplain (assignNumericCast_writes s _ _ _ _) (by decide)
      · exact hplain (assignUnknown_writes s _ dst) (by decide)
    | binaryOp op op1 op2 =>
      exact (hplain (enterBinaryOp_writes s op op1 op2 dst) (by decide)).trans
        (hbinary _ op op1 op2 rfl)
    | _ => cases hrvalue

theorem assignRvalue_writes (tcx : TyCtxt) (body : Body) (dst : Local) (rvalue : Rvalue) :
    Writes Field.assigned s (assignRvalue tcx body dst rvalue s) :=
  assignRvalue_within s tcx body dst rvalue (by decide) fun t op op1 op2 _ =>
    (recordBinaryOp_writes t body op op1 op2 dst).mono (by decide)

/-- **An rvalue that compares nothing** writes the plain fields. -/
theorem assignRvalue_plain (tcx : TyCtxt) (body : Body) (dst : Local) {rvalue : Rvalue}
    (hrvalue : rvalue.isComparison = false) :
    Writes Field.plain s (assignRvalue tcx body dst rvalue s) :=
  assignRvalue_within s tcx body dst rvalue (List.Subset.refl _) fun t op op1 op2 heq =>
    (recordBinaryOp_computed t body (by rw [heq] at hrvalue; exact hrvalue) op1 op2 dst).mono
      (by decide)

/-! ## Edges and assertions -/

theorem drain_values {k : MustSet} (hk : .mustSet k ∈ Field.values) (f : Fact) (c : Local) :
    Writes Field.values s (drain f k c s) := by
  unfold drain
  split
  · exact (s.insertMust_writes k _).mono (by simpa using hk)
  · exact .refl _ s

theorem drainPair_writes (k : PairFact) (m : MustPairs) (norm) (c : Local) :
    Writes (MustPairs.all.map Field.mustPairs) s (drainPair k m norm c s) := by
  unfold drainPair
  split
  · refine (s.onMustPairs_writes [m] _).mono ?_
    cases m <;> decide
  · exact .refl _ s

theorem drainUpper_values (k : ConstFact) (f : U64 → U64) (c : Local) :
    Writes Field.values s (drainUpper k f c s) := by
  unfold drainUpper
  split
  · exact (s.boundAbove_writes _ _).mono (by decide)
  · exact .refl _ s

theorem drainLower_values (k : ConstFact) (f : U64 → U64) (c : Local) :
    Writes Field.values s (drainLower k f c s) := by
  unfold drainLower
  split
  · exact (s.boundBelow_writes _ _).mono (by decide)
  · exact .refl _ s

theorem assertCondition_values (cond : Operand) (expected : Bool) :
    Writes Field.values s (assertCondition cond expected s) := by
  unfold assertCondition
  split
  · exact .refl _ s
  · exact .ite ((drain_values s (by decide) _ _).trans (drain_values _ (by decide) _ _))
      ((drain_values s (by decide) _ _).trans (drain_values _ (by decide) _ _))

/-- **Taking an edge proves facts and changes nothing else.** -/
theorem refineSwitchintEdge_writes {n : Nat} (term : Terminator n) (succ : Fin n) :
    Writes (Field.values ++ MustPairs.all.map Field.mustPairs) s (refineSwitchintEdge term succ s) := by
  have hset : ∀ (t : BlockState) {k : MustSet}, .mustSet k ∈ Field.values → ∀ f c,
      Writes (Field.values ++ MustPairs.all.map Field.mustPairs) t (drain f k c t) :=
    fun t _ hk f c => (drain_values t hk f c).mono (by decide)
  have hpair : ∀ (t : BlockState) k m norm c,
      Writes (Field.values ++ MustPairs.all.map Field.mustPairs) t (drainPair k m norm c t) :=
    fun t k m norm c => (drainPair_writes t k m norm c).mono (by decide)
  have hupper : ∀ (t : BlockState) k f c,
      Writes (Field.values ++ MustPairs.all.map Field.mustPairs) t (drainUpper k f c t) :=
    fun t k f c => (drainUpper_values t k f c).mono (by decide)
  have hlower : ∀ (t : BlockState) k f c,
      Writes (Field.values ++ MustPairs.all.map Field.mustPairs) t (drainLower k f c t) :=
    fun t k f c => (drainLower_values t k f c).mono (by decide)
  unfold refineSwitchintEdge
  split
  · split
    · exact (hset _ (by decide) _ _).trans <| (hset _ (by decide) _ _).trans <|
        (hpair _ _ _ _ _).trans <| (hpair _ _ _ _ _).trans <| (hset _ (by decide) _ _).trans <|
        (hset _ (by decide) _ _).trans <| (hset _ (by decide) _ _).trans <|
        (hset _ (by decide) _ _).trans <| (hupper _ _ _ _).trans <| (hupper _ _ _ _).trans <|
        (hlower _ _ _ _).trans <| (hlower _ _ _ _).trans <| (hpair _ _ _ _ _).trans <|
        hpair _ _ _ _ _
    · exact (hset _ (by decide) _ _).trans <| (hset _ (by decide) _ _).trans <|
        (hset _ (by decide) _ _).trans <| (hset _ (by decide) _ _).trans <|
        (hset _ (by decide) _ _).trans <| (hset _ (by decide) _ _).trans <|
        (hlower _ _ _ _).trans <| (hlower _ _ _ _).trans <| (hupper _ _ _ _).trans <|
        (hupper _ _ _ _).trans <| (hpair _ _ _ _ _).trans <| hpair _ _ _ _ _
    · exact .refl _ s
  · exact .refl _ s

/-! ## Calls -/

theorem killCapacityArgs_writes (body : Body) (args : List Operand) :
    Writes [.mustSet .hasSpare, .mustSet .isFull] s (args.foldl (killCapacityArg body) s) := by
  refine Writes.foldl (fun t arg => ?_) args s
  unfold killCapacityArg
  split
  · exact .refl _ t
  · exact .ite ((t.onMustSets_writes _ _).mono (by decide)) (.refl _ t)

theorem recordReceiver_writes (k : Fact) (args : List Operand) (dest : Local) :
    Writes [.fact k] s (recordReceiver k args dest s) := by
  unfold recordReceiver
  split
  · exact s.insertFact_writes _ _ _
  · exact .refl _ s

theorem recordArg_writes (k : Fact) (args : List Operand) (dest : Local) :
    Writes [.fact k] s (recordArg k args dest s) := by
  unfold recordArg
  split
  · exact s.insertFact_writes _ _ _
  · exact .refl _ s

theorem recordLength_writes (path : String) (args : List Operand) (dest : Local) :
    Writes [.fact .lenOf, .fact .capOf] s (recordLength path args dest s) := by
  unfold recordLength
  split
  · refine (recordReceiver_writes s _ args dest).mono ?_
    split <;> decide
  · exact .refl _ s

theorem recordFiniteness_writes (path : String) (args : List Operand) (dest : Local) :
    Writes [.fact .nanIfTrue, .fact .finiteIfTrue] s (recordFiniteness path args dest s) := by
  unfold recordFiniteness
  exact .ite ((recordArg_writes s _ args dest).mono (by decide))
    (.ite ((recordArg_writes s _ args dest).mono (by decide)) (.refl _ s))

theorem recordDeref_writes (path : String) (args : List Operand) (dest : Local) :
    Writes [.fact .refBase] s (recordDeref path args dest s) := by
  unfold recordDeref
  exact .ite (recordReceiver_writes s _ args dest) (.refl _ s)

theorem recordFd_writes (path : String) (args : List Operand) (dest : Local) :
    Writes [.mustSet .fdOrigin, .maySet .fdConsumed] s (recordFd path args dest s) := by
  unfold recordFd
  refine .ite ((s.insertMust_writes _ _).mono (by decide)) (.ite ?_ (.refl _ s))
  split
  · exact (s.insertMay_writes _ _).mono (by decide)
  · exact .refl _ s

theorem markSpawned_writes : Writes [.threadSpawned] s (markSpawned s) := by
  intro field hf
  cases field <;> first | rfl | exact absurd (by decide) hf

theorem recordPartialEq_writes (path : String) (args : List Operand) (dest : Local) :
    Writes [.pairFact .nePairIfTrue, .pairFact .eqPairIfTrue] s (recordPartialEq path args dest s) := by
  unfold recordPartialEq
  split
  · split
    · refine (s.onPairFacts_writes [_] _).mono ?_
      split <;> decide
    · exact .refl _ s
  · exact .refl _ s

theorem recordCallFacts_writes (path : String) (args : List Operand) (dest : Local) :
    Writes (.fact .refBase :: .mustSet .fdOrigin :: .maySet .fdConsumed :: .threadSpawned ::
        Field.values) s
      (recordCallFacts path args dest s) :=
  ((recordLength_writes s path args dest).mono (by decide)).trans <|
    ((recordFiniteness_writes _ path args dest).mono (by decide)).trans <|
    ((recordDeref_writes _ path args dest).mono (by decide)).trans <|
    ((recordFd_writes _ path args dest).mono (by decide)).trans <|
    (Writes.ite ((markSpawned_writes _).mono (by decide)) (.refl _ _)).trans <|
    (recordPartialEq_writes _ path args dest).mono (by decide)

theorem leaveCall_writes (tcx : TyCtxt) (body : Body) (path : String) (args : List Operand)
    (dest : Local) :
    Writes [.mustSet .nonzero, .constUpper, .maySet .layoutOverflow] s
      (leaveCall tcx body path args dest s) := by
  have hnonzero : ∀ (t : BlockState) (c : Prop) [Decidable c],
      Writes [.mustSet .nonzero, .constUpper, .maySet .layoutOverflow] t
        (if c then t.insertMust .nonzero dest else t) :=
    fun t c _ => .ite ((t.insertMust_writes _ _).mono (by decide)) (.refl _ t)
  exact ((enforceTypeFacts_writes s tcx dest _).mono (by decide)).trans <|
    (hnonzero _ _).trans <| (hnonzero _ _).trans <|
    .ite ((BlockState.insertMay_writes _ _ _).mono (by decide)) (.refl _ _)

theorem markOwnersWritten_writes (l : Option Local) :
    Writes [.mustSet .bufWritten] s (markOwnersWritten l s) := by
  unfold markOwnersWritten
  split
  · exact (s.onMustSets_writes _ _).mono (by decide)
  · exact .refl _ s

theorem clearContents_writes (l : Local) :
    Writes [.init, .mustSet .bufWritten] s (clearContents l s) :=
  ((s.clearInit_writes l).mono (by decide)).trans
    ((BlockState.onMustSets_writes _ _ _).mono (by decide))

theorem setMuPtr_writes (ptr mu : Local) : Writes [.muRawPtr] s (setMuPtr ptr mu s) := by
  intro field hf
  cases field <;> first | rfl | exact absurd (by decide) hf

theorem initReceiver_writes (args : List Operand) :
    Writes [.init] s (initReceiver args s) := by
  unfold initReceiver
  split
  · exact (s.insertInit_writes _).mono (by decide)
  · exact .refl _ s

theorem pointIntoReceiver_writes (args : List Operand) (dest : Local) :
    Writes [.muRawPtr] s (pointIntoReceiver args dest s) := by
  unfold pointIntoReceiver
  split
  · exact setMuPtr_writes s _ _
  · exact .refl _ s

theorem noteForget_writes (b : Bool) : Writes [.untrackedForgetSeen] s (noteForget b s) := by
  intro field hf
  cases field <;> first | rfl | exact absurd (by decide) hf

theorem releaseProtos_writes (l : Local) (st : ProtocolState) :
    Writes [.localProto, .typestate] s (releaseProtos l st s) := by
  intro field hf
  cases field <;> first | rfl | exact absurd (by decide) hf

theorem acquireProto_writes (dest : Local) (bb : Nat) :
    Writes [.localProto, .typestate] s (acquireProto dest bb s) := by
  intro field hf
  cases field <;> first | rfl | exact absurd (by decide) hf

theorem escapeForever_writes (l : Local) : Writes [.heap, .pointsTo] s (escapeForever l s) := by
  intro field hf
  cases field <;> first | rfl | exact absurd (by decide) hf

theorem detachStale_writes (stale : Finset Local) :
    Writes [.heap, .pointsTo, .ownerAlias] s (detachStale stale s) := by
  intro field hf
  cases field <;> first | rfl | exact absurd (by decide) hf

theorem markStale_writes (body : Body) (recv : Local) :
    Writes (.maySet .reallocedParams :: Field.handled) s (markStale body recv s) :=
  ((s.onMaySets_writes [.reallocedParams] _).mono (by decide)).trans
    ((detachStale_writes _ _).mono (by decide))

theorem reallocate_writes (body : Body) (recv : Option Local) :
    Writes (.maySet .reallocedParams :: Field.handled) s (reallocate body recv s) := by
  cases recv with
  | none => exact .refl _ s
  | some recv => exact markStale_writes s body recv

/-- Before the callee is looked at, a call invalidates aliases and forgets capacities. -/
theorem enterCall_eq (tcx : TyCtxt) (body : Body) (summaries : SummaryMap)
    (callee : Option DefId) (args : List Operand) (dest : Local) :
    ∃ t, Writes (.maySet .reallocedParams :: Field.handled) s t ∧
      enterCall tcx body summaries callee args dest s = args.foldl (killCapacityArg body) t := by
  have hrealloc := reallocate_writes s body (reallocReceiver tcx summaries callee args)
  have hinvalid : ∀ (t : BlockState) owners,
      Writes (.maySet .reallocedParams :: Field.handled) t (t.invalidateOwners owners) :=
    fun t owners => (t.invalidateOwners_writes owners).mono (by decide)
  refine ⟨_, ?_, rfl⟩
  exact ((hrealloc.trans (hinvalid _ _)).trans (hinvalid _ {dest})).trans
    ((BlockState.setOwners_writes _ dest none).mono (by decide))

theorem enterCall_writes (tcx : TyCtxt) (body : Body) (summaries : SummaryMap)
    (callee : Option DefId) (args : List Operand) (dest : Local) :
    Writes (.maySet .reallocedParams :: (Field.handled ++ Field.values)) s
      (enterCall tcx body summaries callee args dest s) := by
  obtain ⟨t, ht, heq⟩ := enterCall_eq s tcx body summaries callee args dest
  rw [heq]
  exact (ht.mono (by decide)).trans ((killCapacityArgs_writes t body args).mono (by decide))

theorem reconstituteArg_writes (src : Option Local) :
    Writes [.heap] s (reconstituteArg src s) := by
  cases src with
  | none => exact .refl _ s
  | some src => exact s.reconstitute_writes src

theorem inheritOwners_writes (src : Option Local) (dest : Local) :
    Writes [.ownerAlias] s (inheritOwners src dest s) := by
  have hclear := s.setOwners_writes dest none
  cases src with
  | none => exact hclear
  | some src => exact hclear.trans (BlockState.setOwners_writes _ _ _)

theorem inheritObjects_writes (dest arg : Local) :
    Writes [.pointsTo] s (inheritObjects dest arg s) := by
  unfold inheritObjects
  split
  · exact s.setObjects_writes _ _
  · exact .refl _ s

theorem inheritProvenance_writes (args : List Operand) (dest : Local) :
    Writes [.ownerAlias, .pointsTo] s (inheritProvenance args dest s) := by
  unfold inheritProvenance
  split
  · exact .refl _ s
  · dsimp only
    refine Writes.trans ?_ ((inheritObjects_writes _ _ _).mono (by decide))
    split
    · exact (s.setOwners_writes _ _).mono (by decide)
    · exact .refl _ s

theorem escapeRawPtrArgs_writes (body : Body) (args : List Operand) :
    Writes [.heap, .pointsTo, .localProto, .ownerAlias] s (escapeRawPtrArgs body args s) := by
  refine Writes.foldl (fun t arg => ?_) args s
  unfold escapeRawPtrArg
  split
  · exact .refl _ t
  · exact .ite ((t.escapeLocal_writes _).mono (by decide)) (.refl _ t)

theorem returnAlias_writes (body : Body) (dest arg : Local) :
    Writes [.ownerAlias, .pointsTo] s (returnAlias body dest arg s) := by
  unfold returnAlias
  dsimp only
  have howners : Writes [.ownerAlias, .pointsTo] s (if argOwners body arg s = ∅ then s
      else s.setOwners dest (some (s.ownersOf dest ∪ argOwners body arg s))) :=
    .ite (.refl _ s) ((s.setOwners_writes _ _).mono (by decide))
  exact .ite howners (howners.trans ((inheritObjects_writes _ _ _).mono (by decide)))

theorem returnAliasOf_writes (body : Body) (dest : Local) (arg : Option Local) :
    Writes [.ownerAlias, .pointsTo] s (returnAliasOf body dest arg s) := by
  cases arg with
  | none => exact .refl _ s
  | some arg => exact returnAlias_writes s body dest arg

theorem inheritObjectsOf_writes (dest : Local) (arg : Option Local) :
    Writes [.pointsTo] s (inheritObjectsOf dest arg s) := by
  cases arg with
  | none => exact .refl _ s
  | some arg => exact inheritObjects_writes s dest arg

/-- What a summarised callee returns is passed to the destination. -/
theorem returned_writes (t : BlockState) (owner : Option Local) (body : Body) (dest : Local)
    (ptr : Option Local) :
    Writes [.ownerAlias, .pointsTo] t
      (inheritObjectsOf dest ptr (returnAliasOf body dest owner (t.setOwners dest none))) :=
  ((t.setOwners_writes dest none).mono (by decide)).trans <|
    (returnAliasOf_writes _ body dest owner).trans <|
    (inheritObjectsOf_writes _ dest ptr).mono (by decide)

/-- Applying a summary moves objects and owners around and does nothing else. -/
theorem applyFnSummary_writes (body : Body) (args : List Operand) (dest : Local) (bb : Nat)
    (summary : FnSummary) : Writes Field.handled s (applyFnSummary body args dest bb summary s) := by
  have heffects : Writes Field.handled s (summary.paramEffects.foldl (applyParamEffect args) s) := by
    refine Writes.foldl (fun t e => ?_) _ s
    unfold applyParamEffect
    split
    · exact ((t.reconstitute_writes _).mono (by decide)).trans
        ((BlockState.dropProto_writes _ _).mono (by decide))
    · exact (t.escapeLocal_writes _).mono (by decide)
    · exact .refl _ t
  have hresult : ∀ t : BlockState, Writes Field.handled t
      (if summary.returnsRawOwned then t.mintRawOwned dest bb
        else (t.setObjects dest none).dropProto dest) := fun t =>
    .ite ((t.mintRawOwned_writes dest bb).mono (by decide))
      (((t.setObjects_writes dest none).mono (by decide)).trans
        ((BlockState.dropProto_writes _ _).mono (by decide)))
  have hdest := heffects.trans <| (hresult _).trans <|
    (BlockState.setOwners_writes _ dest none).mono (by decide)
  exact hdest.trans <| ((returnAliasOf_writes _ body dest _).mono (by decide)).trans <|
    (inheritObjectsOf_writes _ dest _).mono (by decide)

theorem forgetArg_writes (tcx : TyCtxt) (body : Body) (src : Local) :
    Writes Field.moved s (forgetArg tcx body src s) :=
  ((escapeForever_writes s src).mono (by decide)).trans <|
    ((noteForget_writes _ _).mono (by decide)).trans <|
    ((releaseProtos_writes _ src .forgotten).mono (by decide)).trans <|
    (clearContents_writes _ src).mono (by decide)

/-- A summarised call moves tracked data and then clears the scalar facts of its
destination. -/
theorem callSummarised_clears (body : Body) (path : String) (summary : FnSummary)
    (args : List Operand) (dest : Local) (bb : Nat) :
    ∃ t, Writes Field.handled s t ∧
      callSummarised body path summary args dest bb s = t.clearScalarFacts dest := by
  refine ⟨_, (applyFnSummary_writes s body args dest bb summary).trans ?_, rfl⟩
  split
  · exact .ite ((inheritObjects_writes _ _ _).mono (by decide)) (.refl _ _)
  · exact .refl _ _

/-- So does a call of an unknown function, which may also mark buffers as written. -/
theorem callUnknown_clears (body : Body) (path : String) (args : List Operand) (dest : Local) :
    ∃ t, Writes (.mustSet .bufWritten :: Field.handled) s t ∧
      callUnknown body path args dest s = t.clearScalarFacts dest := by
  refine ⟨_, Writes.trans ?_ ((BlockState.dropProto_writes _ dest).mono (by decide)), rfl⟩
  refine .ite ((inheritProvenance_writes s _ _).mono (by decide)) (.ite ?_ (.ite ?_ (.ite ?_ ?_)))
  · exact (markOwnersWritten_writes s _).mono (by decide)
  · exact (markOwnersWritten_writes s _).mono (by decide)
  · exact .refl _ s
  · exact (escapeRawPtrArgs_writes s body args).mono (by decide)

/-- **Every recognised call clears the scalar facts of its destination**, after moving
tracked data around and before, at most, noting that the destination is initialized. -/
theorem applyCallKind_moves (tcx : TyCtxt) (body : Body) (path : String) {kind : CallKind}
    (hkind : kind ≠ .maybeUninitAsMutPtr) (args : List Operand) (dest : Local) (bb : Nat) :
    ∃ t, Writes Field.moved s t ∧
      Writes [.init] (t.clearScalarFacts dest) (applyCallKind tcx body path kind args dest bb s) := by
  have htracked : ∀ {t u : BlockState}, Writes Field.handled t u →
      Writes Field.moved t u := fun h => h.mono (by decide)
  have hobjects : ∀ (t : BlockState) l o,
      Writes Field.moved t (t.setObjects l o) :=
    fun t l o => (t.setObjects_writes l o).mono (by decide)
  have hdrop : ∀ t : BlockState,
      Writes Field.moved t (t.dropProto dest) :=
    fun t => (t.dropProto_writes dest).mono (by decide)
  cases kind with
  | rawRealloc =>
      exact ⟨_, ((reconstituteArg_writes s _).mono (by decide)).trans
        ((BlockState.mintRawOwned_writes _ dest bb).mono (by decide)), .refl _ _⟩
  | intoRaw => exact ⟨_, (s.mintRawOwned_writes dest bb).mono (by decide), .refl _ _⟩
  | fromRaw =>
      exact ⟨_, ((reconstituteArg_writes s _).mono (by decide)).trans <|
        (hobjects _ dest none).trans <| (hdrop _).trans <|
        (inheritOwners_writes _ _ dest).mono (by decide), .refl _ _⟩
  | memForget =>
      refine ⟨_, Writes.trans ?_ ((hobjects _ dest none).trans (hdrop _)), .refl _ _⟩
      split
      · exact forgetArg_writes s tcx body _
      · exact .refl _ s
  | guardAcquire => exact ⟨_, (acquireProto_writes s dest bb).mono (by decide), .refl _ _⟩
  | assumeInit =>
      refine ⟨_, Writes.trans ?_ ((hobjects _ dest _).trans (hdrop _)), .refl _ _⟩
      split
      · exact (s.clearInit_writes _).mono (by decide)
      · exact .refl _ s
  | maybeUninitInit =>
      exact ⟨_, (hobjects s dest _).trans (hdrop _), BlockState.insertInit_writes _ dest⟩
  | maybeUninitWrite =>
      exact ⟨_, ((initReceiver_writes s args).mono (by decide)).trans (hdrop _), .refl _ _⟩
  | maybeUninitAsMutPtr => exact absurd rfl hkind
  | bufWrite =>
      refine ⟨_, Writes.trans ?_ ((hobjects _ dest none).trans (hdrop _)), .refl _ _⟩
      split
      · exact (s.insertMust_writes _ _).mono (by decide)
      · exact .refl _ s
  | ptrRead => exact ⟨_, (hobjects s dest _).trans (hdrop _), .refl _ _⟩
  | summarised summary =>
      obtain ⟨t, ht, heq⟩ := callSummarised_clears s body path summary args dest bb
      exact ⟨t, htracked ht, heq ▸ .refl _ _⟩
  | unknown =>
      obtain ⟨t, ht, heq⟩ := callUnknown_clears s body path args dest
      exact ⟨t, ht.mono (by decide), heq ▸ .refl _ _⟩

/-- The call that points into a `MaybeUninit` does so as well. -/
theorem applyCallKind_clears (tcx : TyCtxt) (body : Body) (path : String) (kind : CallKind)
    (args : List Operand) (dest : Local) (bb : Nat) :
    ∃ t, Writes Field.called s t ∧
      Writes [.init] (t.clearScalarFacts dest) (applyCallKind tcx body path kind args dest bb s) := by
  by_cases hkind : kind = .maybeUninitAsMutPtr
  · subst hkind
    exact ⟨_, ((pointIntoReceiver_writes s args dest).mono (by decide)).trans
      ((BlockState.dropProto_writes _ dest).mono (by decide)), .refl _ _⟩
  · obtain ⟨t, ht, heq⟩ := applyCallKind_moves s tcx body path hkind args dest bb
    exact ⟨t, ht.mono (by decide), heq⟩

/-- So it writes what clearing a local does. -/
theorem applyCallKind_writes (tcx : TyCtxt) (body : Body) (path : String) (kind : CallKind)
    (args : List Operand) (dest : Local) (bb : Nat) :
    Writes (Field.called ++ Field.scalars) s (applyCallKind tcx body path kind args dest bb s) := by
  obtain ⟨t, ht, hkind⟩ := applyCallKind_clears s tcx body path kind args dest bb
  exact (ht.mono (by decide)).trans <| ((clearScalarFacts_writes t dest).mono (by decide)).trans <|
    hkind.mono (by decide)

theorem applyDrop_writes (place : Place) :
    Writes Field.called s (applyDrop place s) := by
  unfold applyDrop
  refine .ite ?_ (.refl _ s)
  exact ((releaseProtos_writes s _ .consumed).mono (by decide)).trans <|
    ((BlockState.setObjects_writes _ _ none).mono (by decide)).trans <|
    (clearContents_writes _ _).mono (by decide)

/-! ## Whole assignments and calls -/

/-- The clears that an assignment to a whole local starts with. -/
def redefine (body : Body) (dst : Local) (rvalue : Rvalue) (s : BlockState) : BlockState :=
  ((updateFnPtrTarget dst rvalue (updateOwnerAlias body dst rvalue s)).clearRedefined dst
    ).clearAssigned dst

theorem assignLocal_eq (tcx : TyCtxt) (body : Body) (dst : Local) (rvalue : Rvalue) :
    assignLocal tcx body dst rvalue s =
      enforceTypeFacts tcx dst (body.localTy dst) (assignRvalue tcx body dst rvalue
        (recordLenOf dst rvalue (propagateRvalue dst rvalue
          (recordRefBase dst rvalue (redefine body dst rvalue s))))) := rfl

section Redefine
variable (body : Body) (dst : Local) (rvalue : Rvalue)

/-- The owners and the function of the local are looked up before anything is cleared. -/
theorem lookup_writes : Writes [.ownerAlias, .fnPtrTargets] s
    (updateFnPtrTarget dst rvalue (updateOwnerAlias body dst rvalue s)) :=
  ((updateOwnerAlias_writes s body dst rvalue).mono (by decide)).trans
    ((updateFnPtrTarget_writes _ dst rvalue).mono (by decide))

/-- Away from the fields only an assignment clears, the clears are those of a redefinition. -/
theorem redefine_same {f : Field} (hf : f ∉ [Field.ownerAlias, .fnPtrTargets] ++ Field.dropped) :
    f.Same ((updateFnPtrTarget dst rvalue (updateOwnerAlias body dst rvalue s)).clearRedefined dst)
      (redefine body dst rvalue s) :=
  clearAssigned_writes _ dst f fun hmem => hf (List.mem_append_right _ hmem)

theorem redefine_facts (k : Fact) : (redefine body dst rvalue s).facts k =
    if k ∈ Fact.derived then (s.facts k).erase dst else s.facts k := by
  rw [show (redefine body dst rvalue s).facts k = _ from
      redefine_same s body dst rvalue (f := .fact k) (by cases k <;> decide),
    BlockState.clearRedefined_facts, show BlockState.facts _ k = s.facts k from
      lookup_writes s body dst rvalue (.fact k) (by simp)]

theorem redefine_constUpper : (redefine body dst rvalue s).constUpper = s.constUpper.erase dst := by
  rw [show (redefine body dst rvalue s).constUpper = _ from
      redefine_same s body dst rvalue (f := .constUpper) (by decide),
    BlockState.clearRedefined_constUpper, show BlockState.constUpper _ = s.constUpper from
      lookup_writes s body dst rvalue .constUpper (by decide)]

theorem redefine_constLower : (redefine body dst rvalue s).constLower = s.constLower.erase dst := by
  rw [show (redefine body dst rvalue s).constLower = _ from
      redefine_same s body dst rvalue (f := .constLower) (by decide),
    BlockState.clearRedefined_constLower, show BlockState.constLower _ = s.constLower from
      lookup_writes s body dst rvalue .constLower (by decide)]

theorem redefine_constFacts (k : ConstFact) :
    (redefine body dst rvalue s).constFacts k = (s.constFacts k).erase dst := by
  rw [show (redefine body dst rvalue s).constFacts k = _ from
      redefine_same s body dst rvalue (f := .constFact k) (by cases k <;> decide),
    BlockState.clearRedefined_constFacts, show BlockState.constFacts _ k = s.constFacts k from
      lookup_writes s body dst rvalue (.constFact k) (by simp)]

theorem redefine_mustSets (k : MustSet) : (redefine body dst rvalue s).mustSets k =
    if k ∈ MustSet.derived then (s.mustSets k).erase dst else s.mustSets k := by
  rw [show (redefine body dst rvalue s).mustSets k = _ from
      redefine_same s body dst rvalue (f := .mustSet k) (by cases k <;> decide),
    BlockState.clearRedefined_mustSets, show BlockState.mustSets _ k = s.mustSets k from
      lookup_writes s body dst rvalue (.mustSet k) (by simp)]

theorem redefine_mustPairs (k : MustPairs) : (redefine body dst rvalue s).mustPairs k =
    (s.mustPairs k).filter fun p => p.1 ≠ dst ∧ p.2 ≠ dst := by
  rw [show (redefine body dst rvalue s).mustPairs k = _ from
      redefine_same s body dst rvalue (f := .mustPairs k) (by cases k <;> decide),
    BlockState.clearRedefined_mustPairs, show BlockState.mustPairs _ k = s.mustPairs k from
      lookup_writes s body dst rvalue (.mustPairs k) (by simp)]

end Redefine

/-- **An assignment to a whole local** redefines it after its owners and its function
have been looked up. -/
theorem assignLocal_writes (tcx : TyCtxt) (body : Body) (dst : Local) (rvalue : Rvalue) :
    Writes Field.redefined
      (updateFnPtrTarget dst rvalue (updateOwnerAlias body dst rvalue s))
      (assignLocal tcx body dst rvalue s) :=
  ((BlockState.clearRedefined_writes _ dst).mono (by decide)).trans <|
    ((clearAssigned_writes _ dst).mono (by decide)).trans <|
    ((recordRefBase_writes _ dst rvalue).mono (by decide)).trans <|
    ((propagateRvalue_writes _ dst rvalue).mono (by decide)).trans <|
    ((recordLenOf_writes _ dst rvalue).mono (by decide)).trans <|
    ((assignRvalue_writes _ tcx body dst rvalue).mono (by decide)).trans <|
    (enforceTypeFacts_writes _ tcx dst _).mono (by decide)

/-- The value that is assigned, from the length it is to what its type guarantees, writes no
pairs, aliases or taints other than casts. -/
theorem assignValue_writes (tcx : TyCtxt) (body : Body) (dst : Local) (rvalue : Rvalue) :
    Writes (Field.plain ++ (Field.marks ++ Field.values)) s
      (enforceTypeFacts tcx dst (body.localTy dst)
        (assignRvalue tcx body dst rvalue (recordLenOf dst rvalue s))) :=
  ((recordLenOf_writes s dst rvalue).mono (by decide)).trans <|
    (assignRvalue_within _ tcx body dst rvalue (List.subset_append_left _ _) fun u op op1 op2 _ =>
      (recordBinaryOp_writes u body op op1 op2 dst).mono (List.subset_append_right _ _)).trans <|
    (enforceTypeFacts_writes _ tcx dst _).mono (by decide)

/-- What an assignment to a whole local writes after its clears. -/
theorem assignLocal_redefined (tcx : TyCtxt) (body : Body) (dst : Local) (rvalue : Rvalue) :
    Writes (.fact .refBase :: (Field.carried ++ (Field.plain ++ (Field.marks ++ Field.values))))
      (redefine body dst rvalue s) (assignLocal tcx body dst rvalue s) := by
  rw [assignLocal_eq]
  exact ((recordRefBase_writes _ dst rvalue).mono (by decide)).trans <|
    ((propagateRvalue_writes _ dst rvalue).mono (by decide)).trans <|
    (assignValue_writes _ tcx body dst rvalue).mono (by decide)

/-- **An assignment to a whole local** leaves the heap, the protocols and the flags of the
function alone. -/
theorem assignLocal_assignable (tcx : TyCtxt) (body : Body) (dst : Local)
    (rvalue : Rvalue) : Writes Field.assignable s (assignLocal tcx body dst rvalue s) :=
  ((lookup_writes _ body dst rvalue).mono (by decide)).trans <|
    ((BlockState.clearRedefined_writes _ dst).mono (by decide)).trans <|
    ((clearAssigned_writes _ dst).mono (by decide)).trans <|
    (assignLocal_redefined s tcx body dst rvalue).mono (by decide)

theorem assignProjected_writes (tcx : TyCtxt) (body : Body) (dst : Place) (rvalue : Rvalue) :
    Writes (.activeVariant :: (Field.tracked ++ Field.contents)) s
      (assignProjected tcx body dst rvalue s) :=
  ((storeObjects_writes s dst rvalue).mono (by decide)).trans <|
    ((setUnionField_writes _ tcx body dst).mono (by decide)).trans <|
    (writeMaybeUninitField_writes _ body dst).mono (by decide)

theorem applyResolvedCall_writes (tcx : TyCtxt) (body : Body) (summaries : SummaryMap)
    (did : DefId) (args : List Operand) (dest : Local) (bb : Nat) :
    Writes Field.returned s (applyResolvedCall tcx body summaries did args dest bb s) := by
  unfold applyResolvedCall
  dsimp only
  refine ((s.clearRedefined_writes dest).mono (by decide)).trans <|
    ((recordCallFacts_writes _ (tcx.defPathStr did) args dest).mono (by decide)).trans <|
    Writes.trans ?_ ((leaveCall_writes _ tcx body _ args dest).mono (by decide))
  exact (applyCallKind_writes _ tcx body _ _ args dest bb).mono (by decide)

/-- **A call** redefines its destination and may leave parameters reallocated. -/
theorem applyCall_writes (tcx : TyCtxt) (body : Body) (summaries : SummaryMap) (bb : Nat)
    (func : Operand) (args : List Operand) (destination : Place) :
    Writes (.maySet .reallocedParams :: Field.returned) s
      (applyCall tcx body summaries bb func args destination s) := by
  have henter := (enterCall_writes s tcx body summaries (resolveCallee tcx body func s) args
    destination.base).mono (G := .maySet .reallocedParams :: Field.returned) (by decide)
  have hescape := fun u => (escapeRawPtrArgs_writes u body args).mono
    (G := .maySet .reallocedParams :: Field.returned) (by decide)
  unfold applyCall
  dsimp only
  split
  · exact henter.trans (hescape _)
  · refine henter.trans (.ite ?_ (hescape _))
    exact (applyResolvedCall_writes _ tcx body summaries _ args _ bb).mono (by decide)

/-! ## Function pointers -/

/-- **Only an assignment to a whole local changes what a function pointer points to.** -/
theorem applyStatement_fnPtrTargets (tcx : TyCtxt) (body : Body) (stmt : Statement) :
    (applyStatement tcx body stmt s).fnPtrTargets = match stmt.kind with
      | .other => s.fnPtrTargets
      | .assign dst rvalue =>
          if dst.isLocal then s.fnPtrTargets.put dst.base (rvalueFnTarget rvalue s)
          else s.fnPtrTargets := by
  unfold applyStatement
  cases stmt.kind with
  | other => rfl
  | assign dst rvalue =>
      have hinvalid : (s.invalidateOwner dst.base).fnPtrTargets = s.fnPtrTargets :=
        s.invalidateOwners_writes {dst.base} .fnPtrTargets (by decide)
      dsimp only
      split
      · refine Eq.trans (assignLocal_writes _ tcx body dst.base rvalue .fnPtrTargets (by decide)) ?_
        show (s.invalidateOwner dst.base).fnPtrTargets.put dst.base (rvalueFnTarget rvalue _) = _
        unfold rvalueFnTarget
        rw [hinvalid]
        rfl
      · exact Eq.trans (assignProjected_writes _ tcx body dst rvalue .fnPtrTargets (by decide))
          hinvalid

theorem applyTerminator_fnPtrTargets (tcx : TyCtxt) (body : Body) (summaries : SummaryMap)
    (bb : Nat) (term : Terminator body.numBlocks) :
    (applyTerminator tcx body summaries bb term s).fnPtrTargets = s.fnPtrTargets := by
  unfold applyTerminator
  split
  · exact applyCall_writes s tcx body summaries bb _ _ _ .fnPtrTargets (by decide)
  · exact assertCondition_values s _ _ .fnPtrTargets (by decide)
  · exact applyDrop_writes s _ .fnPtrTargets (by decide)
  · rfl

theorem edgeState_fnPtrTargets (tcx : TyCtxt) (body : Body) (summaries : SummaryMap)
    (bb succ : body.BasicBlock) :
    (edgeState tcx body summaries bb s succ).fnPtrTargets =
      (applyStatements tcx body (body.basicBlocks bb).statements s).fnPtrTargets := by
  cases hterm : (body.basicBlocks bb).terminator with
  | none => rw [edgeState_of_none hterm]
  | some term =>
      rw [edgeState_of_some hterm]
      exact Eq.trans (refineSwitchintEdge_writes _ term succ .fnPtrTargets (by decide))
        (applyTerminator_fnPtrTargets _ tcx body summaries bb.val term)

/-! ## Calls that leave the heap alone -/

/-- The recognised calls that neither allocate nor free nor escape anything. -/
def CallKind.keepsHeap : CallKind → Bool
  | .guardAcquire | .assumeInit | .maybeUninitInit | .maybeUninitWrite | .maybeUninitAsMutPtr
  | .bufWrite | .ptrRead => true
  | _ => false

theorem applyCallKind_keepsHeap {kind : CallKind} (hkind : kind.keepsHeap = true) (tcx : TyCtxt)
    (body : Body) (path : String) (args : List Operand) (dest : Local) (bb : Nat)
    (u : BlockState) : (applyCallKind tcx body path kind args dest bb u).heap = u.heap := by
  have hclear : ∀ {v : BlockState}, Writes [.pointsTo, .localProto, .init, .muRawPtr, .typestate,
      .mustSet .bufWritten] u v → (v.clearScalarFacts dest).heap = u.heap := fun {v} hw =>
    (hw .heap (by decide)).trans (clearScalarFacts_writes v dest .heap (by decide))
  have hpass : ∀ v, Writes [.pointsTo, .localProto, .init, .muRawPtr, .typestate,
      .mustSet .bufWritten] v ((passObjects args dest v).dropProto dest) := fun v =>
    ((v.setObjects_writes dest _).mono (by decide)).trans
      ((BlockState.dropProto_writes _ dest).mono (by decide))
  cases kind with
  | guardAcquire => exact hclear ((acquireProto_writes u dest bb).mono (by decide))
  | assumeInit =>
      refine hclear (Writes.trans ?_ (hpass _))
      split
      · exact (u.clearInit_writes _).mono (by decide)
      · exact .refl _ u
  | maybeUninitInit =>
      have hlast : (BlockState.insertInit (((passObjects args dest u).dropProto dest).clearScalarFacts
          dest) dest).heap = _ := BlockState.insertInit_writes _ dest .heap (by decide)
      exact hlast.trans (hclear (hpass u))
  | maybeUninitWrite =>
      exact hclear (((initReceiver_writes u args).mono (by decide)).trans
        ((BlockState.dropProto_writes _ dest).mono (by decide)))
  | maybeUninitAsMutPtr =>
      exact hclear (((pointIntoReceiver_writes u args dest).mono (by decide)).trans
        ((BlockState.dropProto_writes _ dest).mono (by decide)))
  | bufWrite =>
      refine hclear (Writes.trans ?_ (((BlockState.setObjects_writes _ dest none).mono
        (by decide)).trans ((BlockState.dropProto_writes _ dest).mono (by decide))))
      split
      · exact (u.insertMust_writes _ _).mono (by decide)
      · exact .refl _ u
  | ptrRead => exact hclear (hpass u)
  | _ => cases hkind

/-! ## Merges -/

/-- **A merge that reports no change writes set-valued maps at most**, where an empty set
may have been added. -/
theorem joined_writes {t : BlockState} (h : (s.joinWith t).2 = false) :
    Writes [.pointsTo, .localProto, .ownerAlias, .fieldOwned] s (s.joined t) := by
  simp only [BlockState.joinWith, BlockState.flags, List.any_cons, List.any_nil, id,
    Bool.or_eq_false_iff, Bool.or_false] at h
  obtain ⟨hheap, _, _, htype, hforget, hinit, hfacts, hpairFacts, hconstFacts, hmust, hpairs, hmay,
    _, hfn, hupper, hlower, harray, hspawn, _, hmu, hmuFields, hvariant⟩ := h
  intro field hf
  cases field with
  | heap =>
      exact (growing_lawful HeapState.combine_lawful).eq_of_not_changed _ _ (fun _ _ _ => rfl) hheap
  | typestate =>
      exact (growing_lawful ProtocolState.combine_lawful).eq_of_not_changed _ _
        (fun _ _ _ => rfl) htype
  | untrackedForgetSeen => exact raiseFlag_lawful.eq_of_not_changed _ _ trivial hforget
  | init =>
      exact (growing_lawful InitState.combine_lawful).eq_of_not_changed _ _ (fun _ _ _ => rfl) hinit
  | fact k =>
      exact union_lawful.eq_of_not_changed _ _ (fun _ _ _ => rfl)
        ((family_not_changed Fact.mem_all).mp hfacts k)
  | pairFact k =>
      exact union_lawful.eq_of_not_changed _ _ (fun _ _ _ => rfl)
        ((family_not_changed PairFact.mem_all).mp hpairFacts k)
  | constFact k =>
      exact union_lawful.eq_of_not_changed _ _ (fun _ _ _ => rfl)
        ((family_not_changed ConstFact.mem_all).mp hconstFacts k)
  | mustSet k =>
      exact interSet_lawful.eq_of_not_changed _ _ trivial
        ((family_not_changed MustSet.mem_all).mp hmust k)
  | mustPairs k =>
      exact interSet_lawful.eq_of_not_changed _ _ trivial
        ((family_not_changed MustPairs.mem_all).mp hpairs k)
  | maySet k =>
      exact unionSet_lawful.eq_of_not_changed _ _ trivial
        ((family_not_changed MaySet.mem_all).mp hmay k)
  | fnPtrTargets => exact agreement_lawful.eq_of_not_changed _ _ trivial hfn
  | constUpper => exact constUpper_lawful.eq_of_not_changed _ _ trivial hupper
  | constLower => exact constLower_lawful.eq_of_not_changed _ _ trivial hlower
  | arrayComponents => exact union_lawful.eq_of_not_changed _ _ (fun _ _ _ => rfl) harray
  | threadSpawned => exact raiseFlag_lawful.eq_of_not_changed _ _ trivial hspawn
  | muRawPtr => exact agreement_lawful.eq_of_not_changed _ _ trivial hmu
  | muFieldInits =>
      exact (shrinking_lawful muFieldInits_reconcile).eq_of_not_changed _ _ trivial hmuFields
  | activeVariant => exact agreement_lawful.eq_of_not_changed _ _ trivial hvariant
  | _ => exact absurd (by decide) hf

end Stages

end San
