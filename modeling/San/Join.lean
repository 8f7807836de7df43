import San.State
import San.JoinDiscipline

/-! # Merging two abstract states

`BlockState.joinWith` merges the state of one predecessor into another's and
reports whether anything changed.  Each field has one of the disciplines of
`San.JoinDiscipline`; `Disciplines` lists them in the order of the source.  The
merged state and the flag are then read off that list, so a field cannot be merged
one way and reported another.
-/
namespace San

namespace Disciplines
open Discipline

abbrev heap : Discipline (FMap ObjectId HeapState) := growing (combineBy HeapState.join)
abbrev typestate : Discipline (FMap ProtocolId ProtocolState) :=
  growing (combineBy ProtocolState.join)

/-- A key bound on one side only keeps that side's value. -/
abbrev init : Discipline (FMap Local InitState) := growing (combineBy InitState.join)

/-- `points_to`, `local_proto`, `owner_alias` and `field_owned`: sets are united. -/
abbrev sets {K V : Type} [DecidableEq K] [DecidableEq V] : Discipline (FMap K (Finset V)) :=
  growing collect

/-- The `UNION` fact maps: the value already present wins. -/
abbrev union {K V : Type} [DecidableEq K] [DecidableEq V] : Discipline (FMap K V) :=
  growing keepFirst

abbrev facts : Discipline (Fact → FMap Local Local) := family Fact.all union
abbrev pairFacts : Discipline (PairFact → FMap Local (Local × Local)) := family PairFact.all union
abbrev constFacts : Discipline (ConstFact → FMap Local (Local × U64)) :=
  family ConstFact.all union
abbrev mustSets : Discipline (MustSet → Finset Local) := family MustSet.all interSet
abbrev mustPairs : Discipline (MustPairs → Finset (Local × Local)) :=
  family MustPairs.all interSet
abbrev maySets : Discipline (MaySet → Finset Local) := family MaySet.all unionSet

/-- `fn_ptr_targets`, `mu_raw_ptr` and `active_variant`: intersection with agreement. -/
abbrev agreement {V : Type} [DecidableEq V] : Discipline (FMap Local V) := shrinking agreeing

/-- The weakest bound that holds on both sides. -/
abbrev constUpper : Discipline (FMap Local U64) := shrinking (weaken max)
abbrev constLower : Discipline (FMap Local U64) := shrinking (weaken min)

abbrev muFieldInits : Discipline (FMap Local (Finset FieldIdx)) := shrinking (weaken (· ∩ ·))

end Disciplines

namespace BlockState

/-- The merged state: the first component of `join_with`. -/
def joined (a b : BlockState) : BlockState where
  heap := Disciplines.heap.join a.heap b.heap
  pointsTo := Disciplines.sets.join a.pointsTo b.pointsTo
  localProto := Disciplines.sets.join a.localProto b.localProto
  typestate := Disciplines.typestate.join a.typestate b.typestate
  untrackedForgetSeen := Discipline.raiseFlag.join a.untrackedForgetSeen b.untrackedForgetSeen
  init := Disciplines.init.join a.init b.init
  facts := Disciplines.facts.join a.facts b.facts
  pairFacts := Disciplines.pairFacts.join a.pairFacts b.pairFacts
  constFacts := Disciplines.constFacts.join a.constFacts b.constFacts
  mustSets := Disciplines.mustSets.join a.mustSets b.mustSets
  mustPairs := Disciplines.mustPairs.join a.mustPairs b.mustPairs
  maySets := Disciplines.maySets.join a.maySets b.maySets
  ownerAlias := Disciplines.sets.join a.ownerAlias b.ownerAlias
  fnPtrTargets := Disciplines.agreement.join a.fnPtrTargets b.fnPtrTargets
  constUpper := Disciplines.constUpper.join a.constUpper b.constUpper
  constLower := Disciplines.constLower.join a.constLower b.constLower
  arrayComponents := Disciplines.union.join a.arrayComponents b.arrayComponents
  threadSpawned := Discipline.raiseFlag.join a.threadSpawned b.threadSpawned
  fieldOwned := Disciplines.sets.join a.fieldOwned b.fieldOwned
  muRawPtr := Disciplines.agreement.join a.muRawPtr b.muRawPtr
  muFieldInits := Disciplines.muFieldInits.join a.muFieldInits b.muFieldInits
  activeVariant := Disciplines.agreement.join a.activeVariant b.activeVariant

/-- The flags of the fields, in the order of `BlockState`. -/
def flags (a b : BlockState) : List Bool :=
  [ Disciplines.heap.changed a.heap b.heap,
    Disciplines.sets.changed a.pointsTo b.pointsTo,
    Disciplines.sets.changed a.localProto b.localProto,
    Disciplines.typestate.changed a.typestate b.typestate,
    Discipline.raiseFlag.changed a.untrackedForgetSeen b.untrackedForgetSeen,
    Disciplines.init.changed a.init b.init,
    Disciplines.facts.changed a.facts b.facts,
    Disciplines.pairFacts.changed a.pairFacts b.pairFacts,
    Disciplines.constFacts.changed a.constFacts b.constFacts,
    Disciplines.mustSets.changed a.mustSets b.mustSets,
    Disciplines.mustPairs.changed a.mustPairs b.mustPairs,
    Disciplines.maySets.changed a.maySets b.maySets,
    Disciplines.sets.changed a.ownerAlias b.ownerAlias,
    Disciplines.agreement.changed a.fnPtrTargets b.fnPtrTargets,
    Disciplines.constUpper.changed a.constUpper b.constUpper,
    Disciplines.constLower.changed a.constLower b.constLower,
    Disciplines.union.changed a.arrayComponents b.arrayComponents,
    Discipline.raiseFlag.changed a.threadSpawned b.threadSpawned,
    Disciplines.sets.changed a.fieldOwned b.fieldOwned,
    Disciplines.agreement.changed a.muRawPtr b.muRawPtr,
    Disciplines.muFieldInits.changed a.muFieldInits b.muFieldInits,
    Disciplines.agreement.changed a.activeVariant b.activeVariant ]

/-- Merge `b` into `a`; the flag says whether any field reported a change. -/
def joinWith (a b : BlockState) : BlockState × Bool := (a.joined b, (a.flags b).any id)

end BlockState

end San
