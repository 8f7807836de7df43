import San.FiniteMap
import San.Mir

/-! # The abstract state at a program point

`BlockState` is what the analysis knows at one point of a body: the abstract
heap, the protocol states, and some fifty per-local domains.  Most of these
domains come in families that are read, updated and joined the same way, so a
family is one component indexed by the name of its member:

* `facts`, `pairFacts`, `constFacts` — what a comparison temporary stands for
  (`lt_facts`, `lt_for`, `const_lt`, …) and where a value comes from
  (`ref_base`, `len_of`, `cast_origin`, …);
* `mustSets`, `mustPairs` — what is proven on all reaching paths (`bounded`,
  `nonzero`, `eq_locals`, …);
* `maySets` — what holds on some reaching path (`fd_consumed`, `mul_overflow`, …).

A member keeps the name of the source field, so that `state.lt_facts` is
`s.facts .ltFacts`.
-/
namespace San

/-! ## Heap, protocol and initialization states -/

structure ObjectId where
  id : U32
deriving DecidableEq, Repr

structure ProtocolId where
  id : U32
deriving DecidableEq, Repr

theorem ObjectId.ext_id {a b : ObjectId} (h : a.id = b.id) : a = b := by
  cases a; cases b; cases h; rfl

theorem ProtocolId.ext_id {a b : ProtocolId} (h : a.id = b.id) : a = b := by
  cases a; cases b; cases h; rfl

instance : Finite ObjectId := Finite.of_injective ObjectId.id fun _ _ h => ObjectId.ext_id h

/-- Objects are ordered by id. -/
instance : LinearOrder ObjectId := LinearOrder.lift' ObjectId.id fun _ _ h => ObjectId.ext_id h
instance ObjectId.isTransLe : IsTrans ObjectId (· ≤ ·) := inferInstance
instance ObjectId.antisymmLe : Std.Antisymm fun a b : ObjectId => a ≤ b := inferInstance

instance : Finite ProtocolId := Finite.of_injective ProtocolId.id fun _ _ h => ProtocolId.ext_id h

inductive InitState
  | initialized
  | unknown
deriving DecidableEq, Repr

def InitState.join (a b : InitState) : InitState := if a = b then a else .unknown

inductive HeapState
  | rawOwned
  | reconstituted
  | maybeFreed
  | escaped
deriving DecidableEq, Repr

namespace HeapState

def join (a b : HeapState) : HeapState :=
  if a = b then a
  else match a, b with
    | escaped, _ => escaped
    | _, escaped => escaped
    | _, _ => maybeFreed

/-- The two states in which the allocation's ownership was handed off, on all
paths or on some. -/
def isFreed : HeapState → Bool
  | reconstituted => true
  | maybeFreed => true
  | _ => false

end HeapState

inductive ProtocolState
  | active
  | consumed
  | forgotten
  | maybeActive
deriving DecidableEq, Repr

def ProtocolState.join (a b : ProtocolState) : ProtocolState := if a = b then a else .maybeActive

/-! ## The families -/

/-- The `HashMap<Local, Local>` fields joined by union. -/
inductive Fact
  | ltFacts | geFacts | leFacts | gtFacts
  | refBase | lenOf | capOf
  | spareIfTrue | spareIfFalse | fullIfTrue | fullIfFalse
  | nonzeroIfTrue | nonzeroIfFalse | finiteIfTrue | nanIfTrue
  | castOrigin
deriving DecidableEq, Repr

/-- The `HashMap<Local, (Local, Local)>` fields joined by union. -/
inductive PairFact
  | nePairIfTrue | eqPairIfTrue | ltFor | leFor
deriving DecidableEq, Repr

/-- The `HashMap<Local, (Local, u64)>` fields joined by union. -/
inductive ConstFact
  | constLt | constLe | constGt | constGe
deriving DecidableEq, Repr

/-- The `HashSet<Local>` fields joined by intersection. -/
inductive MustSet
  | bufWritten | bounded | boundedOrEq | hasSpare | isFull | nonzero | finite | fdOrigin
deriving DecidableEq, Repr

/-- The `HashSet<(Local, Local)>` fields joined by intersection. -/
inductive MustPairs
  | eqLocals | keysAreNe | indexBoundedFor | indexBoundedOrEqFor
deriving DecidableEq, Repr

/-- The sets of locals joined by union. -/
inductive MaySet
  | reallocedParams | fdConsumed | constPtrCast | mulOverflow | layoutOverflow
deriving DecidableEq, Repr

def Fact.all : List Fact :=
  [.ltFacts, .geFacts, .leFacts, .gtFacts, .refBase, .lenOf, .capOf, .spareIfTrue, .spareIfFalse,
    .fullIfTrue, .fullIfFalse, .nonzeroIfTrue, .nonzeroIfFalse, .finiteIfTrue, .nanIfTrue,
    .castOrigin]

def PairFact.all : List PairFact := [.nePairIfTrue, .eqPairIfTrue, .ltFor, .leFor]

def ConstFact.all : List ConstFact := [.constLt, .constLe, .constGt, .constGe]

def MustSet.all : List MustSet :=
  [.bufWritten, .bounded, .boundedOrEq, .hasSpare, .isFull, .nonzero, .finite, .fdOrigin]

def MustPairs.all : List MustPairs :=
  [.eqLocals, .keysAreNe, .indexBoundedFor, .indexBoundedOrEqFor]

def MaySet.all : List MaySet :=
  [.reallocedParams, .fdConsumed, .constPtrCast, .mulOverflow, .layoutOverflow]

theorem Fact.mem_all (k : Fact) : k ∈ Fact.all := by cases k <;> decide
theorem PairFact.mem_all (k : PairFact) : k ∈ PairFact.all := by cases k <;> decide
theorem ConstFact.mem_all (k : ConstFact) : k ∈ ConstFact.all := by cases k <;> decide
theorem MustSet.mem_all (k : MustSet) : k ∈ MustSet.all := by cases k <;> decide
theorem MustPairs.mem_all (k : MustPairs) : k ∈ MustPairs.all := by cases k <;> decide
theorem MaySet.mem_all (k : MaySet) : k ∈ MaySet.all := by cases k <;> decide

/-! ## The state -/

@[ext] structure BlockState where
  heap : FMap ObjectId HeapState
  /-- The objects a local may point to. -/
  pointsTo : FMap Local (Finset ObjectId)
  /-- The protocol instances a local may hold. -/
  localProto : FMap Local (Finset ProtocolId)
  typestate : FMap ProtocolId ProtocolState
  untrackedForgetSeen : Bool
  /-- Whether a `MaybeUninit` local is initialized. -/
  init : FMap Local InitState
  facts : Fact → FMap Local Local
  pairFacts : PairFact → FMap Local (Local × Local)
  constFacts : ConstFact → FMap Local (Local × U64)
  mustSets : MustSet → Finset Local
  mustPairs : MustPairs → Finset (Local × Local)
  maySets : MaySet → Finset Local
  /-- The owners whose interior a pointer may alias. -/
  ownerAlias : FMap Local (Finset Local)
  /-- The function a function pointer was reified from. -/
  fnPtrTargets : FMap Local DefId
  constUpper : FMap Local U64
  constLower : FMap Local U64
  arrayComponents : FMap Local (List Local)
  threadSpawned : Bool
  /-- The objects stored in a field of a base local. -/
  fieldOwned : FMap (Local × FieldIdx) (Finset ObjectId)
  /-- The `MaybeUninit` local a raw pointer points into. -/
  muRawPtr : FMap Local Local
  /-- The fields written so far of a `MaybeUninit` local. -/
  muFieldInits : FMap Local (Finset FieldIdx)
  /-- The union field written last. -/
  activeVariant : FMap Local FieldIdx

namespace BlockState

/-- `BlockState::default()`. -/
def default : BlockState where
  heap := ∅
  pointsTo := ∅
  localProto := ∅
  typestate := ∅
  untrackedForgetSeen := false
  init := ∅
  facts _ := ∅
  pairFacts _ := ∅
  constFacts _ := ∅
  mustSets _ := ∅
  mustPairs _ := ∅
  maySets _ := ∅
  ownerAlias := ∅
  fnPtrTargets := ∅
  constUpper := ∅
  constLower := ∅
  arrayComponents := ∅
  threadSpawned := false
  fieldOwned := ∅
  muRawPtr := ∅
  muFieldInits := ∅
  activeVariant := ∅

/-! ### Updating members of a family -/

def onFacts (s : BlockState) (ks : List Fact) (f : FMap Local Local → FMap Local Local) :
    BlockState :=
  { s with facts := fun k => if k ∈ ks then f (s.facts k) else s.facts k }

def onPairFacts (s : BlockState) (ks : List PairFact)
    (f : FMap Local (Local × Local) → FMap Local (Local × Local)) : BlockState :=
  { s with pairFacts := fun k => if k ∈ ks then f (s.pairFacts k) else s.pairFacts k }

def onConstFacts (s : BlockState) (ks : List ConstFact)
    (f : FMap Local (Local × U64) → FMap Local (Local × U64)) : BlockState :=
  { s with constFacts := fun k => if k ∈ ks then f (s.constFacts k) else s.constFacts k }

def onMustSets (s : BlockState) (ks : List MustSet) (f : Finset Local → Finset Local) :
    BlockState :=
  { s with mustSets := fun k => if k ∈ ks then f (s.mustSets k) else s.mustSets k }

def onMustPairs (s : BlockState) (ks : List MustPairs)
    (f : Finset (Local × Local) → Finset (Local × Local)) : BlockState :=
  { s with mustPairs := fun k => if k ∈ ks then f (s.mustPairs k) else s.mustPairs k }

def onMaySets (s : BlockState) (ks : List MaySet) (f : Finset Local → Finset Local) :
    BlockState :=
  { s with maySets := fun k => if k ∈ ks then f (s.maySets k) else s.maySets k }

/-! ### Owner aliases and field ownership -/

/-- The owners whose interior `ptr` aliases. -/
def ownersOf (s : BlockState) (ptr : Local) : Finset Local := (s.ownerAlias.get ptr).getD ∅

/-- Break every alias to an owner in `owners`; nothing happens when there is none,
and an alias left without owners is dropped. -/
def invalidateOwners (s : BlockState) (owners : Finset Local) : BlockState :=
  if owners = ∅ then s
  else
    { s with
      ownerAlias := s.ownerAlias.filterMap fun _ os =>
        let rest := os \ owners
        if rest = ∅ then none else some rest }

def invalidateOwner (s : BlockState) (owner : Local) : BlockState := s.invalidateOwners {owner}

def clearFieldOwnedFor (s : BlockState) (base : Local) : BlockState :=
  { s with fieldOwned := s.fieldOwned.retain fun key _ => key.1 ≠ base }

/-! ### Objects -/

/-- The objects `l` may point to. -/
def objectsFor (s : BlockState) (l : Local) : Finset ObjectId := (s.pointsTo.get l).getD ∅

/-- What escaping does to the state of one object: a freed object stays freed. -/
def escapeObject : Option HeapState → Option HeapState
  | some .reconstituted => some .reconstituted
  | some .maybeFreed => some .maybeFreed
  | _ => some .escaped

/-- What freeing does to the state of one object: only `RawOwned` changes. -/
def reconstituteObject : Option HeapState → Option HeapState
  | some .rawOwned => some .reconstituted
  | o => o

def escapeLocal (s : BlockState) (l : Local) : BlockState :=
  { s with
    heap := s.heap.alter (s.objectsFor l) escapeObject
    pointsTo := s.pointsTo.erase l
    localProto := s.localProto.erase l
    ownerAlias := s.ownerAlias.erase l }

/-- Free every object `l` may point to. -/
def reconstitute (s : BlockState) (l : Local) : BlockState :=
  { s with heap := s.heap.alter (s.objectsFor l) reconstituteObject }

/-- The object allocated by the call that ends block `bb`: `ObjectId(bb.index() as u32)`. -/
def callSiteObject (bb : Nat) : ObjectId := ⟨Fin.ofNat (2 ^ 32) bb⟩

/-- `dest` points to the object of its call site, freshly owned. -/
def mintRawOwned (s : BlockState) (dest : Local) (bb : Nat) : BlockState :=
  { s with
    pointsTo := s.pointsTo.insert dest {callSiteObject bb}
    heap := s.heap.insert (callSiteObject bb) .rawOwned }

/-! ### Queries -/

def hasForgottenProtocol (s : BlockState) : Bool :=
  s.untrackedForgetSeen || decide (∃ id ∈ s.typestate.keys, s.typestate.get id = some .forgotten)

def ptrIsRawOwned (s : BlockState) (l : Local) : Bool :=
  decide (s.objectsFor l ≠ ∅ ∧ ∀ id ∈ s.objectsFor l, s.heap.get id = some .rawOwned)

def localIsBounded (s : BlockState) (l : Local) : Bool := decide (l ∈ s.mustSets .bounded)

def localIsNonzero (s : BlockState) (l : Local) : Bool :=
  decide (l ∈ s.mustSets .nonzero) || (s.constLower.get l).any (fun lb => decide (1 ≤ lb))

def localUpperBound (s : BlockState) (l : Local) : Option U64 := s.constUpper.get l

def localLowerBound (s : BlockState) (l : Local) : Option U64 := s.constLower.get l

/-- Is `l` proven to be a Unicode scalar value: in range, and outside the surrogates? -/
def localIsValidScalar (s : BlockState) (l : Local) : Bool :=
  (s.constUpper.get l).any (fun u => decide (u.val ≤ 0x10FFFF)) &&
    ((s.constUpper.get l).any (fun u => decide (u.val < 0xD800)) ||
      (s.constLower.get l).any (fun lb => decide (0xDFFF < lb.val)))

def localIsAscii (s : BlockState) (l : Local) : Bool :=
  (s.constUpper.get l).any fun u => decide (u.val ≤ 127)

/-- Is `idx` proven to be less than the length of `coll`? -/
def indexIsBoundedFor (s : BlockState) (idx coll : Local) : Bool :=
  decide ((idx, coll) ∈ s.mustPairs .indexBoundedFor)

def collectionHasSpare (s : BlockState) (l : Local) : Bool := decide (l ∈ s.mustSets .hasSpare)

def fdWasTransferred (s : BlockState) (l : Local) : Bool := decide (l ∈ s.mustSets .fdOrigin)

def fdIsConsumed (s : BlockState) (l : Local) : Bool := decide (l ∈ s.maySets .fdConsumed)

def localIsMaybeuninitInitialized (s : BlockState) (l : Local) : Bool :=
  s.init.get l == some .initialized

/-- Follow one `ref_base` hop. -/
def derefBase (s : BlockState) (l : Local) : Local := ((s.facts .refBase).get l).getD l

end BlockState

/-- Whether a pointer's use is a use-after-free. -/
inductive FreedKind
  | notFreed
  | definite
  | potential
deriving DecidableEq, Repr

/-- Is the object state one of the freed ones? -/
def freedState (o : Option HeapState) : Bool := o.any HeapState.isFreed

def BlockState.freedKind (s : BlockState) (l : Local) : FreedKind :=
  let objs := s.objectsFor l
  if objs = ∅ then .notFreed
  else
    let anyFreed := decide (∃ id ∈ objs, freedState (s.heap.get id) = true)
    let allReconstituted := decide (∀ id ∈ objs, s.heap.get id = some .reconstituted)
    match anyFreed, allReconstituted with
    | true, true => .definite
    | true, false => .potential
    | _, _ => .notFreed

/-- A pointer counts as freed if one of its objects does. -/
theorem BlockState.freedKind_ne_notFreed_iff {s : BlockState} {l : Local} :
    s.freedKind l ≠ .notFreed ↔ ∃ o ∈ s.objectsFor l, freedState (s.heap.get o) = true := by
  unfold BlockState.freedKind
  dsimp only
  by_cases hany : ∃ o ∈ s.objectsFor l, freedState (s.heap.get o) = true
  · have hne : s.objectsFor l ≠ ∅ := by
      obtain ⟨o, ho, -⟩ := hany
      exact Finset.ne_empty_of_mem ho
    rw [if_neg hne, decide_eq_true hany]
    refine ⟨fun _ => hany, fun _ => ?_⟩
    cases decide (∀ id ∈ s.objectsFor l, s.heap.get id = some .reconstituted) <;> exact nofun
  · rw [decide_eq_false hany]
    refine ⟨fun h => absurd ?_ h, fun h => absurd h hany⟩
    split <;> rfl

end San
