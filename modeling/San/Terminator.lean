import San.EdgeRefinement
import San.Summary

/-! # The transfer function of a terminator

`applyTerminator` follows `apply_terminator`.  Almost all of it is the treatment of
a call: the callee is resolved, pointers into a reallocated buffer go stale, aliases
that the callee may break are dropped, and then the call is recognised by its
definition path.  The source's `if … else if …` chain over the path is `classify`,
and each branch of the chain is one definition.
-/
namespace San

/-- The first object id reserved for pointers that a reallocation made stale. -/
def reallocBase : U32 := ⟨0x40000000, by decide⟩

/-- `ObjectId(REALLOC_BASE + p)`. -/
def staleObject (p : Local) : ObjectId := ⟨reallocBase + p.index⟩

/-! ## Before the callee is looked at -/

/-- The function a call goes to: a function item, resolved to the implementation if
it is a trait method, or the known target of a function pointer. -/
def resolveCallee (tcx : TyCtxt) (body : Body) (func : Operand) (s : BlockState) :
    Option DefId :=
  match func.constFnDef with
  | some (id, substs) =>
      if (tcx.traitOfAssoc id).isSome then
        match tcx.tryResolve body.defId id substs with
        | some (.item did) => some did
        | _ => some id
      else some id
  | none => (operandLocal func).bind s.fnPtrTargets.get

/-- The argument whose buffer the call reallocates. -/
def reallocReceiver (tcx : TyCtxt) (summaries : SummaryMap) (callee : Option DefId)
    (args : List Operand) : Option Local :=
  if callee.any fun id => isReallocatingMethod (tcx.defPathStr id) then firstArgLocal args
  else
    ((callee.bind summaries.get).bind FnSummary.reallocsParam).bind (nthArgLocal args)

/-- The owners of the buffer behind `recv`, or `recv` itself. -/
def bufferOwners (recv : Local) (s : BlockState) : Finset Local :=
  if s.ownersOf recv = ∅ then {recv} else s.ownersOf recv

/-- The non-reference handles that alias one of `owners`. -/
def stalePointers (body : Body) (owners : Finset Local) (s : BlockState) : Finset Local :=
  s.ownerAlias.keys.filter fun p =>
    (∃ o ∈ owners, o ∈ s.ownersOf p) ∧ (body.localTy p).isRef = false

/-- Point every handle of `stale` to an object of its own that may be freed. -/
def detachStale (stale : Finset Local) (s : BlockState) : BlockState :=
  { s with
    heap := s.heap.assign (stale.image staleObject) fun _ => .maybeFreed
    pointsTo := s.pointsTo.assign stale fun p => {staleObject p}
    ownerAlias := s.ownerAlias.retain fun p _ => p ∉ stale }

/-- Reallocating the buffer behind `recv` leaves every handle into it possibly freed. -/
def markStale (body : Body) (recv : Local) (s : BlockState) : BlockState :=
  let owners := bufferOwners recv s
  let stale := stalePointers body owners s
  detachStale stale
    (s.onMaySets [.reallocedParams] (· ∪ owners.filter fun o => isParam body o))

/-- The same, for a call that may have no such receiver. -/
def reallocate (body : Body) (recv : Option Local) (s : BlockState) : BlockState :=
  match recv with
  | some recv => markStale body recv s
  | none => s

/-- `&mut T`. -/
def isMutableRefTy : Ty → Bool
  | .ref _ .mut => true
  | _ => false

/-- Every owner that some pointer aliases. -/
def liveOwners (s : BlockState) : Finset Local :=
  s.ownerAlias.keys.biUnion s.ownersOf

/-- The owners that a callee may reassign through the argument `arg`. -/
def argInvalidates (body : Body) (s : BlockState) (arg : Operand) : Finset Local :=
  match arg.place with
  | none => ∅
  | some p =>
      if isMutableRefTy (body.localTy p.base) then
        s.ownersOf p.base ∪ (liveOwners s).filter (· = p.base)
      else ∅

/-- Break the aliases to owners passed by mutable reference, except through argument
`skip`. -/
def invalidateOwnerArgs (body : Body) (args : List Operand) (skip : Option Nat)
    (s : BlockState) : BlockState :=
  s.invalidateOwners
    ((args.zipIdx.filter fun a => some a.2 ≠ skip).foldr
      (fun a owners => argInvalidates body s a.1 ∪ owners) ∅)

/-- A collection passed by `&mut` or `*mut` may change its length. -/
def killCapacityArg (body : Body) (s : BlockState) (arg : Operand) : BlockState :=
  match operandLocal arg with
  | none => s
  | some l =>
      if isMutableRefTy (body.localTy l) || (body.localTy l).isMutPtr then
        s.onMustSets [.hasSpare, .isFull] (·.erase (s.derefBase l))
      else s

/-- Escape a tracked or raw-pointer argument of an opaque call. -/
def escapeRawPtrArg (body : Body) (s : BlockState) (arg : Operand) : BlockState :=
  match operandLocal arg with
  | none => s
  | some l =>
      if (body.localTy l).isRawPtr || (s.pointsTo.get l).isSome then s.escapeLocal l else s

def escapeRawPtrArgs (body : Body) (args : List Operand) (s : BlockState) : BlockState :=
  args.foldl (escapeRawPtrArg body) s

/-- What every call does, whoever the callee is. -/
def enterCall (tcx : TyCtxt) (body : Body) (summaries : SummaryMap) (callee : Option DefId)
    (args : List Operand) (dest : Local) (s : BlockState) : BlockState :=
  let s := reallocate body (reallocReceiver tcx summaries callee args) s
  let aliasSrcArg := (callee.bind summaries.get).bind FnSummary.returnsAliasOfParam
  let s := invalidateOwnerArgs body args aliasSrcArg s
  let s := (s.invalidateOwner dest).setOwners dest none
  args.foldl (killCapacityArg body) s

/-! ## Facts about the result -/

/-- Record `k` of `dest` about the collection that the first argument borrows. -/
def recordReceiver (k : Fact) (args : List Operand) (dest : Local) (s : BlockState) :
    BlockState :=
  match firstArgLocal args with
  | some recv => s.insertFact k dest (s.derefBase recv)
  | none => s

/-- Record `k` of `dest` about the first argument. -/
def recordArg (k : Fact) (args : List Operand) (dest : Local) (s : BlockState) : BlockState :=
  match firstArgLocal args with
  | some recv => s.insertFact k dest recv
  | none => s

/-- `PartialEq::eq` and `PartialEq::ne` on borrowed operands. -/
def recordPartialEq (path : String) (args : List Operand) (dest : Local) (s : BlockState) :
    BlockState :=
  if (endsWith path "::ne" || endsWith path "::eq") && args.length == 2 then
    match (nthArgLocal args 0).map s.derefBase, (nthArgLocal args 1).map s.derefBase with
    | some a, some b =>
        let kind := if endsWith path "::ne" then .nePairIfTrue else .eqPairIfTrue
        s.onPairFacts [kind] (·.insert dest (a, b))
    | _, _ => s
  else s

/-- `len()` and `capacity()`. -/
def recordLength (path : String) (args : List Operand) (dest : Local) (s : BlockState) :
    BlockState :=
  if endsWith path "::len" || endsWith path "::capacity" then
    recordReceiver (if endsWith path "::capacity" then .capOf else .lenOf) args dest s
  else s

/-- `is_nan()` and `is_finite()`. -/
def recordFiniteness (path : String) (args : List Operand) (dest : Local) (s : BlockState) :
    BlockState :=
  if endsWith path "::is_nan" then recordArg .nanIfTrue args dest s
  else if endsWith path "::is_finite" then recordArg .finiteIfTrue args dest s
  else s

/-- `deref()` and `deref_mut()` return a view of their receiver. -/
def recordDeref (path : String) (args : List Operand) (dest : Local) (s : BlockState) :
    BlockState :=
  if endsWith path "::deref" || endsWith path "::deref_mut" then
    recordReceiver .refBase args dest s
  else s

/-- Where raw file descriptors come from and go to. -/
def recordFd (path : String) (args : List Operand) (dest : Local) (s : BlockState) :
    BlockState :=
  if isIntoRawFd path then s.insertMust .fdOrigin dest
  else if isFromRawFdCall path then
    match firstArgLocal args with
    | some arg => s.insertMay .fdConsumed arg
    | none => s
  else s

def markSpawned (s : BlockState) : BlockState := { s with threadSpawned := true }

/-- What the name of the callee says about its result. -/
def recordCallFacts (path : String) (args : List Operand) (dest : Local) (s : BlockState) :
    BlockState :=
  let s := recordLength path args dest s
  let s := recordFiniteness path args dest s
  let s := recordDeref path args dest s
  let s := recordFd path args dest s
  let s := if isThreadSpawn path then markSpawned s else s
  recordPartialEq path args dest s

/-! ## Recognised calls -/

/-- The branches of the source's chain, in its order. -/
inductive CallKind
  | rawRealloc
  | intoRaw
  | fromRaw
  | memForget
  | guardAcquire
  | assumeInit
  | maybeUninitInit
  | maybeUninitWrite
  | maybeUninitAsMutPtr
  | bufWrite
  | ptrRead
  | summarised (summary : FnSummary)
  | unknown

/-- Epoch pins and lock acquisitions are treated alike. -/
def classify (path : String) (summary : Option FnSummary) : CallKind :=
  if isRawRealloc path then .rawRealloc
  else if isIntoRaw path then .intoRaw
  else if isFromRaw path then .fromRaw
  else if isMemForget path then .memForget
  else if isEpochPin path then .guardAcquire
  else if isLockAcquire path then .guardAcquire
  else if isMaybeUninitAssumeInit path then .assumeInit
  else if isMaybeUninitInit path then .maybeUninitInit
  else if isMaybeUninitWrite path then .maybeUninitWrite
  else if isMaybeUninitAsMutPtr path then .maybeUninitAsMutPtr
  else if isBufWrite path then .bufWrite
  else if isPtrRead path then .ptrRead
  else match summary with
    | some s => .summarised s
    | none => .unknown

def firstArgBaseLocal (args : List Operand) : Option Local :=
  (args[0]?.bind Operand.place).map Place.base

/-- Free the objects of an optional local. -/
def reconstituteArg (src : Option Local) (s : BlockState) : BlockState :=
  match src with
  | some src => s.reconstitute src
  | none => s

def callRawRealloc (args : List Operand) (dest : Local) (bb : Nat) (s : BlockState) :
    BlockState :=
  ((reconstituteArg (firstArgLocal args) s).mintRawOwned dest bb).clearScalarFacts dest

def callIntoRaw (dest : Local) (bb : Nat) (s : BlockState) : BlockState :=
  (s.mintRawOwned dest bb).clearScalarFacts dest

/-- The reconstructed container aliases what its raw pointer aliased. -/
def inheritOwners (src : Option Local) (dest : Local) (s : BlockState) : BlockState :=
  let s := s.setOwners dest none
  match src with
  | some src => s.setOwners dest (s.ownerAlias.get src)
  | none => s

def callFromRaw (args : List Operand) (dest : Local) (s : BlockState) : BlockState :=
  let src := (firstArgLocal args).or (firstArgBaseLocal args)
  let s := reconstituteArg src s
  let s := (s.setObjects dest none).dropProto dest
  (inheritOwners src dest s).clearScalarFacts dest

/-- A type whose name looks like a lock guard's, directly or behind a reference. -/
def isGuardType (tcx : TyCtxt) : Ty → Bool
  | .adt a => contains (tcx.itemName a.did) "Guard"
  | .ref (.adt a) _ => contains (tcx.itemName a.did) "Guard"
  | _ => false

/-- The protocol instances of a local. -/
def protosOf (s : BlockState) (l : Local) : Finset ProtocolId := (s.localProto.get l).getD ∅

/-- Give up every protocol instance of `l`, which ends in state `st`. -/
def releaseProtos (l : Local) (st : ProtocolState) (s : BlockState) : BlockState :=
  { s with
    typestate := s.typestate.assign (protosOf s l) fun _ => st
    localProto := s.localProto.erase l }

/-- Forget that `l` is initialized or written to. -/
def clearContents (l : Local) (s : BlockState) : BlockState :=
  (s.clearInit l).onMustSets [.bufWritten] (·.erase l)

/-- Escape the objects of `l` for good, freed or not. -/
def escapeForever (l : Local) (s : BlockState) : BlockState :=
  { s with
    heap := s.heap.alter (s.objectsFor l) fun _ => some .escaped
    pointsTo := s.pointsTo.erase l }

/-- Remember whether an untracked guard was forgotten. -/
def noteForget (untracked : Bool) (s : BlockState) : BlockState :=
  { s with untrackedForgetSeen := s.untrackedForgetSeen || untracked }

/-- Forgetting a value escapes its objects and gives up its protocol instances. -/
def forgetArg (tcx : TyCtxt) (body : Body) (src : Local) (s : BlockState) : BlockState :=
  let untracked := decide (protosOf s src = ∅) && isGuardType tcx (body.localTy src)
  let s := noteForget untracked (escapeForever src s)
  clearContents src (releaseProtos src .forgotten s)

def callMemForget (tcx : TyCtxt) (body : Body) (args : List Operand) (dest : Local)
    (s : BlockState) : BlockState :=
  let s := match firstArgBaseLocal args with
    | some src => forgetArg tcx body src s
    | none => s
  clearTracking dest s

/-- The protocol instance of the call that ends block `bb`. -/
def callSiteProto (bb : Nat) : ProtocolId := ⟨Fin.ofNat (2 ^ 32) bb⟩

/-- Bind the protocol instance of this call to `dest`. -/
def acquireProto (dest : Local) (bb : Nat) (s : BlockState) : BlockState :=
  { s with
    localProto := s.localProto.insert dest (insert (callSiteProto bb) (protosOf s dest))
    typestate := s.typestate.insert (callSiteProto bb) .active }

def callGuardAcquire (dest : Local) (bb : Nat) (s : BlockState) : BlockState :=
  (acquireProto dest bb s).clearScalarFacts dest

/-- `dest` points where the first argument does, or nowhere. -/
def passObjects (args : List Operand) (dest : Local) (s : BlockState) : BlockState :=
  s.setObjects dest (nonempty ((firstArgLocal args).bind s.pointsTo.get))

def callAssumeInit (args : List Operand) (dest : Local) (s : BlockState) : BlockState :=
  let s := match firstArgLocal args with
    | some src => s.clearInit src
    | none => s
  ((passObjects args dest s).dropProto dest).clearScalarFacts dest

def callMaybeUninitInit (args : List Operand) (dest : Local) (s : BlockState) : BlockState :=
  (((passObjects args dest s).dropProto dest).clearScalarFacts dest).insertInit dest

/-- Initialize what the receiver borrows. -/
def initReceiver (args : List Operand) (s : BlockState) : BlockState :=
  match firstArgLocal args with
  | some selfRef => s.insertInit (s.derefBase selfRef)
  | none => s

/-- `MaybeUninit::write` initializes what its receiver borrows. -/
def callMaybeUninitWrite (args : List Operand) (dest : Local) (s : BlockState) : BlockState :=
  ((initReceiver args s).dropProto dest).clearScalarFacts dest

/-- `ptr` points into the `MaybeUninit` local `mu`. -/
def setMuPtr (ptr mu : Local) (s : BlockState) : BlockState :=
  { s with muRawPtr := s.muRawPtr.insert ptr mu }

/-- `dest` points into what the receiver borrows. -/
def pointIntoReceiver (args : List Operand) (dest : Local) (s : BlockState) : BlockState :=
  match firstArgLocal args with
  | some selfRef => setMuPtr dest (s.derefBase selfRef) s
  | none => s

def callMaybeUninitAsMutPtr (args : List Operand) (dest : Local) (s : BlockState) :
    BlockState :=
  ((pointIntoReceiver args dest s).dropProto dest).clearScalarFacts dest

def callBufWrite (args : List Operand) (dest : Local) (s : BlockState) : BlockState :=
  let s := match firstArgLocal args with
    | some buf => s.insertMust .bufWritten buf
    | none => s
  clearTracking dest s

def callPtrRead (args : List Operand) (dest : Local) (s : BlockState) : BlockState :=
  ((passObjects args dest s).dropProto dest).clearScalarFacts dest

/-- A summarised callee; a provenance-preserving accessor whose summary lost the
objects gets them back from its first argument. -/
def callSummarised (body : Body) (path : String) (summary : FnSummary) (args : List Operand)
    (dest : Local) (bb : Nat) (s : BlockState) : BlockState :=
  let s := applyFnSummary body args dest bb summary s
  let s := match firstArgLocal args with
    | some arg0 =>
        if isOwnedBufferAccessor path && (s.pointsTo.get dest).isNone then
          inheritObjects dest arg0 s
        else s
    | none => s
  s.clearScalarFacts dest

/-- The owners of what `l` points into have been written to. -/
def markOwnersWritten (l : Option Local) (s : BlockState) : BlockState :=
  match l with
  | some l => s.onMustSets [.bufWritten] (· ∪ s.ownersOf l)
  | none => s

/-- The result of a provenance-preserving accessor. -/
def inheritProvenance (args : List Operand) (dest : Local) (s : BlockState) : BlockState :=
  match firstArgLocal args with
  | none => s
  | some arg0 =>
      let s := match nonempty (s.ownerAlias.get arg0) with
        | some owners => s.setOwners dest (some owners)
        | none => s
      inheritObjects dest arg0 s

def callUnknown (body : Body) (path : String) (args : List Operand) (dest : Local)
    (s : BlockState) : BlockState :=
  let s :=
    if isOwnedBufferAccessor path then inheritProvenance args dest s
    else if isPtrWriteToFirstArg path then markOwnersWritten (firstArgLocal args) s
    else if isGlobalPtrCopyToSecondArg path then markOwnersWritten (nthArgLocal args 1) s
    else if isPtrPureRead path then s
    else escapeRawPtrArgs body args s
  (s.dropProto dest).clearScalarFacts dest

/-- The effect of a recognised call on its arguments and its result. -/
def applyCallKind (tcx : TyCtxt) (body : Body) (path : String) (kind : CallKind)
    (args : List Operand) (dest : Local) (bb : Nat) (s : BlockState) : BlockState :=
  match kind with
  | .rawRealloc => callRawRealloc args dest bb s
  | .intoRaw => callIntoRaw dest bb s
  | .fromRaw => callFromRaw args dest s
  | .memForget => callMemForget tcx body args dest s
  | .guardAcquire => callGuardAcquire dest bb s
  | .assumeInit => callAssumeInit args dest s
  | .maybeUninitInit => callMaybeUninitInit args dest s
  | .maybeUninitWrite => callMaybeUninitWrite args dest s
  | .maybeUninitAsMutPtr => callMaybeUninitAsMutPtr args dest s
  | .bufWrite => callBufWrite args dest s
  | .ptrRead => callPtrRead args dest s
  | .summarised summary => callSummarised body path summary args dest bb s
  | .unknown => callUnknown body path args dest s

/-- What is known of the result of any resolved call. -/
def leaveCall (tcx : TyCtxt) (body : Body) (path : String) (args : List Operand) (dest : Local)
    (s : BlockState) : BlockState :=
  let s := enforceTypeFacts tcx dest (body.localTy dest) s
  let s := if returnsNonNull path then s.insertMust .nonzero dest else s
  let s := if endsWith path "::dangling" then s.insertMust .nonzero dest else s
  if isLayoutFromSizeAlign path
      && (firstArgLocal args).any (fun l => decide (l ∈ s.maySets .mulOverflow)) then
    s.insertMay .layoutOverflow dest
  else s

/-- A call whose callee is `did` and whose destination is the whole local `dest`. -/
def applyResolvedCall (tcx : TyCtxt) (body : Body) (summaries : SummaryMap) (did : DefId)
    (args : List Operand) (dest : Local) (bb : Nat) (s : BlockState) : BlockState :=
  let path := tcx.defPathStr did
  let s := s.clearRedefined dest
  let s := recordCallFacts path args dest s
  let s := applyCallKind tcx body path (classify path (summaries.get did)) args dest bb s
  leaveCall tcx body path args dest s

/-- The effect of a call that ends the block with index `bb`. -/
def applyCall (tcx : TyCtxt) (body : Body) (summaries : SummaryMap) (bb : Nat) (func : Operand)
    (args : List Operand) (destination : Place) (s : BlockState) : BlockState :=
  let callee := resolveCallee tcx body func s
  let s := enterCall tcx body summaries callee args destination.base s
  match callee with
  | none => escapeRawPtrArgs body args s
  | some did =>
      if destination.isLocal then
        applyResolvedCall tcx body summaries did args destination.base bb s
      else escapeRawPtrArgs body args s

/-- Dropping a local consumes its protocol instances; its objects stay in the heap. -/
def applyDrop (place : Place) (s : BlockState) : BlockState :=
  if place.isLocal then
    let s := releaseProtos place.base .consumed s
    clearContents place.base (s.setObjects place.base none)
  else s

/-- The effect of the terminator of the block with index `bb`. -/
def applyTerminator (tcx : TyCtxt) (body : Body) (summaries : SummaryMap) (bb : Nat)
    (term : Terminator body.numBlocks) (s : BlockState) : BlockState :=
  match term.kind with
  | .call func args destination _ _ => applyCall tcx body summaries bb func args destination s
  | .assert cond expected _ _ => assertCondition cond expected s
  | .drop place _ _ => applyDrop place s
  | _ => s

end San
