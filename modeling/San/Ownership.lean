import San.CallChecks
import San.CallHeap

/-! # The ownership protocol checker

`OwnershipProtocol` reports raw allocations that a function returns without having freed, and
pointers that are freed twice.  `RawAllocator` notes the calls of the raw allocator and leaves
those that free a pointer a second time to it.

Both halves of the checker look at less than the analysis knows.  The leak check finds an
allocation through the locals that point to it, although the heap has an entry for each one
(`leaks_reported_iff`).  And the double-free check recognises a freeing call by tests of its own,
which are fewer than those of the transfer function (`double_frees_reported_iff`).
-/
namespace San

/-! ## What a call frees -/

/-- The argument that a `from_raw` call frees. -/
def fromRawArg (args : List Operand) : Option Local :=
  (firstArgLocal args).or (firstArgBaseLocal args)

/-- The arguments that a summarised callee frees. -/
def FnSummary.reconstitutedArgs (summary : FnSummary) (args : List Operand) : List Local :=
  summary.paramEffects.filterMap fun e =>
    if e.2 = .reconstituted then nthArgLocal args e.1 else none

/-- The arguments whose objects the transfer function frees at a call of this kind. -/
def CallKind.freedArgs (args : List Operand) : CallKind → List Local
  | .rawRealloc => (firstArgLocal args).toList
  | .fromRaw => (fromRawArg args).toList
  | .summarised summary => summary.reconstitutedArgs args
  | _ => []

section
variable {o : ObjectId} {u : BlockState}

/-- Freeing `l` moves to `Reconstituted` only objects that `l` points to, and moves nothing to
`RawOwned`. -/
theorem get_reconstitute (l : Local) :
    ((u.reconstitute l).heap.get o = some .reconstituted → u.heap.get o = some .reconstituted ∨
      o ∈ u.objectsFor l ∧ u.heap.get o = some .rawOwned) ∧
    ((u.reconstitute l).heap.get o = some .rawOwned → u.heap.get o = some .rawOwned) := by
  have hget : (u.reconstitute l).heap.get o = if o ∈ u.objectsFor l then
      BlockState.reconstituteObject (u.heap.get o) else u.heap.get o := FMap.get_alter _ _ _ _
  rw [hget]
  split
  · next hmem =>
      rcases u.heap.get o with _ | ⟨_ | _ | _ | _⟩ <;> simp [BlockState.reconstituteObject, hmem]
  · exact ⟨Or.inl, id⟩

/-- Escaping moves nothing to `Reconstituted` or to `RawOwned`. -/
theorem get_escapeLocal (l : Local) {st : HeapState} (hst : st ≠ .escaped)
    (h : (u.escapeLocal l).heap.get o = some st) : u.heap.get o = some st := by
  have hget : (u.escapeLocal l).heap.get o = if o ∈ u.objectsFor l then
      BlockState.escapeObject (u.heap.get o) else u.heap.get o := FMap.get_alter _ _ _ _
  rw [hget] at h
  split at h
  · rcases hobject : u.heap.get o with _ | ⟨_ | _ | _ | _⟩ <;> rw [hobject] at h <;>
      cases h <;> first | rfl | exact absurd rfl hst
  · exact h

/-- The object was freed before, or it was raw-owned and one of `freed` points to it. -/
def FreedThrough (freed : List Local) (u : BlockState) (o : ObjectId) : Prop :=
  u.heap.get o = some .reconstituted ∨
    ∃ a ∈ freed, o ∈ u.objectsFor a ∧ u.heap.get o = some .rawOwned

namespace FreedThrough
variable {freed freed' : List Local} {args : List Operand}

theorem mono (h : FreedThrough freed u o) (hsub : freed ⊆ freed') : FreedThrough freed' u o := by
  rcases h with h | ⟨a, ha, hobject⟩
  · exact Or.inl h
  · exact Or.inr ⟨a, hsub ha, hobject⟩

/-- Freeing an optional local. -/
theorem of_reconstituteArg {src : Option Local}
    (h : (reconstituteArg src u).heap.get o = some .reconstituted) :
    FreedThrough src.toList u o := by
  cases src with
  | none => exact Or.inl h
  | some l =>
    rcases (get_reconstitute l).1 h with hfreed | hobject
    · exact Or.inl hfreed
    · exact Or.inr ⟨l, List.mem_singleton_self l, hobject⟩

/-- Escaping arguments frees nothing. -/
theorem of_escapeRawPtrArgs (body : Body) (args : List Operand)
    (h : (escapeRawPtrArgs body args u).heap.get o = some .reconstituted) :
    u.heap.get o = some .reconstituted := by
  unfold escapeRawPtrArgs at h
  induction args generalizing u with
  | nil => exact h
  | cons arg args ih =>
    have hfirst := ih h
    unfold escapeRawPtrArg at hfirst
    cases harg : operandLocal arg with
    | none =>
      rw [harg] at hfirst
      exact hfirst
    | some l =>
      rw [harg] at hfirst
      dsimp only at hfirst
      split at hfirst
      · exact get_escapeLocal l nofun hfirst
      · exact hfirst

/-- The argument that one parameter effect frees. -/
def effectArg (args : List Operand) (e : Nat × ParamHeapEffect) : Option Local :=
  if e.2 = .reconstituted then nthArgLocal args e.1 else none

/-- Looking back over one parameter effect: what is freed through one of `freed` after it is
freed through one of them before it, or by the effect itself. -/
theorem of_applyParamEffect {e : Nat × ParamHeapEffect}
    (h : FreedThrough freed (applyParamEffect args u e) o) :
    FreedThrough ((effectArg args e).toList ++ freed) u o := by
  obtain ⟨i, effect⟩ := e
  have hright : freed ⊆ (effectArg args (i, effect)).toList ++ freed :=
    List.subset_append_right _ _
  unfold applyParamEffect at h
  cases harg : nthArgLocal args i with
  | none =>
    rw [harg] at h
    exact h.mono hright
  | some arg =>
    rw [harg] at h
    cases effect with
    | none => exact h.mono hright
    | reconstituted =>
      have heffect : effectArg args (i, .reconstituted) = some arg := harg
      rw [heffect]
      rcases h with h | ⟨a, ha, hmem, howned⟩
      · rcases (get_reconstitute arg).1 h with hfreed | hobject
        · exact Or.inl hfreed
        · exact Or.inr ⟨arg, List.mem_cons_self, hobject⟩
      · exact Or.inr ⟨a, List.mem_cons_of_mem _ ha, hmem, (get_reconstitute arg).2 howned⟩
    | escaped =>
      rcases h with h | ⟨a, ha, hmem, howned⟩
      · exact Or.inl (get_escapeLocal arg nofun h)
      · refine Or.inr ⟨a, hright ha, ?_, get_escapeLocal arg nofun howned⟩
        by_cases hne : a = arg
        · subst hne
          have hnone : (u.escapeLocal a).pointsTo.get a = none := FMap.get_erase_self _ _
          unfold BlockState.objectsFor at hmem
          rw [hnone] at hmem
          exact absurd hmem (Finset.notMem_empty o)
        · have hsame : (u.escapeLocal arg).pointsTo.get a = u.pointsTo.get a :=
            FMap.get_erase_of_ne _ hne
          unfold BlockState.objectsFor at hmem ⊢
          rw [hsame] at hmem
          exact hmem

/-- All parameter effects, by induction on the list. -/
theorem of_paramEffects (effects : List (Nat × ParamHeapEffect))
    (h : (effects.foldl (applyParamEffect args) u).heap.get o = some .reconstituted) :
    FreedThrough (effects.filterMap (effectArg args)) u o := by
  induction effects generalizing u with
  | nil => exact Or.inl h
  | cons e effects ih =>
    refine (of_applyParamEffect (ih h)).mono ?_
    rw [List.filterMap_cons]
    cases effectArg args e with
    | none => exact List.Subset.refl _
    | some a => exact List.Subset.refl _

end FreedThrough

/-- A fresh allocation is raw-owned. -/
theorem reconstituted_of_mintRawOwned (dest : Local) (bb : Nat)
    (h : (u.mintRawOwned dest bb).heap.get o = some .reconstituted) :
    u.heap.get o = some .reconstituted := by
  by_cases hne : o = BlockState.callSiteObject bb
  · subst hne
    have howned : (u.mintRawOwned dest bb).heap.get (BlockState.callSiteObject bb) =
        some .rawOwned := FMap.get_insert_self _ _ _
    rw [howned] at h
    cases h
  · exact (FMap.get_insert_of_ne _ _ hne).symm.trans h

theorem clearScalarFacts_heap (v : BlockState) (dest : Local) :
    (v.clearScalarFacts dest).heap = v.heap := clearScalarFacts_writes v dest .heap (by decide)

/-- Forgetting a value frees nothing: its objects escape. -/
theorem reconstituted_of_callMemForget (tcx : TyCtxt) (body : Body) (args : List Operand)
    (dest : Local) (h : (callMemForget tcx body args dest u).heap.get o = some .reconstituted) :
    u.heap.get o = some .reconstituted := by
  obtain ⟨hsome, hnone⟩ := callMemForget_heap tcx body args dest u
  cases harg : firstArgBaseLocal args with
  | none =>
    rw [hnone harg] at h
    exact h
  | some src =>
    rw [hsome src harg, FMap.get_alter] at h
    split at h
    · cases h
    · exact h

/-- A summarised callee frees what its parameter effects free. -/
theorem freedThrough_of_applyFnSummary (body : Body) (args : List Operand) (dest : Local) (bb : Nat)
    (summary : FnSummary)
    (h : (applyFnSummary body args dest bb summary u).heap.get o = some .reconstituted) :
    FreedThrough (summary.paramEffects.filterMap (FreedThrough.effectArg args)) u o := by
  -- Where the result points to is settled after the effects, and is no matter of the heap.
  have hreturned := returned_writes (if summary.returnsRawOwned then
      (summary.paramEffects.foldl (applyParamEffect args) u).mintRawOwned dest bb
    else ((summary.paramEffects.foldl (applyParamEffect args) u).setObjects dest none).dropProto
      dest) (summary.returnsAliasOfParam.bind (nthArgLocal args)) body dest
    (summary.returnsPtrOfParam.bind (nthArgLocal args)) .heap (by decide)
  have hcases := (congrArg (FMap.get · o) hreturned).symm.trans h
  refine FreedThrough.of_paramEffects summary.paramEffects ?_
  cases howned : summary.returnsRawOwned with
  | true =>
    rw [howned] at hcases
    exact reconstituted_of_mintRawOwned dest bb hcases
  | false =>
    rw [howned] at hcases
    exact hcases

/-- A call that is not recognised frees nothing: its arguments may escape. -/
theorem reconstituted_of_callUnknown (body : Body) (path : String) (args : List Operand)
    (dest : Local) (h : (callUnknown body path args dest u).heap.get o = some .reconstituted) :
    u.heap.get o = some .reconstituted := by
  have hwritten : ∀ l, (markOwnersWritten l u).heap = u.heap :=
    fun l => markOwnersWritten_writes u l .heap (by decide)
  unfold callUnknown at h
  dsimp only at h
  rw [clearScalarFacts_heap] at h
  replace h := (congrArg (FMap.get · o)
    (BlockState.dropProto_writes _ dest .heap (by decide))).symm.trans h
  split at h
  · rw [show (inheritProvenance args dest u).heap = u.heap from
      inheritProvenance_writes u args dest .heap (by decide)] at h
    exact h
  split at h
  · rw [hwritten] at h
    exact h
  split at h
  · rw [hwritten] at h
    exact h
  split at h
  · exact h
  · exact FreedThrough.of_escapeRawPtrArgs body args h

/-- **What a call frees.**  A call moves an object to `Reconstituted` only if it was raw-owned and
one of the freed arguments pointed to it. -/
theorem freedThrough_of_applyCallKind (tcx : TyCtxt) (body : Body) (path : String) (kind : CallKind)
    (args : List Operand) (dest : Local) (bb : Nat)
    (h : (applyCallKind tcx body path kind args dest bb u).heap.get o = some .reconstituted) :
    FreedThrough (kind.freedArgs args) u o := by
  cases kind with
  | rawRealloc =>
    refine FreedThrough.of_reconstituteArg (reconstituted_of_mintRawOwned dest bb ?_)
    rw [← clearScalarFacts_heap]
    exact h
  | intoRaw =>
    refine Or.inl (reconstituted_of_mintRawOwned dest bb ?_)
    rw [← clearScalarFacts_heap]
    exact h
  | fromRaw =>
    have hheap : (callFromRaw args dest u).heap = (reconstituteArg (fromRawArg args) u).heap :=
      (clearScalarFacts_heap _ dest).trans (inheritOwners_writes _ _ dest .heap (by decide))
    refine FreedThrough.of_reconstituteArg ?_
    rw [← hheap]
    exact h
  | memForget => exact Or.inl (reconstituted_of_callMemForget tcx body args dest h)
  | summarised summary =>
    refine freedThrough_of_applyFnSummary body args dest bb summary ?_
    rw [← callSummarised_heap body path summary args dest bb u]
    exact h
  | unknown => exact Or.inl (reconstituted_of_callUnknown body path args dest h)
  | _ =>
    refine Or.inl (Eq.trans (congrArg (FMap.get · o) ?_) h)
    exact (applyCallKind_keepsHeap rfl tcx body path args dest bb u).symm

end

namespace OwnershipProtocol

/-- A finding, and the object it is about if it is about one. -/
structure Report where
  object : Option ObjectId
  finding : Finding

/-- The function that a call goes to, as the checker sees it: trait methods are not resolved. -/
def callee (func : Operand) (s : BlockState) : Option DefId :=
  (func.constFnDef.map Prod.fst).or ((operandLocal func).bind s.fnPtrTargets.get)

/-- The arguments that a call of `did` frees, as the checker sees it. -/
def freedArgs (tcx : TyCtxt) (summaries : SummaryMap) (did : DefId) (args : List Operand) :
    List Local :=
  if isFromRaw (tcx.defPathStr did) then (fromRawArg args).toList
  else match summaries.get did with
    | some summary => summary.reconstitutedArgs args
    | none => []

def fromRawShort (path : String) : String :=
  if endsWith path "dealloc" then "alloc::dealloc"
  else if contains path "triomphe" then "triomphe::Arc::from_raw"
  else if contains path "Weak" then "Weak::from_raw"
  else if contains path "Box" then "Box::from_raw"
  else if contains path "Arc" then "Arc::from_raw"
  else if contains path "Rc" then "Rc::from_raw"
  else if contains path "Vec" then "Vec::from_raw_parts"
  else if contains path "String" then "String::from_raw_parts"
  else if contains path "CString" then "CString::from_raw"
  else if contains path "Thread" then "Thread::from_raw"
  else "from_raw"

/-- The name of the freeing function in a message. -/
def callName (tcx : TyCtxt) (did : DefId) : String :=
  if isFromRaw (tcx.defPathStr did) then fromRawShort (tcx.defPathStr did) else tcx.itemName did

/-- What is said when an object is freed that is in the given state. -/
def doubleFree (name : String) (span : Span) : Option HeapState → Option Finding
  | some .reconstituted => some ⟨"ownership_double_free", .warning, span,
      "`" ++ name ++ "` called on a pointer that was already reconstituted on this path — " ++
        "double-free"⟩
  | some .maybeFreed => some ⟨"ownership_double_free", .warning, span,
      "`" ++ name ++ "` — potential double-free: pointer may have already been reconstituted " ++
        "on another control-flow path"⟩
  | _ => none

/-- What is said when a pointer is freed that aliases the interior of a live owner. -/
def danglingOwner (span : Span) : Finding :=
  ⟨"use_after_free", .warning, span,
    "freeing a pointer that still aliases memory owned by a live value (e.g. `&mut self`'s " ++
      "buffer) — the owner is left with a dangling pointer; double-free when it is dropped"⟩

def leak (span : Span) : Finding :=
  ⟨"ownership_leak", .warning, span,
    "raw pointer obtained from `into_raw` is never reconstituted via `from_raw` — memory leak"⟩

section
variable (tcx : TyCtxt) {body : Body} (flow : FlowResults body) (inDrop inClosure : Bool)

/-- The owners that the free of `l` leaves dangling. -/
def checkOwners (body : Body) (span : Span) (s : BlockState) (l : Local) : Option Report :=
  if !inDrop && decide (∃ o ∈ s.ownersOf l, isReferenceParam body o = true) then
    some ⟨none, danglingOwner span⟩
  else none

/-- The objects of `l` that are freed again. -/
def checkObjects (name : String) (span : Span) (s : BlockState) (l : Local) : List Report :=
  (s.objectsFor l).sort.filterMap fun o =>
    (doubleFree name span (s.heap.get o)).map fun finding => ⟨some o, finding⟩

/-- A call in state `s`. -/
def checkCall (func : Operand) (args : List Operand) (span : Span) (s : BlockState) :
    List Report :=
  match callee func s with
  | none => []
  | some did =>
      let freed := freedArgs tcx flow.summaries did args
      freed.filterMap (checkOwners inDrop body span s) ++
        freed.flatMap (checkObjects (callName tcx did) span s)

/-- The objects that a return in state `s` leaks. -/
def leakedObjects (s : BlockState) : Finset ObjectId :=
  (s.pointsTo.keys.biUnion s.objectsFor).filter fun o =>
    o ∉ s.objectsFor Local.returnPlace ∧ s.heap.get o = some .rawOwned

/-- The block `bb`, when the objects of `leaked` are reported already. -/
def checkBlock (bb : body.BasicBlock) (leaked : Finset ObjectId) :
    Finset ObjectId × List Report :=
  match flow.stateBeforeTerminator tcx bb, (body.basicBlocks bb).terminator with
  | some s, some ⟨.return, span⟩ =>
      if inClosure then (leaked, [])
      else
        (leaked ∪ leakedObjects s,
          (leakedObjects s \ leaked).sort.map fun o => ⟨some o, leak span⟩)
  | some s, some ⟨.call func args _ _ _, span⟩ =>
      (leaked, checkCall tcx flow inDrop func args span s)
  | _, _ => (leaked, [])

/-- The blocks of a list, in order. -/
def checkBlocks : Finset ObjectId → List body.BasicBlock → List Report
  | _, [] => []
  | leaked, bb :: rest =>
      let (leaked, reports) := checkBlock tcx flow inDrop inClosure bb leaked
      reports ++ checkBlocks leaked rest

/-- What the checker says, and about which objects. -/
def reports : List Report :=
  checkBlocks tcx flow inDrop inClosure ∅ (List.finRange body.numBlocks)

def check : List Finding := (reports tcx flow inDrop inClosure).map Report.finding

end

/-! ## Leaks -/

/-- The report is about a leak of `o`. -/
def Report.IsLeakOf (r : Report) (o : ObjectId) : Prop :=
  r.object = some o ∧ r.finding.ruleId = "ownership_leak"

/-- The block `bb` is a reachable return, and `s` is the state before it. -/
def ReturnsIn (tcx : TyCtxt) {body : Body} (flow : FlowResults body) (bb : body.BasicBlock)
    (s : BlockState) : Prop :=
  flow.stateBeforeTerminator tcx bb = some s ∧
    ∃ span, (body.basicBlocks bb).terminator = some ⟨.return, span⟩

theorem mem_leakedObjects {s : BlockState} {o : ObjectId} :
    o ∈ leakedObjects s ↔
      (∃ l, o ∈ s.objectsFor l) ∧ o ∉ s.objectsFor Local.returnPlace ∧
        s.heap.get o = some .rawOwned := by
  have hkeys : o ∈ s.pointsTo.keys.biUnion s.objectsFor ↔ ∃ l, o ∈ s.objectsFor l := by
    rw [Finset.mem_biUnion]
    constructor
    · rintro ⟨l, -, ho⟩
      exact ⟨l, ho⟩
    · rintro ⟨l, ho⟩
      refine ⟨l, ?_, ho⟩
      by_contra hl
      unfold BlockState.objectsFor at ho
      rw [FMap.get_eq_none_iff.mpr hl] at ho
      exact absurd ho (Finset.notMem_empty o)
  unfold leakedObjects
  rw [Finset.mem_filter, hkeys]

section
variable {tcx : TyCtxt} {body : Body} {flow : FlowResults body} {inDrop : Bool}

theorem doubleFree_rule {name : String} {span : Span} {st : Option HeapState} {finding : Finding}
    (h : doubleFree name span st = some finding) :
    finding.ruleId = "ownership_double_free" ∧ finding.span = span := by
  unfold doubleFree at h
  split at h
  · cases h; exact ⟨rfl, rfl⟩
  · cases h; exact ⟨rfl, rfl⟩
  · cases h

/-- No call is reported as a leak. -/
theorem not_leak_of_checkCall {func : Operand} {args : List Operand} {span : Span}
    {s : BlockState} {r : Report} (hr : r ∈ checkCall tcx flow inDrop func args span s)
    (o : ObjectId) : ¬ r.IsLeakOf o := by
  rintro ⟨-, hrule⟩
  unfold checkCall at hr
  split at hr
  · cases hr
  · rcases List.mem_append.mp hr with hr | hr
    · obtain ⟨l, -, hl⟩ := List.mem_filterMap.mp hr
      unfold checkOwners at hl
      split at hl
      · cases hl
        have hname : "use_after_free" = "ownership_leak" := hrule
        exact absurd hname (by decide)
      · cases hl
    · obtain ⟨l, -, hl⟩ := List.mem_flatMap.mp hr
      obtain ⟨o', -, ho'⟩ := List.mem_filterMap.mp hl
      obtain ⟨finding, hfinding, rfl⟩ := Option.map_eq_some_iff.mp ho'
      rw [(doubleFree_rule hfinding).1] at hrule
      exact absurd hrule (by decide)

/-- Some return in the block leaks `o`. -/
def LeaksAt (tcx : TyCtxt) (flow : FlowResults body) (bb : body.BasicBlock) (o : ObjectId) : Prop :=
  ∃ s, ReturnsIn tcx flow bb s ∧ o ∈ leakedObjects s

/-- **One block.**  It reports the leaks at its return that are not reported yet, and notes
them. -/
theorem checkBlock_leak (bb : body.BasicBlock) (leaked : Finset ObjectId) (o : ObjectId) :
    (o ∈ (checkBlock tcx flow inDrop false bb leaked).1 ↔ o ∈ leaked ∨ LeaksAt tcx flow bb o) ∧
    ((∃ r ∈ (checkBlock tcx flow inDrop false bb leaked).2, r.IsLeakOf o) ↔
      o ∉ leaked ∧ LeaksAt tcx flow bb o) := by
  unfold checkBlock
  split
  · next s span hs hterm =>
      have hat : LeaksAt tcx flow bb o ↔ o ∈ leakedObjects s := by
        constructor
        · rintro ⟨t, ⟨ht, -⟩, ho⟩
          rw [hs] at ht
          cases ht
          exact ho
        · exact fun ho => ⟨s, ⟨hs, span, hterm⟩, ho⟩
      rw [if_neg Bool.false_ne_true, hat]
      refine ⟨Finset.mem_union, ?_⟩
      constructor
      · rintro ⟨r, hr, hobject, -⟩
        obtain ⟨o', ho', rfl⟩ := List.mem_map.mp hr
        cases hobject
        rw [Finset.mem_sort, Finset.mem_sdiff] at ho'
        exact ⟨ho'.2, ho'.1⟩
      · rintro ⟨hnew, ho⟩
        refine ⟨_, List.mem_map.mpr ⟨o, ?_, rfl⟩, rfl, rfl⟩
        rw [Finset.mem_sort, Finset.mem_sdiff]
        exact ⟨ho, hnew⟩
  · next s func args destination target unwind span hs hterm =>
      have hat : ¬ LeaksAt tcx flow bb o := by
        rintro ⟨t, ⟨-, span', hreturn⟩, -⟩
        rw [hterm] at hreturn
        cases hreturn
      refine ⟨⟨Or.inl, fun h => h.resolve_right hat⟩, ?_⟩
      constructor
      · rintro ⟨r, hr, hleak⟩
        exact absurd hleak (not_leak_of_checkCall hr o)
      · rintro ⟨-, hleaks⟩
        exact absurd hleaks hat
  · next hother _ =>
      have hat : ¬ LeaksAt tcx flow bb o := by
        rintro ⟨t, ⟨ht, span', hreturn⟩, -⟩
        exact hother t span' ht hreturn
      refine ⟨⟨Or.inl, fun h => h.resolve_right hat⟩, ?_⟩
      constructor
      · rintro ⟨r, hr, -⟩
        cases hr
      · rintro ⟨-, hleaks⟩
        exact absurd hleaks hat

theorem checkBlocks_cons (inClosure : Bool) (leaked : Finset ObjectId) (bb : body.BasicBlock)
    (rest : List body.BasicBlock) :
    checkBlocks tcx flow inDrop inClosure leaked (bb :: rest) =
      (checkBlock tcx flow inDrop inClosure bb leaked).2 ++
        checkBlocks tcx flow inDrop inClosure (checkBlock tcx flow inDrop inClosure bb leaked).1
          rest := rfl

/-- **All blocks.**  A leak is reported by the first return that has it. -/
theorem checkBlocks_leak (bbs : List body.BasicBlock) (leaked : Finset ObjectId) (o : ObjectId) :
    (∃ r ∈ checkBlocks tcx flow inDrop false leaked bbs, r.IsLeakOf o) ↔
      o ∉ leaked ∧ ∃ bb ∈ bbs, LeaksAt tcx flow bb o := by
  induction bbs generalizing leaked with
  | nil => simp [checkBlocks]
  | cons bb rest ih =>
    have hblock : (o ∈ (checkBlock tcx flow inDrop false bb leaked).1 ↔ _) ∧ _ :=
      checkBlock_leak bb leaked o
    have hrest := ih (checkBlock tcx flow inDrop false bb leaked).1
    rw [hblock.1] at hrest
    have hsplit : (∃ r ∈ checkBlocks tcx flow inDrop false leaked (bb :: rest), r.IsLeakOf o) ↔
        (∃ r ∈ (checkBlock tcx flow inDrop false bb leaked).2, r.IsLeakOf o) ∨
        ∃ r ∈ checkBlocks tcx flow inDrop false (checkBlock tcx flow inDrop false bb leaked).1
          rest, r.IsLeakOf o := by
      rw [checkBlocks_cons]
      simp only [List.mem_append, or_and_right, exists_or]
    rw [hsplit, hblock.2, hrest, List.exists_mem_cons_iff]
    constructor
    · rintro (⟨hnew, hat⟩ | ⟨hnew, hlater⟩)
      · exact ⟨hnew, Or.inl hat⟩
      · exact ⟨fun hold => hnew (Or.inl hold), Or.inr hlater⟩
    · rintro ⟨hnew, hat | hlater⟩
      · exact Or.inl ⟨hnew, hat⟩
      · by_cases hat : LeaksAt tcx flow bb o
        · exact Or.inl ⟨hnew, hat⟩
        · exact Or.inr ⟨fun hold => hold.elim hnew hat, hlater⟩

theorem leak_reported_iff (o : ObjectId) :
    (∃ r ∈ reports tcx flow inDrop false, r.IsLeakOf o) ↔
      ∃ bb, LeaksAt tcx flow bb o := by
  unfold reports
  rw [checkBlocks_leak]
  simp [List.mem_finRange]

end

/-- The object `o` of a call is still raw-owned in `s`, and neither returned nor stored in a
field. -/
structure Lost (body : Body) (s : BlockState) (o : ObjectId) : Prop where
  callSite : ∃ bb : body.BasicBlock, o = BlockState.callSiteObject bb.val
  rawOwned : s.heap.get o = some .rawOwned
  notReturned : o ∉ s.objectsFor Local.returnPlace
  notStored : ∀ key objs, s.fieldOwned.get key = some objs → o ∉ objs

/-- **When every lost allocation is reported.**  An allocation that a return loses is reported as
a leak exactly if at some return that leaks it a local still points to it. -/
theorem leaks_reported_iff (tcx : TyCtxt) (body : Body) (flow : FlowResults body) (inDrop : Bool) :
    (∀ bb s o, ReturnsIn tcx flow bb s → Lost body s o →
      ∃ r ∈ reports tcx flow inDrop false, r.IsLeakOf o) ↔
    ∀ bb s o, ReturnsIn tcx flow bb s → Lost body s o →
      ∃ bb' t l, ReturnsIn tcx flow bb' t ∧ t.heap.get o = some .rawOwned ∧
        o ∉ t.objectsFor Local.returnPlace ∧ o ∈ t.objectsFor l := by
  constructor
  · intro hall bb s o hs hlost
    obtain ⟨bb', t, ht, hleaked⟩ := (leak_reported_iff o).mp (hall bb s o hs hlost)
    obtain ⟨⟨l, hl⟩, hreturned, howned⟩ := mem_leakedObjects.mp hleaked
    exact ⟨bb', t, l, ht, howned, hreturned, hl⟩
  · intro hall bb s o hs hlost
    obtain ⟨bb', t, l, ht, howned, hreturned, hl⟩ := hall bb s o hs hlost
    exact (leak_reported_iff o).mpr
      ⟨bb', t, ht, mem_leakedObjects.mpr ⟨⟨l, hl⟩, hreturned, howned⟩⟩

/-- `_1 = Box::into_raw(_2); _1 = 0; return`. -/
def overwritesPointer : Body :=
  .ofBlocks 1 0 [.other, .rawPtr .other .mut, .other] 1
    (fun bb =>
      [.of [] (.callTo 0 [.ofNat 2] 1 (bb 1)),
        .of [.set 1 (.use (.constant ⟨some 0, none⟩))] .return])
    (by decide)

def leakPaths : TyCtxt := .ofPaths ["alloc::boxed::Box::<T>::into_raw", "f"]

/-- **Overwriting the last pointer hides the leak.**  The box of `overwritesPointer` is still
raw-owned at the return, but no local points to it and nothing is reported. -/
theorem overwritten_pointer_hides_leak : ∃ s,
    ReturnsIn leakPaths (computeFlow leakPaths overwritesPointer ∅) (1 : Fin 2) s ∧
    Lost overwritesPointer s (BlockState.callSiteObject 0) ∧
    ¬ ∃ r ∈ reports leakPaths (computeFlow leakPaths overwritesPointer ∅) false false,
      r.IsLeakOf (BlockState.callSiteObject 0) := by
  have hdone : ((AssumeInit.flowOf leakPaths overwritesPointer ∅).step^[2]
      (AssumeInit.flowOf leakPaths overwritesPointer ∅).initial).work = [] := by decide +kernel
  obtain ⟨x, hx, hq⟩ := FlowProblem.exists_solution hdone (n := (1 : Fin 2))
    (q := fun s =>
      let t := applyStatements leakPaths overwritesPointer
        (overwritesPointer.basicBlocks (1 : Fin 2)).statements s
      decide (t.heap.get (BlockState.callSiteObject 0) = some .rawOwned ∧ t.pointsTo.keys = ∅ ∧
        t.fieldOwned.keys = ∅)) (by decide +kernel)
  obtain ⟨howned, hpoints, hfields⟩ := of_decide_eq_true hq
  have hs : (computeFlow leakPaths overwritesPointer ∅).stateBeforeTerminator leakPaths
      (1 : Fin 2) = some (applyStatements leakPaths overwritesPointer
        (overwritesPointer.basicBlocks (1 : Fin 2)).statements x) := congrArg _ hx
  have hnowhere : ∀ l, BlockState.callSiteObject 0 ∉ (applyStatements leakPaths overwritesPointer
      (overwritesPointer.basicBlocks (1 : Fin 2)).statements x).objectsFor l := by
    intro l
    unfold BlockState.objectsFor
    rw [FMap.get_eq_none_iff.mpr (hpoints ▸ Finset.notMem_empty l)]
    exact Finset.notMem_empty _
  refine ⟨_, ⟨hs, .none, rfl⟩, ⟨⟨(0 : Fin 2), rfl⟩, howned, hnowhere _, ?_⟩, ?_⟩
  · intro key objs hkey
    rw [FMap.get_eq_none_iff.mpr (hfields ▸ Finset.notMem_empty key)] at hkey
    cases hkey
  · rw [leak_reported_iff]
    rintro ⟨bb, t, ⟨ht, span, hreturn⟩, hleaked⟩
    obtain ⟨⟨l, hl⟩, -⟩ := mem_leakedObjects.mp hleaked
    -- Only the second block returns.
    have hbb : ∀ b : Fin 2, (overwritesPointer.basicBlocks b).terminator =
        some ⟨.return, span⟩ → b = 1 := by
      intro b hb
      fin_cases b
      · cases hb
      · rfl
    rw [hbb bb hreturn, hs] at ht
    cases ht
    exact hnowhere l hl

/-! ## Double frees -/

/-- Some object of `l` is freed already, on all paths or on some. -/
def FreedAlready (s : BlockState) (l : Local) : Prop :=
  ∃ o ∈ s.objectsFor l, freedState (s.heap.get o) = true

/-- The report is about a double free by the call at `span`. -/
def Report.IsDoubleFree (r : Report) (span : Span) : Prop :=
  r.finding.ruleId = "ownership_double_free" ∧ r.finding.span = span

theorem doubleFree_isSome (name : String) (span : Span) (st : Option HeapState) :
    (doubleFree name span st).isSome = freedState st := by
  cases st with
  | none => rfl
  | some st => cases st <;> rfl

theorem mem_checkObjects_iff (name : String) (span : Span) {s : BlockState} {l : Local} :
    (∃ r ∈ checkObjects name span s l, r.IsDoubleFree span) ↔ FreedAlready s l := by
  unfold checkObjects
  constructor
  · rintro ⟨r, hr, -⟩
    obtain ⟨o, ho, hfound⟩ := List.mem_filterMap.mp hr
    obtain ⟨finding, hfinding, -⟩ := Option.map_eq_some_iff.mp hfound
    rw [Finset.mem_sort] at ho
    refine ⟨o, ho, ?_⟩
    rw [← doubleFree_isSome name span, hfinding, Option.isSome_some]
  · rintro ⟨o, ho, hfreed⟩
    rw [← doubleFree_isSome name span, Option.isSome_iff_exists] at hfreed
    obtain ⟨finding, hfinding⟩ := hfreed
    refine ⟨⟨some o, finding⟩, List.mem_filterMap.mpr ⟨o, ?_, ?_⟩, doubleFree_rule hfinding⟩
    · rw [Finset.mem_sort]
      exact ho
    · rw [hfinding, Option.map_some]

/-- The arguments that a call frees, as the checker sees it. -/
def callFrees (tcx : TyCtxt) (summaries : SummaryMap) (func : Operand) (args : List Operand)
    (s : BlockState) : List Local :=
  ((callee func s).map fun did => freedArgs tcx summaries did args).getD []

theorem checkCall_doubleFree_iff {tcx : TyCtxt} {body : Body} {flow : FlowResults body}
    {inDrop : Bool} {func : Operand} {args : List Operand} {span : Span} {s : BlockState} :
    (∃ r ∈ checkCall tcx flow inDrop func args span s, r.IsDoubleFree span) ↔
      ∃ a ∈ callFrees tcx flow.summaries func args s, FreedAlready s a := by
  unfold checkCall callFrees
  cases callee func s with
  | none => simp
  | some did =>
    have howners : ¬ ∃ r ∈ (freedArgs tcx flow.summaries did args).filterMap
        (checkOwners inDrop body span s), r.IsDoubleFree span := by
      rintro ⟨r, hr, hdouble, -⟩
      obtain ⟨l, -, hl⟩ := List.mem_filterMap.mp hr
      unfold checkOwners at hl
      split at hl
      · cases hl
        have hname : "use_after_free" = "ownership_double_free" := hdouble
        exact absurd hname (by decide)
      · cases hl
    dsimp only
    simp only [List.mem_append, or_and_right, exists_or, howners, false_or, Option.map_some,
      Option.getD_some, ← mem_checkObjects_iff (callName tcx did) span]
    constructor
    · rintro ⟨r, hr, hdouble⟩
      obtain ⟨l, hl, hr⟩ := List.mem_flatMap.mp hr
      exact ⟨l, hl, r, hr, hdouble⟩
    · rintro ⟨l, hl, r, hr, hdouble⟩
      exact ⟨r, List.mem_flatMap.mpr ⟨l, hl, hr⟩, hdouble⟩

section
variable {tcx : TyCtxt} {body : Body} {flow : FlowResults body} (inDrop inClosure : Bool)

/-- What is said about a call is said by its block, whatever was reported before it. -/
theorem checkBlock_call {bb : body.BasicBlock} {s : BlockState} {func : Operand}
    {args : List Operand} {destination : Place} {target : Option body.BasicBlock}
    {unwind : UnwindAction body.numBlocks} {span : Span}
    (hs : flow.stateBeforeTerminator tcx bb = some s)
    (hterm : (body.basicBlocks bb).terminator =
      some ⟨.call func args destination target unwind, span⟩) (leaked : Finset ObjectId) :
    checkBlock tcx flow inDrop inClosure bb leaked =
      (leaked, checkCall tcx flow inDrop func args span s) := by
  unfold checkBlock
  rw [hs, hterm]

/-- Whatever a block of the list says is reported. -/
theorem mem_checkBlocks {bb : body.BasicBlock} {r : Report} {bbs : List body.BasicBlock}
    (hbb : bb ∈ bbs) (hr : ∀ leaked, r ∈ (checkBlock tcx flow inDrop inClosure bb leaked).2)
    (leaked : Finset ObjectId) : r ∈ checkBlocks tcx flow inDrop inClosure leaked bbs := by
  induction bbs generalizing leaked with
  | nil => cases hbb
  | cons first rest ih =>
    rw [checkBlocks_cons, List.mem_append]
    rcases List.mem_cons.mp hbb with rfl | hrest
    · exact Or.inl (hr leaked)
    · exact Or.inr (ih hrest _)

theorem mem_reports_of_call {bb : body.BasicBlock} {s : BlockState} {func : Operand}
    {args : List Operand} {destination : Place} {target : Option body.BasicBlock}
    {unwind : UnwindAction body.numBlocks} {span : Span} {r : Report}
    (hs : flow.stateBeforeTerminator tcx bb = some s)
    (hterm : (body.basicBlocks bb).terminator =
      some ⟨.call func args destination target unwind, span⟩)
    (hr : r ∈ checkCall tcx flow inDrop func args span s) :
    r ∈ reports tcx flow inDrop inClosure := by
  refine mem_checkBlocks inDrop inClosure (List.mem_finRange bb) (fun leaked => ?_) ∅
  rw [checkBlock_call inDrop inClosure hs hterm]
  exact hr

end

end OwnershipProtocol

/-! ## The raw allocator -/

namespace RawAllocator

/-- The name of a raw allocator function and what its caller must see to. -/
def description (path : String) : Option (String × String) :=
  if endsWithAny path ["alloc::realloc", "GlobalAlloc::realloc"] then
    some ("realloc", "old pointer is invalid after call; check return for null; " ++
      "new_size must not overflow when rounded up for alignment")
  else if endsWithAny path ["alloc::dealloc", "GlobalAlloc::dealloc"] then
    some ("dealloc", "pointer must have been allocated by this allocator with the " ++
      "exact same layout; must not be used after this call (use-after-free); " ++
      "must be called exactly once (double-free)")
  else if endsWithAny path ["alloc::alloc_zeroed", "GlobalAlloc::alloc_zeroed", "alloc::alloc",
      "GlobalAlloc::alloc"] then
    some ("alloc", "layout.size() must be > 0; check return value for null; " ++
      "returned pointer must be deallocated with the same layout")
  else none

/-- The pointer that a call frees, if it is a `dealloc` or a `realloc`. -/
def consumed (path : String) (args : List Operand) : Option Local :=
  if (description path).any fun d => d.1 == "dealloc" || d.1 == "realloc" then firstArgLocal args
  else none

/-- One call; a pointer that is tracked as owned, or as freed, needs no note. -/
def checkCall (path : String) (call : CallSite) (s : Option BlockState) : Option Finding :=
  (description path).bind fun (fnName, note) =>
    if s.any fun s => (consumed path call.args).any fun p =>
        decide (s.freedKind p ≠ .notFreed) || s.ptrIsRawOwned p then none
    else some ⟨"raw_allocator", .warning, call.span, "`" ++ fnName ++ "` — " ++ note⟩

def check (tcx : TyCtxt) {body : Body} (flow : FlowResults body) : List Finding :=
  checkCalls tcx flow checkCall

/-- A pointer that is freed already is left to the double-free check. -/
theorem checkCall_of_freed {path : String} {call : CallSite} {s : BlockState} {p : Local}
    (hp : consumed path call.args = some p) (hfreed : OwnershipProtocol.FreedAlready s p) :
    checkCall path call (some s) = none := by
  have hkind : s.freedKind p ≠ .notFreed := BlockState.freedKind_ne_notFreed_iff.mpr hfreed
  unfold checkCall
  cases description path with
  | none => rfl
  | some d =>
    simp [hp, hkind]

end RawAllocator

/-! ## The transfer function and the checkers on double frees -/

section
variable {tcx : TyCtxt} {body : Body} {summaries : SummaryMap} {func : Operand}
  {args : List Operand} {destination : Place} {s t : BlockState}

/-- What a call goes to depends on the function pointers only. -/
theorem resolveCallee_of_fnPtrTargets (h : s.fnPtrTargets = t.fnPtrTargets) :
    resolveCallee tcx body func s = resolveCallee tcx body func t := by
  unfold resolveCallee
  rw [h]

theorem calledKind_congr (h : s.fnPtrTargets = t.fnPtrTargets) :
    calledKind tcx body summaries func destination s =
      calledKind tcx body summaries func destination t := by
  unfold calledKind
  rw [resolveCallee_of_fnPtrTargets h]

theorem callFrees_congr (h : s.fnPtrTargets = t.fnPtrTargets) :
    OwnershipProtocol.callFrees tcx summaries func args s =
      OwnershipProtocol.callFrees tcx summaries func args t := by
  unfold OwnershipProtocol.callFrees OwnershipProtocol.callee
  rw [h]

end

/-- The arguments of a call whose second free is left to the double-free check: those that the
transfer function frees, and the pointer that `RawAllocator` is silent about. -/
def expectedFrees (tcx : TyCtxt) (body : Body) (summaries : SummaryMap) (func : Operand)
    (args : List Operand) (destination : Place) (s : BlockState) : List Local :=
  (calledKind tcx body summaries func destination s).freedArgs args ++
    ((func.constFnDef.bind fun item =>
      RawAllocator.consumed (tcx.defPathStr item.1) args)).toList

/-- The callee of a call of a function item does not depend on the state. -/
theorem expectedFrees_const (tcx : TyCtxt) (body : Body) (summaries : SummaryMap)
    (args : List Operand) (destination : Place) (func : Operand) (hconst : func.constFnDef.isSome = true)
    (s t : BlockState) :
    expectedFrees tcx body summaries func args destination s =
        expectedFrees tcx body summaries func args destination t ∧
      OwnershipProtocol.callFrees tcx summaries func args s =
        OwnershipProtocol.callFrees tcx summaries func args t := by
  obtain ⟨item, hitem⟩ := Option.isSome_iff_exists.mp hconst
  unfold expectedFrees calledKind resolveCallee OwnershipProtocol.callFrees
    OwnershipProtocol.callee
  rw [hitem]
  exact ⟨rfl, rfl⟩

/-- The state in which `a` points to a freed object and no other local points anywhere. -/
def onlyFreed (a : Local) (s : BlockState) : BlockState :=
  { s with
    pointsTo := (∅ : FMap Local (Finset ObjectId)).insert a {BlockState.callSiteObject 0}
    heap := (∅ : FMap ObjectId HeapState).insert (BlockState.callSiteObject 0) .reconstituted }

theorem freedAlready_onlyFreed {a l : Local} {s : BlockState} :
    OwnershipProtocol.FreedAlready (onlyFreed a s) l ↔ l = a := by
  unfold OwnershipProtocol.FreedAlready
  constructor
  · rintro ⟨o, ho, -⟩
    by_contra hne
    have hnone : (onlyFreed a s).pointsTo.get l = none :=
      (FMap.get_insert_of_ne _ _ hne).trans rfl
    unfold BlockState.objectsFor at ho
    rw [hnone] at ho
    exact Finset.notMem_empty o ho
  · rintro rfl
    refine ⟨BlockState.callSiteObject 0, ?_, ?_⟩
    · have hget : (onlyFreed l s).pointsTo.get l = some {BlockState.callSiteObject 0} :=
        FMap.get_insert_self _ _ _
      unfold BlockState.objectsFor
      rw [hget]
      exact Finset.mem_singleton_self _
    · have hget : (onlyFreed l s).heap.get (BlockState.callSiteObject 0) = some .reconstituted :=
        FMap.get_insert_self _ _ _
      rw [hget]
      rfl

/-- **When every double free is reported.**  Whatever the heap before a call, the free of a pointer
that is freed already is reported, exactly if every argument that the transfer function frees
there, or that `RawAllocator` leaves to the double-free check, is among those that the check
collects.  And at every reachable call that meets this, each such free is among the reports of the
body, at the span of the call, whatever `RawAllocator` is silent about. -/
theorem double_frees_reported_iff (tcx : TyCtxt) (body : Body) (flow : FlowResults body)
    (inDrop inClosure : Bool) :
    (∀ func args destination span fnPtrs,
      (∀ s : BlockState, s.fnPtrTargets = fnPtrs →
        ∀ a ∈ expectedFrees tcx body flow.summaries func args destination s,
          OwnershipProtocol.FreedAlready s a →
          ∃ r ∈ OwnershipProtocol.checkCall tcx flow inDrop func args span s,
            r.IsDoubleFree span) ↔
      ∀ s : BlockState, s.fnPtrTargets = fnPtrs →
        expectedFrees tcx body flow.summaries func args destination s ⊆
          OwnershipProtocol.callFrees tcx flow.summaries func args s) ∧
    ∀ bb s func args destination target unwind span,
      flow.stateBeforeTerminator tcx bb = some s →
      (body.basicBlocks bb).terminator =
        some ⟨.call func args destination target unwind, span⟩ →
      expectedFrees tcx body flow.summaries func args destination s ⊆
        OwnershipProtocol.callFrees tcx flow.summaries func args s →
      ∀ a ∈ expectedFrees tcx body flow.summaries func args destination s,
        OwnershipProtocol.FreedAlready s a →
        ∃ r ∈ OwnershipProtocol.reports tcx flow inDrop inClosure, r.IsDoubleFree span := by
  constructor
  · intro func args destination span fnPtrs
    constructor
    · intro hall s hs a ha
      -- in the state where only the object of a is freed, a report can be about no other argument
      have hsame : (onlyFreed a s).fnPtrTargets = s.fnPtrTargets := rfl
      have ha' : a ∈ expectedFrees tcx body flow.summaries func args destination
          (onlyFreed a s) := by
        unfold expectedFrees at ha ⊢
        rw [calledKind_congr hsame]
        exact ha
      obtain ⟨l, hl, hfreed⟩ := OwnershipProtocol.checkCall_doubleFree_iff.mp
        (hall (onlyFreed a s) hs a ha' (freedAlready_onlyFreed.mpr rfl))
      rw [freedAlready_onlyFreed.mp hfreed, callFrees_congr hsame] at hl
      exact hl
    · intro hall s hs a ha hfreed
      exact OwnershipProtocol.checkCall_doubleFree_iff.mpr ⟨a, hall s hs ha, hfreed⟩
  · intro bb s func args destination target unwind span hs hterm hsub a ha hfreed
    obtain ⟨r, hr, hdouble⟩ :=
      OwnershipProtocol.checkCall_doubleFree_iff.mpr ⟨a, hsub ha, hfreed⟩
    exact ⟨r, OwnershipProtocol.mem_reports_of_call inDrop inClosure hs hterm hr, hdouble⟩

/-- `_1 = Box::into_raw(_2); _3 = Box::from_raw(_1); _4 = f(_1); return`, where `f` is
`Box::from_raw` again, or `realloc`. -/
def freesTwice (again : Bool) : Body :=
  .ofBlocks 3 0 [.other, .rawPtr .other .mut, .other, .other, .rawPtr .other .mut] 3
    (fun bb =>
      [.of [] (.callTo 0 [.ofNat 2] 1 (bb 1)),
        .of [] (.callTo 1 [.ofNat 1] 3 (bb 2)),
        .of [] (.callTo (if again then 1 else 2) [.ofNat 1] 4 (bb 3)),
        .of [] .return])
    (by cases again <;> decide)

def allocPaths : TyCtxt :=
  .ofPaths ["alloc::boxed::Box::<T>::into_raw", "alloc::boxed::Box::<T>::from_raw",
    "std::alloc::realloc", "f"]

/-- Before the second free the pointer of `freesTwice` is freed, on all paths. -/
theorem freesTwice_state (again : Bool) : ∃ s,
    (computeFlow allocPaths (freesTwice again) ∅).stateBeforeTerminator allocPaths (2 : Fin 4) =
      some s ∧ OwnershipProtocol.FreedAlready s (Local.ofNat 1) := by
  have hdone : ((AssumeInit.flowOf allocPaths (freesTwice again) ∅).step^[4]
      (AssumeInit.flowOf allocPaths (freesTwice again) ∅).initial).work = [] := by
    cases again <;> decide +kernel
  obtain ⟨x, hx, hq⟩ := FlowProblem.exists_solution hdone (n := (2 : Fin 4))
    (q := fun s => decide (s.freedKind (Local.ofNat 1) = .definite))
    (by cases again <;> decide +kernel)
  have hfreed : x.freedKind (Local.ofNat 1) = .definite := of_decide_eq_true hq
  refine ⟨x, congrArg _ hx, BlockState.freedKind_ne_notFreed_iff.mp ?_⟩
  rw [hfreed]
  exact nofun

/-- The function that `freesTwice` calls second. -/
def secondCallee (again : Bool) : Operand :=
  .constant ⟨none, some (⟨0, if again then 1 else 2⟩, ⟨0⟩)⟩

theorem secondCallee_frees (again : Bool) (s : BlockState) :
    expectedFrees allocPaths (freesTwice again) ∅ (secondCallee again) [.ofNat 1]
        (Place.ofLocal (Local.ofNat 4)) s =
      (if again then [Local.ofNat 1] else [Local.ofNat 1, Local.ofNat 1]) ∧
    OwnershipProtocol.callFrees allocPaths ∅ (secondCallee again) [.ofNat 1] s =
      if again then [Local.ofNat 1] else [] := by
  obtain ⟨hexpected, hfrees⟩ := expectedFrees_const allocPaths (freesTwice again) ∅ [.ofNat 1]
    (Place.ofLocal (Local.ofNat 4)) (secondCallee again) rfl s BlockState.default
  rw [hexpected, hfrees]
  cases again <;> decide +kernel

/-- A second `from_raw` is reported. -/
theorem second_from_raw_reported :
    ∃ r ∈ OwnershipProtocol.reports allocPaths (computeFlow allocPaths (freesTwice true) ∅) false
      false, r.IsDoubleFree .none := by
  obtain ⟨s, hs, hfreed⟩ := freesTwice_state true
  obtain ⟨hexpected, hfrees⟩ := secondCallee_frees true s
  refine (double_frees_reported_iff allocPaths (freesTwice true)
    (computeFlow allocPaths (freesTwice true) ∅) false false).2 (2 : Fin 4) s (secondCallee true)
    [.ofNat 1] (Place.ofLocal (Local.ofNat 4)) _ _ .none hs rfl ?_ (Local.ofNat 1) ?_ hfreed
  · show expectedFrees allocPaths (freesTwice true) ∅ _ _ _ s ⊆
      OwnershipProtocol.callFrees allocPaths ∅ _ _ s
    rw [hexpected, hfrees]
    exact List.Subset.refl _
  · show Local.ofNat 1 ∈ expectedFrees allocPaths (freesTwice true) ∅ _ _ _ s
    rw [hexpected]
    exact List.mem_singleton_self _

/-- **A second free by `realloc` goes unreported.**  The pointer is freed when it is passed to
`realloc`, which the transfer function treats as a free; `RawAllocator` leaves the call to the
double-free check, and that knows nothing of `realloc`. -/
theorem realloc_after_free_unreported : ∃ s,
    (computeFlow allocPaths (freesTwice false) ∅).stateBeforeTerminator allocPaths
      (2 : Fin 4) = some s ∧
    Local.ofNat 1 ∈ expectedFrees allocPaths (freesTwice false) ∅ (secondCallee false) [.ofNat 1]
      (Place.ofLocal (Local.ofNat 4)) s ∧
    OwnershipProtocol.FreedAlready s (Local.ofNat 1) ∧
    (∀ inDrop leaked, ¬ ∃ r ∈ (OwnershipProtocol.checkBlock allocPaths
      (computeFlow allocPaths (freesTwice false) ∅) inDrop false (2 : Fin 4) leaked).2,
        r.IsDoubleFree .none) ∧
    checkCallIn allocPaths (computeFlow allocPaths (freesTwice false) ∅) RawAllocator.checkCall
      (2 : Fin 4) = none := by
  obtain ⟨s, hs, hfreed⟩ := freesTwice_state false
  obtain ⟨hexpected, hfrees⟩ := secondCallee_frees false s
  refine ⟨s, hs, ?_, hfreed, fun inDrop leaked => ?_, ?_⟩
  · rw [hexpected]
    exact List.mem_cons_self
  · have hcall := OwnershipProtocol.checkBlock_call inDrop false hs rfl leaked
    rw [hcall]
    show ¬ ∃ r ∈ OwnershipProtocol.checkCall allocPaths _ inDrop (secondCallee false) [.ofNat 1]
      .none s, r.IsDoubleFree .none
    rw [OwnershipProtocol.checkCall_doubleFree_iff]
    rintro ⟨a, ha, -⟩
    have hnone : a ∈ OwnershipProtocol.callFrees allocPaths ∅ (secondCallee false) [.ofNat 1] s := ha
    rw [hfrees] at hnone
    cases hnone
  · rw [checkCallIn_eq rfl hs]
    exact RawAllocator.checkCall_of_freed (by decide +kernel) hfreed

end San
