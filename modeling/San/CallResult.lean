import San.Redefinition

/-! # What a call forgets about its destination

The result of a call overwrites its destination, so, as for an assignment, what was known
of the old value should be gone.  A call clears less than an assignment does.  A callee
that is not known ends the treatment of the call before anything but the aliases of the
destination is cleared.  A known callee clears the shared part (`clearRedefined`), but not
the marks that an assignment clears besides (`Field.dropped`) nor the target of a function
pointer; several of the recognised calls leave the objects or the protocol instances of the
destination in place; and reallocating a buffer turns an alias that the destination held
into an entry of the heap.  `callKeeps` lists, for a call, the fields whose old entry
matters, and `call_forgets_iff` says that the states after the call are equal for all states
that agree except at the destination and on some fields there, exactly if those fields
include the listed ones.
-/
namespace San

namespace DifferAt
variable {dest : Local} {D : List Field} {s t : BlockState}

/-! ## Updates at other locals -/

theorem same_heap (h : DifferAt dest D s t) : t.heap = s.heap := h.off .heap

theorem reconstitute (h : DifferAt dest D s t) {x : Local} (hx : x ≠ dest) :
    DifferAt dest D (s.reconstitute x) (t.reconstitute x) := by
  refine h.keep (s.reconstitute_writes x) (t.reconstitute_writes x)
    (List.forall_mem_singleton.mpr ?_)
  show t.heap.alter (t.objectsFor x) _ = s.heap.alter (s.objectsFor x) _
  rw [h.objectsFor hx, h.same_heap]

theorem dropProtoOf (h : DifferAt dest D s t) (x : Local) :
    DifferAt dest D (s.dropProto x) (t.dropProto x) :=
  h.keepOff (s.dropProto_writes x) (t.dropProto_writes x) (List.forall_mem_singleton.mpr
    ⟨FMap.erase_comm_of_erase_eq (h.off .localProto) x,
      fun hD => congrArg (FMap.erase · x) (h.same .localProto hD)⟩)

theorem clearInitOf (h : DifferAt dest D s t) (x : Local) :
    DifferAt dest D (s.clearInit x) (t.clearInit x) :=
  h.keepOff (s.clearInit_writes x) (t.clearInit_writes x) (List.forall_mem_singleton.mpr
    ⟨FMap.erase_comm_of_erase_eq (h.off .init) x,
      fun hD => congrArg (FMap.erase · x) (h.same .init hD)⟩)

theorem insertInitOf (h : DifferAt dest D s t) (x : Local) :
    DifferAt dest D (s.insertInit x) (t.insertInit x) := by
  refine h.keepOff (s.insertInit_writes x) (t.insertInit_writes x) (List.forall_mem_singleton.mpr
    ⟨FMap.erase_eq_of_get_eq fun y hy => ?_,
      fun hD => congrArg (FMap.insert · x InitState.initialized) (h.same .init hD)⟩)
  show (t.init.insert x _).get y = (s.init.insert x _).get y
  rw [FMap.get_insert, FMap.get_insert, FMap.get_eq_of_erase_eq (h.off .init) hy]

/-- A function of sets that does not mix locals keeps the sets apart at `dest` only. -/
theorem onMustSetsOff (h : DifferAt dest D s t) (ks : List MustSet)
    {g : Finset Local → Finset Local}
    (hg : ∀ m n : Finset Local, m.erase dest = n.erase dest → (g m).erase dest = (g n).erase dest) :
    DifferAt dest D (s.onMustSets ks g) (t.onMustSets ks g) := by
  refine h.keepOff (s.onMustSets_writes ks g) (t.onMustSets_writes ks g) fun f hf => ?_
  obtain ⟨k, hk, rfl⟩ := List.mem_map.mp hf
  have hval : ∀ u : BlockState, (u.onMustSets ks g).mustSets k = g (u.mustSets k) :=
    fun u => if_pos hk
  constructor
  · show ((t.onMustSets ks g).mustSets k).erase dest = ((s.onMustSets ks g).mustSets k).erase dest
    rw [hval, hval]
    exact hg _ _ (h.off (.mustSet k))
  · intro hD
    show (t.onMustSets ks g).mustSets k = (s.onMustSets ks g).mustSets k
    rw [hval, hval]
    exact congrArg g (h.same (.mustSet k) hD)

theorem eraseMust (h : DifferAt dest D s t) (ks : List MustSet) (x : Local) :
    DifferAt dest D (s.onMustSets ks (·.erase x)) (t.onMustSets ks (·.erase x)) :=
  h.onMustSetsOff ks fun m n hmn => by rw [Finset.erase_right_comm, hmn, Finset.erase_right_comm]

theorem unionMust (h : DifferAt dest D s t) (ks : List MustSet) (A : Finset Local) :
    DifferAt dest D (s.onMustSets ks (· ∪ A)) (t.onMustSets ks (· ∪ A)) :=
  h.onMustSetsOff ks fun m n hmn => by rw [Finset.erase_union_distrib, hmn,
    ← Finset.erase_union_distrib]

theorem escapeLocal (h : DifferAt dest D s t) {x : Local} (hx : x ≠ dest) :
    DifferAt dest D (s.escapeLocal x) (t.escapeLocal x) := by
  refine h.keepOff (s.escapeLocal_writes x) (t.escapeLocal_writes x) fun f hf => ?_
  simp only [List.mem_cons, List.not_mem_nil, or_false] at hf
  rcases hf with rfl | rfl | rfl | rfl
  · have hheap : (t.escapeLocal x).heap = (s.escapeLocal x).heap := by
      show t.heap.alter (t.objectsFor x) _ = s.heap.alter (s.objectsFor x) _
      rw [h.objectsFor hx, h.same_heap]
    exact ⟨hheap, fun _ => hheap⟩
  · exact ⟨FMap.erase_comm_of_erase_eq (h.off .pointsTo) x,
      fun hD => congrArg (FMap.erase · x) (h.same .pointsTo hD)⟩
  · exact ⟨FMap.erase_comm_of_erase_eq (h.off .localProto) x,
      fun hD => congrArg (FMap.erase · x) (h.same .localProto hD)⟩
  · exact ⟨FMap.erase_comm_of_erase_eq (h.off .ownerAlias) x,
      fun hD => congrArg (FMap.erase · x) (h.same .ownerAlias hD)⟩

theorem escapeRawPtrArgs (h : DifferAt dest D s t) (body : Body) {args : List Operand}
    (hargs : dest ∉ args.flatMap Operand.locals) :
    DifferAt dest D (escapeRawPtrArgs body args s) (escapeRawPtrArgs body args t) := by
  unfold San.escapeRawPtrArgs
  induction args generalizing s t with
  | nil => exact h
  | cons arg args ih =>
      rw [List.flatMap_cons, List.mem_append, not_or] at hargs
      refine ih ?_ hargs.2
      unfold escapeRawPtrArg
      cases hl : operandLocal arg with
      | none => exact h
      | some x =>
          have hx := operandLocal_ne hargs.1 hl
          dsimp only
          rw [h.get_pointsTo hx]
          split
          · exact h.escapeLocal hx
          · exact h

/-! ## Before the callee is looked at -/

theorem bufferOwners (h : DifferAt dest D s t) {recv : Local} (hrecv : recv ≠ dest) :
    bufferOwners recv t = bufferOwners recv s := by
  rw [San.bufferOwners, h.ownersOf hrecv, San.bufferOwners]

/-- The handles that a reallocation makes stale are the same, unless the destination may
be one of them. -/
theorem stalePointers (h : DifferAt dest D s t) {body : Body}
    (hdest : .ownerAlias ∉ D ∨ (body.localTy dest).isRef = true) (owners : Finset Local) :
    stalePointers body owners t = stalePointers body owners s := by
  rcases hdest with hD | href
  · have halias : t.ownerAlias = s.ownerAlias := h.same .ownerAlias hD
    have hof : t.ownersOf = s.ownersOf := by
      funext p
      rw [BlockState.ownersOf, halias, BlockState.ownersOf]
    rw [San.stalePointers, halias, hof, San.stalePointers]
  · ext p
    simp only [San.stalePointers, Finset.mem_filter, FMap.mem_keys]
    by_cases hp : p = dest
    · rw [hp, href]
      simp
    · rw [h.get_ownerAlias hp, h.ownersOf hp]

theorem detachStale (h : DifferAt dest D s t) (stale : Finset Local) :
    DifferAt dest D (detachStale stale s) (detachStale stale t) := by
  refine h.keepOff (detachStale_writes s stale) (detachStale_writes t stale) fun f hf => ?_
  simp only [List.mem_cons, List.not_mem_nil, or_false] at hf
  rcases hf with rfl | rfl | rfl
  · have hheap : (San.detachStale stale t).heap = (San.detachStale stale s).heap := by
      show t.heap.assign _ _ = s.heap.assign _ _
      rw [h.same_heap]
    exact ⟨hheap, fun _ => hheap⟩
  · refine ⟨FMap.erase_eq_of_get_eq fun x hx => ?_, fun hD => ?_⟩
    · show (t.pointsTo.assign _ _).get x = (s.pointsTo.assign _ _).get x
      rw [FMap.get_assign, FMap.get_assign, h.get_pointsTo hx]
    · have hpoints : t.pointsTo = s.pointsTo := h.same .pointsTo hD
      show t.pointsTo.assign _ _ = s.pointsTo.assign _ _
      rw [hpoints]
  · refine ⟨FMap.erase_eq_of_get_eq fun x hx => ?_, fun hD => ?_⟩
    · show (t.ownerAlias.retain _).get x = (s.ownerAlias.retain _).get x
      rw [FMap.get_retain, FMap.get_retain, h.get_ownerAlias hx]
    · have howners : t.ownerAlias = s.ownerAlias := h.same .ownerAlias hD
      show t.ownerAlias.retain _ = s.ownerAlias.retain _
      rw [howners]

theorem markStale (h : DifferAt dest D s t) {body : Body} {recv : Local} (hrecv : recv ≠ dest)
    (hdest : .ownerAlias ∉ D ∨ (body.localTy dest).isRef = true) :
    DifferAt dest D (markStale body recv s) (markStale body recv t) := by
  have hparams : DifferAt dest D
      (s.onMaySets [.reallocedParams] (· ∪ (San.bufferOwners recv s).filter fun o => isParam body o))
      (t.onMaySets [.reallocedParams]
        (· ∪ (San.bufferOwners recv s).filter fun o => isParam body o)) := by
    refine h.keepOff (s.onMaySets_writes [.reallocedParams] _) (t.onMaySets_writes _ _)
      (List.forall_mem_singleton.mpr ⟨?_, fun hD => congrArg (· ∪ _) (h.same _ hD)⟩)
    show (t.maySets .reallocedParams ∪ _).erase dest = (s.maySets .reallocedParams ∪ _).erase dest
    have hoff : (t.maySets .reallocedParams).erase dest = (s.maySets .reallocedParams).erase dest :=
      h.off (.maySet .reallocedParams)
    rw [Finset.erase_union_distrib, hoff, ← Finset.erase_union_distrib]
  unfold San.markStale
  dsimp only
  rw [h.bufferOwners hrecv, h.stalePointers hdest]
  exact hparams.detachStale _

end DifferAt

/-- Breaking aliases twice breaks those to either set of owners, and drops what is left
without owners. -/
theorem BlockState.get_invalidateOwners_twice (s : BlockState) (A : Finset Local)
    {B : Finset Local} (hB : B ≠ ∅) (x : Local) :
    ((s.invalidateOwners A).invalidateOwners B).ownerAlias.get x =
      (s.ownerAlias.get x).bind fun os =>
        if os \ (A ∪ B) = ∅ then none else some (os \ (A ∪ B)) := by
  unfold BlockState.invalidateOwners
  rw [if_neg hB]
  by_cases hA : A = ∅
  · rw [if_pos hA, hA, Finset.empty_union]
    rfl
  · rw [if_neg hA]
    show ((s.ownerAlias.get x).bind _).bind _ = _
    cases s.ownerAlias.get x with
    | none => rfl
    | some os =>
        have hunion : os \ (A ∪ B) = (os \ A) \ B := sdiff_sdiff_left.symm
        dsimp only [Option.bind_some]
        rw [hunion]
        by_cases hos : os \ A = ∅
        · simp [hos]
        · simp [hos]

theorem mem_foldr_union {α : Type} {f : α → Finset Local} {as : List α} {x : Local} :
    x ∈ as.foldr (fun a owners => f a ∪ owners) ∅ ↔ ∃ a ∈ as, x ∈ f a := by
  induction as with
  | nil => simp
  | cons a as ih => simp [ih]

namespace DifferAt
variable {dest : Local} {D : List Field} {s t : BlockState}

/-- Whether an owner that another local aliases is invalidated does not depend on the
aliases of the destination. -/
theorem mem_argInvalidates (h : DifferAt dest D s t) (body : Body) {arg : Operand}
    (harg : dest ∉ arg.locals) {x owner : Local} (hx : x ≠ dest) (howner : owner ∈ s.ownersOf x) :
    owner ∈ argInvalidates body t arg ↔ owner ∈ argInvalidates body s arg := by
  have hlive : ∀ u : BlockState, owner ∈ u.ownersOf x → owner ∈ liveOwners u := fun u hu => by
    refine Finset.mem_biUnion.mpr ⟨x, (u.ownerAlias.mem_keys x).mpr fun hnone => ?_, hu⟩
    rw [BlockState.ownersOf, hnone] at hu
    exact absurd hu (Finset.notMem_empty owner)
  have hs := hlive s howner
  have ht := hlive t (h.ownersOf hx ▸ howner)
  unfold argInvalidates
  cases hp : arg.place with
  | none => rfl
  | some p =>
      dsimp only
      split
      · rw [h.ownersOf (place_base_ne harg hp)]
        simp [hs, ht]
      · rfl

/-- **The aliases of other locals break alike**, and those of the destination are gone. -/
theorem breakAliases (h : DifferAt dest D s t) (body : Body) {args : List Operand}
    (hargs : dest ∉ args.flatMap Operand.locals) (skip : Option Nat) :
    DifferAt dest (D.filter (· ∉ [Field.ownerAlias]))
      (((invalidateOwnerArgs body args skip s).invalidateOwner dest).setOwners dest none)
      (((invalidateOwnerArgs body args skip t).invalidateOwner dest).setOwners dest none) := by
  have hwrites : ∀ u : BlockState, Writes [.ownerAlias] u
      (((invalidateOwnerArgs body args skip u).invalidateOwner dest).setOwners dest none) :=
    fun u => ((u.invalidateOwners_writes _).trans (BlockState.invalidateOwners_writes _ _)).trans
      (BlockState.setOwners_writes _ dest none)
  refine h.settle (hwrites s) (hwrites t) (List.forall_mem_singleton.mpr ?_)
  refine FMap.put_eq_of_erase_eq (FMap.erase_eq_of_get_eq fun x hx => ?_) none
  have hdest : ({dest} : Finset Local) ≠ ∅ := Finset.singleton_ne_empty dest
  unfold invalidateOwnerArgs BlockState.invalidateOwner
  rw [BlockState.get_invalidateOwners_twice _ _ hdest, BlockState.get_invalidateOwners_twice _ _ hdest,
    h.get_ownerAlias hx]
  cases hos : s.ownerAlias.get x with
  | none => rfl
  | some os =>
      have hmem : ∀ owner ∈ os, ∀ a ∈ args.zipIdx.filter fun a => some a.2 ≠ skip,
          (owner ∈ argInvalidates body t a.1 ↔ owner ∈ argInvalidates body s a.1) :=
        fun owner howner a ha => by
          refine h.mem_argInvalidates body (fun hl => hargs ?_) hx (by
            rw [BlockState.ownersOf, hos]
            exact howner)
          exact List.mem_flatMap.mpr
            ⟨a.1, List.fst_mem_of_mem_zipIdx (List.mem_filter.mp ha).1, hl⟩
      have hrest : ∀ A B : Finset Local, (∀ owner ∈ os, owner ∈ B ↔ owner ∈ A) →
          os \ (B ∪ {dest}) = os \ (A ∪ {dest}) := fun A B hAB => by
        ext owner
        simp only [Finset.mem_sdiff, Finset.mem_union]
        exact and_congr_right fun howner => by rw [hAB owner howner]
      dsimp only [Option.bind_some]
      rw [hrest _ _ fun owner howner => ?_]
      rw [mem_foldr_union, mem_foldr_union]
      exact exists_congr fun a => and_congr_right fun ha => hmem owner howner a ha

theorem killCapacityArgs (h : DifferAt dest D s t) (body : Body) {args : List Operand}
    (hargs : dest ∉ args.flatMap Operand.locals) :
    DifferAt dest D (args.foldl (killCapacityArg body) s) (args.foldl (killCapacityArg body) t) := by
  induction args generalizing s t with
  | nil => exact h
  | cons arg args ih =>
      rw [List.flatMap_cons, List.mem_append, not_or] at hargs
      refine ih ?_ hargs.2
      unfold killCapacityArg
      cases hl : operandLocal arg with
      | none => exact h
      | some x =>
          dsimp only
          rw [h.derefBase (operandLocal_ne hargs.1 hl)]
          split
          · exact h.eraseMust [.hasSpare, .isFull] _
          · exact h

theorem nthArgLocal_ne {args : List Operand} (hargs : dest ∉ args.flatMap Operand.locals) {i : Nat}
    {x : Local} (hx : nthArgLocal args i = some x) : x ≠ dest := by
  obtain ⟨op, hop, hl⟩ := Option.bind_eq_some_iff.mp hx
  exact operandLocal_ne
    (fun hmem => hargs (List.mem_flatMap.mpr ⟨op, List.mem_of_getElem? hop, hmem⟩)) hl

theorem firstArgBaseLocal_ne {args : List Operand} (hargs : dest ∉ args.flatMap Operand.locals)
    {x : Local} (hx : firstArgBaseLocal args = some x) : x ≠ dest := by
  obtain ⟨p, hp, rfl⟩ := Option.map_eq_some_iff.mp hx
  obtain ⟨arg, hget, hplace⟩ := Option.bind_eq_some_iff.mp hp
  exact place_base_ne
    (fun hmem => hargs (List.mem_flatMap.mpr ⟨arg, List.mem_of_getElem? hget, hmem⟩)) hplace

theorem reallocReceiver_ne {tcx : TyCtxt} {summaries : SummaryMap} {callee : Option DefId}
    {args : List Operand} (hargs : dest ∉ args.flatMap Operand.locals) {recv : Local}
    (hrecv : reallocReceiver tcx summaries callee args = some recv) : recv ≠ dest := by
  unfold reallocReceiver at hrecv
  split at hrecv
  · exact nthArgLocal_ne hargs hrecv
  · obtain ⟨i, -, hi⟩ := Option.bind_eq_some_iff.mp hrecv
    exact nthArgLocal_ne hargs hi

/-- **What every call does** settles the aliases of its destination, if a reallocation
finds the same stale handles. -/
theorem enterCall (h : DifferAt dest D s t) (tcx : TyCtxt) (body : Body) (summaries : SummaryMap)
    (callee : Option DefId) {args : List Operand} (hargs : dest ∉ args.flatMap Operand.locals)
    (hdest : reallocReceiver tcx summaries callee args = none ∨ .ownerAlias ∉ D ∨
      (body.localTy dest).isRef = true) :
    DifferAt dest (D.filter (· ∉ [Field.ownerAlias]))
      (enterCall tcx body summaries callee args dest s)
      (enterCall tcx body summaries callee args dest t) := by
  have hrealloc : DifferAt dest D (reallocate body (reallocReceiver tcx summaries callee args) s)
      (reallocate body (reallocReceiver tcx summaries callee args) t) := by
    cases hrecv : reallocReceiver tcx summaries callee args with
    | none => exact h
    | some recv =>
        refine h.markStale (reallocReceiver_ne hargs hrecv) (hdest.resolve_left fun hnone => ?_)
        rw [hrecv] at hnone
        cases hnone
  exact (hrealloc.breakAliases body hargs _).killCapacityArgs body hargs

/-! ## Facts about the result -/

theorem insertMayOf (h : DifferAt dest D s t) (k : MaySet) {x : Local} (hx : x ≠ dest) :
    DifferAt dest D (s.insertMay k x) (t.insertMay k x) := by
  have hval : ∀ u : BlockState, (u.insertMay k x).maySets k = insert x (u.maySets k) :=
    fun u => if_pos List.mem_cons_self
  refine h.keepOff (s.insertMay_writes k x) (t.insertMay_writes k x)
    (List.forall_mem_singleton.mpr ⟨?_, fun hD => ?_⟩)
  · show ((t.insertMay k x).maySets k).erase dest = ((s.insertMay k x).maySets k).erase dest
    have hoff : (t.maySets k).erase dest = (s.maySets k).erase dest := h.off (.maySet k)
    rw [hval, hval, Finset.erase_insert_of_ne hx, hoff, Finset.erase_insert_of_ne hx]
  · show (t.insertMay k x).maySets k = (s.insertMay k x).maySets k
    have hsame : t.maySets k = s.maySets k := h.same (.maySet k) hD
    rw [hval, hval, hsame]

theorem insertMustOf (h : DifferAt dest D s t) (k : MustSet) {x : Local} (hx : x ≠ dest) :
    DifferAt dest D (s.insertMust k x) (t.insertMust k x) :=
  h.onMustSetsOff [k] fun m n hmn => by
    rw [Finset.erase_insert_of_ne hx, hmn, Finset.erase_insert_of_ne hx]

section Result
variable (h : DifferAt dest D s t) {args : List Operand}
  (hargs : dest ∉ args.flatMap Operand.locals)
include h hargs

theorem recordReceiver (k : Fact) :
    DifferAt dest D (recordReceiver k args dest s) (recordReceiver k args dest t) := by
  unfold San.recordReceiver
  cases hrecv : firstArgLocal args with
  | none => exact h
  | some recv =>
      dsimp only
      rw [h.derefBase (nthArgLocal_ne hargs hrecv)]
      exact h.insertFact k _

omit hargs in
theorem recordArg (k : Fact) :
    DifferAt dest D (recordArg k args dest s) (recordArg k args dest t) := by
  unfold San.recordArg
  split
  · exact h.insertFact k _
  · exact h

theorem recordFd (path : String) :
    DifferAt dest D (recordFd path args dest s) (recordFd path args dest t) := by
  unfold San.recordFd
  split
  · exact h.insertMust .fdOrigin
  · split
    · split
      · next arg harg => exact h.insertMayOf .fdConsumed (nthArgLocal_ne hargs harg)
      · exact h
    · exact h

theorem recordPartialEq (path : String) :
    DifferAt dest D (recordPartialEq path args dest s) (recordPartialEq path args dest t) := by
  have hbase : ∀ i, (nthArgLocal args i).map t.derefBase = (nthArgLocal args i).map s.derefBase :=
    fun i => by
      cases hx : nthArgLocal args i with
      | none => rfl
      | some x => exact congrArg some (h.derefBase (nthArgLocal_ne hargs hx))
  unfold San.recordPartialEq
  rw [hbase 0, hbase 1]
  split
  · split
    · next a b _ _ =>
        exact (h.onPairFacts _ (·.insert dest (a, b)) (·.insert dest (a, b)) fun k _ =>
          FMap.put_eq_of_erase_eq (h.off (.pairFact k)) (some (a, b))).ofFilter
    · exact h
  · exact h

theorem recordCallFacts (path : String) :
    DifferAt dest D (recordCallFacts path args dest s) (recordCallFacts path args dest t) := by
  have hlength : DifferAt dest D (recordLength path args dest s) (recordLength path args dest t) := by
    unfold recordLength
    split
    · exact h.recordReceiver hargs _
    · exact h
  have hfinite : DifferAt dest D (recordFiniteness path args dest (recordLength path args dest s))
      (recordFiniteness path args dest (recordLength path args dest t)) := by
    unfold recordFiniteness
    split
    · exact hlength.recordArg _
    · split
      · exact hlength.recordArg _
      · exact hlength
  refine recordPartialEq ?_ hargs path
  have hderef : ∀ {u v : BlockState}, DifferAt dest D u v →
      DifferAt dest D (recordDeref path args dest u) (recordDeref path args dest v) := fun huv => by
    unfold recordDeref
    split
    · exact huv.recordReceiver hargs _
    · exact huv
  have hfd := (hderef hfinite).recordFd hargs path
  split
  · exact hfd.keep (markSpawned_writes _) (markSpawned_writes _) (List.forall_mem_singleton.mpr rfl)
  · exact hfd

end Result

/-! ## Recognised calls -/

theorem mintRawOwned (h : DifferAt dest D s t) (bb : Nat) :
    DifferAt dest (D.filter (· ∉ [Field.pointsTo])) (s.mintRawOwned dest bb)
      (t.mintRawOwned dest bb) := by
  refine (h.settle (s.mintRawOwned_writes dest bb) (t.mintRawOwned_writes dest bb)
    fun f hf => ?_).settled (by decide)
  simp only [List.mem_cons, List.not_mem_nil, or_false] at hf
  rcases hf with rfl | rfl
  · show t.heap.insert _ _ = s.heap.insert _ _
    rw [h.same_heap]
  · exact FMap.put_eq_of_erase_eq (h.off .pointsTo) (some _)

theorem reconstituteArg (h : DifferAt dest D s t) {src : Option Local}
    (hsrc : ∀ x, src = some x → x ≠ dest) :
    DifferAt dest D (reconstituteArg src s) (reconstituteArg src t) := by
  cases src with
  | none => exact h
  | some x => exact h.reconstitute (hsrc x rfl)

theorem passObjects (h : DifferAt dest D s t) {args : List Operand}
    (hargs : dest ∉ args.flatMap Operand.locals) :
    DifferAt dest (D.filter (· ∉ [Field.pointsTo])) (passObjects args dest s)
      (passObjects args dest t) := by
  have hobjs : (firstArgLocal args).bind t.pointsTo.get =
      (firstArgLocal args).bind s.pointsTo.get := by
    cases hx : firstArgLocal args with
    | none => rfl
    | some x => exact h.get_pointsTo (nthArgLocal_ne hargs hx)
  unfold San.passObjects
  rw [hobjs]
  exact h.setObjects _

theorem inheritObjects (h : DifferAt dest D s t) {arg : Local} (harg : arg ≠ dest) :
    DifferAt dest D (inheritObjects dest arg s) (inheritObjects dest arg t) := by
  unfold San.inheritObjects
  rw [h.get_pointsTo harg]
  split
  · exact (h.setObjects _).ofFilter
  · exact h

theorem protosOf (h : DifferAt dest D s t) {x : Local} (hx : x ≠ dest) :
    protosOf t x = protosOf s x := by
  rw [San.protosOf, FMap.get_eq_of_erase_eq (h.off .localProto) hx, San.protosOf]

/-- **Forgetting an argument** does not look at the destination. -/
theorem forgetArg (h : DifferAt dest D s t) (tcx : TyCtxt) (body : Body) {src : Local}
    (hsrc : src ≠ dest) :
    DifferAt dest D (forgetArg tcx body src s) (forgetArg tcx body src t) := by
  have hescape : DifferAt dest D (escapeForever src s) (escapeForever src t) := by
    refine h.keepOff (escapeForever_writes s src) (escapeForever_writes t src) fun f hf => ?_
    simp only [List.mem_cons, List.not_mem_nil, or_false] at hf
    rcases hf with rfl | rfl
    · have hheap : (escapeForever src t).heap = (escapeForever src s).heap := by
        unfold escapeForever
        rw [h.objectsFor hsrc, h.same_heap]
      exact ⟨hheap, fun _ => hheap⟩
    · exact ⟨FMap.erase_comm_of_erase_eq (h.off .pointsTo) src,
        fun hD => congrArg (FMap.erase · src) (h.same .pointsTo hD)⟩
  have hnote : ∀ b, DifferAt dest D (noteForget b (escapeForever src s))
      (noteForget b (escapeForever src t)) := fun b =>
    hescape.keep (noteForget_writes _ b) (noteForget_writes _ b) (List.forall_mem_singleton.mpr
      (congrArg (· || b) (hescape.off .untrackedForgetSeen)))
  have hrelease : ∀ {u v : BlockState}, DifferAt dest D u v →
      DifferAt dest D (releaseProtos src .forgotten u) (releaseProtos src .forgotten v) :=
    fun {u v} huv => by
      refine huv.keepOff (releaseProtos_writes u src _) (releaseProtos_writes v src _)
        fun f hf => ?_
      simp only [List.mem_cons, List.not_mem_nil, or_false] at hf
      rcases hf with rfl | rfl
      · exact ⟨FMap.erase_comm_of_erase_eq (huv.off .localProto) src,
          fun hD => congrArg (FMap.erase · src) (huv.same .localProto hD)⟩
      · have htype : (releaseProtos src .forgotten v).typestate =
            (releaseProtos src .forgotten u).typestate := by
          have hsame : v.typestate = u.typestate := huv.off .typestate
          show v.typestate.assign (San.protosOf v src) _ = u.typestate.assign (San.protosOf u src) _
          rw [hsame, huv.protosOf hsrc]
        exact ⟨htype, fun _ => htype⟩
  unfold San.forgetArg
  dsimp only
  rw [h.protosOf hsrc]
  exact ((hrelease (hnote _)).clearInitOf src).eraseMust [.bufWritten] src

theorem paramEffects (h : DifferAt dest D s t) {args : List Operand}
    (hargs : dest ∉ args.flatMap Operand.locals) (effects : List (Nat × ParamHeapEffect)) :
    DifferAt dest D (effects.foldl (applyParamEffect args) s)
      (effects.foldl (applyParamEffect args) t) := by
  induction effects generalizing s t with
  | nil => exact h
  | cons e effects ih =>
      refine ih ?_
      unfold applyParamEffect
      split
      · next arg harg _ =>
          exact (h.reconstitute (nthArgLocal_ne hargs harg)).dropProtoOf _
      · next arg harg _ => exact h.escapeLocal (nthArgLocal_ne hargs harg)
      · exact h

theorem returnAlias (h : DifferAt dest D s t) (hD : .ownerAlias ∉ D) (body : Body) {arg : Local}
    (harg : arg ≠ dest) :
    DifferAt dest D (returnAlias body dest arg s) (returnAlias body dest arg t) := by
  have halias : t.ownerAlias = s.ownerAlias := h.same .ownerAlias hD
  have hof : t.ownersOf dest = s.ownersOf dest := by
    rw [BlockState.ownersOf, halias, BlockState.ownersOf]
  have howners : argOwners body arg t = argOwners body arg s := by
    rw [argOwners, h.ownersOf harg, argOwners]
  have hset : DifferAt dest D
      (if argOwners body arg s = ∅ then s
        else s.setOwners dest (some (s.ownersOf dest ∪ argOwners body arg s)))
      (if argOwners body arg s = ∅ then t
        else t.setOwners dest (some (s.ownersOf dest ∪ argOwners body arg s))) := by
    split
    · exact h
    · exact (h.setOwners _).ofFilter
  unfold San.returnAlias
  rw [howners, hof]
  dsimp only
  split
  · exact hset
  · exact hset.inheritObjects harg

theorem returnAliasOf (h : DifferAt dest D s t) (hD : .ownerAlias ∉ D) (body : Body)
    {arg : Option Local} (harg : ∀ x, arg = some x → x ≠ dest) :
    DifferAt dest D (returnAliasOf body dest arg s) (returnAliasOf body dest arg t) := by
  cases arg with
  | none => exact h
  | some x => exact h.returnAlias hD body (harg x rfl)

theorem inheritObjectsOf (h : DifferAt dest D s t) {arg : Option Local}
    (harg : ∀ x, arg = some x → x ≠ dest) :
    DifferAt dest D (inheritObjectsOf dest arg s) (inheritObjectsOf dest arg t) := by
  cases arg with
  | none => exact h
  | some x => exact h.inheritObjects (harg x rfl)

/-- **A summary replays effects on the arguments** and gives the destination new objects. -/
theorem applyFnSummary (h : DifferAt dest D s t) (hD : .ownerAlias ∉ D) (body : Body)
    {args : List Operand} (hargs : dest ∉ args.flatMap Operand.locals) (bb : Nat)
    (summary : FnSummary) :
    DifferAt dest
      (D.filter (· ∉ Field.pointsTo :: if summary.returnsRawOwned then [] else [.localProto]))
      (applyFnSummary body args dest bb summary s) (applyFnSummary body args dest bb summary t) := by
  have hne : ∀ (o : Option Nat) (x : Local), o.bind (nthArgLocal args) = some x → x ≠ dest :=
    fun o x hx => by
      obtain ⟨i, -, hi⟩ := Option.bind_eq_some_iff.mp hx
      exact nthArgLocal_ne hargs hi
  have heffects := h.paramEffects hargs summary.paramEffects
  refine inheritObjectsOf (returnAliasOf (setOwners ?_ none).ofFilter
    (fun hmem => hD (List.mem_filter.mp hmem).1) body (hne _)) (hne _)
  cases summary.returnsRawOwned with
  | true => exact heffects.mintRawOwned bb
  | false => exact (heffects.setObjects none).dropProto.andThen

end DifferAt

/-! ### What the recognised calls leave alone -/

namespace CallKind

/-- The calls that leave the objects of their destination as they were. -/
def keepsObjects : CallKind → Bool
  | .guardAcquire | .maybeUninitWrite | .maybeUninitAsMutPtr | .unknown => true
  | _ => false

/-- The calls that leave the protocol instances of their destination in place. -/
def keepsProtos : CallKind → Bool
  | .rawRealloc | .intoRaw | .guardAcquire => true
  | .summarised summary => summary.returnsRawOwned
  | _ => false

/-- The call that points its destination into a `MaybeUninit`. -/
def setsMuPtr (args : List Operand) : CallKind → Bool
  | .maybeUninitAsMutPtr => (firstArgLocal args).isSome
  | _ => false

/-- The fields in which a recognised call gives its destination a new entry or none. -/
def settles (kind : CallKind) (args : List Operand) : List Field :=
  Field.scalars ++ ((if kind.keepsObjects then [] else [Field.pointsTo]) ++
    ((if kind.keepsProtos then [] else [Field.localProto]) ++
      if kind.setsMuPtr args then [Field.muRawPtr] else []))

end CallKind

namespace DifferAt
variable {dest : Local} {D : List Field} {s t : BlockState}

theorem callFromRaw (h : DifferAt dest D s t) {args : List Operand}
    (hargs : dest ∉ args.flatMap Operand.locals) :
    DifferAt dest (D.filter (· ∉ Field.tracking)) (callFromRaw args dest s)
      (callFromRaw args dest t) := by
  have hsrc : ∀ x, (firstArgLocal args).or (firstArgBaseLocal args) = some x → x ≠ dest := by
    intro x hx
    rcases Option.or_eq_some_iff.mp hx with hx | ⟨-, hx⟩
    · exact nthArgLocal_ne hargs hx
    · obtain ⟨p, hp, rfl⟩ := Option.map_eq_some_iff.mp hx
      obtain ⟨arg, harg, hplace⟩ := Option.bind_eq_some_iff.mp hp
      exact place_base_ne
        (fun hmem => hargs (List.mem_flatMap.mpr ⟨arg, List.mem_of_getElem? harg, hmem⟩)) hplace
  have hclear := ((h.reconstituteArg hsrc).setObjects none).dropProto.andThen
  have howners : ∀ (o : Option Local) {u v : BlockState}, (∀ x, o = some x → x ≠ dest) →
      DifferAt dest (D.filter (· ∉ [Field.pointsTo] ++ [.localProto])) u v →
      DifferAt dest (D.filter (· ∉ [Field.pointsTo] ++ [.localProto])) (inheritOwners o dest u)
        (inheritOwners o dest v) := fun o u v ho huv => by
    have hnone := (huv.setOwners none).ofFilter
    cases o with
    | none => exact hnone
    | some x =>
        unfold inheritOwners
        dsimp only
        rw [hnone.get_ownerAlias (ho x rfl)]
        exact (hnone.setOwners _).ofFilter
  exact (howners _ hsrc hclear).clearScalarFacts.andThen

theorem callSummarised (h : DifferAt dest D s t) (hD : .ownerAlias ∉ D) (body : Body)
    (path : String) (summary : FnSummary) {args : List Operand}
    (hargs : dest ∉ args.flatMap Operand.locals) (bb : Nat) :
    DifferAt dest (D.filter (· ∉ (CallKind.summarised summary).settles args))
      (callSummarised body path summary args dest bb s)
      (callSummarised body path summary args dest bb t) := by
  have hsummary := h.applyFnSummary hD body hargs bb summary
  have hpoints := hsummary.same .pointsTo fun hmem =>
    (of_decide_eq_true (List.mem_filter.mp hmem).2) List.mem_cons_self
  have hsettles : (CallKind.summarised summary).settles args ⊆
      (Field.pointsTo :: if summary.returnsRawOwned then [] else [.localProto]) ++ Field.scalars := by
    show Field.scalars ++ ([Field.pointsTo] ++
      ((if summary.returnsRawOwned then [] else [Field.localProto]) ++ [])) ⊆ _
    cases summary.returnsRawOwned <;> decide
  refine (andThen (clearScalarFacts ?_)).settled hsettles
  cases harg : firstArgLocal args with
  | none => exact hsummary
  | some arg0 =>
      dsimp only
      rw [show (San.applyFnSummary body args dest bb summary t).pointsTo = _ from hpoints]
      by_cases hinherit : (isOwnedBufferAccessor path &&
          ((San.applyFnSummary body args dest bb summary s).pointsTo.get dest).isNone) = true
      · rw [if_pos hinherit, if_pos hinherit]
        exact hsummary.inheritObjects (nthArgLocal_ne hargs harg)
      · rw [if_neg hinherit, if_neg hinherit]
        exact hsummary

theorem callUnknown (h : DifferAt dest D s t) (body : Body) (path : String) {args : List Operand}
    (hargs : dest ∉ args.flatMap Operand.locals) :
    DifferAt dest (D.filter (· ∉ CallKind.unknown.settles args)) (callUnknown body path args dest s)
      (callUnknown body path args dest t) := by
  have hwritten : ∀ o : Option Local, (∀ x, o = some x → x ≠ dest) →
      DifferAt dest D (markOwnersWritten o s) (markOwnersWritten o t) := fun o ho => by
    cases o with
    | none => exact h
    | some x =>
        unfold markOwnersWritten
        dsimp only
        rw [h.ownersOf (ho x rfl)]
        exact h.unionMust [.bufWritten] _
  have hsettles : CallKind.unknown.settles args ⊆ [Field.localProto] ++ Field.scalars :=
    (by decide : Field.scalars ++ ([] ++ ([Field.localProto] ++ [])) ⊆
      [Field.localProto] ++ Field.scalars)
  refine (clearScalarFacts (dropProto ?_)).andThen.settled hsettles
  split
  · unfold inheritProvenance
    cases harg : firstArgLocal args with
    | none => exact h
    | some arg0 =>
        have hne := nthArgLocal_ne hargs harg
        refine inheritObjects ?_ hne
        rw [h.get_ownerAlias hne]
        split
        · exact (h.setOwners _).ofFilter
        · exact h
  · split
    · exact hwritten _ fun x hx => nthArgLocal_ne hargs hx
    · split
      · exact hwritten _ fun x hx => nthArgLocal_ne hargs hx
      · split
        · exact h
        · exact h.escapeRawPtrArgs body hargs

/-- Acquiring a guard adds to the instances that the destination holds. -/
theorem acquireProto (h : DifferAt dest D s t) (hproto : .localProto ∉ D) (bb : Nat) :
    DifferAt dest D (San.acquireProto dest bb s) (San.acquireProto dest bb t) := by
  have hsame : t.localProto = s.localProto := h.same .localProto hproto
  refine h.keep (acquireProto_writes s dest bb) (acquireProto_writes t dest bb) fun f hf => ?_
  simp only [List.mem_cons, List.not_mem_nil, or_false] at hf
  rcases hf with rfl | rfl
  · show t.localProto.insert dest _ = s.localProto.insert dest _
    rw [San.protosOf, San.protosOf, hsame]
  · exact congrArg (FMap.insert · (callSiteProto bb) ProtocolState.active) (h.off .typestate)

theorem initReceiver (h : DifferAt dest D s t) {args : List Operand}
    (hargs : dest ∉ args.flatMap Operand.locals) :
    DifferAt dest D (San.initReceiver args s) (San.initReceiver args t) := by
  unfold San.initReceiver
  cases hx : firstArgLocal args with
  | none => exact h
  | some x =>
      dsimp only
      rw [h.derefBase (nthArgLocal_ne hargs hx)]
      exact h.insertInitOf _

/-- `as_mut_ptr` settles where its result points to if it has a receiver. -/
theorem callMaybeUninitAsMutPtr (h : DifferAt dest D s t) {args : List Operand}
    (hargs : dest ∉ args.flatMap Operand.locals) :
    DifferAt dest (D.filter (· ∉ CallKind.maybeUninitAsMutPtr.settles args))
      (San.callMaybeUninitAsMutPtr args dest s) (San.callMaybeUninitAsMutPtr args dest t) := by
  unfold San.callMaybeUninitAsMutPtr pointIntoReceiver CallKind.settles CallKind.setsMuPtr
  cases hx : firstArgLocal args with
  | none =>
      exact h.dropProto.clearScalarFacts.andThen.settled
        (by decide : Field.scalars ++ ([] ++ ([Field.localProto] ++ [])) ⊆
          [Field.localProto] ++ Field.scalars)
  | some x =>
      dsimp only
      rw [h.derefBase (nthArgLocal_ne hargs hx)]
      have hptr := h.settle (setMuPtr_writes s dest (s.derefBase x))
        (setMuPtr_writes t dest (s.derefBase x))
        (List.forall_mem_singleton.mpr (FMap.put_eq_of_erase_eq (h.off .muRawPtr) (some _)))
      exact hptr.dropProto.andThen.clearScalarFacts.andThen.settled
        (by decide : Field.scalars ++ ([] ++ ([Field.localProto] ++ [Field.muRawPtr])) ⊆
          [Field.muRawPtr] ++ [Field.localProto] ++ Field.scalars)

/-- **A recognised call settles what it does not keep.** -/
theorem applyCallKind (h : DifferAt dest D s t) (hD : .ownerAlias ∉ D) (tcx : TyCtxt) (body : Body)
    (path : String) (kind : CallKind) (hproto : kind.keepsProtos = true → .localProto ∉ D)
    {args : List Operand} (hargs : dest ∉ args.flatMap Operand.locals) (bb : Nat) :
    DifferAt dest (D.filter (· ∉ kind.settles args))
      (applyCallKind tcx body path kind args dest bb s)
      (applyCallKind tcx body path kind args dest bb t) := by
  have hfirst : ∀ x, firstArgLocal args = some x → x ≠ dest := fun x hx => nthArgLocal_ne hargs hx
  have htracking : ∀ {kind : CallKind} {u v : BlockState}, kind.setsMuPtr args = false →
      DifferAt dest (D.filter (· ∉ Field.tracking)) u v →
      DifferAt dest (D.filter (· ∉ kind.settles args)) u v := fun {kind} _ _ hmu huv => by
    refine huv.settled ?_
    unfold CallKind.settles
    rw [hmu]
    cases kind.keepsObjects <;> cases kind.keepsProtos <;> decide
  cases kind with
  | rawRealloc =>
      exact ((h.reconstituteArg hfirst).mintRawOwned bb).clearScalarFacts.andThen.settled
        (by decide : Field.scalars ++ ([Field.pointsTo] ++ ([] ++ [])) ⊆
          [Field.pointsTo] ++ Field.scalars)
  | intoRaw =>
      exact (h.mintRawOwned bb).clearScalarFacts.andThen.settled
        (by decide : Field.scalars ++ ([Field.pointsTo] ++ ([] ++ [])) ⊆
          [Field.pointsTo] ++ Field.scalars)
  | fromRaw => exact htracking rfl (h.callFromRaw hargs)
  | memForget =>
      refine htracking rfl (reset ?_ none)
      cases harg : firstArgBaseLocal args with
      | none => exact h
      | some src => exact h.forgetArg tcx body (firstArgBaseLocal_ne hargs harg)
  | guardAcquire =>
      exact (h.acquireProto (hproto rfl) bb).clearScalarFacts.settled
        (by decide : Field.scalars ++ ([] ++ ([] ++ [])) ⊆ Field.scalars)
  | assumeInit =>
      refine htracking rfl (finish (passObjects ?_ hargs))
      split
      · exact h.clearInitOf _
      · exact h
  | maybeUninitInit =>
      refine htracking rfl ?_
      have hreset := (h.passObjects hargs).finish
      exact hreset.keep (BlockState.insertInit_writes _ dest) (BlockState.insertInit_writes _ dest)
        (List.forall_mem_singleton.mpr (FMap.put_eq_of_erase_eq (hreset.off .init) (some _)))
  | maybeUninitWrite =>
      exact (h.initReceiver hargs).dropProto.clearScalarFacts.andThen.settled
        (by decide : Field.scalars ++ ([] ++ ([Field.localProto] ++ [])) ⊆
          [Field.localProto] ++ Field.scalars)
  | maybeUninitAsMutPtr => exact h.callMaybeUninitAsMutPtr hargs
  | bufWrite =>
      refine htracking rfl (reset ?_ none)
      split
      · next buf hbuf => exact h.insertMustOf .bufWritten (hfirst buf hbuf)
      · exact h
  | ptrRead => exact htracking rfl (h.passObjects hargs).finish
  | summarised summary => exact h.callSummarised hD body path summary hargs bb
  | unknown => exact h.callUnknown body path hargs

theorem leaveCall (h : DifferAt dest D s t) (hD : .constUpper ∉ D) (tcx : TyCtxt) (body : Body)
    (path : String) {args : List Operand} (hargs : dest ∉ args.flatMap Operand.locals) :
    DifferAt dest D (leaveCall tcx body path args dest s) (leaveCall tcx body path args dest t) := by
  have hnonzero : ∀ {c : Prop} [Decidable c] {u v : BlockState}, DifferAt dest D u v →
      DifferAt dest D (if c then u.insertMust .nonzero dest else u)
        (if c then v.insertMust .nonzero dest else v) := fun huv => by
    split
    · exact huv.insertMust .nonzero
    · exact huv
  have htype := hnonzero (c := endsWith path "::dangling" = true)
    (hnonzero (c := returnsNonNull path = true) (h.enforceTypeFacts hD tcx (body.localTy dest)))
  have hlayout : ∀ {c : Prop} [Decidable c] {u v : BlockState}, DifferAt dest D u v →
      DifferAt dest D (if c then u.insertMay .layoutOverflow dest else u)
        (if c then v.insertMay .layoutOverflow dest else v) := fun huv => by
    split
    · exact huv.insertMay .layoutOverflow
    · exact huv
  unfold San.leaveCall
  dsimp only
  cases hx : firstArgLocal args with
  | none =>
      rw [Option.any_none, Option.any_none, Bool.and_false]
      exact htype
  | some x =>
      simp only [Option.any_some, htype.mem_maySets .mulOverflow (nthArgLocal_ne hargs hx)]
      exact hlayout htype

end DifferAt

/-! ## What survives a call -/

/-- What no known call clears of its destination, though an assignment does. -/
def Field.survivors : List Field :=
  [Field.fnPtrTargets, .maySet .constPtrCast, .maySet .mulOverflow, .maySet .layoutOverflow,
    .maySet .reallocedParams, .activeVariant, .muFieldInits, .fieldOwned]

/-- The fields in which the destination of a recognised call keeps its old entry. -/
def CallKind.keeps (kind : CallKind) (args : List Operand) : List Field :=
  Field.survivors ++ ((if kind.setsMuPtr args then [] else [Field.muRawPtr]) ++
    ((if kind.keepsObjects then [Field.pointsTo] else []) ++
      if kind.keepsProtos then [Field.localProto] else []))

/-- The fields in which the destination of a call keeps its old entry, or a trace of it: a
reallocation looks at the owners that a handle aliased. -/
def callKeeps (tcx : TyCtxt) (body : Body) (summaries : SummaryMap) (callee : Option DefId)
    (args : List Operand) (dest : Local) : List Field :=
  match callee with
  | none => Field.perLocal.filter (· ≠ .ownerAlias)
  | some did =>
      (classify (tcx.defPathStr did) (summaries.get did)).keeps args ++
        if (reallocReceiver tcx summaries callee args).isSome && !(body.localTy dest).isRef then
          [Field.ownerAlias]
        else []

theorem mem_kind_keeps {kind : CallKind} {args : List Operand} {f : Field} :
    f ∈ kind.keeps args ↔ f ∈ Field.survivors ∨ (f = .muRawPtr ∧ kind.setsMuPtr args = false) ∨
      (f = .pointsTo ∧ kind.keepsObjects = true) ∨ (f = .localProto ∧ kind.keepsProtos = true) := by
  unfold CallKind.keeps
  cases kind.setsMuPtr args <;> cases kind.keepsObjects <;> cases kind.keepsProtos <;> simp

/-- A recognised call keeps or settles every field. -/
theorem kind_settles_or_keeps (kind : CallKind) {args : List Operand} {f : Field}
    (hf : f ∈ Field.perLocal)
    (howners : f ≠ .ownerAlias) (hderived : f ∉ Field.derived) (hkeeps : f ∉ kind.keeps args) :
    f ∈ kind.settles args := by
  have hcover : ∀ f ∈ Field.perLocal, f = .ownerAlias ∨ f ∈ Field.derived ∨ f ∈ Field.survivors ∨
      f ∈ Field.scalars ∨ f = .muRawPtr ∨ f = .pointsTo ∨ f = .localProto := by decide
  rw [mem_kind_keeps] at hkeeps
  simp only [not_or, not_and, Bool.not_eq_false, Bool.not_eq_true] at hkeeps
  obtain ⟨hsurvives, hmu, hobjects, hprotos⟩ := hkeeps
  unfold CallKind.settles
  rcases hcover f hf with h | h | h | h | rfl | rfl | rfl
  · exact absurd h howners
  · exact absurd h hderived
  · exact absurd h hsurvives
  · exact List.mem_append_left _ h
  · simp [hmu rfl]
  · simp [hobjects rfl]
  · simp [hprotos rfl]

section Sufficient
variable {tcx : TyCtxt} {body : Body} {summaries : SummaryMap} {args : List Operand}
  {dest : Local} {s t : BlockState} (hargs : dest ∉ args.flatMap Operand.locals)
include hargs

/-- **A known call maps states that agree on what it keeps to the same state.** -/
theorem DifferAt.applyResolvedCall_eq {did : DefId} (bb : Nat)
    (h : DifferAt dest (Field.perLocal.filter
      (· ∉ callKeeps tcx body summaries (some did) args dest)) s t) :
    San.applyResolvedCall tcx body summaries did args dest bb
        (San.enterCall tcx body summaries (some did) args dest t) =
      San.applyResolvedCall tcx body summaries did args dest bb
        (San.enterCall tcx body summaries (some did) args dest s) := by
  have hrealloc : reallocReceiver tcx summaries (some did) args = none ∨
      .ownerAlias ∉ Field.perLocal.filter (· ∉ callKeeps tcx body summaries (some did) args dest) ∨
      (body.localTy dest).isRef = true := by
    by_cases hrecv : ((reallocReceiver tcx summaries (some did) args).isSome &&
        !(body.localTy dest).isRef) = true
    · refine .inr (.inl fun hmem => ?_)
      refine of_decide_eq_true (List.mem_filter.mp hmem).2 (List.mem_append_right _ ?_)
      rw [if_pos hrecv]
      exact List.mem_cons_self
    · simp only [Bool.and_eq_true, Bool.not_eq_true', not_and, Bool.not_eq_false,
        Option.isSome_iff_ne_none] at hrecv
      by_cases hnone : reallocReceiver tcx summaries (some did) args = none
      · exact .inl hnone
      · exact .inr (.inr (hrecv hnone))
  have hfacts := ((h.enterCall tcx body summaries (some did) hargs hrealloc).clearRedefined
    |>.recordCallFacts hargs (tcx.defPathStr did))
  have hkind := hfacts.applyCallKind (fun hmem => by simp at hmem) tcx body (tcx.defPathStr did)
    (classify (tcx.defPathStr did) (summaries.get did)) (fun hprotos hmem => by
      simp only [List.mem_filter, decide_eq_true_eq] at hmem
      exact hmem.1.1.2 (List.mem_append_left _ (mem_kind_keeps.mpr (by simp [hprotos]))))
    hargs bb
  have hleave := hkind.leaveCall (fun hmem => by
    simp only [List.mem_filter, decide_eq_true_eq] at hmem
    exact hmem.1.2 (by decide)) tcx body (tcx.defPathStr did) hargs
  refine (hleave.mono fun f hf => ?_ : DifferAt dest [] _ _).eq
  simp only [List.mem_filter, decide_eq_true_eq] at hf
  obtain ⟨⟨⟨⟨hlocal, hkeeps⟩, howners⟩, hderived⟩, hsettles⟩ := hf
  exact absurd (kind_settles_or_keeps _ hlocal (by simpa using howners) hderived
    fun hmem => hkeeps (List.mem_append_left _ hmem)) hsettles

omit hargs in
theorem resolveCallee_congr {func : Operand} (hfunc : dest ∉ func.locals)
    (h : ∀ x, x ≠ dest → t.fnPtrTargets.get x = s.fnPtrTargets.get x) :
    resolveCallee tcx body func t = resolveCallee tcx body func s := by
  unfold resolveCallee
  cases func.constFnDef with
  | some fn => rfl
  | none =>
      cases hl : operandLocal func with
      | none => rfl
      | some l => exact h l (operandLocal_ne hfunc hl)

/-- **So does any call.** -/
theorem applyCall_eq_of_keeps {func : Operand} (hfunc : dest ∉ func.locals) (bb : Nat)
    (h : AgreeExcept dest s t)
    (hkeeps : ∀ f ∈ callKeeps tcx body summaries (resolveCallee tcx body func s) args dest,
      f.Same s t) :
    applyCall tcx body summaries bb func args (Place.ofLocal dest) t =
      applyCall tcx body summaries bb func args (Place.ofLocal dest) s := by
  have hstart := (DifferAt.ofAgreeExcept h).without hkeeps
  unfold applyCall
  dsimp only
  rw [resolveCallee_congr hfunc fun x hx =>
    FMap.get_eq_of_erase_eq ((DifferAt.ofAgreeExcept h).off .fnPtrTargets) hx]
  cases hcallee : resolveCallee tcx body func s with
  | none =>
      rw [hcallee] at hstart
      have henter := hstart.enterCall tcx body summaries none hargs (.inl rfl)
      have hsettled : (Field.perLocal.filter (· ∉ Field.perLocal.filter (· ≠ .ownerAlias))).filter
        (· ∉ [Field.ownerAlias]) ⊆ [] := by decide
      exact congrArg (San.escapeRawPtrArgs body args)
        (henter.mono hsettled : DifferAt dest [] _ _).eq
  | some did =>
      rw [hcallee] at hstart
      exact hstart.applyResolvedCall_eq hargs bb

end Sufficient

end San
