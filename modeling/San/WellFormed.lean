import San.Footprint

/-! # Reachable states are well formed

The checkers and the summary extraction rely on facts about the state that no type
enforces: a set-valued map never binds an empty set, every object that something
points to is in the heap, owners are parameters, and object ids come from three
disjoint ranges.  `Tracks` states what the tracked data must satisfy.  Every update
of the transfer functions preserves it, one lemma for each, and so does the join;
hence it holds of every state that the analysis can reach
(`wellFormed_of_reachable`).
-/
namespace San

/-! ## The invariant -/

/-- Where object ids come from: call sites, stale handles and raw-pointer parameters. -/
def ObjectRange (body : Body) (o : ObjectId) : Prop :=
  (∃ bb : body.BasicBlock, o = BlockState.callSiteObject bb.val) ∨
  (∃ l, body.Declares l ∧ o = staleObject l) ∨
  ∃ i < body.argCount, (body.localTy (paramLocal i)).isRawPtr = true ∧ o = paramObject i

/-- A nonempty set of objects of the heap. -/
def BoundIn (heap : FMap ObjectId HeapState) (objs : Finset ObjectId) : Prop :=
  objs ≠ ∅ ∧ ∀ o ∈ objs, heap.get o ≠ none

theorem BoundIn.mono {heap heap' : FMap ObjectId HeapState} {objs : Finset ObjectId}
    (h : BoundIn heap objs) (hg : ∀ o, heap.get o ≠ none → heap'.get o ≠ none) :
    BoundIn heap' objs :=
  ⟨h.1, fun o ho => hg o (h.2 o ho)⟩

/-- A nonempty set of parameters. -/
def OwnerSet (body : Body) (owners : Finset Local) : Prop :=
  owners ≠ ∅ ∧ ∀ o ∈ owners, isParam body o = true

/-- The kinds of pairs that are stored with the smaller local first. -/
def MustPairs.unordered : List MustPairs := [.keysAreNe, .eqLocals]

/-- The tracked data of `s` is well formed. -/
structure Tracks (body : Body) (s : BlockState) : Prop where
  pointsTo : s.pointsTo.All fun _ objs => BoundIn s.heap objs
  fieldOwned : s.fieldOwned.All fun _ objs => BoundIn s.heap objs
  localProto : s.localProto.All fun _ protos =>
    protos ≠ ∅ ∧ ∀ p ∈ protos, s.typestate.get p ≠ none
  ownerAlias : s.ownerAlias.All fun l owners => body.Declares l ∧ OwnerSet body owners
  realloced : ∀ o ∈ s.maySets .reallocedParams, isParam body o = true
  heapKeys : ∀ o, s.heap.get o ≠ none → ObjectRange body o
  pairs : ∀ k ∈ MustPairs.unordered, ∀ p ∈ s.mustPairs k, p.1.index ≤ p.2.index

namespace Tracks
variable {body : Body} {s t : BlockState} {l dst src : Local}

/-- The fields the invariant is about. -/
def fields : List Field :=
  [.pointsTo, .fieldOwned, .localProto, .typestate, .ownerAlias, .heap, .maySet .reallocedParams,
    .mustPairs .keysAreNe, .mustPairs .eqLocals]

/-- A stage that writes none of these fields keeps the invariant. -/
theorem frame {F : List Field} (h : Tracks body s) (hw : Writes F s t)
    (hF : ∀ f ∈ fields, f ∉ F) : Tracks body t := by
  have hpoints : t.pointsTo = s.pointsTo := hw .pointsTo (hF _ (by decide))
  have hfield : t.fieldOwned = s.fieldOwned := hw .fieldOwned (hF _ (by decide))
  have hproto : t.localProto = s.localProto := hw .localProto (hF _ (by decide))
  have htype : t.typestate = s.typestate := hw .typestate (hF _ (by decide))
  have howner : t.ownerAlias = s.ownerAlias := hw .ownerAlias (hF _ (by decide))
  have hheap : t.heap = s.heap := hw .heap (hF _ (by decide))
  have hrealloc : t.maySets .reallocedParams = s.maySets .reallocedParams :=
    hw (.maySet .reallocedParams) (hF _ (by decide))
  have hpairs : ∀ k ∈ MustPairs.unordered, t.mustPairs k = s.mustPairs k := by
    intro k hk
    cases k with
    | keysAreNe => exact hw (.mustPairs .keysAreNe) (hF _ (by decide))
    | eqLocals => exact hw (.mustPairs .eqLocals) (hF _ (by decide))
    | _ => exact absurd hk (by decide)
  refine ⟨?_, ?_, ?_, ?_, ?_, ?_, fun k hk => ?_⟩
  · rw [hpoints, hheap]; exact h.pointsTo
  · rw [hfield, hheap]; exact h.fieldOwned
  · rw [hproto, htype]; exact h.localProto
  · rw [howner]; exact h.ownerAlias
  · rw [hrealloc]; exact h.realloced
  · rw [hheap]; exact h.heapKeys
  · rw [hpairs k hk]; exact h.pairs k hk

theorem objectsFor (h : Tracks body s) {o : ObjectId} (ho : o ∈ s.objectsFor l) :
    s.heap.get o ≠ none := by
  unfold BlockState.objectsFor at ho
  cases hl : s.pointsTo.get l with
  | none => rw [hl] at ho; exact absurd ho (Finset.notMem_empty o)
  | some objs => rw [hl] at ho; exact (h.pointsTo l objs hl).2 o ho

theorem ownersOf (h : Tracks body s) {o : Local} (ho : o ∈ s.ownersOf l) :
    isParam body o = true := by
  unfold BlockState.ownersOf at ho
  cases hl : s.ownerAlias.get l with
  | none => rw [hl] at ho; exact absurd ho (Finset.notMem_empty o)
  | some owners => rw [hl] at ho; exact (h.ownerAlias l owners hl).2.2 o ho

/-! ## Pointers -/

theorem setObjects (h : Tracks body s) {o : Option (Finset ObjectId)}
    (ho : ∀ objs, o = some objs → BoundIn s.heap objs) : Tracks body (s.setObjects l o) :=
  { h with pointsTo := h.pointsTo.put ho }

theorem clearObjects (h : Tracks body s) : Tracks body (s.setObjects l none) :=
  h.setObjects nofun

/-- Objects taken over from another local. -/
theorem copyObjects (h : Tracks body s) : Tracks body (s.setObjects dst (s.pointsTo.get src)) :=
  h.setObjects fun objs ho => h.pointsTo src objs ho

theorem nonempty_eq_some {α : Type} [DecidableEq α] {o : Option (Finset α)} {v : Finset α} :
    nonempty o = some v ↔ o = some v ∧ v ≠ ∅ := by
  simp [nonempty, Option.filter_eq_some_iff]

theorem copyNonempty (h : Tracks body s) :
    Tracks body (s.setObjects dst (nonempty (s.pointsTo.get src))) :=
  h.setObjects fun objs ho => h.pointsTo src objs (nonempty_eq_some.mp ho).1

theorem setOwners (h : Tracks body s) {o : Option (Finset Local)}
    (ho : ∀ owners, o = some owners → body.Declares l ∧ OwnerSet body owners) :
    Tracks body (s.setOwners l o) :=
  { h with ownerAlias := h.ownerAlias.put ho }

theorem clearOwners (h : Tracks body s) : Tracks body (s.setOwners l none) :=
  h.setOwners nofun

theorem dropProto (h : Tracks body s) : Tracks body (s.dropProto l) :=
  { h with localProto := h.localProto.erase l }

theorem invalidateOwners (h : Tracks body s) (owners : Finset Local) :
    Tracks body (s.invalidateOwners owners) := by
  unfold BlockState.invalidateOwners
  split
  · exact h
  · refine { h with ownerAlias := h.ownerAlias.filterMap ?_ }
    intro l os rest hos hrest
    dsimp only at hrest
    split at hrest
    · cases hrest
    · rename_i hne
      cases hrest
      exact ⟨hos.1, hne, fun o ho => hos.2.2 o (Finset.mem_sdiff.mp ho).1⟩

theorem clearFieldOwnedFor (h : Tracks body s) : Tracks body (s.clearFieldOwnedFor l) :=
  { h with fieldOwned := h.fieldOwned.retain _ }

/-! ## The heap -/

/-- Rewriting the states of objects that are in the heap neither adds nor removes any. -/
theorem alter_get_ne_none {heap : FMap ObjectId HeapState} {objs : Finset ObjectId}
    {f : Option HeapState → Option HeapState} (hobjs : ∀ o ∈ objs, heap.get o ≠ none)
    (hf : ∀ v, f (some v) ≠ none) (o : ObjectId) :
    (heap.alter objs f).get o ≠ none ↔ heap.get o ≠ none := by
  rw [FMap.get_alter]
  split
  · rename_i ho
    obtain ⟨v, hv⟩ := Option.ne_none_iff_exists'.mp (hobjs o ho)
    rw [hv]
    simp [hf v]
  · rfl

theorem alterHeap (h : Tracks body s) {objs : Finset ObjectId}
    {f : Option HeapState → Option HeapState} (hobjs : ∀ o ∈ objs, s.heap.get o ≠ none)
    (hf : ∀ v, f (some v) ≠ none) : Tracks body { s with heap := s.heap.alter objs f } := by
  have hiff := alter_get_ne_none hobjs hf
  exact
    { h with
      pointsTo := h.pointsTo.mono fun _ _ hb => hb.mono fun o => (hiff o).mpr
      fieldOwned := h.fieldOwned.mono fun _ _ hb => hb.mono fun o => (hiff o).mpr
      heapKeys := fun o ho => h.heapKeys o ((hiff o).mp ho) }

theorem escapeLocal (h : Tracks body s) : Tracks body (s.escapeLocal l) := by
  have hheap := h.alterHeap (f := BlockState.escapeObject) (fun o => h.objectsFor (l := l))
    (fun v => by cases v <;> exact Option.some_ne_none _)
  exact
    { hheap with
      pointsTo := hheap.pointsTo.erase l
      localProto := hheap.localProto.erase l
      ownerAlias := hheap.ownerAlias.erase l }

theorem reconstitute (h : Tracks body s) : Tracks body (s.reconstitute l) :=
  h.alterHeap (fun _ => h.objectsFor) fun v => by cases v <;> exact Option.some_ne_none _

theorem escapeForever (h : Tracks body s) : Tracks body (escapeForever l s) := by
  have hheap := h.alterHeap (f := fun _ => some .escaped) (fun o => h.objectsFor (l := l))
    (fun v => Option.some_ne_none _)
  exact { hheap with pointsTo := hheap.pointsTo.erase l }

/-- Bind more objects, all from the known ranges. -/
theorem growHeap (h : Tracks body s) {heap : FMap ObjectId HeapState}
    (hg : ∀ o, s.heap.get o ≠ none → heap.get o ≠ none)
    (hk : ∀ o, heap.get o ≠ none → ObjectRange body o) : Tracks body { s with heap := heap } :=
  { h with
    pointsTo := h.pointsTo.mono fun _ _ hb => hb.mono hg
    fieldOwned := h.fieldOwned.mono fun _ _ hb => hb.mono hg
    heapKeys := hk }

theorem insertHeap (h : Tracks body s) {o : ObjectId} {v : HeapState} (ho : ObjectRange body o) :
    Tracks body { s with heap := s.heap.insert o v } := by
  refine h.growHeap (fun x hx => FMap.get_insert_ne_none (Or.inr hx)) fun x hx => ?_
  rw [FMap.get_insert] at hx
  split at hx
  · rename_i he
    rwa [he]
  · exact h.heapKeys x hx

theorem mintRawOwned (h : Tracks body s) (bb : body.BasicBlock) :
    Tracks body (s.mintRawOwned dst bb.val) := by
  have hheap := h.insertHeap (v := .rawOwned) (Or.inl ⟨bb, rfl⟩)
  exact
    { hheap with
      pointsTo := hheap.pointsTo.insert
        ⟨Finset.singleton_ne_empty _, fun o ho => by
          rw [Finset.mem_singleton.mp ho]
          exact FMap.get_insert_ne_none (Or.inl rfl)⟩ }

theorem detachStale (h : Tracks body s) {stale : Finset Local}
    (hs : ∀ p ∈ stale, body.Declares p) : Tracks body (detachStale stale s) := by
  have hget : ∀ o, (s.heap.assign (stale.image staleObject) fun _ => .maybeFreed).get o ≠ none ↔
      o ∈ stale.image staleObject ∨ s.heap.get o ≠ none := by
    intro o
    rw [FMap.get_assign]
    by_cases ho : o ∈ stale.image staleObject <;> simp [ho]
  have hheap : Tracks body { s with
      heap := s.heap.assign (stale.image staleObject) fun _ => .maybeFreed } := by
    refine h.growHeap (fun o ho => (hget o).mpr (Or.inr ho)) fun o ho => ?_
    rcases (hget o).mp ho with ho | ho
    · obtain ⟨p, hp, rfl⟩ := Finset.mem_image.mp ho
      exact Or.inr (Or.inl ⟨p, hs p hp, rfl⟩)
    · exact h.heapKeys o ho
  exact
    { hheap with
      pointsTo := hheap.pointsTo.assign fun p hp =>
        ⟨Finset.singleton_ne_empty _, fun o ho => by
          rw [Finset.mem_singleton.mp ho]
          exact (hget _).mpr (Or.inl (Finset.mem_image_of_mem _ hp))⟩
      ownerAlias := hheap.ownerAlias.retain _ }

/-! ## Pairs of locals -/

theorem filterPairs (h : Tracks body s) (p : Local × Local → Prop) [DecidablePred p] :
    Tracks body (s.onMustPairs MustPairs.all (·.filter p)) := by
  refine { h with pairs := fun k hk q hq => h.pairs k hk q ?_ }
  dsimp only [BlockState.onMustPairs] at hq
  split at hq
  · exact (Finset.mem_filter.mp hq).1
  · exact hq

theorem clearRedefined (h : Tracks body s) : Tracks body (s.clearRedefined l) :=
  h.frame (s.onFacts_writes Fact.derived _) (by decide)
    |>.frame (BlockState.onPairFacts_writes _ PairFact.all _) (by decide)
    |>.frame (BlockState.onConstFacts_writes _ ConstFact.all _) (by decide)
    |>.frame (BlockState.onMustSets_writes _ MustSet.derived _) (by decide)
    |>.filterPairs _
    |>.frame (BlockState.onMaySets_writes _ [.fdConsumed] _) (by decide)
    |>.frame (BlockState.clearBounds_writes _ l) (by decide)

theorem drain (h : Tracks body s) (k : Fact) {m : MustSet} (hm : .mustSet m ∈ Field.values) :
    Tracks body (drain k m l s) := h.frame (drain_values s hm k l) (by decide)

theorem drainUpper (h : Tracks body s) (k : ConstFact) (f : U64 → U64) :
    Tracks body (drainUpper k f l s) := h.frame (drainUpper_values s k f l) (by decide)

theorem drainLower (h : Tracks body s) (k : ConstFact) (f : U64 → U64) :
    Tracks body (drainLower k f l s) := h.frame (drainLower_values s k f l) (by decide)

theorem orderPair_le (p : Local × Local) : (orderPair p).1.index ≤ (orderPair p).2.index := by
  unfold orderPair
  split
  · assumption
  · exact le_of_not_ge ‹_›

/-- What a branch proves of two locals is stored in order, or in a field that is not
normalised. -/
theorem drainPair (h : Tracks body s) (k : PairFact) {m : MustPairs}
    {norm : Local × Local → Local × Local}
    (hm : m ∈ MustPairs.unordered → ∀ p, (norm p).1.index ≤ (norm p).2.index) :
    Tracks body (drainPair k m norm l s) := by
  unfold San.drainPair
  split
  · refine { h with pairs := fun k' hk' p hp => ?_ }
    dsimp only [BlockState.onMustPairs] at hp
    split at hp
    · rename_i hkm
      rw [List.mem_singleton.mp hkm] at hp hk'
      rcases Finset.mem_insert.mp hp with rfl | hp
      · exact hm hk' _
      · exact h.pairs m hk' p hp
    · exact h.pairs k' hk' p hp
  · exact h

theorem refineTrueEdge (h : Tracks body s) : Tracks body (refineTrueEdge l s) :=
  h.drain .ltFacts (by decide)
    |>.drain .leFacts (by decide)
    |>.drainPair .ltFor (fun hm => absurd hm (by decide))
    |>.drainPair .leFor (fun hm => absurd hm (by decide))
    |>.drain .spareIfTrue (by decide)
    |>.drain .fullIfTrue (by decide)
    |>.drain .nonzeroIfTrue (by decide)
    |>.drain .finiteIfTrue (by decide)
    |>.drainUpper .constLt predSat
    |>.drainUpper .constLe id
    |>.drainLower .constGt succSat
    |>.drainLower .constGe id
    |>.drainPair .nePairIfTrue (fun _ => orderPair_le)
    |>.drainPair .eqPairIfTrue (fun _ => orderPair_le)

theorem refineFalseEdge (h : Tracks body s) : Tracks body (refineFalseEdge l s) :=
  h.drain .geFacts (by decide)
    |>.drain .gtFacts (by decide)
    |>.drain .spareIfFalse (by decide)
    |>.drain .fullIfFalse (by decide)
    |>.drain .nonzeroIfFalse (by decide)
    |>.drain .nanIfTrue (by decide)
    |>.drainLower .constLt id
    |>.drainLower .constLe succSat
    |>.drainUpper .constGt id
    |>.drainUpper .constGe predSat
    |>.drainPair .eqPairIfTrue (fun _ => orderPair_le)
    |>.drainPair .nePairIfTrue (fun _ => orderPair_le)

/-- **Taking an edge keeps the tracked data well formed.** -/
theorem refineSwitchintEdge (h : Tracks body s) {n : Nat} (term : Terminator n) (succ : Fin n) :
    Tracks body (refineSwitchintEdge term succ s) := by
  unfold San.refineSwitchintEdge
  split
  · split
    · exact h.refineTrueEdge
    · exact h.refineFalseEdge
    · exact h
  · exact h

/-! ## Protocol instances -/

theorem assign_get_ne_none {typestate : FMap ProtocolId ProtocolState} {ps : Finset ProtocolId}
    {f : ProtocolId → ProtocolState} {p : ProtocolId} (h : typestate.get p ≠ none) :
    (typestate.assign ps f).get p ≠ none := by
  rw [FMap.get_assign]
  split
  · exact Option.some_ne_none _
  · exact h

theorem releaseProtos (h : Tracks body s) (st : ProtocolState) :
    Tracks body (releaseProtos l st s) :=
  { h with
    localProto := (h.localProto.erase l).mono fun _ _ hp =>
      ⟨hp.1, fun p hpm => assign_get_ne_none (hp.2 p hpm)⟩ }

theorem acquireProto (h : Tracks body s) (bb : Nat) : Tracks body (acquireProto dst bb s) := by
  have hget : ∀ {p}, s.typestate.get p ≠ none →
      (s.typestate.insert (callSiteProto bb) .active).get p ≠ none :=
    fun hp => FMap.get_insert_ne_none (Or.inr hp)
  refine { h with localProto := ?_ }
  refine FMap.All.insert (h.localProto.mono fun _ _ hp => ⟨hp.1, fun p hpm => hget (hp.2 p hpm)⟩)
    ⟨Finset.insert_ne_empty _ _, fun p hp => ?_⟩
  rcases Finset.mem_insert.mp hp with rfl | hp
  · exact FMap.get_insert_ne_none (Or.inl rfl)
  · unfold protosOf at hp
    cases hl : s.localProto.get dst with
    | none => rw [hl] at hp; exact absurd hp (Finset.notMem_empty p)
    | some ps => rw [hl] at hp; exact hget ((h.localProto dst ps hl).2 p hp)

/-! ## Statements -/

theorem storeField (h : Tracks body s) (base : Local) (f : FieldIdx) :
    Tracks body (storeField base f src s) :=
  { h with
    fieldOwned := h.fieldOwned.put fun objs ho => h.pointsTo src objs (nonempty_eq_some.mp ho).1
    pointsTo := h.pointsTo.erase src
    localProto := h.localProto.erase src
    ownerAlias := h.ownerAlias.erase src }

theorem storeObjects (h : Tracks body s) (dst : Place) (rvalue : Rvalue) :
    Tracks body (storeObjects dst rvalue s) := by
  unfold San.storeObjects
  split
  · exact h
  · rename_i src _
    split
    · split
      · rename_i objs hobjs
        obtain ⟨hget, hne⟩ := nonempty_eq_some.mp hobjs
        refine h.setObjects ?_
        rintro _ ⟨⟩
        refine ⟨fun he => hne (Finset.union_eq_empty.mp he).2, fun o ho => ?_⟩
        rcases Finset.mem_union.mp ho with ho | ho
        · exact h.objectsFor ho
        · exact (h.pointsTo src objs hget).2 o ho
      · exact h
    · split
      · exact h.storeField _ _
      · exact h.escapeLocal

theorem assignProjected (h : Tracks body s) (tcx : TyCtxt) (dst : Place) (rvalue : Rvalue) :
    Tracks body (assignProjected tcx body dst rvalue s) := by
  exact (h.storeObjects dst rvalue).frame (setUnionField_writes _ tcx body dst) (by decide)
    |>.frame (writeMaybeUninitField_writes _ body dst) (by decide)

theorem unionOwners (h : Tracks body s) {ls : List Local} {o : Local}
    (ho : o ∈ ls.foldr (fun l owners => s.ownersOf l ∪ owners) ∅) : isParam body o = true := by
  induction ls with
  | nil => exact absurd ho (Finset.notMem_empty o)
  | cons l ls ih =>
      rcases Finset.mem_union.mp ho with ho | ho
      · exact h.ownersOf ho
      · exact ih ho

/-- An assignment derives owners from owners and from parameters only. -/
theorem rvalueOwners (h : Tracks body s) {rvalue : Rvalue} {o : Local}
    (ho : o ∈ rvalueOwners body dst rvalue s) : isParam body o = true := by
  unfold San.rvalueOwners at ho
  split at ho
  · exact h.unionOwners ho
  · split at ho
    · exact absurd ho (Finset.notMem_empty o)
    · rename_i place _
      split at ho
      · exact absurd ho (Finset.notMem_empty o)
      · unfold placeOwners at ho
        split at ho
        · rename_i owners hget
          exact (h.ownerAlias _ owners hget).2.2 o ho
        · split at ho
          · rename_i hp
            rw [Finset.mem_singleton.mp ho]
            exact (Bool.and_eq_true_iff.mp hp.2).1
          · split at ho
            · rename_i hp
              rw [Finset.mem_singleton.mp ho]
              exact hp.2
            · exact absurd ho (Finset.notMem_empty o)

theorem updateOwnerAlias (h : Tracks body s) (hdst : body.Declares dst) (rvalue : Rvalue) :
    Tracks body (updateOwnerAlias body dst rvalue s) := by
  refine h.setOwners fun owners ho => ?_
  obtain ⟨rfl, hne⟩ := nonempty_eq_some.mp ho |>.imp_left Option.some.inj
  exact ⟨hdst, hne, fun o => h.rvalueOwners⟩

theorem updateFnPtrTarget (h : Tracks body s) (rvalue : Rvalue) :
    Tracks body (updateFnPtrTarget dst rvalue s) :=
  { h with }

theorem clearAssigned (h : Tracks body s) : Tracks body (s.clearAssigned dst) := by
  exact (h.frame (s.onMaySets_writes [.constPtrCast, .mulOverflow, .layoutOverflow] _) (by decide)).frame
    (BlockState.clearParts_writes _ dst) (by decide) |>.clearFieldOwnedFor

theorem moveTracked (h : Tracks body s) : Tracks body (moveTracked src dst s) :=
  { h with
    pointsTo := (h.pointsTo.erase src).put fun objs ho =>
      h.pointsTo src objs (nonempty_eq_some.mp ho).1
    localProto := (h.localProto.erase src).put fun protos ho =>
      h.localProto src protos (nonempty_eq_some.mp ho).1 }

theorem copyTracked (h : Tracks body s) : Tracks body (copyTracked src dst s) :=
  { h with
    pointsTo := h.pointsTo.put fun objs ho => h.pointsTo src objs ho
    localProto := h.localProto.put fun protos ho => h.localProto src protos ho }

theorem assignFieldRead (h : Tracks body s) (src : Place) :
    Tracks body (assignFieldRead src dst s) := by
  have hobjs : Tracks body (s.setObjects dst ((s.pointsTo.get src.base).or
      ((lastSimpleFieldIdx src.projection).bind fun f => s.fieldOwned.get (src.base, f)))) := by
    refine h.setObjects fun objs ho => ?_
    rcases Option.or_eq_some_iff.mp ho with ho | ⟨_, ho⟩
    · exact h.pointsTo _ objs ho
    · obtain ⟨f, _, ho⟩ := Option.bind_eq_some_iff.mp ho
      exact h.fieldOwned _ objs ho
  exact hobjs.dropProto.frame (clearScalarFacts_writes _ dst) (by decide)
    |>.frame (BlockState.onMaySets_writes _ [.mulOverflow] _) (by decide)

theorem assignBorrow (h : Tracks body s) (base : Local) :
    Tracks body (assignBorrow base dst s) := by
  exact h.copyNonempty.dropProto.frame (clearScalarFacts_writes _ dst) (by decide)

theorem unionObjects (h : Tracks body s) {ls : List Local} {o : ObjectId}
    (ho : o ∈ ls.foldr (fun l objs => s.objectsFor l ∪ objs) ∅) : s.heap.get o ≠ none := by
  induction ls with
  | nil => exact absurd ho (Finset.notMem_empty o)
  | cons l ls ih =>
      rcases Finset.mem_union.mp ho with ho | ho
      · exact h.objectsFor ho
      · exact ih ho

theorem assignAggregate (h : Tracks body s) (tcx : TyCtxt) (kind : AggregateKind)
    (operands : List Operand) : Tracks body (assignAggregate tcx kind operands dst s) := by
  have hobjs : Tracks body ((s.setObjects dst (nonempty (some ((operands.filterMap
      operandLocal).foldr (fun l objs => s.objectsFor l ∪ objs) ∅)))).dropProto dst) := by
    refine (h.setObjects fun objs ho => ?_).dropProto
    obtain ⟨rfl, hne⟩ := nonempty_eq_some.mp ho |>.imp_left Option.some.inj
    exact ⟨hne, fun o => h.unionObjects⟩
  exact hobjs.frame (clearScalarFacts_writes _ dst) (by decide)
    |>.frame (aggregateKind_writes _ tcx kind operands dst) (by decide)

theorem assignPtrCast (h : Tracks body s) (ty : Ty) :
    Tracks body (assignPtrCast body src dst ty s) := by
  have hobjs : Tracks body (s.setObjects dst (s.pointsTo.get src)) := h.copyObjects
  unfold San.assignPtrCast
  dsimp only
  split
  · have hcast : Tracks body ((s.setObjects dst (s.pointsTo.get src)).insertMay
        .constPtrCast dst) :=
      hobjs.frame (BlockState.insertMay_writes _ _ _) (by decide)
    exact hcast.dropProto.frame (clearScalarFacts_writes _ dst) (by decide)
  · exact hobjs.dropProto.frame (clearScalarFacts_writes _ dst) (by decide)

theorem offsetObjects (h : Tracks body s) {op : BinOp} {op1 op2 : Operand}
    {objs : Finset ObjectId} (ho : offsetObjects op op1 op2 s = some objs) :
    BoundIn s.heap objs := by
  unfold San.offsetObjects at ho
  split at ho
  · obtain ⟨x, _, hx⟩ := List.exists_of_findSome?_eq_some ho
    obtain ⟨l, _, hl⟩ := Option.bind_eq_some_iff.mp hx
    exact h.pointsTo l objs hl
  · cases ho

theorem clearTracking (h : Tracks body s) : Tracks body (clearTracking l s) := by
  exact h.clearObjects.dropProto.frame (clearScalarFacts_writes _ l) (by decide)

theorem consumeField (h : Tracks body s) (src : Place) : Tracks body (consumeField src s) := by
  unfold San.consumeField
  split
  · exact { h with fieldOwned := h.fieldOwned.erase _ }
  · exact h

theorem assignUnknown (h : Tracks body s) (rvalue : Rvalue) :
    Tracks body (assignUnknown rvalue dst s) := by
  unfold San.assignUnknown
  dsimp only
  split
  · split
    · exact h.clearTracking
    · exact (h.clearTracking.consumeField _).clearTracking
  · exact h.clearTracking

theorem assignRvalue (h : Tracks body s) (tcx : TyCtxt) (rvalue : Rvalue) :
    Tracks body (assignRvalue tcx body dst rvalue s) := by
  have hmove : ∀ src, Tracks body (assignMove src dst s) := fun src => by
    exact h.moveTracked.frame (carryScalars_writes _ _ _ _) (by decide)
  have hcopy : ∀ src, Tracks body (assignCopy src dst s) := fun src => by
    exact h.copyTracked.frame (carryScalars_writes _ _ _ _) (by decide)
  unfold San.assignRvalue
  split
  · exact (h.frame (constantFacts_writes s _ dst) (by decide)).clearObjects.dropProto.frame
      (clearScalarFacts_writes _ dst) (by decide)
  · split
    · exact hmove _
    · split
      · exact h.assignFieldRead _
      · exact h.assignUnknown _
  · split
    · exact hcopy _
    · split
      · exact h.assignFieldRead _
      · exact h.assignUnknown _
  · exact h.assignBorrow _
  · exact h.assignBorrow _
  · exact h.assignBorrow _
  · exact h.assignAggregate _ _ _
  · split
    · split
      · exact h.assignPtrCast _
      · split
        · exact h.frame (assignNumericCast_writes s _ _ dst _) (by decide)
        · exact h.assignUnknown _
    · exact h.assignUnknown _
  · exact (h.setObjects fun _ => h.offsetObjects).dropProto.frame
      (BlockState.clearInit_writes _ dst) (by decide)
    |>.frame (BlockState.onMustSets_writes _ MustSet.scalar _) (by decide)
      |>.frame (recordBinaryOp_writes _ body _ _ _ dst) (by decide)
  · exact h.assignUnknown _

theorem assignLocal (h : Tracks body s) (tcx : TyCtxt) (hdst : body.Declares dst)
    (rvalue : Rvalue) : Tracks body (assignLocal tcx body dst rvalue s) := by
  unfold San.assignLocal
  dsimp only
  have hcleared : Tracks body (((San.updateFnPtrTarget dst rvalue (San.updateOwnerAlias body dst
      rvalue s)).clearRedefined dst).clearAssigned dst) :=
    (updateFnPtrTarget (h.updateOwnerAlias hdst rvalue) rvalue).clearRedefined.clearAssigned
  have hrecorded := hcleared.frame (recordRefBase_writes _ dst rvalue) (by decide)
    |>.frame (propagateRvalue_writes _ dst rvalue) (by decide)
    |>.frame (recordLenOf_writes _ dst rvalue) (by decide)
  exact (hrecorded.assignRvalue tcx rvalue).frame (enforceTypeFacts_writes _ tcx dst _) (by decide)

/-- **A statement keeps the tracked data well formed.** -/
theorem applyStatement (h : Tracks body s) (tcx : TyCtxt) {stmt : Statement}
    (hstmt : ∀ l ∈ stmt.locals, body.Declares l) :
    Tracks body (applyStatement tcx body stmt s) := by
  obtain ⟨kind, span⟩ := stmt
  cases kind with
  | other => exact h
  | assign dst rvalue =>
      have hdst : body.Declares dst.base := hstmt dst.base (by simp [Statement.locals, Place.locals])
      unfold San.applyStatement
      dsimp only
      split
      · exact Tracks.assignLocal (h.invalidateOwners _) tcx hdst rvalue
      · exact Tracks.assignProjected (h.invalidateOwners _) tcx dst rvalue

/-! ## Summaries -/

theorem applyParamEffect (h : Tracks body s) (args : List Operand) (e : Nat × ParamHeapEffect) :
    Tracks body (applyParamEffect args s e) := by
  unfold San.applyParamEffect
  split
  · exact h.reconstitute.dropProto
  · exact h.escapeLocal
  · exact h

theorem applyParamEffects (h : Tracks body s) (args : List Operand)
    (effects : List (Nat × ParamHeapEffect)) :
    Tracks body (effects.foldl (San.applyParamEffect args) s) := by
  induction effects generalizing s with
  | nil => exact h
  | cons e effects ih => exact ih (h.applyParamEffect args e)

theorem inheritObjects (h : Tracks body s) : Tracks body (inheritObjects dst src s) := by
  unfold San.inheritObjects
  split
  · rename_i objs hobjs
    refine h.setObjects ?_
    rintro _ ⟨⟩
    exact h.pointsTo src objs (nonempty_eq_some.mp hobjs).1
  · exact h

theorem returnAlias (h : Tracks body s) (hdst : body.Declares dst) :
    Tracks body (returnAlias body dst src s) := by
  have howners : ∀ o ∈ argOwners body src s, isParam body o = true := by
    intro o ho
    unfold argOwners at ho
    split at ho
    · rename_i hp
      rw [Finset.mem_singleton.mp ho]
      exact (Bool.and_eq_true_iff.mp hp).1
    · split at ho
      · exact h.ownersOf ho
      · exact absurd ho (Finset.notMem_empty o)
  have hset : Tracks body (if argOwners body src s = ∅ then s
      else s.setOwners dst (some (s.ownersOf dst ∪ argOwners body src s))) := by
    split
    · exact h
    · rename_i hne
      refine h.setOwners ?_
      rintro _ ⟨⟩
      refine ⟨hdst, fun he => hne (Finset.union_eq_empty.mp he).2, fun o ho => ?_⟩
      rcases Finset.mem_union.mp ho with ho | ho
      · exact h.ownersOf ho
      · exact howners o ho
  unfold San.returnAlias
  dsimp only
  split
  · exact hset
  · exact hset.inheritObjects

theorem returnAliasOf (h : Tracks body s) (hdst : body.Declares dst) (arg : Option Local) :
    Tracks body (returnAliasOf body dst arg s) := by
  cases arg with
  | none => exact h
  | some arg => exact h.returnAlias hdst

theorem inheritObjectsOf (h : Tracks body s) (arg : Option Local) :
    Tracks body (inheritObjectsOf dst arg s) := by
  cases arg with
  | none => exact h
  | some arg => exact h.inheritObjects

theorem applyFnSummary (h : Tracks body s) (args : List Operand) (hdst : body.Declares dst)
    (bb : body.BasicBlock) (summary : FnSummary) :
    Tracks body (applyFnSummary body args dst bb.val summary s) := by
  have heffects := h.applyParamEffects args summary.paramEffects
  have hdest : Tracks body ((if summary.returnsRawOwned = true then
      (summary.paramEffects.foldl (San.applyParamEffect args) s).mintRawOwned dst bb.val
      else ((summary.paramEffects.foldl (San.applyParamEffect args) s).setObjects dst
        none).dropProto dst).setOwners dst none) := by
    refine clearOwners ?_
    split
    · exact heffects.mintRawOwned bb
    · exact heffects.clearObjects.dropProto
  exact (hdest.returnAliasOf hdst _).inheritObjectsOf _

/-! ## Calls -/

theorem markStale (h : Tracks body s) (recv : Local) : Tracks body (markStale body recv s) := by
  have hrealloc : Tracks body (s.onMaySets [.reallocedParams]
      (· ∪ (bufferOwners recv s).filter fun o => isParam body o)) := by
    refine { h with realloced := fun o ho => ?_ }
    have ho : o ∈ s.maySets .reallocedParams ∪
        (bufferOwners recv s).filter fun o => isParam body o := ho
    rcases Finset.mem_union.mp ho with ho | ho
    · exact h.realloced o ho
    · exact (Finset.mem_filter.mp ho).2
  refine hrealloc.detachStale fun p hp => ?_
  obtain ⟨owners, ho⟩ := Option.ne_none_iff_exists'.mp
    ((FMap.mem_keys _ p).mp (Finset.mem_filter.mp hp).1)
  exact (h.ownerAlias p owners ho).1

theorem enterCall (h : Tracks body s) (tcx : TyCtxt) (summaries : SummaryMap)
    (callee : Option DefId) (args : List Operand) :
    Tracks body (enterCall tcx body summaries callee args dst s) := by
  unfold San.enterCall
  dsimp only
  refine Tracks.frame ?_ (killCapacityArgs_writes _ body args) (by decide)
  refine (Tracks.invalidateOwners (Tracks.invalidateOwners ?_ _) _).clearOwners
  unfold reallocate
  split
  · exact h.markStale _
  · exact h

theorem escapeRawPtrArgs (h : Tracks body s) (args : List Operand) :
    Tracks body (escapeRawPtrArgs body args s) := by
  unfold San.escapeRawPtrArgs
  induction args generalizing s with
  | nil => exact h
  | cons arg args ih =>
      refine ih ?_
      unfold escapeRawPtrArg
      split
      · exact h
      · split
        · exact h.escapeLocal
        · exact h

theorem reconstituteArg (h : Tracks body s) (src : Option Local) :
    Tracks body (reconstituteArg src s) := by
  cases src with
  | none => exact h
  | some src => exact h.reconstitute

theorem inheritOwners (h : Tracks body s) (hdst : body.Declares dst) (src : Option Local) :
    Tracks body (inheritOwners src dst s) := by
  have hclear : Tracks body (s.setOwners dst none) := h.clearOwners
  cases src with
  | none => exact hclear
  | some src =>
      exact hclear.setOwners fun owners ho => ⟨hdst, (hclear.ownerAlias src owners ho).2⟩

theorem passObjects (h : Tracks body s) (args : List Operand) :
    Tracks body (passObjects args dst s) := by
  refine h.setObjects fun objs ho => ?_
  obtain ⟨src, _, hsrc⟩ := Option.bind_eq_some_iff.mp (nonempty_eq_some.mp ho).1
  exact h.pointsTo src objs hsrc

theorem forgetArg (h : Tracks body s) (tcx : TyCtxt) : Tracks body (forgetArg tcx body src s) := by
  unfold San.forgetArg
  dsimp only
  refine (Tracks.releaseProtos ?_ .forgotten).frame (clearContents_writes _ src) (by decide)
  exact { h.escapeForever (l := src) with }

theorem callSummarised (h : Tracks body s) (hdst : body.Declares dst) (path : String)
    (summary : FnSummary) (args : List Operand) (bb : body.BasicBlock) :
    Tracks body (callSummarised body path summary args dst bb.val s) := by
  have happly := h.applyFnSummary args hdst bb summary
  unfold San.callSummarised
  dsimp only
  refine Tracks.frame ?_ (clearScalarFacts_writes _ dst) (by decide)
  split
  · split
    · exact happly.inheritObjects
    · exact happly
  · exact happly

theorem inheritProvenance (h : Tracks body s) (hdst : body.Declares dst) (args : List Operand) :
    Tracks body (inheritProvenance args dst s) := by
  unfold San.inheritProvenance
  split
  · exact h
  · rename_i arg0 _
    refine inheritObjects ?_
    split
    · rename_i owners ho
      refine h.setOwners ?_
      rintro _ ⟨⟩
      exact ⟨hdst, (h.ownerAlias arg0 owners (nonempty_eq_some.mp ho).1).2⟩
    · exact h

theorem callUnknown (h : Tracks body s) (hdst : body.Declares dst) (path : String)
    (args : List Operand) : Tracks body (callUnknown body path args dst s) := by
  unfold San.callUnknown
  dsimp only
  refine Tracks.frame (Tracks.dropProto ?_) (clearScalarFacts_writes _ dst) (by decide)
  split_ifs
  · exact h.inheritProvenance hdst args
  · exact h.frame (markOwnersWritten_writes s _) (by decide)
  · exact h.frame (markOwnersWritten_writes s _) (by decide)
  · exact h
  · exact h.escapeRawPtrArgs args

/-- **Every recognised call keeps the tracked data well formed.** -/
theorem applyCallKind (h : Tracks body s) (hdst : body.Declares dst) (tcx : TyCtxt)
    (path : String) (kind : CallKind) (args : List Operand) (bb : body.BasicBlock) :
    Tracks body (applyCallKind tcx body path kind args dst bb.val s) := by
  -- a value-only step before `passObjects`, and the two tails that end most branches
  have hpass : ∀ {s' : BlockState}, Writes Field.contents s s' →
      Tracks body ((San.passObjects args dst s').dropProto dst) :=
    fun hw => ((h.frame hw (by decide)).passObjects args).dropProto
  have htail : ∀ {s' : BlockState}, Tracks body s' → Tracks body (s'.clearScalarFacts dst) :=
    fun h' => h'.frame (clearScalarFacts_writes _ dst) (by decide)
  cases kind with
  | rawRealloc => exact htail ((h.reconstituteArg _).mintRawOwned bb)
  | intoRaw => exact htail (h.mintRawOwned bb)
  | fromRaw =>
      exact htail (((h.reconstituteArg _).clearObjects.dropProto).inheritOwners hdst _)
  | memForget =>
      unfold San.applyCallKind callMemForget
      dsimp only
      refine Tracks.clearTracking ?_
      split
      · exact h.forgetArg tcx
      · exact h
  | guardAcquire => exact htail (h.acquireProto bb.val)
  | assumeInit =>
      refine htail (hpass ?_)
      split
      · exact (s.clearInit_writes _).mono (by decide)
      · exact .refl _ s
  | maybeUninitInit =>
      exact (htail (hpass (.refl _ s))).frame (BlockState.insertInit_writes _ dst) (by decide)
  | maybeUninitWrite =>
      exact htail (h.frame (initReceiver_writes s args) (by decide)).dropProto
  | maybeUninitAsMutPtr =>
      exact htail (h.frame (pointIntoReceiver_writes s args dst) (by decide)).dropProto
  | bufWrite =>
      refine Tracks.clearTracking ?_
      split
      · exact h.frame (s.insertMust_writes .bufWritten _) (by decide)
      · exact h
  | ptrRead => exact htail (hpass (.refl _ s))
  | summarised summary => exact h.callSummarised hdst path summary args bb
  | unknown => exact h.callUnknown hdst path args

theorem applyResolvedCall (h : Tracks body s) (hdst : body.Declares dst) (tcx : TyCtxt)
    (summaries : SummaryMap) (did : DefId) (args : List Operand) (bb : body.BasicBlock) :
    Tracks body (applyResolvedCall tcx body summaries did args dst bb.val s) := by
  have hrecord : Tracks body (recordCallFacts (tcx.defPathStr did) args dst
      (s.clearRedefined dst)) := h.clearRedefined.frame (recordCallFacts_writes _ _ args dst) (by decide)
  exact (hrecord.applyCallKind hdst tcx _ _ args bb).frame (leaveCall_writes _ tcx body _ args dst)
    (by decide)

theorem applyCall (h : Tracks body s) (tcx : TyCtxt) (summaries : SummaryMap)
    (bb : body.BasicBlock) (func : Operand) (args : List Operand) {destination : Place}
    (hdest : body.Declares destination.base) :
    Tracks body (applyCall tcx body summaries bb.val func args destination s) := by
  unfold San.applyCall
  dsimp only
  split
  · exact (h.enterCall tcx summaries _ args).escapeRawPtrArgs args
  · split
    · exact (h.enterCall tcx summaries _ args).applyResolvedCall hdest tcx summaries _ args bb
    · exact (h.enterCall tcx summaries _ args).escapeRawPtrArgs args

theorem applyDrop (h : Tracks body s) (place : Place) : Tracks body (applyDrop place s) := by
  unfold San.applyDrop
  dsimp only
  split
  · exact (h.releaseProtos .consumed).clearObjects.frame (clearContents_writes _ _) (by decide)
  · exact h

/-- **A terminator keeps the tracked data well formed.** -/
theorem applyTerminator (h : Tracks body s) (tcx : TyCtxt) (summaries : SummaryMap)
    (bb : body.BasicBlock) {term : Terminator body.numBlocks}
    (hterm : ∀ l ∈ term.locals, body.Declares l) :
    Tracks body (applyTerminator tcx body summaries bb.val term s) := by
  unfold San.applyTerminator
  split
  · rename_i func args destination _ _ hkind
    refine h.applyCall tcx summaries bb func args (hterm _ ?_)
    simp [Terminator.locals, hkind, Place.locals]
  · exact h.frame (assertCondition_values s _ _) (by decide)
  · exact h.applyDrop _
  · exact h

/-! ## Merging and starting -/

/-- A property of set values that unions preserve survives a merge of set-valued maps. -/
theorem all_sets {K V : Type} [DecidableEq K] [DecidableEq V] {p : K → Finset V → Prop}
    {a b : FMap K (Finset V)} (ha : a.All p) (hb : b.All p)
    (hunion : ∀ k u v, p k u → p k v → p k (u ∪ v)) : (Disciplines.sets.join a b).All p := by
  intro k v hv
  rw [Discipline.get_growing] at hv
  cases hka : a.get k with
  | none => rw [hka] at hv; exact hb k v (by simpa [Discipline.Accumulate.combineOpt] using hv)
  | some u =>
      cases hkb : b.get k with
      | none =>
          rw [hka, hkb] at hv
          obtain rfl : u = v := by simpa [Discipline.Accumulate.combineOpt] using hv
          exact ha k u hka
      | some w =>
          rw [hka, hkb] at hv
          obtain rfl : u ∪ w = v := by
            simpa [Discipline.Accumulate.combineOpt, Discipline.collect] using hv
          exact hunion k u w (ha k u hka) (hb k w hkb)

/-- A merge of per-key lattices binds what either side binds. -/
theorem combine_get_ne_none {K V : Type} [DecidableEq K] [DecidableEq V] {f : V → V → V}
    {a b : FMap K V} {k : K} :
    ((Discipline.growing (Discipline.combineBy f)).join a b).get k ≠ none ↔
      a.get k ≠ none ∨ b.get k ≠ none := by
  rw [Discipline.get_growing]
  cases a.get k <;> cases b.get k <;> simp [Discipline.Accumulate.combineOpt]

theorem boundIn_union {heap : FMap ObjectId HeapState} {u v : Finset ObjectId}
    (hu : BoundIn heap u) (hv : BoundIn heap v) : BoundIn heap (u ∪ v) :=
  ⟨fun he => hu.1 (Finset.union_eq_empty.mp he).1, fun o ho =>
    (Finset.mem_union.mp ho).elim (hu.2 o) (hv.2 o)⟩

/-- **Merging two well-formed states gives a well-formed state.** -/
theorem joined (ha : Tracks body s) (hb : Tracks body t) : Tracks body (s.joined t) := by
  have hleft : ∀ o, s.heap.get o ≠ none → (s.joined t).heap.get o ≠ none :=
    fun o ho => combine_get_ne_none.mpr (Or.inl ho)
  have hright : ∀ o, t.heap.get o ≠ none → (s.joined t).heap.get o ≠ none :=
    fun o ho => combine_get_ne_none.mpr (Or.inr ho)
  constructor
  · exact all_sets (ha.pointsTo.mono fun _ _ h => h.mono hleft)
      (hb.pointsTo.mono fun _ _ h => h.mono hright) fun _ _ _ => boundIn_union
  · exact all_sets (ha.fieldOwned.mono fun _ _ h => h.mono hleft)
      (hb.fieldOwned.mono fun _ _ h => h.mono hright) fun _ _ _ => boundIn_union
  · refine all_sets
      (ha.localProto.mono fun _ _ h =>
        ⟨h.1, fun p hp => combine_get_ne_none.mpr (Or.inl (h.2 p hp))⟩)
      (hb.localProto.mono fun _ _ h =>
        ⟨h.1, fun p hp => combine_get_ne_none.mpr (Or.inr (h.2 p hp))⟩) ?_
    intro _ u v hu hv
    exact ⟨fun he => hu.1 (Finset.union_eq_empty.mp he).1, fun p hp =>
      (Finset.mem_union.mp hp).elim (hu.2 p) (hv.2 p)⟩
  · refine all_sets ha.ownerAlias hb.ownerAlias fun _ u v hu hv => ⟨hu.1, ?_, fun o ho => ?_⟩
    · exact fun he => hu.2.1 (Finset.union_eq_empty.mp he).1
    · exact (Finset.mem_union.mp ho).elim (hu.2.2 o) (hv.2.2 o)
  · intro o ho
    exact (Finset.mem_union.mp ho).elim (ha.realloced o) (hb.realloced o)
  · intro o ho
    exact (combine_get_ne_none.mp ho).elim (ha.heapKeys o) (hb.heapKeys o)
  · intro k hk p hp
    exact ha.pairs k hk p (Finset.mem_inter.mp hp).1

theorem default : Tracks body BlockState.default := by
  constructor <;> try exact FMap.All.empty
  · exact fun o ho => absurd ho (Finset.notMem_empty o)
  · exact fun o ho => absurd rfl ho
  · exact fun k _ p hp => absurd hp (Finset.notMem_empty p)

theorem seedParam (h : Tracks body s) {i : Nat} (hi : i < body.argCount) :
    Tracks body (seedParam body s i) := by
  unfold San.seedParam
  split
  · rename_i hraw
    have hheap := h.insertHeap (v := .rawOwned) (Or.inr (Or.inr ⟨i, hi, hraw, rfl⟩))
    exact
      { hheap with
        pointsTo := hheap.pointsTo.insert
          ⟨Finset.singleton_ne_empty _, fun o ho => by
            rw [Finset.mem_singleton.mp ho]
            exact FMap.get_insert_ne_none (Or.inl rfl)⟩ }
  · exact h

theorem summaryInitialState : Tracks body (summaryInitialState body) := by
  have hfold : ∀ is : List Nat, (∀ i ∈ is, i < body.argCount) → ∀ s, Tracks body s →
      Tracks body (is.foldl (San.seedParam body) s) := by
    intro is
    induction is with
    | nil => exact fun _ s h => h
    | cons i is ih =>
        intro his s h
        exact ih (fun j hj => his j (List.mem_cons_of_mem i hj)) _
          (h.seedParam (his i List.mem_cons_self))
  exact hfold _ (fun i hi => List.mem_range.mp hi) _ default

end Tracks

end San
