import San.WellFormed

/-! # Reachable states

`ReachableState` collects every state that the analysis of one body can produce:
from the default state or the initial state of a summary analysis, by statements,
terminators, edges and merges in any order.  Two questions about these states are
settled here.  They are well formed (`wellFormed_of_reachable`), which the checkers
and the summary extraction rely on.  And merging them is associative and idempotent
but depends on the order of the predecessors, exactly when the two states disagree
about a conditional fact (`joinWith_semilattice_iff`).
-/
namespace San

/-- The states reachable on `body` under the summaries given. -/
inductive ReachableState (tcx : TyCtxt) (body : Body) (summaries : SummaryMap) : BlockState → Prop
  | default : ReachableState tcx body summaries BlockState.default
  | summaryInitial : ReachableState tcx body summaries (summaryInitialState body)
  | statement {s : BlockState} {stmt : Statement} (hs : ReachableState tcx body summaries s)
      (hstmt : ∀ l ∈ stmt.locals, body.Declares l) :
      ReachableState tcx body summaries (applyStatement tcx body stmt s)
  | terminator {s : BlockState} {term : Terminator body.numBlocks} (bb : body.BasicBlock)
      (hs : ReachableState tcx body summaries s) (hterm : ∀ l ∈ term.locals, body.Declares l) :
      ReachableState tcx body summaries (applyTerminator tcx body summaries bb.val term s)
  | edge {s : BlockState} (term : Terminator body.numBlocks) (succ : body.BasicBlock)
      (hs : ReachableState tcx body summaries s) :
      ReachableState tcx body summaries (refineSwitchintEdge term succ s)
  | join {s t : BlockState} (hs : ReachableState tcx body summaries s)
      (ht : ReachableState tcx body summaries t) :
      ReachableState tcx body summaries (s.joinWith t).1

theorem ReachableState.tracks {tcx : TyCtxt} {body : Body} {summaries : SummaryMap}
    {s : BlockState} (h : ReachableState tcx body summaries s) : Tracks body s := by
  induction h with
  | default => exact Tracks.default
  | summaryInitial => exact Tracks.summaryInitialState
  | statement _ hstmt ih => exact ih.applyStatement tcx hstmt
  | terminator bb _ hterm ih => exact ih.applyTerminator tcx summaries bb hterm
  | edge term succ _ ih => exact ih.refineSwitchintEdge term succ
  | join _ _ ihs iht => exact ihs.joined iht

/-! ## Object ids -/

/-- The object of a call site: the index of its block. -/
def OfBlock (body : Body) (o : ObjectId) : Prop := ∃ bb : body.BasicBlock, o.id.val = bb.val

/-- The object of a stale handle: `REALLOC_BASE` plus its index. -/
def OfStale (body : Body) (o : ObjectId) : Prop :=
  ∃ l < body.localDecls.length, o.id.val = reallocBase.val + l

/-- The object of a parameter: `SUMMARY_BASE` plus its index. -/
def OfParam (body : Body) (o : ObjectId) : Prop :=
  ∃ i < body.argCount, o.id.val = summaryBase.val + i

section Ranges
variable {body : Body} {o : ObjectId}

/-- In a body of realistic size no object id wraps around. -/
theorem ObjectRange.cases (hblocks : body.numBlocks < 2 ^ 30)
    (hlocals : body.localDecls.length < 2 ^ 30) (h : ObjectRange body o) :
    OfBlock body o ∨ OfStale body o ∨ OfParam body o := by
  rcases h with ⟨bb, rfl⟩ | ⟨l, hl, rfl⟩ | ⟨i, hi, -, rfl⟩
  · have hbb : bb.val < 2 ^ 32 := by omega
    exact Or.inl ⟨bb, Nat.mod_eq_of_lt hbb⟩
  · have hlt : reallocBase.val + l.index.val < 2 ^ 32 := by
      have hl : l.index.val < body.localDecls.length := hl
      have hbase : reallocBase.val = 2 ^ 30 := by decide
      omega
    exact Or.inr (Or.inl ⟨l.index.val, hl, Nat.mod_eq_of_lt hlt⟩)
  · have hargs := body.args_declared
    have hlt : summaryBase.val + i < 2 ^ 32 := by
      have hbase : summaryBase.val = 2 ^ 31 := by decide
      omega
    have hi32 : i % 2 ^ 32 = i := Nat.mod_eq_of_lt (by omega)
    refine Or.inr (Or.inr ⟨i, hi, ?_⟩)
    show (summaryBase.val + i % 2 ^ 32) % 2 ^ 32 = summaryBase.val + i
    rw [hi32, Nat.mod_eq_of_lt hlt]

/-- **The three ranges of object ids are disjoint.** -/
theorem object_ranges_disjoint (hblocks : body.numBlocks < 2 ^ 30)
    (hlocals : body.localDecls.length < 2 ^ 30) (o : ObjectId) :
    ¬ (OfBlock body o ∧ OfStale body o) ∧ ¬ (OfBlock body o ∧ OfParam body o) ∧
      ¬ (OfStale body o ∧ OfParam body o) := by
  have hrealloc : reallocBase.val = 2 ^ 30 := by decide
  have hsummary : summaryBase.val = 2 ^ 31 := by decide
  refine ⟨?_, ?_, ?_⟩
  · rintro ⟨⟨bb, hbb⟩, l, _, hl⟩
    omega
  · rintro ⟨⟨bb, hbb⟩, i, _, hi⟩
    omega
  · rintro ⟨⟨l, hlt, hl⟩, i, _, hi⟩
    omega

end Ranges

/-! ## Well-formedness -/

/-- What the checkers and the summary extraction assume of a state. -/
structure BlockState.WellFormed (body : Body) (s : BlockState) : Prop where
  noEmptySets : s.NoEmptySets
  pointsTo_bound : ∀ l objs, s.pointsTo.get l = some objs → ∀ o ∈ objs, s.heap.get o ≠ none
  fieldOwned_bound : ∀ key objs, s.fieldOwned.get key = some objs →
    ∀ o ∈ objs, s.heap.get o ≠ none
  localProto_bound : ∀ l protos, s.localProto.get l = some protos →
    ∀ p ∈ protos, s.typestate.get p ≠ none
  owners_params : ∀ l owners, s.ownerAlias.get l = some owners →
    ∀ o ∈ owners, 1 ≤ o.index.val ∧ o.index.val ≤ body.argCount
  realloced_params : ∀ o ∈ s.maySets .reallocedParams,
    1 ≤ o.index.val ∧ o.index.val ≤ body.argCount
  keysAreNe_ordered : ∀ p ∈ s.mustPairs .keysAreNe, p.1.index ≤ p.2.index
  eqLocals_ordered : ∀ p ∈ s.mustPairs .eqLocals, p.1.index ≤ p.2.index
  heap_keys : ∀ o, s.heap.get o ≠ none → OfBlock body o ∨ OfStale body o ∨ OfParam body o

theorem isParam_iff {body : Body} {l : Local} :
    isParam body l = true ↔ 1 ≤ l.index.val ∧ l.index.val ≤ body.argCount := by
  simp [isParam]

theorem Tracks.wellFormed {body : Body} {s : BlockState} (h : Tracks body s)
    (hblocks : body.numBlocks < 2 ^ 30) (hlocals : body.localDecls.length < 2 ^ 30) :
    s.WellFormed body where
  noEmptySets :=
    ⟨fun l objs ho => (h.pointsTo l objs ho).1, fun l protos hp => (h.localProto l protos hp).1,
      fun l owners ho => (h.ownerAlias l owners ho).2.1,
      fun key objs ho => (h.fieldOwned key objs ho).1⟩
  pointsTo_bound l objs ho := (h.pointsTo l objs ho).2
  fieldOwned_bound key objs ho := (h.fieldOwned key objs ho).2
  localProto_bound l protos hp := (h.localProto l protos hp).2
  owners_params l owners ho o hm := isParam_iff.mp ((h.ownerAlias l owners ho).2.2 o hm)
  realloced_params o ho := isParam_iff.mp (h.realloced o ho)
  keysAreNe_ordered := h.pairs .keysAreNe (by decide)
  eqLocals_ordered := h.pairs .eqLocals (by decide)
  heap_keys o ho := (h.heapKeys o ho).cases hblocks hlocals

/-- **Every reachable state is well formed**, and the object ids of call sites, stale
handles and parameters never coincide. -/
theorem wellFormed_of_reachable {tcx : TyCtxt} {body : Body} {summaries : SummaryMap}
    {s : BlockState} (hblocks : body.numBlocks < 2 ^ 30)
    (hlocals : body.localDecls.length < 2 ^ 30) (h : ReachableState tcx body summaries s) :
    s.WellFormed body ∧
      ∀ o, ¬ (OfBlock body o ∧ OfStale body o) ∧ ¬ (OfBlock body o ∧ OfParam body o) ∧
        ¬ (OfStale body o ∧ OfParam body o) :=
  ⟨h.tracks.wellFormed hblocks hlocals, object_ranges_disjoint hblocks hlocals⟩

/-- `_2 = Box::into_raw(..)`. -/
def intoRawCall : Terminator 2 := ⟨.callTo 0 [] 2 (Fin.last 1), .none⟩

/-- `fn f(_1: *mut T)`, which calls `Box::into_raw` in its first block. -/
def intoRawBody : Body :=
  .ofBlocks 1 1 [.other, .rawPtr .other .mut, .rawPtr .other .mut] 1
    (fun _ => [⟨[], some intoRawCall⟩, .of [] .return]) (by decide)

/-- The state that holds the parameter's object and the object of the call. -/
theorem wellFormed_of_reachable_intoRaw :
    let tcx := TyCtxt.ofPaths ["alloc::boxed::Box::<T>::into_raw", "f"]
    let called := applyTerminator tcx intoRawBody ∅ 0 intoRawCall BlockState.default
    let s := ((summaryInitialState intoRawBody).joinWith called).1
    s.heap.get (BlockState.callSiteObject 0) = some .rawOwned ∧
      s.heap.get (paramObject 0) = some .rawOwned ∧ s.WellFormed intoRawBody := by
  intro tcx called s
  have hcalled : ReachableState tcx intoRawBody ∅ called :=
    .terminator intoRawBody.entryBlock .default (by decide)
  have hs : ReachableState tcx intoRawBody ∅ s := .join .summaryInitial hcalled
  exact ⟨by decide +kernel, by decide +kernel,
    (wellFormed_of_reachable (by decide) (by decide) hs).1⟩

/-! ## The order of predecessors -/

/-- **What merging predecessors in another order can change.**  The join is associative
and idempotent; it is symmetric in two states exactly when no `UNION` fact map binds
the same local differently in them. -/
theorem joinWith_semilattice_iff (a b c : BlockState) :
    ((a.joinWith b).1.joinWith c).1 = (a.joinWith (b.joinWith c).1).1 ∧
      (a.joinWith a).1 = a ∧
      ((a.joinWith b).1 = (b.joinWith a).1 ↔ a.ConflictFree b) :=
  ⟨BlockState.discipline_lawful.assoc a b c, BlockState.discipline_lawful.self a,
    ⟨BlockState.conflictFree_of_joined_comm, BlockState.joined_comm_of_conflictFree⟩⟩

/-- One branch sets `_4 = _1 < _2`, the other `_4 = _2 < _1`. -/
def compareBothWays : Body :=
  .ofBlocks 0 3 [.other, .uint .usize, .uint .usize, .bool, .bool] 3
    (fun bb =>
      [.of [] (.switchInt (.ofNat 3) ⟨[(0, bb 1)], bb 2⟩),
        .of [.set 4 (.binaryOp .lt (.ofNat 1) (.ofNat 2))] (.goto (bb 3)),
        .of [.set 4 (.binaryOp .lt (.ofNat 2) (.ofNat 1))] (.goto (bb 3)),
        .of [] .return])
    (by decide)

/-- Which operand `_4` is recorded to bound depends on the branch merged first. -/
theorem joinWith_order_matters :
    let left := applyStatement (.ofPaths []) compareBothWays
      (.set 4 (.binaryOp .lt (.ofNat 1) (.ofNat 2))) BlockState.default
    let right := applyStatement (.ofPaths []) compareBothWays
      (.set 4 (.binaryOp .lt (.ofNat 2) (.ofNat 1))) BlockState.default
    (ReachableState (.ofPaths []) compareBothWays ∅ left ∧ left.WellFormed compareBothWays) ∧
      (ReachableState (.ofPaths []) compareBothWays ∅ right ∧ right.WellFormed compareBothWays) ∧
      (left.joinWith right).1 ≠ (right.joinWith left).1 := by
  intro left right
  have hleft : ReachableState (.ofPaths []) compareBothWays ∅ left :=
    .statement .default (by decide)
  have hright : ReachableState (.ofPaths []) compareBothWays ∅ right :=
    .statement .default (by decide)
  refine ⟨⟨hleft, hleft.tracks.wellFormed (by decide) (by decide)⟩,
    ⟨hright, hright.tracks.wellFormed (by decide) (by decide)⟩, fun he => ?_⟩
  have hfact : ((left.joinWith right).1.facts .ltFacts).get (Local.ofNat 4) =
      ((right.joinWith left).1.facts .ltFacts).get (Local.ofNat 4) := by rw [he]
  revert hfact
  decide +kernel

end San
