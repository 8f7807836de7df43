import San.MustFacts
import San.InitFacts

/-! # Taints and agreements along paths

Six domains depend on nothing but themselves: the pointers cast away from `const`, the
descriptors taken and given up, the spawned threads, the active fields of unions and the
targets of function pointers.  Each transfer function is monotone in them, so the merged
state of a block compares with the state of every path to it: what may hold on the path
may hold in the merged state, and what must hold in the merged state holds on the path
(`taints_on_paths`).  No condition on the merges is needed.

The callee of a call through a pointer is looked up in one of these domains, and a path
may know it where the merged state does not.  The result is for bodies whose calls all
name a function item.
-/
namespace San

/-- `t` has fewer taints than `s` and proves at least as much. -/
structure TaintSim (s t : BlockState) : Prop where
  constPtrCast : t.maySets .constPtrCast ⊆ s.maySets .constPtrCast
  fdConsumed : t.maySets .fdConsumed ⊆ s.maySets .fdConsumed
  threadSpawned : t.threadSpawned = true → s.threadSpawned = true
  fdOrigin : s.mustSets .fdOrigin ⊆ t.mustSets .fdOrigin
  activeVariant : FMap.Within (· = ·) s.activeVariant t.activeVariant
  fnPtrTargets : FMap.Within (· = ·) s.fnPtrTargets t.fnPtrTargets

namespace TaintSim
variable {s t s' t' : BlockState}

theorem refl (s : BlockState) : TaintSim s s where
  constPtrCast := Finset.Subset.refl _
  fdConsumed := Finset.Subset.refl _
  threadSpawned h := h
  fdOrigin := Finset.Subset.refl _
  activeVariant := .refl (fun _ => rfl) _
  fnPtrTargets := .refl (fun _ => rfl) _

/-- The fields the relation is about. -/
def fields : List Field := .mustSet .fdOrigin :: .fnPtrTargets :: Field.taints

/-- Stages that write none of these fields keep the relation. -/
theorem frame {F : List Field} (h : TaintSim s t) (hs : Writes F s s') (ht : Writes F t t')
    (hF : ∀ f ∈ fields, f ∉ F) : TaintSim s' t' := by
  have hcast := hF (.maySet .constPtrCast) (by decide)
  have hfd := hF (.maySet .fdConsumed) (by decide)
  have hspawn := hF .threadSpawned (by decide)
  have horigin := hF (.mustSet .fdOrigin) (by decide)
  have hvariant := hF .activeVariant (by decide)
  have hfn := hF .fnPtrTargets (by decide)
  refine ⟨?_, ?_, ?_, ?_, ?_, ?_⟩
  · rw [show s'.maySets _ = _ from hs _ hcast, show t'.maySets _ = _ from ht _ hcast]
    exact h.constPtrCast
  · rw [show s'.maySets _ = _ from hs _ hfd, show t'.maySets _ = _ from ht _ hfd]
    exact h.fdConsumed
  · rw [show s'.threadSpawned = _ from hs _ hspawn, show t'.threadSpawned = _ from ht _ hspawn]
    exact h.threadSpawned
  · rw [show s'.mustSets _ = _ from hs _ horigin, show t'.mustSets _ = _ from ht _ horigin]
    exact h.fdOrigin
  · rw [show s'.activeVariant = _ from hs _ hvariant, show t'.activeVariant = _ from ht _ hvariant]
    exact h.activeVariant
  · rw [show s'.fnPtrTargets = _ from hs _ hfn, show t'.fnPtrTargets = _ from ht _ hfn]
    exact h.fnPtrTargets

/-! ## Updates -/

theorem onMaySets (h : TaintSim s t) (ks : List MaySet) {f : Finset Local → Finset Local}
    (hf : Monotone f) : TaintSim (s.onMaySets ks f) (t.onMaySets ks f) := by
  have hset : ∀ k, t.maySets k ⊆ s.maySets k →
      (t.onMaySets ks f).maySets k ⊆ (s.onMaySets ks f).maySets k := by
    intro k hk
    dsimp only [BlockState.onMaySets]
    split
    · exact hf hk
    · exact hk
  exact { h with
    constPtrCast := hset .constPtrCast h.constPtrCast
    fdConsumed := hset .fdConsumed h.fdConsumed }

theorem onMustSets (h : TaintSim s t) (ks : List MustSet) {f : Finset Local → Finset Local}
    (hf : Monotone f) : TaintSim (s.onMustSets ks f) (t.onMustSets ks f) := by
  refine { h with fdOrigin := ?_ }
  dsimp only [BlockState.onMustSets]
  split
  · exact hf h.fdOrigin
  · exact h.fdOrigin

theorem eraseMay (h : TaintSim s t) (ks : List MaySet) (l : Local) :
    TaintSim (s.onMaySets ks (·.erase l)) (t.onMaySets ks (·.erase l)) :=
  h.onMaySets ks fun _ _ hmn => Finset.erase_subset_erase l hmn

theorem eraseMust (h : TaintSim s t) (ks : List MustSet) (l : Local) :
    TaintSim (s.onMustSets ks (·.erase l)) (t.onMustSets ks (·.erase l)) :=
  h.onMustSets ks fun _ _ hmn => Finset.erase_subset_erase l hmn

theorem setActiveVariant (h : TaintSim s t) (l : Local) (f : FieldIdx) :
    TaintSim (s.setActiveVariant l f) (t.setActiveVariant l f) :=
  { h with activeVariant := h.activeVariant.insert l rfl }

theorem clearParts (h : TaintSim s t) (l : Local) : TaintSim (s.clearParts l) (t.clearParts l) :=
  { h with activeVariant := h.activeVariant.erase l }

/-! ## Statements -/

theorem clearRedefined (h : TaintSim s t) (l : Local) :
    TaintSim (s.clearRedefined l) (t.clearRedefined l) := by
  have hfacts := h.frame (s.onFacts_writes Fact.derived (·.erase l))
    (t.onFacts_writes Fact.derived (·.erase l)) (by decide)
  have hpairs := hfacts.frame (BlockState.onPairFacts_writes _ PairFact.all (·.erase l))
    (BlockState.onPairFacts_writes _ PairFact.all (·.erase l)) (by decide)
  have hconst := hpairs.frame (BlockState.onConstFacts_writes _ ConstFact.all (·.erase l))
    (BlockState.onConstFacts_writes _ ConstFact.all (·.erase l)) (by decide)
  have hmust := (hconst.eraseMust MustSet.derived l).frame
    (BlockState.onMustPairs_writes _ MustPairs.all (·.filter fun p => p.1 ≠ l ∧ p.2 ≠ l))
    (BlockState.onMustPairs_writes _ MustPairs.all (·.filter fun p => p.1 ≠ l ∧ p.2 ≠ l))
    (by decide)
  exact (hmust.eraseMay [.fdConsumed] l).frame (BlockState.clearBounds_writes _ l)
    (BlockState.clearBounds_writes _ l) (by decide)

theorem clearAssigned (h : TaintSim s t) (l : Local) :
    TaintSim (s.clearAssigned l) (t.clearAssigned l) := by
  have hmay := h.eraseMay [.constPtrCast, .mulOverflow, .layoutOverflow] l
  have hparts := hmay.clearParts l
  exact hparts.frame (BlockState.clearFieldOwnedFor_writes _ l)
    (BlockState.clearFieldOwnedFor_writes _ l) (by decide)

theorem updateFnPtrTarget (h : TaintSim s t) (dst : Local) (rvalue : Rvalue) :
    TaintSim (updateFnPtrTarget dst rvalue s) (updateFnPtrTarget dst rvalue t) := by
  refine { h with fnPtrTargets := h.fnPtrTargets.put dst fun v hv => ?_ }
  unfold rvalueFnTarget at hv ⊢
  split at hv
  · exact ⟨v, hv, rfl⟩
  · obtain ⟨l, hl, hget⟩ := Option.bind_eq_some_iff.mp hv
    obtain ⟨w, hw, hwv⟩ := h.fnPtrTargets l v hget
    exact ⟨w, Option.bind_eq_some_iff.mpr ⟨l, hl, hw⟩, hwv⟩

theorem propagateUse (h : TaintSim s t) (src dst : Local) (isMove : Bool) :
    TaintSim (propagateUse src dst isMove s) (propagateUse src dst isMove t) := by
  have hsets := (h.onMustSets MustSet.derived (propagateSet_mono src dst isMove)).onMaySets
    [.fdConsumed, .mulOverflow, .layoutOverflow] (propagateSet_mono src dst isMove)
  have hfacts := hsets.frame
    (BlockState.onFacts_writes _ [.castOrigin] (propagateMap src dst isMove))
    (BlockState.onFacts_writes _ [.castOrigin] (propagateMap src dst isMove)) (by decide)
  exact { hfacts with activeVariant := within_transferMap hfacts.activeVariant src dst isMove }

theorem propagateRvalue (h : TaintSim s t) (dst : Local) (rvalue : Rvalue) :
    TaintSim (propagateRvalue dst rvalue s) (propagateRvalue dst rvalue t) := by
  unfold San.propagateRvalue
  split
  · split
    · exact h.propagateUse _ dst true
    · exact h
  · split
    · exact h.propagateUse _ dst false
    · exact h
  · exact h

/-- What ends a move and a copy. -/
theorem carryScalars (h : TaintSim s t) (f : FMap Local Local → FMap Local Local)
    {g : Finset Local → Finset Local} (hg : Monotone g) :
    TaintSim
      (((s.onFacts Fact.comparisons f).onMustSets MustSet.scalar g).onMaySets [.constPtrCast] g)
      (((t.onFacts Fact.comparisons f).onMustSets MustSet.scalar g).onMaySets [.constPtrCast] g) :=
  ((h.frame (s.onFacts_writes Fact.comparisons f) (t.onFacts_writes Fact.comparisons f)
    (by decide)).onMustSets MustSet.scalar hg).onMaySets [.constPtrCast] hg

theorem assignMove (h : TaintSim s t) (src dst : Local) :
    TaintSim (assignMove src dst s) (assignMove src dst t) :=
  (h.frame (moveTracked_writes s src dst) (moveTracked_writes t src dst) (by decide)).carryScalars
    (·.moveKey src dst) (moveSet_mono src dst)

theorem assignCopy (h : TaintSim s t) (src dst : Local) :
    TaintSim (assignCopy src dst s) (assignCopy src dst t) :=
  (h.frame (copyTracked_writes s src dst) (copyTracked_writes t src dst) (by decide)).carryScalars
    (·.copyKey src dst) (copySet_mono src dst)

/-- Resetting a local to the objects `o` or `o'` writes no taint. -/
theorem resetTo (h : TaintSim s t) (dst : Local) (o o' : Option (Finset ObjectId)) :
    TaintSim (((s.setObjects dst o).dropProto dst).clearScalarFacts dst)
      (((t.setObjects dst o').dropProto dst).clearScalarFacts dst) := by
  have hobjs := h.frame (s.setObjects_writes dst o) (t.setObjects_writes dst o') (by decide)
  exact (hobjs.frame (BlockState.dropProto_writes _ dst) (BlockState.dropProto_writes _ dst)
    (by decide)).frame (clearScalarFacts_writes _ dst) (clearScalarFacts_writes _ dst) (by decide)

theorem assignPtrCast (h : TaintSim s t) (body : Body) (src dst : Local) (ty : Ty) :
    TaintSim (assignPtrCast body src dst ty s) (assignPtrCast body src dst ty t) := by
  have hobjs := h.frame (s.setObjects_writes dst (s.pointsTo.get src))
    (t.setObjects_writes dst (t.pointsTo.get src)) (by decide)
  have hmark : ∀ {s t : BlockState}, TaintSim s t → TaintSim
      (if ty.isMutPtr ∧ ((body.localTy src).isConstPtr ∨ src ∈ s.maySets .constPtrCast)
        then s.insertMay .constPtrCast dst else s)
      (if ty.isMutPtr ∧ ((body.localTy src).isConstPtr ∨ src ∈ t.maySets .constPtrCast)
        then t.insertMay .constPtrCast dst else t) := by
    intro s t h
    by_cases ht : ty.isMutPtr ∧ ((body.localTy src).isConstPtr ∨ src ∈ t.maySets .constPtrCast)
    · have hs : ty.isMutPtr ∧ ((body.localTy src).isConstPtr ∨ src ∈ s.maySets .constPtrCast) :=
        ⟨ht.1, ht.2.imp_right fun hsrc => h.constPtrCast hsrc⟩
      rw [if_pos ht, if_pos hs]
      exact h.onMaySets [.constPtrCast] fun _ _ hmn => Finset.insert_subset_insert dst hmn
    · rw [if_neg ht]
      split
      · -- only the merged state takes `src` for a cast-away pointer
        exact { h with constPtrCast := h.constPtrCast.trans (Finset.subset_insert dst _) }
      · exact h
  exact ((hmark hobjs).frame (BlockState.dropProto_writes _ dst) (BlockState.dropProto_writes _ dst)
    (by decide)).frame (clearScalarFacts_writes _ dst) (clearScalarFacts_writes _ dst) (by decide)

theorem assignAggregate (h : TaintSim s t) (tcx : TyCtxt) (kind : AggregateKind)
    (operands : List Operand) (dst : Local) :
    TaintSim (assignAggregate tcx kind operands dst s) (assignAggregate tcx kind operands dst t) := by
  have hreset := h.resetTo dst
    (nonempty (some ((operands.filterMap operandLocal).foldr (fun l objs => s.objectsFor l ∪ objs) ∅)))
    (nonempty (some ((operands.filterMap operandLocal).foldr (fun l objs => t.objectsFor l ∪ objs) ∅)))
  have hcomponents : ∀ cs, TaintSim (setComponents dst cs _) (setComponents dst cs _) := fun cs =>
    hreset.frame (setComponents_writes _ dst cs) (setComponents_writes _ dst cs) (by decide)
  unfold San.assignAggregate
  dsimp only
  split
  · split
    · exact hreset
    · exact hreset.setActiveVariant dst _
  · exact hreset
  · exact hreset
  · split
    · exact hcomponents _
    · exact hreset
  · split
    · exact hcomponents _
    · exact hreset

theorem assignBinaryOp (h : TaintSim s t) (body : Body) (op : BinOp) (op1 op2 : Operand)
    (dst : Local) :
    TaintSim (assignBinaryOp body op op1 op2 dst s) (assignBinaryOp body op op1 op2 dst t) := by
  have hobjs := h.frame (s.setObjects_writes dst (offsetObjects op op1 op2 s))
    (t.setObjects_writes dst (offsetObjects op op1 op2 t)) (by decide)
  have hdrop := hobjs.frame (BlockState.dropProto_writes _ dst) (BlockState.dropProto_writes _ dst)
    (by decide)
  have hinit := hdrop.frame (BlockState.clearInit_writes _ dst) (BlockState.clearInit_writes _ dst)
    (by decide)
  exact (hinit.eraseMust MustSet.scalar dst).frame (recordBinaryOp_writes _ body op op1 op2 dst)
    (recordBinaryOp_writes _ body op op1 op2 dst) (by decide)

theorem assignRvalue (h : TaintSim s t) (tcx : TyCtxt) (body : Body) (dst : Local)
    (rvalue : Rvalue) :
    TaintSim (assignRvalue tcx body dst rvalue s) (assignRvalue tcx body dst rvalue t) := by
  have hunknown := h.frame (assignUnknown_writes s rvalue dst) (assignUnknown_writes t rvalue dst)
    (by decide)
  have hread : ∀ src, TaintSim (assignFieldRead src dst s) (assignFieldRead src dst t) := fun src =>
    (h.resetTo dst _ _).frame (BlockState.onMaySets_writes _ [.mulOverflow] (copySet src.base dst))
      (BlockState.onMaySets_writes _ [.mulOverflow] (copySet src.base dst)) (by decide)
  unfold San.assignRvalue
  split
  · exact (h.frame (constantFacts_writes s _ dst) (constantFacts_writes t _ dst)
      (by decide)).resetTo dst none none
  · split
    · exact h.assignMove _ dst
    · split
      · exact hread _
      · exact hunknown
  · split
    · exact h.assignCopy _ dst
    · split
      · exact hread _
      · exact hunknown
  · exact h.resetTo dst _ _
  · exact h.resetTo dst _ _
  · exact h.resetTo dst _ _
  · exact h.assignAggregate tcx _ _ dst
  · split
    · split
      · exact h.assignPtrCast body _ dst _
      · split
        · exact h.frame (assignNumericCast_writes s _ _ dst _) (assignNumericCast_writes t _ _ dst _)
            (by decide)
        · exact hunknown
    · exact hunknown
  · exact h.assignBinaryOp body _ _ _ dst
  · exact hunknown

/-- **Statements keep the relation.** -/
theorem applyStatement (h : TaintSim s t) (tcx : TyCtxt) (body : Body) (stmt : Statement) :
    TaintSim (applyStatement tcx body stmt s) (applyStatement tcx body stmt t) := by
  unfold San.applyStatement
  cases stmt.kind with
  | other => exact h
  | assign dst rvalue =>
      have hinvalid := h.frame (s.invalidateOwners_writes {dst.base})
        (t.invalidateOwners_writes {dst.base}) (by decide)
      dsimp only
      split
      · have howners := hinvalid.frame (updateOwnerAlias_writes _ body dst.base rvalue)
          (updateOwnerAlias_writes _ body dst.base rvalue) (by decide)
        have hcleared := ((howners.updateFnPtrTarget dst.base rvalue).clearRedefined
          dst.base).clearAssigned dst.base
        have hrefs := hcleared.frame (recordRefBase_writes _ dst.base rvalue)
          (recordRefBase_writes _ dst.base rvalue) (by decide)
        have hlen := (hrefs.propagateRvalue dst.base rvalue).frame
          (recordLenOf_writes _ dst.base rvalue) (recordLenOf_writes _ dst.base rvalue) (by decide)
        exact (hlen.assignRvalue tcx body dst.base rvalue).frame
          (enforceTypeFacts_writes _ tcx dst.base _) (enforceTypeFacts_writes _ tcx dst.base _)
          (by decide)
      · have hstore := hinvalid.frame (storeObjects_writes _ dst rvalue)
          (storeObjects_writes _ dst rvalue) (by decide)
        refine TaintSim.frame ?_ (writeMaybeUninitField_writes _ body dst)
          (writeMaybeUninitField_writes _ body dst) (by decide)
        split
        · exact hstore.setActiveVariant _ _
        · exact hstore

theorem applyStatements (h : TaintSim s t) (tcx : TyCtxt) (body : Body) (stmts : List Statement) :
    TaintSim (applyStatements tcx body stmts s) (applyStatements tcx body stmts t) := by
  induction stmts generalizing s t with
  | nil => exact h
  | cons stmt stmts ih => exact ih (h.applyStatement tcx body stmt)

/-! ## Terminators and edges -/

theorem recordFd (h : TaintSim s t) (path : String) (args : List Operand) (dest : Local) :
    TaintSim (recordFd path args dest s) (recordFd path args dest t) := by
  unfold San.recordFd
  split
  · exact h.onMustSets [.fdOrigin] fun _ _ hmn => Finset.insert_subset_insert dest hmn
  · split
    · split
      · exact h.onMaySets [.fdConsumed] fun _ _ hmn => Finset.insert_subset_insert _ hmn
      · exact h
    · exact h

theorem markSpawned (h : TaintSim s t) (c : Bool) :
    TaintSim (if c then markSpawned s else s) (if c then markSpawned t else t) := by
  cases c with
  | false => exact h
  | true => exact { h with threadSpawned := fun _ => rfl }

theorem recordCallFacts (h : TaintSim s t) (path : String) (args : List Operand) (dest : Local) :
    TaintSim (recordCallFacts path args dest s) (recordCallFacts path args dest t) := by
  have hlen := h.frame (recordLength_writes s path args dest) (recordLength_writes t path args dest)
    (by decide)
  have hfinite := hlen.frame (recordFiniteness_writes _ path args dest)
    (recordFiniteness_writes _ path args dest) (by decide)
  have hderef := hfinite.frame (recordDeref_writes _ path args dest)
    (recordDeref_writes _ path args dest) (by decide)
  have hspawn := (hderef.recordFd path args dest).markSpawned (isThreadSpawn path)
  exact hspawn.frame (recordPartialEq_writes _ path args dest)
    (recordPartialEq_writes _ path args dest) (by decide)

theorem applyResolvedCall (h : TaintSim s t) (tcx : TyCtxt) (body : Body) (summaries : SummaryMap)
    (did : DefId) (args : List Operand) (dest : Local) (bb : Nat) :
    TaintSim (applyResolvedCall tcx body summaries did args dest bb s)
      (applyResolvedCall tcx body summaries did args dest bb t) := by
  have hfacts := (h.clearRedefined dest).recordCallFacts (tcx.defPathStr did) args dest
  have hkind := hfacts.frame
    (applyCallKind_writes _ tcx body (tcx.defPathStr did)
      (classify (tcx.defPathStr did) (summaries.get did)) args dest bb)
    (applyCallKind_writes _ tcx body (tcx.defPathStr did)
      (classify (tcx.defPathStr did) (summaries.get did)) args dest bb) (by decide)
  exact hkind.frame (leaveCall_writes _ tcx body _ args dest)
    (leaveCall_writes _ tcx body _ args dest) (by decide)

/-- The callee of a call that names a function item does not depend on the state. -/
theorem resolveCallee_eq {tcx : TyCtxt} {body : Body} {func : Operand}
    (hfunc : func.constFnDef.isSome) (s t : BlockState) :
    resolveCallee tcx body func s = resolveCallee tcx body func t := by
  obtain ⟨item, hitem⟩ := Option.isSome_iff_exists.mp hfunc
  unfold resolveCallee
  rw [hitem]

theorem applyCall (h : TaintSim s t) (tcx : TyCtxt) (body : Body) (summaries : SummaryMap)
    (bb : Nat) {func : Operand} (hfunc : func.constFnDef.isSome) (args : List Operand)
    (destination : Place) :
    TaintSim (applyCall tcx body summaries bb func args destination s)
      (applyCall tcx body summaries bb func args destination t) := by
  unfold San.applyCall
  rw [resolveCallee_eq hfunc s t]
  have henter := h.frame
    (enterCall_writes s tcx body summaries (resolveCallee tcx body func t) args destination.base)
    (enterCall_writes t tcx body summaries (resolveCallee tcx body func t) args destination.base)
    (by decide)
  have hescape := henter.frame (escapeRawPtrArgs_writes _ body args)
    (escapeRawPtrArgs_writes _ body args) (by decide)
  dsimp only
  split
  · exact hescape
  · split
    · exact henter.applyResolvedCall tcx body summaries _ args _ bb
    · exact hescape

end TaintSim

/-- Does the terminator call a function item, if it calls anything? -/
def Terminator.callsItem {n : Nat} (term : Terminator n) : Bool :=
  match term.kind with
  | .call func _ _ _ _ => func.constFnDef.isSome
  | _ => true

/-- Every call of the body names a function item. -/
def Body.DirectCalls (body : Body) : Prop :=
  ∀ b : body.BasicBlock, ∀ term ∈ (body.basicBlocks b).terminator, term.callsItem = true

instance (body : Body) : Decidable body.DirectCalls :=
  inferInstanceAs (Decidable (∀ b : body.BasicBlock, ∀ term ∈ (body.basicBlocks b).terminator, _))

namespace TaintSim
variable {s t : BlockState}

theorem applyTerminator (h : TaintSim s t) (tcx : TyCtxt) {body : Body} (summaries : SummaryMap)
    (bb : Nat) {term : Terminator body.numBlocks} (hterm : term.callsItem = true) :
    TaintSim (applyTerminator tcx body summaries bb term s)
      (applyTerminator tcx body summaries bb term t) := by
  unfold Terminator.callsItem at hterm
  unfold San.applyTerminator
  split
  · next func args destination _ _ hkind =>
      rw [hkind] at hterm
      exact h.applyCall tcx body summaries bb hterm args destination
  · exact h.frame (assertCondition_values s _ _) (assertCondition_values t _ _) (by decide)
  · exact h.frame (applyDrop_writes s _) (applyDrop_writes t _) (by decide)
  · exact h

/-- **Edges keep the relation** in bodies whose calls are direct. -/
theorem edgeState (h : TaintSim s t) (tcx : TyCtxt) {body : Body} (hbody : body.DirectCalls)
    (summaries : SummaryMap) (b succ : body.BasicBlock) :
    TaintSim (edgeState tcx body summaries b s succ) (edgeState tcx body summaries b t succ) := by
  have hstmts := h.applyStatements tcx body (body.basicBlocks b).statements
  cases hterm : (body.basicBlocks b).terminator with
  | none =>
      rw [edgeState_of_none hterm, edgeState_of_none hterm]
      exact hstmts
  | some term =>
      rw [edgeState_of_some hterm, edgeState_of_some hterm]
      exact (hstmts.applyTerminator tcx summaries b.val (hbody b term hterm)).frame
        (refineSwitchintEdge_writes _ term succ) (refineSwitchintEdge_writes _ term succ) (by decide)

/-! ## Merges -/

theorem joined_left {a e p : BlockState} (h : TaintSim a p) : TaintSim (a.joined e) p where
  constPtrCast := h.constPtrCast.trans Finset.subset_union_left
  fdConsumed := h.fdConsumed.trans Finset.subset_union_left
  threadSpawned hp := Bool.or_eq_true_iff.mpr (Or.inl (h.threadSpawned hp))
  fdOrigin := Finset.inter_subset_left.trans h.fdOrigin
  activeVariant l v hv := h.activeVariant l v (Discipline.agreeing_source hv).1
  fnPtrTargets l v hv := h.fnPtrTargets l v (Discipline.agreeing_source hv).1

theorem joined_right {a e p : BlockState} (h : TaintSim e p) : TaintSim (a.joined e) p where
  constPtrCast := h.constPtrCast.trans Finset.subset_union_right
  fdConsumed := h.fdConsumed.trans Finset.subset_union_right
  threadSpawned hp := Bool.or_eq_true_iff.mpr (Or.inr (h.threadSpawned hp))
  fdOrigin := Finset.inter_subset_right.trans h.fdOrigin
  activeVariant l v hv := h.activeVariant l v (Discipline.agreeing_source hv).2
  fnPtrTargets l v hv := h.fnPtrTargets l v (Discipline.agreeing_source hv).2

/-- The relation simulates every path of the analysis. -/
theorem simulation (tcx : TyCtxt) {body : Body} (hbody : body.DirectCalls)
    (summaries : SummaryMap) (initial : BlockState) :
    (flowProblem tcx body summaries initial).Simulation (fun _ _ _ => True)
      fun _ => TaintSim where
  init := .refl initial
  flow n _ _ s _ h := h.edgeState tcx hbody summaries n s
  left _ _ _ _ _ h := h.joined_left
  right _ _ _ _ _ h := h.joined_right
  keep _ a e p _ hch h := by
    have hjoined : TaintSim (a.joined e) p := h.joined_right
    exact hjoined.frame (joined_writes a hch).symm (.refl _ p) (by decide)

end TaintSim

/-- **Taints and agreements are correct along paths.**  In a body whose calls are direct, let
`s` be the entry state of a block and `p` the state of a path to it.  What may have been cast
away from `const`, given up as a descriptor or spawned on the path may have been in `s`; what
`s` holds of descriptors taken, of active fields and of function pointers holds on the
path. -/
theorem taints_on_paths (tcx : TyCtxt) (body : Body) (summaries : SummaryMap)
    (initial : BlockState) (hbody : body.DirectCalls) {b : body.BasicBlock} {s p : BlockState}
    (hs : runFixpoint tcx body summaries initial b = some s)
    (hp : (flowProblem tcx body summaries initial).PathState b p) :
    p.maySets .constPtrCast ⊆ s.maySets .constPtrCast ∧
    p.maySets .fdConsumed ⊆ s.maySets .fdConsumed ∧
    (p.threadSpawned = true → s.threadSpawned = true) ∧
    s.mustSets .fdOrigin ⊆ p.mustSets .fdOrigin ∧
    (∀ l f, s.activeVariant.get l = some f → p.activeVariant.get l = some f) ∧
    ∀ l did, s.fnPtrTargets.get l = some did → p.fnPtrTargets.get l = some did := by
  have hsim : TaintSim s p := FlowProblem.run_simulates
    (TaintSim.simulation tcx hbody summaries initial) FlowProblem.runMeets_trivial hp hs
  refine ⟨hsim.constPtrCast, hsim.fdConsumed, hsim.threadSpawned, hsim.fdOrigin, ?_, ?_⟩
  · intro l f hl
    obtain ⟨w, hw, rfl⟩ := hsim.activeVariant l f hl
    exact hw
  · intro l did hl
    obtain ⟨w, hw, rfl⟩ := hsim.fnPtrTargets l did hl
    exact hw

/-- A descriptor is given up on one branch only. -/
def closeOnBranch : Body :=
  .ofBlocks 1 2 [.other, .bool, .int .i32, .other] 3
    (fun bb =>
      [.of [] (.switchInt (.ofNat 1) ⟨[(0, bb 1)], bb 2⟩),
        .of [] (.callTo 0 [.ofNat 2] 3 (bb 3)),
        .of [] (.goto (bb 3)),
        .of [] .return])
    (by decide)

def fdPaths : TyCtxt := .ofPaths ["std::os::fd::FromRawFd::from_raw_fd", "f"]

theorem taints_on_paths_close : ∃ s p,
    runFixpoint fdPaths closeOnBranch ∅ BlockState.default (3 : Fin 4) = some s ∧
    (flowProblem fdPaths closeOnBranch ∅ BlockState.default).PathState (3 : Fin 4) p ∧
    Local.ofNat 2 ∈ p.maySets .fdConsumed ∧ Local.ofNat 2 ∈ s.maySets .fdConsumed := by
  obtain ⟨p, hp, hconsumed⟩ : ∃ p,
      (flowProblem fdPaths closeOnBranch ∅ BlockState.default).PathState (3 : Fin 4) p ∧
      Local.ofNat 2 ∈ p.maySets .fdConsumed :=
    ⟨_, FlowProblem.PathState.start.along ([1, 3] : List (Fin 4)) (by decide), by decide +kernel⟩
  obtain ⟨s, hs⟩ := Option.isSome_iff_exists.mp
    ((FlowProblem.solution_isSome_iff _).mpr hp.reaches)
  have htaints := taints_on_paths fdPaths closeOnBranch ∅ BlockState.default (by decide) hs hp
  exact ⟨s, p, hs, hp, hconsumed, htaints.2.1 hconsumed⟩

end San
