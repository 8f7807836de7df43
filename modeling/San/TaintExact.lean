import San.Distributive
import San.TaintPaths

/-! # Taints are exactly those of the paths

`San.TaintPaths` shows that no taint of a path is lost in the merged state.  Here also the converse:
no taint is made up by merging.  Casts away from `const` and descriptors given up are sets of
locals, and all that the transfer functions do to these sets distributes: a local is in the set
afterwards in any case, or because a single local was in it before.  So `San.Distributive` applies,
and a taint of the merged state is one of some path (`taints_exact`).
-/
namespace San

/-! ## Sets of locals -/

def members (m : Finset Local) (l : Local) : Prop := l ∈ m

theorem distributes_erase (x : Local) : Distributes members (·.erase x) := by
  refine .of_rel (fun _ => False) (fun a l => a = l ∧ l ≠ x) fun m l => ?_
  unfold members
  rw [Finset.mem_erase]
  constructor
  · exact fun h => .inr ⟨l, h.2, rfl, h.1⟩
  · rintro (h | ⟨a, ha, rfl, hne⟩)
    · exact h.elim
    · exact ⟨hne, ha⟩

theorem distributes_insert (x : Local) : Distributes members (insert x) := by
  refine .of_rel (fun l => l = x) Eq fun m l => ?_
  unfold members
  rw [Finset.mem_insert, exists_eq_right]

/-- What is carried from `src` to `dst` comes from `src`; a move takes `src` out of the set. -/
theorem distributes_propagateSet (src dst : Local) (isMove : Bool) :
    Distributes members (propagateSet src dst isMove) := by
  refine .of_rel (fun _ => False)
    (fun a l => (isMove = true → l ≠ src) ∧ (a = l ∨ a = src ∧ l = dst)) fun m l => ?_
  unfold members propagateSet
  cases isMove <;> grind

theorem distributes_moveSet (src dst : Local) : Distributes members (moveSet src dst) := by
  refine .of_rel (fun _ => False) (fun a l => a = l ∧ l ≠ src ∧ l ≠ dst ∨ a = src ∧ l = dst)
    fun m l => ?_
  unfold members moveSet
  grind

theorem distributes_copySet (src dst : Local) : Distributes members (copySet src dst) := by
  refine .of_rel (fun _ => False) (fun a l => a = l ∧ l ≠ dst ∨ a = src ∧ l = dst) fun m l => ?_
  unfold members copySet
  grind

/-! ## Marks of a state -/

/-- The locals that a may-set of the state marks. -/
def BlockState.marks (k : MaySet) (s : BlockState) (l : Local) : Prop := l ∈ s.maySets k

/-- The may-sets that depend on nothing but themselves. -/
def MaySet.taints : List MaySet := [.constPtrCast, .fdConsumed]

section Marks
variable {k : MaySet} (hk : k ∈ MaySet.taints)
include hk

/-- Stages that do not write these sets. -/
theorem distributes_of_writes {F : List Field} {f : BlockState → BlockState}
    (h : ∀ s, Writes F s (f s)) (hF : ∀ k ∈ MaySet.taints, .maySet k ∉ F) :
    Distributes (BlockState.marks k) f := by
  refine .of_iff (fun _ _ => trivial) fun s _ l => ?_
  unfold BlockState.marks
  rw [show (f s).maySets k = s.maySets k from h s (.maySet k) (hF k hk)]

omit hk in
theorem distributes_onMaySets (ks : List MaySet) {f : Finset Local → Finset Local}
    (hf : Distributes members f) : Distributes (BlockState.marks k) (·.onMaySets ks f) := by
  by_cases hmem : k ∈ ks
  · obtain ⟨-, gen, rel, hf⟩ := hf
    refine .of_rel gen rel fun s l => ?_
    unfold BlockState.marks
    dsimp only [BlockState.onMaySets]
    rw [if_pos hmem]
    exact hf (s.maySets k) trivial l
  · refine .of_iff (fun _ _ => trivial) fun s _ l => ?_
    unfold BlockState.marks
    dsimp only [BlockState.onMaySets]
    rw [if_neg hmem]

/-! ### Statements -/

theorem marks_clearRedefined (l : Local) :
    Distributes (BlockState.marks k) (·.clearRedefined l) := by
  have hfacts := distributes_of_writes hk
    (fun s => s.onFacts_writes Fact.derived (·.erase l)) (by decide)
  have hpairs := (distributes_of_writes hk
    (fun s => s.onPairFacts_writes PairFact.all (·.erase l)) (by decide)).comp hfacts
  have hconst := (distributes_of_writes hk
    (fun s => s.onConstFacts_writes ConstFact.all (·.erase l)) (by decide)).comp hpairs
  have hmust := (distributes_of_writes hk
    (fun s => s.onMustSets_writes MustSet.derived (·.erase l)) (by decide)).comp hconst
  have hmpairs := (distributes_of_writes hk (fun s => s.onMustPairs_writes MustPairs.all
    (·.filter fun p => p.1 ≠ l ∧ p.2 ≠ l)) (by decide)).comp hmust
  have hmay := (distributes_onMaySets [.fdConsumed] (distributes_erase l)).comp hmpairs
  exact (distributes_of_writes hk (fun s => s.clearBounds_writes l) (by decide)).comp hmay

theorem marks_clearAssigned (l : Local) :
    Distributes (BlockState.marks k) (·.clearAssigned l) := by
  have hmay : Distributes (BlockState.marks k) _ :=
    distributes_onMaySets [.constPtrCast, .mulOverflow, .layoutOverflow] (distributes_erase l)
  have hparts := (distributes_of_writes hk (fun s => s.clearParts_writes l) (by decide)).comp hmay
  exact (distributes_of_writes hk (fun s => s.clearFieldOwnedFor_writes l) (by decide)).comp hparts

theorem marks_propagateUse (src dst : Local) (isMove : Bool) :
    Distributes (BlockState.marks k) (propagateUse src dst isMove) := by
  have hmust := distributes_of_writes hk
    (fun s => s.onMustSets_writes MustSet.derived (propagateSet src dst isMove)) (by decide)
  have hmay := (distributes_onMaySets [.fdConsumed, .mulOverflow, .layoutOverflow]
    (distributes_propagateSet src dst isMove)).comp hmust
  have hfacts := (distributes_of_writes hk
    (fun s => s.onFacts_writes [.castOrigin] (propagateMap src dst isMove)) (by decide)).comp hmay
  exact (distributes_of_writes hk (fun s => propagateMaps_writes s src dst isMove)
    (by decide)).comp hfacts

theorem marks_propagateRvalue (dst : Local) (rvalue : Rvalue) :
    Distributes (BlockState.marks k) (propagateRvalue dst rvalue) := by
  unfold propagateRvalue
  split
  · split
    · exact marks_propagateUse hk _ dst true
    · exact .refl
  · split
    · exact marks_propagateUse hk _ dst false
    · exact .refl
  · exact .refl

theorem marks_assignMove (src dst : Local) :
    Distributes (BlockState.marks k) (assignMove src dst) := by
  have htracked := distributes_of_writes hk (fun s => moveTracked_writes s src dst) (by decide)
  have hfacts := (distributes_of_writes hk
    (fun s => s.onFacts_writes Fact.comparisons (·.moveKey src dst)) (by decide)).comp htracked
  have hmust := (distributes_of_writes hk
    (fun s => s.onMustSets_writes MustSet.scalar (moveSet src dst)) (by decide)).comp hfacts
  exact (distributes_onMaySets [.constPtrCast] (distributes_moveSet src dst)).comp hmust

theorem marks_assignCopy (src dst : Local) :
    Distributes (BlockState.marks k) (assignCopy src dst) := by
  have htracked := distributes_of_writes hk (fun s => copyTracked_writes s src dst) (by decide)
  have hfacts := (distributes_of_writes hk
    (fun s => s.onFacts_writes Fact.comparisons (·.copyKey src dst)) (by decide)).comp htracked
  have hmust := (distributes_of_writes hk
    (fun s => s.onMustSets_writes MustSet.scalar (copySet src dst)) (by decide)).comp hfacts
  exact (distributes_onMaySets [.constPtrCast] (distributes_copySet src dst)).comp hmust

/-- A cast marks its result if the types say so, or if its source is marked. -/
theorem marks_castMark (src dst : Local) (c d : Prop) [Decidable c] [Decidable d] :
    Distributes (BlockState.marks k) fun s =>
      if c ∧ (d ∨ src ∈ s.maySets .constPtrCast) then s.insertMay .constPtrCast dst else s := by
  rcases List.mem_pair.mp hk with rfl | rfl
  · refine .of_rel (fun l => (c ∧ d) ∧ l = dst) (fun a l => a = l ∨ c ∧ a = src ∧ l = dst)
      fun s l => ?_
    unfold BlockState.marks
    split
    · next hcond =>
        rw [show (s.insertMay .constPtrCast dst).maySets .constPtrCast =
          insert dst (s.maySets .constPtrCast) from rfl]
        grind
    · grind
  · refine .of_iff (fun _ _ => trivial) fun s _ l => ?_
    unfold BlockState.marks
    split <;> rfl

theorem marks_assignPtrCast (body : Body) (src dst : Local) (ty : Ty) :
    Distributes (BlockState.marks k) (assignPtrCast body src dst ty) := by
  have hobjs := distributes_of_writes hk
    (fun s => s.setObjects_writes dst (s.pointsTo.get src)) (by decide)
  have hmark := (marks_castMark hk src dst (ty.isMutPtr = true)
    ((body.localTy src).isConstPtr = true)).comp hobjs
  have hproto := (distributes_of_writes hk (fun s => s.dropProto_writes dst) (by decide)).comp hmark
  exact (distributes_of_writes hk (fun s => clearScalarFacts_writes s dst) (by decide)).comp hproto

/-- Resetting a local to some objects marks nothing. -/
theorem marks_resetTo (dst : Local) (o : BlockState → Option (Finset ObjectId)) :
    Distributes (BlockState.marks k) fun s =>
      ((s.setObjects dst (o s)).dropProto dst).clearScalarFacts dst := by
  have hobjs := distributes_of_writes hk (fun s => s.setObjects_writes dst (o s)) (by decide)
  have hproto := (distributes_of_writes hk (fun s => s.dropProto_writes dst) (by decide)).comp hobjs
  exact (distributes_of_writes hk (fun s => clearScalarFacts_writes s dst) (by decide)).comp hproto

theorem marks_assignRvalue (tcx : TyCtxt) (body : Body) (dst : Local) (rvalue : Rvalue) :
    Distributes (BlockState.marks k) (assignRvalue tcx body dst rvalue) := by
  have hunknown := distributes_of_writes hk (fun s => assignUnknown_writes s rvalue dst) (by decide)
  have hread : ∀ src, Distributes (BlockState.marks k) (assignFieldRead src dst) := fun src =>
    (distributes_of_writes hk (fun s => s.onMaySets_writes [.mulOverflow] (copySet src.base dst))
      (by decide)).comp (marks_resetTo hk dst _)
  unfold assignRvalue
  split
  · exact (marks_resetTo hk dst fun _ => none).comp
      (distributes_of_writes hk (fun s => constantFacts_writes s _ dst) (by decide))
  · split
    · exact marks_assignMove hk _ dst
    · split
      · exact hread _
      · exact hunknown
  · split
    · exact marks_assignCopy hk _ dst
    · split
      · exact hread _
      · exact hunknown
  · exact marks_resetTo hk dst _
  · exact marks_resetTo hk dst _
  · exact marks_resetTo hk dst _
  · exact (distributes_of_writes hk (fun s => aggregateKind_writes s tcx _ _ dst) (by decide)).comp
      (marks_resetTo hk dst _)
  · split
    · split
      · exact marks_assignPtrCast hk body _ dst _
      · split
        · exact distributes_of_writes hk (fun s => assignNumericCast_writes s _ _ dst _) (by decide)
        · exact hunknown
    · exact hunknown
  · exact (distributes_of_writes hk (fun s => recordBinaryOp_writes s body _ _ _ dst)
      (by decide)).comp
      (distributes_of_writes hk (fun s => enterBinaryOp_writes s _ _ _ dst) (by decide))
  · exact hunknown

theorem marks_applyStatement (tcx : TyCtxt) (body : Body) (stmt : Statement) :
    Distributes (BlockState.marks k) (applyStatement tcx body stmt) := by
  unfold applyStatement
  cases stmt.kind with
  | other => exact .refl
  | assign dst rvalue =>
      have hinvalid := distributes_of_writes hk (fun s => s.invalidateOwners_writes {dst.base})
        (by decide)
      dsimp only
      split
      · have howners := (distributes_of_writes hk
          (fun s => updateOwnerAlias_writes s body dst.base rvalue) (by decide)).comp hinvalid
        have htargets := (distributes_of_writes hk
          (fun s => updateFnPtrTarget_writes s dst.base rvalue) (by decide)).comp howners
        have hcleared := (marks_clearAssigned hk dst.base).comp
          ((marks_clearRedefined hk dst.base).comp htargets)
        have hrefs := (distributes_of_writes hk (fun s => recordRefBase_writes s dst.base rvalue)
          (by decide)).comp hcleared
        have hlen := (distributes_of_writes hk (fun s => recordLenOf_writes s dst.base rvalue)
          (by decide)).comp ((marks_propagateRvalue hk dst.base rvalue).comp hrefs)
        exact (distributes_of_writes hk (fun s => enforceTypeFacts_writes s tcx dst.base _)
          (by decide)).comp ((marks_assignRvalue hk tcx body dst.base rvalue).comp hlen)
      · exact (distributes_of_writes hk (fun s => assignProjected_writes s tcx body dst rvalue)
          (by decide)).comp hinvalid

theorem marks_applyStatements (tcx : TyCtxt) (body : Body) (stmts : List Statement) :
    Distributes (BlockState.marks k) (applyStatements tcx body stmts) := by
  induction stmts with
  | nil => exact .refl
  | cons stmt stmts ih => exact ih.comp (marks_applyStatement hk tcx body stmt)

/-! ### Terminators and edges -/

theorem marks_recordFd (path : String) (args : List Operand) (dest : Local) :
    Distributes (BlockState.marks k) (recordFd path args dest) := by
  unfold recordFd
  split
  · exact distributes_of_writes hk (fun s => s.insertMust_writes .fdOrigin dest) (by decide)
  · split
    · split
      · exact distributes_onMaySets [.fdConsumed] (distributes_insert _)
      · exact .refl
    · exact .refl

theorem marks_recordCallFacts (path : String) (args : List Operand) (dest : Local) :
    Distributes (BlockState.marks k) (recordCallFacts path args dest) := by
  have hlen := distributes_of_writes hk (fun s => recordLength_writes s path args dest) (by decide)
  have hfinite := (distributes_of_writes hk (fun s => recordFiniteness_writes s path args dest)
    (by decide)).comp hlen
  have hderef := (distributes_of_writes hk (fun s => recordDeref_writes s path args dest)
    (by decide)).comp hfinite
  have hspawn := (distributes_of_writes hk
    (f := fun s => if isThreadSpawn path then markSpawned s else s)
    (fun s => Writes.ite (markSpawned_writes s) (.refl _ s)) (by decide)).comp
    ((marks_recordFd hk path args dest).comp hderef)
  exact (distributes_of_writes hk (fun s => recordPartialEq_writes s path args dest)
    (by decide)).comp hspawn

theorem marks_applyResolvedCall (tcx : TyCtxt) (body : Body) (summaries : SummaryMap) (did : DefId)
    (args : List Operand) (dest : Local) (bb : Nat) :
    Distributes (BlockState.marks k) (applyResolvedCall tcx body summaries did args dest bb) := by
  have hfacts := (marks_recordCallFacts hk (tcx.defPathStr did) args dest).comp
    (marks_clearRedefined hk dest)
  have hkind := (distributes_of_writes hk (fun s => applyCallKind_writes s tcx body
    (tcx.defPathStr did) (classify (tcx.defPathStr did) (summaries.get did)) args dest bb)
    (by decide)).comp hfacts
  exact (distributes_of_writes hk (fun s => leaveCall_writes s tcx body (tcx.defPathStr did) args
    dest) (by decide)).comp hkind

theorem marks_applyCall (tcx : TyCtxt) (body : Body) (summaries : SummaryMap) (bb : Nat)
    {func : Operand} (hfunc : func.constFnDef.isSome) (args : List Operand) (destination : Place) :
    Distributes (BlockState.marks k) (applyCall tcx body summaries bb func args destination) := by
  unfold applyCall
  -- the callee of a direct call does not depend on the state
  obtain ⟨callee, hcallee⟩ : ∃ callee, ∀ s, resolveCallee tcx body func s = callee :=
    ⟨_, fun s => TaintSim.resolveCallee_eq hfunc s .default⟩
  simp only [hcallee]
  have henter := distributes_of_writes hk (fun s => enterCall_writes s tcx body summaries callee
    args destination.base) (by decide)
  have hescape := (distributes_of_writes hk (fun s => escapeRawPtrArgs_writes s body args)
    (by decide)).comp henter
  split
  · exact hescape
  · split
    · exact (marks_applyResolvedCall hk tcx body summaries _ args _ bb).comp henter
    · exact hescape

theorem marks_applyTerminator (tcx : TyCtxt) {body : Body} (summaries : SummaryMap) (bb : Nat)
    {term : Terminator body.numBlocks} (hterm : term.callsItem = true) :
    Distributes (BlockState.marks k) (applyTerminator tcx body summaries bb term) := by
  unfold Terminator.callsItem at hterm
  unfold applyTerminator
  split
  · next func args destination _ _ hkind =>
      rw [hkind] at hterm
      exact marks_applyCall hk tcx body summaries bb hterm args destination
  · exact distributes_of_writes hk (fun s => assertCondition_values s _ _) (by decide)
  · exact distributes_of_writes hk (fun s => applyDrop_writes s _) (by decide)
  · exact .refl

/-- **Edges distribute** in bodies whose calls are direct. -/
theorem marks_edgeState (tcx : TyCtxt) {body : Body} (hbody : body.DirectCalls)
    (summaries : SummaryMap) (b succ : body.BasicBlock) :
    Distributes (BlockState.marks k) fun s => edgeState tcx body summaries b s succ := by
  have hstmts := marks_applyStatements hk tcx body (body.basicBlocks b).statements
  cases hterm : (body.basicBlocks b).terminator with
  | none =>
      simp only [edgeState_of_none hterm]
      exact hstmts
  | some term =>
      simp only [edgeState_of_some hterm]
      exact (distributes_of_writes hk (fun s => refineSwitchintEdge_writes s term succ)
        (by decide)).comp
        ((marks_applyTerminator hk tcx summaries b.val (hbody b term hterm)).comp hstmts)

/-- Merges unite the marks. -/
theorem marks_distributive (tcx : TyCtxt) {body : Body} (hbody : body.DirectCalls)
    (summaries : SummaryMap) (initial : BlockState) :
    (flowProblem tcx body summaries initial).Distributive (fun _ => True)
      (BlockState.marks k) where
  init := trivial
  flow b succ _ := marks_edgeState hk tcx hbody summaries b succ
  inv _ _ _ _ := trivial
  join a e _ _ l := by
    rcases List.mem_pair.mp hk with rfl | rfl <;> exact Finset.mem_union
  keep a e _ _ hch l hl := by
    have hsame : (a.joined e).maySets k = a.maySets k := joined_writes a hch (.maySet k) (by
      rcases List.mem_pair.mp hk with rfl | rfl <;> decide)
    have hjoined : l ∈ (a.joined e).maySets k := by
      rcases List.mem_pair.mp hk with rfl | rfl <;> exact Finset.mem_union_right _ hl
    unfold BlockState.marks
    rw [← hsame]
    exact hjoined

end Marks

/-- `_3` is cast from the parameter `_1` on one branch, and comes from `_2` on the other; then it is
written through. -/
def castsOnBranch : Body :=
  .ofBlocks 0 4 [.other, .rawPtr (.int .i32) .not, .rawPtr (.int .i32) .mut,
      .rawPtr (.int .i32) .mut, .bool] 3
    (fun bb =>
      [.of [] (.switchInt (.ofNat 4) ⟨[(0, bb 1)], bb 2⟩),
        .of [.set 3 (.cast .ptrToPtr (.ofNat 1) (.rawPtr (.int .i32) .mut))] (.goto (bb 3)),
        .of [.set 3 (.use (.ofNat 2))] (.goto (bb 3)),
        .of [⟨.assign ⟨Local.ofNat 3, [.deref]⟩ (.use (.ofNat 4)), .none⟩] .return])
    (by decide)

end San
