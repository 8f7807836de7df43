import San.CallHeap
import San.HeapPaths

/-! # Protocol instances along paths

A guard is a protocol instance: acquiring a lock makes it active, dropping the guard consumes it
and forgetting the guard leaves it forgotten.  `ProtoSim` relates what a merged state and the state
of one path know of the instances: the locals of interest hold the same ones, and what the merged
state takes to be forgotten is forgotten on the path.  Statements and terminators keep the relation
where the pointers agree, and a merge keeps it if no instance is forgotten on one side and unknown
to the other.
-/
namespace San

/-! ## The relation -/

/-- The locals that a body drops. -/
def Body.dropped (body : Body) : Finset Local :=
  ((List.finRange body.numBlocks).filterMap fun bb =>
    match (body.basicBlocks bb).terminator with
    | some ⟨.drop place _ _, _⟩ => some place.base
    | _ => none).toFinset

theorem Body.mem_dropped {body : Body} {bb : body.BasicBlock} {place : Place}
    {target : body.BasicBlock} {unwind : UnwindAction body.numBlocks} {span : Span}
    (h : (body.basicBlocks bb).terminator = some ⟨.drop place target unwind, span⟩) :
    place.base ∈ body.dropped := by
  unfold Body.dropped
  rw [List.mem_toFinset, List.mem_filterMap]
  refine ⟨bb, List.mem_finRange bb, ?_⟩
  rw [h]

/-- Does the call say which instances its result holds?  The other kinds leave what the destination
held before. -/
def CallKind.settlesProtos : CallKind → Bool
  | .rawRealloc | .intoRaw | .guardAcquire => false
  | .summarised summary => !summary.returnsRawOwned
  | _ => true

/-- The destination of a call that says where its result points to and which instances it
holds. -/
def protoSettles (tcx : TyCtxt) (body : Body) (summaries : SummaryMap) (func : Operand)
    (destination : Place) : Finset Local :=
  if (calledKind tcx body summaries func destination BlockState.default).settlesProtos then
    objectSettles tcx body summaries func destination
  else ∅

def Terminator.protoSettles {n : Nat} (tcx : TyCtxt) (body : Body) (summaries : SummaryMap)
    (term : Terminator n) : Finset Local :=
  match term.kind with
  | .call func _ destination _ _ => San.protoSettles tcx body summaries func destination
  | _ => ∅

theorem protoSettles_subset (tcx : TyCtxt) (body : Body) (summaries : SummaryMap) (func : Operand)
    (destination : Place) :
    protoSettles tcx body summaries func destination ⊆
      objectSettles tcx body summaries func destination := by
  unfold protoSettles
  split
  · exact Finset.Subset.refl _
  · exact Finset.empty_subset _

/-- The relation between a merged state `s` and the state `t` of one path. -/
structure ProtoSim (L : Finset Local) (s t : BlockState) : Prop where
  protos : FMap.AgreeOn L s.localProto t.localProto
  forgotten : ∀ id, s.typestate.get id = some .forgotten → t.typestate.get id = some .forgotten
  untracked : s.untrackedForgetSeen = true → t.untrackedForgetSeen = true

/-- What the merged state takes to be forgotten somewhere is forgotten on the path. -/
theorem ProtoSim.hasForgotten {L : Finset Local} {s t : BlockState} (h : ProtoSim L s t)
    (hs : s.hasForgottenProtocol = true) : t.hasForgottenProtocol = true := by
  unfold BlockState.hasForgottenProtocol at hs ⊢
  rw [Bool.or_eq_true, decide_eq_true_eq] at hs ⊢
  rcases hs with hs | ⟨id, -, hid⟩
  · exact Or.inl (h.untracked hs)
  · have hpath := h.forgotten id hid
    exact Or.inr ⟨id, FMap.mem_keys_of_get hpath, hpath⟩

namespace ProtoSim
variable {L L' : Finset Local} {s t s' t' : BlockState} {l dst src : Local}

theorem refl (L : Finset Local) (s : BlockState) : ProtoSim L s s :=
  ⟨.refl _ _, fun _ => id, id⟩

theorem mono (h : ProtoSim L s t) (hL : L' ⊆ L) : ProtoSim L' s t :=
  { h with protos := h.protos.mono hL }

theorem drop (h : ProtoSim (insert l L) s t) : ProtoSim L s t := h.mono (Finset.subset_insert l L)

/-- A stage that writes the instances of locals only. -/
theorem withProtos {F : List Field} (h : ProtoSim L s t) (hs : Writes F s s') (ht : Writes F t t')
    (hF : .typestate ∉ F ∧ .untrackedForgetSeen ∉ F)
    (hprotos : FMap.AgreeOn L' s'.localProto t'.localProto) : ProtoSim L' s' t' := by
  have htype : s'.typestate = s.typestate := hs .typestate hF.1
  have htype' : t'.typestate = t.typestate := ht .typestate hF.1
  have hflag : s'.untrackedForgetSeen = s.untrackedForgetSeen := hs .untrackedForgetSeen hF.2
  have hflag' : t'.untrackedForgetSeen = t.untrackedForgetSeen := ht .untrackedForgetSeen hF.2
  refine ⟨hprotos, ?_, ?_⟩
  · rw [htype, htype']
    exact h.forgotten
  · rw [hflag, hflag']
    exact h.untracked

/-- A stage that writes nothing of the instances. -/
theorem frame {F : List Field} (h : ProtoSim L s t) (hs : Writes F s s') (ht : Writes F t t')
    (hF : .localProto ∉ F ∧ .typestate ∉ F ∧ .untrackedForgetSeen ∉ F) : ProtoSim L s' t' := by
  refine h.withProtos hs ht hF.2 ?_
  have hs' : s'.localProto = s.localProto := hs .localProto hF.1
  have ht' : t'.localProto = t.localProto := ht .localProto hF.1
  rw [hs', ht']
  exact h.protos

theorem dropProto (h : ProtoSim L s t) (l : Local) :
    ProtoSim (insert l L) (s.dropProto l) (t.dropProto l) :=
  h.withProtos (s.dropProto_writes l) (t.dropProto_writes l) (by decide) (h.protos.erase l)

/-- New objects and no instance for `dst`, whose scalar facts are cleared. -/
theorem resetTo (h : ProtoSim L s t) (dst : Local) (o o' : Option (Finset ObjectId)) :
    ProtoSim (insert dst L) (((s.setObjects dst o).dropProto dst).clearScalarFacts dst)
      (((t.setObjects dst o').dropProto dst).clearScalarFacts dst) :=
  ((h.frame (s.setObjects_writes dst o) (t.setObjects_writes dst o') (by decide)).dropProto
    dst).frame (clearScalarFacts_writes _ dst) (clearScalarFacts_writes _ dst) (by decide)

theorem clearTracking (h : ProtoSim L s t) (l : Local) :
    ProtoSim (insert l L) (clearTracking l s) (clearTracking l t) := h.resetTo l none none

theorem escapeLocal (h : ProtoSim L s t) (l : Local) :
    ProtoSim L (s.escapeLocal l) (t.escapeLocal l) :=
  (h.withProtos (s.escapeLocal_writes l) (t.escapeLocal_writes l) (by decide)
    (h.protos.erase l)).drop

theorem protosOf_eq (h : ProtoSim L s t) (hl : l ∈ L) : protosOf s l = protosOf t l := by
  unfold protosOf
  rw [h.protos l hl]

/-- **Giving up the instances of `l`** leaves the same ones forgotten. -/
theorem releaseProtos (h : ProtoSim L s t) (hl : l ∈ L) (st : ProtocolState) :
    ProtoSim L (releaseProtos l st s) (releaseProtos l st t) := by
  refine ⟨(h.protos.erase l).mono (Finset.subset_insert l L), fun id hid => ?_, h.untracked⟩
  have hget : (s.typestate.assign (protosOf s l) fun _ => st).get id = some .forgotten := hid
  show (t.typestate.assign (protosOf t l) fun _ => st).get id = some .forgotten
  rw [FMap.get_assign, h.protosOf_eq hl] at hget
  rw [FMap.get_assign]
  split at hget
  · next hmem => rw [if_pos hmem]; exact hget
  · next hmem => rw [if_neg hmem]; exact h.forgotten id hget

theorem acquireProto (h : ProtoSim L s t) (dest : Local) (bb : Nat) :
    ProtoSim L (acquireProto dest bb s) (acquireProto dest bb t) := by
  refine ⟨fun x hx => ?_, fun id hid => ?_, h.untracked⟩
  · show (s.localProto.insert dest (insert (callSiteProto bb) (protosOf s dest))).get x =
      (t.localProto.insert dest (insert (callSiteProto bb) (protosOf t dest))).get x
    rw [FMap.get_insert, FMap.get_insert]
    split
    · next heq => rw [h.protosOf_eq (heq ▸ hx)]
    · exact h.protos x hx
  · have hget : (s.typestate.insert (callSiteProto bb) .active).get id = some .forgotten := hid
    show (t.typestate.insert (callSiteProto bb) .active).get id = some .forgotten
    rw [FMap.get_insert] at hget ⊢
    split at hget
    · cases hget
    · next hne => rw [if_neg hne]; exact h.forgotten id hget

/-! ## Statements -/

theorem assignMove (h : ProtoSim L s t) (hsrc : src ∈ L) (dst : Local) :
    ProtoSim (insert dst L) (assignMove src dst s) (assignMove src dst t) := by
  have hmoved : ProtoSim (insert dst L) (moveTracked src dst s) (moveTracked src dst t) := by
    refine h.withProtos (moveTracked_writes s src dst) (moveTracked_writes t src dst) (by decide) ?_
    show FMap.AgreeOn _ ((s.localProto.erase src).put dst _) ((t.localProto.erase src).put dst _)
    rw [h.protos src hsrc]
    exact ((h.protos.erase src).mono (Finset.subset_insert src L)).put dst _
  exact hmoved.frame (carryScalars_writes _ _ _ _) (carryScalars_writes _ _ _ _) (by decide)

theorem assignCopy (h : ProtoSim L s t) (hsrc : src ∈ L) (dst : Local) :
    ProtoSim (insert dst L) (assignCopy src dst s) (assignCopy src dst t) :=
  (h.withProtos (copyTracked_writes s src dst) (copyTracked_writes t src dst) (by decide)
    (h.protos.copyKey hsrc dst)).frame (carryScalars_writes _ _ _ _) (carryScalars_writes _ _ _ _)
    (by decide)

theorem assignPtrCast (h : ProtoSim L s t) (body : Body) (src dst : Local) (ty : Ty) :
    ProtoSim (insert dst L) (assignPtrCast body src dst ty s) (assignPtrCast body src dst ty t) := by
  have hmark : ∀ (u : BlockState) (c : Prop) [Decidable c], Writes Field.taints u
      (if c then u.insertMay .constPtrCast dst else u) := fun u c _ =>
    .ite ((u.insertMay_writes _ _).mono (by decide)) (.refl _ u)
  have hobjects := h.frame (s.setObjects_writes dst (s.pointsTo.get src))
    (t.setObjects_writes dst (t.pointsTo.get src)) (by decide)
  exact ((hobjects.frame (hmark _ _) (hmark _ _) (by decide)).dropProto dst).frame
    (clearScalarFacts_writes _ dst) (clearScalarFacts_writes _ dst) (by decide)

theorem assignUnknown (h : ProtoSim L s t) (rvalue : Rvalue) (dst : Local) :
    ProtoSim (insert dst L) (assignUnknown rvalue dst s) (assignUnknown rvalue dst t) := by
  have hclear := h.clearTracking dst
  unfold San.assignUnknown
  dsimp only
  split
  · split
    · exact hclear
    · rename_i src _
      exact ((hclear.frame (consumeField_writes _ src) (consumeField_writes _ src)
        (by decide)).clearTracking src.base).drop
  · exact hclear

theorem assignBinaryOp (h : ProtoSim L s t) (body : Body) (op : BinOp) (op1 op2 : Operand)
    (dst : Local) :
    ProtoSim (insert dst L) (assignBinaryOp body op op1 op2 dst s)
      (assignBinaryOp body op op1 op2 dst t) := by
  have hproto := (h.frame (s.setObjects_writes dst (offsetObjects op op1 op2 s))
    (t.setObjects_writes dst (offsetObjects op op1 op2 t)) (by decide)).dropProto dst
  have hinit := hproto.frame (BlockState.clearInit_writes _ dst) (BlockState.clearInit_writes _ dst)
    (by decide)
  have hscalar := hinit.frame (BlockState.onMustSets_writes _ MustSet.scalar (·.erase dst))
    (BlockState.onMustSets_writes _ MustSet.scalar (·.erase dst)) (by decide)
  exact hscalar.frame (recordBinaryOp_writes _ body op op1 op2 dst)
    (recordBinaryOp_writes _ body op op1 op2 dst) (by decide)

theorem assignConstant (h : ProtoSim L s t) (c : Const) (dst : Local) :
    ProtoSim (insert dst L) (assignConstant c dst s) (assignConstant c dst t) :=
  (h.frame (constantFacts_writes s c dst) (constantFacts_writes t c dst) (by decide)).resetTo
    dst none none

theorem assignFieldRead (h : ProtoSim L s t) (src : Place) (dst : Local) :
    ProtoSim (insert dst L) (assignFieldRead src dst s) (assignFieldRead src dst t) :=
  (h.resetTo dst _ _).frame (BlockState.onMaySets_writes _ [.mulOverflow] _)
    (BlockState.onMaySets_writes _ [.mulOverflow] _) (by decide)

theorem assignAggregate (h : ProtoSim L s t) (tcx : TyCtxt) (kind : AggregateKind)
    (operands : List Operand) (dst : Local) :
    ProtoSim (insert dst L) (assignAggregate tcx kind operands dst s)
      (assignAggregate tcx kind operands dst t) :=
  (h.resetTo dst _ _).frame (aggregateKind_writes _ tcx kind operands dst)
    (aggregateKind_writes _ tcx kind operands dst) (by decide)

/-- **An assignment to a whole local** makes its instances agree, except for a numeric cast,
which leaves them as they were. -/
theorem assignRvalue (h : ProtoSim L s t) (tcx : TyCtxt) (body : Body) (dst : Local)
    {rvalue : Rvalue} (hreads : ∀ l ∈ rvalue.reads, l ∈ L) :
    ProtoSim (rvalue.settling dst L) (assignRvalue tcx body dst rvalue s)
      (assignRvalue tcx body dst rvalue t) := by
  have hall : ∀ {s t : BlockState}, ProtoSim (insert dst L) s t →
      ProtoSim (rvalue.settling dst L) s t := fun h => h.mono (rvalue.settling_subset dst L)
  unfold San.assignRvalue
  split
  · exact hall (h.assignConstant _ dst)
  · split
    · exact hall (h.assignMove (hreads _ (List.mem_singleton.mpr rfl)) dst)
    · split
      · exact hall (h.assignFieldRead _ dst)
      · exact hall (h.assignUnknown _ dst)
  · split
    · exact hall (h.assignCopy (hreads _ (List.mem_singleton.mpr rfl)) dst)
    · split
      · exact hall (h.assignFieldRead _ dst)
      · exact hall (h.assignUnknown _ dst)
  · exact hall (h.resetTo dst _ _)
  · exact hall (h.resetTo dst _ _)
  · exact hall (h.resetTo dst _ _)
  · exact hall (h.assignAggregate tcx _ _ dst)
  · rename_i kind op ty
    cases hop : operandLocal op with
    | none => exact hall (h.assignUnknown _ dst)
    | some src =>
        dsimp only
        split
        · exact hall (h.assignPtrCast body src dst ty)
        · split
          · rename_i hnum
            have hkeeps : (Rvalue.cast kind op ty).keepsFacts = true := by
              simp [Rvalue.keepsFacts, hop, hnum]
            rw [Rvalue.settling_of_keeps hkeeps]
            exact h.frame (assignNumericCast_writes s kind src dst ty)
              (assignNumericCast_writes t kind src dst ty) (by decide)
          · exact hall (h.assignUnknown _ dst)
  · exact hall (h.assignBinaryOp body _ _ _ dst)
  · exact hall (h.assignUnknown _ dst)

/-- **A store below a local** gives up the instances of the stored local, if there is one. -/
theorem storeObjects (h : ProtoSim L s t) (dst : Place) (rvalue : Rvalue) :
    ProtoSim L (storeObjects dst rvalue s) (storeObjects dst rvalue t) := by
  unfold San.storeObjects
  split
  · exact h
  · rename_i src hsrc
    split
    · cases nonempty (s.pointsTo.get src) <;> cases nonempty (t.pointsTo.get src)
      · exact h
      · exact h.frame (.refl _ s) (t.setObjects_writes _ _) (by decide)
      · exact h.frame (s.setObjects_writes _ _) (.refl _ t) (by decide)
      · exact h.frame (s.setObjects_writes _ _) (t.setObjects_writes _ _) (by decide)
    · split
      · exact ⟨(h.protos.erase src).mono (Finset.subset_insert src L), h.forgotten, h.untracked⟩
      · exact h.escapeLocal src

/-- **A statement keeps the relation.** -/
theorem applyStatement (h : ProtoSim L s t) (tcx : TyCtxt) (body : Body) {stmt : Statement}
    (hreads : ∀ l ∈ stmt.reads, l ∈ L) :
    ProtoSim (L ∪ stmt.settles) (applyStatement tcx body stmt s)
      (applyStatement tcx body stmt t) := by
  obtain ⟨kind, span⟩ := stmt
  cases kind with
  | other => exact h.mono (Finset.union_empty L).subset
  | assign dst rvalue =>
      have hinvalid := h.frame (s.invalidateOwners_writes {dst.base})
        (t.invalidateOwners_writes {dst.base}) (by decide)
      have hrv : ∀ l ∈ rvalue.reads, l ∈ L := fun l hl => hreads l (List.mem_append_left _ hl)
      unfold San.applyStatement Statement.settles
      dsimp only
      cases hdst : dst.isLocal with
      | false =>
          have hvariant := (hinvalid.storeObjects dst rvalue).frame
            (setUnionField_writes _ tcx body dst) (setUnionField_writes _ tcx body dst) (by decide)
          exact (hvariant.frame (writeMaybeUninitField_writes _ body dst)
            (writeMaybeUninitField_writes _ body dst) (by decide)).mono
              (Finset.union_empty L).subset
      | true =>
          have howners := hinvalid.frame (updateOwnerAlias_writes _ body dst.base rvalue)
            (updateOwnerAlias_writes _ body dst.base rvalue) (by decide)
          have hcleared := ((howners.frame (updateFnPtrTarget_writes _ dst.base rvalue)
            (updateFnPtrTarget_writes _ dst.base rvalue) (by decide)).frame
            (BlockState.clearRedefined_writes _ dst.base)
            (BlockState.clearRedefined_writes _ dst.base) (by decide)).frame
            (clearAssigned_writes _ dst.base) (clearAssigned_writes _ dst.base) (by decide)
          have hrefs := hcleared.frame (recordRefBase_writes _ dst.base rvalue)
            (recordRefBase_writes _ dst.base rvalue) (by decide)
          have hprop := hrefs.frame (propagateRvalue_writes _ dst.base rvalue)
            (propagateRvalue_writes _ dst.base rvalue) (by decide)
          have hlen := hprop.frame (recordLenOf_writes _ dst.base rvalue)
            (recordLenOf_writes _ dst.base rvalue) (by decide)
          exact ((hlen.assignRvalue tcx body dst.base hrv).frame
            (enforceTypeFacts_writes _ tcx dst.base _) (enforceTypeFacts_writes _ tcx dst.base _)
            (by decide)).mono (union_settles_subset_settling L dst.base rvalue)

/-! ## Calls -/

section CallArgs
variable {body : Body} {args : List Operand} (hargs : ∀ l ∈ args.filterMap Operand.base, l ∈ L)

include hargs in
/-- Which arguments escape depends on the pointers. -/
theorem escapeRawPtrArgs {ρ : Option HeapState → Option HeapState → Prop} (h : ProtoSim L s t)
    (hheap : HeapSim ρ L s t) (hρ : HeapRel ρ) :
    ProtoSim L (escapeRawPtrArgs body args s) (escapeRawPtrArgs body args t) := by
  unfold San.escapeRawPtrArgs
  induction args generalizing s t with
  | nil => exact h
  | cons arg args ih =>
      have hrest : ∀ l ∈ args.filterMap Operand.base, l ∈ L := fun l hl => by
        obtain ⟨a, ha, hb⟩ := List.mem_filterMap.mp hl
        exact hargs l (List.mem_filterMap.mpr ⟨a, List.mem_cons_of_mem arg ha, hb⟩)
      suffices hstep : ProtoSim L (escapeRawPtrArg body s arg) (escapeRawPtrArg body t arg) ∧
          HeapSim ρ L (escapeRawPtrArg body s arg) (escapeRawPtrArg body t arg) from
        ih hrest hstep.1 hstep.2
      unfold escapeRawPtrArg
      split
      · exact ⟨h, hheap⟩
      · rename_i l hl
        have hmem : l ∈ L := hargs l (List.mem_filterMap.mpr
          ⟨arg, List.mem_cons_self, operandLocal_base hl⟩)
        rw [hheap.pointers.pointsTo l hmem]
        split
        · exact ⟨h.escapeLocal l, hheap.escapeLocal hρ hmem⟩
        · exact ⟨h, hheap⟩

theorem applyParamEffect (h : ProtoSim L s t) (e : Nat × ParamHeapEffect) :
    ProtoSim L (applyParamEffect args s e) (applyParamEffect args t e) := by
  unfold San.applyParamEffect
  split
  · exact ((h.frame (s.reconstitute_writes _) (t.reconstitute_writes _)
      (by decide)).dropProto _).drop
  · exact h.escapeLocal _
  · exact h

theorem applyParamEffects (h : ProtoSim L s t) (args : List Operand)
    (es : List (Nat × ParamHeapEffect)) :
    ProtoSim L (es.foldl (San.applyParamEffect args) s)
      (es.foldl (San.applyParamEffect args) t) := by
  induction es generalizing s t with
  | nil => exact h
  | cons e es ih => exact ih (h.applyParamEffect e)

/-- **A summarised call** drops the instances of its destination, unless it mints an object. -/
theorem applyFnSummary (h : ProtoSim L s t) (body : Body) (args : List Operand) (dest : Local)
    (bb : Nat) (summary : FnSummary) :
    ProtoSim (if summary.returnsRawOwned then L else insert dest L)
      (applyFnSummary body args dest bb summary s) (applyFnSummary body args dest bb summary t) := by
  have heffects := h.applyParamEffects args summary.paramEffects
  unfold San.applyFnSummary
  dsimp only
  refine frame ?_ (returned_writes _ _ body dest _) (returned_writes _ _ body dest _) (by decide)
  split
  · exact heffects.frame (BlockState.mintRawOwned_writes _ dest bb)
      (BlockState.mintRawOwned_writes _ dest bb) (by decide)
  · exact (heffects.frame (BlockState.setObjects_writes _ dest none)
      (BlockState.setObjects_writes _ dest none) (by decide)).dropProto dest

theorem callSummarised (h : ProtoSim L s t) (body : Body) (args : List Operand) (dest : Local)
    (path : String) (bb : Nat) (summary : FnSummary) :
    ProtoSim (if summary.returnsRawOwned then L else insert dest L)
      (callSummarised body path summary args dest bb s)
      (callSummarised body path summary args dest bb t) := by
  have hpass : ∀ (u : BlockState) (c : Bool) (arg : Local), Writes [.pointsTo] u
      (if c then inheritObjects dest arg u else u) := fun u c arg =>
    .ite (inheritObjects_writes u dest arg) (.refl _ u)
  have hsummary := h.applyFnSummary body args dest bb summary
  unfold San.callSummarised
  dsimp only
  refine frame ?_ (clearScalarFacts_writes _ dest) (clearScalarFacts_writes _ dest) (by decide)
  cases firstArgLocal args with
  | none => exact hsummary
  | some arg => exact hsummary.frame (hpass _ _ arg) (hpass _ _ arg) (by decide)

include hargs in
/-- A call of an unknown function drops the instances of its destination. -/
theorem callUnknown {ρ : Option HeapState → Option HeapState → Prop} (h : ProtoSim L s t)
    (hheap : HeapSim ρ L s t) (hρ : HeapRel ρ) (dest : Local) (path : String) :
    ProtoSim (insert dest L) (callUnknown body path args dest s)
      (callUnknown body path args dest t) := by
  unfold San.callUnknown
  dsimp only
  refine frame (dropProto ?_ dest) (clearScalarFacts_writes _ dest) (clearScalarFacts_writes _ dest)
    (by decide)
  split
  · exact h.frame (inheritProvenance_writes s args dest) (inheritProvenance_writes t args dest)
      (by decide)
  · split
    · exact h.frame (markOwnersWritten_writes s _) (markOwnersWritten_writes t _) (by decide)
    · split
      · exact h.frame (markOwnersWritten_writes s _) (markOwnersWritten_writes t _) (by decide)
      · split
        · exact h
        · exact h.escapeRawPtrArgs hargs hheap hρ

theorem callFromRaw (h : ProtoSim L s t) (dest : Local) :
    ProtoSim (insert dest L) (callFromRaw args dest s) (callFromRaw args dest t) := by
  have hfree := h.frame
    (reconstituteArg_writes s ((firstArgLocal args).or (firstArgBaseLocal args)))
    (reconstituteArg_writes t ((firstArgLocal args).or (firstArgBaseLocal args))) (by decide)
  have hproto := (hfree.frame (BlockState.setObjects_writes _ dest none)
    (BlockState.setObjects_writes _ dest none) (by decide)).dropProto dest
  exact (hproto.frame (inheritOwners_writes _ _ dest) (inheritOwners_writes _ _ dest)
    (by decide)).frame (clearScalarFacts_writes _ dest) (clearScalarFacts_writes _ dest) (by decide)

/-- Forgetting an untracked guard is remembered alike. -/
theorem noteForget (h : ProtoSim L s t) (b : Bool) :
    ProtoSim L (noteForget b s) (noteForget b t) := by
  refine ⟨h.protos, h.forgotten, fun hs => ?_⟩
  have hflag : (s.untrackedForgetSeen || b) = true := hs
  show (t.untrackedForgetSeen || b) = true
  rw [Bool.or_eq_true] at hflag ⊢
  exact hflag.imp_left h.untracked

include hargs in
theorem callMemForget (h : ProtoSim L s t) (tcx : TyCtxt) (dest : Local) :
    ProtoSim (insert dest L) (callMemForget tcx body args dest s)
      (callMemForget tcx body args dest t) := by
  refine clearTracking ?_ dest
  split
  · rename_i src hsrc
    have hmem := hargs src (firstArgBaseLocal_mem hsrc)
    unfold forgetArg
    dsimp only
    rw [h.protosOf_eq hmem]
    have hescape := h.frame (escapeForever_writes s src) (escapeForever_writes t src) (by decide)
    exact ((hescape.noteForget _).releaseProtos hmem .forgotten).frame
      (clearContents_writes _ src) (clearContents_writes _ src) (by decide)
  · exact h

include hargs in
/-- **A recognised call keeps the relation**, and makes the instances of its destination agree if
its kind says which ones the result holds. -/
theorem applyCallKind {ρ : Option HeapState → Option HeapState → Prop} (h : ProtoSim L s t)
    (hheap : HeapSim ρ L s t) (hρ : HeapRel ρ) (body : Body) (tcx : TyCtxt) (path : String)
    (kind : CallKind) (dest : Local) (bb : Nat) :
    ProtoSim (if kind.settlesProtos then insert dest L else L)
      (applyCallKind tcx body path kind args dest bb s)
      (applyCallKind tcx body path kind args dest bb t) := by
  have hclear : ∀ {L : Finset Local} {s t : BlockState}, ProtoSim L s t →
      ProtoSim L (s.clearScalarFacts dest) (t.clearScalarFacts dest) := fun h =>
    h.frame (clearScalarFacts_writes _ dest) (clearScalarFacts_writes _ dest) (by decide)
  have hpass : ∀ {L : Finset Local} {s t : BlockState}, ProtoSim L s t →
      ProtoSim L (passObjects args dest s) (passObjects args dest t) := fun h =>
    h.frame (BlockState.setObjects_writes _ dest _) (BlockState.setObjects_writes _ dest _)
      (by decide)
  cases kind with
  | rawRealloc =>
      exact hclear ((h.frame (reconstituteArg_writes s _) (reconstituteArg_writes t _)
        (by decide)).frame (BlockState.mintRawOwned_writes _ dest bb)
        (BlockState.mintRawOwned_writes _ dest bb) (by decide))
  | intoRaw =>
      exact hclear (h.frame (s.mintRawOwned_writes dest bb) (t.mintRawOwned_writes dest bb)
        (by decide))
  | fromRaw => exact h.callFromRaw dest
  | memForget => exact h.callMemForget hargs tcx dest
  | guardAcquire => exact hclear (h.acquireProto dest bb)
  | assumeInit =>
      refine hclear (dropProto (hpass ?_) dest)
      split
      · exact h.frame (s.clearInit_writes _) (t.clearInit_writes _) (by decide)
      · exact h
  | maybeUninitInit =>
      exact (hclear ((hpass h).dropProto dest)).frame (BlockState.insertInit_writes _ dest)
        (BlockState.insertInit_writes _ dest) (by decide)
  | maybeUninitWrite =>
      exact hclear ((h.frame (initReceiver_writes s args) (initReceiver_writes t args)
        (by decide)).dropProto dest)
  | maybeUninitAsMutPtr =>
      exact hclear ((h.frame (pointIntoReceiver_writes s args dest)
        (pointIntoReceiver_writes t args dest) (by decide)).dropProto dest)
  | bufWrite =>
      refine clearTracking ?_ dest
      split
      · exact h.frame (s.insertMust_writes .bufWritten _) (t.insertMust_writes .bufWritten _)
          (by decide)
      · exact h
  | ptrRead => exact hclear ((hpass h).dropProto dest)
  | summarised summary =>
      have hsettles : (if (CallKind.summarised summary).settlesProtos then insert dest L else L) =
          if summary.returnsRawOwned then L else insert dest L := by
        have hkind : (CallKind.summarised summary).settlesProtos = !summary.returnsRawOwned := rfl
        rw [hkind]
        cases summary.returnsRawOwned <;> rfl
      rw [hsettles]
      exact h.callSummarised body args dest path bb summary
  | unknown => exact h.callUnknown hargs hheap hρ dest path

end CallArgs

/-- Before the callee is looked at, a call writes nothing of the instances. -/
theorem enterCall (h : ProtoSim L s t) (tcx : TyCtxt) (body : Body) (summaries : SummaryMap)
    (callee : Option DefId) (args : List Operand) (dest : Local) :
    ProtoSim L (enterCall tcx body summaries callee args dest s)
      (enterCall tcx body summaries callee args dest t) := by
  have hrealloc : ∀ (u : BlockState) (recv : Option Local), Writes
      [.maySet .reallocedParams, .heap, .pointsTo, .ownerAlias] u (reallocate body recv u) := by
    intro u recv
    cases recv with
    | none => exact .refl _ u
    | some recv =>
      exact ((u.onMaySets_writes [.reallocedParams] _).mono (by decide)).trans
        ((detachStale_writes _ _).mono (by decide))
  have hinvalid : ∀ (u : BlockState) (owners : Finset Local), Writes [.ownerAlias] u
      (((u.invalidateOwners owners).invalidateOwners {dest}).setOwners dest none) :=
    fun u owners => ((u.invalidateOwners_writes owners).trans
      (BlockState.invalidateOwners_writes _ {dest})).trans (BlockState.setOwners_writes _ dest none)
  have hstale := h.frame (hrealloc s (reallocReceiver tcx summaries callee args))
    (hrealloc t (reallocReceiver tcx summaries callee args)) (by decide)
  exact (hstale.frame (hinvalid _ _) (hinvalid _ _) (by decide)).frame
    (killCapacityArgs_writes _ body args) (killCapacityArgs_writes _ body args) (by decide)

/-- Only the destination is settled, and the kind of the call does not depend on the state. -/
theorem mem_objectSettles {tcx : TyCtxt} {body : Body} {summaries : SummaryMap} {func : Operand}
    {destination : Place} {did : DefId} (h : resolveCallee tcx body func s = some did)
    (hl : l ∈ objectSettles tcx body summaries func destination) :
    l = destination.base ∧ calledKind tcx body summaries func destination BlockState.default =
      classify (tcx.defPathStr did) (summaries.get did) := by
  unfold objectSettles at hl
  split at hl
  · rename_i item did' hconst hcallee
    have hsame : resolveCallee tcx body func BlockState.default = resolveCallee tcx body func s :=
      resolveCallee_const (by rw [hconst]; rfl) tcx body _ _
    rw [h] at hsame
    split at hl
    · rename_i hdest
      refine ⟨Finset.mem_singleton.mp hl, ?_⟩
      unfold calledKind
      rw [hsame]
      exact if_pos (Bool.and_eq_true_iff.mp hdest).1
    · exact absurd hl (Finset.notMem_empty l)
  · exact absurd hl (Finset.notMem_empty l)

/-- A settled destination is one whose kind of call settles its instances. -/
theorem union_protoSettles_subset {tcx : TyCtxt} {body : Body} {summaries : SummaryMap}
    {func : Operand} {destination : Place} {did : DefId}
    (h : resolveCallee tcx body func s = some did) (L : Finset Local) :
    L ∪ protoSettles tcx body summaries func destination ⊆
      if (classify (tcx.defPathStr did) (summaries.get did)).settlesProtos
        then insert destination.base L else L := by
  unfold protoSettles
  split
  · next hsettles =>
      intro l hl
      rcases Finset.mem_union.mp hl with hl | hl
      · split
        · exact Finset.mem_insert_of_mem hl
        · exact hl
      · obtain ⟨rfl, hkind⟩ := mem_objectSettles h hl
        rw [← hkind, if_pos hsettles]
        exact Finset.mem_insert_self _ _
  · rw [Finset.union_empty]
    split
    · exact Finset.subset_insert _ L
    · exact Finset.Subset.refl L

/-- **A call keeps the relation**, whether or not its callee is known. -/
theorem applyCall {ρ : Option HeapState → Option HeapState → Prop} (h : ProtoSim L s t)
    (hheap : HeapSim ρ L s t) (hρ : HeapRel ρ) (tcx : TyCtxt) (body : Body)
    (summaries : SummaryMap) (bb : Nat) (func : Operand) {args : List Operand}
    (hargs : ∀ l ∈ args.filterMap Operand.base, l ∈ L) (destination : Place) :
    ProtoSim (L ∪ protoSettles tcx body summaries func destination)
      (applyCall tcx body summaries bb func args destination s)
      (applyCall tcx body summaries bb func args destination t) := by
  have henter : ∀ callee, ProtoSim L
      (San.enterCall tcx body summaries callee args destination.base s)
      (San.enterCall tcx body summaries callee args destination.base t) := fun callee =>
    h.enterCall tcx body summaries callee args destination.base
  have hunsettled : objectSettles tcx body summaries func destination = ∅ →
      L ∪ protoSettles tcx body summaries func destination = L := by
    intro hnone
    have hsub := protoSettles_subset tcx body summaries func destination
    rw [hnone, Finset.subset_empty] at hsub
    rw [hsub, Finset.union_empty]
  unfold San.applyCall
  rw [hheap.resolveCallee_eq tcx body func]
  dsimp only
  cases hcallee : resolveCallee tcx body func t with
  | none =>
      rw [hunsettled (objectSettles_of_unresolved hcallee)]
      exact (henter none).escapeRawPtrArgs hargs
        (hheap.enterCall hρ tcx body summaries none args _) hρ
  | some did =>
      have hentered := hheap.enterCall hρ tcx body summaries (some did) args destination.base
      dsimp only
      split
      · have hrecord := ((henter (some did)).frame
          (BlockState.clearRedefined_writes _ destination.base)
          (BlockState.clearRedefined_writes _ destination.base) (by decide)).frame
          (recordCallFacts_writes _ (tcx.defPathStr did) args destination.base)
          (recordCallFacts_writes _ (tcx.defPathStr did) args destination.base) (by decide)
        have hrecorded := (hentered.frame (BlockState.clearRedefined_writes _ destination.base)
          (BlockState.clearRedefined_writes _ destination.base) (by decide)).frame
          (recordCallFacts_writes _ (tcx.defPathStr did) args destination.base)
          (recordCallFacts_writes _ (tcx.defPathStr did) args destination.base) (by decide)
        have hkind := hrecord.applyCallKind hargs hrecorded hρ body tcx (tcx.defPathStr did)
          (classify (tcx.defPathStr did) (summaries.get did)) destination.base bb
        exact (hkind.frame (leaveCall_writes _ tcx body _ args _)
          (leaveCall_writes _ tcx body _ args _) (by decide)).mono
            (union_protoSettles_subset hcallee L)
      · rename_i hdest
        rw [hunsettled (objectSettles_of_projected hdest)]
        exact (henter (some did)).escapeRawPtrArgs hargs hentered hρ

theorem applyDrop (h : ProtoSim L s t) {place : Place} (hplace : place.base ∈ L) :
    ProtoSim L (applyDrop place s) (applyDrop place t) := by
  unfold San.applyDrop
  split
  · have hreleased := h.releaseProtos hplace .consumed
    exact (hreleased.frame (BlockState.setObjects_writes _ place.base none)
      (BlockState.setObjects_writes _ place.base none) (by decide)).frame
      (clearContents_writes _ place.base) (clearContents_writes _ place.base) (by decide)
  · exact h

/-- **A terminator keeps the relation**, if the local it drops is one of those of interest. -/
theorem applyTerminator {ρ : Option HeapState → Option HeapState → Prop} (h : ProtoSim L s t)
    (hheap : HeapSim ρ L s t) (hρ : HeapRel ρ) (tcx : TyCtxt) {body : Body}
    (summaries : SummaryMap) (bb : Nat) {term : Terminator body.numBlocks}
    (hreads : ∀ l ∈ term.reads, l ∈ L)
    (hdropped : ∀ place target unwind, term.kind = .drop place target unwind → place.base ∈ L) :
    ProtoSim (L ∪ term.protoSettles tcx body summaries)
      (applyTerminator tcx body summaries bb term s)
      (applyTerminator tcx body summaries bb term t) := by
  have hnone : ∀ {s t : BlockState}, ProtoSim L s t → ProtoSim (L ∪ ∅) s t :=
    fun h => h.mono (Finset.union_empty L).subset
  obtain ⟨kind, span⟩ := term
  cases kind with
  | call func args destination target unwind =>
      exact h.applyCall hheap hρ tcx body summaries bb func hreads destination
  | assert cond expected target unwind =>
      exact hnone (h.frame (assertCondition_values s cond expected)
        (assertCondition_values t cond expected) (by decide))
  | drop place target unwind => exact hnone (h.applyDrop (hdropped place target unwind rfl))
  | _ => exact hnone h

end ProtoSim

/-! ## Merges -/

/-- The state of one instance after a merge. -/
abbrev mergeProto (u v : Option ProtocolState) : Option ProtocolState :=
  (Discipline.combineBy ProtocolState.join).combineOpt u v

/-- The instance is not forgotten on one side and unknown to the other. -/
def NoLoneForget (u v : Option ProtocolState) : Prop :=
  ¬ (u = some .forgotten ∧ v = none) ∧ ¬ (u = none ∧ v = some .forgotten)

instance (u v : Option ProtocolState) : Decidable (NoLoneForget u v) :=
  inferInstanceAs (Decidable (_ ∧ _))

/-- **A merge takes an instance to be forgotten** only if both sides do, exactly if no side is
alone in knowing it. -/
theorem mergeProto_forgotten_iff (u v : Option ProtocolState) :
    (mergeProto u v = some .forgotten → u = some .forgotten ∧ v = some .forgotten) ↔
      NoLoneForget u v := by
  rcases u with _ | ⟨_ | _ | _ | _⟩ <;> rcases v with _ | ⟨_ | _ | _ | _⟩ <;> decide

/-- The flag is raised on both sides of a merge or on neither. -/
theorem raiseFlag_both_iff (u v : Bool) :
    (Discipline.raiseFlag.join u v = true → u = true ∧ v = true) ↔ u = v := by
  cases u <;> cases v <;> decide

/-- What every merge of a run has to meet. -/
structure ProtoAgree (L : Finset Local) (a e : BlockState) : Prop where
  pointers : PointerAgree L a e
  protos : FMap.AgreeOn L a.localProto e.localProto
  forgotten : ∀ id, NoLoneForget (a.typestate.get id) (e.typestate.get id)
  untracked : a.untrackedForgetSeen = e.untrackedForgetSeen

/-- Only the instances that one of the states knows have to be compared. -/
instance (L : Finset Local) (a e : BlockState) : Decidable (ProtoAgree L a e) :=
  decidable_of_iff (PointerAgree L a e ∧ FMap.AgreeOn L a.localProto e.localProto ∧
      (∀ id ∈ a.typestate.keys ∪ e.typestate.keys,
        NoLoneForget (a.typestate.get id) (e.typestate.get id)) ∧
      a.untrackedForgetSeen = e.untrackedForgetSeen) <| by
    constructor
    · rintro ⟨hptr, hprotos, hkeys, hflag⟩
      refine ⟨hptr, hprotos, fun id => ?_, hflag⟩
      by_cases hid : id ∈ a.typestate.keys ∪ e.typestate.keys
      · exact hkeys id hid
      · rw [Finset.mem_union, not_or] at hid
        rw [FMap.get_eq_none_iff.mpr hid.1, FMap.get_eq_none_iff.mpr hid.2]
        decide
    · exact fun h => ⟨h.pointers, h.protos, fun id _ => h.forgotten id, h.untracked⟩

section Merges
variable {L : Finset Local} {a e p : BlockState}

theorem ProtoAgree.both (hC : ProtoAgree L a e) :
    (∀ id, (a.joined e).typestate.get id = some .forgotten →
      a.typestate.get id = some .forgotten ∧ e.typestate.get id = some .forgotten) ∧
    ((a.joined e).untrackedForgetSeen = true →
      a.untrackedForgetSeen = true ∧ e.untrackedForgetSeen = true) :=
  ⟨fun id => (mergeProto_forgotten_iff _ _).mpr (hC.forgotten id),
    (raiseFlag_both_iff _ _).mpr hC.untracked⟩

theorem ProtoAgree.joined_protos (hC : ProtoAgree L a e) :
    FMap.AgreeOn L (a.joined e).localProto a.localProto :=
  Discipline.agreeOn_growing (fun u => Finset.union_self u) hC.protos

theorem ProtoSim.joined_left (hC : ProtoAgree L a e) (h : ProtoSim L a p) :
    ProtoSim L (a.joined e) p :=
  ⟨hC.joined_protos.trans h.protos, fun id hid => h.forgotten id (hC.both.1 id hid).1,
    fun hs => h.untracked (hC.both.2 hs).1⟩

theorem ProtoSim.joined_right (hC : ProtoAgree L a e) (h : ProtoSim L e p) :
    ProtoSim L (a.joined e) p :=
  ⟨(hC.joined_protos.trans hC.protos).trans h.protos,
    fun id hid => h.forgotten id (hC.both.1 id hid).2, fun hs => h.untracked (hC.both.2 hs).2⟩

/-- A merge that reports no change leaves a state that is related already. -/
theorem ProtoSim.of_joined (hC : ProtoAgree L a e) (hch : (a.joinWith e).2 = false)
    (h : ProtoSim L (a.joined e) p) : ProtoSim L a p :=
  h.withProtos (joined_writes a hch).symm (.refl _ p) (by decide)
    (FMap.AgreeOn.trans (fun l hl => (hC.joined_protos l hl).symm) h.protos)

end Merges

/-! ## Paths -/

/-- Any two heaps are related; only the pointers count. -/
def AnyHeap (_ _ : Option HeapState) : Prop := True

theorem anyHeap_rel : HeapRel AnyHeap :=
  ⟨fun _ => trivial, fun _ _ _ => trivial, fun _ _ _ _ => trivial⟩

theorem anyHeap_merge : MergeRel AnyHeap AnyHeap :=
  ⟨fun _ _ _ _ _ => trivial, fun _ _ _ _ _ => trivial⟩

/-- Instances are settled by assignments and by calls that say what their result holds; those of
dropped locals always count. -/
def protoUsage (tcx : TyCtxt) (body : Body) (summaries : SummaryMap) : Usage body :=
  ⟨body.dropped, Terminator.protoSettles tcx body summaries⟩

/-- The relation between a merged state and a path. -/
structure LockSim (body : Body) (L : Finset Local) (s t : BlockState) : Prop where
  heap : HeapSim AnyHeap L s t
  proto : ProtoSim L s t
  tracks : Tracks body t

theorem Terminator.protoSettles_subset {n : Nat} (tcx : TyCtxt) (body : Body)
    (summaries : SummaryMap) (term : Terminator n) :
    term.protoSettles tcx body summaries ⊆ term.objectSettles tcx body summaries := by
  obtain ⟨kind, span⟩ := term
  cases kind with
  | call func args destination target unwind =>
      exact San.protoSettles_subset tcx body summaries func destination
  | _ => exact Finset.Subset.refl _

theorem lockSim_respects (tcx : TyCtxt) (body : Body) (summaries : SummaryMap) :
    (protoUsage tcx body summaries).Respects tcx summaries (LockSim body) where
  mono hL _ h := ⟨h.heap.mono hL, h.proto.mono hL, h.tracks⟩
  statement _ _ hstmt _ hreads h :=
    ⟨h.heap.applyStatement anyHeap_rel tcx body hreads, h.proto.applyStatement tcx body hreads,
      h.tracks.applyStatement tcx fun _ hl => Body.declares_of_statement hstmt hl⟩
  terminator b term hterm halways hreads h := by
    refine ⟨?_, ?_, ?_⟩
    · exact (h.heap.applyTerminator anyHeap_rel h.tracks tcx summaries b.val hreads).mono
        (Finset.union_subset_union_right (term.protoSettles_subset tcx body summaries))
    · refine h.proto.applyTerminator h.heap anyHeap_rel tcx summaries b.val hreads ?_
      intro place target unwind hkind
      have hdrop : (body.basicBlocks b).terminator =
          some ⟨.drop place target unwind, term.span⟩ := by rw [hterm, ← hkind]
      exact halways (Body.mem_dropped hdrop)
    · exact h.tracks.applyTerminator tcx summaries b fun _ hl =>
        Body.declares_of_terminator hterm hl
  edge term succ _ h :=
    ⟨h.heap.frame (refineSwitchintEdge_writes _ term succ) (refineSwitchintEdge_writes _ term succ)
      (by decide), h.proto.frame (refineSwitchintEdge_writes _ term succ)
      (refineSwitchintEdge_writes _ term succ) (by decide), h.tracks.refineSwitchintEdge term succ⟩

/-- **What is forgotten at a block is forgotten on every path to it**, in every run whose merges
agree on the pointers and instances of the locals of interest, and are not alone on either side in
knowing a forgotten guard. -/
theorem lockSim_of_path {tcx : TyCtxt} {body : Body} {summaries : SummaryMap}
    {initial : BlockState} {live : body.BasicBlock → Finset Local}
    (hlive : (protoUsage tcx body summaries).Live live) (hinit : Tracks body initial)
    (hrun : (flowProblem tcx body summaries initial).RunMeets fun b => ProtoAgree (live b))
    {b : body.BasicBlock} {s p : BlockState}
    (hs : runFixpoint tcx body summaries initial b = some s)
    (hp : (flowProblem tcx body summaries initial).PathState b p) :
    LockSim body (Usage.after (live b) (body.basicBlocks b).statements)
      (applyStatements tcx body (body.basicBlocks b).statements s)
      (applyStatements tcx body (body.basicBlocks b).statements p) := by
  have hpointers : ∀ {L : Finset Local} {a e : BlockState}, ProtoAgree L a e →
      HeapAgree AnyHeap L a e := fun hC => ⟨hC.pointers, fun _ => trivial⟩
  have hentry := (lockSim_respects tcx body summaries).solution_of_path hlive
    ⟨⟨.refl _ _, fun _ => trivial⟩, .refl _ _, hinit⟩
    (fun n a e q hC h => ⟨h.heap.joined_left anyHeap_merge (hpointers hC), h.proto.joined_left hC,
      h.tracks⟩)
    (fun n a e q hC h => ⟨h.heap.joined_right anyHeap_merge (hpointers hC),
      h.proto.joined_right hC, h.tracks⟩)
    (fun n a e q hC hch h => ⟨h.heap.of_joined (hpointers hC) hch, h.proto.of_joined hC hch,
      h.tracks⟩) hrun hs hp
  exact (lockSim_respects tcx body summaries).statements b (fun _ hx => hx) (hlive.always b)
    (hlive.statements b) hentry

end San
