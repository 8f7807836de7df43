import San.Liveness

/-! # What is initialized on every path

`init` says which `MaybeUninit` locals are initialized.  It is fed by constructors, by
`write` through a borrow (`ref_base`), and by storing every field through a raw pointer
(`mu_raw_ptr`, `mu_field_inits`).  `InitSim` relates a merged state to the state of one
path: what is initialized in the merged state at the locals that matter is initialized
on the path.  Every transfer function respects it.  Merges respect it unless a local is
initialized on one side and unknown to the other, because the join keeps a one-sided
binding (`joined_initialized_iff`).
-/
namespace San

/-! ## Initialized on one side -/

/-- Initialized on the left implies initialized on the right. -/
def InitState.Sound (u v : Option InitState) : Prop := u = some .initialized → v = some .initialized

theorem InitState.Sound.refl (u : Option InitState) : InitState.Sound u u := fun h => h

/-- Initialized on one side and unbound on the other. -/
def InitState.OneSided (u v : Option InitState) : Prop :=
  (u = some .initialized ∧ v = none) ∨ (u = none ∧ v = some .initialized)

instance (u v : Option InitState) : Decidable (InitState.OneSided u v) :=
  inferInstanceAs (Decidable (_ ∨ _))

/-- A merged binding is initialized if both sides are, or if one side is and the other
has no binding. -/
theorem InitState.combine_initialized_iff (u v : Option InitState) :
    (Discipline.combineBy InitState.join).combineOpt u v = some .initialized ↔
      (u = some .initialized ∧ v = some .initialized) ∨ InitState.OneSided u v := by
  rcases u with _ | ⟨_ | _⟩ <;> rcases v with _ | ⟨_ | _⟩ <;> decide

/-! ## The relation -/

/-- The relation between a merged state `s` and the state `t` of one path: initialized
locals are compared at `L`, borrows agree at `D`. -/
structure InitSim (L D : Finset Local) (s t : BlockState) : Prop where
  init : FMap.RelOn InitState.Sound L s.init t.init
  refBase : FMap.AgreeOn D (s.facts .refBase) (t.facts .refBase)
  fnPtrTargets : s.fnPtrTargets = t.fnPtrTargets
  muRawPtr : FMap.Within (· = ·) s.muRawPtr t.muRawPtr
  muFieldInits : FMap.Within (· ⊇ ·) s.muFieldInits t.muFieldInits

namespace InitSim
variable {L D L' D' : Finset Local} {s t s' t' : BlockState} {l dst src : Local}

theorem refl (L D : Finset Local) (s : BlockState) : InitSim L D s s :=
  ⟨fun _ _ h => h, .refl D _, rfl, .refl (fun _ => rfl) _,
    fun _ v hv => ⟨v, hv, Finset.Subset.refl v⟩⟩

theorem mono (h : InitSim L D s t) (hL : L' ⊆ L) (hD : D' ⊆ D) : InitSim L' D' s t :=
  { h with init := h.init.mono hL, refBase := h.refBase.mono hD }

/-- The fields the relation is about. -/
def fields : List Field := [.init, .fact .refBase, .fnPtrTargets, .muRawPtr, .muFieldInits]

/-- Stages that write none of these fields keep the relation. -/
theorem frame {F : List Field} (h : InitSim L D s t) (hs : Writes F s s') (ht : Writes F t t')
    (hF : ∀ f ∈ fields, f ∉ F) : InitSim L D s' t' := by
  have hinit := hF .init (by decide)
  have hrefs := hF (.fact .refBase) (by decide)
  have hfn := hF .fnPtrTargets (by decide)
  have hptr := hF .muRawPtr (by decide)
  have hfields := hF .muFieldInits (by decide)
  refine ⟨?_, ?_, ?_, ?_, ?_⟩
  · rw [show s'.init = _ from hs _ hinit, show t'.init = _ from ht _ hinit]
    exact h.init
  · rw [show s'.facts .refBase = _ from hs _ hrefs, show t'.facts .refBase = _ from ht _ hrefs]
    exact h.refBase
  · rw [show s'.fnPtrTargets = _ from hs _ hfn, show t'.fnPtrTargets = _ from ht _ hfn]
    exact h.fnPtrTargets
  · rw [show s'.muRawPtr = _ from hs _ hptr, show t'.muRawPtr = _ from ht _ hptr]
    exact h.muRawPtr
  · rw [show s'.muFieldInits = _ from hs _ hfields, show t'.muFieldInits = _ from ht _ hfields]
    exact h.muFieldInits

/-! ## Named updates -/

theorem clearInit (h : InitSim L D s t) (l : Local) :
    InitSim (insert l L) D (s.clearInit l) (t.clearInit l) :=
  { h with init := h.init.put l (.refl none) }

theorem insertInit (h : InitSim L D s t) (l : Local) :
    InitSim (insert l L) D (s.insertInit l) (t.insertInit l) :=
  { h with init := h.init.put l (.refl (some .initialized)) }

/-- The path may know more. -/
theorem insertInit_right (h : InitSim L D s t) (l : Local) : InitSim L D s (t.insertInit l) := by
  refine { h with init := fun k hk hs => ?_ }
  show (t.init.insert l .initialized).get k = _
  rw [FMap.get_insert]
  split
  · rfl
  · exact h.init k hk hs

theorem insertRefBase (h : InitSim L D s t) (l base : Local) :
    InitSim L (insert l D) (s.insertFact .refBase l base) (t.insertFact .refBase l base) :=
  { h with refBase := h.refBase.insert l base }

theorem setMuPtr (h : InitSim L D s t) (ptr mu : Local) :
    InitSim L D (setMuPtr ptr mu s) (setMuPtr ptr mu t) :=
  { h with muRawPtr := h.muRawPtr.insert ptr rfl }

theorem derefBase_eq (h : InitSim L D s t) (hl : l ∈ D) : s.derefBase l = t.derefBase l := by
  unfold BlockState.derefBase
  rw [h.refBase l hl]

theorem clearScalarFacts (h : InitSim L D s t) (l : Local) :
    InitSim (insert l L) D (s.clearScalarFacts l) (t.clearScalarFacts l) := by
  have hcompare := (h.clearInit l).frame (BlockState.onFacts_writes _ Fact.comparisons (·.erase l))
    (BlockState.onFacts_writes _ Fact.comparisons (·.erase l)) (by decide)
  exact hcompare.frame (BlockState.onMustSets_writes _ MustSet.scalar (·.erase l))
    (BlockState.onMustSets_writes _ MustSet.scalar (·.erase l)) (by decide)

/-- New objects and no protocol for `dst`, whose scalar facts are cleared. -/
theorem resetTo (h : InitSim L D s t) (dst : Local) (o o' : Option (Finset ObjectId)) :
    InitSim (insert dst L) D (((s.setObjects dst o).dropProto dst).clearScalarFacts dst)
      (((t.setObjects dst o').dropProto dst).clearScalarFacts dst) := by
  have hobjs := h.frame (s.setObjects_writes dst o) (t.setObjects_writes dst o') (by decide)
  exact (hobjs.frame (BlockState.dropProto_writes _ dst) (BlockState.dropProto_writes _ dst)
    (by decide)).clearScalarFacts dst

theorem clearTracking (h : InitSim L D s t) (l : Local) :
    InitSim (insert l L) D (clearTracking l s) (clearTracking l t) := h.resetTo l none none

/-- **A redefinition makes the borrows of its local agree.** -/
theorem clearRedefined (h : InitSim L D s t) (l : Local) :
    InitSim L (insert l D) (s.clearRedefined l) (t.clearRedefined l) := by
  have hkept : ∀ f ∈ [Field.init, .fnPtrTargets, .muRawPtr, .muFieldInits],
      ∀ u : BlockState, f.Same u (u.clearRedefined l) :=
    fun f hf u => u.clearRedefined_writes l f (by revert f; decide)
  have hinit := hkept .init (by decide)
  have hfn := hkept .fnPtrTargets (by decide)
  have hptr := hkept .muRawPtr (by decide)
  have hfields := hkept .muFieldInits (by decide)
  refine ⟨?_, ?_, ?_, ?_, ?_⟩
  · rw [show BlockState.init _ = _ from hinit s, show BlockState.init _ = _ from hinit t]
    exact h.init
  · rw [s.clearRedefined_facts, t.clearRedefined_facts, if_pos (by decide), if_pos (by decide)]
    exact h.refBase.erase l
  · rw [show BlockState.fnPtrTargets _ = _ from hfn s, show BlockState.fnPtrTargets _ = _ from hfn t]
    exact h.fnPtrTargets
  · rw [show BlockState.muRawPtr _ = _ from hptr s, show BlockState.muRawPtr _ = _ from hptr t]
    exact h.muRawPtr
  · rw [show BlockState.muFieldInits _ = _ from hfields s,
      show BlockState.muFieldInits _ = _ from hfields t]
    exact h.muFieldInits

/-! ## Statements -/

theorem clearParts (h : InitSim L D s t) (l : Local) :
    InitSim L D (s.clearParts l) (t.clearParts l) :=
  { h with
    muRawPtr := h.muRawPtr.erase l
    muFieldInits := h.muFieldInits.erase l }

theorem clearAssigned (h : InitSim L D s t) (l : Local) :
    InitSim L D (s.clearAssigned l) (t.clearAssigned l) := by
  have hmarks := h.frame
    (s.onMaySets_writes [.constPtrCast, .mulOverflow, .layoutOverflow] (·.erase l))
    (t.onMaySets_writes [.constPtrCast, .mulOverflow, .layoutOverflow] (·.erase l)) (by decide)
  have hparts := hmarks.clearParts l
  exact hparts.frame (BlockState.clearFieldOwnedFor_writes _ l)
    (BlockState.clearFieldOwnedFor_writes _ l) (by decide)

theorem updateFnPtrTarget (h : InitSim L D s t) (dst : Local) (rvalue : Rvalue) :
    InitSim L D (updateFnPtrTarget dst rvalue s) (updateFnPtrTarget dst rvalue t) := by
  have htarget : rvalueFnTarget rvalue s = rvalueFnTarget rvalue t := by
    unfold rvalueFnTarget
    rw [h.fnPtrTargets]
  refine { h with fnPtrTargets := ?_ }
  show s.fnPtrTargets.put dst _ = t.fnPtrTargets.put dst _
  rw [htarget, h.fnPtrTargets]

theorem recordRefBase (h : InitSim L D s t) (dst : Local) (rvalue : Rvalue) :
    InitSim L D (recordRefBase dst rvalue s) (recordRefBase dst rvalue t) := by
  have hinsert : ∀ base, InitSim L D (s.insertFact .refBase dst base)
      (t.insertFact .refBase dst base) := fun base =>
    (h.insertRefBase dst base).mono (Finset.Subset.refl L) (Finset.subset_insert dst D)
  unfold San.recordRefBase
  split
  · exact hinsert _
  · exact hinsert _
  · exact h

theorem propagateUse (h : InitSim L D s t) (src dst : Local) (isMove : Bool) :
    InitSim L D (propagateUse src dst isMove s) (propagateUse src dst isMove t) := by
  have hsets := h.frame (s.onMustSets_writes MustSet.derived (propagateSet src dst isMove))
    (t.onMustSets_writes MustSet.derived (propagateSet src dst isMove)) (by decide)
  have hmarks := hsets.frame
    (BlockState.onMaySets_writes _ [.fdConsumed, .mulOverflow, .layoutOverflow]
      (propagateSet src dst isMove))
    (BlockState.onMaySets_writes _ [.fdConsumed, .mulOverflow, .layoutOverflow]
      (propagateSet src dst isMove)) (by decide)
  have horigin := hmarks.frame
    (BlockState.onFacts_writes _ [.castOrigin] (propagateMap src dst isMove))
    (BlockState.onFacts_writes _ [.castOrigin] (propagateMap src dst isMove)) (by decide)
  exact { horigin with
    muRawPtr := within_transferMap horigin.muRawPtr src dst isMove
    muFieldInits := within_transferMap horigin.muFieldInits src dst isMove }

theorem propagateRvalue (h : InitSim L D s t) (dst : Local) (rvalue : Rvalue) :
    InitSim L D (propagateRvalue dst rvalue s) (propagateRvalue dst rvalue t) := by
  unfold San.propagateRvalue
  split
  · split
    · exact h.propagateUse _ dst true
    · exact h
  · split
    · exact h.propagateUse _ dst false
    · exact h
  · exact h

/-- Carrying comparison facts and scalar facts over does not touch `init`. -/
theorem carryScalars (h : InitSim L D s t) (f : FMap Local Local → FMap Local Local)
    (g k : Finset Local → Finset Local) :
    InitSim L D
      (((s.onFacts Fact.comparisons f).onMustSets MustSet.scalar g).onMaySets [.constPtrCast] k)
      (((t.onFacts Fact.comparisons f).onMustSets MustSet.scalar g).onMaySets
        [.constPtrCast] k) :=
  h.frame (carryScalars_writes s f g k) (carryScalars_writes t f g k) (by decide)

theorem assignMove (h : InitSim L D s t) (hsrc : src ∈ L) (dst : Local) :
    InitSim (insert dst L) D (assignMove src dst s) (assignMove src dst t) := by
  have hmoved : InitSim (insert dst L) D (moveTracked src dst s) (moveTracked src dst t) :=
    { h with init := h.init.moveKey (.refl none) hsrc dst }
  exact hmoved.carryScalars _ _ _

theorem assignCopy (h : InitSim L D s t) (hsrc : src ∈ L) (dst : Local) :
    InitSim (insert dst L) D (assignCopy src dst s) (assignCopy src dst t) := by
  have hcopied : InitSim (insert dst L) D (copyTracked src dst s) (copyTracked src dst t) :=
    { h with init := h.init.copyKey hsrc dst }
  exact hcopied.carryScalars _ _ _

/-! ### Other assignments -/

theorem assignConstant (h : InitSim L D s t) (c : Const) (dst : Local) :
    InitSim (insert dst L) D (assignConstant c dst s) (assignConstant c dst t) :=
  (h.frame (constantFacts_writes s c dst) (constantFacts_writes t c dst) (by decide)).resetTo
    dst none none

theorem assignFieldRead (h : InitSim L D s t) (src : Place) (dst : Local) :
    InitSim (insert dst L) D (assignFieldRead src dst s) (assignFieldRead src dst t) :=
  (h.resetTo dst _ _).frame (BlockState.onMaySets_writes _ [.mulOverflow] _)
    (BlockState.onMaySets_writes _ [.mulOverflow] _) (by decide)

theorem assignAggregate (h : InitSim L D s t) (tcx : TyCtxt) (kind : AggregateKind)
    (operands : List Operand) (dst : Local) :
    InitSim (insert dst L) D (assignAggregate tcx kind operands dst s)
      (assignAggregate tcx kind operands dst t) :=
  (h.resetTo dst _ _).frame (aggregateKind_writes _ tcx kind operands dst)
    (aggregateKind_writes _ tcx kind operands dst) (by decide)

theorem assignPtrCast (h : InitSim L D s t) (body : Body) (src dst : Local) (ty : Ty) :
    InitSim (insert dst L) D (assignPtrCast body src dst ty s)
      (assignPtrCast body src dst ty t) := by
  have hmark : ∀ (u : BlockState) (c : Prop) [Decidable c], Writes Field.taints u
      (if c then u.insertMay .constPtrCast dst else u) := fun u c _ =>
    .ite ((u.insertMay_writes _ _).mono (by decide)) (.refl _ u)
  have hobjs := h.frame (s.setObjects_writes dst (s.pointsTo.get src))
    (t.setObjects_writes dst (t.pointsTo.get src)) (by decide)
  have hcast := hobjs.frame (hmark _ (ty.isMutPtr ∧ ((body.localTy src).isConstPtr ∨
      src ∈ (s.setObjects dst (s.pointsTo.get src)).maySets .constPtrCast)))
    (hmark _ (ty.isMutPtr ∧ ((body.localTy src).isConstPtr ∨
      src ∈ (t.setObjects dst (t.pointsTo.get src)).maySets .constPtrCast))) (by decide)
  exact (hcast.frame (BlockState.dropProto_writes _ dst) (BlockState.dropProto_writes _ dst)
    (by decide)).clearScalarFacts dst

theorem assignUnknown (h : InitSim L D s t) (rvalue : Rvalue) (dst : Local) :
    InitSim (insert dst L) D (assignUnknown rvalue dst s) (assignUnknown rvalue dst t) := by
  have hclear := h.clearTracking dst
  unfold San.assignUnknown
  dsimp only
  split
  · split
    · exact hclear
    · rename_i src _
      exact ((hclear.frame (consumeField_writes _ src) (consumeField_writes _ src)
        (by decide)).clearTracking src.base).mono (Finset.subset_insert _ _) (Finset.Subset.refl D)
  · exact hclear

theorem assignBinaryOp (h : InitSim L D s t) (body : Body) (op : BinOp) (op1 op2 : Operand)
    (dst : Local) :
    InitSim (insert dst L) D (assignBinaryOp body op op1 op2 dst s)
      (assignBinaryOp body op op1 op2 dst t) := by
  have hobjs := h.frame (s.setObjects_writes dst (offsetObjects op op1 op2 s))
    (t.setObjects_writes dst (offsetObjects op op1 op2 t)) (by decide)
  have hproto := hobjs.frame (BlockState.dropProto_writes _ dst) (BlockState.dropProto_writes _ dst)
    (by decide)
  have hscalar := (hproto.clearInit dst).frame
    (BlockState.onMustSets_writes _ MustSet.scalar (·.erase dst))
    (BlockState.onMustSets_writes _ MustSet.scalar (·.erase dst)) (by decide)
  exact hscalar.frame (recordBinaryOp_writes _ body op op1 op2 dst)
    (recordBinaryOp_writes _ body op op1 op2 dst) (by decide)

/-- **An assignment to a whole local** settles whether the local is initialized, except for a
numeric cast, which leaves it as it was. -/
theorem assignRvalue (h : InitSim L D s t) (tcx : TyCtxt) (body : Body) (dst : Local)
    {rvalue : Rvalue} (hreads : ∀ l ∈ rvalue.reads, l ∈ L) :
    InitSim (rvalue.settling dst L) D (assignRvalue tcx body dst rvalue s)
      (assignRvalue tcx body dst rvalue t) := by
  have hall : ∀ {s t : BlockState}, InitSim (insert dst L) D s t →
      InitSim (rvalue.settling dst L) D s t := fun h =>
    h.mono (rvalue.settling_subset dst L) (Finset.Subset.refl D)
  unfold San.assignRvalue
  split
  · exact hall (h.assignConstant _ dst)
  · split
    · exact hall (h.assignMove (hreads _ (List.mem_singleton.mpr rfl)) dst)
    · split
      · exact hall (h.assignFieldRead _ dst)
      · exact hall (h.assignUnknown _ dst)
  · split
    · exact hall (h.assignCopy (hreads _ (List.mem_singleton.mpr rfl)) dst)
    · split
      · exact hall (h.assignFieldRead _ dst)
      · exact hall (h.assignUnknown _ dst)
  · exact hall (h.resetTo dst _ _)
  · exact hall (h.resetTo dst _ _)
  · exact hall (h.resetTo dst _ _)
  · exact hall (h.assignAggregate tcx _ _ dst)
  · rename_i kind op ty
    cases hop : operandLocal op with
    | none => exact hall (h.assignUnknown _ dst)
    | some src =>
        dsimp only
        split
        · exact hall (h.assignPtrCast body src dst ty)
        · split
          · rename_i hnum
            have hkeeps : (Rvalue.cast kind op ty).keepsFacts = true := by
              simp [Rvalue.keepsFacts, hop, hnum]
            rw [Rvalue.settling_of_keeps hkeeps]
            exact h.frame (assignNumericCast_writes s kind src dst ty)
              (assignNumericCast_writes t kind src dst ty) (by decide)
          · exact hall (h.assignUnknown _ dst)
  · exact hall (h.assignBinaryOp body _ _ _ dst)
  · exact hall (h.assignUnknown _ dst)

theorem assignLocal (h : InitSim L L s t) (tcx : TyCtxt) (body : Body) (dst : Local)
    {rvalue : Rvalue} (hreads : ∀ l ∈ rvalue.reads, l ∈ L) :
    InitSim (rvalue.settling dst L) (insert dst L) (assignLocal tcx body dst rvalue s)
      (assignLocal tcx body dst rvalue t) := by
  have howners : InitSim L L (updateOwnerAlias body dst rvalue s)
      (updateOwnerAlias body dst rvalue t) :=
    h.frame (s.setOwners_writes dst _) (t.setOwners_writes dst _) (by decide)
  have hcleared := ((howners.updateFnPtrTarget dst rvalue).clearRedefined dst).clearAssigned dst
  have hprop := (hcleared.recordRefBase dst rvalue).propagateRvalue dst rvalue
  have hlen := hprop.frame (recordLenOf_writes _ dst rvalue) (recordLenOf_writes _ dst rvalue)
    (by decide)
  exact (hlen.assignRvalue tcx body dst hreads).frame (enforceTypeFacts_writes _ tcx dst _)
    (enforceTypeFacts_writes _ tcx dst _) (by decide)

/-- The path records the fields that the merged state does. -/
theorem setMuFields (h : InitSim L D s t) (mu : Local) {written written' : Finset FieldIdx}
    (hsub : written ⊆ written') :
    InitSim L D (setMuFields mu written s) (setMuFields mu written' t) :=
  { h with muFieldInits := h.muFieldInits.insert mu hsub }

theorem setMuFields_right (h : InitSim L D s t) (mu : Local) {written' : Finset FieldIdx}
    (hsub : (t.muFieldInits.get mu).getD ∅ ⊆ written') :
    InitSim L D s (San.setMuFields mu written' t) := by
  refine { h with muFieldInits := h.muFieldInits.insert_right mu fun v hv => ?_ }
  obtain ⟨w, hw, hvw⟩ := h.muFieldInits mu v hv
  rw [hw] at hsub
  exact hvw.trans hsub

theorem muFields_subset (h : InitSim L D s t) (mu : Local) :
    (s.muFieldInits.get mu).getD ∅ ⊆ (t.muFieldInits.get mu).getD ∅ := by
  cases hs : s.muFieldInits.get mu with
  | none => exact Finset.empty_subset _
  | some written =>
      obtain ⟨written', ht, hsub⟩ := h.muFieldInits mu written hs
      rw [ht]
      exact hsub

/-- **Field completion.**  When the merged state has seen every field of a `MaybeUninit`
written, so has the path. -/
theorem writeMaybeUninitField (h : InitSim L D s t) (body : Body) (dst : Place) :
    InitSim L D (writeMaybeUninitField body dst s) (writeMaybeUninitField body dst t) := by
  unfold San.writeMaybeUninitField
  cases lastSimpleFieldIdx dst.projection with
  | none => exact h
  | some f =>
      cases structFields (body.localTy dst.base) with
      | none => cases s.muRawPtr.get dst.base <;> cases t.muRawPtr.get dst.base <;> exact h
      | some n =>
          cases hs : s.muRawPtr.get dst.base with
          | some mu =>
              obtain ⟨_, ht, hmu⟩ := h.muRawPtr dst.base mu hs
              have hsub := Finset.insert_subset_insert f (h.muFields_subset mu)
              rw [ht, hmu]
              dsimp only
              split
              · rename_i hcard
                rw [if_pos (hcard.trans (Finset.card_le_card hsub))]
                exact ((h.setMuFields mu hsub).insertInit mu).mono (Finset.subset_insert mu L)
                  (Finset.Subset.refl D)
              · split
                · exact (h.setMuFields mu hsub).insertInit_right mu
                · exact h.setMuFields mu hsub
          | none =>
              cases t.muRawPtr.get dst.base with
              | none => exact h
              | some mu =>
                  have hfields := h.setMuFields_right mu (Finset.subset_insert f _)
                  dsimp only
                  split
                  · exact hfields.insertInit_right mu
                  · exact hfields

/-- **A statement respects the relation.** -/
theorem applyStatement (h : InitSim L L s t) (tcx : TyCtxt) (body : Body) {stmt : Statement}
    (hreads : ∀ l ∈ stmt.reads, l ∈ L) :
    InitSim (L ∪ stmt.settles) (L ∪ stmt.settles) (applyStatement tcx body stmt s)
      (applyStatement tcx body stmt t) := by
  obtain ⟨kind, span⟩ := stmt
  cases kind with
  | other => exact h.mono (Finset.union_empty L).subset (Finset.union_empty L).subset
  | assign dst rvalue =>
      have hinvalid := h.frame (s.invalidateOwners_writes {dst.base})
        (t.invalidateOwners_writes {dst.base}) (by decide)
      unfold San.applyStatement Statement.settles
      dsimp only
      cases hdst : dst.isLocal with
      | false =>
          have hstore := hinvalid.frame (storeObjects_writes _ dst rvalue)
            (storeObjects_writes _ dst rvalue) (by decide)
          have hvariant := hstore.frame (setUnionField_writes _ tcx body dst)
            (setUnionField_writes _ tcx body dst) (by decide)
          exact (hvariant.writeMaybeUninitField body dst).mono (Finset.union_empty L).subset
            (Finset.union_empty L).subset
      | true =>
          have hassign := hinvalid.assignLocal tcx body dst.base fun l hl =>
            hreads l (List.mem_append_left _ hl)
          exact hassign.mono (union_settles_subset_settling L dst.base rvalue)
            ((union_settles_subset_settling L dst.base rvalue).trans (rvalue.settling_subset _ L))

/-! ## Calls -/

theorem resolveCallee_eq (h : InitSim L D s t) (tcx : TyCtxt) (body : Body) (func : Operand) :
    resolveCallee tcx body func s = resolveCallee tcx body func t := by
  unfold resolveCallee
  rw [h.fnPtrTargets]

theorem enterCall (h : InitSim L D s t) (tcx : TyCtxt) (body : Body) (summaries : SummaryMap)
    (callee : Option DefId) (args : List Operand) (dest : Local) :
    InitSim L D (enterCall tcx body summaries callee args dest s)
      (enterCall tcx body summaries callee args dest t) := by
  obtain ⟨s₁, hs, hseq⟩ := enterCall_eq s tcx body summaries callee args dest
  obtain ⟨t₁, ht, hteq⟩ := enterCall_eq t tcx body summaries callee args dest
  rw [hseq, hteq]
  exact (h.frame hs ht (by decide)).frame (killCapacityArgs_writes s₁ body args)
    (killCapacityArgs_writes t₁ body args) (by decide)

section CallArgs
variable {args : List Operand} (hargs : ∀ l ∈ args.filterMap Operand.base, l ∈ D) (dest : Local)
include hargs

theorem recordDeref (h : InitSim L D s t) (path : String) :
    InitSim L D (recordDeref path args dest s) (recordDeref path args dest t) := by
  unfold San.recordDeref
  split
  · unfold San.recordReceiver
    split
    · rename_i recv hrecv
      rw [h.derefBase_eq (hargs recv (nthArgLocal_mem hrecv))]
      exact (h.insertRefBase dest _).mono (Finset.Subset.refl L) (Finset.subset_insert dest D)
    · exact h
  · exact h

/-- Of what the name of the callee says, only a `deref` matters here. -/
theorem recordCallFacts (h : InitSim L D s t) (path : String) :
    InitSim L D (recordCallFacts path args dest s) (recordCallFacts path args dest t) := by
  have hspawn : ∀ u : BlockState, Writes Field.taints u
      (if isThreadSpawn path then markSpawned u else u) := fun u =>
    .ite ((markSpawned_writes u).mono (by decide)) (.refl _ u)
  have hlen := h.frame (recordLength_writes s path args dest) (recordLength_writes t path args dest)
    (by decide)
  have hfinite := hlen.frame (recordFiniteness_writes _ path args dest)
    (recordFiniteness_writes _ path args dest) (by decide)
  have hfd := (hfinite.recordDeref hargs dest path).frame (recordFd_writes _ path args dest)
    (recordFd_writes _ path args dest) (by decide)
  exact (hfd.frame (hspawn _) (hspawn _) (by decide)).frame
    (recordPartialEq_writes _ path args dest) (recordPartialEq_writes _ path args dest) (by decide)

/-- `MaybeUninit::write` initializes the same local in both states. -/
theorem callMaybeUninitWrite (h : InitSim L D s t) :
    InitSim (insert dest L) D (callMaybeUninitWrite args dest s)
      (callMaybeUninitWrite args dest t) := by
  have hwrite : InitSim L D (initReceiver args s) (initReceiver args t) := by
    unfold initReceiver
    split
    · rename_i selfRef hself
      rw [h.derefBase_eq (hargs selfRef (nthArgLocal_mem hself))]
      exact (h.insertInit _).mono (Finset.subset_insert _ L) (Finset.Subset.refl D)
    · exact h
  exact (hwrite.frame (BlockState.dropProto_writes _ dest) (BlockState.dropProto_writes _ dest)
    (by decide)).clearScalarFacts dest

theorem callMaybeUninitAsMutPtr (h : InitSim L D s t) :
    InitSim (insert dest L) D (callMaybeUninitAsMutPtr args dest s)
      (callMaybeUninitAsMutPtr args dest t) := by
  have hptr : InitSim L D (pointIntoReceiver args dest s) (pointIntoReceiver args dest t) := by
    unfold pointIntoReceiver
    split
    · rename_i selfRef hself
      rw [h.derefBase_eq (hargs selfRef (nthArgLocal_mem hself))]
      exact h.setMuPtr dest _
    · exact h
  exact (hptr.frame (BlockState.dropProto_writes _ dest) (BlockState.dropProto_writes _ dest)
    (by decide)).clearScalarFacts dest

end CallArgs

theorem clearContents (h : InitSim L D s t) (l : Local) :
    InitSim (insert l L) D (clearContents l s) (clearContents l t) :=
  (h.clearInit l).frame (BlockState.onMustSets_writes _ [.bufWritten] (·.erase l))
    (BlockState.onMustSets_writes _ [.bufWritten] (·.erase l)) (by decide)

theorem forgetArg (h : InitSim L D s t) (tcx : TyCtxt) (body : Body) (src : Local) :
    InitSim (insert src L) D (forgetArg tcx body src s) (forgetArg tcx body src t) := by
  have hescape := h.frame (escapeForever_writes s src) (escapeForever_writes t src) (by decide)
  have hnote : ∀ b b', InitSim L D (noteForget b (escapeForever src s))
      (noteForget b' (escapeForever src t)) := fun b b' =>
    hescape.frame (noteForget_writes _ b) (noteForget_writes _ b') (by decide)
  exact ((hnote _ _).frame (releaseProtos_writes _ src .forgotten)
    (releaseProtos_writes _ src .forgotten)
    (by decide)).clearContents src

/-- **A recognised call settles whether its destination is initialized.** -/
theorem applyCallKind (h : InitSim L D s t) (tcx : TyCtxt) (body : Body) (path : String)
    (kind : CallKind) {args : List Operand} (hargs : ∀ l ∈ args.filterMap Operand.base, l ∈ D)
    (dest : Local) (bb : Nat) :
    InitSim (insert dest L) D (applyCallKind tcx body path kind args dest bb s)
      (applyCallKind tcx body path kind args dest bb t) := by
  have hkeep : ∀ {l : Local} {s t : BlockState}, InitSim (insert l L) D s t → InitSim L D s t :=
    fun h => h.mono (Finset.subset_insert _ L) (Finset.Subset.refl D)
  cases kind with
  | rawRealloc =>
      have hfree := h.frame (reconstituteArg_writes s (firstArgLocal args))
        (reconstituteArg_writes t (firstArgLocal args)) (by decide)
      exact (hfree.frame (BlockState.mintRawOwned_writes _ dest bb)
        (BlockState.mintRawOwned_writes _ dest bb) (by decide)).clearScalarFacts dest
  | intoRaw =>
      exact (h.frame (s.mintRawOwned_writes dest bb) (t.mintRawOwned_writes dest bb)
        (by decide)).clearScalarFacts dest
  | fromRaw =>
      have hfree := h.frame
        (reconstituteArg_writes s ((firstArgLocal args).or (firstArgBaseLocal args)))
        (reconstituteArg_writes t ((firstArgLocal args).or (firstArgBaseLocal args))) (by decide)
      have hobjs := hfree.frame (BlockState.setObjects_writes _ dest none)
        (BlockState.setObjects_writes _ dest none) (by decide)
      have hproto := hobjs.frame (BlockState.dropProto_writes _ dest)
        (BlockState.dropProto_writes _ dest) (by decide)
      exact (hproto.frame (inheritOwners_writes _ _ dest) (inheritOwners_writes _ _ dest)
        (by decide)).clearScalarFacts dest
  | memForget =>
      refine clearTracking ?_ dest
      split
      · exact hkeep (h.forgetArg tcx body _)
      · exact h
  | guardAcquire =>
      exact (h.frame (acquireProto_writes s dest bb) (acquireProto_writes t dest bb)
        (by decide)).clearScalarFacts dest
  | assumeInit =>
      refine resetTo ?_ dest _ _
      split
      · exact hkeep (h.clearInit _)
      · exact h
  | maybeUninitInit =>
      exact ((h.resetTo dest _ _).insertInit dest).mono
        (Finset.subset_insert dest _) (Finset.Subset.refl D)
  | maybeUninitWrite => exact h.callMaybeUninitWrite hargs dest
  | maybeUninitAsMutPtr => exact h.callMaybeUninitAsMutPtr hargs dest
  | bufWrite =>
      refine clearTracking ?_ dest
      split
      · exact h.frame (s.insertMust_writes .bufWritten _) (t.insertMust_writes .bufWritten _)
          (by decide)
      · exact h
  | ptrRead => exact h.resetTo dest _ _
  | summarised summary =>
      obtain ⟨s₁, hs, hseq⟩ := callSummarised_clears s body path summary args dest bb
      obtain ⟨t₁, ht, hteq⟩ := callSummarised_clears t body path summary args dest bb
      unfold San.applyCallKind
      dsimp only
      rw [hseq, hteq]
      exact (h.frame hs ht (by decide)).clearScalarFacts dest
  | unknown =>
      obtain ⟨s₁, hs, hseq⟩ := callUnknown_clears s body path args dest
      obtain ⟨t₁, ht, hteq⟩ := callUnknown_clears t body path args dest
      unfold San.applyCallKind
      dsimp only
      rw [hseq, hteq]
      exact (h.frame hs ht (by decide)).clearScalarFacts dest

/-- **A call respects the relation**, whether or not its callee is known. -/
theorem applyCall (h : InitSim L L s t) (tcx : TyCtxt) (body : Body) (summaries : SummaryMap)
    (bb : Nat) (func : Operand) {args : List Operand}
    (hargs : ∀ l ∈ args.filterMap Operand.base, l ∈ L) (destination : Place) :
    InitSim (L ∪ callSettles func destination) (L ∪ callSettles func destination)
      (applyCall tcx body summaries bb func args destination s)
      (applyCall tcx body summaries bb func args destination t) := by
  have henter := h.enterCall tcx body summaries (resolveCallee tcx body func t) args
    destination.base
  have hopaque := henter.frame (escapeRawPtrArgs_writes _ body args)
    (escapeRawPtrArgs_writes _ body args) (by decide)
  have hsub := union_callSettles_subset L func destination
  unfold San.applyCall
  rw [h.resolveCallee_eq tcx body func]
  dsimp only
  cases hcallee : resolveCallee tcx body func t with
  | none =>
      rw [hcallee] at hopaque
      rw [callSettles_of_unresolved hcallee, Finset.union_empty]
      exact hopaque
  | some did =>
      rw [hcallee] at henter hopaque
      dsimp only
      split
      · have hargs' : ∀ l ∈ args.filterMap Operand.base, l ∈ insert destination.base L :=
          fun l hl => Finset.mem_insert_of_mem (hargs l hl)
        have hrecord := (henter.clearRedefined destination.base).recordCallFacts hargs'
          destination.base (tcx.defPathStr did)
        have hkind := hrecord.applyCallKind tcx body (tcx.defPathStr did)
          (classify (tcx.defPathStr did) (summaries.get did)) hargs' destination.base bb
        exact (hkind.frame (leaveCall_writes _ tcx body _ args _)
          (leaveCall_writes _ tcx body _ args _) (by decide)).mono hsub hsub
      · rename_i hdest
        rw [callSettles_of_projected hdest, Finset.union_empty]
        exact hopaque

theorem applyDrop (h : InitSim L D s t) (place : Place) :
    InitSim L D (applyDrop place s) (applyDrop place t) := by
  unfold San.applyDrop
  split
  · have hrelease := h.frame (releaseProtos_writes s place.base .consumed)
      (releaseProtos_writes t place.base .consumed) (by decide)
    have hobjs := hrelease.frame (BlockState.setObjects_writes _ place.base none)
      (BlockState.setObjects_writes _ place.base none) (by decide)
    exact (hobjs.clearContents place.base).mono (Finset.subset_insert _ L) (Finset.Subset.refl D)
  · exact h

/-- **A terminator respects the relation.** -/
theorem applyTerminator {body : Body} (h : InitSim L L s t) (tcx : TyCtxt)
    (summaries : SummaryMap) (bb : Nat) {term : Terminator body.numBlocks}
    (hreads : ∀ l ∈ term.reads, l ∈ L) :
    InitSim (L ∪ term.settles) (L ∪ term.settles) (applyTerminator tcx body summaries bb term s)
      (applyTerminator tcx body summaries bb term t) := by
  have hnone : ∀ {s t : BlockState}, InitSim L L s t → InitSim (L ∪ ∅) (L ∪ ∅) s t :=
    fun h => h.mono (Finset.union_empty L).subset (Finset.union_empty L).subset
  obtain ⟨kind, span⟩ := term
  cases kind with
  | call func args destination target unwind =>
      exact h.applyCall tcx body summaries bb func hreads destination
  | assert cond expected target unwind =>
      exact hnone (h.frame (assertCondition_values s cond expected)
        (assertCondition_values t cond expected) (by decide))
  | drop place target unwind => exact hnone (h.applyDrop place)
  | _ => exact hnone h

end InitSim

/-! ## Merges -/

/-- What a merge has to meet at the locals `L` to keep initialization a fact about all
paths. -/
structure InitAgree (L : Finset Local) (a e : BlockState) : Prop where
  refBase : FMap.AgreeOn L (a.facts .refBase) (e.facts .refBase)
  fnPtrTargets : a.fnPtrTargets = e.fnPtrTargets
  init : ∀ m ∈ L, ¬ InitState.OneSided (a.init.get m) (e.init.get m)

instance (L : Finset Local) (a e : BlockState) : Decidable (InitAgree L a e) :=
  decidable_of_iff (FMap.AgreeOn L (a.facts .refBase) (e.facts .refBase) ∧
      a.fnPtrTargets = e.fnPtrTargets ∧
      ∀ m ∈ L, ¬ InitState.OneSided (a.init.get m) (e.init.get m))
    ⟨fun ⟨hrefs, hfn, hinit⟩ => ⟨hrefs, hfn, hinit⟩,
      fun h => ⟨h.refBase, h.fnPtrTargets, h.init⟩⟩

section Merges
variable {L : Finset Local} {a e p : BlockState} {m : Local}

/-- What is initialized after a merge is initialized on both sides or on one side only. -/
theorem joined_init (h : (a.joined e).init.get m = some .initialized) :
    (a.init.get m = some .initialized ∧ e.init.get m = some .initialized) ∨
      InitState.OneSided (a.init.get m) (e.init.get m) :=
  (InitState.combine_initialized_iff _ _).mp h

theorem InitAgree.both (hC : InitAgree L a e) (hm : m ∈ L)
    (h : (a.joined e).init.get m = some .initialized) :
    a.init.get m = some .initialized ∧ e.init.get m = some .initialized :=
  (joined_init h).resolve_right (hC.init m hm)

theorem InitAgree.refBase_joined (hC : InitAgree L a e) :
    FMap.AgreeOn L ((a.joined e).facts .refBase) (a.facts .refBase) :=
  Discipline.agreeOn_growing (fun _ => rfl) hC.refBase

theorem InitAgree.fnPtrTargets_joined (hC : InitAgree L a e) :
    (a.joined e).fnPtrTargets = a.fnPtrTargets := by
  show Disciplines.agreement.join a.fnPtrTargets e.fnPtrTargets = a.fnPtrTargets
  rw [← hC.fnPtrTargets]
  exact agreement_lawful.self _

theorem muFieldInits_joined (a e : BlockState) :
    FMap.Within (· ⊇ ·) (a.joined e).muFieldInits a.muFieldInits ∧
      FMap.Within (· ⊇ ·) (a.joined e).muFieldInits e.muFieldInits :=
  ⟨Discipline.within_weaken_left (j := (· ∩ ·)) (fun _ _ => Finset.inter_subset_left) _ _,
    Discipline.within_weaken_right (j := (· ∩ ·)) (fun _ _ => Finset.inter_subset_right) _ _⟩

/-- **Merging keeps the relation with the paths merged before.** -/
theorem InitSim.joined_left (hC : InitAgree L a e) (h : InitSim L L a p) :
    InitSim L L (a.joined e) p where
  init m hm hinit := h.init m hm (hC.both hm hinit).1
  refBase := hC.refBase_joined.trans h.refBase
  fnPtrTargets := hC.fnPtrTargets_joined.trans h.fnPtrTargets
  muRawPtr l mu hmu := h.muRawPtr l mu (Discipline.agreeing_source hmu).1
  muFieldInits := (muFieldInits_joined a e).1.trans (fun _ _ _ huv hvw => hvw.trans huv)
    h.muFieldInits

/-- **Merging establishes the relation with the paths of the state merged in.** -/
theorem InitSim.joined_right (hC : InitAgree L a e) (h : InitSim L L e p) :
    InitSim L L (a.joined e) p where
  init m hm hinit := h.init m hm (hC.both hm hinit).2
  refBase := (hC.refBase_joined.trans hC.refBase).trans h.refBase
  fnPtrTargets := (hC.fnPtrTargets_joined.trans hC.fnPtrTargets).trans h.fnPtrTargets
  muRawPtr l mu hmu := h.muRawPtr l mu (Discipline.agreeing_source hmu).2
  muFieldInits := (muFieldInits_joined a e).2.trans (fun _ _ _ huv hvw => hvw.trans huv)
    h.muFieldInits

/-- A merge that reports no change leaves a state that is related already. -/
theorem InitSim.of_joined (hch : (a.joinWith e).2 = false) (h : InitSim L L (a.joined e) p) :
    InitSim L L a p := h.frame (joined_writes a hch).symm (.refl _ p) (by decide)

end Merges

/-! ## Paths -/

/-- Initialization is settled by assignments and by calls to known functions. -/
def initUsage (body : Body) : Usage body := ⟨∅, Terminator.settles⟩

theorem initSim_respects (tcx : TyCtxt) (body : Body) (summaries : SummaryMap) :
    (initUsage body).Respects tcx summaries fun L => InitSim L L where
  mono hL _ h := h.mono hL hL
  statement _ _ _ _ hreads h := h.applyStatement tcx body hreads
  terminator b _ _ _ hreads h := h.applyTerminator tcx summaries b.val hreads
  edge term succ _ h := h.frame (refineSwitchintEdge_writes _ term succ)
    (refineSwitchintEdge_writes _ term succ) (by decide)

/-- **What is initialized at a block is initialized on every path to it**, in every run
whose merges agree on what is borrowed and never merge an initialized local with an unknown
one. -/
theorem initSim_of_path {tcx : TyCtxt} {body : Body} {summaries : SummaryMap}
    {initial : BlockState} {live : body.BasicBlock → Finset Local}
    (hlive : (initUsage body).Live live)
    (hrun : (flowProblem tcx body summaries initial).RunMeets fun b => InitAgree (live b))
    {b : body.BasicBlock} {s p : BlockState}
    (hs : runFixpoint tcx body summaries initial b = some s)
    (hp : (flowProblem tcx body summaries initial).PathState b p) :
    InitSim (live b) (live b) s p :=
  (initSim_respects tcx body summaries).solution_of_path hlive (.refl _ _ _)
    (fun _ _ _ _ hC h => h.joined_left hC) (fun _ _ _ _ hC h => h.joined_right hC)
    (fun _ _ _ _ _ hch h => h.of_joined hch) hrun hs hp

end San
