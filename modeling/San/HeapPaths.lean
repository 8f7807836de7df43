import San.Liveness
import San.Reachable

/-! # What is freed on the paths to a block

The heap says of every object whether it is owned, freed, possibly freed or escaped.  It is
written through `points_to`, so two states can only be compared where the pointers agree.
`HeapSim ρ` relates a merged state to the state of one path: the pointers of live locals,
the field owners, the owner aliases and the function pointers agree, and the two heap states
of every object are related by `ρ`.  Every transfer function respects it as soon as `ρ` is
closed under freeing and escaping an object (`HeapRel`).

Two relations are of interest.  With the first, what is freed on a path is freed or possibly
freed in the merged state; with the second, what is reconstituted in the merged state is
reconstituted on the path.  Neither survives every merge: `Escaped` absorbs a freed object,
and a reconstituted object that the other side has never seen stays reconstituted.
-/
namespace San

/-- Does the call say where its result points to?  The other kinds leave what the
destination pointed to before. -/
def CallKind.settlesObjects : CallKind → Bool
  | .guardAcquire => false
  | .maybeUninitWrite => false
  | .maybeUninitAsMutPtr => false
  | .unknown => false
  | _ => true

/-- The destination of a call to a known function whose kind says where the result points
to. -/
def objectSettles (tcx : TyCtxt) (body : Body) (summaries : SummaryMap) (func : Operand)
    (destination : Place) : Finset Local :=
  match func.constFnDef, resolveCallee tcx body func BlockState.default with
  | some _, some did =>
      if destination.isLocal && (classify (tcx.defPathStr did) (summaries.get did)).settlesObjects
      then {destination.base} else ∅
  | _, _ => ∅

/-- A function item resolves in the same way in every state. -/
theorem resolveCallee_const {func : Operand} (h : func.constFnDef.isSome = true) (tcx : TyCtxt)
    (body : Body) (s t : BlockState) :
    resolveCallee tcx body func s = resolveCallee tcx body func t := by
  unfold resolveCallee
  cases hconst : func.constFnDef with
  | none => rw [hconst] at h; cases h
  | some item => rfl

section ObjectSettles
variable {tcx : TyCtxt} {body : Body} {summaries : SummaryMap} {func : Operand}
  {destination : Place} {s : BlockState}

theorem objectSettles_of_unresolved (h : resolveCallee tcx body func s = none) :
    objectSettles tcx body summaries func destination = ∅ := by
  unfold objectSettles
  split
  · rename_i item did hconst hcallee
    rw [resolveCallee_const (by rw [hconst]; rfl) tcx body _ s, h] at hcallee
    cases hcallee
  · rfl

theorem objectSettles_of_projected (h : ¬destination.isLocal = true) :
    objectSettles tcx body summaries func destination = ∅ := by
  unfold objectSettles
  split
  · rw [if_neg fun hc => h (Bool.and_eq_true_iff.mp hc).1]
  · rfl

theorem union_objectSettles_subset {did : DefId} (h : resolveCallee tcx body func s = some did)
    (L : Finset Local) :
    L ∪ objectSettles tcx body summaries func destination ⊆
      if (classify (tcx.defPathStr did) (summaries.get did)).settlesObjects
        then insert destination.base L else L := by
  have hL : L ⊆ if (classify (tcx.defPathStr did) (summaries.get did)).settlesObjects
      then insert destination.base L else L := by
    split
    · exact Finset.subset_insert _ L
    · exact Finset.Subset.refl L
  refine Finset.union_subset hL ?_
  unfold objectSettles
  split
  · rename_i item did' hconst hcallee
    rw [resolveCallee_const (by rw [hconst]; rfl) tcx body _ s, h] at hcallee
    cases hcallee
    split
    · rename_i hsettles
      rw [if_pos (Bool.and_eq_true_iff.mp hsettles).2]
      exact Finset.singleton_subset_iff.mpr (Finset.mem_insert_self _ L)
    · exact Finset.empty_subset _
  · exact Finset.empty_subset _

end ObjectSettles

def Terminator.objectSettles {n : Nat} (tcx : TyCtxt) (body : Body) (summaries : SummaryMap)
    (term : Terminator n) : Finset Local :=
  match term.kind with
  | .call func _ destination _ _ => San.objectSettles tcx body summaries func destination
  | _ => ∅

/-- A relation between the heap states of one object, in a merged state and on a path, that
freeing and escaping the object respect. -/
structure HeapRel (ρ : Option HeapState → Option HeapState → Prop) : Prop where
  refl : ∀ u, ρ u u
  escape : ∀ u v, ρ u v → ρ (BlockState.escapeObject u) (BlockState.escapeObject v)
  reconstitute : ∀ u v, v ≠ none → ρ u v →
    ρ (BlockState.reconstituteObject u) (BlockState.reconstituteObject v)

/-- The pointers of two states agree, those of single locals at `L`. -/
structure PointerAgree (L : Finset Local) (s t : BlockState) : Prop where
  pointsTo : FMap.AgreeOn L s.pointsTo t.pointsTo
  fieldOwned : s.fieldOwned = t.fieldOwned
  ownerAlias : s.ownerAlias = t.ownerAlias
  fnPtrTargets : s.fnPtrTargets = t.fnPtrTargets

/-- The relation between a merged state `s` and the state `t` of one path. -/
structure HeapSim (ρ : Option HeapState → Option HeapState → Prop) (L : Finset Local)
    (s t : BlockState) : Prop where
  pointers : PointerAgree L s t
  heap : ∀ o, ρ (s.heap.get o) (t.heap.get o)

namespace HeapSim
variable {ρ : Option HeapState → Option HeapState → Prop} {L L' : Finset Local}
  {s t s' t' : BlockState} {l dst src : Local}

theorem mono (h : HeapSim ρ L s t) (hL : L' ⊆ L) : HeapSim ρ L' s t :=
  ⟨{ h.pointers with pointsTo := h.pointers.pointsTo.mono hL }, h.heap⟩

theorem drop (h : HeapSim ρ (insert l L) s t) : HeapSim ρ L s t := h.mono (Finset.subset_insert l L)

/-- The fields the relation is about. -/
def fields : List Field := [.pointsTo, .fieldOwned, .ownerAlias, .fnPtrTargets, .heap]

/-- Stages that write none of these fields keep the relation. -/
theorem frame {F : List Field} (h : HeapSim ρ L s t) (hs : Writes F s s') (ht : Writes F t t')
    (hF : ∀ f ∈ fields, f ∉ F) : HeapSim ρ L s' t' := by
  have hptr := hF .pointsTo (by decide)
  have hfield := hF .fieldOwned (by decide)
  have howner := hF .ownerAlias (by decide)
  have hfn := hF .fnPtrTargets (by decide)
  have hheap := hF .heap (by decide)
  refine ⟨⟨?_, ?_, ?_, ?_⟩, ?_⟩
  · rw [show s'.pointsTo = _ from hs _ hptr, show t'.pointsTo = _ from ht _ hptr]
    exact h.pointers.pointsTo
  · rw [show s'.fieldOwned = _ from hs _ hfield, show t'.fieldOwned = _ from ht _ hfield]
    exact h.pointers.fieldOwned
  · rw [show s'.ownerAlias = _ from hs _ howner, show t'.ownerAlias = _ from ht _ howner]
    exact h.pointers.ownerAlias
  · rw [show s'.fnPtrTargets = _ from hs _ hfn, show t'.fnPtrTargets = _ from ht _ hfn]
    exact h.pointers.fnPtrTargets
  · rw [show s'.heap = _ from hs _ hheap, show t'.heap = _ from ht _ hheap]
    exact h.heap

/-! ## Named updates -/

theorem objectsFor_eq (h : HeapSim ρ L s t) (hl : l ∈ L) : s.objectsFor l = t.objectsFor l := by
  unfold BlockState.objectsFor
  rw [h.pointers.pointsTo l hl]

theorem ownersOf_eq (h : HeapSim ρ L s t) (l : Local) : s.ownersOf l = t.ownersOf l := by
  unfold BlockState.ownersOf
  rw [h.pointers.ownerAlias]

theorem setObjects (h : HeapSim ρ L s t) (l : Local) (o : Option (Finset ObjectId)) :
    HeapSim ρ (insert l L) (s.setObjects l o) (t.setObjects l o) :=
  ⟨{ h.pointers with pointsTo := h.pointers.pointsTo.put l o }, h.heap⟩

theorem setOwners (h : HeapSim ρ L s t) (l : Local) (o : Option (Finset Local)) :
    HeapSim ρ L (s.setOwners l o) (t.setOwners l o) := by
  refine ⟨{ h.pointers with ownerAlias := ?_ }, h.heap⟩
  show s.ownerAlias.put l o = t.ownerAlias.put l o
  rw [h.pointers.ownerAlias]

theorem invalidateOwners (h : HeapSim ρ L s t) (owners : Finset Local) :
    HeapSim ρ L (s.invalidateOwners owners) (t.invalidateOwners owners) := by
  unfold BlockState.invalidateOwners
  split
  · exact h
  · refine ⟨{ h.pointers with ownerAlias := ?_ }, h.heap⟩
    dsimp only
    rw [h.pointers.ownerAlias]

theorem clearFieldOwnedFor (h : HeapSim ρ L s t) (l : Local) :
    HeapSim ρ L (s.clearFieldOwnedFor l) (t.clearFieldOwnedFor l) := by
  refine ⟨{ h.pointers with fieldOwned := ?_ }, h.heap⟩
  show s.fieldOwned.retain _ = t.fieldOwned.retain _
  rw [h.pointers.fieldOwned]

/-- Altering the same objects on both sides. -/
theorem alterHeap (h : HeapSim ρ L s t) {objs : Finset ObjectId}
    {f : Option HeapState → Option HeapState}
    (hf : ∀ o ∈ objs, ρ (f (s.heap.get o)) (f (t.heap.get o))) (o : ObjectId) :
    ρ ((s.heap.alter objs f).get o) ((t.heap.alter objs f).get o) := by
  rw [FMap.get_alter, FMap.get_alter]
  split
  · rename_i ho
    exact hf o ho
  · exact h.heap o

/-- **Escaping the objects of a live local.** -/
theorem escapeLocal (h : HeapSim ρ L s t) (hρ : HeapRel ρ) (hl : l ∈ L) :
    HeapSim ρ L (s.escapeLocal l) (t.escapeLocal l) := by
  refine ⟨{ h.pointers with pointsTo := ?_, ownerAlias := ?_ }, fun o => ?_⟩
  · exact (h.pointers.pointsTo.erase l).mono (Finset.subset_insert l L)
  · show s.ownerAlias.erase l = t.ownerAlias.erase l
    rw [h.pointers.ownerAlias]
  · show ρ ((s.heap.alter (s.objectsFor l) _).get o) ((t.heap.alter (t.objectsFor l) _).get o)
    rw [h.objectsFor_eq hl]
    exact h.alterHeap (fun o _ => hρ.escape _ _ (h.heap o)) o

/-- **Freeing the objects of a live local**, which the path must know. -/
theorem reconstitute (h : HeapSim ρ L s t) (hρ : HeapRel ρ) (hl : l ∈ L)
    (hbound : ∀ o ∈ t.objectsFor l, t.heap.get o ≠ none) :
    HeapSim ρ L (s.reconstitute l) (t.reconstitute l) := by
  refine ⟨{ h.pointers with }, fun o => ?_⟩
  show ρ ((s.heap.alter (s.objectsFor l) _).get o) ((t.heap.alter (t.objectsFor l) _).get o)
  rw [h.objectsFor_eq hl]
  exact h.alterHeap (fun o ho => hρ.reconstitute _ _ (hbound o ho) (h.heap o)) o

theorem insertHeap (h : HeapSim ρ L s t) (hρ : HeapRel ρ) (k : ObjectId) (v : HeapState)
    (o : ObjectId) : ρ ((s.heap.insert k v).get o) ((t.heap.insert k v).get o) := by
  rw [FMap.get_insert, FMap.get_insert]
  split
  · exact hρ.refl _
  · exact h.heap o

theorem mintRawOwned (h : HeapSim ρ L s t) (hρ : HeapRel ρ) (dest : Local) (bb : Nat) :
    HeapSim ρ (insert dest L) (s.mintRawOwned dest bb) (t.mintRawOwned dest bb) :=
  ⟨{ h.pointers with pointsTo := h.pointers.pointsTo.insert dest _ },
    fun o => h.insertHeap hρ _ _ o⟩

/-- New objects and no protocol for `dst`, whose scalar facts are cleared. -/
theorem resetTo (h : HeapSim ρ L s t) (dst : Local) {o o' : Option (Finset ObjectId)}
    (ho : o = o') :
    HeapSim ρ (insert dst L) (((s.setObjects dst o).dropProto dst).clearScalarFacts dst)
      (((t.setObjects dst o').dropProto dst).clearScalarFacts dst) := by
  subst ho
  have hproto := (h.setObjects dst o).frame (BlockState.dropProto_writes _ dst)
    (BlockState.dropProto_writes _ dst) (by decide)
  exact hproto.frame (clearScalarFacts_writes _ dst) (clearScalarFacts_writes _ dst) (by decide)

theorem clearTracking (h : HeapSim ρ L s t) (l : Local) :
    HeapSim ρ (insert l L) (clearTracking l s) (clearTracking l t) := h.resetTo l rfl

/-! ## Statements -/

theorem storeField (h : HeapSim ρ L s t) (base : Local) (f : FieldIdx) (hsrc : src ∈ L) :
    HeapSim ρ L (storeField base f src s) (storeField base f src t) := by
  refine ⟨{ h.pointers with pointsTo := ?_, fieldOwned := ?_, ownerAlias := ?_ }, h.heap⟩
  · exact (h.pointers.pointsTo.erase src).mono (Finset.subset_insert src L)
  · show s.fieldOwned.put _ _ = t.fieldOwned.put _ _
    rw [h.pointers.fieldOwned, h.pointers.pointsTo src hsrc]
  · show s.ownerAlias.erase src = t.ownerAlias.erase src
    rw [h.pointers.ownerAlias]

theorem rvalueLocal_read {rvalue : Rvalue} (h : rvalueLocal rvalue = some l) :
    l ∈ rvalue.reads := by
  cases rvalue with
  | use op => simp [Rvalue.reads, operandLocal_base h]
  | _ => cases h

/-- **A store below a local** moves the objects of the stored value. -/
theorem storeObjects (h : HeapSim ρ L s t) (hρ : HeapRel ρ) {dst : Place} {rvalue : Rvalue}
    (hreads : ∀ l ∈ rvalue.reads, l ∈ L) (hdst : dst.base ∈ L) :
    HeapSim ρ L (storeObjects dst rvalue s) (storeObjects dst rvalue t) := by
  unfold San.storeObjects
  split
  · exact h
  · rename_i src hsrc
    have hmem := hreads src (rvalueLocal_read hsrc)
    split
    · rename_i hret
      have hreturn : Local.returnPlace ∈ L := hret.1 ▸ hdst
      rw [h.pointers.pointsTo src hmem]
      split
      · rw [h.objectsFor_eq hreturn]
        exact (h.setObjects _ _).drop
      · exact h
    · split
      · exact h.storeField _ _ hmem
      · exact h.escapeLocal hρ hmem

theorem rvalueOwners_eq (h : HeapSim ρ L s t) (body : Body) (dst : Local) (rvalue : Rvalue) :
    rvalueOwners body dst rvalue s = rvalueOwners body dst rvalue t := by
  have howners : s.ownersOf = t.ownersOf := funext h.ownersOf_eq
  unfold rvalueOwners placeOwners
  rw [howners, h.pointers.ownerAlias]

theorem updateOwnerAlias (h : HeapSim ρ L s t) (body : Body) (dst : Local) (rvalue : Rvalue) :
    HeapSim ρ L (updateOwnerAlias body dst rvalue s) (updateOwnerAlias body dst rvalue t) := by
  unfold San.updateOwnerAlias
  rw [h.rvalueOwners_eq body dst rvalue]
  exact h.setOwners dst _

theorem updateFnPtrTarget (h : HeapSim ρ L s t) (dst : Local) (rvalue : Rvalue) :
    HeapSim ρ L (updateFnPtrTarget dst rvalue s) (updateFnPtrTarget dst rvalue t) := by
  have htarget : rvalueFnTarget rvalue s = rvalueFnTarget rvalue t := by
    unfold rvalueFnTarget
    rw [h.pointers.fnPtrTargets]
  refine ⟨{ h.pointers with fnPtrTargets := ?_ }, h.heap⟩
  show s.fnPtrTargets.put dst _ = t.fnPtrTargets.put dst _
  rw [htarget, h.pointers.fnPtrTargets]

theorem clearAssigned (h : HeapSim ρ L s t) (l : Local) :
    HeapSim ρ L (s.clearAssigned l) (t.clearAssigned l) := by
  have hmarks := h.frame
    (s.onMaySets_writes [.constPtrCast, .mulOverflow, .layoutOverflow] (·.erase l))
    (t.onMaySets_writes [.constPtrCast, .mulOverflow, .layoutOverflow] (·.erase l)) (by decide)
  exact (hmarks.frame (BlockState.clearParts_writes _ l) (BlockState.clearParts_writes _ l)
    (by decide)).clearFieldOwnedFor l

/-! ### Assignments -/

theorem assignMove (h : HeapSim ρ L s t) (hsrc : src ∈ L) (dst : Local) :
    HeapSim ρ (insert dst L) (assignMove src dst s) (assignMove src dst t) := by
  have hmoved : HeapSim ρ (insert dst L) (moveTracked src dst s) (moveTracked src dst t) := by
    refine ⟨{ h.pointers with pointsTo := ?_ }, h.heap⟩
    show FMap.AgreeOn _ ((s.pointsTo.erase src).put dst _) ((t.pointsTo.erase src).put dst _)
    rw [h.pointers.pointsTo src hsrc]
    exact ((h.pointers.pointsTo.erase src).mono (Finset.subset_insert src L)).put dst _
  exact hmoved.frame (carryScalars_writes _ _ _ _) (carryScalars_writes _ _ _ _) (by decide)

theorem assignCopy (h : HeapSim ρ L s t) (hsrc : src ∈ L) (dst : Local) :
    HeapSim ρ (insert dst L) (assignCopy src dst s) (assignCopy src dst t) := by
  have hcopied : HeapSim ρ (insert dst L) (copyTracked src dst s) (copyTracked src dst t) :=
    ⟨{ h.pointers with pointsTo := h.pointers.pointsTo.copyKey hsrc dst }, h.heap⟩
  exact hcopied.frame (carryScalars_writes _ _ _ _) (carryScalars_writes _ _ _ _) (by decide)

theorem assignConstant (h : HeapSim ρ L s t) (c : Const) (dst : Local) :
    HeapSim ρ (insert dst L) (assignConstant c dst s) (assignConstant c dst t) :=
  (h.frame (constantFacts_writes s c dst) (constantFacts_writes t c dst) (by decide)).resetTo
    dst rfl

theorem assignFieldRead (h : HeapSim ρ L s t) {src : Place} (hsrc : src.base ∈ L) (dst : Local) :
    HeapSim ρ (insert dst L) (assignFieldRead src dst s) (assignFieldRead src dst t) := by
  have hobjs : (s.pointsTo.get src.base).or ((lastSimpleFieldIdx src.projection).bind fun f =>
        s.fieldOwned.get (src.base, f)) =
      (t.pointsTo.get src.base).or ((lastSimpleFieldIdx src.projection).bind fun f =>
        t.fieldOwned.get (src.base, f)) := by
    rw [h.pointers.pointsTo src.base hsrc, h.pointers.fieldOwned]
  exact (h.resetTo dst hobjs).frame (BlockState.onMaySets_writes _ [.mulOverflow] _)
    (BlockState.onMaySets_writes _ [.mulOverflow] _) (by decide)

theorem assignBorrow (h : HeapSim ρ L s t) {base : Local} (hbase : base ∈ L) (dst : Local) :
    HeapSim ρ (insert dst L) (assignBorrow base dst s) (assignBorrow base dst t) :=
  h.resetTo dst (by rw [h.pointers.pointsTo base hbase])

/-- The objects of live locals, put together. -/
theorem unionObjects_eq (h : HeapSim ρ L s t) {ls : List Local} (hls : ∀ l ∈ ls, l ∈ L) :
    ls.foldr (fun l objs => s.objectsFor l ∪ objs) ∅ =
      ls.foldr (fun l objs => t.objectsFor l ∪ objs) ∅ := by
  induction ls with
  | nil => rfl
  | cons l ls ih =>
      rw [List.foldr_cons, List.foldr_cons, ih fun x hx => hls x (List.mem_cons_of_mem l hx),
        h.objectsFor_eq (hls l List.mem_cons_self)]

theorem assignAggregate (h : HeapSim ρ L s t) (tcx : TyCtxt) (kind : AggregateKind)
    {operands : List Operand} (hreads : ∀ l ∈ operands.filterMap Operand.base, l ∈ L)
    (dst : Local) :
    HeapSim ρ (insert dst L) (assignAggregate tcx kind operands dst s)
      (assignAggregate tcx kind operands dst t) := by
  have hlocals : ∀ l ∈ operands.filterMap operandLocal, l ∈ L := by
    intro l hl
    obtain ⟨op, hop, hlocal⟩ := List.mem_filterMap.mp hl
    exact hreads l (List.mem_filterMap.mpr ⟨op, hop, operandLocal_base hlocal⟩)
  have hobjs := congrArg (fun objs => nonempty (some objs)) (h.unionObjects_eq hlocals)
  exact (h.resetTo dst hobjs).frame (aggregateKind_writes _ tcx kind operands dst)
    (aggregateKind_writes _ tcx kind operands dst) (by decide)

theorem assignPtrCast (h : HeapSim ρ L s t) (body : Body) (hsrc : src ∈ L) (dst : Local)
    (ty : Ty) :
    HeapSim ρ (insert dst L) (assignPtrCast body src dst ty s) (assignPtrCast body src dst ty t) := by
  have hmark : ∀ (u : BlockState) (c : Prop) [Decidable c], Writes Field.taints u
      (if c then u.insertMay .constPtrCast dst else u) := fun u c _ =>
    .ite ((u.insertMay_writes _ _).mono (by decide)) (.refl _ u)
  unfold San.assignPtrCast
  rw [h.pointers.pointsTo src hsrc]
  have hcast := (h.setObjects dst (t.pointsTo.get src)).frame
    (hmark _ (ty.isMutPtr ∧ ((body.localTy src).isConstPtr ∨
      src ∈ (s.setObjects dst (t.pointsTo.get src)).maySets .constPtrCast)))
    (hmark _ (ty.isMutPtr ∧ ((body.localTy src).isConstPtr ∨
      src ∈ (t.setObjects dst (t.pointsTo.get src)).maySets .constPtrCast))) (by decide)
  have hproto := hcast.frame (BlockState.dropProto_writes _ dst) (BlockState.dropProto_writes _ dst)
    (by decide)
  exact hproto.frame (clearScalarFacts_writes _ dst) (clearScalarFacts_writes _ dst) (by decide)

theorem consumeField (h : HeapSim ρ L s t) (src : Place) :
    HeapSim ρ L (consumeField src s) (consumeField src t) := by
  unfold San.consumeField
  split
  · refine ⟨{ h.pointers with fieldOwned := ?_ }, h.heap⟩
    dsimp only
    rw [h.pointers.fieldOwned]
  · exact h

theorem assignUnknown (h : HeapSim ρ L s t) (rvalue : Rvalue) (dst : Local) :
    HeapSim ρ (insert dst L) (assignUnknown rvalue dst s) (assignUnknown rvalue dst t) := by
  have hclear := h.clearTracking dst
  unfold San.assignUnknown
  dsimp only
  split
  · split
    · exact hclear
    · rename_i src _
      exact ((hclear.consumeField src).clearTracking src.base).drop
  · exact hclear

theorem offsetObjects_eq (h : HeapSim ρ L s t) {op1 op2 : Operand}
    (hop1 : ∀ l, operandLocal op1 = some l → l ∈ L)
    (hop2 : ∀ l, operandLocal op2 = some l → l ∈ L) (op : BinOp) :
    offsetObjects op op1 op2 s = offsetObjects op op1 op2 t := by
  have hget : ∀ o : Operand, (∀ l, operandLocal o = some l → l ∈ L) →
      (operandLocal o).bind s.pointsTo.get = (operandLocal o).bind t.pointsTo.get := by
    intro o ho
    cases hl : operandLocal o with
    | none => rfl
    | some l => exact h.pointers.pointsTo l (ho l hl)
  unfold offsetObjects
  simp only [List.findSome?, hget op1 hop1, hget op2 hop2]

theorem assignBinaryOp (h : HeapSim ρ L s t) (body : Body) (op : BinOp) {op1 op2 : Operand}
    (hop1 : ∀ l, operandLocal op1 = some l → l ∈ L)
    (hop2 : ∀ l, operandLocal op2 = some l → l ∈ L) (dst : Local) :
    HeapSim ρ (insert dst L) (assignBinaryOp body op op1 op2 dst s)
      (assignBinaryOp body op op1 op2 dst t) := by
  unfold San.assignBinaryOp
  rw [h.offsetObjects_eq hop1 hop2 op]
  have hproto := (h.setObjects dst (offsetObjects op op1 op2 t)).frame
    (BlockState.dropProto_writes _ dst) (BlockState.dropProto_writes _ dst) (by decide)
  have hinit := hproto.frame (BlockState.clearInit_writes _ dst) (BlockState.clearInit_writes _ dst)
    (by decide)
  have hscalar := hinit.frame (BlockState.onMustSets_writes _ MustSet.scalar (·.erase dst))
    (BlockState.onMustSets_writes _ MustSet.scalar (·.erase dst)) (by decide)
  exact hscalar.frame (recordBinaryOp_writes _ body op op1 op2 dst)
    (recordBinaryOp_writes _ body op op1 op2 dst) (by decide)

/-- **An assignment to a whole local** makes its objects agree, except for a numeric cast,
which leaves them as they were. -/
theorem assignRvalue (h : HeapSim ρ L s t) (tcx : TyCtxt) (body : Body) (dst : Local)
    {rvalue : Rvalue} (hreads : ∀ l ∈ rvalue.reads, l ∈ L) :
    HeapSim ρ (rvalue.settling dst L) (assignRvalue tcx body dst rvalue s)
      (assignRvalue tcx body dst rvalue t) := by
  have hall : ∀ {s t : BlockState}, HeapSim ρ (insert dst L) s t →
      HeapSim ρ (rvalue.settling dst L) s t := fun h => h.mono (rvalue.settling_subset dst L)
  unfold San.assignRvalue
  split
  · exact hall (h.assignConstant _ dst)
  · have hsrc := hreads _ (List.mem_singleton.mpr rfl)
    split
    · exact hall (h.assignMove hsrc dst)
    · split
      · exact hall (h.assignFieldRead hsrc dst)
      · exact hall (h.assignUnknown _ dst)
  · have hsrc := hreads _ (List.mem_singleton.mpr rfl)
    split
    · exact hall (h.assignCopy hsrc dst)
    · split
      · exact hall (h.assignFieldRead hsrc dst)
      · exact hall (h.assignUnknown _ dst)
  · exact hall (h.assignBorrow (hreads _ (List.mem_singleton.mpr rfl)) dst)
  · exact hall (h.assignBorrow (hreads _ (List.mem_singleton.mpr rfl)) dst)
  · exact hall (h.assignBorrow (hreads _ (List.mem_singleton.mpr rfl)) dst)
  · exact hall (h.assignAggregate tcx _ hreads dst)
  · rename_i kind op ty
    cases hop : operandLocal op with
    | none => exact hall (h.assignUnknown _ dst)
    | some src =>
        dsimp only
        split
        · have hsrc : src ∈ L := hreads src (by simp [Rvalue.reads, operandLocal_base hop])
          exact hall (h.assignPtrCast body hsrc dst ty)
        · split
          · rename_i hnum
            have hkeeps : (Rvalue.cast kind op ty).keepsFacts = true := by
              simp [Rvalue.keepsFacts, hop, hnum]
            rw [Rvalue.settling_of_keeps hkeeps]
            exact h.frame (assignNumericCast_writes s kind src dst ty)
              (assignNumericCast_writes t kind src dst ty) (by decide)
          · exact hall (h.assignUnknown _ dst)
  · refine hall (h.assignBinaryOp body _ (fun l hl => hreads l ?_) (fun l hl => hreads l ?_) dst)
    · simp [Rvalue.reads, operandLocal_base hl]
    · simp [Rvalue.reads, operandLocal_base hl]
  · exact hall (h.assignUnknown _ dst)

/-- **A statement respects the relation.** -/
theorem applyStatement (h : HeapSim ρ L s t) (hρ : HeapRel ρ) (tcx : TyCtxt) (body : Body)
    {stmt : Statement} (hreads : ∀ l ∈ stmt.reads, l ∈ L) :
    HeapSim ρ (L ∪ stmt.settles) (applyStatement tcx body stmt s)
      (applyStatement tcx body stmt t) := by
  obtain ⟨kind, span⟩ := stmt
  cases kind with
  | other => exact h.mono (Finset.union_empty L).subset
  | assign dst rvalue =>
      have hinvalid := h.invalidateOwners {dst.base}
      have hrv : ∀ l ∈ rvalue.reads, l ∈ L := fun l hl => hreads l (List.mem_append_left _ hl)
      unfold San.applyStatement Statement.settles
      dsimp only
      cases hdst : dst.isLocal with
      | false =>
          have hbase : dst.base ∈ L := hreads dst.base (by simp [Statement.reads, hdst])
          have hvariant := (hinvalid.storeObjects hρ hrv hbase).frame
            (setUnionField_writes _ tcx body dst) (setUnionField_writes _ tcx body dst) (by decide)
          exact (hvariant.frame (writeMaybeUninitField_writes _ body dst)
            (writeMaybeUninitField_writes _ body dst) (by decide)).mono
              (Finset.union_empty L).subset
      | true =>
          have hcleared := ((hinvalid.updateOwnerAlias body dst.base rvalue).updateFnPtrTarget
            dst.base rvalue).frame (BlockState.clearRedefined_writes _ dst.base)
            (BlockState.clearRedefined_writes _ dst.base) (by decide) |>.clearAssigned dst.base
          have hrefs := hcleared.frame (recordRefBase_writes _ dst.base rvalue)
            (recordRefBase_writes _ dst.base rvalue) (by decide)
          have hprop := hrefs.frame (propagateRvalue_writes _ dst.base rvalue)
            (propagateRvalue_writes _ dst.base rvalue) (by decide)
          have hlen := hprop.frame (recordLenOf_writes _ dst.base rvalue)
            (recordLenOf_writes _ dst.base rvalue) (by decide)
          exact ((hlen.assignRvalue tcx body dst.base hrv).frame
            (enforceTypeFacts_writes _ tcx dst.base _) (enforceTypeFacts_writes _ tcx dst.base _)
            (by decide)).mono (union_settles_subset_settling L dst.base rvalue)

/-! ## Calls -/

theorem resolveCallee_eq (h : HeapSim ρ L s t) (tcx : TyCtxt) (body : Body) (func : Operand) :
    resolveCallee tcx body func s = resolveCallee tcx body func t := by
  unfold resolveCallee
  rw [h.pointers.fnPtrTargets]

theorem detachStale (h : HeapSim ρ L s t) (hρ : HeapRel ρ) (stale : Finset Local) :
    HeapSim ρ L (detachStale stale s) (detachStale stale t) := by
  refine ⟨{ h.pointers with pointsTo := ?_, ownerAlias := ?_ }, fun o => ?_⟩
  · exact h.pointers.pointsTo.assign stale _
  · show s.ownerAlias.retain _ = t.ownerAlias.retain _
    rw [h.pointers.ownerAlias]
  · show ρ ((s.heap.assign _ _).get o) ((t.heap.assign _ _).get o)
    rw [FMap.get_assign, FMap.get_assign]
    split
    · exact hρ.refl _
    · exact h.heap o

/-- **A reallocation** makes the same handles stale in both states. -/
theorem markStale (h : HeapSim ρ L s t) (hρ : HeapRel ρ) (body : Body) (recv : Local) :
    HeapSim ρ L (markStale body recv s) (markStale body recv t) := by
  have howners : s.ownersOf = t.ownersOf := funext h.ownersOf_eq
  have hstale : stalePointers body (bufferOwners recv s) s =
      stalePointers body (bufferOwners recv t) t := by
    unfold stalePointers bufferOwners
    rw [howners, h.pointers.ownerAlias]
  unfold San.markStale
  dsimp only
  rw [hstale]
  exact (h.frame (s.onMaySets_writes [.reallocedParams] _) (t.onMaySets_writes [.reallocedParams] _)
    (by decide)).detachStale hρ _

theorem argInvalidates_eq (h : HeapSim ρ L s t) (body : Body) :
    argInvalidates body s = argInvalidates body t := by
  have howners : s.ownersOf = t.ownersOf := funext h.ownersOf_eq
  funext arg
  unfold argInvalidates liveOwners
  rw [howners, h.pointers.ownerAlias]

theorem reallocate (h : HeapSim ρ L s t) (hρ : HeapRel ρ) (body : Body) (recv : Option Local) :
    HeapSim ρ L (reallocate body recv s) (reallocate body recv t) := by
  cases recv with
  | none => exact h
  | some recv => exact h.markStale hρ body recv

theorem enterCall (h : HeapSim ρ L s t) (hρ : HeapRel ρ) (tcx : TyCtxt) (body : Body)
    (summaries : SummaryMap) (callee : Option DefId) (args : List Operand) (dest : Local) :
    HeapSim ρ L (enterCall tcx body summaries callee args dest s)
      (enterCall tcx body summaries callee args dest t) := by
  have hrealloc := h.reallocate hρ body (reallocReceiver tcx summaries callee args)
  have hinvalid : ∀ {s t : BlockState}, HeapSim ρ L s t → ∀ skip,
      HeapSim ρ L (invalidateOwnerArgs body args skip s) (invalidateOwnerArgs body args skip t) := by
    intro s t h skip
    unfold invalidateOwnerArgs
    rw [h.argInvalidates_eq body]
    exact h.invalidateOwners _
  have hdest := ((hinvalid hrealloc ((callee.bind summaries.get).bind
    FnSummary.returnsAliasOfParam)).invalidateOwners {dest}).setOwners dest none
  exact hdest.frame (killCapacityArgs_writes _ body args) (killCapacityArgs_writes _ body args)
    (by decide)

section CallArgs
variable {args : List Operand} (hargs : ∀ l ∈ args.filterMap Operand.base, l ∈ L)
include hargs

theorem escapeRawPtrArgs (h : HeapSim ρ L s t) (hρ : HeapRel ρ) (body : Body) :
    HeapSim ρ L (escapeRawPtrArgs body args s) (escapeRawPtrArgs body args t) := by
  unfold San.escapeRawPtrArgs
  induction args generalizing s t with
  | nil => exact h
  | cons arg args ih =>
      have hrest : ∀ l ∈ args.filterMap Operand.base, l ∈ L := fun l hl => by
        obtain ⟨a, ha, hb⟩ := List.mem_filterMap.mp hl
        exact hargs l (List.mem_filterMap.mpr ⟨a, List.mem_cons_of_mem arg ha, hb⟩)
      refine ih hrest ?_
      unfold escapeRawPtrArg
      split
      · exact h
      · rename_i l hl
        have hmem : l ∈ L := hargs l (List.mem_filterMap.mpr
          ⟨arg, List.mem_cons_self, operandLocal_base hl⟩)
        rw [h.pointers.pointsTo l hmem]
        split
        · exact h.escapeLocal hρ hmem
        · exact h

theorem applyParamEffect (h : HeapSim ρ L s t) (hρ : HeapRel ρ) {body : Body}
    (ht : Tracks body t) (e : Nat × ParamHeapEffect) :
    HeapSim ρ L (applyParamEffect args s e) (applyParamEffect args t e) := by
  unfold San.applyParamEffect
  split
  · rename_i arg harg _
    have hmem := hargs arg (nthArgLocal_mem harg)
    exact (h.reconstitute hρ hmem fun o ho => ht.objectsFor ho).frame
      (BlockState.dropProto_writes _ arg) (BlockState.dropProto_writes _ arg) (by decide)
  · rename_i arg harg _
    exact h.escapeLocal hρ (hargs arg (nthArgLocal_mem harg))
  · exact h

theorem applyParamEffects (h : HeapSim ρ L s t) (hρ : HeapRel ρ) {body : Body}
    (ht : Tracks body t) (es : List (Nat × ParamHeapEffect)) :
    HeapSim ρ L (es.foldl (San.applyParamEffect args) s)
      (es.foldl (San.applyParamEffect args) t) := by
  induction es generalizing s t with
  | nil => exact h
  | cons e es ih => exact ih (h.applyParamEffect hargs hρ ht e) (ht.applyParamEffect args e)

end CallArgs

theorem inheritObjects (h : HeapSim ρ L s t) (dest : Local) {arg : Local} (harg : arg ∈ L) :
    HeapSim ρ L (inheritObjects dest arg s) (inheritObjects dest arg t) := by
  unfold San.inheritObjects
  rw [h.pointers.pointsTo arg harg]
  split
  · exact (h.setObjects dest _).drop
  · exact h

theorem returnAlias (h : HeapSim ρ L s t) (body : Body) (dest : Local) {arg : Local}
    (harg : arg ∈ L) :
    HeapSim ρ L (returnAlias body dest arg s) (returnAlias body dest arg t) := by
  have howners : argOwners body arg s = argOwners body arg t := by
    unfold argOwners
    rw [h.ownersOf_eq]
  have halias : HeapSim ρ L
      (if argOwners body arg t = ∅ then s
        else s.setOwners dest (some (s.ownersOf dest ∪ argOwners body arg t)))
      (if argOwners body arg t = ∅ then t
        else t.setOwners dest (some (t.ownersOf dest ∪ argOwners body arg t))) := by
    split
    · exact h
    · rw [h.ownersOf_eq]
      exact h.setOwners dest _
  unfold San.returnAlias
  dsimp only
  rw [howners]
  split
  · exact halias
  · exact halias.inheritObjects dest harg

theorem returnAliasOf (h : HeapSim ρ L s t) (body : Body) (dest : Local) {arg : Option Local}
    (harg : ∀ l, arg = some l → l ∈ L) :
    HeapSim ρ L (returnAliasOf body dest arg s) (returnAliasOf body dest arg t) := by
  cases arg with
  | none => exact h
  | some l => exact h.returnAlias body dest (harg l rfl)

theorem inheritObjectsOf (h : HeapSim ρ L s t) (dest : Local) {arg : Option Local}
    (harg : ∀ l, arg = some l → l ∈ L) :
    HeapSim ρ L (inheritObjectsOf dest arg s) (inheritObjectsOf dest arg t) := by
  cases arg with
  | none => exact h
  | some l => exact h.inheritObjects dest (harg l rfl)

section Destination
variable {body : Body} {args : List Operand} (hargs : ∀ l ∈ args.filterMap Operand.base, l ∈ L)
  (dest : Local)
include hargs

theorem nthArg (i : Nat) {arg : Local} (harg : nthArgLocal args i = some arg) : arg ∈ L :=
  hargs arg (nthArgLocal_mem harg)

/-- **A summarised call** settles its destination. -/
theorem applyFnSummary (h : HeapSim ρ L s t) (hρ : HeapRel ρ) (ht : Tracks body t) (bb : Nat)
    (summary : FnSummary) :
    HeapSim ρ (insert dest L) (applyFnSummary body args dest bb summary s)
      (applyFnSummary body args dest bb summary t) := by
  have hinsert : ∀ {i : Nat} {arg : Local}, nthArgLocal args i = some arg → arg ∈ insert dest L :=
    fun harg => Finset.mem_insert_of_mem (nthArg hargs _ harg)
  have heffects := h.applyParamEffects hargs hρ ht summary.paramEffects
  have hmint : ∀ {s t : BlockState}, HeapSim ρ L s t → HeapSim ρ (insert dest L)
      (if summary.returnsRawOwned then s.mintRawOwned dest bb
        else (s.setObjects dest none).dropProto dest)
      (if summary.returnsRawOwned then t.mintRawOwned dest bb
        else (t.setObjects dest none).dropProto dest) := by
    intro s t h
    split
    · exact h.mintRawOwned hρ dest bb
    · exact (h.setObjects dest none).frame (BlockState.dropProto_writes _ dest)
        (BlockState.dropProto_writes _ dest) (by decide)
  have harg : ∀ (param : Option Nat) (l : Local), param.bind (nthArgLocal args) = some l →
      l ∈ insert dest L := by
    intro param l hl
    obtain ⟨i, _, hi⟩ := Option.bind_eq_some_iff.mp hl
    exact hinsert hi
  have hresult := ((hmint heffects).setOwners dest none).returnAliasOf body dest
    (harg summary.returnsAliasOfParam)
  exact hresult.inheritObjectsOf dest (harg summary.returnsPtrOfParam)

theorem callSummarised (h : HeapSim ρ L s t) (hρ : HeapRel ρ) (ht : Tracks body t) (path : String)
    (bb : Nat) (summary : FnSummary) :
    HeapSim ρ (insert dest L) (callSummarised body path summary args dest bb s)
      (callSummarised body path summary args dest bb t) := by
  have hsummary := h.applyFnSummary hargs dest hρ ht bb summary
  unfold San.callSummarised
  dsimp only
  refine frame ?_ (clearScalarFacts_writes _ dest) (clearScalarFacts_writes _ dest) (by decide)
  split
  · rename_i arg0 harg
    rw [hsummary.pointers.pointsTo dest (Finset.mem_insert_self dest L)]
    split
    · exact hsummary.inheritObjects dest (Finset.mem_insert_of_mem (nthArg hargs _ harg))
    · exact hsummary
  · exact hsummary

theorem inheritProvenance (h : HeapSim ρ L s t) :
    HeapSim ρ L (inheritProvenance args dest s) (inheritProvenance args dest t) := by
  unfold San.inheritProvenance
  split
  · exact h
  · rename_i arg0 harg
    rw [h.pointers.ownerAlias]
    dsimp only
    refine inheritObjects ?_ dest (nthArg hargs _ harg)
    split
    · exact h.setOwners dest _
    · exact h

/-- A call of an unknown function leaves the objects of its destination as they were. -/
theorem callUnknown (h : HeapSim ρ L s t) (hρ : HeapRel ρ) (path : String) :
    HeapSim ρ L (callUnknown body path args dest s) (callUnknown body path args dest t) := by
  unfold San.callUnknown
  dsimp only
  refine frame (frame ?_ (BlockState.dropProto_writes _ dest) (BlockState.dropProto_writes _ dest)
    (by decide)) (clearScalarFacts_writes _ dest) (clearScalarFacts_writes _ dest) (by decide)
  split
  · exact h.inheritProvenance hargs dest
  · split
    · exact h.frame (markOwnersWritten_writes s _) (markOwnersWritten_writes t _) (by decide)
    · split
      · exact h.frame (markOwnersWritten_writes s _) (markOwnersWritten_writes t _) (by decide)
      · split
        · exact h
        · exact h.escapeRawPtrArgs hargs hρ body

theorem passObjects (h : HeapSim ρ L s t) :
    HeapSim ρ (insert dest L) (passObjects args dest s) (passObjects args dest t) := by
  have hobjs : (firstArgLocal args).bind s.pointsTo.get = (firstArgLocal args).bind
      t.pointsTo.get := by
    cases hfirst : firstArgLocal args with
    | none => rfl
    | some arg => exact h.pointers.pointsTo arg (nthArg hargs _ hfirst)
  unfold San.passObjects
  rw [hobjs]
  exact h.setObjects dest _

omit hargs in
theorem reconstituteArg (h : HeapSim ρ L s t) (hρ : HeapRel ρ) (ht : Tracks body t)
    {src : Option Local} (hsrc : ∀ l, src = some l → l ∈ L) :
    HeapSim ρ L (reconstituteArg src s) (reconstituteArg src t) := by
  cases src with
  | none => exact h
  | some l => exact h.reconstitute hρ (hsrc l rfl) fun o ho => ht.objectsFor ho

theorem callFromRaw (h : HeapSim ρ L s t) (hρ : HeapRel ρ) (ht : Tracks body t) :
    HeapSim ρ (insert dest L) (callFromRaw args dest s) (callFromRaw args dest t) := by
  have hsrc : ∀ l, (firstArgLocal args).or (firstArgBaseLocal args) = some l → l ∈ L := by
    intro l hl
    rcases Option.or_eq_some_iff.mp hl with hl | ⟨_, hl⟩
    · exact nthArg hargs _ hl
    · exact hargs l (firstArgBaseLocal_mem hl)
  have hfree := (h.reconstituteArg hρ ht hsrc).setObjects dest none
  have hproto := (hfree.frame (BlockState.dropProto_writes _ dest)
    (BlockState.dropProto_writes _ dest) (by decide)).setOwners dest none
  unfold San.callFromRaw
  dsimp only
  refine frame ?_ (clearScalarFacts_writes _ dest) (clearScalarFacts_writes _ dest) (by decide)
  unfold San.inheritOwners
  dsimp only
  split
  · rw [hproto.pointers.ownerAlias]
    exact hproto.setOwners dest _
  · exact hproto

omit hargs in
theorem escapeForever (h : HeapSim ρ L s t) (hρ : HeapRel ρ) (hl : l ∈ L) :
    HeapSim ρ L (escapeForever l s) (escapeForever l t) := by
  refine ⟨{ h.pointers with pointsTo := ?_ }, fun o => ?_⟩
  · exact (h.pointers.pointsTo.erase l).mono (Finset.subset_insert l L)
  · show ρ ((s.heap.alter (s.objectsFor l) fun _ => some .escaped).get o)
      ((t.heap.alter (t.objectsFor l) fun _ => some .escaped).get o)
    rw [h.objectsFor_eq hl]
    exact h.alterHeap (fun _ _ => hρ.refl _) o

theorem callMemForget (h : HeapSim ρ L s t) (hρ : HeapRel ρ) (tcx : TyCtxt) :
    HeapSim ρ (insert dest L) (callMemForget tcx body args dest s)
      (callMemForget tcx body args dest t) := by
  refine clearTracking ?_ dest
  split
  · rename_i src hsrc
    have hescape := h.escapeForever hρ (hargs src (firstArgBaseLocal_mem hsrc))
    have hnote : ∀ b b', HeapSim ρ L (noteForget b (San.escapeForever src s))
        (noteForget b' (San.escapeForever src t)) := fun b b' =>
      hescape.frame (noteForget_writes _ b) (noteForget_writes _ b') (by decide)
    have hrelease := fun b b' => (hnote b b').frame (releaseProtos_writes _ src .forgotten)
      (releaseProtos_writes _ src .forgotten) (by decide)
    exact (hrelease _ _).frame (clearContents_writes _ src) (clearContents_writes _ src) (by decide)
  · exact h

/-- **A recognised call** respects the relation, and makes the objects of its destination
agree if its kind says where the result points to. -/
theorem applyCallKind (h : HeapSim ρ L s t) (hρ : HeapRel ρ) (ht : Tracks body t) (tcx : TyCtxt)
    (path : String) (kind : CallKind) (bb : Nat) :
    HeapSim ρ (if kind.settlesObjects then insert dest L else L)
      (applyCallKind tcx body path kind args dest bb s)
      (applyCallKind tcx body path kind args dest bb t) := by
  have hclear : ∀ {L : Finset Local} {s t : BlockState}, HeapSim ρ L s t →
      HeapSim ρ L (s.clearScalarFacts dest) (t.clearScalarFacts dest) := fun h =>
    h.frame (clearScalarFacts_writes _ dest) (clearScalarFacts_writes _ dest) (by decide)
  have hdrop : ∀ {L : Finset Local} {s t : BlockState}, HeapSim ρ L s t →
      HeapSim ρ L (s.dropProto dest) (t.dropProto dest) := fun h =>
    h.frame (BlockState.dropProto_writes _ dest) (BlockState.dropProto_writes _ dest) (by decide)
  cases kind with
  | rawRealloc =>
      exact hclear ((h.reconstituteArg hρ ht fun l hl => nthArg hargs _ hl).mintRawOwned hρ
        dest bb)
  | intoRaw => exact hclear (h.mintRawOwned hρ dest bb)
  | fromRaw => exact h.callFromRaw hargs dest hρ ht
  | memForget => exact h.callMemForget hargs dest hρ tcx
  | guardAcquire =>
      exact hclear (h.frame (acquireProto_writes s dest bb) (acquireProto_writes t dest bb)
        (by decide))
  | assumeInit =>
      refine hclear (hdrop (passObjects hargs dest ?_))
      split
      · exact h.frame (s.clearInit_writes _) (t.clearInit_writes _) (by decide)
      · exact h
  | maybeUninitInit =>
      exact (hclear (hdrop (h.passObjects hargs dest))).frame (BlockState.insertInit_writes _ dest)
        (BlockState.insertInit_writes _ dest) (by decide)
  | maybeUninitWrite =>
      exact hclear (hdrop (h.frame (initReceiver_writes s args) (initReceiver_writes t args)
        (by decide)))
  | maybeUninitAsMutPtr =>
      exact hclear (hdrop (h.frame (pointIntoReceiver_writes s args dest)
        (pointIntoReceiver_writes t args dest) (by decide)))
  | bufWrite =>
      refine clearTracking ?_ dest
      split
      · exact h.frame (s.insertMust_writes .bufWritten _) (t.insertMust_writes .bufWritten _)
          (by decide)
      · exact h
  | ptrRead => exact hclear (hdrop (h.passObjects hargs dest))
  | summarised summary => exact h.callSummarised hargs dest hρ ht path bb summary
  | unknown => exact h.callUnknown hargs dest hρ path

end Destination

/-- **A call respects the relation**, whether or not its callee is known. -/
theorem applyCall (h : HeapSim ρ L s t) (hρ : HeapRel ρ) {body : Body} (ht : Tracks body t)
    (tcx : TyCtxt) (summaries : SummaryMap) (bb : Nat) (func : Operand) {args : List Operand}
    (hargs : ∀ l ∈ args.filterMap Operand.base, l ∈ L) (destination : Place) :
    HeapSim ρ (L ∪ objectSettles tcx body summaries func destination)
      (applyCall tcx body summaries bb func args destination s)
      (applyCall tcx body summaries bb func args destination t) := by
  unfold San.applyCall
  rw [h.resolveCallee_eq tcx body func]
  dsimp only
  cases hcallee : resolveCallee tcx body func t with
  | none =>
      rw [objectSettles_of_unresolved hcallee, Finset.union_empty]
      exact (h.enterCall hρ tcx body summaries none args _).escapeRawPtrArgs hargs hρ body
  | some did =>
      have henter := h.enterCall hρ tcx body summaries (some did) args destination.base
      dsimp only
      split
      · have hrecord := (henter.frame (BlockState.clearRedefined_writes _ destination.base)
          (BlockState.clearRedefined_writes _ destination.base) (by decide)).frame
            (recordCallFacts_writes _ (tcx.defPathStr did) args destination.base)
            (recordCallFacts_writes _ (tcx.defPathStr did) args destination.base) (by decide)
        have hcleared : Tracks body ((San.enterCall tcx body summaries (some did) args
            destination.base t).clearRedefined destination.base) :=
          (ht.enterCall tcx summaries (some did) args).clearRedefined
        have htracks := hcleared.frame
          (recordCallFacts_writes _ (tcx.defPathStr did) args destination.base) (by decide)
        have hkind := hrecord.applyCallKind hargs destination.base hρ htracks tcx
          (tcx.defPathStr did) (classify (tcx.defPathStr did) (summaries.get did)) bb
        exact (hkind.frame (leaveCall_writes _ tcx body _ args _)
          (leaveCall_writes _ tcx body _ args _) (by decide)).mono
            (union_objectSettles_subset hcallee L)
      · rename_i hdest
        rw [objectSettles_of_projected hdest, Finset.union_empty]
        exact henter.escapeRawPtrArgs hargs hρ body

theorem applyDrop (h : HeapSim ρ L s t) (place : Place) :
    HeapSim ρ L (applyDrop place s) (applyDrop place t) := by
  unfold San.applyDrop
  split
  · have hobjs := (h.frame (releaseProtos_writes s place.base .consumed)
      (releaseProtos_writes t place.base .consumed) (by decide)).setObjects place.base none
    exact (hobjs.frame (clearContents_writes _ place.base) (clearContents_writes _ place.base)
      (by decide)).drop
  · exact h

/-- **A terminator respects the relation.** -/
theorem applyTerminator {body : Body} (h : HeapSim ρ L s t) (hρ : HeapRel ρ) (ht : Tracks body t)
    (tcx : TyCtxt) (summaries : SummaryMap) (bb : Nat) {term : Terminator body.numBlocks}
    (hreads : ∀ l ∈ term.reads, l ∈ L) :
    HeapSim ρ (L ∪ term.objectSettles tcx body summaries)
      (applyTerminator tcx body summaries bb term s)
      (applyTerminator tcx body summaries bb term t) := by
  have hnone : ∀ {s t : BlockState}, HeapSim ρ L s t → HeapSim ρ (L ∪ ∅) s t :=
    fun h => h.mono (Finset.union_empty L).subset
  obtain ⟨kind, span⟩ := term
  cases kind with
  | call func args destination target unwind =>
      exact h.applyCall hρ ht tcx summaries bb func hreads destination
  | assert cond expected target unwind =>
      exact hnone (h.frame (assertCondition_values s cond expected)
        (assertCondition_values t cond expected) (by decide))
  | drop place target unwind => exact hnone (h.applyDrop place)
  | _ => exact hnone h

end HeapSim

/-! ## Merges -/

section Merges
variable {ρ : Option HeapState → Option HeapState → Prop} {L : Finset Local} {a e p : BlockState}

instance (L : Finset Local) (a e : BlockState) : Decidable (PointerAgree L a e) :=
  decidable_of_iff (FMap.AgreeOn L a.pointsTo e.pointsTo ∧ a.fieldOwned = e.fieldOwned ∧
      a.ownerAlias = e.ownerAlias ∧ a.fnPtrTargets = e.fnPtrTargets)
    ⟨fun ⟨hptr, hfield, howner, hfn⟩ => ⟨hptr, hfield, howner, hfn⟩,
      fun h => ⟨h.pointsTo, h.fieldOwned, h.ownerAlias, h.fnPtrTargets⟩⟩

theorem PointerAgree.refl (L : Finset Local) (s : BlockState) : PointerAgree L s s :=
  ⟨.refl L _, rfl, rfl, rfl⟩

theorem PointerAgree.trans {s t u : BlockState} (h : PointerAgree L s t)
    (h' : PointerAgree L t u) : PointerAgree L s u :=
  ⟨h.pointsTo.trans h'.pointsTo, h.fieldOwned.trans h'.fieldOwned,
    h.ownerAlias.trans h'.ownerAlias, h.fnPtrTargets.trans h'.fnPtrTargets⟩

theorem PointerAgree.symm {s t : BlockState} (h : PointerAgree L s t) : PointerAgree L t s :=
  ⟨fun l hl => (h.pointsTo l hl).symm, h.fieldOwned.symm, h.ownerAlias.symm, h.fnPtrTargets.symm⟩

/-- Where the pointers of two states agree, so do those of their merge. -/
theorem PointerAgree.joined (h : PointerAgree L a e) : PointerAgree L (a.joined e) a where
  pointsTo := Discipline.agreeOn_growing (fun u => Finset.union_self u) h.pointsTo
  fieldOwned := by
    show Disciplines.sets.join a.fieldOwned e.fieldOwned = a.fieldOwned
    rw [← h.fieldOwned]
    exact sets_lawful.self _
  ownerAlias := by
    show Disciplines.sets.join a.ownerAlias e.ownerAlias = a.ownerAlias
    rw [← h.ownerAlias]
    exact sets_lawful.self _
  fnPtrTargets := by
    show Disciplines.agreement.join a.fnPtrTargets e.fnPtrTargets = a.fnPtrTargets
    rw [← h.fnPtrTargets]
    exact agreement_lawful.self _

/-- The heap state of one object after a merge. -/
abbrev mergeHeap (u v : Option HeapState) : Option HeapState :=
  (Discipline.combineBy HeapState.join).combineOpt u v

/-- A condition on the heap states of one object in two states to be merged, under which `ρ`
survives the merge on either side. -/
structure MergeRel (ρ C : Option HeapState → Option HeapState → Prop) : Prop where
  left : ∀ u v w, C u v → ρ u w → ρ (mergeHeap u v) w
  right : ∀ u v w, C u v → ρ v w → ρ (mergeHeap u v) w

/-- What every merge of a run has to meet: the pointers agree, and so do the heap states of
every object, up to `C`. -/
structure HeapAgree (C : Option HeapState → Option HeapState → Prop) (L : Finset Local)
    (a e : BlockState) : Prop where
  pointers : PointerAgree L a e
  heap : ∀ o, C (a.heap.get o) (e.heap.get o)

variable {C : Option HeapState → Option HeapState → Prop}

/-- Only the objects that one of the states knows have to be compared. -/
def HeapAgree.decidable [∀ u v, Decidable (C u v)] (hnone : C none none) (L : Finset Local)
    (a e : BlockState) : Decidable (HeapAgree C L a e) :=
  decidable_of_iff (PointerAgree L a e ∧ ∀ o ∈ a.heap.keys ∪ e.heap.keys,
      C (a.heap.get o) (e.heap.get o)) <| by
    constructor
    · rintro ⟨hptr, hkeys⟩
      refine ⟨hptr, fun o => ?_⟩
      by_cases ho : o ∈ a.heap.keys ∪ e.heap.keys
      · exact hkeys o ho
      · rw [Finset.mem_union, not_or] at ho
        rw [FMap.get_eq_none_iff.mpr ho.1, FMap.get_eq_none_iff.mpr ho.2]
        exact hnone
    · exact fun h => ⟨h.pointers, fun o _ => h.heap o⟩

theorem HeapSim.joined_left (hm : MergeRel ρ C) (hC : HeapAgree C L a e) (h : HeapSim ρ L a p) :
    HeapSim ρ L (a.joined e) p :=
  ⟨hC.pointers.joined.trans h.pointers, fun o => hm.left _ _ _ (hC.heap o) (h.heap o)⟩

theorem HeapSim.joined_right (hm : MergeRel ρ C) (hC : HeapAgree C L a e) (h : HeapSim ρ L e p) :
    HeapSim ρ L (a.joined e) p :=
  ⟨(hC.pointers.joined.trans hC.pointers).trans h.pointers,
    fun o => hm.right _ _ _ (hC.heap o) (h.heap o)⟩

/-- A merge that reports no change leaves a state that is related already. -/
theorem HeapSim.of_joined (hC : HeapAgree C L a e) (hch : (a.joinWith e).2 = false)
    (h : HeapSim ρ L (a.joined e) p) : HeapSim ρ L a p := by
  refine ⟨hC.pointers.joined.symm.trans h.pointers, fun o => ?_⟩
  rw [← show (a.joined e).heap = a.heap from joined_writes a hch .heap (by decide)]
  exact h.heap o

end Merges

/-! ## Paths -/

section Paths
variable {ρ C : Option HeapState → Option HeapState → Prop} {tcx : TyCtxt} {body : Body}
  {summaries : SummaryMap} {initial : BlockState} {live : body.BasicBlock → Finset Local}

/-- Where a local points to is settled by assignments and by calls that say where their
result points to. -/
def pointerUsage (tcx : TyCtxt) (body : Body) (summaries : SummaryMap) : Usage body :=
  ⟨∅, Terminator.objectSettles tcx body summaries⟩

/-- On a path the tracked data stays well formed. -/
theorem heapSim_respects (hρ : HeapRel ρ) (tcx : TyCtxt) (body : Body) (summaries : SummaryMap) :
    (pointerUsage tcx body summaries).Respects tcx summaries fun L s t =>
      HeapSim ρ L s t ∧ Tracks body t where
  mono hL _ h := ⟨h.1.mono hL, h.2⟩
  statement _ _ hstmt _ hreads h :=
    ⟨h.1.applyStatement hρ tcx body hreads,
      h.2.applyStatement tcx fun _ hl => Body.declares_of_statement hstmt hl⟩
  terminator b _ hterm _ hreads h :=
    ⟨h.1.applyTerminator hρ h.2 tcx summaries b.val hreads,
      h.2.applyTerminator tcx summaries b fun _ hl => Body.declares_of_terminator hterm hl⟩
  edge term succ _ h :=
    ⟨h.1.frame (refineSwitchintEdge_writes _ term succ) (refineSwitchintEdge_writes _ term succ)
      (by decide), h.2.refineSwitchintEdge term succ⟩

/-- The analysis of a body starts in a well-formed state. -/
theorem tracks_seed (tcx : TyCtxt) (body : Body) :
    Tracks body (seedParamTypeFacts tcx body BlockState.default) :=
  Tracks.default.frame (Writes.foldl (fun t l => enforceTypeFacts_writes t tcx l _) _ _) (by decide)

/-- The relation to a path, together with the invariant of the path. -/
theorem heapSim_tracks_of_path (hρ : HeapRel ρ) (hm : MergeRel ρ C)
    (hlive : (pointerUsage tcx body summaries).Live live) (hinit : Tracks body initial)
    (hrun : (flowProblem tcx body summaries initial).RunMeets fun b => HeapAgree C (live b))
    {b : body.BasicBlock} {s p : BlockState}
    (hs : runFixpoint tcx body summaries initial b = some s)
    (hp : (flowProblem tcx body summaries initial).PathState b p) :
    HeapSim ρ (live b) s p ∧ Tracks body p := by
  refine (heapSim_respects hρ tcx body summaries).solution_of_path hlive
    ⟨⟨.refl _ _, fun o => hρ.refl _⟩, hinit⟩ ?_ ?_ ?_ hrun hs hp
  · exact fun n a e q hC h => ⟨h.1.joined_left hm hC, h.2⟩
  · exact fun n a e q hC h => ⟨h.1.joined_right hm hC, h.2⟩
  · exact fun n a e q hC hch h => ⟨h.1.of_joined hC hch, h.2⟩

/-- **The heap of a block and the heap of a path to it are related**, in every run whose
merges agree on pointers and meet the condition of `ρ`. -/
theorem heapSim_of_path (hρ : HeapRel ρ) (hm : MergeRel ρ C)
    (hlive : (pointerUsage tcx body summaries).Live live) (hinit : Tracks body initial)
    (hrun : (flowProblem tcx body summaries initial).RunMeets fun b => HeapAgree C (live b))
    {b : body.BasicBlock} {s p : BlockState}
    (hs : runFixpoint tcx body summaries initial b = some s)
    (hp : (flowProblem tcx body summaries initial).PathState b p) : HeapSim ρ (live b) s p :=
  (heapSim_tracks_of_path hρ hm hlive hinit hrun hs hp).1

/-- The same, before the terminator of the block. -/
theorem heapSim_before_terminator (hρ : HeapRel ρ) (hm : MergeRel ρ C)
    (hlive : (pointerUsage tcx body summaries).Live live) (hinit : Tracks body initial)
    (hrun : (flowProblem tcx body summaries initial).RunMeets fun b => HeapAgree C (live b))
    {b : body.BasicBlock} {s p : BlockState}
    (hs : runFixpoint tcx body summaries initial b = some s)
    (hp : (flowProblem tcx body summaries initial).PathState b p) :
    HeapSim ρ (Usage.after (live b) (body.basicBlocks b).statements)
      (applyStatements tcx body (body.basicBlocks b).statements s)
      (applyStatements tcx body (body.basicBlocks b).statements p) :=
  ((heapSim_respects hρ tcx body summaries).statements b (fun _ hx => hx) (hlive.always b)
    (hlive.statements b) (heapSim_tracks_of_path hρ hm hlive hinit hrun hs hp)).1

end Paths

/-! ## Freed on some path -/

/-- The object is known and has not escaped. -/
def isTracked (o : Option HeapState) : Bool := o.any fun u => decide (u ≠ .escaped)

/-- What is tracked on the path is tracked in the merged state, and what is freed on the path
is freed there. -/
def KeepsFrees (u v : Option HeapState) : Prop :=
  (isTracked v = true → isTracked u = true) ∧ (freedState v = true → freedState u = true)

instance (u v : Option HeapState) : Decidable (KeepsFrees u v) :=
  inferInstanceAs (Decidable (_ ∧ _))

/-- The object has not escaped on one side while it is tracked on the other. -/
def NoEscape (u v : Option HeapState) : Prop :=
  ¬ (u = some .escaped ∧ isTracked v = true) ∧ ¬ (isTracked u = true ∧ v = some .escaped)

instance (u v : Option HeapState) : Decidable (NoEscape u v) :=
  inferInstanceAs (Decidable (_ ∧ _))

theorem keepsFrees_rel : HeapRel KeepsFrees where
  refl u := ⟨fun h => h, fun h => h⟩
  escape u v h := by
    revert h
    rcases u with _ | ⟨_ | _ | _ | _⟩ <;> rcases v with _ | ⟨_ | _ | _ | _⟩ <;> decide
  reconstitute u v _ h := by
    revert h
    rcases u with _ | ⟨_ | _ | _ | _⟩ <;> rcases v with _ | ⟨_ | _ | _ | _⟩ <;> decide

theorem keepsFrees_merge : MergeRel KeepsFrees NoEscape where
  left u v w := by
    rcases u with _ | ⟨_ | _ | _ | _⟩ <;> rcases v with _ | ⟨_ | _ | _ | _⟩ <;>
      rcases w with _ | ⟨_ | _ | _ | _⟩ <;> decide
  right u v w := by
    rcases u with _ | ⟨_ | _ | _ | _⟩ <;> rcases v with _ | ⟨_ | _ | _ | _⟩ <;>
      rcases w with _ | ⟨_ | _ | _ | _⟩ <;> decide

instance (L : Finset Local) (a e : BlockState) : Decidable (HeapAgree NoEscape L a e) :=
  HeapAgree.decidable (by decide) L a e

/-- **A free on some path is not forgotten**, in every run whose merges agree on pointers and
never merge an escaped object with a tracked one: what is freed on a path to a block is freed
or possibly freed at the block, and no pointer to it is classified as not freed. -/
theorem freed_on_some_path {tcx : TyCtxt} {body : Body} {summaries : SummaryMap}
    {initial : BlockState} {live : body.BasicBlock → Finset Local}
    (hlive : (pointerUsage tcx body summaries).Live live) (hinit : Tracks body initial)
    (hrun : (flowProblem tcx body summaries initial).RunMeets fun b =>
      HeapAgree NoEscape (live b)) {b : body.BasicBlock} {s p : BlockState}
    (hs : runFixpoint tcx body summaries initial b = some s)
    (hp : (flowProblem tcx body summaries initial).PathState b p) {o : ObjectId}
    (ho : p.heap.get o = some .reconstituted ∨ p.heap.get o = some .maybeFreed) :
    (s.heap.get o = some .reconstituted ∨ s.heap.get o = some .maybeFreed) ∧
      ∀ l, o ∈ s.objectsFor l → s.freedKind l = .definite ∨ s.freedKind l = .potential := by
  have hsim := heapSim_of_path keepsFrees_rel keepsFrees_merge hlive hinit hrun hs hp
  have hpath : freedState (p.heap.get o) = true := by
    rcases ho with ho | ho <;> rw [ho] <;> rfl
  have hfreed := (hsim.heap o).2 hpath
  refine ⟨?_, fun l hl => ?_⟩
  · revert hfreed
    rcases s.heap.get o with _ | ⟨_ | _ | _ | _⟩ <;> decide
  · have hne := BlockState.freedKind_ne_notFreed_iff.mpr ⟨_, hl, hfreed⟩
    revert hne
    rcases s.freedKind l with _ | _ | _ <;> decide

/-- A box is turned into a raw pointer; one branch frees it, the other frees it too or passes
it to an unknown function. -/
def freeOrEscape (escape : Bool) : Body :=
  .ofBlocks 3 1 [.other, .bool, .rawPtr .other .mut, .other] 4
    (fun bb =>
      [.of [] (.callTo 0 [] 2 (bb 1)),
        .of [] (.switchInt (.ofNat 1) ⟨[(0, bb 2)], bb 3⟩),
        .of [] (.callTo 1 [.ofNat 2] 3 (bb 4)),
        .of [] (.callTo (if escape then 2 else 1) [.ofNat 2] 3 (bb 4)),
        .of [] .return])
    (by cases escape <;> decide)

def boxPaths : TyCtxt :=
  .ofPaths ["alloc::boxed::Box::<T>::into_raw", "alloc::boxed::Box::<T>::from_raw", "opaque", "f"]

/-- The analysis of `freeOrEscape`, from the default state. -/
def freeProblem (escape : Bool) : FlowProblem (freeOrEscape escape).BasicBlock BlockState :=
  flowProblem boxPaths (freeOrEscape escape) ∅ BlockState.default

/-- The locals of `freeOrEscape` that are read. -/
def freeLive (_ : (freeOrEscape false).BasicBlock) : Finset Local :=
  {Local.ofNat 1, Local.ofNat 2}

theorem freeProblem_done (escape : Bool) :
    ((freeProblem escape).step^[6] (freeProblem escape).initial).work = [] := by
  cases escape <;> decide +kernel

theorem freeLive_live : (pointerUsage boxPaths (freeOrEscape false) ∅).Live freeLive := by
  decide +kernel

/-- When both branches free the box, the free on the path through the second one is known. -/
theorem freed_on_some_path_both : ∃ s p,
    runFixpoint boxPaths (freeOrEscape false) ∅ BlockState.default (4 : Fin 5) = some s ∧
    (freeProblem false).PathState (4 : Fin 5) p ∧
    p.heap.get (BlockState.callSiteObject 0) = some .reconstituted ∧
    (s.heap.get (BlockState.callSiteObject 0) = some .reconstituted ∨
      s.heap.get (BlockState.callSiteObject 0) = some .maybeFreed) := by
  have hrun : (freeProblem false).RunMeets fun b => HeapAgree NoEscape (freeLive b) :=
    FlowProblem.runMeets_of_done (freeProblem_done false) (by decide +kernel)
  obtain ⟨s, hs, _⟩ := FlowProblem.exists_solution (freeProblem_done false) (n := (4 : Fin 5))
    (q := fun _ => true) (by decide +kernel)
  have hpath := (FlowProblem.PathState.start (P := freeProblem false)).along
    ([1, 3, 4] : List (Fin 5)) (by decide)
  have hfreed : ((freeProblem false).follow (0 : Fin 5) BlockState.default
      ([1, 3, 4] : List (Fin 5))).heap.get (BlockState.callSiteObject 0) =
        some .reconstituted := by decide +kernel
  exact ⟨s, _, hs, hpath, hfreed,
    (freed_on_some_path freeLive_live Tracks.default hrun hs hpath (Or.inl hfreed)).1⟩

/-- **An escape forgets a free.**  One branch of `freeOrEscape` frees the object, the other
passes the pointer to an unknown function; after the merge the object is `Escaped`, and the
pointer, which still points to it, counts as not freed. -/
theorem escape_forgets_free : ∃ s p,
    runFixpoint boxPaths (freeOrEscape true) ∅ BlockState.default (4 : Fin 5) = some s ∧
    (freeProblem true).PathState (4 : Fin 5) p ∧
    p.heap.get (BlockState.callSiteObject 0) = some .reconstituted ∧
    s.heap.get (BlockState.callSiteObject 0) = some .escaped ∧
    BlockState.callSiteObject 0 ∈ s.objectsFor (Local.ofNat 2) ∧
    s.freedKind (Local.ofNat 2) = .notFreed := by
  obtain ⟨s, hs, hq⟩ := FlowProblem.exists_solution (freeProblem_done true) (n := (4 : Fin 5))
    (q := fun s => decide (s.heap.get (BlockState.callSiteObject 0) = some .escaped ∧
      BlockState.callSiteObject 0 ∈ s.objectsFor (Local.ofNat 2) ∧
      s.freedKind (Local.ofNat 2) = .notFreed)) (by decide +kernel)
  have hpath := (FlowProblem.PathState.start (P := freeProblem true)).along
    ([1, 2, 4] : List (Fin 5)) (by decide)
  exact ⟨s, _, hs, hpath, by decide +kernel, of_decide_eq_true hq⟩

/-! ## Freed on all paths -/

/-- What is reconstituted in the merged state is reconstituted on the path, what is owned
there is owned or unknown on the path, and what the path knows the merged state knows. -/
def FreedBefore (u v : Option HeapState) : Prop :=
  (u = some .reconstituted → v = some .reconstituted) ∧
    (u = some .rawOwned → v = none ∨ v = some .rawOwned) ∧ (v ≠ none → u ≠ none)

instance (u v : Option HeapState) : Decidable (FreedBefore u v) :=
  inferInstanceAs (Decidable (_ ∧ _ ∧ _))

/-- The object is not reconstituted on one side and unknown to the other. -/
def NoLoneFree (u v : Option HeapState) : Prop :=
  ¬ (u = some .reconstituted ∧ v = none) ∧ ¬ (u = none ∧ v = some .reconstituted)

instance (u v : Option HeapState) : Decidable (NoLoneFree u v) :=
  inferInstanceAs (Decidable (_ ∧ _))

instance (L : Finset Local) (a e : BlockState) : Decidable (HeapAgree NoLoneFree L a e) :=
  HeapAgree.decidable (by decide) L a e

theorem freedBefore_rel : HeapRel FreedBefore where
  refl u := ⟨fun h => h, Or.inr, fun h => h⟩
  escape u v := by
    rcases u with _ | ⟨_ | _ | _ | _⟩ <;> rcases v with _ | ⟨_ | _ | _ | _⟩ <;> decide
  reconstitute u v := by
    rcases u with _ | ⟨_ | _ | _ | _⟩ <;> rcases v with _ | ⟨_ | _ | _ | _⟩ <;> decide

theorem freedBefore_merge : MergeRel FreedBefore NoLoneFree where
  left u v w := by
    rcases u with _ | ⟨_ | _ | _ | _⟩ <;> rcases v with _ | ⟨_ | _ | _ | _⟩ <;>
      rcases w with _ | ⟨_ | _ | _ | _⟩ <;> decide
  right u v w := by
    rcases u with _ | ⟨_ | _ | _ | _⟩ <;> rcases v with _ | ⟨_ | _ | _ | _⟩ <;>
      rcases w with _ | ⟨_ | _ | _ | _⟩ <;> decide

/-- A definite use-after-free: every object of the pointer is reconstituted. -/
theorem reconstituted_of_definite {s : BlockState} {l : Local} (h : s.freedKind l = .definite)
    {o : ObjectId} (ho : o ∈ s.objectsFor l) : s.heap.get o = some .reconstituted := by
  by_contra hne
  have hall : decide (∀ id ∈ s.objectsFor l, s.heap.get id = some .reconstituted) = false :=
    decide_eq_false fun hall => hne (hall o ho)
  unfold BlockState.freedKind at h
  dsimp only at h
  rw [if_neg (Finset.ne_empty_of_mem ho), hall] at h
  revert h
  cases decide (∃ id ∈ s.objectsFor l, freedState (s.heap.get id) = true) <;> exact nofun

/-- **A definite free happened on all paths**, in every run whose merges agree on pointers and
never merge a reconstituted object with an unknown one: what is reconstituted at a block is
reconstituted on every path to it, and so are the objects of every pointer whose use is
classified as a definite use-after-free. -/
theorem reconstituted_on_all_paths {tcx : TyCtxt} {body : Body} {summaries : SummaryMap}
    {initial : BlockState} {live : body.BasicBlock → Finset Local}
    (hlive : (pointerUsage tcx body summaries).Live live) (hinit : Tracks body initial)
    (hrun : (flowProblem tcx body summaries initial).RunMeets fun b =>
      HeapAgree NoLoneFree (live b)) {b : body.BasicBlock} {s p : BlockState}
    (hs : runFixpoint tcx body summaries initial b = some s)
    (hp : (flowProblem tcx body summaries initial).PathState b p) :
    (∀ o, s.heap.get o = some .reconstituted → p.heap.get o = some .reconstituted) ∧
      ∀ l, s.freedKind l = .definite → ∀ o ∈ s.objectsFor l,
        p.heap.get o = some .reconstituted := by
  have hsim := heapSim_of_path freedBefore_rel freedBefore_merge hlive hinit hrun hs hp
  refine ⟨fun o => (hsim.heap o).1, fun l hl o ho => ?_⟩
  exact (hsim.heap o).1 (reconstituted_of_definite hl ho)

/-- When both branches free the box, it is reconstituted on the path through either. -/
theorem reconstituted_on_all_paths_both : ∃ s p,
    runFixpoint boxPaths (freeOrEscape false) ∅ BlockState.default (4 : Fin 5) = some s ∧
    (freeProblem false).PathState (4 : Fin 5) p ∧
    s.heap.get (BlockState.callSiteObject 0) = some .reconstituted ∧
    p.heap.get (BlockState.callSiteObject 0) = some .reconstituted := by
  have hrun : (freeProblem false).RunMeets fun b => HeapAgree NoLoneFree (freeLive b) :=
    FlowProblem.runMeets_of_done (freeProblem_done false) (by decide +kernel)
  obtain ⟨s, hs, hq⟩ := FlowProblem.exists_solution (freeProblem_done false) (n := (4 : Fin 5))
    (q := fun s => decide (s.heap.get (BlockState.callSiteObject 0) = some .reconstituted))
    (by decide +kernel)
  have hpath := (FlowProblem.PathState.start (P := freeProblem false)).along
    ([1, 3, 4] : List (Fin 5)) (by decide)
  exact ⟨s, _, hs, hpath, of_decide_eq_true hq,
    (reconstituted_on_all_paths freeLive_live Tracks.default hrun hs hpath).1 _
      (of_decide_eq_true hq)⟩

/-- A box is turned into a raw pointer and freed on one branch only. -/
def freeOnBranch : Body :=
  .ofBlocks 3 1 [.other, .bool, .rawPtr .other .mut, .other] 4
    (fun bb =>
      [.of [] (.switchInt (.ofNat 1) ⟨[(0, bb 1)], bb 3⟩),
        .of [] (.callTo 0 [] 2 (bb 2)),
        .of [] (.callTo 1 [.ofNat 2] 3 (bb 4)),
        .of [] (.goto (bb 4)),
        .of [] .return])
    (by decide)

/-- **A definite free that did not happen on all paths.**  After the merge of the two branches
of `freeOnBranch` the use of `_2` is classified as a definite use-after-free, but on the path
through the other branch nothing has been freed and `_2` points to nothing tracked. -/
theorem lone_free_is_definite : ∃ s p,
    runFixpoint boxPaths freeOnBranch ∅ BlockState.default (4 : Fin 5) = some s ∧
    (flowProblem boxPaths freeOnBranch ∅ BlockState.default).PathState (4 : Fin 5) p ∧
    s.heap.get (BlockState.callSiteObject 1) = some .reconstituted ∧
    p.heap.get (BlockState.callSiteObject 1) = none ∧
    s.freedKind (Local.ofNat 2) = .definite ∧ p.freedKind (Local.ofNat 2) = .notFreed := by
  have hdone : ((flowProblem boxPaths freeOnBranch ∅ BlockState.default).step^[6]
      (flowProblem boxPaths freeOnBranch ∅ BlockState.default).initial).work = [] := by
    decide +kernel
  obtain ⟨s, hs, hq⟩ := FlowProblem.exists_solution hdone (n := (4 : Fin 5))
    (q := fun s => decide (s.heap.get (BlockState.callSiteObject 1) = some .reconstituted ∧
      s.freedKind (Local.ofNat 2) = .definite)) (by decide +kernel)
  have hpath := (FlowProblem.PathState.start
    (P := flowProblem boxPaths freeOnBranch ∅ BlockState.default)).along
    ([3, 4] : List (Fin 5)) (by decide)
  exact ⟨s, _, hs, hpath, (of_decide_eq_true hq).1, by decide +kernel, (of_decide_eq_true hq).2,
    by decide +kernel⟩

end San
