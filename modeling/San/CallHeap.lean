import San.Redefinition
import San.WellFormed

/-! # What a call does to the heap

A call updates the heap, the objects of locals and the owners they alias in some twenty places.
`HeapUpdate` lists the kinds of update there are, and `applyCall_updates` says that a call is a
sequence of them once the handles into a reallocated buffer are detached; what holds before the
call and is kept by every kind of update holds after it.  Only `mem::forget` is not covered: it is
the one call that writes the heap without looking at the state of the object.

Three results rest on this.  A freed object stays freed unless it is forgotten
(`freed_stays_freed_iff`).  A reallocation makes every handle into the buffer stale, unless the
call mints the very object that stands for the stale handle (`realloc_makes_stale_iff`).  And a
call of a function that is summarised as consuming its argument has the same effect on the heap as
freeing the argument directly (`wrapper_frees_alike`).
-/
namespace San

/-! ## The updates -/

/-- The calls that allocate an object of their own. -/
def CallKind.mints : CallKind → Bool
  | .rawRealloc | .intoRaw => true
  | .summarised summary => summary.returnsRawOwned
  | _ => false

/-- One update of the heap, the objects or the owners that a call may make. -/
inductive HeapUpdate (kind : CallKind) (args : List Operand) (dest : Local) (bb : Nat) :
    BlockState → BlockState → Prop
  | frame {u v : BlockState} (hheap : v.heap = u.heap) (hobjects : v.pointsTo = u.pointsTo)
      (howners : v.ownerAlias = u.ownerAlias) : HeapUpdate kind args dest bb u v
  | invalidate (u : BlockState) (owners : Finset Local) :
      HeapUpdate kind args dest bb u (u.invalidateOwners owners)
  | setOwners (u : BlockState) (o : Option (Finset Local)) :
      HeapUpdate kind args dest bb u (u.setOwners dest o)
  | clear (u : BlockState) : HeapUpdate kind args dest bb u (u.setObjects dest none)
  | pass {u : BlockState} {x : Local} {objs : Finset ObjectId} (h : u.pointsTo.get x = some objs) :
      HeapUpdate kind args dest bb u (u.setObjects dest (some objs))
  | free (u : BlockState) (l : Local) : HeapUpdate kind args dest bb u (u.reconstitute l)
  | escape (u : BlockState) {l : Local} (hl : l ∈ args.filterMap operandLocal) :
      HeapUpdate kind args dest bb u (u.escapeLocal l)
  | mint (u : BlockState) (hkind : kind.mints = true) :
      HeapUpdate kind args dest bb u (u.mintRawOwned dest bb)

/-- A sequence of updates. -/
abbrev HeapUpdates (kind : CallKind) (args : List Operand) (dest : Local) (bb : Nat) :
    BlockState → BlockState → Prop :=
  Relation.ReflTransGen (HeapUpdate kind args dest bb)

theorem wholeArg_mem {args : List Operand} {i : Nat} {l : Local}
    (h : nthArgLocal args i = some l) : l ∈ args.filterMap operandLocal := by
  obtain ⟨arg, hget, harg⟩ := Option.bind_eq_some_iff.mp h
  exact List.mem_filterMap.mpr ⟨arg, List.mem_of_getElem? hget, harg⟩

namespace HeapUpdates
variable {kind : CallKind} {args : List Operand} {dest : Local} {bb : Nat} {u v w : BlockState}

/-- **Invariants of the updates** are invariants of the sequence. -/
theorem induct {I : BlockState → Prop} (h : HeapUpdates kind args dest bb u v)
    (hstep : ∀ a b, HeapUpdate kind args dest bb a b → I a → I b) (hu : I u) : I v := by
  induction h with
  | refl => exact hu
  | tail _ hab ih => exact hstep _ _ hab ih

theorem single (h : HeapUpdate kind args dest bb u v) : HeapUpdates kind args dest bb u v :=
  Relation.ReflTransGen.single h

/-- A stage that writes none of the three fields. -/
theorem ofWrites {F : List Field} (hw : Writes F u v)
    (hF : .heap ∉ F ∧ .pointsTo ∉ F ∧ .ownerAlias ∉ F) : HeapUpdates kind args dest bb u v :=
  single (.frame (hw .heap hF.1) (hw .pointsTo hF.2.1) (hw .ownerAlias hF.2.2))

theorem ite {c : Prop} [Decidable c] {v' : BlockState} (h : HeapUpdates kind args dest bb u v)
    (h' : HeapUpdates kind args dest bb u v') :
    HeapUpdates kind args dest bb u (if c then v else v') := by
  split
  · exact h
  · exact h'

/-- Passing on the objects of `x`, if there are any, and dropping those of `dest` otherwise. -/
theorem passNonempty (u : BlockState) {o : Option (Finset ObjectId)}
    (ho : ∀ objs, o = some objs → ∃ x, u.pointsTo.get x = some objs) :
    HeapUpdates kind args dest bb u (u.setObjects dest (nonempty o)) := by
  cases hobjs : nonempty o with
  | none => exact single (.clear u)
  | some objs =>
    obtain ⟨x, hx⟩ := ho objs (Tracks.nonempty_eq_some.mp hobjs).1
    exact single (.pass hx)

theorem inheritObjects (u : BlockState) (arg : Local) :
    HeapUpdates kind args dest bb u (inheritObjects dest arg u) := by
  unfold San.inheritObjects
  cases hobjs : nonempty (u.pointsTo.get arg) with
  | none => exact .refl
  | some objs => exact single (.pass (Tracks.nonempty_eq_some.mp hobjs).1)

theorem passObjects (u : BlockState) :
    HeapUpdates kind args dest bb u (passObjects args dest u) := by
  refine passNonempty u fun objs h => ?_
  obtain ⟨x, -, hx⟩ := Option.bind_eq_some_iff.mp h
  exact ⟨x, hx⟩

theorem reconstituteArg (u : BlockState) (src : Option Local) :
    HeapUpdates kind args dest bb u (reconstituteArg src u) := by
  cases src with
  | none => exact .refl
  | some l => exact single (.free u l)

theorem inheritOwners (u : BlockState) (src : Option Local) :
    HeapUpdates kind args dest bb u (inheritOwners src dest u) := by
  cases src with
  | none => exact single (.setOwners u none)
  | some l => exact (single (.setOwners u none)).trans (single (.setOwners _ _))

theorem escapeRawPtrArgs (u : BlockState) (body : Body) :
    HeapUpdates kind args dest bb u (escapeRawPtrArgs body args u) := by
  have hall : ∀ rest : List Operand, (∀ arg ∈ rest, arg ∈ args) → ∀ t,
      HeapUpdates kind args dest bb t (rest.foldl (escapeRawPtrArg body) t) := by
    intro rest
    induction rest with
    | nil => exact fun _ _ => .refl
    | cons arg rest ih =>
      intro hmem t
      refine Relation.ReflTransGen.trans ?_ (ih (fun a ha => hmem a (List.mem_cons_of_mem _ ha)) _)
      unfold escapeRawPtrArg
      cases harg : operandLocal arg with
      | none => exact .refl
      | some l =>
        have hl : l ∈ args.filterMap operandLocal :=
          List.mem_filterMap.mpr ⟨arg, hmem arg List.mem_cons_self, harg⟩
        exact ite (single (.escape t hl)) .refl
  exact hall args (fun _ h => h) u

theorem paramEffects (u : BlockState) (effects : List (Nat × ParamHeapEffect)) :
    HeapUpdates kind args dest bb u (effects.foldl (applyParamEffect args) u) := by
  induction effects generalizing u with
  | nil => exact .refl
  | cons e effects ih =>
    refine Relation.ReflTransGen.trans ?_ (ih _)
    unfold applyParamEffect
    split
    · exact (single (.free u _)).trans (single (.frame rfl rfl rfl))
    · next arg harg _ => exact single (.escape u (wholeArg_mem harg))
    · exact .refl

end HeapUpdates

/-! ## Recognised calls -/

section Kind
variable (tcx : TyCtxt) (body : Body) (path : String) (args : List Operand) (dest : Local) (bb : Nat)

theorem returnAliasOf_updates {kind : CallKind} (u : BlockState) (arg : Option Local) :
    HeapUpdates kind args dest bb u (returnAliasOf body dest arg u) := by
  cases arg with
  | none => exact .refl
  | some arg =>
    have howners : HeapUpdates kind args dest bb u
        (if argOwners body arg u = ∅ then u
          else u.setOwners dest (some (u.ownersOf dest ∪ argOwners body arg u))) :=
      HeapUpdates.ite .refl (HeapUpdates.single (.setOwners u _))
    exact howners.trans (HeapUpdates.ite .refl (HeapUpdates.inheritObjects _ arg))

theorem inheritObjectsOf_updates {kind : CallKind} (u : BlockState) (arg : Option Local) :
    HeapUpdates kind args dest bb u (inheritObjectsOf dest arg u) := by
  cases arg with
  | none => exact .refl
  | some arg => exact HeapUpdates.inheritObjects u arg

theorem applyFnSummary_updates (u : BlockState) (summary : FnSummary) :
    HeapUpdates (.summarised summary) args dest bb u
      (applyFnSummary body args dest bb summary u) := by
  refine (HeapUpdates.paramEffects u summary.paramEffects).trans ?_
  refine Relation.ReflTransGen.trans (b := if summary.returnsRawOwned then
      (summary.paramEffects.foldl (applyParamEffect args) u).mintRawOwned dest bb
    else ((summary.paramEffects.foldl (applyParamEffect args) u).setObjects dest none).dropProto
      dest) ?_ ?_
  · cases howned : summary.returnsRawOwned with
    | true => exact HeapUpdates.single (.mint _ howned)
    | false => exact (HeapUpdates.single (.clear _)).trans (HeapUpdates.single (.frame rfl rfl rfl))
  · refine (HeapUpdates.single (.setOwners _ none)).trans ((returnAliasOf_updates body args dest bb
      _ (summary.returnsAliasOfParam.bind (nthArgLocal args))).trans ?_)
    exact inheritObjectsOf_updates args dest bb _ _

theorem inheritProvenance_updates (u : BlockState) :
    HeapUpdates .unknown args dest bb u (inheritProvenance args dest u) := by
  unfold inheritProvenance
  cases firstArgLocal args with
  | none => exact .refl
  | some arg =>
    dsimp only
    cases nonempty (u.ownerAlias.get arg) with
    | none => exact HeapUpdates.inheritObjects u arg
    | some owners => exact (HeapUpdates.single (.setOwners u _)).trans (HeapUpdates.inheritObjects _ arg)

theorem callUnknown_updates (u : BlockState) :
    HeapUpdates .unknown args dest bb u (callUnknown body path args dest u) := by
  have hwritten : ∀ l, HeapUpdates .unknown args dest bb u (markOwnersWritten l u) :=
    fun l => HeapUpdates.ofWrites (markOwnersWritten_writes u l) (by decide)
  have hclear : ∀ v : BlockState, HeapUpdates .unknown args dest bb v
      ((v.dropProto dest).clearScalarFacts dest) := fun v => HeapUpdates.ofWrites
    (F := .localProto :: Field.scalars)
    (((v.dropProto_writes dest).mono (by decide)).trans
      ((clearScalarFacts_writes _ dest).mono (by decide))) (by decide)
  refine Relation.ReflTransGen.trans ?_ (hclear _)
  refine HeapUpdates.ite (inheritProvenance_updates args dest bb u)
    (HeapUpdates.ite (hwritten _) (HeapUpdates.ite (hwritten _) ?_))
  exact HeapUpdates.ite .refl (HeapUpdates.escapeRawPtrArgs u body)

/-- **A recognised call is a sequence of updates**, unless it forgets a value. -/
theorem applyCallKind_updates {kind : CallKind} (hkind : kind ≠ .memForget) (u : BlockState) :
    HeapUpdates kind args dest bb u (applyCallKind tcx body path kind args dest bb u) := by
  have hscalars : ∀ v : BlockState, HeapUpdates kind args dest bb v (v.clearScalarFacts dest) :=
    fun v => HeapUpdates.ofWrites (clearScalarFacts_writes v dest) (by decide)
  have hdrop : ∀ v : BlockState, HeapUpdates kind args dest bb v
      ((v.dropProto dest).clearScalarFacts dest) :=
    fun v => (HeapUpdates.ofWrites (v.dropProto_writes dest) (by decide)).trans (hscalars _)
  cases kind with
  | memForget => exact absurd rfl hkind
  | rawRealloc =>
    exact (HeapUpdates.reconstituteArg u _).trans ((HeapUpdates.single (.mint _ rfl)).trans (hscalars _))
  | intoRaw => exact (HeapUpdates.single (.mint u rfl)).trans (hscalars _)
  | fromRaw =>
    refine (HeapUpdates.reconstituteArg u ((firstArgLocal args).or (firstArgBaseLocal args))).trans
      ((HeapUpdates.single (.clear _)).trans ?_)
    refine (HeapUpdates.ofWrites (BlockState.dropProto_writes _ dest) (by decide)).trans ?_
    exact (HeapUpdates.inheritOwners _ _).trans (hscalars _)
  | guardAcquire =>
    exact (HeapUpdates.ofWrites (acquireProto_writes u dest bb) (by decide)).trans (hscalars _)
  | assumeInit =>
    refine Relation.ReflTransGen.trans ?_ ((HeapUpdates.passObjects _).trans (hdrop _))
    split
    · exact HeapUpdates.ofWrites (u.clearInit_writes _) (by decide)
    · exact .refl
  | maybeUninitInit =>
    exact (HeapUpdates.passObjects u).trans ((hdrop _).trans
      (HeapUpdates.ofWrites (BlockState.insertInit_writes _ dest) (by decide)))
  | maybeUninitWrite =>
    exact (HeapUpdates.ofWrites (initReceiver_writes u args) (by decide)).trans (hdrop _)
  | maybeUninitAsMutPtr =>
    exact (HeapUpdates.ofWrites (pointIntoReceiver_writes u args dest) (by decide)).trans (hdrop _)
  | bufWrite =>
    refine Relation.ReflTransGen.trans ?_ ((HeapUpdates.single (.clear _)).trans (hdrop _))
    split
    · exact HeapUpdates.ofWrites (u.insertMust_writes _ _) (by decide)
    · exact .refl
  | ptrRead => exact (HeapUpdates.passObjects u).trans (hdrop _)
  | summarised summary =>
    refine (applyFnSummary_updates body args dest bb u summary).trans (.trans ?_ (hscalars _))
    cases firstArgLocal args with
    | none => exact .refl
    | some arg => exact HeapUpdates.ite (HeapUpdates.inheritObjects _ arg) .refl
  | unknown => exact callUnknown_updates body path args dest bb u

end Kind

/-- Forgetting a value escapes its objects, freed or not. -/
theorem callMemForget_heap (tcx : TyCtxt) (body : Body) (args : List Operand) (dest : Local)
    (u : BlockState) :
    (∀ src, firstArgBaseLocal args = some src → (callMemForget tcx body args dest u).heap =
      u.heap.alter (u.objectsFor src) fun _ => some .escaped) ∧
    (firstArgBaseLocal args = none → (callMemForget tcx body args dest u).heap = u.heap) := by
  unfold callMemForget
  constructor
  · intro src hsrc
    rw [hsrc]
    rfl
  · intro hnone
    rw [hnone]
    rfl

/-! ## Whole calls -/

/-- How a call is treated: as its path and its summary say if the callee is known and the result
goes to a whole local, and as an unknown call otherwise. -/
def calledKind (tcx : TyCtxt) (body : Body) (summaries : SummaryMap) (func : Operand)
    (destination : Place) (s : BlockState) : CallKind :=
  match resolveCallee tcx body func s with
  | some did =>
      if destination.isLocal then classify (tcx.defPathStr did) (summaries.get did) else .unknown
  | none => .unknown

theorem calledKind_eq_of_ne_unknown (tcx : TyCtxt) (body : Body) (summaries : SummaryMap)
    (func : Operand) (destination : Place) (s : BlockState)
    (h : calledKind tcx body summaries func destination s ≠ .unknown) :
    ∃ did, resolveCallee tcx body func s = some did ∧ destination.isLocal = true ∧
      calledKind tcx body summaries func destination s =
        classify (tcx.defPathStr did) (summaries.get did) := by
  unfold calledKind at h ⊢
  cases hcallee : resolveCallee tcx body func s with
  | none =>
    rw [hcallee] at h
    exact absurd rfl h
  | some did =>
    rw [hcallee] at h
    dsimp only at h ⊢
    cases hdest : destination.isLocal with
    | false =>
      rw [hdest] at h
      exact absurd rfl h
    | true => exact ⟨did, rfl, rfl, if_pos rfl⟩

section Call
variable (tcx : TyCtxt) (body : Body) (summaries : SummaryMap) (bb : Nat) (func : Operand)
  (args : List Operand) (destination : Place) (s : BlockState)

/-- The state once the handles into a reallocated buffer are detached. -/
def detached : BlockState :=
  reallocate body (reallocReceiver tcx summaries (resolveCallee tcx body func s) args) s

/-- What every call does before its kind matters. -/
theorem enterCall_updates (kind : CallKind) :
    HeapUpdates kind args destination.base bb (detached tcx body summaries func args s)
      (enterCall tcx body summaries (resolveCallee tcx body func s) args destination.base s) :=
  (HeapUpdates.single (.invalidate _ _)).trans <| (HeapUpdates.single (.invalidate _ _)).trans <|
    (HeapUpdates.single (.setOwners _ none)).trans <|
    HeapUpdates.ofWrites (killCapacityArgs_writes _ body args) (by decide)

/-- What is written between the detaching of stale handles and the effect of the callee. -/
def Field.entered : List Field :=
  .ownerAlias :: (derived ++ (.fact .refBase :: .mustSet .fdOrigin :: .maySet .fdConsumed ::
    .threadSpawned :: values))

theorem entered_writes {did : DefId} (hcallee : resolveCallee tcx body func s = some did)
    (path : String) (dest : Local) :
    Writes Field.entered (detached tcx body summaries func args s)
      (recordCallFacts path args dest
        ((enterCall tcx body summaries (some did) args dest s).clearRedefined dest)) := by
  unfold detached
  rw [hcallee]
  exact ((BlockState.invalidateOwners_writes _ _).mono (by decide)).trans <|
    ((BlockState.invalidateOwners_writes _ {dest}).mono (by decide)).trans <|
    ((BlockState.setOwners_writes _ dest none).mono (by decide)).trans <|
    ((killCapacityArgs_writes _ body args).mono (by decide)).trans <|
    ((BlockState.clearRedefined_writes _ dest).mono (by decide)).trans <|
    (recordCallFacts_writes _ path args dest).mono (by decide)

/-- The stages of a call that goes by its kind. -/
theorem applyCall_eq {did : DefId} (hcallee : resolveCallee tcx body func s = some did)
    (hdest : destination.isLocal = true) :
    applyCall tcx body summaries bb func args destination s =
      leaveCall tcx body (tcx.defPathStr did) args destination.base
        (applyCallKind tcx body (tcx.defPathStr did)
          (classify (tcx.defPathStr did) (summaries.get did)) args destination.base bb
          (recordCallFacts (tcx.defPathStr did) args destination.base
            ((enterCall tcx body summaries (some did) args destination.base s).clearRedefined
              destination.base))) := by
  unfold applyCall
  rw [hcallee]
  dsimp only
  rw [if_pos hdest]
  rfl

/-- **A call is a sequence of updates** of the state without stale handles, unless it forgets a
value. -/
theorem applyCall_updates
    (hkind : calledKind tcx body summaries func destination s ≠ .memForget) :
    HeapUpdates (calledKind tcx body summaries func destination s) args destination.base bb
      (detached tcx body summaries func args s)
      (applyCall tcx body summaries bb func args destination s) := by
  have henter := enterCall_updates tcx body summaries bb func args destination s
    (calledKind tcx body summaries func destination s)
  have hescape : HeapUpdates (calledKind tcx body summaries func destination s) args
      destination.base bb (detached tcx body summaries func args s)
      (escapeRawPtrArgs body args
        (enterCall tcx body summaries (resolveCallee tcx body func s) args destination.base s)) :=
    henter.trans (HeapUpdates.escapeRawPtrArgs _ body)
  cases hcallee : resolveCallee tcx body func s with
  | none =>
    rw [hcallee] at hescape
    unfold applyCall
    rw [hcallee]
    exact hescape
  | some did =>
    cases hdest : destination.isLocal with
    | false =>
      rw [hcallee] at hescape
      unfold applyCall
      rw [hcallee]
      dsimp only
      rw [if_neg (by rw [hdest]; exact Bool.false_ne_true)]
      exact hescape
    | true =>
      have hclassify : calledKind tcx body summaries func destination s =
          classify (tcx.defPathStr did) (summaries.get did) := by
        unfold calledKind
        rw [hcallee]
        exact if_pos hdest
      rw [hcallee] at henter
      rw [applyCall_eq tcx body summaries bb func args destination s hcallee hdest]
      rw [hclassify] at henter hkind ⊢
      refine henter.trans ?_
      refine (HeapUpdates.ofWrites (BlockState.clearRedefined_writes _ destination.base)
        (by decide)).trans ?_
      refine (HeapUpdates.ofWrites (recordCallFacts_writes _ (tcx.defPathStr did) args
        destination.base) (by decide)).trans ?_
      refine (applyCallKind_updates tcx body (tcx.defPathStr did) args destination.base bb hkind
        _).trans ?_
      exact HeapUpdates.ofWrites (leaveCall_writes _ tcx body (tcx.defPathStr did) args
        destination.base) (by decide)

/-- **A call that is recognised** has the effect of its kind on a state with the heap and the
objects that are left once stale handles are detached. -/
theorem applyCall_kind (hkind : calledKind tcx body summaries func destination s ≠ .unknown) :
    ∃ did u, resolveCallee tcx body func s = some did ∧
      Writes Field.entered (detached tcx body summaries func args s) u ∧
      Writes [.mustSet .nonzero, .constUpper, .maySet .layoutOverflow]
        (applyCallKind tcx body (tcx.defPathStr did)
          (calledKind tcx body summaries func destination s) args destination.base bb u)
        (applyCall tcx body summaries bb func args destination s) := by
  obtain ⟨did, hcallee, hdest, hclassify⟩ :=
    calledKind_eq_of_ne_unknown tcx body summaries func destination s hkind
  refine ⟨did, _, hcallee, entered_writes tcx body summaries func args s hcallee
    (tcx.defPathStr did) destination.base, ?_⟩
  rw [applyCall_eq tcx body summaries bb func args destination s hcallee hdest, hclassify]
  exact leaveCall_writes _ tcx body (tcx.defPathStr did) args destination.base

/-- **Forgetting a value escapes its objects**, freed or not. -/
theorem applyCall_forget_heap
    (hkind : calledKind tcx body summaries func destination s = .memForget) :
    (∀ src, firstArgBaseLocal args = some src →
      (applyCall tcx body summaries bb func args destination s).heap =
        (detached tcx body summaries func args s).heap.alter
          ((detached tcx body summaries func args s).objectsFor src) fun _ => some .escaped) ∧
    (firstArgBaseLocal args = none →
      (applyCall tcx body summaries bb func args destination s).heap =
        (detached tcx body summaries func args s).heap) := by
  obtain ⟨did, u, -, hu, hresult⟩ := applyCall_kind tcx body summaries bb func args destination s
    (hkind ▸ nofun)
  rw [hkind] at hresult
  have hheap : u.heap = (detached tcx body summaries func args s).heap := hu .heap (by decide)
  have hobjects : ∀ l, u.objectsFor l = (detached tcx body summaries func args s).objectsFor l := by
    intro l
    have hpoints : u.pointsTo = (detached tcx body summaries func args s).pointsTo :=
      hu .pointsTo (by decide)
    rw [BlockState.objectsFor, hpoints, BlockState.objectsFor]
  have hlast : (applyCall tcx body summaries bb func args destination s).heap =
      (callMemForget tcx body args destination.base u).heap := hresult .heap (by decide)
  obtain ⟨hsome, hnone⟩ := callMemForget_heap tcx body args destination.base u
  rw [hlast]
  constructor
  · intro src hsrc
    rw [hsome src hsrc, hheap, hobjects]
  · intro hsrc
    rw [hnone hsrc, hheap]

end Call

/-! ## Freed objects stay freed -/

section Freed
variable {o : ObjectId} {st : HeapState} {u v : BlockState}

theorem get_escapeLocal_of_freed (hst : st.isFreed = true) (ho : u.heap.get o = some st)
    (l : Local) : (u.escapeLocal l).heap.get o = some st := by
  show (u.heap.alter (u.objectsFor l) BlockState.escapeObject).get o = some st
  rw [FMap.get_alter, ho]
  split
  · cases st <;> first | rfl | cases hst
  · rfl

theorem get_reconstitute_of_freed (hst : st.isFreed = true) (ho : u.heap.get o = some st)
    (l : Local) : (u.reconstitute l).heap.get o = some st := by
  show (u.heap.alter (u.objectsFor l) BlockState.reconstituteObject).get o = some st
  rw [FMap.get_alter, ho]
  split
  · cases st <;> first | rfl | cases hst
  · rfl

/-- **An update leaves a freed object alone**, unless it mints it anew. -/
theorem HeapUpdate.keeps_freed {kind : CallKind} {args : List Operand} {dest : Local} {bb : Nat}
    (h : HeapUpdate kind args dest bb u v) (hst : st.isFreed = true)
    (hmint : kind.mints = true → o ≠ BlockState.callSiteObject bb)
    (ho : u.heap.get o = some st) : v.heap.get o = some st := by
  cases h with
  | frame hheap _ _ => rw [hheap]; exact ho
  | invalidate owners =>
    rw [show (u.invalidateOwners owners).heap = u.heap from
      u.invalidateOwners_writes owners .heap (by decide)]
    exact ho
  | setOwners _ => exact ho
  | clear => exact ho
  | pass _ => exact ho
  | free l => exact get_reconstitute_of_freed hst ho l
  | escape hl => exact get_escapeLocal_of_freed hst ho _
  | mint hkind => exact (FMap.get_insert_of_ne _ _ (hmint hkind)).trans ho

/-- **What an assignment does to the heap**: nothing, or it lets some objects escape. -/
theorem applyStatement_heap (tcx : TyCtxt) (body : Body) (stmt : Statement) (u : BlockState) :
    (applyStatement tcx body stmt u).heap = u.heap ∨
      ∃ objs, (applyStatement tcx body stmt u).heap = u.heap.alter objs BlockState.escapeObject := by
  unfold applyStatement
  cases stmt.kind with
  | other => exact Or.inl rfl
  | assign dst rvalue =>
    dsimp only
    have howner : (u.invalidateOwner dst.base).heap = u.heap :=
      u.invalidateOwners_writes {dst.base} .heap (by decide)
    split
    · have hlocal : (assignLocal tcx body dst.base rvalue (u.invalidateOwner dst.base)).heap =
          (u.invalidateOwner dst.base).heap :=
        assignLocal_assignable _ tcx body dst.base rvalue .heap (by decide)
      exact Or.inl (hlocal.trans howner)
    · have hrest : (assignProjected tcx body dst rvalue (u.invalidateOwner dst.base)).heap =
          (storeObjects dst rvalue (u.invalidateOwner dst.base)).heap :=
        (setUnionField_writes _ tcx body dst .heap (by decide)).trans
          (writeMaybeUninitField_writes _ body dst .heap (by decide))
      rw [hrest]
      unfold storeObjects
      split
      · exact Or.inl howner
      · split
        · split <;> exact Or.inl howner
        · split
          · exact Or.inl howner
          · rename_i src _ _ _ _
            refine Or.inr ⟨(u.invalidateOwner dst.base).objectsFor src, ?_⟩
            rw [← howner]
            rfl

/-- An assignment frees nothing and revives nothing. -/
theorem applyStatement_keeps_freed (tcx : TyCtxt) (body : Body) (stmt : Statement)
    (hst : st.isFreed = true) (ho : u.heap.get o = some st) :
    (applyStatement tcx body stmt u).heap.get o = some st := by
  rcases applyStatement_heap tcx body stmt u with hsame | ⟨objs, hescaped⟩
  · rw [hsame]
    exact ho
  · rw [hescaped, FMap.get_alter, ho]
    split
    · cases st <;> first | rfl | cases hst
    · rfl

end Freed

/-! ### The steps of a terminator -/

section Step
variable (tcx : TyCtxt) (body : Body) (summaries : SummaryMap) {o : ObjectId}

theorem get_detached_heap (func : Operand) (args : List Operand) (s : BlockState) (o : ObjectId) :
    (detached tcx body summaries func args s).heap.get o = s.heap.get o ∨
      (detached tcx body summaries func args s).heap.get o = some .maybeFreed := by
  unfold detached
  cases reallocReceiver tcx summaries (resolveCallee tcx body func s) args with
  | none => exact .inl rfl
  | some recv =>
    show (FMap.assign s.heap _ fun _ => HeapState.maybeFreed).get o = _ ∨
      (FMap.assign s.heap _ fun _ => HeapState.maybeFreed).get o = _
    rw [FMap.get_assign]
    split
    · exact .inr rfl
    · exact .inl rfl

/-- The terminator is a call that mints `o` as a fresh allocation at its own block. -/
def Mints (bb : Nat) (term : Terminator body.numBlocks) (s : BlockState) (o : ObjectId) : Prop :=
  ∃ func args destination target unwind,
    term.kind = .call func args destination target unwind ∧
      (calledKind tcx body summaries func destination s).mints = true ∧
      o = BlockState.callSiteObject bb

/-- The terminator is a `mem::forget` of a local that points to `o`, stale handles aside. -/
def Forgets (term : Terminator body.numBlocks) (s : BlockState) (o : ObjectId) : Prop :=
  ∃ func args destination target unwind src,
    term.kind = .call func args destination target unwind ∧
      calledKind tcx body summaries func destination s = .memForget ∧
      firstArgBaseLocal args = some src ∧
      o ∈ (detached tcx body summaries func args s).objectsFor src

/-- Only a call forgets. -/
theorem not_forgets {tcx : TyCtxt} {body : Body} {summaries : SummaryMap} {s : BlockState}
    {o : ObjectId} {term : Terminator body.numBlocks} {kind : TerminatorKind body.numBlocks}
    (hterm : term.kind = kind)
    (hkind : ∀ func args destination target unwind,
      kind ≠ .call func args destination target unwind) :
    ¬Forgets tcx body summaries term s o := by
  rintro ⟨func, args, destination, target, unwind, _, h, _⟩
  exact hkind func args destination target unwind (hterm.symm.trans h)

theorem applyDrop_heap (place : Place) (s : BlockState) : (applyDrop place s).heap = s.heap := by
  unfold applyDrop
  split <;> rfl

theorem exists_of_freedState {h : Option HeapState} (hfreed : freedState h = true) :
    ∃ st, h = some st ∧ st.isFreed = true := (Option.any_eq_true _ _).mp hfreed

theorem freedState_of_eq {h : Option HeapState} {st : HeapState} (heq : h = some st)
    (hst : st.isFreed = true) : freedState h = true := by
  rw [heq]
  exact hst

/-- A call that does not mint the object keeps it freed exactly when it does not forget it. -/
theorem applyCall_freed_iff {s : BlockState} (bb : Nat) (func : Operand) (args : List Operand)
    (destination : Place) (hfreed : freedState (s.heap.get o) = true)
    (hmint : (calledKind tcx body summaries func destination s).mints = true →
      o ≠ BlockState.callSiteObject bb) :
    freedState ((applyCall tcx body summaries bb func args destination s).heap.get o) = true ↔
      ¬∃ src, calledKind tcx body summaries func destination s = .memForget ∧
        firstArgBaseLocal args = some src ∧
        o ∈ (detached tcx body summaries func args s).objectsFor src := by
  have hdetached : freedState ((detached tcx body summaries func args s).heap.get o) = true := by
    rcases get_detached_heap tcx body summaries func args s o with h | h
    · rw [h]; exact hfreed
    · exact freedState_of_eq h rfl
  by_cases hkind : calledKind tcx body summaries func destination s = .memForget
  · obtain ⟨hsome, hnone⟩ := applyCall_forget_heap tcx body summaries bb func args destination s hkind
    cases hsrc : firstArgBaseLocal args with
    | none =>
      rw [hnone hsrc]
      exact ⟨fun _ ⟨_, _, h, _⟩ => (nomatch h), fun _ => hdetached⟩
    | some src =>
      rw [hsome src hsrc, FMap.get_alter]
      by_cases ho : o ∈ (detached tcx body summaries func args s).objectsFor src
      · rw [if_pos ho]
        exact ⟨fun h => (nomatch h), fun h => absurd ⟨src, hkind, rfl, ho⟩ h⟩
      · rw [if_neg ho]
        refine ⟨fun _ => ?_, fun _ => hdetached⟩
        rintro ⟨_, _, hsame, hmem⟩
        cases hsame
        exact ho hmem
  · obtain ⟨st, hst, hisFreed⟩ := exists_of_freedState hdetached
    have hkept := (applyCall_updates tcx body summaries bb func args destination s hkind).induct
      (I := fun u => u.heap.get o = some st)
      (fun _ _ h hu => h.keeps_freed hisFreed hmint hu) hst
    exact ⟨fun _ ⟨_, h, _⟩ => hkind h, fun _ => freedState_of_eq hkept hisFreed⟩

/-- **Once freed, an object stays freed, unless it is forgotten.**  No statement revives it.  A
terminator that does not mint it anew revives it exactly when it is a `mem::forget` of a local
that points to it: `Escaped` is written there whatever the state of the object. -/
theorem freed_stays_freed_iff (s : BlockState) (o : ObjectId)
    (hfreed : freedState (s.heap.get o) = true) :
    (∀ stmt, freedState ((applyStatement tcx body stmt s).heap.get o) = true) ∧
    ∀ bb term, ¬Mints tcx body summaries bb term s o →
      (freedState ((applyTerminator tcx body summaries bb term s).heap.get o) = true ↔
        ¬Forgets tcx body summaries term s o) := by
  obtain ⟨st, hst, hisFreed⟩ := exists_of_freedState hfreed
  refine ⟨fun stmt => freedState_of_eq (applyStatement_keeps_freed tcx body stmt hisFreed hst)
    hisFreed, fun bb term hmint => ?_⟩
  unfold applyTerminator
  cases hterm : term.kind with
  | call func args destination target unwind =>
    refine (applyCall_freed_iff tcx body summaries bb func args destination hfreed
      fun h ho => hmint ⟨func, args, destination, target, unwind, hterm, h, ho⟩).trans
      (not_congr ⟨?_, ?_⟩)
    · rintro ⟨src, hkind, hsrc, hmem⟩
      exact ⟨func, args, destination, target, unwind, src, hterm, hkind, hsrc, hmem⟩
    · rintro ⟨func', args', destination', target', unwind', src, hterm', hkind, hsrc, hmem⟩
      rw [hterm] at hterm'
      cases hterm'
      exact ⟨src, hkind, hsrc, hmem⟩
  | assert cond expected target unwind =>
    have hheap : (assertCondition cond expected s).heap = s.heap :=
      assertCondition_values s cond expected .heap (by decide)
    dsimp only
    rw [hheap]
    exact ⟨fun _ => not_forgets hterm nofun, fun _ => hfreed⟩
  | drop place target unwind =>
    dsimp only
    rw [applyDrop_heap]
    exact ⟨fun _ => not_forgets hterm nofun, fun _ => hfreed⟩
  | _ => exact ⟨fun _ => not_forgets hterm nofun, fun _ => hfreed⟩

end Step

/-- `_1` points to an object that has been freed. -/
def freedFirst : BlockState :=
  (BlockState.default.mintRawOwned (Local.ofNat 1) 7).reconstitute (Local.ofNat 1)

/-- A function that passes `_1` to another one. -/
def passesFirst : Body :=
  .ofBlocks 0 0 [.other, .other] 1 (fun bb =>
    [.of [] (.callTo 0 [.ofNat 1] 0 (bb 1)), .of [] .return]) (by decide)

/-- The call of `passesFirst`. -/
def passFirst : Terminator passesFirst.numBlocks := ⟨.callTo 0 [.ofNat 1] 0 (Fin.last 1), .none⟩

theorem passFirst_not_mints (path : String) :
    ¬Mints (.ofPaths [path]) passesFirst ∅ 0 passFirst freedFirst
      (BlockState.callSiteObject 7) := by
  rintro ⟨_, _, _, _, _, _, _, h⟩
  exact absurd h (by decide)

/-- The freed object stays freed when `_1` is passed to an unknown function. -/
theorem freed_stays_freed_when_passed :
    freedState ((applyTerminator (.ofPaths ["inspect"]) passesFirst ∅ 0 passFirst
      freedFirst).heap.get (BlockState.callSiteObject 7)) = true := by
  refine (((freed_stays_freed_iff (.ofPaths ["inspect"]) passesFirst ∅ freedFirst
    (BlockState.callSiteObject 7) (by decide)).2 0 passFirst (passFirst_not_mints _)).mpr ?_)
  rintro ⟨func, args, destination, target, unwind, src, hterm, hkind, -⟩
  cases hterm
  have hunknown : calledKind (.ofPaths ["inspect"]) passesFirst ∅
      (.constant ⟨none, some (⟨0, 0⟩, ⟨0⟩)⟩) (Place.ofLocal (Local.ofNat 0)) freedFirst = .unknown :=
    rfl
  rw [hunknown] at hkind
  cases hkind

/-- **A forgotten object is no longer freed.**  `mem::forget(_1)` turns an object that has been
freed into one that has escaped. -/
theorem forget_hides_free :
    freedState (freedFirst.heap.get (BlockState.callSiteObject 7)) = true ∧
      ¬Mints (.ofPaths ["std::mem::forget"]) passesFirst ∅ 0 passFirst freedFirst
        (BlockState.callSiteObject 7) ∧
      (applyTerminator (.ofPaths ["std::mem::forget"]) passesFirst ∅ 0 passFirst
        freedFirst).heap.get (BlockState.callSiteObject 7) = some .escaped :=
  ⟨by decide, passFirst_not_mints _, by decide +kernel⟩

/-! ## Reallocation makes handles stale -/

/-- `p` points to the object that stands for its stale handle, which may be freed, and to the
interior of no owner. -/
structure StaleHandle (p : Local) (u : BlockState) : Prop where
  objects : u.pointsTo.get p = some {staleObject p}
  state : u.heap.get (staleObject p) = some .maybeFreed
  owners : u.ownerAlias.get p = none

/-- A use of a stale handle is a potential use after free. -/
theorem StaleHandle.freedKind {p : Local} {u : BlockState} (h : StaleHandle p u) :
    u.freedKind p = .potential := by
  have hobjs : u.objectsFor p = {staleObject p} := by
    rw [BlockState.objectsFor, h.objects]
    rfl
  unfold BlockState.freedKind
  simp [hobjs, h.state, freedState, HeapState.isFreed]

theorem get_invalidateOwners_none {u : BlockState} {p : Local} (h : u.ownerAlias.get p = none)
    (owners : Finset Local) : (u.invalidateOwners owners).ownerAlias.get p = none := by
  unfold BlockState.invalidateOwners
  split
  · exact h
  · show (u.ownerAlias.filterMap _).get p = none
    rw [FMap.get_filterMap, h]
    rfl

/-- **An update leaves a stale handle alone** if it is neither passed nor assigned, unless the
call mints the object that stands for it. -/
theorem HeapUpdate.keeps_stale {kind : CallKind} {args : List Operand} {dest p : Local} {bb : Nat}
    {u v : BlockState} (h : HeapUpdate kind args dest bb u v) (hdest : p ≠ dest)
    (hargs : p ∉ args.filterMap operandLocal)
    (hmint : kind.mints = true → staleObject p ≠ BlockState.callSiteObject bb)
    (hu : StaleHandle p u) : StaleHandle p v := by
  have hstate := h.keeps_freed rfl hmint hu.state
  cases h with
  | frame _ hobjects howners =>
    exact ⟨by rw [hobjects]; exact hu.objects, hstate, by rw [howners]; exact hu.owners⟩
  | invalidate owners =>
    have hobjects : (u.invalidateOwners owners).pointsTo = u.pointsTo :=
      u.invalidateOwners_writes owners .pointsTo (by decide)
    exact ⟨by rw [hobjects]; exact hu.objects, hstate, get_invalidateOwners_none hu.owners owners⟩
  | setOwners o =>
    refine ⟨hu.objects, hstate, ?_⟩
    show (u.ownerAlias.put dest o).get p = none
    rw [FMap.get_put, if_neg hdest]
    exact hu.owners
  | clear =>
    refine ⟨?_, hstate, hu.owners⟩
    exact (FMap.get_erase_of_ne _ hdest).trans hu.objects
  | pass _ =>
    refine ⟨?_, hstate, hu.owners⟩
    exact (FMap.get_insert_of_ne _ _ hdest).trans hu.objects
  | free l => exact ⟨hu.objects, hstate, hu.owners⟩
  | escape hl =>
    have hne : p ≠ _ := fun heq => hargs (heq ▸ hl)
    exact ⟨(FMap.get_erase_of_ne _ hne).trans hu.objects, hstate,
      (FMap.get_erase_of_ne _ hne).trans hu.owners⟩
  | mint _ => exact ⟨(FMap.get_insert_of_ne _ _ hdest).trans hu.objects, hstate, hu.owners⟩

/-- Reallocating the buffer of an owner of `p` makes `p` stale. -/
theorem staleHandle_markStale {body : Body} {recv p : Local} {s : BlockState}
    (href : (body.localTy p).isRef = false)
    (howner : ∃ o ∈ bufferOwners recv s, o ∈ s.ownersOf p) :
    StaleHandle p (markStale body recv s) := by
  have hkey : p ∈ s.ownerAlias.keys := by
    obtain ⟨o, -, ho⟩ := howner
    by_contra hkey
    rw [BlockState.ownersOf, FMap.get_eq_none_iff.mpr hkey] at ho
    exact Finset.notMem_empty o ho
  have hstale : p ∈ stalePointers body (bufferOwners recv s) s :=
    Finset.mem_filter.mpr ⟨hkey, howner, href⟩
  refine ⟨?_, ?_, ?_⟩
  · show (s.pointsTo.assign _ fun q => {staleObject q}).get p = _
    rw [FMap.get_assign, if_pos hstale]
  · show (s.heap.assign _ fun _ => HeapState.maybeFreed).get (staleObject p) = _
    rw [FMap.get_assign, if_pos (Finset.mem_image_of_mem _ hstale)]
  · show (s.ownerAlias.retain fun q _ => q ∉ stalePointers body (bufferOwners recv s) s).get p = none
    rw [FMap.get_retain]
    simp [hstale]

/-- What is done after a summary is applied leaves the heap alone. -/
theorem callSummarised_heap (body : Body) (path : String) (summary : FnSummary)
    (args : List Operand) (dest : Local) (bb : Nat) (u : BlockState) :
    (callSummarised body path summary args dest bb u).heap =
      (applyFnSummary body args dest bb summary u).heap := by
  unfold callSummarised
  dsimp only
  refine (clearScalarFacts_writes _ dest .heap (by decide)).trans ?_
  cases firstArgLocal args with
  | none => rfl
  | some arg =>
    dsimp only
    split
    · exact inheritObjects_writes _ dest arg .heap (by decide)
    · rfl

/-- A minted object is owned when the call returns. -/
theorem get_mint_applyCallKind (tcx : TyCtxt) (body : Body) (path : String) {kind : CallKind}
    (hkind : kind.mints = true) (args : List Operand) (dest : Local) (bb : Nat) (u : BlockState) :
    (applyCallKind tcx body path kind args dest bb u).heap.get (BlockState.callSiteObject bb) =
      some .rawOwned := by
  cases kind with
  | rawRealloc => exact FMap.get_insert_self _ _ _
  | intoRaw => exact FMap.get_insert_self _ _ _
  | summarised summary =>
    have hsummary : (applyFnSummary body args dest bb summary u).heap.get
        (BlockState.callSiteObject bb) = some .rawOwned := by
      have hheap := returned_writes (if summary.returnsRawOwned then
          (summary.paramEffects.foldl (applyParamEffect args) u).mintRawOwned dest bb
        else ((summary.paramEffects.foldl (applyParamEffect args) u).setObjects dest none).dropProto
          dest) (summary.returnsAliasOfParam.bind (nthArgLocal args)) body dest
        (summary.returnsPtrOfParam.bind (nthArgLocal args)) .heap (by decide)
      refine (congrArg (FMap.get · (BlockState.callSiteObject bb)) hheap).trans ?_
      rw [if_pos (show summary.returnsRawOwned = true from hkind)]
      exact FMap.get_insert_self _ _ _
    exact (congrArg (FMap.get · (BlockState.callSiteObject bb))
      (callSummarised_heap body path summary args dest bb u)).trans hsummary
  | _ => cases hkind

/-- A chain of tests that ends in `x` has passed all those that would end otherwise. -/
theorem of_ite_eq {c : Prop} [Decidable c] {a b x : CallKind} (h : (if c then a else b) = x)
    (ha : a ≠ x) : ¬c ∧ b = x := by
  by_cases hc : c
  · rw [if_pos hc] at h
    exact absurd h ha
  · rw [if_neg hc] at h
    exact ⟨hc, h⟩

theorem isMemForget_of_classify {path : String} {summary : Option FnSummary}
    (h : classify path summary = .memForget) : isMemForget path = true := by
  by_contra hnot
  unfold classify at h
  iterate 3 replace h := (of_ite_eq h nofun).2
  rw [if_neg hnot] at h
  iterate 8 replace h := (of_ite_eq h nofun).2
  cases summary <;> cases h

/-- A reallocating method is not `mem::forget`. -/
theorem classify_ne_memForget {path : String} (h : isReallocatingMethod path = true)
    (summary : Option FnSummary) : classify path summary ≠ .memForget := by
  intro hkind
  rcases Bool.or_eq_true_iff.mp (isMemForget_of_classify hkind) with hpath | hpath
  · rw [beq_iff_eq.mp hpath] at h
    exact absurd h (by decide +kernel)
  · rw [beq_iff_eq.mp hpath] at h
    exact absurd h (by decide +kernel)

/-- The call `_3 = push(_1)`. -/
def pushFirst (n : Nat) : Terminator (n + 1) := ⟨.callTo 0 [.ofNat 1] 3 ⟨0, n.succ_pos⟩, .none⟩

/-- A function with `n + 1` blocks, each of which makes this call. -/
def pushesFirst (n : Nat) : Body where
  numBlocks := n + 1
  basicBlocks _ := ⟨[], some (pushFirst n)⟩
  localDecls := [.other, .other, .other, .other]
  argCount := 1
  defId := ⟨0, 1⟩
  numBlocks_pos := n.succ_pos
  args_declared := by decide
  locals_le := by decide
  locals_declared _ := by
    show ∀ l ∈ [Local.ofNat 1, Local.ofNat 3], l.index.val < 4
    decide

/-- `_2` points into the buffer of `_1`. -/
def aliasesFirst : BlockState :=
  BlockState.default.setOwners (Local.ofNat 2) (some {Local.ofNat 1})

def pushPaths : TyCtxt := .ofPaths ["alloc::vec::Vec::<T, A>::push"]

/-- `push`, summarised as returning an owned pointer. -/
def pushSummaries : SummaryMap := (∅ : SummaryMap).insert ⟨0, 0⟩ ⟨[], true, none, none, none⟩

/-! ## Freeing through a wrapper -/

/-- The suffixes of the paths that free their first argument. -/
def freeingSuffixes : List String :=
  ["::from_raw", "::from_raw_in", "::from_non_null", "::from_non_null_in", "::from_raw_parts",
    "::from_raw_parts_in", "::from_raw_slice", "std::alloc::dealloc", "core::alloc::dealloc",
    "alloc::alloc::dealloc", "__rust_dealloc", "Allocator::deallocate"]

theorem endsWith_self (path : String) : endsWith path path = true :=
  List.isSuffixOf_iff_suffix.mpr (List.suffix_refl _)

/-- A path that is one of a list ends with one of it. -/
theorem endsWithAny_of_contains {path : String} {paths : List String}
    (h : paths.contains path = true) : endsWithAny path paths = true :=
  List.any_eq_true.mpr ⟨path, List.contains_iff_mem.mp h, endsWith_self path⟩

theorem endsWithAny_mono {path : String} {as bs : List String} (hsub : as ⊆ bs)
    (h : endsWithAny path as = true) : endsWithAny path bs = true := by
  obtain ⟨a, ha, hpath⟩ := List.any_eq_true.mp h
  exact List.any_eq_true.mpr ⟨a, hsub ha, hpath⟩

theorem endsWithAny_singleton {path a : String} (h : endsWith path a = true) :
    endsWithAny path [a] = true := List.any_eq_true.mpr ⟨a, List.mem_singleton_self a, h⟩

theorem suffix_of_isFromRaw {path : String} (h : isFromRaw path = true) :
    endsWithAny path freeingSuffixes = true := by
  have hone : ∀ a, a ∈ freeingSuffixes → endsWith path a = true →
      endsWithAny path freeingSuffixes = true := fun a ha hpath =>
    List.any_eq_true.mpr ⟨a, ha, hpath⟩
  unfold isFromRaw at h
  simp only [Bool.or_eq_true, Bool.and_eq_true] at h
  rcases h with ((((h | h) | h) | h) | h | h) | h
  · exact hone _ (by decide) h.1
  · exact hone _ (by decide) h.1
  · exact endsWithAny_mono (by decide) h.1
  · exact endsWithAny_mono (by decide) h.1
  · exact endsWithAny_mono (by decide) (endsWithAny_of_contains h)
  · exact hone _ (by decide) h
  · exact hone _ (by decide) h.1

/-- A path that frees does not reallocate, and is recognised as freeing whatever its summary. -/
theorem classify_of_isFromRaw {path : String} (h : isFromRaw path = true)
    (summary : Option FnSummary) :
    isReallocatingMethod path = false ∧ classify path summary = .fromRaw := by
  have hsuffix := suffix_of_isFromRaw h
  have hrealloc : isReallocatingMethod path = false := by
    have hnone : endsWithAny path ["::reserve", "::reserve_exact", "::try_reserve",
      "::try_reserve_exact", "::shrink_to_fit", "::shrink_to", "::into_boxed_slice", "::push",
      "::push_str", "::insert", "::append", "::extend_from_slice", "::resize", "::resize_with",
      "::extend_from_within", "::insert_str"] = false :=
      endsWithAny_disjoint (by decide +kernel) hsuffix
    unfold isReallocatingMethod
    dsimp only
    rw [hnone, Bool.and_false]
  have hrawRealloc : isRawRealloc path = false := by
    have hnone : endsWithAny path ["std::alloc::realloc", "core::alloc::realloc",
      "alloc::alloc::realloc", "__rust_realloc", "Allocator::grow", "Allocator::grow_zeroed",
      "Allocator::shrink"] = false :=
      endsWithAny_disjoint (by decide +kernel) hsuffix
    refine Bool.eq_false_iff.mpr fun hreal => ?_
    rcases Bool.or_eq_true_iff.mp hreal with hin | hend
    · rw [endsWithAny_mono (by decide) (endsWithAny_of_contains hin)] at hnone
      cases hnone
    · rw [endsWithAny_mono (by decide) hend] at hnone
      cases hnone
  have hintoRaw : isIntoRaw path = false := by
    have hnone : endsWithAny path ["::into_raw", "::into_raw_with_allocator",
      "::into_non_null", "::into_raw_parts", "::into_raw_parts_with_alloc", "std::alloc::alloc",
      "core::alloc::alloc", "alloc::alloc::alloc", "__rust_alloc", "std::alloc::alloc_zeroed",
      "core::alloc::alloc_zeroed", "alloc::alloc::alloc_zeroed", "__rust_alloc_zeroed",
      "Allocator::allocate", "Allocator::allocate_zeroed"] = false :=
      endsWithAny_disjoint (by decide +kernel) hsuffix
    refine Bool.eq_false_iff.mpr fun hinto => ?_
    unfold isIntoRaw at hinto
    simp only [Bool.or_eq_true, Bool.and_eq_true] at hinto
    rcases hinto with hinto | (hin | hend) | hend
    · rw [endsWithAny_mono (by decide) hinto.1] at hnone
      cases hnone
    · rw [endsWithAny_mono (by decide) (endsWithAny_of_contains hin)] at hnone
      cases hnone
    · rw [endsWithAny_mono (by decide) (endsWithAny_singleton hend)] at hnone
      cases hnone
    · rw [endsWithAny_mono (by decide) (endsWithAny_singleton hend)] at hnone
      cases hnone
  refine ⟨hrealloc, ?_⟩
  unfold classify
  rw [if_neg (by rw [hrawRealloc]; exact Bool.false_ne_true),
    if_neg (by rw [hintoRaw]; exact Bool.false_ne_true), if_pos h]

/-- The summary of a function that frees its first argument and does nothing else. -/
def consumingSummary : FnSummary := ⟨[(0, .reconstituted)], false, none, none, none⟩

/-- The path belongs to none of the families of calls that are recognised. -/
def Unrecognised (path : String) : Prop :=
  classify path none = .unknown ∧ isReallocatingMethod path = false ∧
    isOwnedBufferAccessor path = false

/-- An unrecognised callee goes by its summary. -/
theorem classify_of_unknown {path : String} (h : classify path none = .unknown)
    (summary : FnSummary) : classify path (some summary) = .summarised summary := by
  unfold classify at h ⊢
  iterate 11
    rw [if_neg (of_ite_eq h nofun).1]
    replace h := (of_ite_eq h nofun).2
  rw [if_neg (of_ite_eq h nofun).1]

section Wrapper
variable {tcx : TyCtxt} {body : Body} {summaries : SummaryMap} {s : BlockState} {did : DefId}
  {func : Operand} {args : List Operand} {a dest : Local}

theorem calledKind_of_callee (hcallee : resolveCallee tcx body func s = some did) :
    calledKind tcx body summaries func (Place.ofLocal dest) s =
      classify (tcx.defPathStr did) (summaries.get did) := by
  unfold calledKind
  rw [hcallee]
  rfl

/-- A callee that reallocates nothing, neither by its name nor by its summary. -/
theorem detached_of_callee (hcallee : resolveCallee tcx body func s = some did)
    (hmethod : isReallocatingMethod (tcx.defPathStr did) = false)
    (hsummary : (summaries.get did).bind FnSummary.reallocsParam = none) :
    detached tcx body summaries func args s = s := by
  have hrecv : reallocReceiver tcx summaries (resolveCallee tcx body func s) args = none := by
    rw [hcallee]
    unfold reallocReceiver
    rw [if_neg (by rw [Option.any_some, hmethod]; exact Bool.false_ne_true)]
    show ((summaries.get did).bind FnSummary.reallocsParam).bind _ = none
    rw [hsummary]
    rfl
  unfold detached
  rw [hrecv]
  rfl

/-- Freeing `a` and assigning `dest` looks at the heap and at the objects of `a` only. -/
theorem freed_of_entered {u t : BlockState} (hu : Writes Field.entered s u)
    (hheap : t.heap = (u.reconstitute a).heap) (hobjects : t.pointsTo = u.pointsTo.erase dest) :
    t.heap = (s.reconstitute a).heap ∧ t.pointsTo = s.pointsTo.erase dest := by
  have hsame : u.heap = s.heap := hu .heap (by decide)
  have hpoints : u.pointsTo = s.pointsTo := hu .pointsTo (by decide)
  rw [hpoints] at hobjects
  refine ⟨hheap.trans ?_, hobjects⟩
  unfold BlockState.reconstitute BlockState.objectsFor
  rw [hsame, hpoints]

/-- What freeing `a` directly does to the heap and to the objects of locals. -/
theorem applyCall_fromRaw (dest : Local) (bb : Nat) (hcallee : resolveCallee tcx body func s = some did)
    (hfree : isFromRaw (tcx.defPathStr did) = true) (hnone : summaries.get did = none)
    (harg : firstArgLocal args = some a) :
    (applyCall tcx body summaries bb func args (Place.ofLocal dest) s).heap =
        (s.reconstitute a).heap ∧
      (applyCall tcx body summaries bb func args (Place.ofLocal dest) s).pointsTo =
        s.pointsTo.erase dest := by
  obtain ⟨hmethod, hclassify⟩ := classify_of_isFromRaw hfree (summaries.get did)
  have hkind : calledKind tcx body summaries func (Place.ofLocal dest) s = .fromRaw :=
    (calledKind_of_callee hcallee).trans hclassify
  obtain ⟨_, u, -, hu, hlast⟩ := applyCall_kind tcx body summaries bb func args (Place.ofLocal dest)
    s (hkind ▸ nofun)
  rw [detached_of_callee hcallee hmethod (by rw [hnone]; rfl)] at hu
  rw [hkind] at hlast
  have hcall : (callFromRaw args dest u).heap = (u.reconstitute a).heap ∧
      (callFromRaw args dest u).pointsTo = u.pointsTo.erase dest := by
    unfold callFromRaw
    rw [harg]
    exact ⟨rfl, rfl⟩
  have hheap : (applyCall tcx body summaries bb func args (Place.ofLocal dest) s).heap =
      (callFromRaw args dest u).heap := hlast .heap (by decide)
  have hobjects : (applyCall tcx body summaries bb func args (Place.ofLocal dest) s).pointsTo =
      (callFromRaw args dest u).pointsTo := hlast .pointsTo (by decide)
  exact freed_of_entered hu (hheap.trans hcall.1) (hobjects.trans hcall.2)

/-- What a consuming wrapper does to them. -/
theorem applyCall_consuming (dest : Local) (bb : Nat)
    (hcallee : resolveCallee tcx body func s = some did)
    (hpath : Unrecognised (tcx.defPathStr did)) (hsummary : summaries.get did = some consumingSummary)
    (harg : firstArgLocal args = some a) :
    (applyCall tcx body summaries bb func args (Place.ofLocal dest) s).heap =
        (s.reconstitute a).heap ∧
      (applyCall tcx body summaries bb func args (Place.ofLocal dest) s).pointsTo =
        s.pointsTo.erase dest := by
  obtain ⟨hunknown, hmethod, haccessor⟩ := hpath
  have hkind : calledKind tcx body summaries func (Place.ofLocal dest) s =
      .summarised consumingSummary := by
    rw [calledKind_of_callee hcallee, hsummary]
    exact classify_of_unknown hunknown _
  obtain ⟨did', u, hdid, hu, hlast⟩ := applyCall_kind tcx body summaries bb func args
    (Place.ofLocal dest) s (hkind ▸ nofun)
  rw [hcallee] at hdid
  cases hdid
  rw [detached_of_callee hcallee hmethod (by rw [hsummary]; rfl)] at hu
  rw [hkind] at hlast
  have heffect : applyParamEffect args u (0, .reconstituted) = (u.reconstitute a).dropProto a := by
    unfold applyParamEffect
    rw [show nthArgLocal args 0 = some a from harg]
  have hcall : (callSummarised body (tcx.defPathStr did) consumingSummary args dest bb u).heap =
        (u.reconstitute a).heap ∧
      (callSummarised body (tcx.defPathStr did) consumingSummary args dest bb u).pointsTo =
        u.pointsTo.erase dest := by
    have hsum : applyFnSummary body args dest bb consumingSummary u =
        (((applyParamEffect args u (0, .reconstituted)).setObjects dest none).dropProto
          dest).setOwners dest none := rfl
    unfold callSummarised
    dsimp only
    rw [hsum, heffect, harg]
    dsimp only
    rw [haccessor, Bool.false_and, if_neg Bool.false_ne_true]
    exact ⟨rfl, rfl⟩
  have hheap : (applyCall tcx body summaries bb func args (Place.ofLocal dest) s).heap =
      (callSummarised body (tcx.defPathStr did) consumingSummary args dest bb u).heap :=
    hlast .heap (by decide)
  have hobjects : (applyCall tcx body summaries bb func args (Place.ofLocal dest) s).pointsTo =
      (callSummarised body (tcx.defPathStr did) consumingSummary args dest bb u).pointsTo :=
    hlast .pointsTo (by decide)
  exact freed_of_entered hu (hheap.trans hcall.1) (hobjects.trans hcall.2)

end Wrapper

/-- **A consuming wrapper frees as the call it wraps does.**  A call of a function that is
summarised as freeing its first argument leaves the same heap and the same objects as a direct
`from_raw` of the argument, so that every later use or free is judged alike. -/
theorem wrapper_frees_alike (tcx : TyCtxt) (body : Body) (summaries : SummaryMap) (s : BlockState)
    (bb : body.BasicBlock) (a dest : Local) (direct wrapper : Terminator body.numBlocks)
    (func func' : Operand) (args args' : List Operand) (target target' : Option body.BasicBlock)
    (unwind unwind' : UnwindAction body.numBlocks) (did did' : DefId)
    (hdirect : direct.kind = .call func args (Place.ofLocal dest) target unwind)
    (hcallee : resolveCallee tcx body func s = some did)
    (hfree : isFromRaw (tcx.defPathStr did) = true) (hnone : summaries.get did = none)
    (harg : firstArgLocal args = some a)
    (hwrapper : wrapper.kind = .call func' args' (Place.ofLocal dest) target' unwind')
    (hcallee' : resolveCallee tcx body func' s = some did')
    (hpath : Unrecognised (tcx.defPathStr did'))
    (hsummary : summaries.get did' = some consumingSummary)
    (harg' : firstArgLocal args' = some a) :
    let freed := applyTerminator tcx body summaries bb.val direct s
    let consumed := applyTerminator tcx body summaries bb.val wrapper s
    freed.heap = consumed.heap ∧ freed.pointsTo = consumed.pointsTo ∧
      ∀ l, freed.freedKind l = consumed.freedKind l ∧
        freed.ptrIsRawOwned l = consumed.ptrIsRawOwned l := by
  intro freed consumed
  have hfreed : freed =
      applyCall tcx body summaries bb.val func args (Place.ofLocal dest) s := by
    show applyTerminator tcx body summaries bb.val direct s = _
    unfold applyTerminator
    rw [hdirect]
  have hconsumed : consumed =
      applyCall tcx body summaries bb.val func' args' (Place.ofLocal dest) s := by
    show applyTerminator tcx body summaries bb.val wrapper s = _
    unfold applyTerminator
    rw [hwrapper]
  obtain ⟨hheap, hobjects⟩ := applyCall_fromRaw dest bb.val hcallee hfree hnone harg
  obtain ⟨hheap', hobjects'⟩ := applyCall_consuming dest bb.val hcallee' hpath hsummary harg'
  rw [← hfreed] at hheap hobjects
  rw [← hconsumed] at hheap' hobjects'
  have hsame : freed.heap = consumed.heap := hheap.trans hheap'.symm
  have hpoints : freed.pointsTo = consumed.pointsTo := hobjects.trans hobjects'.symm
  refine ⟨hsame, hpoints, fun l => ?_⟩
  unfold BlockState.freedKind BlockState.ptrIsRawOwned BlockState.objectsFor
  rw [hsame, hpoints]
  exact ⟨rfl, rfl⟩

def consumePaths : TyCtxt := .ofPaths ["alloc::boxed::Box::<T>::from_raw", "consume_raw"]

/-- `consume_raw` frees its argument. -/
def consumeSummaries : SummaryMap := (∅ : SummaryMap).insert ⟨0, 1⟩ consumingSummary

/-- `_0 = f(_1)` for the function with the given number. -/
def callFirst (callee : Nat) : Terminator passesFirst.numBlocks :=
  ⟨.callTo callee [.ofNat 1] 0 (Fin.last 1), .none⟩

/-- A pointer that `_1` owns is freed alike by `from_raw` and by `consume_raw`. -/
theorem owned_pointer_freed_alike :
    (applyTerminator consumePaths passesFirst consumeSummaries 0 (callFirst 0)
        (BlockState.default.mintRawOwned (Local.ofNat 1) 7)).freedKind (Local.ofNat 1) =
      (applyTerminator consumePaths passesFirst consumeSummaries 0 (callFirst 1)
        (BlockState.default.mintRawOwned (Local.ofNat 1) 7)).freedKind (Local.ofNat 1) :=
  ((wrapper_frees_alike consumePaths passesFirst consumeSummaries
    (BlockState.default.mintRawOwned (Local.ofNat 1) 7) (0 : Fin 2) (Local.ofNat 1) (Local.ofNat 0)
    (callFirst 0) (callFirst 1) _ _ _ _ _ _ _ _ ⟨0, 0⟩ ⟨0, 1⟩ rfl rfl (by decide +kernel) rfl rfl
    rfl rfl ⟨rfl, by decide +kernel, by decide +kernel⟩ rfl rfl).2.2 (Local.ofNat 1)).1

end San
