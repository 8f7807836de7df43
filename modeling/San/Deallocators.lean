import San.Pipeline
import San.SummaryExtraction

/-! # Where frees come from

An object is freed by the calls that are known to free: by their names, or because the summary of
the callee says so.  All other calls let objects escape or allocate new ones.  `NothingNew` says so
about one step, and two results about whole analyses rest on it.

Wherever an object is freed, or may be, a call that can free comes before in the control flow:
`freed_before`.  And a crate frees only what its own functions hand to deallocators that are
known by their names: whatever the bodies of other crates do, `run_checks` does not believe that
they free (`frees_need_a_deallocator`).
-/
namespace San

/-! ## Marks -/

/-- A property of the state of an object that neither an allocation nor an escape brings about,
and that a merge has from one of its sides. -/
structure FreeMark (P : Option HeapState → Prop) : Prop where
  absent : ¬P none
  rawOwned : ¬P (some .rawOwned)
  escaped : ¬P (some .escaped)
  merge : ∀ u v, P (mergeHeap u v) → P u ∨ P v

/-- The object is freed for certain. -/
def freedSurely (u : Option HeapState) : Prop := u = some .reconstituted

instance : DecidablePred freedSurely :=
  fun u => inferInstanceAs (Decidable (u = some .reconstituted))

theorem freeMark_surely : FreeMark freedSurely where
  absent := nofun
  rawOwned := nofun
  escaped := nofun
  merge u v := by
    rcases u with _ | ⟨_ | _ | _ | _⟩ <;> rcases v with _ | ⟨_ | _ | _ | _⟩ <;> decide

theorem freeMark_freedState : FreeMark fun u => freedState u = true where
  absent := nofun
  rawOwned := nofun
  escaped := nofun
  merge u v := by
    rcases u with _ | ⟨_ | _ | _ | _⟩ <;> rcases v with _ | ⟨_ | _ | _ | _⟩ <;> decide

theorem FreeMark.of_escapeObject {P : Option HeapState → Prop} (hP : FreeMark P)
    {u : Option HeapState} (h : P (BlockState.escapeObject u)) : P u := by
  rcases u with _ | ⟨_ | _ | _ | _⟩ <;> first | exact h | exact absurd h hP.escaped

/-- From `s` to `t`, no object has received the mark. -/
def NothingNew (P : Option HeapState → Prop) (s t : BlockState) : Prop :=
  ∀ o, P (t.heap.get o) → P (s.heap.get o)

namespace NothingNew
variable {P : Option HeapState → Prop} {s t u : BlockState}

theorem of_eq (h : t.heap = s.heap) : NothingNew P s t := fun _ ho => h ▸ ho

theorem trans (h : NothingNew P s t) (h' : NothingNew P t u) : NothingNew P s u :=
  fun o ho => h o (h' o ho)

theorem of_writes {F : List Field} (h : Writes F s t) (hF : .heap ∉ F) : NothingNew P s t :=
  of_eq (h .heap hF)

theorem of_alter {objs : Finset ObjectId} {f : Option HeapState → Option HeapState}
    (h : t.heap = s.heap.alter objs f) (hf : ∀ st, P (f st) → P st) : NothingNew P s t := by
  intro o ho
  rw [h, FMap.get_alter] at ho
  split at ho
  · exact hf _ ho
  · exact ho

theorem of_insert {o : ObjectId} {st : HeapState} (h : t.heap = s.heap.insert o st)
    (hst : ¬P (some st)) : NothingNew P s t := by
  intro o' ho'
  rw [h] at ho'
  by_cases ho : o' = o
  · subst ho
    rw [FMap.get_insert_self] at ho'
    exact absurd ho' hst
  · rwa [FMap.get_insert_of_ne _ _ ho] at ho'

end NothingNew

/-! ## Calls that free nothing -/

/-- The calls that free an object for certain. -/
def CallKind.frees : CallKind → Bool
  | .rawRealloc | .fromRaw => true
  | .summarised summary => summary.paramEffects.any fun e => e.2 == .reconstituted
  | _ => false

/-- The function is known to free by its name. -/
def isDeallocator (path : String) : Bool := isRawRealloc path || isFromRaw path

/-- The summary does not say that a parameter is freed. -/
def FnSummary.FreesNothing (summary : FnSummary) : Prop :=
  ∀ e ∈ summary.paramEffects, e.2 ≠ .reconstituted

instance (summary : FnSummary) : Decidable summary.FreesNothing :=
  inferInstanceAs (Decidable (∀ e ∈ summary.paramEffects, e.2 ≠ .reconstituted))

theorem frees_classify {path : String} (hpath : isDeallocator path = false)
    {summary : Option FnSummary} (hsummary : ∀ s ∈ summary, s.FreesNothing) :
    (classify path summary).frees = false := by
  obtain ⟨hrealloc, hfromRaw⟩ := Bool.or_eq_false_iff.mp hpath
  unfold classify
  rw [hrealloc, hfromRaw]
  repeat' split
  all_goals first
    | contradiction
    | rfl
    | (refine List.any_eq_false.mpr fun e he => ?_
       rw [beq_iff_eq]
       exact hsummary _ rfl e he)

namespace FreeMark
variable {P : Option HeapState → Prop} (hP : FreeMark P)
include hP

theorem escapeLocal (s : BlockState) (l : Local) : NothingNew P s (s.escapeLocal l) :=
  .of_alter rfl fun _ => hP.of_escapeObject

theorem escapeRawPtrArgs (body : Body) (args : List Operand) (s : BlockState) :
    NothingNew P s (escapeRawPtrArgs body args s) := by
  unfold San.escapeRawPtrArgs
  induction args generalizing s with
  | nil => exact .of_eq rfl
  | cons arg args ih =>
      refine NothingNew.trans ?_ (ih _)
      unfold escapeRawPtrArg
      split
      · exact .of_eq rfl
      · split
        · exact hP.escapeLocal s _
        · exact .of_eq rfl

theorem paramEffects {effects : List (Nat × ParamHeapEffect)}
    (heffects : ∀ e ∈ effects, e.2 ≠ .reconstituted) (args : List Operand) (s : BlockState) :
    NothingNew P s (effects.foldl (applyParamEffect args) s) := by
  induction effects generalizing s with
  | nil => exact .of_eq rfl
  | cons e effects ih =>
      refine NothingNew.trans ?_ (ih (fun e' he' => heffects e' (List.mem_cons_of_mem e he')) _)
      have he := heffects e List.mem_cons_self
      unfold applyParamEffect
      split
      · next heq => exact absurd heq he
      · exact hP.escapeLocal s _
      · exact .of_eq rfl

theorem applyFnSummary {summary : FnSummary} (hsummary : summary.FreesNothing) (body : Body)
    (args : List Operand) (dest : Local) (bb : Nat) (s : BlockState) :
    NothingNew P s (applyFnSummary body args dest bb summary s) := by
  refine (hP.paramEffects hsummary args s).trans (.trans ?_ (.of_writes (returned_writes _
    (summary.returnsAliasOfParam.bind (nthArgLocal args)) body dest
    (summary.returnsPtrOfParam.bind (nthArgLocal args))) (by decide)))
  split
  · exact .of_insert rfl hP.rawOwned
  · exact .of_eq rfl

theorem callUnknown (body : Body) (path : String) (args : List Operand) (dest : Local)
    (s : BlockState) : NothingNew P s (callUnknown body path args dest s) := by
  refine NothingNew.trans ?_ (NothingNew.of_writes (F := .localProto :: Field.scalars)
    (((BlockState.dropProto_writes _ dest).mono (by decide)).trans
      ((clearScalarFacts_writes _ dest).mono (by decide))) (by decide))
  split
  · refine .of_eq ?_
    unfold inheritProvenance
    cases firstArgLocal args with
    | none => rfl
    | some arg =>
      dsimp only
      cases nonempty (s.ownerAlias.get arg) with
      | none => exact inheritObjects_writes _ dest arg .heap (by decide)
      | some owners => exact inheritObjects_writes _ dest arg .heap (by decide)
  · split
    · exact .of_writes (markOwnersWritten_writes s _) (by decide)
    · split
      · exact .of_writes (markOwnersWritten_writes s _) (by decide)
      · split
        · exact .of_eq rfl
        · exact hP.escapeRawPtrArgs body args s

/-- **A call of a kind that frees nothing** marks nothing. -/
theorem applyCallKind (tcx : TyCtxt) (body : Body) (path : String) {kind : CallKind}
    (hkind : kind.frees = false) (args : List Operand) (dest : Local) (bb : Nat) (s : BlockState) :
    NothingNew P s (applyCallKind tcx body path kind args dest bb s) := by
  cases kind with
  | rawRealloc => cases hkind
  | fromRaw => cases hkind
  | intoRaw => exact .of_insert rfl hP.rawOwned
  | memForget =>
    obtain ⟨hsome, hnone⟩ := callMemForget_heap tcx body args dest s
    cases hsrc : firstArgBaseLocal args with
    | none => exact .of_eq (hnone hsrc)
    | some src => exact .of_alter (hsome src hsrc) fun _ h => absurd h hP.escaped
  | summarised summary =>
    have hsummary : summary.FreesNothing := fun e he hfree =>
      List.any_eq_false.mp hkind e he (beq_iff_eq.mpr hfree)
    exact (hP.applyFnSummary hsummary body args dest bb s).trans
      (.of_eq (callSummarised_heap body path summary args dest bb s))
  | unknown => exact hP.callUnknown body path args dest s
  | guardAcquire => exact .of_eq rfl
  | assumeInit =>
    refine .of_eq ?_
    unfold San.applyCallKind callAssumeInit
    cases firstArgLocal args <;> rfl
  | maybeUninitInit => exact .of_eq rfl
  | maybeUninitWrite =>
    refine .of_eq ?_
    unfold San.applyCallKind callMaybeUninitWrite initReceiver
    cases firstArgLocal args <;> rfl
  | maybeUninitAsMutPtr =>
    refine .of_eq ?_
    unfold San.applyCallKind callMaybeUninitAsMutPtr pointIntoReceiver
    cases firstArgLocal args <;> rfl
  | bufWrite =>
    refine .of_eq ?_
    unfold San.applyCallKind callBufWrite
    cases firstArgLocal args <;> rfl
  | ptrRead => exact .of_eq rfl

section Steps
variable {tcx : TyCtxt} {body : Body} {summaries : SummaryMap}

omit hP in
theorem enterCall {func : Operand} {args : List Operand} {s : BlockState}
    (hrealloc : P (some .maybeFreed) →
      reallocReceiver tcx summaries (resolveCallee tcx body func s) args = none) (dest : Local) :
    NothingNew P s (enterCall tcx body summaries (resolveCallee tcx body func s) args dest s) := by
  have hdetached : NothingNew P s (detached tcx body summaries func args s) := by
    intro o ho
    rcases get_detached_heap tcx body summaries func args s o with hsame | hstale
    · rwa [hsame] at ho
    · have hnone := hrealloc (hstale ▸ ho)
      unfold detached at ho
      rw [hnone] at ho
      exact ho
  exact hdetached.trans (NothingNew.of_writes (F := Field.entered)
    (((BlockState.invalidateOwners_writes _ _).mono (by decide)).trans <|
      ((BlockState.invalidateOwners_writes _ {dest}).mono (by decide)).trans <|
      ((BlockState.setOwners_writes _ dest none).mono (by decide)).trans <|
      (killCapacityArgs_writes _ body args).mono (by decide)) (by decide))

/-- **A call whose callee frees nothing** marks nothing, unless it reallocates. -/
theorem applyCall {func : Operand} {args : List Operand} {s : BlockState} (bb : Nat)
    (hcallee : ∀ did ∈ resolveCallee tcx body func s, isDeallocator (tcx.defPathStr did) = false ∧
      ∀ summary ∈ summaries.get did, summary.FreesNothing)
    (hrealloc : P (some .maybeFreed) →
      reallocReceiver tcx summaries (resolveCallee tcx body func s) args = none)
    (destination : Place) :
    NothingNew P s (applyCall tcx body summaries bb func args destination s) := by
  have henter := FreeMark.enterCall hrealloc destination.base
  unfold San.applyCall
  cases hdid : resolveCallee tcx body func s with
  | none =>
    rw [hdid] at henter
    exact henter.trans (hP.escapeRawPtrArgs body args _)
  | some did =>
    rw [hdid] at henter
    dsimp only
    split
    · obtain ⟨hpath, hsummary⟩ := hcallee did hdid
      exact henter.trans <| (NothingNew.of_writes (BlockState.clearRedefined_writes _ _)
        (by decide)).trans <| (NothingNew.of_writes (recordCallFacts_writes _ _ _ _)
        (by decide)).trans <| (hP.applyCallKind tcx body _ (frees_classify hpath hsummary) args _ bb
        _).trans <| .of_writes (leaveCall_writes _ tcx body _ args _) (by decide)
    · exact henter.trans (hP.escapeRawPtrArgs body args _)

theorem applyStatement (tcx : TyCtxt) (body : Body) (stmt : Statement) (s : BlockState) :
    NothingNew P s (applyStatement tcx body stmt s) := by
  rcases applyStatement_heap tcx body stmt s with hsame | ⟨objs, hescaped⟩
  · exact .of_eq hsame
  · exact .of_alter hescaped fun _ => hP.of_escapeObject

theorem applyStatements (tcx : TyCtxt) (body : Body) (stmts : List Statement) (s : BlockState) :
    NothingNew P s (applyStatements tcx body stmts s) := by
  induction stmts generalizing s with
  | nil => exact .of_eq rfl
  | cons stmt stmts ih => exact (hP.applyStatement tcx body stmt s).trans (ih _)

/-- **An edge out of a block** whose terminator neither frees nor reallocates marks nothing. -/
theorem edgeState {bb : body.BasicBlock} {s : BlockState} (hreified : ReifiedTargets body s)
    (hcallees : ∀ term ∈ (body.basicBlocks bb).terminator, ∀ did ∈ term.callees tcx body,
      isDeallocator (tcx.defPathStr did) = false ∧
        (∀ summary ∈ summaries.get did, summary.FreesNothing) ∧
        (P (some .maybeFreed) → isReallocatingMethod (tcx.defPathStr did) = false ∧
          (summaries.get did).bind FnSummary.reallocsParam = none))
    (succ : body.BasicBlock) : NothingNew P s (edgeState tcx body summaries bb s succ) := by
  have hstmts := hP.applyStatements tcx body (body.basicBlocks bb).statements s
  have hreified := hreified.applyStatements tcx (List.Subset.refl (body.basicBlocks bb).statements)
  cases hterm : (body.basicBlocks bb).terminator with
  | none =>
    rw [edgeState_of_none hterm]
    exact hstmts
  | some term =>
    rw [edgeState_of_some hterm]
    refine hstmts.trans (.trans ?_ (.of_writes (refineSwitchintEdge_writes _ term succ) (by decide)))
    unfold applyTerminator
    split
    · next func args destination target unwind hkind =>
        have hcallee : ∀ did ∈ resolveCallee tcx body func (San.applyStatements tcx body
            (body.basicBlocks bb).statements s), did ∈ term.callees tcx body := by
          intro did hdid
          unfold Terminator.callees
          rw [hkind]
          exact hreified.resolveCallee hdid
        refine hP.applyCall bb.val (fun did hdid => ?_) (fun hmay => ?_) destination
        · have h := hcallees term hterm did (hcallee did hdid)
          exact ⟨h.1, h.2.1⟩
        · cases hdid : resolveCallee tcx body func (San.applyStatements tcx body
              (body.basicBlocks bb).statements s) with
          | none => rfl
          | some did =>
            obtain ⟨hmethod, hsummary⟩ := (hcallees term hterm did (hcallee did hdid)).2.2 hmay
            unfold reallocReceiver
            rw [Option.any_some, hmethod, if_neg Bool.false_ne_true, Option.bind_some, hsummary]
            rfl
    · exact .of_eq (assertCondition_values _ _ _ .heap (by decide))
    · exact .of_eq (applyDrop_heap _ _)
    · exact .of_eq rfl

end Steps

end FreeMark

/-! ## Every free has a cause -/

section Causes
variable {tcx : TyCtxt} {body : Body} {summaries : SummaryMap}

/-- A call of the function may free what it is given or what has been derived from it. -/
def CanFree (tcx : TyCtxt) (summaries : SummaryMap) (did : DefId) : Prop :=
  isDeallocator (tcx.defPathStr did) = true ∨ isReallocatingMethod (tcx.defPathStr did) = true ∨
    ∃ summary ∈ summaries.get did, ¬summary.FreesNothing ∨ summary.reallocsParam ≠ none

/-- The terminator of the block calls a function that may free. -/
def Body.FreesAt (tcx : TyCtxt) (summaries : SummaryMap) (body : Body) (b : body.BasicBlock) : Prop :=
  ∃ term ∈ (body.basicBlocks b).terminator, ∃ did ∈ term.callees tcx body,
    CanFree tcx summaries did

/-- Control may pass from `b` to `b'` by one edge or more. -/
def Body.Precedes (body : Body) : body.BasicBlock → body.BasicBlock → Prop :=
  Relation.TransGen fun b succ => succ ∈ blockSuccessors (body.basicBlocks b)

/-- What is freed in the entry state of `n` is freed by a call that comes before. -/
def FreesExplained (tcx : TyCtxt) (body : Body) (summaries : SummaryMap) (n : body.BasicBlock)
    (s : BlockState) : Prop :=
  ∀ o, freedState (s.heap.get o) = true → ∃ b, body.FreesAt tcx summaries b ∧ body.Precedes b n

theorem FreesExplained.edgeState {n succ : body.BasicBlock} {s : BlockState}
    (h : FreesExplained tcx body summaries n s) (hreified : ReifiedTargets body s)
    (hsucc : succ ∈ blockSuccessors (body.basicBlocks n)) :
    FreesExplained tcx body summaries succ (edgeState tcx body summaries n s succ) := by
  intro o ho
  by_cases hfrees : body.FreesAt tcx summaries n
  · exact ⟨n, hfrees, .single hsucc⟩
  · -- the terminator frees nothing, so the object was freed before
    have hcallees : ∀ term ∈ (body.basicBlocks n).terminator, ∀ did ∈ term.callees tcx body,
        ¬CanFree tcx summaries did := fun term hterm did hdid hcan =>
      hfrees ⟨term, hterm, did, hdid, hcan⟩
    have hnew : NothingNew (fun st => freedState st = true) s
        (San.edgeState tcx body summaries n s succ) := by
      refine freeMark_freedState.edgeState hreified (fun term hterm did hdid => ?_) succ
      have hcan := hcallees term hterm did hdid
      simp only [CanFree, not_or, not_exists, not_and, Bool.not_eq_true, not_not, ne_eq] at hcan
      refine ⟨hcan.1, fun summary hs => (hcan.2.2 summary hs).1, fun _ => ⟨hcan.2.1, ?_⟩⟩
      exact Option.bind_eq_none_iff.mpr fun summary hs => (hcan.2.2 summary hs).2
    obtain ⟨b, hb, hprecedes⟩ := h o (hnew o ho)
    exact ⟨b, hb, hprecedes.tail hsucc⟩

theorem freesExplained_invariant {initial : BlockState}
    (hinit : ∀ o, freedState (initial.heap.get o) = false) (hreified : ReifiedTargets body initial) :
    (flowProblem tcx body summaries initial).Invariant
      fun n s => FreesExplained tcx body summaries n s ∧ ReifiedTargets body s where
  init := ⟨fun o ho => absurd (ho.symm.trans (hinit o)) (by decide), hreified⟩
  flow n _ s hs h := ⟨h.1.edgeState h.2 hs, h.2.edgeState n s⟩
  join n a b ha hb := by
    refine ⟨fun o ho => ?_, ha.2.joined⟩
    rcases freeMark_freedState.merge _ _ ho with h | h
    · exact ha.1 o h
    · exact hb.1 o h

/-- The analysis of a body starts without objects and without known function pointers. -/
theorem seed_writes (tcx : TyCtxt) (body : Body) : Writes [.mustSet .nonzero, .constUpper] .default
    (seedParamTypeFacts tcx body .default) :=
  Writes.foldl (fun t l => enforceTypeFacts_writes t tcx l _) _ _

theorem reifiedTargets_seed (tcx : TyCtxt) (body : Body) :
    ReifiedTargets body (seedParamTypeFacts tcx body .default) :=
  ReifiedTargets.of_eq (s := .default) FMap.All.empty (seed_writes tcx body .fnPtrTargets (by decide))

/-- **Every free has a cause.**  If an object is freed, or may be, after some statements of a
block, then a call that may free comes before the block. -/
theorem freed_before {b : body.BasicBlock} {e : BlockState}
    (he : (computeFlow tcx body summaries).entryStates b = some e) {stmts : List Statement}
    {o : ObjectId} (ho : freedState ((applyStatements tcx body stmts e).heap.get o) = true) :
    ∃ b', body.FreesAt tcx summaries b' ∧ body.Precedes b' b := by
  have hinit : ∀ o, freedState ((seedParamTypeFacts tcx body .default).heap.get o) = false := by
    intro o
    rw [show (seedParamTypeFacts tcx body .default).heap = BlockState.default.heap from
      seed_writes tcx body .heap (by decide)]
    rfl
  have hinv : (flowProblem tcx body summaries (seedParamTypeFacts tcx body .default)).Invariant _ :=
    freesExplained_invariant hinit (reifiedTargets_seed tcx body)
  exact (hinv.solution he).1 o (freeMark_freedState.applyStatements tcx body _ e o ho)

end Causes

/-! ## States without a freed object -/

/-- No object is freed for certain. -/
def NoneFreed (s : BlockState) : Prop := ∀ o, ¬freedSurely (s.heap.get o)

theorem NoneFreed.of_nothingNew {s t : BlockState} (h : NoneFreed s)
    (hnew : NothingNew freedSurely s t) : NoneFreed t := fun o ho => h o (hnew o ho)

theorem NoneFreed.joined {s t : BlockState} (h : NoneFreed s) (h' : NoneFreed t) :
    NoneFreed (s.joined t) := by
  intro o ho
  rcases freeMark_surely.merge _ _ ho with hs | ht
  · exact h o hs
  · exact h' o ht

/-- So no pointer is freed for certain. -/
theorem NoneFreed.freedKind_ne {s : BlockState} (h : NoneFreed s) (l : Local) :
    s.freedKind l ≠ .definite := by
  intro hdef
  rcases Finset.eq_empty_or_nonempty (s.objectsFor l) with hnone | ⟨o, ho⟩
  · unfold BlockState.freedKind at hdef
    dsimp only at hdef
    rw [if_pos hnone] at hdef
    cases hdef
  · exact h o (reconstituted_of_definite hdef ho)

theorem noneFreed_default : NoneFreed .default := fun _ => nofun

section Quiet
variable {tcx : TyCtxt} {body : Body} {summaries : SummaryMap}

/-- The functions a body may call are not known to free, neither by name nor by summary. -/
def Quiet (tcx : TyCtxt) (summaries : SummaryMap) (body : Body) : Prop :=
  ∀ did ∈ body.callees tcx, isDeallocator (tcx.defPathStr did) = false ∧
    ∀ summary ∈ summaries.get did, summary.FreesNothing

/-- **A body whose calls free nothing** has no freed object in any state. -/
theorem noneFreed_invariant (hquiet : Quiet tcx summaries body) {initial : BlockState}
    (hinit : NoneFreed initial) (hreified : ReifiedTargets body initial) :
    (flowProblem tcx body summaries initial).Invariant
      fun _ s => NoneFreed s ∧ ReifiedTargets body s where
  init := ⟨hinit, hreified⟩
  flow n _ s _ h := by
    refine ⟨h.1.of_nothingNew (freeMark_surely.edgeState h.2 (fun term hterm did hdid => ?_) s),
      h.2.edgeState n s⟩
    obtain ⟨hpath, hsummary⟩ := hquiet did (body.callees_of_terminator tcx hterm hdid)
    exact ⟨hpath, hsummary, nofun⟩
  join _ _ _ h h' := ⟨h.1.joined h'.1, h.2.joined⟩

theorem noneFreed_stateBeforeTerminator (hquiet : Quiet tcx summaries body) {initial : BlockState}
    (hinit : NoneFreed initial) (hreified : ReifiedTargets body initial) {bb : body.BasicBlock}
    {s : BlockState} {flow : FlowResults body}
    (hflow : flow.entryStates = runFixpoint tcx body summaries initial)
    (hs : flow.stateBeforeTerminator tcx bb = some s) : NoneFreed s := by
  unfold FlowResults.stateBeforeTerminator at hs
  rw [hflow] at hs
  obtain ⟨e, he, rfl⟩ := Option.map_eq_some_iff.mp hs
  exact ((noneFreed_invariant hquiet hinit hreified).solution he).1.of_nothingNew
    (freeMark_surely.applyStatements tcx body _ e)

end Quiet

/-! ## Summaries that free nothing -/

section Summaries
variable {tcx : TyCtxt} {body : Body} {summaries : SummaryMap}

theorem noneFreed_summaryInitialState (body : Body) : NoneFreed (summaryInitialState body) := by
  have hseed : ∀ (is : List Nat) (s : BlockState),
      NothingNew freedSurely s (is.foldl (seedParam body) s) := by
    intro is
    induction is with
    | nil => exact fun s => .of_eq rfl
    | cons i is ih =>
        refine fun s => NothingNew.trans ?_ (ih _)
        unfold seedParam
        split
        · exact .of_insert rfl freeMark_surely.rawOwned
        · exact .of_eq rfl
  exact noneFreed_default.of_nothingNew (hseed _ _)

theorem noneFreed_mergeInto {s : BlockState} {states : List BlockState}
    (h : ∀ t ∈ s :: states, NoneFreed t) : NoneFreed (mergeInto s states) := by
  induction states generalizing s with
  | nil => exact h s List.mem_cons_self
  | cons t states ih =>
      refine ih fun t' ht' => ?_
      rcases List.mem_cons.mp ht' with rfl | ht'
      · exact (h s List.mem_cons_self).joined (h t (List.mem_cons_of_mem _ List.mem_cons_self))
      · exact h t' (List.mem_cons_of_mem _ (List.mem_cons_of_mem _ ht'))

theorem NoneFreed.paramEffects_ne {exit : BlockState} (h : NoneFreed exit)
    {e : Nat × ParamHeapEffect} (he : e ∈ paramEffects body exit) : e.2 ≠ .reconstituted := by
  have heffect : ∀ st, ¬freedSurely st → paramEffect st ≠ .reconstituted := by
    rintro (_ | ⟨_ | _ | _ | _⟩) <;> decide
  obtain ⟨i, -, hi⟩ := List.mem_filterMap.mp he
  split at hi
  · cases hi
  · cases hi
    exact heffect _ (h (paramObject i))

/-- A function whose calls free nothing is not summarised as freeing. -/
theorem freesNothing_extractSummary (hquiet : Quiet tcx summaries body) :
    (extractSummary tcx body (computeFlowForSummary tcx body summaries)).FreesNothing := by
  unfold extractSummary
  cases hstates : returnStates tcx (computeFlowForSummary tcx body summaries) with
  | nil =>
    rw [returnState_of_nil hstates]
    exact nofun
  | cons s states =>
    rw [returnState_of_cons hstates]
    have hexit : NoneFreed (mergeInto s states) := by
      refine noneFreed_mergeInto fun t ht => ?_
      obtain ⟨bb, -, hbb⟩ := mem_returnStates.mp (hstates ▸ ht)
      exact noneFreed_stateBeforeTerminator hquiet (noneFreed_summaryInitialState body)
        (ReifiedTargets.summaryInitialState body) rfl hbb
    exact fun e he => hexit.paramEffects_ne he

/-- Whatever is found out about a function of another crate, it is not believed to free. -/
theorem freesNothing_summarize {optimizedMir : DefId → Body} {did : DefId}
    (hquiet : did.isLocal = true → Quiet tcx summaries (optimizedMir did)) {summary : FnSummary}
    (h : summarize tcx optimizedMir did summaries = some summary) : summary.FreesNothing := by
  unfold summarize at h
  dsimp only at h
  cases hlocal : did.isLocal with
  | true =>
    rw [hlocal, if_pos rfl] at h
    split at h
    · cases h
    · cases h
      exact freesNothing_extractSummary (hquiet hlocal)
  | false =>
    rw [hlocal, if_neg Bool.false_ne_true] at h
    split at h
    · cases h
    · cases h
      exact nofun

end Summaries

/-! ## The whole crate -/

/-- **Only named deallocators called by the crate itself free.**  If no function of a crate calls a
function that is known by its name to free, then no summary frees, whatever the bodies of other
crates do, and no object is freed for certain, and no pointer a definite use-after-free, at any
terminator of any function of the crate. -/
theorem frees_need_a_deallocator (c : Crate)
    (hlisted : ∀ f ∈ c.toSummarize, f.isLocal = true → f ∈ c.localFns)
    (hcalls : ∀ f ∈ c.localFns, ∀ did ∈ (c.optimizedMir f).callees c.tcx,
      isDeallocator (c.tcx.defPathStr did) = false) :
    (∀ f summary, c.summaries.get f = some summary → summary.FreesNothing) ∧
      ∀ f ∈ c.localFns, ∀ bb s, (c.flow f).stateBeforeTerminator c.tcx bb = some s →
        NoneFreed s ∧ ∀ l, s.freedKind l ≠ .definite := by
  have hsummaries : ∀ f summary, c.summaries.get f = some summary → summary.FreesNothing := by
    intro f summary
    refine RoundProblem.rounds_all (P := fun _ => FnSummary.FreesNothing)
      (fun did hdid m hm summary h => ?_) maxSummaryRounds
    exact freesNothing_summarize (fun hlocal g hg => ⟨hcalls did (hlisted did hdid hlocal) g hg,
      fun summary => hm g summary⟩) h
  refine ⟨hsummaries, fun f hf bb s hs => ?_⟩
  have hseed : NoneFreed (seedParamTypeFacts c.tcx (c.optimizedMir f) .default) :=
    noneFreed_default.of_nothingNew (.of_writes (seed_writes c.tcx (c.optimizedMir f)) (by decide))
  have hnone : NoneFreed s := noneFreed_stateBeforeTerminator
    (fun did hdid => ⟨hcalls f hf did hdid, fun summary => hsummaries did summary⟩) hseed
    (reifiedTargets_seed c.tcx (c.optimizedMir f)) rfl hs
  exact ⟨hnone, hnone.freedKind_ne⟩

/-- A function that hands its raw pointer to another one. -/
def handsTo (callee : DefId) : Body :=
  .ofBlocks 0 1 [.other, .rawPtr .other .mut, .other] 1
    (fun bb => [
      .of [] (.call (.constant ⟨none, some (callee, ⟨0⟩)⟩) [.ofNat 1]
        (Place.ofLocal (Local.ofNat 2)) (some (bb 1)) .continue),
      .of [] .return])
    ⟨by decide, by decide, fun
      | 0 => show ∀ l ∈ [Local.ofNat 1, Local.ofNat 2], l.index.val < 3 by decide
      | 1 => show ∀ l ∈ ([] : List Local), l.index.val < 3 by decide⟩

/-- The crate hands a pointer to a function of another crate, which frees it. -/
def releasesElsewhere : Crate where
  tcx := .ofPaths ["f", "pool::release", "alloc::boxed::Box::<T>::from_raw"]
  optimizedMir f := handsTo ⟨1, f.index + 1⟩
  localFns := [⟨0, 0⟩]
  exportsMir g := decide (g.index = 1)

/-- The pointer is not taken for freed after the call. -/
theorem frees_need_a_deallocator_elsewhere : releasesElsewhere.toSummarize = [⟨0, 0⟩, ⟨1, 1⟩] ∧
    ∀ bb s, (releasesElsewhere.flow ⟨0, 0⟩).stateBeforeTerminator releasesElsewhere.tcx bb = some s →
      NoneFreed s ∧ ∀ l, s.freedKind l ≠ .definite := by
  have hfound : releasesElsewhere.toSummarize = [⟨0, 0⟩, ⟨1, 1⟩] := by decide
  refine ⟨hfound, (frees_need_a_deallocator releasesElsewhere ?_ ?_).2 ⟨0, 0⟩ List.mem_cons_self⟩
  · rw [hfound]
    decide
  · decide +kernel

end San
