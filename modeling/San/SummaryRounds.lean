import San.Footprint
import San.RoundIteration

/-! # The interprocedural summary loop

`run_checks` summarises every function of a list in rounds.  A round analyses each
function against a snapshot of the summaries of the previous round, extracts its
summary from the states at its returns, trusts only part of it if the function
belongs to another crate, and stores it unless it says nothing.

The summary of a function looks at the snapshot only where the function calls:
`summarize_congr`.  Calls through a pointer go to functions the body itself has
turned into pointers, which is an invariant of the analysis (`ReifiedTargets`).  The
loop is then an instance of `RoundProblem`.
-/
namespace San

/-! ## Extracting a summary -/

/-- Does the block end in a return? -/
def BasicBlockData.returns {n : Nat} (block : BasicBlockData n) : Bool :=
  match block.terminator with
  | some ⟨.return, _⟩ => true
  | _ => false

section Extract
variable (tcx : TyCtxt) (body : Body)

/-- The merged states at the returns, in the order of the blocks. -/
def returnState (flow : FlowResults body) : Option BlockState :=
  (((List.finRange body.numBlocks).filter fun bb => (body.basicBlocks bb).returns).filterMap
    (flow.stateBeforeTerminator tcx)).foldl
      (fun joined state => some (match joined with
        | none => state
        | some existing => (existing.joinWith state).1)) none

/-- The effects on the parameters' objects, where there is one. -/
def paramEffects (exit : BlockState) : List (Nat × ParamHeapEffect) :=
  (List.range body.argCount).filterMap fun i =>
    match paramEffect (exit.heap.get (paramObject i)) with
    | .none => none
    | effect => some (i, effect)

/-- `_0` may hold a raw pointer that this function has made. -/
def returnsRawOwned (exit : BlockState) : Bool :=
  decide (∃ o ∈ exit.objectsFor Local.returnPlace,
    o.id < summaryBase ∧ exit.heap.get o = some .rawOwned)

/-- The summary of a function, from the states at its returns. -/
def extractSummary (flow : FlowResults body) : FnSummary :=
  match returnState tcx body flow with
  | none => .empty
  | some exit =>
      { paramEffects := paramEffects body exit
        returnsRawOwned := returnsRawOwned exit
        returnsAliasOfParam :=
          ((exit.ownersOf Local.returnPlace).sort (· ≤ ·)).findSome? (paramIndex body)
        returnsPtrOfParam :=
          ((exit.objectsFor Local.returnPlace).sort (· ≤ ·)).findSome? (objectParam body)
        reallocsParam :=
          ((exit.maySets .reallocedParams).sort (· ≤ ·)).findSome? (paramIndex body) }

end Extract

/-! ## One function -/

/-- Casts of raw pointers. -/
def isPtrCast (path : String) : Bool :=
  contains path "::cast"
    && (contains path "const_ptr" || contains path "mut_ptr" || contains path "NonNull")

/-- Wrapping a raw pointer in a `NonNull`. -/
def isNonnullWrap (path : String) : Bool :=
  contains path "NonNull" && (endsWith path "::new_unchecked" || endsWith path "::new")

/-- What is believed of a function of another crate: no effect on its parameters, no
fresh ownership, the alias of an accessor, the pointer of an identity operation. -/
def FnSummary.trustExternal (path : String) (s : FnSummary) : FnSummary :=
  { s with
    paramEffects := []
    returnsRawOwned := false
    returnsAliasOfParam := if isOwnedBufferAccessor path then some 0 else s.returnsAliasOfParam
    returnsPtrOfParam :=
      if !isPtrCast path && !isNonnullWrap path then none else s.returnsPtrOfParam }

/-- Does the summary say nothing? -/
def FnSummary.saysNothing (s : FnSummary) : Bool :=
  s.paramEffects.isEmpty && !s.returnsRawOwned && s.returnsAliasOfParam.isNone
    && s.returnsPtrOfParam.isNone && s.reallocsParam.isNone

section Loop
variable (tcx : TyCtxt) (optimizedMir : DefId → Body)

/-- The entry of a function in the summary map, computed against `snap`. -/
def summarize (did : DefId) (snap : SummaryMap) : Option FnSummary :=
  let body := optimizedMir did
  let flow := computeFlowForSummary tcx body snap
  let s := extractSummary tcx body flow
  let s := if did.isLocal then s else s.trustExternal (tcx.defPathStr did)
  if s.saysNothing then none else some s

/-! ## The functions a body calls -/

/-- The function item that a statement turns into a pointer. -/
def Statement.reifies (stmt : Statement) : Option DefId :=
  match stmt.kind with
  | .assign _ (.cast .reifyFnPointer op _) => op.constFnDef.map Prod.fst
  | _ => none

/-- The function items that a body turns into pointers. -/
def Body.reified (body : Body) : List DefId :=
  (List.finRange body.numBlocks).flatMap fun bb =>
    (body.basicBlocks bb).statements.filterMap Statement.reifies

/-- The functions a call of `func` may go to: the function item, or any function that
the body has turned into a pointer. -/
def Body.targets (body : Body) (func : Operand) : List DefId :=
  match func.constFnDef with
  | some _ => (resolveCallee tcx body func .default).toList
  | none => if (operandLocal func).isSome then body.reified else []

def Terminator.callees (body : Body) (term : Terminator body.numBlocks) : List DefId :=
  match term.kind with
  | .call func _ _ _ _ => body.targets tcx func
  | _ => []

/-- The functions a body may call. -/
def Body.callees (body : Body) : List DefId :=
  (List.finRange body.numBlocks).flatMap fun bb =>
    ((body.basicBlocks bb).terminator.map (Terminator.callees tcx body)).getD []

theorem Body.callees_of_terminator {body : Body} {bb : body.BasicBlock}
    {term : Terminator body.numBlocks} (h : (body.basicBlocks bb).terminator = some term)
    {did : DefId} (hd : did ∈ Terminator.callees tcx body term) : did ∈ body.callees tcx := by
  refine List.mem_flatMap.mpr ⟨bb, List.mem_finRange bb, ?_⟩
  simpa only [h, Option.map_some, Option.getD_some] using hd

end Loop

/-! ## Function pointers come from the body itself -/

/-- Every known function pointer points to a function the body has reified. -/
def ReifiedTargets (body : Body) (s : BlockState) : Prop :=
  s.fnPtrTargets.All fun _ did => did ∈ body.reified

namespace ReifiedTargets
variable {tcx : TyCtxt} {body : Body} {summaries : SummaryMap} {s : BlockState}

theorem of_eq {t : BlockState} (h : ReifiedTargets body s) (heq : t.fnPtrTargets = s.fnPtrTargets) :
    ReifiedTargets body t := by
  unfold ReifiedTargets
  rw [heq]
  exact h

theorem rvalueFnTarget (h : ReifiedTargets body s) {bb : body.BasicBlock} {stmt : Statement}
    (hstmt : stmt ∈ (body.basicBlocks bb).statements) {dst : Place} {rvalue : Rvalue}
    (hkind : stmt.kind = .assign dst rvalue) {did : DefId}
    (hd : rvalueFnTarget rvalue s = some did) : did ∈ body.reified := by
  unfold San.rvalueFnTarget at hd
  split at hd
  · refine List.mem_flatMap.mpr ⟨bb, List.mem_finRange bb, List.mem_filterMap.mpr ⟨stmt, hstmt, ?_⟩⟩
    unfold Statement.reifies
    rw [hkind]
    exact hd
  · obtain ⟨l, -, hl⟩ := Option.bind_eq_some_iff.mp hd
    exact h l did hl

theorem applyStatement (h : ReifiedTargets body s) (tcx : TyCtxt) {bb : body.BasicBlock}
    {stmt : Statement} (hstmt : stmt ∈ (body.basicBlocks bb).statements) :
    ReifiedTargets body (applyStatement tcx body stmt s) := by
  unfold ReifiedTargets
  rw [applyStatement_fnPtrTargets]
  cases hkind : stmt.kind with
  | other => exact h
  | assign dst rvalue =>
      dsimp only
      split
      · exact FMap.All.put h fun did hd => h.rvalueFnTarget hstmt hkind hd
      · exact h

theorem applyStatements (h : ReifiedTargets body s) (tcx : TyCtxt) {bb : body.BasicBlock}
    {stmts : List Statement} (hstmts : stmts ⊆ (body.basicBlocks bb).statements) :
    ReifiedTargets body (applyStatements tcx body stmts s) := by
  induction stmts generalizing s with
  | nil => exact h
  | cons stmt stmts ih =>
      have hhead := h.applyStatement tcx (hstmts List.mem_cons_self)
      exact ih hhead fun t ht => hstmts (List.mem_cons_of_mem stmt ht)

theorem edgeState (h : ReifiedTargets body s) (bb succ : body.BasicBlock) :
    ReifiedTargets body (edgeState tcx body summaries bb s succ) :=
  (h.applyStatements tcx (List.Subset.refl _)).of_eq
    (edgeState_fnPtrTargets s tcx body summaries bb succ)

theorem joined {t : BlockState} (h : ReifiedTargets body s) : ReifiedTargets body (s.joined t) :=
  fun l did hd => h l did (Discipline.agreeing_source hd).1

theorem summaryInitialState (body : Body) : ReifiedTargets body (summaryInitialState body) := by
  suffices h : ∀ (is : List Nat) (s : BlockState), ReifiedTargets body s →
      ReifiedTargets body (is.foldl (seedParam body) s) from h _ _ FMap.All.empty
  intro is
  induction is with
  | nil => exact fun s hs => hs
  | cons i is ih =>
      intro s hs
      refine ih _ ?_
      unfold seedParam
      split
      · exact hs
      · exact hs

/-- **Function pointers of a body under summary analysis come from the body.** -/
theorem invariant (tcx : TyCtxt) (body : Body) (summaries : SummaryMap) :
    (flowProblem tcx body summaries (San.summaryInitialState body)).Invariant
      fun _ => ReifiedTargets body where
  init := summaryInitialState body
  flow n _ s _ h := h.edgeState n s
  join _ _ _ h _ := h.joined

/-- So a call goes to one of the functions the body may call. -/
theorem resolveCallee (h : ReifiedTargets body s) {func : Operand} {did : DefId}
    (hd : resolveCallee tcx body func s = some did) : did ∈ body.targets tcx func := by
  unfold Body.targets
  cases hfn : func.constFnDef with
  | some item =>
      unfold San.resolveCallee at hd ⊢
      simp only [hfn] at hd ⊢
      exact Option.mem_toList.mpr hd
  | none =>
      simp only [San.resolveCallee, hfn] at hd
      obtain ⟨l, hl, hget⟩ := Option.bind_eq_some_iff.mp hd
      simp only [hl, Option.isSome_some, if_true]
      exact h l did hget

end ReifiedTargets

/-! ## A summary consults the functions called and no others -/

section Congr
variable {tcx : TyCtxt} {body : Body} {m n : SummaryMap} {s : BlockState}

/-- A call looks up the callee. -/
theorem applyCall_congr {func : Operand}
    (h : ∀ did, resolveCallee tcx body func s = some did → m.get did = n.get did) (bb : Nat)
    (args : List Operand) (destination : Place) :
    applyCall tcx body m bb func args destination s =
      applyCall tcx body n bb func args destination s := by
  unfold applyCall
  cases hc : resolveCallee tcx body func s with
  | none => rfl
  | some did =>
      have hdid := h did hc
      simp only [enterCall, reallocReceiver, applyResolvedCall, Option.bind_some, hdid]

theorem applyTerminator_congr (hs : ReifiedTargets body s) {term : Terminator body.numBlocks}
    (h : ∀ did ∈ Terminator.callees tcx body term, m.get did = n.get did) (bb : Nat) :
    applyTerminator tcx body m bb term s = applyTerminator tcx body n bb term s := by
  unfold Terminator.callees at h
  unfold applyTerminator
  split
  · next func args destination _ _ hkind =>
      rw [hkind] at h
      exact applyCall_congr (fun did hd => h did (hs.resolveCallee hd)) bb args destination
  all_goals rfl

theorem edgeState_congr (hs : ReifiedTargets body s)
    (h : ∀ did ∈ body.callees tcx, m.get did = n.get did) (bb : body.BasicBlock) :
    edgeState tcx body m bb s = edgeState tcx body n bb s := by
  funext succ
  cases hterm : (body.basicBlocks bb).terminator with
  | none => rw [edgeState_of_none hterm, edgeState_of_none hterm]
  | some term =>
      have hstmts := hs.applyStatements tcx (List.Subset.refl (body.basicBlocks bb).statements)
      rw [edgeState_of_some hterm, edgeState_of_some hterm,
        applyTerminator_congr hstmts fun did hd => h did (body.callees_of_terminator tcx hterm hd)]

/-- The analysis behind a summary depends on the summaries of the functions called. -/
theorem computeFlowForSummary_congr (h : ∀ did ∈ body.callees tcx, m.get did = n.get did) :
    computeFlowForSummary tcx body m = computeFlowForSummary tcx body n := by
  have hsolution := FlowProblem.solution_withFlow (ReifiedTargets.invariant tcx body n)
    fun bb _ hs => edgeState_congr hs h bb
  unfold computeFlowForSummary runFixpoint
  rw [← hsolution]
  rfl

end Congr

/-- **The summary of a function consults only the entries of the functions it calls.** -/
theorem summarize_congr {tcx : TyCtxt} {optimizedMir : DefId → Body} {f : DefId}
    {m n : SummaryMap} (h : ∀ g ∈ (optimizedMir f).callees tcx, m.get g = n.get g) :
    summarize tcx optimizedMir f m = summarize tcx optimizedMir f n := by
  simp only [summarize, computeFlowForSummary_congr h]

/-! ## The loop -/

def maxSummaryRounds : Nat := 8

/-- Function `f` may call function `g`. -/
def Calls (tcx : TyCtxt) (optimizedMir : DefId → Body) (f g : DefId) : Prop :=
  g ∈ (optimizedMir f).callees tcx

instance (tcx : TyCtxt) (optimizedMir : DefId → Body) (f g : DefId) :
    Decidable (Calls tcx optimizedMir f g) :=
  inferInstanceAs (Decidable (g ∈ (optimizedMir f).callees tcx))

def summaryProblem (tcx : TyCtxt) (optimizedMir : DefId → Body) :
    RoundProblem DefId FnSummary where
  entry := summarize tcx optimizedMir
  Uses := Calls tcx optimizedMir
  entry_congr h := summarize_congr h

/-- The summaries that `run_checks` computes for `toSummarize`, starting from none. -/
def computeSummaries (tcx : TyCtxt) (optimizedMir : DefId → Body) (toSummarize : List DefId) :
    SummaryMap :=
  (summaryProblem tcx optimizedMir).rounds toSummarize maxSummaryRounds ∅

/-- **Summaries converge on shallow call graphs.**  If no chain of calls between
summarised functions has more than eight functions, which rules out recursion, then
recomputing the summary of any function against the final map gives its entry, no other
map has that property, and the order of the functions makes no difference. -/
theorem summaries_converge (tcx : TyCtxt) (optimizedMir : DefId → Body)
    (toSummarize : List DefId)
    (hchain : ∀ c : List DefId, c.IsChain (Calls tcx optimizedMir) →
      (∀ f ∈ c, f ∈ toSummarize) → c.length ≤ 8) :
    (∀ f (m n : SummaryMap), (∀ g, Calls tcx optimizedMir f g → m.get g = n.get g) →
      summarize tcx optimizedMir f m = summarize tcx optimizedMir f n) ∧
    (∀ m : SummaryMap,
      (∀ f, m.get f = if f ∈ toSummarize then summarize tcx optimizedMir f m else none) ↔
        m = computeSummaries tcx optimizedMir toSummarize) ∧
    ∀ order : List DefId, order.Perm toSummarize →
      computeSummaries tcx optimizedMir order =
        computeSummaries tcx optimizedMir toSummarize := by
  have hdepth : ∀ f ∈ toSummarize,
      (summaryProblem tcx optimizedMir).DepthAtMost toSummarize maxSummaryRounds f :=
    fun f _ c hc hmem => hchain (f :: c) hc hmem
  refine ⟨fun f m n h => summarize_congr h, fun m => ⟨fun h => ?_, ?_⟩, fun order hperm => ?_⟩
  · exact RoundProblem.eq_rounds_of_fixed hdepth h
  · rintro rfl
    exact RoundProblem.fixed_rounds hdepth
  · exact RoundProblem.rounds_congr (fun f => hperm.mem_iff) maxSummaryRounds ∅

/-- The function with index `i` passes its raw pointer on to the function before it. -/
def passDown (i : Nat) : Body :=
  .ofBlocks i 1 [.other, .rawPtr .other .mut, .other] 1
    (fun bb => [.of [] (.callTo (i - 1) [.ofNat 1] 2 (bb 1)), .of [] .return])
    ⟨by decide, by decide, fun
      | 0 => show ∀ l ∈ [Local.ofNat 1, Local.ofNat 2], l.index.val < 3 by decide
      | 1 => show ∀ l ∈ ([] : List Local), l.index.val < 3 by decide⟩

/-- Eight functions, each of which passes its pointer down; the last frees it. -/
def passDownPaths : TyCtxt :=
  .ofPaths ["alloc::boxed::Box::<T>::from_raw", "f1", "f2", "f3", "f4", "f5", "f6", "f7", "f8"]

def passDownFns : List DefId := (List.range 8).map fun i => ⟨0, i + 1⟩

theorem summaries_converge_passDown :
    (∀ f (m n : SummaryMap),
      (∀ g, Calls passDownPaths (passDown ∘ DefId.index) f g → m.get g = n.get g) →
      summarize passDownPaths (passDown ∘ DefId.index) f m =
        summarize passDownPaths (passDown ∘ DefId.index) f n) ∧
    (∀ m : SummaryMap,
      (∀ f, m.get f = if f ∈ passDownFns then
        summarize passDownPaths (passDown ∘ DefId.index) f m else none) ↔
          m = computeSummaries passDownPaths (passDown ∘ DefId.index) passDownFns) ∧
    ∀ order : List DefId, order.Perm passDownFns →
      computeSummaries passDownPaths (passDown ∘ DefId.index) order =
        computeSummaries passDownPaths (passDown ∘ DefId.index) passDownFns := by
  have hrank : ∀ f ∈ passDownFns, ∀ g ∈ passDownFns,
      Calls passDownPaths (passDown ∘ DefId.index) f g → g.index - 1 < f.index - 1 := by
    decide
  have hfirst : ∀ f ∈ passDownFns, f.index - 1 + 1 ≤ 8 := by decide
  refine summaries_converge passDownPaths (passDown ∘ DefId.index) passDownFns ?_
  intro c hc hmem
  cases c with
  | nil => exact Nat.zero_le 8
  | cons f c =>
      have hlen := RoundProblem.length_le_of_rank hc fun i hi j hj =>
        hrank i (hmem i hi) j (hmem j hj)
      exact hlen.trans (hfirst f (hmem f List.mem_cons_self))

end San
