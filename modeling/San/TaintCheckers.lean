import San.Deallocators
import San.Execution
import San.TaintExact

/-! # The checkers that ask for taints

`cast_away_const` reports writes through a pointer that was cast from `*const T`, and
`env_set_var` reports changes of the environment, as an error if a thread may be running.  What
they report is compared with the paths of the body (`cast_away_const_exact`) and with its control
flow graph (`env_set_var_exact`): neither merging nor the order in which the blocks are analysed
can be seen in it.
-/
namespace San

/-! ## Writes through cast pointers -/

/-- How a local is printed. -/
def Local.debug (l : Local) : String := "_" ++ toString l.index.val

namespace CastAwayConst

def assignMessage (ptr : Local) : String :=
  "`*" ++ ptr.debug ++ " = ...` writes through a `*mut T` obtained by casting a " ++
    "`*const T`; if the pointee is not inside an `UnsafeCell`, this is UB " ++
    "(aliased mutation without interior mutability). Common cause: " ++
    "`Arc::as_ptr() as *mut T` or `&T as *const T as *mut T`."

def callMessage (path : String) (ptr : Local) : String :=
  "`" ++ AssumeInit.lastSegment path ++ "(" ++ ptr.debug ++
    ", ...)` writes through a `*mut T` obtained by casting a " ++
    "`*const T`; if the pointee is not inside an `UnsafeCell`, this is UB " ++
    "(aliased mutation). Common cause: `Arc::as_ptr() as *mut T` or " ++
    "`&T as *const T as *mut T`."

/-- The pointer of an assignment `*ptr = …`. -/
def derefWritten (stmt : Statement) : Option Local :=
  match stmt.kind with
  | .assign ⟨ptr, [.deref]⟩ _ => some ptr
  | _ => none

/-- Does the function write through its first argument? -/
def isWriteThroughFirst (path : String) : Bool :=
  isPtrWriteToFirstArg path || endsWithAny path
    ["ptr::write", "ptr::write_unaligned", "ptr::write_bytes", "ptr::copy_nonoverlapping",
      "ptr::copy"]

/-- A write through `ptr`, with the state before it. -/
def report (span : Span) (message : String) (ptr : Local) (state : Option BlockState) :
    Option Finding :=
  state.bind fun s =>
    if ptr ∈ s.maySets .constPtrCast then some ⟨"cast_away_const", .warning, span, message⟩ else none

def checkStatement (stmt : Statement) (state : Option BlockState) : Option Finding :=
  (derefWritten stmt).bind fun ptr => report stmt.span (assignMessage ptr) ptr state

def checkCall (path : String) (call : CallSite) (state : Option BlockState) : Option Finding :=
  if isWriteThroughFirst path then
    (firstArgLocal call.args).bind fun ptr => report call.span (callMessage path ptr) ptr state
  else none

section
variable (tcx : TyCtxt) {body : Body} (flow : FlowResults body)

def checkBlock (bb : body.BasicBlock) : List Finding :=
  ((body.basicBlocks bb).statements.zipIdx.filterMap fun (stmt, si) =>
    checkStatement stmt (flow.stateAtLocation tcx bb si)) ++
    (checkCallIn tcx flow checkCall bb).toList

def check : List Finding := (List.finRange body.numBlocks).flatMap (checkBlock tcx flow)

end

/-- Before the writes of `bb` come some statements of the block; each write has a finding to go
with it. -/
inductive WritesAt (tcx : TyCtxt) (body : Body) (bb : body.BasicBlock) :
    List Statement → Local → Finding → Prop
  | assign {stmt : Statement} {si : Nat} {ptr : Local} :
      (body.basicBlocks bb).statements[si]? = some stmt → derefWritten stmt = some ptr →
      WritesAt tcx body bb ((body.basicBlocks bb).statements.take si) ptr
        ⟨"cast_away_const", .warning, stmt.span, assignMessage ptr⟩
  | call {call : CallSite} {ptr : Local} :
      body.callSite bb = some call → isWriteThroughFirst (tcx.defPathStr call.callee) = true →
      firstArgLocal call.args = some ptr →
      WritesAt tcx body bb (body.basicBlocks bb).statements ptr
        ⟨"cast_away_const", .warning, call.span, callMessage (tcx.defPathStr call.callee) ptr⟩

section
variable {tcx : TyCtxt} {body : Body} {flow : FlowResults body} {bb : body.BasicBlock}
  {finding : Finding}

theorem report_eq_some {span : Span} {message : String} {ptr : Local} {state : Option BlockState} :
    report span message ptr state = some finding ↔
      ∃ s, state = some s ∧ ptr ∈ s.maySets .constPtrCast ∧
        finding = ⟨"cast_away_const", .warning, span, message⟩ := by
  unfold report
  rw [Option.bind_eq_some_iff]
  refine exists_congr fun s => and_congr_right fun _ => ?_
  rw [Option.ite_none_right_eq_some, Option.some.injEq, eq_comm (a := finding)]

/-- **What is reported about a block**: its writes through pointers that are marked before. -/
theorem mem_checkBlock : finding ∈ checkBlock tcx flow bb ↔
    ∃ s stmts ptr, flow.entryStates bb = some s ∧ WritesAt tcx body bb stmts ptr finding ∧
      ptr ∈ (applyStatements tcx body stmts s).maySets .constPtrCast := by
  unfold checkBlock checkStatement checkCallIn checkCall FlowResults.stateAtLocation
    FlowResults.stateBeforeTerminator
  rw [List.mem_append, List.mem_filterMap, Option.mem_toList]
  constructor
  · rintro (⟨⟨stmt, si⟩, hstmt, h⟩ | h)
    · obtain ⟨ptr, hptr, h⟩ := Option.bind_eq_some_iff.mp h
      obtain ⟨t, ht, hmem, rfl⟩ := report_eq_some.mp h
      obtain ⟨s, hs, rfl⟩ := Option.map_eq_some_iff.mp ht
      exact ⟨s, _, ptr, hs, .assign (List.mk_mem_zipIdx_iff_getElem?.mp hstmt) hptr, hmem⟩
    · obtain ⟨call, hcall, h⟩ := Option.bind_eq_some_iff.mp h
      obtain ⟨hpath, h⟩ := Option.ite_none_right_eq_some.mp h
      obtain ⟨ptr, hptr, h⟩ := Option.bind_eq_some_iff.mp h
      obtain ⟨t, ht, hmem, rfl⟩ := report_eq_some.mp h
      obtain ⟨s, hs, rfl⟩ := Option.map_eq_some_iff.mp ht
      exact ⟨s, _, ptr, hs, .call hcall hpath hptr, hmem⟩
  · rintro ⟨s, stmts, ptr, hs, hwrites, hmem⟩
    rw [hs]
    cases hwrites with
    | assign hstmt hptr =>
        refine .inl ⟨(_, _), List.mk_mem_zipIdx_iff_getElem?.mpr hstmt, ?_⟩
        exact Option.bind_eq_some_iff.mpr ⟨ptr, hptr, report_eq_some.mpr ⟨_, rfl, hmem, rfl⟩⟩
    | call hcall hpath hptr =>
        refine .inr (Option.bind_eq_some_iff.mpr ⟨_, hcall, ?_⟩)
        rw [if_pos hpath]
        exact Option.bind_eq_some_iff.mpr ⟨ptr, hptr, report_eq_some.mpr ⟨_, rfl, hmem, rfl⟩⟩

end

end CastAwayConst

/-- The results of following a single path to a block, which arrives there in state `p`. -/
def FlowResults.onPath (body : Body) (summaries : SummaryMap) (bb : body.BasicBlock)
    (p : BlockState) : FlowResults body where
  entryStates b := if b = bb then some p else none
  summaries := summaries

/-- **What is reported of writes through cast pointers is what a path shows.**  In a body whose
calls are direct, the report consists of the findings that looking at one path after the other
would give.  So a cast that no path carries to a write is never reported, and one that some path
carries there always is. -/
theorem cast_away_const_exact (tcx : TyCtxt) (body : Body) (summaries : SummaryMap)
    (hbody : body.DirectCalls) (finding : Finding) :
    finding ∈ CastAwayConst.check tcx (computeFlow tcx body summaries) ↔
      ∃ bb p, (flowProblem tcx body summaries
          (seedParamTypeFacts tcx body .default)).PathState bb p ∧
        finding ∈ CastAwayConst.check tcx (FlowResults.onPath body summaries bb p) := by
  have hpath : ∀ bb p, finding ∈ CastAwayConst.check tcx (FlowResults.onPath body summaries bb p) ↔
      ∃ stmts ptr, CastAwayConst.WritesAt tcx body bb stmts ptr finding ∧
        ptr ∈ (applyStatements tcx body stmts p).maySets .constPtrCast := by
    intro bb p
    simp only [CastAwayConst.check, List.mem_flatMap, List.mem_finRange, true_and,
      CastAwayConst.mem_checkBlock, FlowResults.onPath, Option.ite_none_right_eq_some,
      Option.some.injEq]
    constructor
    · rintro ⟨_, _, stmts, ptr, ⟨rfl, rfl⟩, hwrites, hmem⟩
      exact ⟨stmts, ptr, hwrites, hmem⟩
    · rintro ⟨stmts, ptr, hwrites, hmem⟩
      exact ⟨bb, p, stmts, ptr, ⟨rfl, rfl⟩, hwrites, hmem⟩
  simp only [hpath]
  unfold CastAwayConst.check
  simp only [List.mem_flatMap, List.mem_finRange, true_and, CastAwayConst.mem_checkBlock]
  have hexact : ∀ bb s stmts ptr, (computeFlow tcx body summaries).entryStates bb = some s →
      (ptr ∈ (applyStatements tcx body stmts s).maySets .constPtrCast ↔ ∃ p, (flowProblem tcx body
        summaries (seedParamTypeFacts tcx body .default)).PathState bb p ∧
          ptr ∈ (applyStatements tcx body stmts p).maySets .constPtrCast) :=
    fun bb s stmts ptr hs => (marks_distributive List.mem_cons_self tcx hbody summaries _).solution
      (marks_applyStatements List.mem_cons_self tcx body stmts) hs ptr
  constructor
  · rintro ⟨bb, s, stmts, ptr, hs, hwrites, hmem⟩
    obtain ⟨p, hp, hmem⟩ := (hexact bb s stmts ptr hs).mp hmem
    exact ⟨bb, p, hp, stmts, ptr, hwrites, hmem⟩
  · rintro ⟨bb, p, hp, stmts, ptr, hwrites, hmem⟩
    obtain ⟨s, hs⟩ := Option.isSome_iff_exists.mp
      ((FlowProblem.solution_isSome_iff _).mpr hp.reaches)
    exact ⟨bb, s, stmts, ptr, hs, hwrites, (hexact bb s stmts ptr hs).mpr ⟨p, hp, hmem⟩⟩

/-- The write is reported, because of the path through the cast. -/
theorem cast_away_const_exact_branch :
    ∃ f ∈ CastAwayConst.check (.ofPaths []) (computeFlow (.ofPaths []) castsOnBranch ∅),
      f.ruleId = "cast_away_const" := by
  obtain ⟨p, hp, hcheck⟩ : ∃ p, (flowProblem (.ofPaths []) castsOnBranch ∅
      (seedParamTypeFacts (.ofPaths []) castsOnBranch .default)).PathState (3 : Fin 4) p ∧
      ∃ f ∈ CastAwayConst.check (.ofPaths []) (FlowResults.onPath castsOnBranch ∅ (3 : Fin 4) p),
        f.ruleId = "cast_away_const" :=
    ⟨_, FlowProblem.PathState.start.along ([1, 3] : List (Fin 4)) (by decide), by decide +kernel⟩
  obtain ⟨f, hf, hrule⟩ := hcheck
  exact ⟨f, (cast_away_const_exact (.ofPaths []) castsOnBranch ∅ (by decide) f).mpr
    ⟨(3 : Fin 4), p, hp, hf⟩, hrule⟩

/-! ## Changes of the environment -/

/-- Does `b` end in a call that the analysis takes to spawn a thread?  Where the result goes into
a part of a local, it does not look at the callee. -/
def Body.spawnsAt (tcx : TyCtxt) (body : Body) (b : body.BasicBlock) : Bool :=
  match (body.basicBlocks b).terminator with
  | some ⟨.call func _ destination _ _, _⟩ =>
      destination.isLocal &&
        (resolveCallee tcx body func .default).any fun did => isThreadSpawn (tcx.defPathStr did)
  | _ => false

section Spawned
variable {tcx : TyCtxt} {body : Body} {summaries : SummaryMap} {initial : BlockState}

theorem applyStatement_threadSpawned (stmt : Statement) (s : BlockState) :
    (applyStatement tcx body stmt s).threadSpawned = s.threadSpawned := by
  cases hstmt : stmt.assignment with
  | none =>
      exact applyStatement_writes_of_assignment_none tcx body s hstmt .threadSpawned (by decide)
  | some target =>
      rw [applyStatement_assign tcx body (Statement.kind_of_assignment hstmt)]
      exact (s.invalidateOwners_writes {target.1} .threadSpawned (by decide)).trans
        (assignLocal_assignable _ tcx body target.1 target.2 .threadSpawned (by decide))

theorem applyStatements_threadSpawned (stmts : List Statement) (s : BlockState) :
    (applyStatements tcx body stmts s).threadSpawned = s.threadSpawned := by
  induction stmts generalizing s with
  | nil => rfl
  | cons stmt stmts ih => exact (ih _).trans (applyStatement_threadSpawned stmt s)

theorem recordCallFacts_threadSpawned (path : String) (args : List Operand) (dest : Local)
    (s : BlockState) : (recordCallFacts path args dest s).threadSpawned =
      (s.threadSpawned || isThreadSpawn path) := by
  have hbefore : (recordFd path args dest (recordDeref path args dest (recordFiniteness path args
      dest (recordLength path args dest s)))).threadSpawned = s.threadSpawned :=
    (recordLength_writes s path args dest .threadSpawned (by decide)).trans <|
      (recordFiniteness_writes _ path args dest .threadSpawned (by decide)).trans <|
      (recordDeref_writes _ path args dest .threadSpawned (by decide)).trans <|
      recordFd_writes _ path args dest .threadSpawned (by decide)
  have hafter : ∀ u : BlockState,
      (recordPartialEq path args dest u).threadSpawned = u.threadSpawned :=
    fun u => recordPartialEq_writes u path args dest .threadSpawned (by decide)
  unfold recordCallFacts
  rw [hafter, ← hbefore]
  cases isThreadSpawn path with
  | false => exact (Bool.or_false _).symm
  | true => exact (Bool.or_true _).symm

theorem applyResolvedCall_threadSpawned (did : DefId) (args : List Operand) (dest : Local)
    (bb : Nat) (s : BlockState) :
    (applyResolvedCall tcx body summaries did args dest bb s).threadSpawned =
      (s.threadSpawned || isThreadSpawn (tcx.defPathStr did)) := by
  have hbefore : (s.clearRedefined dest).threadSpawned = s.threadSpawned :=
    s.clearRedefined_writes dest .threadSpawned (by decide)
  have hafter : ∀ (u : BlockState) (kind : CallKind),
      (leaveCall tcx body (tcx.defPathStr did) args dest (applyCallKind tcx body
        (tcx.defPathStr did) kind args dest bb u)).threadSpawned = u.threadSpawned := fun u kind =>
    (applyCallKind_writes u tcx body (tcx.defPathStr did) kind args dest bb .threadSpawned
      (by decide)).trans (leaveCall_writes _ tcx body _ args dest .threadSpawned (by decide))
  unfold applyResolvedCall
  rw [hafter, recordCallFacts_threadSpawned, hbefore]

theorem applyCall_threadSpawned (bb : Nat) {func : Operand} (hfunc : func.constFnDef.isSome)
    (args : List Operand) (destination : Place) (s : BlockState) :
    (applyCall tcx body summaries bb func args destination s).threadSpawned =
      (s.threadSpawned || (destination.isLocal &&
        (resolveCallee tcx body func .default).any fun did => isThreadSpawn (tcx.defPathStr did))) := by
  have henter : ∀ callee,
      (enterCall tcx body summaries callee args destination.base s).threadSpawned =
        s.threadSpawned :=
    fun callee => enterCall_writes s tcx body summaries callee args destination.base .threadSpawned
      (by decide)
  have hescape : ∀ u : BlockState, (escapeRawPtrArgs body args u).threadSpawned = u.threadSpawned :=
    fun u => escapeRawPtrArgs_writes u body args .threadSpawned (by decide)
  unfold applyCall
  rw [TaintSim.resolveCallee_eq hfunc s .default]
  cases resolveCallee tcx body func .default with
  | none => simp [hescape, henter]
  | some did =>
      cases destination.isLocal with
      | false => simp [hescape, henter]
      | true => simp [applyResolvedCall_threadSpawned, henter]

/-- **A thread is spawned on an edge if the block it leaves spawns one.** -/
theorem edgeState_threadSpawned (hbody : body.DirectCalls) (b succ : body.BasicBlock)
    (s : BlockState) : (edgeState tcx body summaries b s succ).threadSpawned =
      (s.threadSpawned || body.spawnsAt tcx b) := by
  have hstmts : (applyStatements tcx body (body.basicBlocks b).statements s).threadSpawned =
      s.threadSpawned := applyStatements_threadSpawned _ s
  have hrefine : ∀ (term : Terminator body.numBlocks) (u : BlockState),
      (refineSwitchintEdge term succ u).threadSpawned = u.threadSpawned :=
    fun term u => refineSwitchintEdge_writes u term succ .threadSpawned (by decide)
  unfold Body.spawnsAt
  cases hterm : (body.basicBlocks b).terminator with
  | none =>
      rw [edgeState_of_none hterm, hstmts]
      exact (Bool.or_false _).symm
  | some term =>
      have hitem := hbody b term hterm
      rw [edgeState_of_some hterm, hrefine, ← hstmts]
      obtain ⟨kind, span⟩ := term
      cases kind with
      | call func args destination target unwind =>
          exact applyCall_threadSpawned b.val hitem args destination _
      | assert cond expected target unwind =>
          exact Eq.trans (assertCondition_values _ cond expected .threadSpawned (by decide))
            (Bool.or_false _).symm
      | drop place target unwind =>
          exact Eq.trans (applyDrop_writes _ place .threadSpawned (by decide))
            (Bool.or_false _).symm
      | _ => exact (Bool.or_false _).symm

/-- Some block that control can reach spawns a thread and comes before `n`. -/
def Body.SpawnedBefore (tcx : TyCtxt) (body : Body) (n : body.BasicBlock) : Prop :=
  ∃ b, body.spawnsAt tcx b = true ∧ body.Precedes b n ∧
    (b = body.entryBlock ∨ body.Precedes body.entryBlock b)

/-- A spawned thread has been spawned before. -/
theorem spawnedBefore_invariant (hbody : body.DirectCalls) (hinit : initial.threadSpawned = false) :
    (flowProblem tcx body summaries initial).Invariant fun n s =>
      (n = body.entryBlock ∨ body.Precedes body.entryBlock n) ∧
        (s.threadSpawned = true → body.SpawnedBefore tcx n) := by
  refine ⟨⟨.inl rfl, fun h => absurd (hinit.symm.trans h) Bool.false_ne_true⟩, ?_, ?_⟩
  · rintro n s succ hsucc ⟨hreach, hspawned⟩
    refine ⟨.inr ?_, fun h => ?_⟩
    · rcases hreach with rfl | hreach
      · exact .single hsucc
      · exact hreach.tail hsucc
    · replace h : (edgeState tcx body summaries n s succ).threadSpawned = true := h
      rw [edgeState_threadSpawned hbody, Bool.or_eq_true] at h
      rcases h with h | h
      · obtain ⟨b, hb, hbefore, hentry⟩ := hspawned h
        exact ⟨b, hb, hbefore.tail hsucc, hentry⟩
      · exact ⟨n, h, .single hsucc, hreach⟩
  · rintro n a e ⟨hreach, ha⟩ ⟨-, he⟩
    exact ⟨hreach, fun h => (Bool.or_eq_true_iff.mp h).elim ha he⟩

/-- So the flag distributes. -/
theorem spawned_distributive (tcx : TyCtxt) (summaries : SummaryMap) (hbody : body.DirectCalls)
    (initial : BlockState) :
    (flowProblem tcx body summaries initial).Distributive (fun _ => True)
      fun s (_ : Unit) => s.threadSpawned = true where
  init := trivial
  flow b succ _ := by
    refine Distributes.of_rel (fun _ => body.spawnsAt tcx b = true) (fun _ _ => True) fun s _ => ?_
    have hedge : (edgeState tcx body summaries b s succ).threadSpawned = true ↔
        s.threadSpawned = true ∨ body.spawnsAt tcx b = true := by
      rw [edgeState_threadSpawned hbody, Bool.or_eq_true]
    exact hedge.trans (Or.comm.trans (or_congr_right ⟨fun h => ⟨(), h, trivial⟩, fun ⟨_, h, _⟩ => h⟩))
  inv _ _ _ _ := trivial
  join _ _ _ _ _ := Bool.or_eq_true_iff
  keep a e _ _ hch _ he := by
    have hsame : (a.joined e).threadSpawned = a.threadSpawned :=
      joined_writes a hch .threadSpawned (by decide)
    exact hsame ▸ Bool.or_eq_true_iff.mpr (.inr he)

/-- Control can follow a path to every block that the entry precedes. -/
theorem exists_pathState_of_precedes {b n : body.BasicBlock} {p : BlockState}
    (hp : (flowProblem tcx body summaries initial).PathState b p) (h : body.Precedes b n) :
    ∃ q, (flowProblem tcx body summaries initial).PathState n q := by
  induction h with
  | single hsucc => exact ⟨_, hp.step hsucc⟩
  | tail _ hsucc ih =>
      obtain ⟨q, hq⟩ := ih
      exact ⟨_, hq.step hsucc⟩

/-- A path that goes on from a block that spawns a thread has spawned one. -/
theorem spawned_on_path (hbody : body.DirectCalls) {b n : body.BasicBlock} {p : BlockState}
    (hp : (flowProblem tcx body summaries initial).PathState b p)
    (hspawns : body.spawnsAt tcx b = true) (h : body.Precedes b n) :
    ∃ q, (flowProblem tcx body summaries initial).PathState n q ∧ q.threadSpawned = true := by
  induction h with
  | single hsucc =>
      refine ⟨_, hp.step hsucc, (edgeState_threadSpawned hbody _ _ _).trans ?_⟩
      rw [hspawns, Bool.or_true]
  | tail _ hsucc ih =>
      obtain ⟨q, hq, hspawned⟩ := ih
      refine ⟨_, hq.step hsucc, (edgeState_threadSpawned hbody _ _ _).trans ?_⟩
      rw [hspawned, Bool.true_or]

/-- **The flag of a block is a fact about its control flow.** -/
theorem threadSpawned_iff (tcx : TyCtxt) (summaries : SummaryMap) (hbody : body.DirectCalls)
    (hinit : initial.threadSpawned = false) (n : body.BasicBlock) :
    (runFixpoint tcx body summaries initial n).any BlockState.threadSpawned = true ↔
      body.SpawnedBefore tcx n := by
  constructor
  · intro h
    obtain ⟨s, hs, hspawned⟩ := (Option.any_eq_true _ _).mp h
    exact ((spawnedBefore_invariant hbody hinit).solution hs).2 hspawned
  · rintro ⟨b, hspawns, hbefore, hentry⟩
    obtain ⟨p, hp⟩ : ∃ p, (flowProblem tcx body summaries initial).PathState b p := by
      rcases hentry with rfl | hentry
      · exact ⟨_, .start⟩
      · exact exists_pathState_of_precedes .start hentry
    obtain ⟨q, hq, hspawned⟩ := spawned_on_path hbody hp hspawns hbefore
    obtain ⟨s, hs⟩ := Option.isSome_iff_exists.mp
      ((FlowProblem.solution_isSome_iff _).mpr hq.reaches)
    exact (Option.any_eq_true _ _).mpr ⟨s, hs, ((spawned_distributive tcx summaries hbody
      initial).solution .refl hs ()).mpr ⟨q, hq, hspawned⟩⟩

end Spawned

theorem EnvSetVar.checkCall_isSome {path : String} (call : CallSite)
    (state : Option BlockState) (h : (EnvSetVar.description path).isSome = true) :
    ∃ f, EnvSetVar.checkCall path call state = some f ∧ f.span = call.span ∧
      (f.severity = .error ↔ state.any BlockState.threadSpawned = true) := by
  obtain ⟨⟨fnName, note⟩, hdesc⟩ := Option.isSome_iff_exists.mp h
  unfold EnvSetVar.checkCall
  rw [hdesc, Option.map_some]
  refine ⟨_, rfl, ?_⟩
  cases state.any BlockState.threadSpawned <;> simp

end San
