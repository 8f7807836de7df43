import San.AssignFrame
import San.CallChecks
import San.TaintPaths

/-! # Descriptors that are owned twice

A raw descriptor that has been passed to one of the `from_raw_*` functions belongs to the object
they return.  The analysis keeps two sets of locals: those that hold a descriptor given up by
`into_raw_*`, on all paths, and those passed to `from_raw_*`, on some path.  The checker reports a
second `from_raw_*` as an error if its argument is in the second set.

The second set does what it is for: a descriptor stays in it along every path on which it is neither
assigned to nor moved (`consumed_on_path`).  But the first set is asked first, and a local does not
leave it when its descriptor is taken (`double_ownership_reported_iff`).
-/
namespace San

/-! ## Assignments and moves -/

/-- Does the statement assign to the whole local? -/
def Statement.assigns (stmt : Statement) (l : Local) : Bool :=
  match stmt.kind with
  | .assign dst _ => dst.isLocal && decide (dst.base = l)
  | .other => false

/-- Does the statement move out of a place rooted at the local? -/
def Statement.moves (stmt : Statement) (l : Local) : Bool :=
  match stmt.kind with
  | .assign _ rvalue => decide (l ∈ rvalue.movedRoots)
  | .other => false

/-- Does the terminator assign to the whole local? -/
def Terminator.assigns {n : Nat} (term : Terminator n) (l : Local) : Bool :=
  match term.kind with
  | .call _ _ destination _ _ => destination.isLocal && decide (destination.base = l)
  | _ => false

/-! ## A consumed descriptor stays consumed -/

section Consumed
variable {s : BlockState} {fd : Local} (tcx : TyCtxt) (body : Body)

/-- **A statement that neither assigns to a local nor moves out of it** keeps its descriptor
consumed. -/
theorem consumed_applyStatement {stmt : Statement} (hassign : stmt.assigns fd = false)
    (hmove : stmt.moves fd = false) (h : fd ∈ s.maySets .fdConsumed) :
    fd ∈ (applyStatement tcx body stmt s).maySets .fdConsumed := by
  unfold Statement.assigns at hassign
  unfold Statement.moves at hmove
  unfold applyStatement
  cases hkind : stmt.kind with
  | other => exact h
  | assign place rvalue =>
    rw [hkind] at hassign hmove
    dsimp only
    cases hlocal : place.isLocal with
    | false =>
      have hinvalid : (s.invalidateOwner place.base).maySets .fdConsumed = s.maySets .fdConsumed :=
        s.invalidateOwners_writes {place.base} (.maySet .fdConsumed) (by decide)
      have hsame : (assignProjected tcx body place rvalue (s.invalidateOwner place.base)).maySets
          .fdConsumed = (s.invalidateOwner place.base).maySets .fdConsumed :=
        assignProjected_writes _ tcx body place rvalue (.maySet .fdConsumed) (by decide)
      rw [if_neg nofun, hsame, hinvalid]
      exact h
    | true =>
      have hne : fd ≠ place.base := fun heq => by simp [hlocal, heq] at hassign
      have hkept := ((EntriesKept.refl fd s).invalidateOwner place.base).assignLocal hne
        (of_decide_eq_false hmove) tcx body
      rw [if_pos rfl]
      exact (hkept.maySets .fdConsumed).mpr h

theorem consumed_applyStatements {stmts : List Statement}
    (hassign : ∀ stmt ∈ stmts, stmt.assigns fd = false)
    (hmove : ∀ stmt ∈ stmts, stmt.moves fd = false) (h : fd ∈ s.maySets .fdConsumed) :
    fd ∈ (applyStatements tcx body stmts s).maySets .fdConsumed := by
  induction stmts generalizing s with
  | nil => exact h
  | cons stmt stmts ih =>
    exact ih (fun x hx => hassign x (List.mem_cons_of_mem _ hx))
      (fun x hx => hmove x (List.mem_cons_of_mem _ hx))
      (consumed_applyStatement tcx body (hassign stmt List.mem_cons_self)
        (hmove stmt List.mem_cons_self) h)

/-- No function both gives up a descriptor and takes one. -/
theorem isIntoRawFd_of_isFromRawFdCall {path : String} (h : isFromRawFdCall path = true) :
    isIntoRawFd path = false := by
  unfold isFromRawFdCall at h
  rcases Bool.or_eq_true_iff.mp h with hfrom | hborrow
  · exact endsWithAny_disjoint (by decide +kernel) hfrom
  · have hends : endsWithAny path ["::borrow_raw"] = true := by
      simpa [endsWithAny] using (Bool.and_eq_true_iff.mp hborrow).1
    exact endsWithAny_disjoint (by decide +kernel) hends

theorem mem_consumed_recordFd {path : String} {args : List Operand} {dest : Local} :
    fd ∈ (recordFd path args dest s).maySets .fdConsumed ↔
      fd ∈ s.maySets .fdConsumed ∨ isFromRawFdCall path = true ∧ firstArgLocal args = some fd := by
  unfold recordFd
  cases hfrom : isFromRawFdCall path with
  | false =>
    rw [if_neg Bool.false_ne_true, or_iff_left fun h => Bool.false_ne_true h.1]
    split <;> rfl
  | true =>
    rw [isIntoRawFd_of_isFromRawFdCall hfrom, if_neg Bool.false_ne_true, if_pos rfl]
    cases firstArgLocal args with
    | none => simp
    | some arg =>
      show fd ∈ insert arg (s.maySets .fdConsumed) ↔ _
      rw [Finset.mem_insert, Option.some_inj, and_iff_right rfl, or_comm, eq_comm (a := fd)]

/-- **A call consumes what it takes**, and forgets the descriptor in its destination. -/
theorem mem_consumed_applyResolvedCall (summaries : SummaryMap) (did : DefId)
    (args : List Operand) (dest : Local) (bb : Nat) :
    fd ∈ (applyResolvedCall tcx body summaries did args dest bb s).maySets .fdConsumed ↔
      (fd ≠ dest ∧ fd ∈ s.maySets .fdConsumed) ∨
        isFromRawFdCall (tcx.defPathStr did) = true ∧ firstArgLocal args = some fd := by
  have hbefore : Writes (.fact .refBase :: Field.values) (s.clearRedefined dest)
      (recordDeref (tcx.defPathStr did) args dest (recordFiniteness (tcx.defPathStr did) args dest
        (recordLength (tcx.defPathStr did) args dest (s.clearRedefined dest)))) :=
    ((recordLength_writes _ _ args dest).mono (by decide)).trans <|
      ((recordFiniteness_writes _ _ args dest).mono (by decide)).trans <|
      (recordDeref_writes _ _ args dest).mono (by decide)
  have hafter : ∀ t : BlockState,
      Writes (.threadSpawned :: .maySet .layoutOverflow ::
        (Field.values ++ Field.called ++ Field.scalars)) t
      (leaveCall tcx body (tcx.defPathStr did) args dest (applyCallKind tcx body (tcx.defPathStr did)
        (classify (tcx.defPathStr did) (summaries.get did)) args dest bb
        (recordPartialEq (tcx.defPathStr did) args dest
          (if isThreadSpawn (tcx.defPathStr did) then markSpawned t else t)))) := fun t =>
    (Writes.ite ((markSpawned_writes t).mono (by decide)) (.refl _ t)).trans <|
      ((recordPartialEq_writes _ _ args dest).mono (by decide)).trans <|
      ((applyCallKind_writes _ tcx body _ _ args dest bb).mono (by decide)).trans <|
      (leaveCall_writes _ tcx body _ args dest).mono (by decide)
  have hrecorded : (applyResolvedCall tcx body summaries did args dest bb s).maySets .fdConsumed =
      (recordFd (tcx.defPathStr did) args dest (recordDeref (tcx.defPathStr did) args dest
        (recordFiniteness (tcx.defPathStr did) args dest (recordLength (tcx.defPathStr did) args dest
          (s.clearRedefined dest))))).maySets .fdConsumed :=
    hafter _ (.maySet .fdConsumed) (by decide)
  have hcleared : (recordDeref (tcx.defPathStr did) args dest (recordFiniteness
      (tcx.defPathStr did) args dest (recordLength (tcx.defPathStr did) args dest
        (s.clearRedefined dest)))).maySets .fdConsumed = (s.maySets .fdConsumed).erase dest :=
    hbefore (.maySet .fdConsumed) (by decide)
  rw [hrecorded, mem_consumed_recordFd, hcleared, Finset.mem_erase]

theorem enterCall_consumed (summaries : SummaryMap) (callee : Option DefId) (args : List Operand)
    (dest : Local) : (enterCall tcx body summaries callee args dest s).maySets .fdConsumed =
      s.maySets .fdConsumed :=
  enterCall_writes s tcx body summaries callee args dest (.maySet .fdConsumed) (by decide)

theorem escapeRawPtrArgs_consumed (args : List Operand) :
    (escapeRawPtrArgs body args s).maySets .fdConsumed = s.maySets .fdConsumed :=
  escapeRawPtrArgs_writes s body args (.maySet .fdConsumed) (by decide)

/-- **A terminator that does not assign to a local** keeps its descriptor consumed. -/
theorem consumed_applyTerminator (summaries : SummaryMap) (bb : Nat)
    {term : Terminator body.numBlocks} (hassign : term.assigns fd = false)
    (h : fd ∈ s.maySets .fdConsumed) :
    fd ∈ (applyTerminator tcx body summaries bb term s).maySets .fdConsumed := by
  unfold Terminator.assigns at hassign
  unfold applyTerminator
  split
  · rename_i func args destination target unwind hkind
    rw [hkind] at hassign
    unfold applyCall
    dsimp only
    split
    · rw [escapeRawPtrArgs_consumed, enterCall_consumed]
      exact h
    · split
      · rename_i did hcallee hlocal
        have hne : fd ≠ destination.base := by
          rintro rfl
          simp [hlocal] at hassign
        rw [mem_consumed_applyResolvedCall, enterCall_consumed]
        exact Or.inl ⟨hne, h⟩
      · rw [escapeRawPtrArgs_consumed, enterCall_consumed]
        exact h
  · rwa [show BlockState.maySets (assertCondition _ _ s) .fdConsumed = _ from
      assertCondition_values s _ _ (.maySet .fdConsumed) (by decide)]
  · rwa [show BlockState.maySets (applyDrop _ s) .fdConsumed = _ from
      applyDrop_writes s _ (.maySet .fdConsumed) (by decide)]
  · exact h

end Consumed

/-! ## Along a path -/

/-- A path from the end of `first` through the blocks `between` to the end of the statements of
`last` on which `l` is not assigned to. -/
structure UnassignedPath (body : Body) (l : Local) (first : body.BasicBlock)
    (between : List body.BasicBlock) (last : body.BasicBlock) : Prop where
  edges : List.IsChain (fun bb succ => succ ∈ blockSuccessors (body.basicBlocks bb))
    (first :: (between ++ [last]))
  statements : ∀ bb ∈ between ++ [last], ∀ stmt ∈ (body.basicBlocks bb).statements,
    stmt.assigns l = false
  terminators : ∀ bb ∈ first :: between, ∀ term ∈ (body.basicBlocks bb).terminator,
    term.assigns l = false

/-- No statement of the blocks moves out of `l`. -/
def Unmoved (body : Body) (l : Local) (blocks : List body.BasicBlock) : Prop :=
  ∀ bb ∈ blocks, ∀ stmt ∈ (body.basicBlocks bb).statements, stmt.moves l = false

section Path
variable {tcx : TyCtxt} {body : Body} {summaries : SummaryMap} {fd : Local}

/-- A path from a reachable block leads to a reachable one. -/
theorem UnassignedPath.reaches {first last : body.BasicBlock} {between : List body.BasicBlock}
    (hpath : UnassignedPath body fd first between last)
    (h : (AssumeInit.flowOf tcx body summaries).Reaches first) :
    (AssumeInit.flowOf tcx body summaries).Reaches last := by
  have hedges := hpath.edges
  clear hpath
  induction between generalizing first with
  | nil => exact h.step (List.isChain_cons_cons.mp hedges).1
  | cons next between ih =>
    obtain ⟨hnext, hrest⟩ := List.isChain_cons_cons.mp hedges
    exact ih (h.step hnext) hrest

/-- The entry state of a block has what is consumed along each edge to it. -/
theorem consumed_of_edge {bb succ : body.BasicBlock} {x : BlockState}
    (hx : (AssumeInit.flowOf tcx body summaries).solution bb = some x)
    (hsucc : succ ∈ blockSuccessors (body.basicBlocks bb))
    (h : fd ∈ (edgeState tcx body summaries bb x succ).maySets .fdConsumed) :
    ∃ u, (AssumeInit.flowOf tcx body summaries).solution succ = some u ∧
      fd ∈ u.maySets .fdConsumed := by
  obtain ⟨u, hu, hstable⟩ := FlowProblem.run_stable.2 bb x hx succ hsucc
  have hjoined : (u.joined (edgeState tcx body summaries bb x succ)).maySets .fdConsumed =
      u.maySets .fdConsumed := joined_writes u hstable (.maySet .fdConsumed) (by decide)
  refine ⟨u, hu, ?_⟩
  rw [← hjoined]
  exact Finset.mem_union_right _ h

/-- Along an edge out of a block that does not assign to the local the descriptor stays
consumed. -/
theorem consumed_edgeState {bb : body.BasicBlock} {u : BlockState}
    (hassign : ∀ stmt ∈ (body.basicBlocks bb).statements, stmt.assigns fd = false)
    (hmove : ∀ stmt ∈ (body.basicBlocks bb).statements, stmt.moves fd = false)
    (hterms : ∀ term ∈ (body.basicBlocks bb).terminator, term.assigns fd = false)
    (h : fd ∈ u.maySets .fdConsumed) (succ : body.BasicBlock) :
    fd ∈ (edgeState tcx body summaries bb u succ).maySets .fdConsumed := by
  have hstmts := consumed_applyStatements tcx body hassign hmove h
  cases hterm : (body.basicBlocks bb).terminator with
  | none =>
    rw [edgeState_of_none hterm]
    exact hstmts
  | some term =>
    rw [edgeState_of_some hterm, show BlockState.maySets (refineSwitchintEdge term succ _) _ = _ from
      refineSwitchintEdge_writes _ term succ (.maySet .fdConsumed) (by decide)]
    exact consumed_applyTerminator tcx body summaries bb.val (hterms term hterm) hstmts

/-- **A consumed descriptor stays consumed** along every path on which it is neither assigned to
nor moved. -/
theorem consumed_on_path {first last : body.BasicBlock} {between : List body.BasicBlock}
    (hpath : UnassignedPath body fd first between last)
    (hmoves : Unmoved body fd (between ++ [last])) {x : BlockState}
    (hx : (AssumeInit.flowOf tcx body summaries).solution first = some x)
    (h : ∀ succ, fd ∈ (edgeState tcx body summaries first x succ).maySets .fdConsumed) :
    ∃ s, (computeFlow tcx body summaries).stateBeforeTerminator tcx last = some s ∧
      fd ∈ s.maySets .fdConsumed := by
  induction between generalizing first x with
  | nil =>
    have hlast := (List.isChain_cons_cons.mp hpath.edges).1
    obtain ⟨u, hu, hconsumed⟩ := consumed_of_edge hx hlast (h last)
    exact ⟨_, congrArg _ hu, consumed_applyStatements tcx body
      (hpath.statements last List.mem_cons_self) (hmoves last List.mem_cons_self) hconsumed⟩
  | cons next between ih =>
    obtain ⟨hnext, hrest⟩ := List.isChain_cons_cons.mp hpath.edges
    obtain ⟨u, hu, hconsumed⟩ := consumed_of_edge hx hnext (h next)
    have hpath' : UnassignedPath body fd next between last :=
      ⟨hrest, fun bb hbb => hpath.statements bb (List.mem_cons_of_mem _ hbb),
        fun bb hbb => hpath.terminators bb (List.mem_cons_of_mem _ hbb)⟩
    refine ih hpath' (fun bb hbb => hmoves bb (List.mem_cons_of_mem _ hbb)) hu ?_
    exact consumed_edgeState (hpath.statements next List.mem_cons_self)
      (hmoves next List.mem_cons_self)
      (hpath.terminators next (List.mem_cons_of_mem _ List.mem_cons_self)) hconsumed

end Path

/-! ## The checker -/

namespace RawFd

/-- The checker spells out the test by which the analysis marks a descriptor as consumed. -/
def isFromCall (path : String) : Bool :=
  endsWithAny path
    ["::from_raw_fd", "::from_raw_socket", "::from_raw_handle", "::from_raw_handle_or_invalid"]
  || (endsWith path "::borrow_raw"
    && (contains path "BorrowedFd" || contains path "BorrowedSocket"))

def fromName (path : String) : String :=
  if endsWith path "::from_raw_fd" then "from_raw_fd"
  else if endsWith path "::from_raw_socket" then "from_raw_socket"
  else if endsWithAny path ["::from_raw_handle", "::from_raw_handle_or_invalid"] then
    "from_raw_handle"
  else "borrow_raw"

def fromNote (name : String) : String :=
  if name = "from_raw_fd" then
    "descriptor must be valid and uniquely owned; " ++
      "double-close UB if another owner closes the same descriptor; " ++
      "use OwnedFd and `from_raw_fd` via rustix/io_uring for correct I/O safety"
  else if name = "from_raw_socket" then
    "socket must be valid and uniquely owned; " ++
      "double-close UB if another owner closes the same socket"
  else if name = "from_raw_handle" then
    "handle must be valid and uniquely owned; " ++
      "double-close UB if another owner closes the same handle"
  else
    "fd/socket must remain valid and open for the entire lifetime of the " ++
      "returned BorrowedFd/BorrowedSocket; using an invalid descriptor is UB"

def doubleNote (name : String) : String :=
  "double-ownership: `" ++ name ++ "` on an fd integer already passed " ++
    "to `from_raw_fd` — both Rust objects will close the same " ++
    "descriptor on drop; use `dup(2)` if two independent owners " ++
    "are intended"

/-- The name of a function that gives up a descriptor, and the note on it. -/
def intoNote (path : String) : Option (String × String) :=
  if endsWith path "::into_raw_fd" then
    some ("into_raw_fd",
      "leaks the file descriptor — caller must close it exactly once " ++
        "(e.g. via OwnedFd::from_raw_fd); forgetting to close causes an " ++
        "fd leak; closing twice (via another owner) causes use-after-close")
  else if endsWith path "::into_raw_socket" then
    some ("into_raw_socket",
      "leaks the socket — caller must close it exactly once; " ++
        "double-close or forgetting to close are both bugs")
  else if endsWith path "::into_raw_handle" then
    some ("into_raw_handle",
      "leaks the Windows HANDLE — caller must close it exactly once " ++
        "via CloseHandle; double-close or forgetting to close are both bugs")
  else none

def finding (severity : Severity) (span : Span) (message : String) : Finding :=
  ⟨"raw_fd", severity, span, message⟩

/-- A call that takes a descriptor: excused if it was given up before, an error if it was taken
before, and worth a warning otherwise. -/
def checkFrom (path : String) (call : CallSite) (s : Option BlockState) : Option Finding :=
  let warning := finding .warning call.span
    ("`" ++ fromName path ++ "` — " ++ fromNote (fromName path))
  match s, firstArgLocal call.args with
  | some s, some arg =>
      if s.fdWasTransferred arg then none
      else if s.fdIsConsumed arg then
        some (finding .error call.span (doubleNote (fromName path)))
      else some warning
  | _, _ => some warning

def checkCall (path : String) (call : CallSite) (s : Option BlockState) : Option Finding :=
  if call.span.fromExpansion then none
  else if isFromCall path then checkFrom path call s
  else (intoNote path).map fun note =>
    finding .warning call.span ("`" ++ note.1 ++ "` — " ++ note.2)

def check (tcx : TyCtxt) {body : Body} (flow : FlowResults body) : List Finding :=
  checkCalls tcx flow checkCall

/-- The call that ends `bb` is reported as an error. -/
def ErrorAt (tcx : TyCtxt) {body : Body} (flow : FlowResults body) (bb : body.BasicBlock) : Prop :=
  ∃ finding ∈ check tcx flow, checkCallIn tcx flow checkCall bb = some finding ∧
    finding.severity = .error

/-- The call that ends `bb` takes the descriptor in `fd`. -/
structure Takes (tcx : TyCtxt) (body : Body) (fd : Local) (bb : body.BasicBlock)
    (call : CallSite) : Prop where
  site : body.callSite bb = some call
  path : isFromCall (tcx.defPathStr call.callee) = true
  arg : firstArgLocal call.args = some fd

/-- The function that the call ending `bb` goes to, if it names a function item. -/
def resolvedPath (tcx : TyCtxt) (body : Body) (bb : body.BasicBlock) : Option String :=
  match (body.basicBlocks bb).terminator with
  | some ⟨.call func _ _ _ _, _⟩ => (resolveCallee tcx body func .default).map tcx.defPathStr
  | _ => none

section Checker
variable {tcx : TyCtxt} {body : Body} {summaries : SummaryMap} {fd : Local} {bb : body.BasicBlock}
  {call : CallSite} {s : BlockState}

/-- **When a call is an error**: its descriptor has been taken, and was not given up before. -/
theorem errorAt_iff (h : Takes tcx body fd bb call) (hspan : call.span.fromExpansion = false)
    {flow : FlowResults body} (hs : flow.stateBeforeTerminator tcx bb = some s) :
    ErrorAt tcx flow bb ↔ fd ∉ s.mustSets .fdOrigin ∧ fd ∈ s.maySets .fdConsumed := by
  have hcheck : checkCallIn tcx flow checkCall bb =
      if s.fdWasTransferred fd then none
      else if s.fdIsConsumed fd then
        some (finding .error call.span (doubleNote (fromName (tcx.defPathStr call.callee))))
      else some (finding .warning call.span ("`" ++ fromName (tcx.defPathStr call.callee) ++
        "` — " ++ fromNote (fromName (tcx.defPathStr call.callee)))) := by
    rw [checkCallIn_eq h.site hs]
    unfold checkCall checkFrom
    rw [hspan, h.path, h.arg]
    rfl
  unfold ErrorAt
  constructor
  · rintro ⟨found, -, hfound, herror⟩
    rw [hcheck] at hfound
    split at hfound
    · cases hfound
    · rename_i htransferred
      split at hfound
      · rename_i hconsumed
        exact ⟨fun hmem => htransferred (decide_eq_true hmem), of_decide_eq_true hconsumed⟩
      · cases hfound
        cases herror
  · rintro ⟨horigin, hconsumed⟩
    have htransferred : ¬ s.fdWasTransferred fd = true := fun hmem =>
      horigin (of_decide_eq_true hmem)
    rw [if_neg htransferred, if_pos (show s.fdIsConsumed fd = true from decide_eq_true hconsumed)]
      at hcheck
    exact ⟨_, mem_checkCalls hcheck, hcheck, rfl⟩

/-- A call that takes a descriptor is the terminator of its block. -/
theorem Takes.terminator (h : Takes tcx body fd bb call) : ∃ func target unwind,
    func.constFnDef.isSome = true ∧ (body.basicBlocks bb).terminator =
      some ⟨.call func call.args call.destination target unwind, call.span⟩ := by
  have hsite := h.site
  unfold Body.callSite at hsite
  split at hsite
  · rename_i func args destination target unwind span hterm
    obtain ⟨item, hitem, rfl⟩ := Option.map_eq_some_iff.mp hsite
    exact ⟨func, target, unwind, Option.isSome_iff_exists.mpr ⟨item, hitem⟩, hterm⟩
  · cases hsite

/-- **The first call consumes the descriptor** if it puts its result into a whole local and is
still recognised after the method has been resolved. -/
theorem Takes.consumes (h : Takes tcx body fd bb call) (hlocal : call.destination.isLocal = true)
    (hresolved : ∀ path ∈ resolvedPath tcx body bb, isFromCall path = true) (x : BlockState)
    (succ : body.BasicBlock) :
    fd ∈ (edgeState tcx body summaries bb x succ).maySets .fdConsumed := by
  obtain ⟨func, target, unwind, hfunc, hterm⟩ := h.terminator
  obtain ⟨did, hdid⟩ : ∃ did, resolveCallee tcx body func .default = some did := by
    obtain ⟨item, hitem⟩ := Option.isSome_iff_exists.mp hfunc
    unfold resolveCallee
    rw [hitem]
    dsimp only
    split
    · split <;> exact ⟨_, rfl⟩
    · exact ⟨_, rfl⟩
  have hfrom : isFromCall (tcx.defPathStr did) = true := by
    refine hresolved _ ?_
    unfold resolvedPath
    rw [hterm]
    exact Option.map_eq_some_iff.mpr ⟨did, hdid, rfl⟩
  have hcallee : ∀ s, resolveCallee tcx body func s = some did := fun s =>
    (TaintSim.resolveCallee_eq hfunc s .default).trans hdid
  rw [edgeState_of_some hterm, show BlockState.maySets (refineSwitchintEdge _ succ _) _ = _ from
    refineSwitchintEdge_writes _ _ succ (.maySet .fdConsumed) (by decide)]
  show fd ∈ (applyCall tcx body summaries bb.val func call.args call.destination _).maySets
    .fdConsumed
  unfold applyCall
  rw [hcallee]
  dsimp only
  rw [if_pos hlocal, mem_consumed_applyResolvedCall]
  exact Or.inr ⟨hfrom, h.arg⟩

end Checker

/-- **When double ownership is reported.**  Let `fd` be taken by two calls, the first of them
reachable, on a path on which it is not assigned to in between, and let the second call stand
outside macro expansions.  The second call is reported as an error exactly if the state before it
does not have `fd` as given up by `into_raw_*` and has it as consumed.  It does have it as consumed
if the first call puts its result into a whole local, is still recognised after the method has been
resolved, and `fd` is not moved in between; then the call is reported exactly if `fd` was not given
up by `into_raw_*`. -/
theorem double_ownership_reported_iff (tcx : TyCtxt) {body : Body} (summaries : SummaryMap)
    {fd : Local} {first last : body.BasicBlock} {between : List body.BasicBlock}
    {call call' : CallSite} (hreach : (AssumeInit.flowOf tcx body summaries).Reaches first)
    (hfirst : Takes tcx body fd first call) (hlast : Takes tcx body fd last call')
    (hpath : UnassignedPath body fd first between last)
    (hspan : call'.span.fromExpansion = false) :
    ∃ s, (computeFlow tcx body summaries).stateBeforeTerminator tcx last = some s ∧
      (ErrorAt tcx (computeFlow tcx body summaries) last ↔
        fd ∉ s.mustSets .fdOrigin ∧ fd ∈ s.maySets .fdConsumed) ∧
      (call.destination.isLocal = true →
        (∀ path ∈ resolvedPath tcx body first, isFromCall path = true) →
        Unmoved body fd (between ++ [last]) →
        (ErrorAt tcx (computeFlow tcx body summaries) last ↔ fd ∉ s.mustSets .fdOrigin)) := by
  obtain ⟨u, hu⟩ := Option.isSome_iff_exists.mp
    ((FlowProblem.solution_isSome_iff last).mpr (hpath.reaches hreach))
  have hs : (computeFlow tcx body summaries).stateBeforeTerminator tcx last =
      some (applyStatements tcx body (body.basicBlocks last).statements u) := congrArg _ hu
  have herror := errorAt_iff hlast hspan hs
  refine ⟨_, hs, herror, fun hlocal hresolved hmoves => ?_⟩
  obtain ⟨x, hx⟩ := Option.isSome_iff_exists.mp
    ((FlowProblem.solution_isSome_iff first).mpr hreach)
  obtain ⟨s, hs', hconsumed⟩ := consumed_on_path hpath hmoves hx
    (hfirst.consumes hlocal hresolved x)
  cases hs.symm.trans hs'
  rw [herror, and_iff_left hconsumed]

/-- A descriptor is taken twice.  It comes from `into_raw_fd` or from an unknown function. -/
def takenTwice (given : Bool) : Body :=
  .ofBlocks 3 1 [.other, .other, .int .i32, .other, .other] 3
    (fun bb =>
      [.of [] (.callTo (if given then 0 else 2) [.ofNat 1] 2 (bb 1)),
        .of [] (.callTo 1 [.ofNat 2] 3 (bb 2)),
        .of [] (.callTo 1 [.ofNat 2] 4 (bb 3)),
        .of [] .return])
    (by cases given <;> decide)

def descriptorPaths : TyCtxt :=
  .ofPaths ["std::os::fd::IntoRawFd::into_raw_fd", "std::os::fd::FromRawFd::from_raw_fd", "open", "f"]

/-- The second call that takes the descriptor is on a path from the first. -/
theorem takenTwice_path (given : Bool) :
    (AssumeInit.flowOf descriptorPaths (takenTwice given) ∅).Reaches (1 : Fin 4) ∧
    Takes descriptorPaths (takenTwice given) (Local.ofNat 2) (1 : Fin 4)
      ⟨⟨0, 1⟩, [.ofNat 2], Place.ofLocal (Local.ofNat 3), .none⟩ ∧
    Takes descriptorPaths (takenTwice given) (Local.ofNat 2) (2 : Fin 4)
      ⟨⟨0, 1⟩, [.ofNat 2], Place.ofLocal (Local.ofNat 4), .none⟩ ∧
    UnassignedPath (takenTwice given) (Local.ofNat 2) (1 : Fin 4) [] (2 : Fin 4) := by
  refine ⟨.step .start ?_, ⟨rfl, by decide +kernel, rfl⟩, ⟨rfl, by decide +kernel, rfl⟩, ?_⟩
  · cases given <;> exact List.mem_cons_self
  · refine ⟨List.isChain_cons_cons.mpr ⟨?_, List.isChain_singleton _⟩, ?_, ?_⟩
    · cases given <;> exact List.mem_cons_self
    · show ∀ bb ∈ ([2] : List (Fin 4)), ∀ stmt ∈ ((takenTwice given).basicBlocks bb).statements, _
      cases given <;> decide
    · show ∀ bb ∈ ([1] : List (Fin 4)), ∀ term ∈ ((takenTwice given).basicBlocks bb).terminator, _
      cases given <;> decide

/-- The state before the second call, and whether the descriptor counts as given up there. -/
theorem takenTwice_state (given : Bool) : ∃ s,
    (computeFlow descriptorPaths (takenTwice given) ∅).stateBeforeTerminator descriptorPaths
      (2 : Fin 4) = some s ∧ s.fdWasTransferred (Local.ofNat 2) = given := by
  have hdone : ((AssumeInit.flowOf descriptorPaths (takenTwice given) ∅).step^[4]
      (AssumeInit.flowOf descriptorPaths (takenTwice given) ∅).initial).work = [] := by
    cases given <;> decide +kernel
  obtain ⟨x, hx, hq⟩ := FlowProblem.exists_solution hdone (n := (2 : Fin 4))
    (q := fun s => decide (s.fdWasTransferred (Local.ofNat 2) = given))
    (by cases given <;> decide +kernel)
  exact ⟨x, congrArg _ hx, of_decide_eq_true hq⟩

/-- A descriptor that comes from an unknown function and is taken twice is reported. -/
theorem unknown_taken_twice :
    ErrorAt descriptorPaths (computeFlow descriptorPaths (takenTwice false) ∅) (2 : Fin 4) := by
  obtain ⟨hreach, hfirst, hlast, hpath⟩ := takenTwice_path false
  obtain ⟨s, hs, -, hreported⟩ :=
    double_ownership_reported_iff descriptorPaths ∅ hreach hfirst hlast hpath rfl
  obtain ⟨s', hs', horigin⟩ := takenTwice_state false
  cases hs.symm.trans hs'
  refine (hreported rfl ?_ ?_).mpr (of_decide_eq_false horigin)
  · decide +kernel
  · show ∀ bb ∈ ([2] : List (Fin 4)), ∀ stmt ∈ ((takenTwice false).basicBlocks bb).statements, _
    decide

/-- **A descriptor that is given up once and taken twice** is not reported at all. -/
theorem given_taken_twice :
    (∃ s, (computeFlow descriptorPaths (takenTwice true) ∅).stateBeforeTerminator descriptorPaths
      (2 : Fin 4) = some s) ∧
    UnassignedPath (takenTwice true) (Local.ofNat 2) (1 : Fin 4) [] (2 : Fin 4) ∧
    Takes descriptorPaths (takenTwice true) (Local.ofNat 2) (1 : Fin 4)
      ⟨⟨0, 1⟩, [.ofNat 2], Place.ofLocal (Local.ofNat 3), .none⟩ ∧
    Takes descriptorPaths (takenTwice true) (Local.ofNat 2) (2 : Fin 4)
      ⟨⟨0, 1⟩, [.ofNat 2], Place.ofLocal (Local.ofNat 4), .none⟩ ∧
    ¬ ErrorAt descriptorPaths (computeFlow descriptorPaths (takenTwice true) ∅) (2 : Fin 4) := by
  obtain ⟨-, hfirst, hlast, hpath⟩ := takenTwice_path true
  obtain ⟨s, hs, horigin⟩ := takenTwice_state true
  refine ⟨⟨s, hs⟩, hpath, hfirst, hlast, fun herror => ?_⟩
  exact ((errorAt_iff hlast rfl hs).mp herror).1 (of_decide_eq_true horigin)

end RawFd

end San
