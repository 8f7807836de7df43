import San.InitFacts

/-! # The `assume_init` checker

`AssumeInit.check` reports every call that asserts initialization, unless the flow
results say that the receiver is initialized.  Suppressing a finding is right only if the
receiver is initialized on every path to the call.  The join decides whether it is: a
local that one predecessor initializes and the other does not know at all counts as
initialized after the merge (`assumeInit_suppressed_iff`, `conditional_write_suppresses`).
-/
namespace San

inductive Severity
  | error
  | warning
  | info
deriving DecidableEq, Repr

structure Finding where
  ruleId : String
  severity : Severity
  span : Span
  message : String
deriving DecidableEq, Repr

namespace AssumeInit

/-- The characters of a reversed path before the first `::`. -/
def takeSegment : List Char → List Char
  | ':' :: ':' :: _ => []
  | c :: cs => c :: takeSegment cs
  | [] => []

/-- `path.rsplit("::").next()`. -/
def lastSegment (path : String) : String :=
  String.ofList (takeSegment path.toList.reverse).reverse

/-- The name and the message to report for a callee, if it is one of those looked for. -/
def description (path : String) : Option (String × String) :=
  if endsWithAny path ["::assume_init", "::assume_init_ref", "::assume_init_mut",
      "::assume_init_slice", "::assume_init_slice_with_header"] then
    some (lastSegment path,
      "all bytes must be fully initialized before calling `assume_init`; " ++
      "reading uninitialized memory is immediate UB")
  else if contains path "ReadBuf" && endsWith path "::assume_init" then
    some ("ReadBuf::assume_init",
      "marks the first n bytes of the unfilled region as initialized without " ++
      "writing to them; caller must have actually written n bytes before this call; " ++
      "unwritten bytes become readable by the buffer consumer (UB)")
  else if contains path "ReadBuf" && endsWith path "::inner_mut" then
    some ("ReadBuf::inner_mut",
      "returns the entire backing buffer as &mut [MaybeUninit<u8>], bypassing " ++
      "ReadBuf's initialization tracking; reading from uninitialized bytes is UB; " ++
      "writing fewer bytes than previously tracked shrinks the initialized region " ++
      "invisibly, causing future readers to observe stale uninitialized data")
  else if contains path "ReadBuf" && endsWith path "::unfilled_mut" then
    some ("ReadBuf::unfilled_mut",
      "returns the unfilled portion of the buffer as &mut [MaybeUninit<u8>]; " ++
      "reading from returned bytes before writing to them is UB; " ++
      "caller must use assume_init() to register any bytes actually written")
  else none

/-- The methods of `MaybeUninit` whose findings may be suppressed. -/
def isSuppressible (path : String) : Bool :=
  contains path "MaybeUninit" &&
    endsWithAny path ["::assume_init", "::assume_init_ref", "::assume_init_mut"]

/-- The function item called at the end of `bb`, its arguments and the place of the call. -/
def calledItem (body : Body) (bb : body.BasicBlock) : Option (DefId × List Operand × Span) :=
  match (body.basicBlocks bb).terminator with
  | some ⟨.call func args _ _ _, span⟩ => func.constFnDef.map fun item => (item.1, args, span)
  | _ => none

/-- Is the receiver initialized in the state before the call? -/
def receiverInitialized (tcx : TyCtxt) {body : Body} (flow : FlowResults body)
    (bb : body.BasicBlock) (args : List Operand) : Bool :=
  (flow.stateBeforeTerminator tcx bb).any fun state =>
    (firstArgBaseLocal args).any state.localIsMaybeuninitInitialized

/-- What the checker reports for `bb`. -/
def checkBlock (tcx : TyCtxt) {body : Body} (flow : FlowResults body) (bb : body.BasicBlock) :
    Option Finding :=
  match calledItem body bb with
  | none => none
  | some (defId, args, span) =>
      let path := tcx.defPathStr defId
      match description path with
      | none => none
      | some (fnName, msg) =>
          if isSuppressible path && receiverInitialized tcx flow bb args then none
          else some ⟨"assume_init", .warning, span, "`" ++ fnName ++ "` — " ++ msg⟩

def check (tcx : TyCtxt) {body : Body} (flow : FlowResults body) : List Finding :=
  (List.finRange body.numBlocks).filterMap (checkBlock tcx flow)

/-! ## Suppressed findings -/

/-- Every method whose findings may be suppressed is one of those looked for. -/
theorem description_of_suppressible {path : String} (h : isSuppressible path = true) :
    (description path).isSome = true := by
  have hsuffix : endsWithAny path ["::assume_init", "::assume_init_ref", "::assume_init_mut",
      "::assume_init_slice", "::assume_init_slice_with_header"] = true := by
    show (["::assume_init", "::assume_init_ref", "::assume_init_mut"] ++
      ["::assume_init_slice", "::assume_init_slice_with_header"]).any (endsWith path) = true
    refine List.any_append.trans (Bool.or_eq_true_iff.mpr (Or.inl ?_))
    exact (Bool.and_eq_true_iff.mp h).2
  unfold description
  rw [if_pos hsuffix]
  rfl

section
variable {tcx : TyCtxt} {body : Body} {flow : FlowResults body} {bb : body.BasicBlock}
  {defId : DefId} {args : List Operand} {span : Span}

/-- **A finding is suppressed exactly for an initialized receiver.** -/
theorem checkBlock_eq_none_iff (hcall : calledItem body bb = some (defId, args, span))
    (hpath : isSuppressible (tcx.defPathStr defId) = true) :
    checkBlock tcx flow bb = none ↔ receiverInitialized tcx flow bb args = true := by
  obtain ⟨⟨fnName, msg⟩, hdesc⟩ := Option.isSome_iff_exists.mp (description_of_suppressible hpath)
  unfold checkBlock
  rw [hcall]
  simp only [hdesc, hpath, Bool.true_and]
  split
  · rename_i hinit
    exact ⟨fun _ => hinit, fun _ => rfl⟩
  · rename_i hinit
    exact ⟨fun h => (nomatch h), fun h => absurd h hinit⟩

theorem receiverInitialized_iff : receiverInitialized tcx flow bb args = true ↔
    ∃ recv s, firstArgBaseLocal args = some recv ∧ flow.entryStates bb = some s ∧
      (applyStatements tcx body (body.basicBlocks bb).statements
        s).localIsMaybeuninitInitialized recv = true := by
  unfold receiverInitialized FlowResults.stateBeforeTerminator
  simp only [Option.any_eq_true, Option.map_eq_some_iff]
  constructor
  · rintro ⟨_, ⟨s, hs, rfl⟩, recv, hrecv, hinit⟩
    exact ⟨recv, s, hrecv, hs, hinit⟩
  · rintro ⟨recv, s, hrecv, hs, hinit⟩
    exact ⟨_, ⟨s, hs, rfl⟩, recv, hrecv, hinit⟩

theorem terminator_of_calledItem (hcall : calledItem body bb = some (defId, args, span)) :
    ∃ func dest target unwind, (body.basicBlocks bb).terminator =
      some ⟨.call func args dest target unwind, span⟩ := by
  unfold calledItem at hcall
  split at hcall
  · rename_i func args' dest target unwind span' hterm
    obtain ⟨item, _, heq⟩ := Option.map_eq_some_iff.mp hcall
    cases heq
    exact ⟨func, dest, target, unwind, hterm⟩
  · cases hcall

/-- The receiver is read by the call. -/
theorem receiver_read (hcall : calledItem body bb = some (defId, args, span)) {recv : Local}
    (hrecv : firstArgBaseLocal args = some recv) : recv ∈ Usage.terminatorReads body bb := by
  obtain ⟨func, dest, target, unwind, hterm⟩ := terminator_of_calledItem hcall
  unfold Usage.terminatorReads
  rw [hterm]
  exact firstArgBaseLocal_mem hrecv

end

/-- The flow problem behind `compute_flow`. -/
abbrev flowOf (tcx : TyCtxt) (body : Body) (summaries : SummaryMap) :
    FlowProblem body.BasicBlock BlockState :=
  flowProblem tcx body summaries (seedParamTypeFacts tcx body BlockState.default)

/-- **When initialization is a fact about all paths.**  A merge makes a local initialized
only if both sides have it initialized, exactly if no local is initialized on one side and
unbound on the other.  And in every run whose merges meet this at the live locals, and
agree there on what is borrowed, a finding is suppressed only if the receiver is initialized
on every path to the call. -/
theorem assumeInit_suppressed_iff (tcx : TyCtxt) (body : Body) (summaries : SummaryMap) :
    (∀ a e : BlockState,
      (∀ m, (a.joinWith e).1.localIsMaybeuninitInitialized m = true →
        a.localIsMaybeuninitInitialized m = true ∧ e.localIsMaybeuninitInitialized m = true) ↔
      ∀ m, ¬ InitState.OneSided (a.init.get m) (e.init.get m)) ∧
    ∀ live : body.BasicBlock → Finset Local, (initUsage body).Live live →
      (flowOf tcx body summaries).RunMeets (fun b => InitAgree (live b)) →
      ∀ bb defId args span, calledItem body bb = some (defId, args, span) →
      isSuppressible (tcx.defPathStr defId) = true →
      checkBlock tcx (computeFlow tcx body summaries) bb = none →
      ∃ recv, firstArgBaseLocal args = some recv ∧
        ∀ p, (flowOf tcx body summaries).PathState bb p →
          (applyStatements tcx body (body.basicBlocks bb).statements
            p).localIsMaybeuninitInitialized recv = true := by
  constructor
  · intro a e
    simp only [BlockState.localIsMaybeuninitInitialized, beq_iff_eq]
    constructor
    · intro hboth m hone
      -- the join takes a missing entry for the other side's state
      have hm := hboth m ((InitState.combine_initialized_iff _ _).mpr (Or.inr hone))
      rcases hone with ⟨_, hnone⟩ | ⟨hnone, _⟩
      · rw [hnone] at hm; cases hm.2
      · rw [hnone] at hm; cases hm.1
    · intro hone m hm
      exact (joined_init hm).resolve_right (hone m)
  · intro live hlive hrun bb defId args span hcall hpath hnone
    obtain ⟨recv, s, hrecv, hs, hinit⟩ :=
      receiverInitialized_iff.mp ((checkBlock_eq_none_iff hcall hpath).mp hnone)
    refine ⟨recv, hrecv, fun p hp => ?_⟩
    have hsim := (initSim_respects tcx body summaries).statements bb (fun _ hx => hx)
      (hlive.always bb) (hlive.statements bb) (initSim_of_path hlive hrun hs hp)
    have hlocal := hlive.terminator bb recv (receiver_read hcall hrecv)
    simp only [BlockState.localIsMaybeuninitInitialized, beq_iff_eq] at hinit ⊢
    exact hsim.init recv hlocal hinit

/-- A `MaybeUninit` is written on one branch, or on both, and then assumed to be
initialized. -/
def writeOnBranch (both : Bool) : Body :=
  .ofBlocks 2 3 [.other, .other, .bool, .other, .other, .ref .other .mut, .ref .other .mut] 4
    (fun bb =>
      [.of [.set 5 (.ref (Place.ofLocal (Local.ofNat 1)))]
          (.switchInt (.ofNat 2) ⟨[(0, bb 1)], bb 2⟩),
        .of [] (.callTo 0 [.ofNat 5, .ofNat 3] 6 (bb 3)),
        .of [] (if both then .callTo 0 [.ofNat 5, .ofNat 3] 6 (bb 3) else .goto (bb 3)),
        .of [] (.callTo 1 [.ofNat 1] 4 (bb 4)),
        .of [] .return])
    (by cases both <;> decide)

def writePaths : TyCtxt :=
  .ofPaths ["core::mem::MaybeUninit::<T>::write", "core::mem::MaybeUninit::<T>::assume_init", "f"]

/-- The locals of `writeOnBranch` that are read. -/
def writeLive (_ : (writeOnBranch true).BasicBlock) : Finset Local :=
  {Local.ofNat 1, Local.ofNat 2, Local.ofNat 3, Local.ofNat 5}

/-- At the call of `assume_init` in `writeOnBranch` the receiver counts as initialized,
whether one branch writes to it or both do. -/
theorem writeOnBranch_suppressed (both : Bool) :
    checkBlock writePaths (computeFlow writePaths (writeOnBranch both) ∅) (3 : Fin 5) = none := by
  have hdone : ((flowOf writePaths (writeOnBranch both) ∅).step^[6]
      (flowOf writePaths (writeOnBranch both) ∅).initial).work = [] := by
    cases both <;> decide +kernel
  obtain ⟨s, hs, hinit⟩ := FlowProblem.exists_solution hdone (n := (3 : Fin 5))
    (q := fun s => (applyStatements writePaths (writeOnBranch both) [] s)
      |>.localIsMaybeuninitInitialized (Local.ofNat 1)) (by cases both <;> decide +kernel)
  exact (checkBlock_eq_none_iff rfl (by decide +kernel)).mpr
    (receiverInitialized_iff.mpr ⟨Local.ofNat 1, s, rfl, hs, hinit⟩)

/-- When both branches write, the receiver is initialized on the path through the second
one. -/
theorem assumeInit_suppressed_both : ∃ p,
    (flowOf writePaths (writeOnBranch true) ∅).PathState (3 : Fin 5) p ∧
    (applyStatements writePaths (writeOnBranch true) [] p).localIsMaybeuninitInitialized
      (Local.ofNat 1) = true := by
  have hlive : (initUsage (writeOnBranch true)).Live writeLive := by decide +kernel
  have hdone : ((flowOf writePaths (writeOnBranch true) ∅).step^[6]
      (flowOf writePaths (writeOnBranch true) ∅).initial).work = [] := by decide +kernel
  have hrun : (flowOf writePaths (writeOnBranch true) ∅).RunMeets fun b =>
      InitAgree (writeLive b) := FlowProblem.runMeets_of_done hdone (by decide +kernel)
  have hpath := (FlowProblem.PathState.start (P := flowOf writePaths (writeOnBranch true) ∅)).along
    ([2, 3] : List (Fin 5)) (by decide)
  obtain ⟨recv, hrecv, hall⟩ := (assumeInit_suppressed_iff writePaths (writeOnBranch true) ∅).2
    writeLive hlive hrun (3 : Fin 5) ⟨0, 1⟩ [.ofNat 1] .none rfl (by decide +kernel)
    (writeOnBranch_suppressed true)
  cases hrecv
  exact ⟨_, hpath, hall _ hpath⟩

/-- **A conditional write suppresses the finding.**  Only one branch of `writeOnBranch`
writes to the `MaybeUninit`, but the join of its binding with the other branch's missing one
is `Initialized`, and the call of `assume_init` goes unreported. -/
theorem conditional_write_suppresses :
    checkBlock writePaths (computeFlow writePaths (writeOnBranch false) ∅) (3 : Fin 5) = none ∧
    ∃ a e p : BlockState,
      (a.joinWith e).1.localIsMaybeuninitInitialized (Local.ofNat 1) = true ∧
      e.localIsMaybeuninitInitialized (Local.ofNat 1) = false ∧
      (flowOf writePaths (writeOnBranch false) ∅).PathState (3 : Fin 5) p ∧
      (applyStatements writePaths (writeOnBranch false) [] p).localIsMaybeuninitInitialized
        (Local.ofNat 1) = false := by
  have hpath := (FlowProblem.PathState.start (P := flowOf writePaths (writeOnBranch false) ∅)).along
    ([2, 3] : List (Fin 5)) (by decide)
  exact ⟨writeOnBranch_suppressed false, BlockState.default.insertInit (Local.ofNat 1),
    BlockState.default, _, by decide, by decide, hpath, by decide +kernel⟩

end AssumeInit

end San
