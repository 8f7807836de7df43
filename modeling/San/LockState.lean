import San.CallChecks
import San.ProtocolPaths

/-! # Unlocking by force

`LockState` reports a call of `force_unlock` unless some guard was forgotten before it.  It asks
the merged state before the call; there a guard counts as forgotten if it was forgotten on one of
the merged paths and the others have not seen it (`forget_on_one_branch_suppresses`).  In every run
whose merges rule this out, a finding is suppressed only if a guard was forgotten on every path
(`lockState_silent_iff`).
-/
namespace San

namespace LockState

def isForceUnlock (path : String) : Bool :=
  endsWithAny path ["::force_unlock", "::force_unlock_fair", "::force_unlock_read",
    "::force_unlock_write", "::force_unlock_read_fair", "::force_unlock_write_fair"]

def forceUnlockName (path : String) : String :=
  if endsWithAny path ["::force_unlock_write", "::force_unlock_write_fair"] then
    "force_unlock_write"
  else if endsWithAny path ["::force_unlock_read", "::force_unlock_read_fair"] then
    "force_unlock_read"
  else if endsWith path "::force_unlock_fair" then "force_unlock_fair"
  else "force_unlock"

/-- One call; calls in unreachable blocks are passed over. -/
def checkCall (path : String) (call : CallSite) (s : Option BlockState) : Option Finding :=
  s.bind fun s =>
    if isForceUnlock path && !s.hasForgottenProtocol then
      some ⟨"lock_force_unlock_unpaired", .warning, call.span,
        "`" ++ forceUnlockName path ++ "` called without a preceding `lock()` + " ++
          "`mem::forget(guard)` on this path — calling force_unlock on an unlocked mutex " ++
          "corrupts its internal state"⟩
    else none

def check (tcx : TyCtxt) {body : Body} (flow : FlowResults body) : List Finding :=
  checkCalls tcx flow checkCall

/-- A forced unlock is accepted if the state knows of a forgotten guard. -/
theorem checkCall_eq_none_iff {path : String} (hpath : isForceUnlock path = true) (call : CallSite)
    (s : BlockState) : checkCall path call (some s) = none ↔ s.hasForgottenProtocol = true := by
  unfold checkCall
  rw [Option.bind_some, hpath]
  cases s.hasForgottenProtocol <;> simp

/-- **When a silent `force_unlock` is justified.**  A merge takes a guard to be forgotten only if
both sides do, exactly if no guard is forgotten on one side and unknown to the other and the two
sides agree on whether an untracked guard was forgotten.  And in every run whose merges meet this,
and agree on the pointers and guards of live and of dropped locals, a reachable `force_unlock` goes
unreported only if a guard has been forgotten on every path to it. -/
theorem lockState_silent_iff (tcx : TyCtxt) (body : Body) (summaries : SummaryMap) :
    (∀ a e : BlockState,
      ((∀ id, (a.joinWith e).1.typestate.get id = some .forgotten →
          a.typestate.get id = some .forgotten ∧ e.typestate.get id = some .forgotten) ∧
        ((a.joinWith e).1.untrackedForgetSeen = true →
          a.untrackedForgetSeen = true ∧ e.untrackedForgetSeen = true)) ↔
      (∀ id, NoLoneForget (a.typestate.get id) (e.typestate.get id)) ∧
        a.untrackedForgetSeen = e.untrackedForgetSeen) ∧
    ∀ live : body.BasicBlock → Finset Local, (protoUsage tcx body summaries).Live live →
      (AssumeInit.flowOf tcx body summaries).RunMeets (fun b => ProtoAgree (live b)) →
      ∀ bb call, body.callSite bb = some call →
      isForceUnlock (tcx.defPathStr call.callee) = true →
      checkCallIn tcx (computeFlow tcx body summaries) checkCall bb = none →
      ∀ p, (AssumeInit.flowOf tcx body summaries).PathState bb p →
        (applyStatements tcx body (body.basicBlocks bb).statements
          p).hasForgottenProtocol = true := by
  constructor
  · intro a e
    exact and_congr (forall_congr' fun id => mergeProto_forgotten_iff _ _) (raiseFlag_both_iff _ _)
  · intro live hlive hrun bb call hcall hpath hnone p hp
    obtain ⟨s, hs⟩ := Option.isSome_iff_exists.mp
      (((AssumeInit.flowOf tcx body summaries).solution_isSome_iff bb).mpr hp.reaches)
    have hbefore : (computeFlow tcx body summaries).stateBeforeTerminator tcx bb =
        some (applyStatements tcx body (body.basicBlocks bb).statements s) := congrArg _ hs
    rw [checkCallIn_eq hcall hbefore] at hnone
    have hforgotten := (checkCall_eq_none_iff hpath call _).mp hnone
    exact (lockSim_of_path hlive (tracks_seed tcx body) hrun hs hp).proto.hasForgotten hforgotten

/-- A guard is acquired, and forgotten on both branches or on one; then the lock is forced open. -/
def forgetOnBranches (both : Bool) : Body :=
  .ofBlocks 3 1 [.other, .bool, .other, .other, .other] 5
    (fun bb =>
      [.of [] (.switchInt (.ofNat 1) ⟨[(0, bb 1)], bb 3⟩),
        .of [] (.callTo 0 [] 2 (bb 2)),
        .of [] (.callTo 1 [.ofNat 2] 3 (bb 4)),
        .of [] (if both then .goto (bb 1) else .goto (bb 4)),
        .of [] (.callTo 2 [] 4 (bb 5)),
        .of [] .return])
    (by cases both <;> decide)

def lockPaths : TyCtxt :=
  .ofPaths ["lock_api::mutex::Mutex::<R, T>::lock", "std::mem::forget",
    "lock_api::mutex::Mutex::<R, T>::force_unlock", "f"]

theorem forgetOnBranches_done (both : Bool) :
    ((AssumeInit.flowOf lockPaths (forgetOnBranches both) ∅).step^[7]
      (AssumeInit.flowOf lockPaths (forgetOnBranches both) ∅).initial).work = [] := by
  cases both <;> decide +kernel

/-- The call that forces the lock of `forgetOnBranches` open. -/
def unlockCall : CallSite := ⟨⟨0, 2⟩, [], Place.ofLocal (Local.ofNat 4), .none⟩

theorem unlockCall_site (both : Bool) :
    (forgetOnBranches both).callSite (4 : Fin 6) = some unlockCall := by
  cases both <;> rfl

/-- The forced unlock of `forgetOnBranches` goes unreported, whether all paths forget a guard or
only some. -/
theorem forgetOnBranches_silent (both : Bool) :
    checkCallIn lockPaths (computeFlow lockPaths (forgetOnBranches both) ∅) checkCall (4 : Fin 6) =
      none := by
  obtain ⟨s, hs, hq⟩ := FlowProblem.exists_solution (forgetOnBranches_done both) (n := (4 : Fin 6))
    (q := fun s => s.hasForgottenProtocol) (by cases both <;> decide +kernel)
  have hbefore : (computeFlow lockPaths (forgetOnBranches both) ∅).stateBeforeTerminator lockPaths
      (4 : Fin 6) = some s := by
    refine (congrArg _ hs).trans ?_
    cases both <;> rfl
  rw [checkCallIn_eq (unlockCall_site both) hbefore]
  exact (checkCall_eq_none_iff (by decide +kernel) unlockCall s).mpr hq

/-- The locals of `forgetOnBranches` that are read. -/
def lockLive (_ : (forgetOnBranches true).BasicBlock) : Finset Local :=
  {Local.ofNat 1, Local.ofNat 2}

/-- When every path forgets a guard, the path through the second branch does. -/
theorem silent_when_all_forget : ∃ p,
    (AssumeInit.flowOf lockPaths (forgetOnBranches true) ∅).PathState (4 : Fin 6) p ∧
    (applyStatements lockPaths (forgetOnBranches true) [] p).hasForgottenProtocol = true := by
  have hlive : (protoUsage lockPaths (forgetOnBranches true) ∅).Live lockLive := by decide +kernel
  have hrun : (AssumeInit.flowOf lockPaths (forgetOnBranches true) ∅).RunMeets fun b =>
      ProtoAgree (lockLive b) :=
    FlowProblem.runMeets_of_done (forgetOnBranches_done true) (by decide +kernel)
  have hpath := (FlowProblem.PathState.start
    (P := AssumeInit.flowOf lockPaths (forgetOnBranches true) ∅)).along
    ([3, 1, 2, 4] : List (Fin 6)) (by decide)
  exact ⟨_, hpath, (lockState_silent_iff lockPaths (forgetOnBranches true) ∅).2 lockLive hlive hrun
    (4 : Fin 6) unlockCall (unlockCall_site true) (by decide +kernel)
    (forgetOnBranches_silent true) _ hpath⟩

/-- **A guard forgotten on one branch suppresses the finding.**  Only one branch of
`forgetOnBranches` acquires and forgets a guard; the other has never seen it, so that it stays
forgotten in the merge, and the forced unlock goes unreported although nothing was locked on the
path through the other branch. -/
theorem forget_on_one_branch_suppresses :
    checkCallIn lockPaths (computeFlow lockPaths (forgetOnBranches false) ∅) checkCall
      (4 : Fin 6) = none ∧
    ∃ p, (AssumeInit.flowOf lockPaths (forgetOnBranches false) ∅).PathState (4 : Fin 6) p ∧
      (applyStatements lockPaths (forgetOnBranches false) [] p).hasForgottenProtocol = false := by
  have hpath := (FlowProblem.PathState.start
    (P := AssumeInit.flowOf lockPaths (forgetOnBranches false) ∅)).along
    ([3, 4] : List (Fin 6)) (by decide)
  exact ⟨forgetOnBranches_silent false, _, hpath, by decide +kernel⟩

end LockState

end San
