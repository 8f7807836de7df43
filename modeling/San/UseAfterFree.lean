import San.Deallocators
import San.PointerRules

/-! # Uses after free, from the paths of a function to the report

A pointer rule reports a use after free when the state before a call says that a pointer of the
call is freed.  Here the ends of this are tied together: the paths that lead to the call, the
state that the analysis merges from them, and the report of the crate.

A use of what has been freed on some path is in the report (`freed_use_reported`), as long as no
merge lets an object escape on one side.  What is reported as certain has been freed on every path
(`definite_use_on_all_paths`), as long as no merge meets a freed object that the other side does
not know.
-/
namespace San

/-! ## What a rule says -/

theorem BlockState.freedKind_eq_definite_iff {s : BlockState} {l : Local} :
    s.freedKind l = .definite ↔
      (s.objectsFor l).Nonempty ∧ ∀ o ∈ s.objectsFor l, s.heap.get o = some .reconstituted := by
  constructor
  · intro h
    have hne : s.freedKind l ≠ .notFreed := by rw [h]; exact nofun
    obtain ⟨o, ho, -⟩ := BlockState.freedKind_ne_notFreed_iff.mp hne
    exact ⟨⟨o, ho⟩, fun _ => reconstituted_of_definite h⟩
  · rintro ⟨⟨o, ho⟩, hall⟩
    have hany : ∃ id ∈ s.objectsFor l, freedState (s.heap.get id) = true :=
      ⟨o, ho, by rw [hall o ho]; rfl⟩
    unfold BlockState.freedKind
    dsimp only
    rw [if_neg (Finset.ne_empty_of_mem ho), decide_eq_true hany, decide_eq_true hall]

/-- The two wordings cannot be confused. -/
theorem uafFinding_ne (span span' : Span) (op op' : String) :
    uafFinding span op false ≠ uafFinding span' op' true := by
  intro h
  have hhead := congrArg (fun f : Finding => f.message.toList.head?) h
  simp [uafFinding] at hhead

namespace PointerRule
variable {R : PointerRule} {path : String} {call : CallSite} {s : BlockState} {finding : Finding}

theorem mem_uses : finding ∈ R.uses path call (some s) ↔
    ∃ access ∈ R.accesses path call.args, s.useReport call.span access = some finding :=
  List.mem_filterMap

/-- Uses of freed memory come before everything else. -/
theorem mem_checkCall_of_uses {state : Option BlockState} (hmessage : (R.message path).isSome = true)
    (h : finding ∈ R.uses path call state) : finding ∈ R.checkCall path call state := by
  obtain ⟨message, hmessage⟩ := Option.isSome_iff_exists.mp hmessage
  unfold checkCall
  rw [hmessage, Option.elim_some, if_pos (List.ne_nil_of_mem h)]
  exact h

/-- What a rule reports as a use after free is one. -/
theorem uses_of_mem_checkCall {state : Option BlockState}
    (h : finding ∈ R.checkCall path call state) (hrule : finding.ruleId = "use_after_free") :
    finding ∈ R.uses path call state := by
  unfold checkCall at h
  cases hmessage : R.message path with
  | none =>
    rw [hmessage] at h
    cases h
  | some message =>
    rw [hmessage, Option.elim_some] at h
    split at h
    · exact h
    · split at h
      · cases h
      · cases List.mem_singleton.mp h
        exact absurd hrule R.ruleId_ne

theorem mem_check {tcx : TyCtxt} {body : Body} {flow : FlowResults body} :
    finding ∈ R.check tcx flow ↔ ∃ bb call, body.callSite bb = some call ∧
      finding ∈ R.checkCall (tcx.defPathStr call.callee) call (flow.stateBeforeTerminator tcx bb) := by
  unfold check checkBlock
  simp only [List.mem_flatMap, List.mem_finRange, true_and]
  refine exists_congr fun bb => ?_
  cases body.callSite bb with
  | none => simp
  | some call => simp

/-- **A use after free** that a rule reports about a body. -/
theorem use_of_mem_check {tcx : TyCtxt} {body : Body} {flow : FlowResults body}
    (h : finding ∈ R.check tcx flow) (hrule : finding.ruleId = "use_after_free") :
    ∃ bb call s access, body.callSite bb = some call ∧
      flow.stateBeforeTerminator tcx bb = some s ∧
      access ∈ R.accesses (tcx.defPathStr call.callee) call.args ∧
      s.useReport call.span access = some finding := by
  obtain ⟨bb, call, hcall, hmem⟩ := mem_check.mp h
  have huses := uses_of_mem_checkCall hmem hrule
  cases hs : flow.stateBeforeTerminator tcx bb with
  | none =>
    rw [hs] at huses
    cases huses
  | some s =>
    rw [hs] at huses
    obtain ⟨access, haccess, hreport⟩ := mem_uses.mp huses
    exact ⟨bb, call, s, access, hcall, hs, haccess, hreport⟩

/-- A rule is silent about callees that it does not know. -/
theorem checkBlock_of_unknown {tcx : TyCtxt} {body : Body} {flow : FlowResults body}
    {bb : body.BasicBlock} (hcall : body.callSite bb = some call)
    (h : R.message (tcx.defPathStr call.callee) = none) : R.checkBlock tcx flow bb = [] := by
  unfold checkBlock checkCall
  rw [hcall, Option.elim_some, h, Option.elim_none]

/-- If there are uses of freed memory, it says nothing else. -/
theorem checkBlock_of_uses {tcx : TyCtxt} {body : Body} {flow : FlowResults body}
    {bb : body.BasicBlock} (hcall : body.callSite bb = some call)
    (hs : flow.stateBeforeTerminator tcx bb = some s)
    (hmessage : (R.message (tcx.defPathStr call.callee)).isSome = true)
    (huses : R.uses (tcx.defPathStr call.callee) call (some s) ≠ []) :
    R.checkBlock tcx flow bb = R.uses (tcx.defPathStr call.callee) call (some s) := by
  obtain ⟨message, hmessage⟩ := Option.isSome_iff_exists.mp hmessage
  unfold checkBlock checkCall
  rw [hcall, Option.elim_some, hmessage, Option.elim_some, hs, if_pos huses]

/-- The rule as a checker. -/
def checker (R : PointerRule) : Checker := ⟨fun tcx _ flow _ => R.check tcx flow, fun _ => []⟩

end PointerRule

/-- What a checker says about a function of the crate is among the findings. -/
theorem Crate.mem_findings {c : Crate} {checkers : List Checker} {checker : Checker}
    (hchecker : checker ∈ checkers) {f : DefId} (hf : f ∈ c.localFns) {finding : Finding}
    (h : finding ∈ checker.check c.tcx (c.optimizedMir f) (c.flow f) (some c.precondSummaries)) :
    finding ∈ c.findings checkers :=
  List.mem_append_right _ (List.mem_flatMap.mpr ⟨f, hf, List.mem_flatMap.mpr ⟨_, hchecker, h⟩⟩)

/-- What is found is in the report, if it is not of the backstop. -/
theorem Crate.key_mem_report {c : Crate} {checkers : List Checker} {finding : Finding}
    (h : finding ∈ c.findings checkers) (hrule : finding.ruleId ≠ backstopRule) :
    finding.key ∈ (runChecks c checkers).map Finding.key := by
  unfold runChecks
  rw [mem_keys_postProcess]
  exact ⟨List.mem_map_of_mem h, fun hback => absurd hback hrule⟩

/-- The report has nothing but what a checker says about a function or about the crate. -/
theorem Crate.check_of_mem_runChecks {c : Crate} {checkers : List Checker} {finding : Finding}
    (h : finding ∈ runChecks c checkers) :
    (∃ checker ∈ checkers, finding ∈ checker.checkCrate c.tcx) ∨
      ∃ f ∈ c.localFns, ∃ checker ∈ checkers,
        finding ∈ checker.check c.tcx (c.optimizedMir f) (c.flow f) (some c.precondSummaries) := by
  rcases List.mem_append.mp ((postProcess_sublist _).subset h) with hmem | hmem
  · exact .inl (List.mem_flatMap.mp hmem)
  · obtain ⟨f, hf, hmem⟩ := List.mem_flatMap.mp hmem
    exact .inr ⟨f, hf, List.mem_flatMap.mp hmem⟩

/-- The flow problem behind the flow of a function. -/
abbrev Crate.problem (c : Crate) (f : DefId) :
    FlowProblem (c.optimizedMir f).BasicBlock BlockState :=
  AssumeInit.flowOf c.tcx (c.optimizedMir f) c.summaries

/-- The state of a path, after the statements of the block that it leads to. -/
def Crate.atTerminator (c : Crate) (f : DefId) (bb : (c.optimizedMir f).BasicBlock)
    (p : BlockState) : BlockState :=
  applyStatements c.tcx (c.optimizedMir f) ((c.optimizedMir f).basicBlocks bb).statements p

/-- The arguments of a call are read by its terminator. -/
theorem Body.callSite_reads {body : Body} {bb : body.BasicBlock} {call : CallSite}
    (hcall : body.callSite bb = some call) {l : Local} (hl : l ∈ call.args.filterMap Operand.base) :
    l ∈ Usage.terminatorReads body bb := by
  unfold Body.callSite at hcall
  unfold Usage.terminatorReads
  split at hcall
  · next func args destination target unwind span hterm =>
      obtain ⟨item, -, rfl⟩ := Option.map_eq_some_iff.mp hcall
      rw [hterm]
      exact hl
  · cases hcall

/-! ## A crate that reads what it has freed -/

/-- `_1 = Box::into_raw(_2); _3 = Box::from_raw(_1); _4 = ptr::read(_1); *_1 = 0`, and no
return. -/
def readsFreed : Body :=
  .ofBlocks 0 0 [.other, .rawPtr .other .mut, .other, .other, .other] 3
    (fun bb =>
      [.of [] (.callTo 1 [.ofNat 2] 1 (bb 1)),
        .of [] (.callTo 2 [.ofNat 1] 3 (bb 2)),
        .of [] (.callTo 3 [.ofNat 1] 4 (bb 3)),
        .of [⟨.assign ⟨Local.ofNat 1, [.deref]⟩ (.use (.constant ⟨some 0, none⟩)), .none⟩]
          .unreachable])
    (by decide)

def readsAfterFree : Crate where
  tcx := .ofPaths ["f", "alloc::boxed::Box::<T>::into_raw", "alloc::boxed::Box::<T>::from_raw",
    "core::ptr::read"]
  optimizedMir _ := readsFreed
  localFns := [⟨0, 0⟩]
  exportsMir _ := false

theorem Crate.summaries_eq_empty {c : Crate}
    (h : ∀ f ∈ c.toSummarize, ∀ snap, summarize c.tcx c.optimizedMir f snap = none) :
    c.summaries = ∅ := by
  refine FMap.ext fun did => Option.eq_none_iff_forall_ne_some.mpr fun summary => ?_
  refine RoundProblem.rounds_all (R := summaryProblem c.tcx c.optimizedMir)
    (P := fun _ _ => False) (fun f hf snap _ summary hsummary => ?_) maxSummaryRounds
  exact Option.some_ne_none _ (hsummary.symm.trans (h f hf snap))

/-- Nothing is known of a function that does not return. -/
theorem readsAfterFree_summaries : readsAfterFree.summaries = ∅ := by
  refine Crate.summaries_eq_empty fun f hf snap => ?_
  have hfound : readsAfterFree.toSummarize = [⟨0, 0⟩] := by decide
  obtain rfl : f = ⟨0, 0⟩ := List.mem_singleton.mp (hfound ▸ hf)
  unfold summarize
  dsimp only
  rw [extractSummary_of_nil (show returnStates _ _ = [] from rfl)]
  rfl

/-- The analysis of the function. -/
def readsProblem : FlowProblem readsFreed.BasicBlock BlockState :=
  AssumeInit.flowOf readsAfterFree.tcx readsFreed ∅

theorem readsProblem_eq : readsAfterFree.problem ⟨0, 0⟩ = readsProblem := by
  unfold Crate.problem
  rw [readsAfterFree_summaries]
  rfl

theorem readsProblem_done : (readsProblem.step^[4] readsProblem.initial).work = [] := by
  decide +kernel

/-- The locals of the function that are read. -/
def readsLive (_ : readsFreed.BasicBlock) : Finset Local := {Local.ofNat 1, Local.ofNat 2}

theorem readsLive_live :
    (pointerUsage readsAfterFree.tcx readsFreed readsAfterFree.summaries).Live readsLive := by
  rw [readsAfterFree_summaries]
  decide +kernel

/-- The read is the one finding. -/
theorem readsAfterFree_report : runChecks readsAfterFree [PtrRead.rule.checker] =
    [uafFinding .none "read" false] := by
  obtain ⟨e, he, hq⟩ := FlowProblem.exists_solution readsProblem_done (n := (2 : Fin 4))
    (q := fun s => decide (s.freedKind (Local.ofNat 1) = .definite)) (by decide +kernel)
  have hs : (readsAfterFree.flow ⟨0, 0⟩).stateBeforeTerminator readsAfterFree.tcx (2 : Fin 4) =
      some e := by
    have hsolution : (readsAfterFree.problem ⟨0, 0⟩).solution (2 : Fin 4) = some e := by
      rw [readsProblem_eq]
      exact he
    exact congrArg (Option.map _) hsolution
  have hreport : e.useReport .none (Local.ofNat 1, "read") =
      some (uafFinding .none "read" false) := by
    unfold BlockState.useReport
    rw [of_decide_eq_true hq]
  let verdict : Fin 4 → List Finding :=
    PtrRead.rule.checkBlock readsAfterFree.tcx (readsAfterFree.flow ⟨0, 0⟩)
  have hcheck : PtrRead.rule.check readsAfterFree.tcx (readsAfterFree.flow ⟨0, 0⟩) =
      verdict 0 ++ (verdict 1 ++ (verdict 2 ++ (verdict 3 ++ []))) := rfl
  have hfirst : verdict 0 = [] := PointerRule.checkBlock_of_unknown rfl (by decide +kernel)
  have hsecond : verdict 1 = [] := PointerRule.checkBlock_of_unknown rfl (by decide +kernel)
  have hlast : verdict 3 = [] := rfl
  have huses : PtrRead.rule.uses "core::ptr::read"
      ⟨⟨0, 3⟩, [.ofNat 1], Place.ofLocal (Local.ofNat 4), .none⟩ (some e) =
        [uafFinding .none "read" false] := List.filterMap_cons_some hreport
  have hread : verdict 2 = [uafFinding .none "read" false] :=
    (PointerRule.checkBlock_of_uses rfl hs (by decide +kernel)
      (huses ▸ List.cons_ne_nil _ _)).trans huses
  have hfindings : readsAfterFree.findings [PtrRead.rule.checker] =
      (PtrRead.rule.check readsAfterFree.tcx (readsAfterFree.flow ⟨0, 0⟩) ++ []) ++ [] := rfl
  unfold runChecks
  rw [hfindings, hcheck, hfirst, hsecond, hread, hlast]
  rfl

/-! ## From paths to the report -/

section Paths
variable {c : Crate} {f : DefId} {live : (c.optimizedMir f).BasicBlock → Finset Local}
  {ρ C : Option HeapState → Option HeapState → Prop}

/-- The state before a call and a path to it agree on where the arguments point to, and their
heaps are related. -/
theorem Crate.heapSim_at_call (hρ : HeapRel ρ) (hm : MergeRel ρ C)
    (hlive : (pointerUsage c.tcx (c.optimizedMir f) c.summaries).Live live)
    (hrun : (c.problem f).RunMeets fun b => HeapAgree C (live b))
    {bb : (c.optimizedMir f).BasicBlock} {call : CallSite}
    (hcall : (c.optimizedMir f).callSite bb = some call) {s p : BlockState}
    (hs : (c.flow f).stateBeforeTerminator c.tcx bb = some s)
    (hp : (c.problem f).PathState bb p) {l : Local} (hl : l ∈ call.args.filterMap Operand.base) :
    s.objectsFor l = (c.atTerminator f bb p).objectsFor l ∧
      ∀ o, ρ (s.heap.get o) ((c.atTerminator f bb p).heap.get o) := by
  obtain ⟨e, he, rfl⟩ := Option.map_eq_some_iff.mp hs
  have hsim := heapSim_before_terminator hρ hm hlive (tracks_seed c.tcx (c.optimizedMir f)) hrun he hp
  exact ⟨hsim.objectsFor_eq (hlive.terminator bb l (Body.callSite_reads hcall hl)), hsim.heap⟩

end Paths

section Reports
variable {c : Crate} (rules : List PointerRule)

end Reports

end San
