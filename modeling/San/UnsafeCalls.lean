import San.CastEquality
import San.PairQueries
import San.UseAfterFree
import San.ValueCheckers

/-! # The backstop for calls of unsafe functions

`unsafe_fn_call` asks for an audit of every call of an unsafe function that no other rule has
spoken about.  It gives way to the other rules in the report, and it is silent where the state
before the call excuses it: where something is proven about an argument that other rules accept, or
where a rule about pointers looks after it.

So the report is complete in this sense (`unsafe_call_audited`): every call of an unsafe function
that is written in the crate is in the report, by itself or by a finding that overlaps it, unless
it is excused.
-/
namespace San

namespace BlockState

def localIsBoundedOrEq (s : BlockState) (l : Local) : Bool :=
  decide (l ∈ s.mustSets .bounded) || decide (l ∈ s.mustSets .boundedOrEq)

def collectionIsFull (s : BlockState) (l : Local) : Bool := decide (l ∈ s.mustSets .isFull)

end BlockState

namespace UnsafeFnCall

/-- The arguments that are passed as whole locals. -/
def argLocals (args : List Operand) : List Local := args.filterMap operandLocal

/-- Uses of freed memory are looked for behind raw pointers only. -/
def accesses (body : Body) (args : List Operand) : List (Local × String) :=
  ((argLocals args).filter fun l => (body.localTy l).isRawPtr).map fun l => (l, "read")

/-- A fact about the local for which some other rule is silent. -/
def discharges (s : BlockState) (l : Local) : Bool :=
  s.localIsBoundedOrEq l || s.collectionHasSpare l || s.collectionIsFull l || s.localIsNonzero l
    || s.localIsFinite l || s.localIsValidScalar l || s.fdWasTransferred l || s.indexIsFullyBounded l

/-- The receiver of an `assume_init` is initialized. -/
def receiverInitialized (path : String) (s : BlockState) (args : List Operand) : Bool :=
  isMaybeUninitAssumeInit path && (firstArgLocal args).any s.localIsMaybeuninitInitialized

/-- The arguments, and the components of those that are arrays. -/
def expandedLocals (s : BlockState) (args : List Operand) : List Local :=
  argLocals args ++ (argLocals args).flatMap fun l => (s.arrayComponents.get l).getD []

/-- Two of the locals are proven different. -/
def anyNePair (s : BlockState) (ls : List Local) : Bool :=
  ls.zipIdx.any fun (a, i) => (ls.take i).any fun b => s.localsAreNe a b

/-- A pointer that is tracked is left to the rule about the callee. -/
def leftToPointerRules (path : String) (s : BlockState) (args : List Operand) : Bool :=
  ((argLocals args).any fun l => decide (s.objectsFor l ≠ ∅)) &&
    (isFromRaw path || isPtrRead path || isRawRealloc path || isPtrWriteToFirstArg path
      || isOwnedBufferAccessor path)

section
variable (isUnsafe : DefId → Bool) (tcx : TyCtxt) {body : Body} (flow : FlowResults body)

/-- The state before the call that ends `bb` excuses it. -/
def excuses (bb : body.BasicBlock) (path : String) (s : BlockState) (args : List Operand) : Bool :=
  (argLocals args).any (discharges s) || receiverInitialized path s args
    || anyNePair s (expandedLocals s args)
    || (contains path "matrixmultiply" && gemmStrideCoherent tcx flow args bb)
    || leftToPointerRules path s args

def auditFinding (path : String) (span : Span) : Finding :=
  ⟨"unsafe_fn_call", .info, span,
    "call to `unsafe fn` `" ++ path ++ "` — the function's safety " ++
      "preconditions must be upheld by the caller; verify them at this site"⟩

/-- One call of an unsafe function. -/
def checkCall (bb : body.BasicBlock) (path : String) (call : CallSite) :
    Option BlockState → List Finding
  | some s =>
      let uses := (accesses body call.args).filterMap (s.useReport call.span)
      if uses ≠ [] then uses
      else if excuses tcx flow bb path s call.args then []
      else [auditFinding path call.span]
  | none => [auditFinding path call.span]

def checkBlock (bb : body.BasicBlock) : List Finding :=
  (body.callSite bb).elim [] fun call =>
    if !isUnsafe call.callee then []
    else if call.span.fromExpansion then []
    else checkCall tcx flow bb (tcx.defPathStr call.callee) call (flow.stateBeforeTerminator tcx bb)

def check : List Finding :=
  (List.finRange body.numBlocks).flatMap (checkBlock isUnsafe tcx flow)

end

/-- The safety of the callee's signature is what the compiler says. -/
def checker (isUnsafe : DefId → Bool) : Checker :=
  ⟨fun tcx _ flow _ => check isUnsafe tcx flow, fun _ => []⟩

section
variable {isUnsafe : DefId → Bool} {tcx : TyCtxt} {body : Body} {flow : FlowResults body}
  {bb : body.BasicBlock}

theorem mem_check {call : CallSite} (hcall : body.callSite bb = some call)
    (hmarked : isUnsafe call.callee = true)
    (hwritten : call.span.fromExpansion = false) {finding : Finding}
    (h : finding ∈ checkCall tcx flow bb (tcx.defPathStr call.callee) call
      (flow.stateBeforeTerminator tcx bb)) : finding ∈ check isUnsafe tcx flow := by
  refine List.mem_flatMap.mpr ⟨bb, List.mem_finRange bb, ?_⟩
  unfold checkBlock
  rw [hcall, Option.elim_some, hmarked, hwritten]
  exact h

/-- A call that is not excused gets a finding at its range. -/
theorem exists_finding (path : String) (call : CallSite) (state : Option BlockState)
    (hexcused : ∀ s ∈ state, excuses tcx flow bb path s call.args = false) :
    ∃ finding ∈ checkCall tcx flow bb path call state,
      finding.key = ("use_after_free", call.span.lo, call.span.hi) ∨
        finding.key = (backstopRule, call.span.lo, call.span.hi) := by
  cases state with
  | none => exact ⟨_, List.mem_singleton_self _, .inr rfl⟩
  | some s =>
    unfold checkCall
    dsimp only
    split
    · next huses =>
        obtain ⟨finding, hmem⟩ := List.exists_mem_of_ne_nil _ huses
        obtain ⟨access, -, hreport⟩ := List.mem_filterMap.mp hmem
        exact ⟨finding, hmem, .inl (BlockState.useReport_key hreport)⟩
    · rw [if_neg (by rw [hexcused s rfl]; exact Bool.false_ne_true)]
      exact ⟨_, List.mem_singleton_self _, .inr rfl⟩

end

end UnsafeFnCall

/-! ## The report covers what is found -/

/-- Some finding of the report has the range from `lo` to `hi`, or is of another rule than the
backstop and overlaps it. -/
def Mentions (report : List Finding) (lo hi : Nat) : Prop :=
  ∃ g ∈ report, (g.span.lo = lo ∧ g.span.hi = hi) ∨
    (g.ruleId ≠ backstopRule ∧ g.span.lo < hi ∧ lo < g.span.hi)

/-- **What is found is mentioned**: a finding is kept, or has a duplicate, or gives way to another
that overlaps it. -/
theorem mentions_postProcess {findings : List Finding} {f : Finding} (hf : f ∈ findings) :
    Mentions (postProcess findings) f.span.lo f.span.hi := by
  have hkey : f.key ∈ findings.map Finding.key := List.mem_map_of_mem hf
  by_cases hcovered : f.ruleId = backstopRule ∧ Covered findings f.span.lo f.span.hi
  · -- the finding that covers it is of another rule, so its key survives
    obtain ⟨g, hg, hother, hrange⟩ := hcovered.2
    have hgkey : g.key ∈ (postProcess findings).map Finding.key :=
      mem_keys_postProcess.mpr ⟨List.mem_map_of_mem hg, fun hrule => absurd hrule hother⟩
    obtain ⟨g', hg', heq⟩ := List.mem_map.mp hgkey
    have hrule : g'.ruleId = g.ruleId := congrArg Prod.fst heq
    have hlo : g'.span.lo = g.span.lo := congrArg (fun k => k.2.1) heq
    have hhi : g'.span.hi = g.span.hi := congrArg (fun k => k.2.2) heq
    exact ⟨g', hg', .inr ⟨hrule ▸ hother, hlo ▸ hrange.1, hhi ▸ hrange.2⟩⟩
  · have hkept : f.key ∈ (postProcess findings).map Finding.key :=
      mem_keys_postProcess.mpr ⟨hkey, fun hrule h => hcovered ⟨hrule, h⟩⟩
    obtain ⟨g, hg, heq⟩ := List.mem_map.mp hkept
    exact ⟨g, hg, .inl ⟨congrArg (fun k => k.2.1) heq, congrArg (fun k => k.2.2) heq⟩⟩

/-- **Every call of an unsafe function is audited.**  If the backstop is among the checkers, then
every call of an unsafe function that is written in a function of the crate, and not excused by the
state before it, is mentioned in the report. -/
theorem unsafe_call_audited (c : Crate) {checkers : List Checker} {isUnsafe : DefId → Bool}
    (hchecker : UnsafeFnCall.checker isUnsafe ∈ checkers) {f : DefId} (hf : f ∈ c.localFns)
    (bb : (c.optimizedMir f).BasicBlock) {call : CallSite}
    (hcall : (c.optimizedMir f).callSite bb = some call)
    (hmarked : isUnsafe call.callee = true) (hwritten : call.span.fromExpansion = false)
    (hexcused : ∀ s ∈ (c.flow f).stateBeforeTerminator c.tcx bb,
      UnsafeFnCall.excuses c.tcx (c.flow f) bb (c.tcx.defPathStr call.callee) s call.args = false) :
    Mentions (runChecks c checkers) call.span.lo call.span.hi := by
  obtain ⟨finding, hmem, hkey⟩ :=
    UnsafeFnCall.exists_finding (c.tcx.defPathStr call.callee) call _ hexcused
  have hfinding : finding ∈ c.findings checkers :=
    Crate.mem_findings hchecker hf (UnsafeFnCall.mem_check hcall hmarked hwritten hmem)
  have hspan : finding.span.lo = call.span.lo ∧ finding.span.hi = call.span.hi := by
    rcases hkey with hkey | hkey <;>
      exact ⟨congrArg (fun k => k.2.1) hkey, congrArg (fun k => k.2.2) hkey⟩
  have hmentions := mentions_postProcess hfinding
  rw [hspan.1, hspan.2] at hmentions
  exact hmentions

/-- A function that calls an unsafe function without arguments. -/
def callsUnsafe : Crate where
  tcx := .ofPaths ["f", "device::reset"]
  optimizedMir _ := .ofBlocks 0 0 [.other] 1
    (fun bb => [.of [] (.callTo 1 [] 0 (bb 1)), .of [] .return]) (by decide)
  localFns := [⟨0, 0⟩]
  exportsMir _ := false

/-- Nothing can excuse it. -/
theorem unsafe_call_audited_reset :
    Mentions (runChecks callsUnsafe [UnsafeFnCall.checker fun did => did.index == 1]) 0 0 :=
  unsafe_call_audited callsUnsafe List.mem_cons_self List.mem_cons_self (0 : Fin 2) rfl rfl rfl
    fun _ _ => rfl

end San
