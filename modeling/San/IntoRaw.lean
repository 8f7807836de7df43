import San.CallChecks
import San.HeapPaths

/-! # Raw pointers that are handed out

`IntoRaw` notes every call that turns a box, a counted reference or a buffer into a raw pointer,
unless no return of the function sees the allocation raw-owned.  The states it looks at are merged
ones, and a merge of an owned and a freed allocation is neither: the note is suppressed although
the allocation leaks on one of the paths (`free_on_one_branch_suppresses`).  It is suppressed
rightly in every run whose merges do not mix an owned allocation with one that is known in another
state (`intoRaw_suppressed_iff`).
-/
namespace San

namespace IntoRaw

/-- An operation that hands out a raw pointer: how its path ends, what its path contains, its
name, and what the caller must see to. -/
structure Entry where
  suffix : String
  part : Option String
  fnName : String
  note : String

/-- The operations, in the order in which they are tested. -/
def entries : List Entry :=
  [⟨"::into_raw", some "sync::Weak", "Arc::Weak::into_raw",
      "leaks the Weak reference without decrementing the weak count; the pointer must be " ++
      "passed to exactly one `Weak::from_raw` call — forgetting to call `from_raw` leaks " ++
      "the control block; the strong count is unaffected but the allocation will not be " ++
      "freed until all weak references are dropped"⟩,
    ⟨"::into_raw", some "rc::Weak", "Rc::Weak::into_raw",
      "leaks the Weak reference without decrementing the weak count; the pointer must be " ++
      "passed to exactly one `Weak::from_raw` call — forgetting to call `from_raw` leaks " ++
      "the control block; Rc::Weak is not thread-safe"⟩,
    ⟨"::into_raw", some "Box", "Box::into_raw",
      "leaks the Box; the pointer must be passed to exactly one `Box::from_raw` call with " ++
      "the same T; forgetting to call `from_raw` leaks memory; calling it twice causes " ++
      "double-free"⟩,
    ⟨"::into_raw", some "Arc", "Arc::into_raw",
      "leaks the Arc without decrementing the refcount; the pointer represents one logical " ++
      "Arc that MUST be reconstituted via `Arc::from_raw` exactly once"⟩,
    ⟨"::into_raw", some "Rc", "Rc::into_raw",
      "leaks the Rc without decrementing the refcount; the pointer represents one logical " ++
      "Rc that MUST be reconstituted via `Rc::from_raw` exactly once; Rc is not thread-safe"⟩,
    ⟨"::into_raw_with_allocator", some "Box", "Box::into_raw_with_allocator",
      "leaks the Box and returns the allocator; the pointer must be passed to exactly one " ++
      "`Box::from_raw_in` call with the same T and the returned allocator; forgetting to " ++
      "call `from_raw_in` leaks memory"⟩,
    ⟨"::into_raw_with_allocator", some "Arc", "Arc::into_raw_with_allocator",
      "leaks the Arc without decrementing the refcount; the pointer represents one logical " ++
      "Arc that MUST be reconstituted via `Arc::from_raw_in` with the returned allocator " ++
      "exactly once"⟩,
    ⟨"::into_raw_with_allocator", some "Rc", "Rc::into_raw_with_allocator",
      "leaks the Rc without decrementing the refcount; must be reconstituted via " ++
      "`Rc::from_raw_in` with the returned allocator exactly once; Rc is not thread-safe"⟩,
    ⟨"::into_inner_unchecked", some "Pin", "Pin::into_inner_unchecked",
      "bypasses pin-safety — only valid if T: Unpin or the value is guaranteed not to move " ++
      "after unpinning; moving a self-referential struct after unpinning corrupts internal " ++
      "pointers"⟩,
    ⟨"Thread::into_raw", none, "Thread::into_raw",
      "leaks the Thread handle; the pointer must be passed to exactly one Thread::from_raw " ++
      "call to reconstruct it; forgetting to call from_raw leaks the thread object; calling" ++
      " from_raw twice causes double-free (nightly: #![feature(thread_raw)])"⟩,
    ⟨"::into_non_null", some "Box", "Box::into_non_null",
      "leaks the Box as NonNull<T>; must be passed to exactly one Box::from_non_null call " ++
      "with the same T; forgetting leaks memory; calling from_non_null twice causes " ++
      "double-free (nightly: #![feature(box_vec_non_null)])"⟩,
    ⟨"::into_raw_parts_with_alloc", some "Vec", "Vec::into_raw_parts_with_alloc",
      "leaks the Vec and returns (ptr, len, cap, allocator); must be reconstituted via " ++
      "Vec::from_raw_parts_in with the same T, exact len/cap, and the returned allocator; " ++
      "forgetting leaks memory, wrong allocator causes heap corruption (nightly " ++
      "`allocator_api`)"⟩,
    ⟨"::into_raw_parts", some "Vec", "Vec::into_raw_parts",
      "leaks the Vec and returns (ptr, len, cap); must be reconstituted via " ++
      "Vec::from_raw_parts with the same T, exact len/cap, and the global allocator; " ++
      "forgetting leaks memory; wrong cap causes heap corruption on drop; stable since Rust" ++
      " 1.93"⟩,
    ⟨"String::into_raw_parts", none, "String::into_raw_parts",
      "leaks the String and returns (ptr, len, cap); must be reconstituted via " ++
      "String::from_raw_parts with the exact same len/cap and a UTF-8-valid buffer; " ++
      "forgetting leaks memory; wrong cap causes heap corruption on drop; bytes written " ++
      "into the raw buffer must be valid UTF-8 before reconstituting; stable since Rust " ++
      "1.93"⟩,
    ⟨"::leak", some "Box", "Box::leak",
      "intentionally leaks the Box, returning a `&'static mut T`; the allocation is never " ++
      "freed unless reclaimed via `Box::from_raw` — use only when a 'static lifetime is " ++
      "genuinely required (e.g. initializing global state); the returned reference has the " ++
      "same aliasing restrictions as any &mut T"⟩]

def Entry.matches (e : Entry) (path : String) : Bool :=
  endsWith path e.suffix && e.part.all (contains path)

/-- The entry of a path. -/
def description (path : String) : Option Entry := entries.find? (Entry.matches · path)

section
variable (tcx : TyCtxt) {body : Body} (flow : FlowResults body)

/-- Does the block return? -/
def returns (bb : body.BasicBlock) : Bool :=
  match (body.basicBlocks bb).terminator with
  | some ⟨.return, _⟩ => true
  | _ => false

/-- The states before the reachable returns. -/
def exitStates : List BlockState :=
  (List.finRange body.numBlocks).filterMap fun bb =>
    if returns bb then flow.stateBeforeTerminator tcx bb else none

/-- No return sees the object of the call that ends block `bb` raw-owned, and there is one. -/
def consumed (bb : Nat) : Bool :=
  !(exitStates tcx flow).isEmpty &&
    (exitStates tcx flow).all fun s =>
      decide (s.heap.get (BlockState.callSiteObject bb) ≠ some .rawOwned)

/-- The call that ends `bb`. -/
def checkBlock (bb : body.BasicBlock) : Option Finding :=
  (body.callSite bb).bind fun call =>
    let path := tcx.defPathStr call.callee
    (description path).bind fun e =>
      if isIntoRaw path && consumed tcx flow bb.val then none
      else some ⟨"into_raw", .info, call.span, "`" ++ e.fnName ++ "` — " ++ e.note⟩

def check : List Finding := (List.finRange body.numBlocks).filterMap (checkBlock tcx flow)

end

section
variable {tcx : TyCtxt} {body : Body} {flow : FlowResults body} {bb : body.BasicBlock}
  {call : CallSite}

/-- The note on a recognised call is suppressed if the allocation is consumed. -/
theorem checkBlock_eq_none_iff (hcall : body.callSite bb = some call)
    (hnoted : (description (tcx.defPathStr call.callee)).isSome = true) :
    checkBlock tcx flow bb = none ↔
      isIntoRaw (tcx.defPathStr call.callee) = true ∧ consumed tcx flow bb.val = true := by
  obtain ⟨e, he⟩ := Option.isSome_iff_exists.mp hnoted
  unfold checkBlock
  rw [hcall]
  show (description (tcx.defPathStr call.callee)).bind _ = none ↔ _
  rw [he, ← Bool.and_eq_true]
  cases isIntoRaw (tcx.defPathStr call.callee) && consumed tcx flow bb.val <;> simp

theorem mem_exitStates {s : BlockState} : s ∈ exitStates tcx flow ↔
    ∃ b : body.BasicBlock, returns b = true ∧ flow.stateBeforeTerminator tcx b = some s := by
  unfold exitStates
  rw [List.mem_filterMap]
  constructor
  · rintro ⟨b, -, hb⟩
    split at hb
    · next hret => exact ⟨b, hret, hb⟩
    · cases hb
  · rintro ⟨b, hret, hs⟩
    exact ⟨b, List.mem_finRange b, (if_pos hret).trans hs⟩

/-- An allocation is consumed if some return is reachable and none sees it raw-owned. -/
theorem consumed_iff {n : Nat} : consumed tcx flow n = true ↔
    (∃ s, s ∈ exitStates tcx flow) ∧ ∀ s ∈ exitStates tcx flow,
      s.heap.get (BlockState.callSiteObject n) ≠ some .rawOwned := by
  unfold consumed
  rw [Bool.and_eq_true, Bool.not_eq_true', List.isEmpty_eq_false_iff_exists_mem, List.all_eq_true]
  simp only [decide_eq_true_eq]

end

/-! ## Merges of owned allocations -/

/-- What is raw-owned on the path is raw-owned in the merged state. -/
def StaysOwned (u v : Option HeapState) : Prop := v = some .rawOwned → u = some .rawOwned

/-- The object is not raw-owned on one side and known in another state to the other. -/
def NoLoneOwner (u v : Option HeapState) : Prop :=
  (u = some .rawOwned → v = none ∨ v = some .rawOwned) ∧
    (v = some .rawOwned → u = none ∨ u = some .rawOwned)

instance (u v : Option HeapState) : Decidable (NoLoneOwner u v) :=
  inferInstanceAs (Decidable (_ ∧ _))

instance (u v : Option HeapState) : Decidable (StaysOwned u v) :=
  inferInstanceAs (Decidable (_ → _))

instance (L : Finset Local) (a e : BlockState) : Decidable (HeapAgree NoLoneOwner L a e) :=
  HeapAgree.decidable (by decide) L a e

theorem staysOwned_rel : HeapRel StaysOwned where
  refl u := id
  escape u v := by
    rcases u with _ | ⟨_ | _ | _ | _⟩ <;> rcases v with _ | ⟨_ | _ | _ | _⟩ <;> decide
  reconstitute u v := by
    rcases u with _ | ⟨_ | _ | _ | _⟩ <;> rcases v with _ | ⟨_ | _ | _ | _⟩ <;> decide

/-- **A merge keeps owned allocations owned** exactly if no side has them in another state. -/
theorem mergeHeap_rawOwned_iff (u v : Option HeapState) :
    (u = some .rawOwned ∨ v = some .rawOwned → mergeHeap u v = some .rawOwned) ↔
      NoLoneOwner u v := by
  rcases u with _ | ⟨_ | _ | _ | _⟩ <;> rcases v with _ | ⟨_ | _ | _ | _⟩ <;> decide

theorem staysOwned_merge : MergeRel StaysOwned NoLoneOwner where
  left u v _ hC h hw := (mergeHeap_rawOwned_iff u v).mpr hC (Or.inl (h hw))
  right u v _ hC h hw := (mergeHeap_rawOwned_iff u v).mpr hC (Or.inr (h hw))

/-! ## Paths -/

/-- **When a suppressed note is justified.**  A merge keeps every owned allocation owned exactly if
no object is raw-owned on one side and known in another state to the other.  And in every run whose
merges meet this, and agree on the pointers of live locals, a note is suppressed only if no path to
a return ends with the allocation raw-owned. -/
theorem intoRaw_suppressed_iff (tcx : TyCtxt) (body : Body) (summaries : SummaryMap) :
    (∀ a e : BlockState,
      (∀ o, a.heap.get o = some .rawOwned ∨ e.heap.get o = some .rawOwned →
        (a.joinWith e).1.heap.get o = some .rawOwned) ↔
      ∀ o, NoLoneOwner (a.heap.get o) (e.heap.get o)) ∧
    ∀ live : body.BasicBlock → Finset Local, (pointerUsage tcx body summaries).Live live →
      (AssumeInit.flowOf tcx body summaries).RunMeets (fun b => HeapAgree NoLoneOwner (live b)) →
      ∀ bb call, body.callSite bb = some call →
      (description (tcx.defPathStr call.callee)).isSome = true →
      checkBlock tcx (computeFlow tcx body summaries) bb = none →
      ∀ b p, returns b = true → (AssumeInit.flowOf tcx body summaries).PathState b p →
        (applyStatements tcx body (body.basicBlocks b).statements p).heap.get
          (BlockState.callSiteObject bb.val) ≠ some .rawOwned := by
  constructor
  · intro a e
    exact forall_congr' fun o => mergeHeap_rawOwned_iff _ _
  · intro live hlive hrun bb call hcall hnoted hnone b p hret hp howned
    have hconsumed := ((checkBlock_eq_none_iff hcall hnoted).mp hnone).2
    obtain ⟨s, hs⟩ := Option.isSome_iff_exists.mp
      (((AssumeInit.flowOf tcx body summaries).solution_isSome_iff b).mpr hp.reaches)
    have hentry : (computeFlow tcx body summaries).stateBeforeTerminator tcx b =
        some (applyStatements tcx body (body.basicBlocks b).statements s) := congrArg _ hs
    have hsim := heapSim_before_terminator staysOwned_rel staysOwned_merge hlive
      (tracks_seed tcx body) hrun hs hp
    exact (consumed_iff.mp hconsumed).2 _ (mem_exitStates.mpr ⟨b, hret, hentry⟩)
      (hsim.heap _ howned)

/-- A box is turned into a raw pointer, which both branches free, or only one. -/
def freeOnBranches (both : Bool) : Body :=
  .ofBlocks 2 1 [.other, .bool, .rawPtr .other .mut, .other] 4
    (fun bb =>
      [.of [] (.callTo 0 [] 2 (bb 1)),
        .of [] (.switchInt (.ofNat 1) ⟨[(0, bb 2)], bb 3⟩),
        .of [] (.callTo 1 [.ofNat 2] 3 (bb 4)),
        .of [] (if both then .callTo 1 [.ofNat 2] 3 (bb 4) else .goto (bb 4)),
        .of [] .return])
    (by cases both <;> decide)

/-- The locals of `freeOnBranches` that are read. -/
def branchLive (_ : (freeOnBranches true).BasicBlock) : Finset Local :=
  {Local.ofNat 1, Local.ofNat 2}

theorem freeOnBranches_done (both : Bool) :
    ((AssumeInit.flowOf boxPaths (freeOnBranches both) ∅).step^[6]
      (AssumeInit.flowOf boxPaths (freeOnBranches both) ∅).initial).work = [] := by
  cases both <;> decide +kernel

/-- The call that turns the box of `freeOnBranches` into a raw pointer. -/
def boxCall : CallSite := ⟨⟨0, 0⟩, [], Place.ofLocal (Local.ofNat 2), .none⟩

theorem boxCall_site (both : Bool) :
    (freeOnBranches both).callSite (0 : Fin 5) = some boxCall := by
  cases both <;> rfl

/-- The note on the box of `freeOnBranches` is suppressed, whether one branch frees it or both
do. -/
theorem freeOnBranches_suppressed (both : Bool) :
    checkBlock boxPaths (computeFlow boxPaths (freeOnBranches both) ∅) (0 : Fin 5) = none := by
  obtain ⟨s, hs, hq⟩ := FlowProblem.exists_solution (freeOnBranches_done both) (n := (4 : Fin 5))
    (q := fun s => decide (s.heap.get (BlockState.callSiteObject 0) ≠ some .rawOwned))
    (by cases both <;> decide +kernel)
  have hs : (computeFlow boxPaths (freeOnBranches both) ∅).stateBeforeTerminator boxPaths
      (4 : Fin 5) = some s := by
    refine (congrArg _ hs).trans ?_
    cases both <;> rfl
  have hret : ∀ b : (freeOnBranches both).BasicBlock, returns b = true → b = (4 : Fin 5) := by
    have hval : ∀ b : (freeOnBranches both).BasicBlock, returns b = true → b.val = 4 := by
      cases both <;> decide
    exact fun b hb => Fin.ext (hval b hb)
  refine (checkBlock_eq_none_iff (boxCall_site both) (by decide +kernel)).mpr
    ⟨by decide +kernel, consumed_iff.mpr ⟨⟨s, mem_exitStates.mpr ⟨(4 : Fin 5), ?_, hs⟩⟩, ?_⟩⟩
  · cases both <;> rfl
  · intro t ht
    obtain ⟨b, hb, ht⟩ := mem_exitStates.mp ht
    rw [hret b hb, hs] at ht
    cases ht
    exact of_decide_eq_true hq

/-- When both branches free the box, it is not raw-owned on the path through the second one. -/
theorem suppressed_when_both_free : ∃ p,
    (AssumeInit.flowOf boxPaths (freeOnBranches true) ∅).PathState (4 : Fin 5) p ∧
    (applyStatements boxPaths (freeOnBranches true) [] p).heap.get (BlockState.callSiteObject 0) ≠
      some .rawOwned := by
  have hlive : (pointerUsage boxPaths (freeOnBranches true) ∅).Live branchLive := by decide +kernel
  have hrun : (AssumeInit.flowOf boxPaths (freeOnBranches true) ∅).RunMeets fun b =>
      HeapAgree NoLoneOwner (branchLive b) :=
    FlowProblem.runMeets_of_done (freeOnBranches_done true) (by decide +kernel)
  have hpath := (FlowProblem.PathState.start
    (P := AssumeInit.flowOf boxPaths (freeOnBranches true) ∅)).along
    ([1, 3, 4] : List (Fin 5)) (by decide)
  exact ⟨_, hpath, (intoRaw_suppressed_iff boxPaths (freeOnBranches true) ∅).2 branchLive hlive hrun
    (0 : Fin 5) boxCall (boxCall_site true) (by decide +kernel) (freeOnBranches_suppressed true)
    (4 : Fin 5) _ rfl hpath⟩

/-- **A free on one branch suppresses the note.**  Only one branch of `freeOnBranches` frees the
box; at the return it is `MaybeFreed`, and the note is suppressed, although the path through the
other branch ends with the box raw-owned. -/
theorem free_on_one_branch_suppresses :
    checkBlock boxPaths (computeFlow boxPaths (freeOnBranches false) ∅) (0 : Fin 5) = none ∧
    ∃ p, (AssumeInit.flowOf boxPaths (freeOnBranches false) ∅).PathState (4 : Fin 5) p ∧
      (applyStatements boxPaths (freeOnBranches false) [] p).heap.get
        (BlockState.callSiteObject 0) = some .rawOwned := by
  have hpath := (FlowProblem.PathState.start
    (P := AssumeInit.flowOf boxPaths (freeOnBranches false) ∅)).along
    ([1, 3, 4] : List (Fin 5)) (by decide)
  exact ⟨freeOnBranches_suppressed false, _, hpath, by decide +kernel⟩

end IntoRaw

end San
