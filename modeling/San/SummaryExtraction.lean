import San.CallHeap
import San.HeapPaths
import San.SummaryRounds

/-! # What a summary says about the states at the returns

`extract_summary` merges the states before the returns of a function and reads the effects on
parameters, and the parameter whose pointer is returned, off the merge.

The effects are exact (`summary_effects_exact`): the object of a raw-pointer parameter is never
dropped from the heap, and a merge of several heap states is `Reconstituted` or `RawOwned` only if
all of them are.  The returned parameter is recognised by the number of the object, and there the
objects of the first blocks are taken for parameters (`returned_param_real_iff`).
-/
namespace San

/-! ## The states at the returns -/

section Returns
variable (tcx : TyCtxt) {body : Body} (flow : FlowResults body)

/-- The states before the returns, in the order of the blocks. -/
def returnStates : List BlockState :=
  ((List.finRange body.numBlocks).filter fun bb => (body.basicBlocks bb).returns).filterMap
    (flow.stateBeforeTerminator tcx)

variable {tcx flow}

theorem mem_returnStates {s : BlockState} : s ∈ returnStates tcx flow ↔
    ∃ bb, (body.basicBlocks bb).returns = true ∧ flow.stateBeforeTerminator tcx bb = some s := by
  unfold returnStates
  simp only [List.mem_filterMap, List.mem_filter, List.mem_finRange, true_and]

/-- The states are merged into the first one. -/
def mergeInto (s : BlockState) (states : List BlockState) : BlockState :=
  states.foldl (fun existing state => (existing.joinWith state).1) s

/-- What is merged so far, and the next state. -/
def mergeNext : Option BlockState → BlockState → Option BlockState
  | none, state => some state
  | some existing, state => some (existing.joinWith state).1

theorem foldl_mergeNext (states : List BlockState) (s : BlockState) :
    states.foldl mergeNext (some s) = some (mergeInto s states) := by
  induction states generalizing s with
  | nil => rfl
  | cons t states ih => exact ih _

theorem returnState_eq_foldl :
    returnState tcx body flow = (returnStates tcx flow).foldl mergeNext none := by
  unfold returnState returnStates
  congr 1
  funext joined state
  cases joined <;> rfl

theorem returnState_of_nil (h : returnStates tcx flow = []) : returnState tcx body flow = none := by
  rw [returnState_eq_foldl, h]
  rfl

theorem returnState_of_cons {s : BlockState} {states : List BlockState}
    (h : returnStates tcx flow = s :: states) :
    returnState tcx body flow = some (mergeInto s states) := by
  rw [returnState_eq_foldl, h]
  exact foldl_mergeNext states s

end Returns

/-- The objects of a merge are those of its sides. -/
theorem mem_objectsFor_joined (a b : BlockState) (l : Local) (o : ObjectId) :
    o ∈ (a.joinWith b).1.objectsFor l ↔ o ∈ a.objectsFor l ∨ o ∈ b.objectsFor l := by
  have hget : (a.joinWith b).1.pointsTo.get l =
      (Discipline.collect (V := ObjectId)).combineOpt (a.pointsTo.get l) (b.pointsTo.get l) := rfl
  unfold BlockState.objectsFor
  rw [hget]
  cases a.pointsTo.get l <;> cases b.pointsTo.get l <;>
    simp [Discipline.Accumulate.combineOpt, Discipline.collect]

theorem mem_objectsFor_mergeInto {s : BlockState} {states : List BlockState} {l : Local}
    {o : ObjectId} : o ∈ (mergeInto s states).objectsFor l ↔
      ∃ t ∈ s :: states, o ∈ t.objectsFor l := by
  induction states generalizing s with
  | nil => simp [mergeInto]
  | cons t states ih =>
    show o ∈ (mergeInto (s.joinWith t).1 states).objectsFor l ↔ _
    rw [ih]
    simp only [List.mem_cons, exists_eq_or_imp, mem_objectsFor_joined, or_assoc]

/-! ## The effect on a parameter -/

/-- Different heap states merge to one that is neither owned nor freed for certain. -/
theorem mergeHeap_eq_iff {r : HeapState} (hr : r = .rawOwned ∨ r = .reconstituted)
    {u v : Option HeapState} (hu : u ≠ none) (hv : v ≠ none) :
    mergeHeap u v = some r ↔ u = some r ∧ v = some r := by
  cases u with
  | none => exact absurd rfl hu
  | some a =>
    cases v with
    | none => exact absurd rfl hv
    | some b => rcases hr with rfl | rfl <;> cases a <;> cases b <;> decide

theorem heap_mergeInto_ne_none {s : BlockState} {states : List BlockState} {o : ObjectId} :
    (mergeInto s states).heap.get o ≠ none ↔ ∃ t ∈ s :: states, t.heap.get o ≠ none := by
  induction states generalizing s with
  | nil => simp [mergeInto]
  | cons t states ih =>
    have hmerge : (s.joinWith t).1.heap.get o ≠ none ↔
        s.heap.get o ≠ none ∨ t.heap.get o ≠ none := Tracks.combine_get_ne_none
    show (mergeInto (s.joinWith t).1 states).heap.get o ≠ none ↔ _
    rw [ih]
    simp only [List.mem_cons, exists_eq_or_imp, hmerge, or_assoc]

/-- **Several states merge to a definite one** exactly if they all are that. -/
theorem heap_mergeInto_eq_iff {r : HeapState} (hr : r = .rawOwned ∨ r = .reconstituted)
    {s : BlockState} {states : List BlockState} {o : ObjectId}
    (hall : ∀ t ∈ s :: states, t.heap.get o ≠ none) :
    (mergeInto s states).heap.get o = some r ↔ ∀ t ∈ s :: states, t.heap.get o = some r := by
  induction states generalizing s with
  | nil => simp [mergeInto]
  | cons t states ih =>
    have hs := hall s List.mem_cons_self
    have ht := hall t (List.mem_cons_of_mem _ List.mem_cons_self)
    have hstates : ∀ t' ∈ (s.joinWith t).1 :: states, t'.heap.get o ≠ none := by
      intro t' ht'
      rcases List.mem_cons.mp ht' with rfl | ht'
      · exact Tracks.combine_get_ne_none.mpr (Or.inl hs)
      · exact hall t' (List.mem_cons_of_mem _ (List.mem_cons_of_mem _ ht'))
    have hmerge : (s.joinWith t).1.heap.get o = some r ↔
        s.heap.get o = some r ∧ t.heap.get o = some r := mergeHeap_eq_iff hr hs ht
    show (mergeInto (s.joinWith t).1 states).heap.get o = some r ↔ _
    rw [ih hstates]
    simp only [List.forall_mem_cons, hmerge, and_assoc]

/-! ## Objects stay in the heap -/

/-- No object is dropped from the heap between `s` and `t`. -/
def HeapKept (s t : BlockState) : Prop := ∀ o, s.heap.get o ≠ none → t.heap.get o ≠ none

namespace HeapKept
variable {s t u : BlockState}

theorem ofEq (h : t.heap = s.heap) : HeapKept s t := fun o ho => by rwa [h]

theorem trans (h : HeapKept s t) (h' : HeapKept t u) : HeapKept s u := fun o ho => h' o (h o ho)

theorem ofAlter {objs : Finset ObjectId} {f : Option HeapState → Option HeapState}
    (hf : ∀ st, f (some st) ≠ none) (h : t.heap = s.heap.alter objs f) : HeapKept s t := by
  intro o ho
  rw [h, FMap.get_alter]
  split
  · obtain ⟨st, hst⟩ := Option.ne_none_iff_exists'.mp ho
    rw [hst]
    exact hf st
  · exact ho

end HeapKept

theorem escapeObject_ne_none (st : HeapState) : BlockState.escapeObject (some st) ≠ none := by
  cases st <;> exact nofun

theorem reconstituteObject_ne_none (st : HeapState) :
    BlockState.reconstituteObject (some st) ≠ none := by
  cases st <;> exact nofun

theorem HeapUpdate.kept {kind : CallKind} {args : List Operand} {dest : Local} {bb : Nat}
    {u v : BlockState} (h : HeapUpdate kind args dest bb u v) : HeapKept u v := by
  cases h with
  | frame hheap _ _ => exact .ofEq hheap
  | invalidate owners => exact .ofEq (u.invalidateOwners_writes owners .heap (by decide))
  | setOwners _ => exact .ofEq rfl
  | clear => exact .ofEq rfl
  | pass _ => exact .ofEq rfl
  | free l => exact .ofAlter reconstituteObject_ne_none rfl
  | escape _ => exact .ofAlter escapeObject_ne_none rfl
  | mint _ => exact fun o ho => FMap.get_insert_ne_none (Or.inr ho)

section Kept
variable (tcx : TyCtxt) (body : Body) (summaries : SummaryMap)

theorem applyStatement_kept (stmt : Statement) (s : BlockState) :
    HeapKept s (applyStatement tcx body stmt s) := by
  rcases applyStatement_heap tcx body stmt s with hsame | ⟨objs, hescaped⟩
  · exact .ofEq hsame
  · exact .ofAlter escapeObject_ne_none hescaped

theorem detached_kept (func : Operand) (args : List Operand) (s : BlockState) :
    HeapKept s (detached tcx body summaries func args s) := by
  intro o ho
  rcases get_detached_heap tcx body summaries func args s o with hsame | hstale
  · rwa [hsame]
  · rw [hstale]
    exact nofun

/-- **A call drops no object from the heap.** -/
theorem applyCall_kept (bb : Nat) (func : Operand) (args : List Operand) (destination : Place)
    (s : BlockState) : HeapKept s (applyCall tcx body summaries bb func args destination s) := by
  refine (detached_kept tcx body summaries func args s).trans ?_
  by_cases hkind : calledKind tcx body summaries func destination s = .memForget
  · obtain ⟨hsome, hnone⟩ :=
      applyCall_forget_heap tcx body summaries bb func args destination s hkind
    cases hsrc : firstArgBaseLocal args with
    | none => exact .ofEq (hnone hsrc)
    | some src => exact .ofAlter (fun _ => Option.some_ne_none _) (hsome src hsrc)
  · exact (applyCall_updates tcx body summaries bb func args destination s hkind).induct
      (fun _ _ hstep h => h.trans hstep.kept) (.ofEq rfl)

theorem applyTerminator_kept (bb : Nat) (term : Terminator body.numBlocks) (s : BlockState) :
    HeapKept s (applyTerminator tcx body summaries bb term s) := by
  unfold applyTerminator
  split
  · exact applyCall_kept tcx body summaries bb _ _ _ s
  · exact .ofEq (assertCondition_values s _ _ .heap (by decide))
  · exact .ofEq (applyDrop_heap _ s)
  · exact .ofEq rfl

theorem applyStatements_kept (stmts : List Statement) (s : BlockState) :
    HeapKept s (applyStatements tcx body stmts s) := by
  induction stmts generalizing s with
  | nil => exact .ofEq rfl
  | cons stmt stmts ih => exact (applyStatement_kept tcx body stmt s).trans (ih _)

/-- **Along an edge no object is dropped from the heap.** -/
theorem edgeState_kept (bb : body.BasicBlock) (s : BlockState) (succ : body.BasicBlock) :
    HeapKept s (edgeState tcx body summaries bb s succ) := by
  have hstmts := applyStatements_kept tcx body (body.basicBlocks bb).statements s
  cases hterm : (body.basicBlocks bb).terminator with
  | none =>
    rw [edgeState_of_none hterm]
    exact hstmts
  | some term =>
    rw [edgeState_of_some hterm]
    exact (hstmts.trans (applyTerminator_kept tcx body summaries bb.val term _)).trans
      (.ofEq (refineSwitchintEdge_writes _ term succ .heap (by decide)))

/-- The objects in the heap at the start are in the heap everywhere. -/
theorem heapKept_invariant (initial : BlockState) :
    (flowProblem tcx body summaries initial).Invariant fun _ => HeapKept initial where
  init := .ofEq rfl
  flow bb s succ _ h := h.trans (edgeState_kept tcx body summaries bb s succ)
  join _ _ _ ha _ := fun o ho => Tracks.combine_get_ne_none.mpr (Or.inl (ha o ho))

end Kept

/-! ## The objects of parameters -/

/-- The parameter is a raw pointer, so it starts with an object of its own. -/
def Body.RawParam (body : Body) (i : Nat) : Prop :=
  i < body.argCount ∧ (body.localTy (paramLocal i)).isRawPtr = true

instance Body.decidableRawParam (body : Body) (i : Nat) : Decidable (body.RawParam i) :=
  inferInstanceAs (Decidable (_ ∧ _))

section Seeds
variable (tcx : TyCtxt) (body : Body) (summaries : SummaryMap)

theorem seedParam_kept (s : BlockState) (i : Nat) : HeapKept s (seedParam body s i) := by
  unfold seedParam
  split
  · exact fun o ho => FMap.get_insert_ne_none (Or.inr ho)
  · exact .ofEq rfl

variable {body} in
theorem summaryInitialState_seeded {i : Nat} (h : body.RawParam i) :
    (summaryInitialState body).heap.get (paramObject i) ≠ none := by
  have hkept : ∀ (is : List Nat) (s : BlockState), HeapKept s (is.foldl (seedParam body) s) := by
    intro is
    induction is with
    | nil => exact fun s => .ofEq rfl
    | cons j is ih => exact fun s => (seedParam_kept body s j).trans (ih _)
  have hseeded : ∀ (is : List Nat) (s : BlockState), i ∈ is →
      (is.foldl (seedParam body) s).heap.get (paramObject i) ≠ none := by
    intro is
    induction is with
    | nil => exact fun s hi => absurd hi List.not_mem_nil
    | cons j is ih =>
      intro s hi
      rcases List.mem_cons.mp hi with rfl | hi
      · refine hkept is _ _ ?_
        unfold seedParam
        rw [if_pos h.2]
        exact FMap.get_insert_ne_none (Or.inl rfl)
      · exact ih _ hi
  exact hseeded _ _ (List.mem_range.mpr h.1)

variable {body} in
theorem Tracks.applyStatements {s : BlockState} (h : Tracks body s) (bb : body.BasicBlock)
    {stmts : List Statement} (hstmts : ∀ stmt ∈ stmts, stmt ∈ (body.basicBlocks bb).statements) :
    Tracks body (San.applyStatements tcx body stmts s) := by
  induction stmts generalizing s with
  | nil => exact h
  | cons stmt stmts ih =>
    have hstmt := hstmts stmt List.mem_cons_self
    exact ih (h.applyStatement tcx fun l hl => Body.declares_of_statement hstmt hl)
      fun x hx => hstmts x (List.mem_cons_of_mem _ hx)

/-- The states of a summary analysis are well formed. -/
theorem tracks_invariant :
    (flowProblem tcx body summaries (summaryInitialState body)).Invariant fun _ => Tracks body where
  init := Tracks.summaryInitialState
  flow bb s succ _ h := by
    have hstmts := h.applyStatements tcx bb fun _ hstmt => hstmt
    show Tracks body (edgeState tcx body summaries bb s succ)
    cases hterm : (body.basicBlocks bb).terminator with
    | none =>
      rw [edgeState_of_none hterm]
      exact hstmts
    | some term =>
      rw [edgeState_of_some hterm]
      exact (hstmts.applyTerminator tcx summaries bb fun l hl =>
        Body.declares_of_terminator hterm hl).refineSwitchintEdge term succ
  join _ _ _ ha he := ha.joined he

variable {tcx body summaries} in
/-- **At the returns** the state is well formed, and the objects of raw-pointer parameters are in
the heap. -/
theorem returned_state {s : BlockState}
    (hs : s ∈ returnStates tcx (computeFlowForSummary tcx body summaries)) :
    Tracks body s ∧ ∀ i, body.RawParam i → s.heap.get (paramObject i) ≠ none := by
  obtain ⟨bb, -, hbefore⟩ := mem_returnStates.mp hs
  obtain ⟨x, hx, rfl⟩ := Option.map_eq_some_iff.mp hbefore
  refine ⟨((tracks_invariant tcx body summaries).solution hx).applyStatements tcx bb
    fun _ hstmt => hstmt, fun i hi => ?_⟩
  exact applyStatements_kept tcx body _ x _ ((heapKept_invariant tcx body summaries
    (summaryInitialState body)).solution hx _ (summaryInitialState_seeded hi))

end Seeds

theorem mem_paramEffects {body : Body} {exit : BlockState} {i : Nat} {e : ParamHeapEffect} :
    (i, e) ∈ paramEffects body exit ↔
      i < body.argCount ∧ e ≠ .none ∧ paramEffect (exit.heap.get (paramObject i)) = e := by
  unfold paramEffects
  rw [List.mem_filterMap]
  constructor
  · rintro ⟨j, hj, hmatch⟩
    split at hmatch
    · cases hmatch
    · rename_i hnone
      cases hmatch
      exact ⟨List.mem_range.mp hj, hnone, rfl⟩
  · rintro ⟨hi, hne, rfl⟩
    refine ⟨i, List.mem_range.mpr hi, ?_⟩
    split
    · rename_i hnone
      exact absurd hnone hne
    · rfl

theorem extractSummary_of_nil {tcx : TyCtxt} {body : Body} {flow : FlowResults body}
    (h : returnStates tcx flow = []) : extractSummary tcx body flow = .empty := by
  unfold extractSummary
  rw [returnState_of_nil h]

theorem paramEffects_of_cons {tcx : TyCtxt} {body : Body} {flow : FlowResults body}
    {s : BlockState} {states : List BlockState} (h : returnStates tcx flow = s :: states) :
    (extractSummary tcx body flow).paramEffects = paramEffects body (mergeInto s states) := by
  unfold extractSummary
  rw [returnState_of_cons h]

/-- The effect on a parameter whose object is in the heap at every return. -/
theorem effect_of_returns {tcx : TyCtxt} {body : Body} {flow : FlowResults body} {i : Nat}
    (hi : i < body.argCount)
    (hall : ∀ s ∈ returnStates tcx flow, s.heap.get (paramObject i) ≠ none) :
    ∃ effect, (∀ e, (i, e) ∈ (extractSummary tcx body flow).paramEffects ↔
        e ≠ .none ∧ effect = e) ∧
      (effect = .reconstituted ↔ returnStates tcx flow ≠ [] ∧
        ∀ s ∈ returnStates tcx flow, s.heap.get (paramObject i) = some .reconstituted) ∧
      (effect = .none ↔ returnStates tcx flow = [] ∨
        ∀ s ∈ returnStates tcx flow, s.heap.get (paramObject i) = some .rawOwned) := by
  cases hR : returnStates tcx flow with
  | nil =>
    refine ⟨.none, fun e => ?_, by simp, by simp⟩
    rw [extractSummary_of_nil hR]
    exact ⟨fun h => absurd h List.not_mem_nil, fun h => absurd h.2.symm h.1⟩
  | cons s states =>
    rw [hR] at hall
    have hfreed := heap_mergeInto_eq_iff (Or.inr rfl) hall
    have howned := heap_mergeInto_eq_iff (Or.inl rfl) hall
    have hmerged : (mergeInto s states).heap.get (paramObject i) ≠ none :=
      heap_mergeInto_ne_none.mpr ⟨s, List.mem_cons_self, hall s List.mem_cons_self⟩
    refine ⟨paramEffect ((mergeInto s states).heap.get (paramObject i)), fun e => ?_, ?_, ?_⟩
    · rw [paramEffects_of_cons hR, mem_paramEffects, and_iff_right hi]
    · rw [and_iff_right (List.cons_ne_nil _ _), ← hfreed]
      revert hmerged
      rcases (mergeInto s states).heap.get (paramObject i) with _ | ⟨_ | _ | _ | _⟩ <;> decide
    · rw [or_iff_right (List.cons_ne_nil _ _), ← howned]
      revert hmerged
      rcases (mergeInto s states).heap.get (paramObject i) with _ | ⟨_ | _ | _ | _⟩ <;> decide

/-- The ids of call sites and of stale handles stay below those of parameters. -/
def Body.IdsFit (body : Body) : Prop :=
  body.numBlocks ≤ 2 ^ 31 ∧ body.localDecls.length ≤ 2 ^ 30

instance Body.decidableIdsFit (body : Body) : Decidable body.IdsFit :=
  inferInstanceAs (Decidable (_ ∧ _))

section Fit
variable {body : Body} (hfit : body.IdsFit)
include hfit

theorem callSiteObject_lt (bb : body.BasicBlock) :
    (BlockState.callSiteObject bb.val).id.val < 2 ^ 31 := by
  have hbb : bb.val < 2 ^ 31 := bb.isLt.trans_le hfit.1
  show bb.val % 2 ^ 32 < 2 ^ 31
  omega

theorem staleObject_lt {l : Local} (hl : body.Declares l) :
    (staleObject l).id.val < 2 ^ 31 := by
  have hl : l.index.val < 2 ^ 30 := Nat.lt_of_lt_of_le hl hfit.2
  show (0x40000000 + l.index.val) % 2 ^ 32 < 2 ^ 31
  omega

theorem paramObject_val {i : Nat} (hi : i < body.argCount) :
    (paramObject i).id.val = 2 ^ 31 + i := by
  have hargs := body.args_declared
  have hlocals := hfit.2
  show (0x80000000 + i % 2 ^ 32) % 2 ^ 32 = 2 ^ 31 + i
  omega

/-- **Only raw-pointer parameters have their object in the heap.** -/
theorem rawParam_of_paramObject {i : Nat} (hi : i < body.argCount)
    (h : ObjectRange body (paramObject i)) : body.RawParam i := by
  have hparam := paramObject_val hfit hi
  rcases h with ⟨bb, hbb⟩ | ⟨l, hl, hstale⟩ | ⟨j, hj, hraw, hj'⟩
  · have hlt := callSiteObject_lt hfit bb
    rw [← hbb] at hlt
    omega
  · have hlt := staleObject_lt hfit hl
    rw [← hstale] at hlt
    omega
  · have hother := paramObject_val hfit hj
    rw [← hj'] at hother
    have hij : i = j := by omega
    exact ⟨hi, hij ▸ hraw⟩

end Fit

/-- **The effects of a summary are exact.**  The summary of a body, analysed from
`summaryInitialState`, lists a raw-pointer parameter as reconstituted exactly if its object is
reconstituted at every return and there is a return, lists nothing for it exactly if its object is
still owned at every return, and lists it as escaped, and only so, otherwise.  In a body of at most
`2 ^ 31` blocks and `2 ^ 30` locals other parameters are never listed. -/
theorem summary_effects_exact (tcx : TyCtxt) (body : Body) (summaries : SummaryMap) :
    let flow := computeFlowForSummary tcx body summaries
    let returns := returnStates tcx flow
    let effects := (extractSummary tcx body flow).paramEffects
    (∀ i, body.RawParam i →
      let freed := returns ≠ [] ∧
        ∀ s ∈ returns, s.heap.get (paramObject i) = some .reconstituted
      let owned := returns = [] ∨ ∀ s ∈ returns, s.heap.get (paramObject i) = some .rawOwned
      ((i, .reconstituted) ∈ effects ↔ freed) ∧
      ((∀ e, (i, e) ∉ effects) ↔ owned) ∧
      (¬ freed → ¬ owned → ∀ e, (i, e) ∈ effects ↔ e = .escaped)) ∧
    (body.IdsFit → ∀ i, ¬ body.RawParam i → ∀ e, (i, e) ∉ effects) := by
  intro flow returns effects
  refine ⟨fun i hi => ?_, fun hfit i hraw e he => ?_⟩
  · intro freed owned
    -- a raw parameter has one effect, the merge over the return states, and every part is about it
    obtain ⟨effect, hmem, hfreed, howned⟩ := effect_of_returns hi.1
      fun s hs => (returned_state hs).2 i hi
    have hmem : ∀ e, (i, e) ∈ effects ↔ e ≠ .none ∧ effect = e := hmem
    have hfreed : effect = .reconstituted ↔ freed := hfreed
    have howned : effect = .none ↔ owned := howned
    refine ⟨?_, ?_, fun hnot hnone e => ?_⟩
    · rw [hmem, and_iff_right (by decide), hfreed]
    · rw [← howned]
      constructor
      · intro h
        by_contra hne
        exact h effect ((hmem effect).mpr ⟨hne, rfl⟩)
      · intro hnone e he
        obtain ⟨hne, rfl⟩ := (hmem e).mp he
        exact hne hnone
    · rw [← hfreed] at hnot
      rw [← howned] at hnone
      rw [hmem]
      cases effect with
      | none => exact absurd rfl hnone
      | reconstituted => exact absurd rfl hnot
      | escaped => exact ⟨fun h => h.2.symm, fun h => by subst h; decide⟩
  · cases hR : returnStates tcx flow with
    | nil =>
      have hempty : effects = [] := congrArg FnSummary.paramEffects (extractSummary_of_nil hR)
      rw [hempty] at he
      exact List.not_mem_nil he
    | cons s states =>
      have hsummary : effects = paramEffects body (mergeInto s states) := paramEffects_of_cons hR
      rw [hsummary] at he
      obtain ⟨hi, hne, heffect⟩ := mem_paramEffects.mp he
      have hsome : (mergeInto s states).heap.get (paramObject i) ≠ none := by
        intro hnone
        rw [hnone] at heffect
        exact hne heffect.symm
      -- some return state binds the object, and no step binds the object of another parameter
      obtain ⟨t, ht, hbound⟩ := heap_mergeInto_ne_none.mp hsome
      have htracks := (returned_state (hR ▸ ht)).1
      exact hraw (rawParam_of_paramObject hfit hi (htracks.heapKeys _ hbound))

/-- A box is made in block `SUMMARY_BASE` and freed in the next one; the blocks between the first
one and that are never entered. -/
def lateBoxBlocks (bb : Fin 0x80000003) : BasicBlockData 0x80000003 :=
  if bb.val = 0x80000000 then .of [] (.callTo 0 [] 2 ⟨0x80000001, by decide⟩)
  else if bb.val = 0x80000001 then .of [] (.callTo 1 [.ofNat 2] 3 ⟨0x80000002, by decide⟩)
  else if bb.val = 0x80000002 then .of [] .return
  else .of [] (.goto ⟨0x80000000, by decide⟩)

/-- A function of a number with `lateBoxBlocks`. -/
def lateBox : Body where
  numBlocks := 0x80000003
  basicBlocks := lateBoxBlocks
  localDecls := [.other, .other, .rawPtr .other .mut, .other]
  argCount := 1
  defId := ⟨0, 3⟩
  numBlocks_pos := by decide
  args_declared := by decide
  locals_le := by decide
  locals_declared := by
    intro bb
    unfold lateBoxBlocks
    split
    · decide
    · split
      · decide
      · split <;> decide

/-- The block `lateBox` returns from. -/
def lateReturn : lateBox.BasicBlock := (⟨0x80000002, by decide⟩ : Fin 0x80000003)

theorem lateBox_returns {bb : lateBox.BasicBlock}
    (h : (lateBox.basicBlocks bb).returns = true) : bb = lateReturn := by
  revert h
  show (lateBoxBlocks bb).returns = true → _
  unfold lateBoxBlocks
  split
  · exact nofun
  · split
    · exact nofun
    · split
      · rename_i hbb
        exact fun _ => Fin.ext hbb
      · exact nofun

/-- **A number that is freed.**  The object of the call in block `SUMMARY_BASE` has the id of the
first parameter, which is not a pointer, and the summary lists that parameter as reconstituted. -/
theorem late_box_taken_for_param : ¬ lateBox.RawParam 0 ∧
    (0, .reconstituted) ∈ (extractSummary boxPaths lateBox
      (computeFlowForSummary boxPaths lateBox ∅)).paramEffects := by
  have hdone : ((flowProblem boxPaths lateBox ∅ (summaryInitialState lateBox)).step^[4]
      (flowProblem boxPaths lateBox ∅ (summaryInitialState lateBox)).initial).work = [] := by
    decide +kernel
  obtain ⟨x, hx, hq⟩ := FlowProblem.exists_solution hdone (n := lateReturn)
    (q := fun s => decide (s.heap.get (paramObject 0) = some .reconstituted)) (by decide +kernel)
  have hbefore : (computeFlowForSummary boxPaths lateBox ∅).stateBeforeTerminator boxPaths
      lateReturn = some x := congrArg _ hx
  have hall : ∀ s ∈ returnStates boxPaths (computeFlowForSummary boxPaths lateBox ∅),
      s.heap.get (paramObject 0) = some .reconstituted := by
    intro s hs
    obtain ⟨bb, hreturns, hs⟩ := mem_returnStates.mp hs
    rw [lateBox_returns hreturns, hbefore] at hs
    cases hs
    exact of_decide_eq_true hq
  obtain ⟨effect, hmem, hfreed, -⟩ := effect_of_returns
    (show 0 < lateBox.argCount by decide) fun s hs => by rw [hall s hs]; exact nofun
  refine ⟨by decide, (hmem .reconstituted).mpr ⟨by decide, hfreed.mpr ⟨?_, hall⟩⟩⟩
  exact List.ne_nil_of_mem (mem_returnStates.mpr ⟨_, rfl, hbefore⟩)

/-! ## The parameter whose pointer is returned -/

section Provenance
variable (tcx : TyCtxt) (body : Body) (summaries : SummaryMap)

/-- The return place may point to `o` at some return. -/
def Returned (o : ObjectId) : Prop :=
  ∃ s ∈ returnStates tcx (computeFlowForSummary tcx body summaries),
    o ∈ s.objectsFor Local.returnPlace

/-- The summary of `body`. -/
def summaryOf : FnSummary := extractSummary tcx body (computeFlowForSummary tcx body summaries)

variable {tcx body summaries}

/-- The returned parameter is read off the least object that stands for one. -/
theorem returnsPtrOfParam_eq_some_iff {n : Nat} :
    (summaryOf tcx body summaries).returnsPtrOfParam = some n ↔
      ∃ o, Returned tcx body summaries o ∧ objectParam body o = some n ∧
        ∀ o', Returned tcx body summaries o' → o' < o → objectParam body o' = none := by
  unfold summaryOf Returned
  cases hR : returnStates tcx (computeFlowForSummary tcx body summaries) with
  | nil =>
    rw [extractSummary_of_nil hR]
    exact ⟨nofun, fun ⟨_, ⟨_, hs, _⟩, _⟩ => absurd hs List.not_mem_nil⟩
  | cons s states =>
    unfold extractSummary
    rw [returnState_of_cons hR]
    simp only [findSome?_sort_eq_some_iff, mem_objectsFor_mergeInto]

theorem Returned.objectRange {o : ObjectId} (h : Returned tcx body summaries o) :
    ObjectRange body o := by
  obtain ⟨s, hs, ho⟩ := h
  have htracks := (returned_state hs).1
  exact htracks.heapKeys o (htracks.objectsFor ho)

/-- **A real provenance.**  A parameter named as the returned one is a raw pointer whose object may
be returned, and none is named if only objects of call sites are. -/
def RealProvenance (tcx : TyCtxt) (body : Body) (summaries : SummaryMap) : Prop :=
  (∀ n, (summaryOf tcx body summaries).returnsPtrOfParam = some n →
    body.RawParam n ∧ Returned tcx body summaries (paramObject n)) ∧
  ((∀ o, Returned tcx body summaries o →
      ∃ bb : body.BasicBlock, o = BlockState.callSiteObject bb.val) →
    (summaryOf tcx body summaries).returnsPtrOfParam = none)

/-- The first returned object that stands for a parameter has the object of that parameter, a raw
pointer, beside it, and the objects of call sites are not alone. -/
def FirstObjectReal (tcx : TyCtxt) (body : Body) (summaries : SummaryMap) : Prop :=
  ∀ o n, Returned tcx body summaries o → objectParam body o = some n →
    (∀ o', Returned tcx body summaries o' → o' < o → objectParam body o' = none) →
    body.RawParam n ∧ Returned tcx body summaries (paramObject n) ∧
      ∃ o', Returned tcx body summaries o' ∧
        ∀ bb : body.BasicBlock, o' ≠ BlockState.callSiteObject bb.val

/-- If an object made in one of the blocks `1 ..= arg_count` is returned, then the parameter with
the number of the first such block is a raw pointer that may be returned too. -/
def FirstBlockReal (tcx : TyCtxt) (body : Body) (summaries : SummaryMap) : Prop :=
  ∀ n < body.argCount, Returned tcx body summaries (BlockState.callSiteObject (n + 1)) →
    (∀ j < n, ¬ Returned tcx body summaries (BlockState.callSiteObject (j + 1))) →
    body.RawParam n ∧ Returned tcx body summaries (paramObject n)

theorem realProvenance_iff :
    RealProvenance tcx body summaries ↔ FirstObjectReal tcx body summaries := by
  constructor
  · rintro ⟨hreal, hfresh⟩ o n ho hn hleast
    have hsome := returnsPtrOfParam_eq_some_iff.mpr ⟨o, ho, hn, hleast⟩
    refine ⟨(hreal n hsome).1, (hreal n hsome).2, ?_⟩
    by_contra hnone
    have hsites : ∀ o', Returned tcx body summaries o' →
        ∃ bb : body.BasicBlock, o' = BlockState.callSiteObject bb.val := fun o' ho' => by
      by_contra hother
      exact hnone ⟨o', ho', fun bb hbb => hother ⟨bb, hbb⟩⟩
    exact nomatch hsome.symm.trans (hfresh hsites)
  · intro h
    refine ⟨fun n hn => ?_, fun hfresh => ?_⟩
    · obtain ⟨o, ho, hparam, hleast⟩ := returnsPtrOfParam_eq_some_iff.mp hn
      exact ⟨(h o n ho hparam hleast).1, (h o n ho hparam hleast).2.1⟩
    · refine Option.eq_none_iff_forall_ne_some.mpr fun n hn => ?_
      obtain ⟨o, ho, hparam, hleast⟩ := returnsPtrOfParam_eq_some_iff.mp hn
      obtain ⟨o', ho', hother⟩ := (h o n ho hparam hleast).2.2
      obtain ⟨bb, hbb⟩ := hfresh o' ho'
      exact hother bb hbb

theorem val_eq_iff {o o' : ObjectId} {v : Nat} (h : o'.id.val = v) : o.id.val = v ↔ o = o' :=
  ⟨fun ho => ObjectId.ext_id (Fin.ext (ho.trans h.symm)), fun ho => ho ▸ h⟩

/-- The numbers of the objects that stand for a parameter. -/
theorem objectParam_eq_some_iff_val (hargs : body.argCount < 2 ^ 30) {o : ObjectId} {n : Nat} :
    objectParam body o = some n ↔
      n < body.argCount ∧ (o.id.val = 2 ^ 31 + n ∨ o.id.val = n + 1) := by
  have hbase : summaryBase.val = 2 ^ 31 := by decide
  have hle : summaryBase ≤ o.id ↔ 2 ^ 31 ≤ o.id.val := by rw [Fin.le_def, hbase]
  unfold objectParam
  simp only [hle, hbase]
  split
  · split
    · rw [Option.some_inj]
      omega
    · exact ⟨nofun, fun h => by omega⟩
  · split
    · rw [Option.some_inj]
      omega
    · exact ⟨nofun, fun h => by omega⟩

section Fit
variable (hfit : body.IdsFit)
include hfit

theorem argCount_lt : body.argCount < 2 ^ 30 := Nat.lt_of_lt_of_le body.args_declared hfit.2

/-- The object made in a block with the number of a parameter. -/
theorem paramBlock_val {n : Nat} (hn : n < body.argCount) :
    (BlockState.callSiteObject (n + 1)).id.val = n + 1 := by
  have hargs := argCount_lt hfit
  show (n + 1) % 2 ^ 32 = n + 1
  omega

/-- In a body of ordinary size an object stands for a parameter if it is the parameter's own or
the one made in the block with its number. -/
theorem objectParam_eq_some_iff {o : ObjectId} {n : Nat} :
    objectParam body o = some n ↔
      n < body.argCount ∧ (o = paramObject n ∨ o = BlockState.callSiteObject (n + 1)) := by
  rw [objectParam_eq_some_iff_val (argCount_lt hfit)]
  exact and_congr_right fun hn =>
    or_congr (val_eq_iff (paramObject_val hfit hn)) (val_eq_iff (paramBlock_val hfit hn))

/-- The object of a parameter is not made by a call. -/
theorem paramObject_ne_callSite {n : Nat} (hn : n < body.argCount) (bb : body.BasicBlock) :
    paramObject n ≠ BlockState.callSiteObject bb.val := by
  intro h
  have hparam := paramObject_val hfit hn
  have hblock := callSiteObject_lt hfit bb
  rw [← h] at hblock
  omega

/-- In a body of ordinary size the first object is real if that of the first block is. -/
theorem firstObjectReal_iff :
    FirstObjectReal tcx body summaries ↔ FirstBlockReal tcx body summaries := by
  have hargs := argCount_lt hfit
  constructor
  · intro h n hn hreturned hfirst
    have hstands := (objectParam_eq_some_iff hfit).mpr ⟨hn, Or.inr rfl⟩
    have hleast : ∀ o', Returned tcx body summaries o' →
        o' < BlockState.callSiteObject (n + 1) → objectParam body o' = none := by
      intro o' ho' hlt
      have hlt : o'.id.val < n + 1 :=
        Nat.lt_of_lt_of_eq (show o'.id.val < _ from hlt) (paramBlock_val hfit hn)
      refine Option.eq_none_iff_forall_ne_some.mpr fun j hstands' => ?_
      obtain ⟨hj, rfl | rfl⟩ := (objectParam_eq_some_iff hfit).mp hstands'
      · rw [paramObject_val hfit hj] at hlt
        omega
      · rw [paramBlock_val hfit hj] at hlt
        exact hfirst j (by omega) ho'
    exact ⟨(h _ n hreturned hstands hleast).1, (h _ n hreturned hstands hleast).2.1⟩
  · intro h o n ho hstands hleast
    obtain ⟨hn, howner⟩ := (objectParam_eq_some_iff hfit).mp hstands
    have hreal : body.RawParam n ∧ Returned tcx body summaries (paramObject n) := by
      rcases howner with rfl | rfl
      · exact ⟨rawParam_of_paramObject hfit hn ho.objectRange, ho⟩
      · refine h n hn ho fun j hj hreturned => ?_
        have hjn : j < body.argCount := hj.trans hn
        have hlt : BlockState.callSiteObject (j + 1) < BlockState.callSiteObject (n + 1) := by
          refine Fin.lt_def.mpr ?_
          rw [paramBlock_val hfit hjn, paramBlock_val hfit hn]
          omega
        have hnone := hleast _ hreturned hlt
        rw [(objectParam_eq_some_iff hfit).mpr ⟨hjn, Or.inr rfl⟩] at hnone
        exact nomatch hnone
    exact ⟨hreal.1, hreal.2, paramObject n, hreal.2, paramObject_ne_callSite hfit hn⟩

end Fit

end Provenance

/-- **When the returned parameter is a real provenance.**  It is exactly if the first object of the
return place that the extraction takes for a parameter is accompanied by the object of that
parameter, a raw pointer, and the objects of call sites are not alone.  In a body of ordinary size
this can only fail through a pointer made in one of the blocks `1 ..= arg_count`: the first block
such a pointer is returned from has to bear the number of a raw pointer that may be returned
too. -/
theorem returned_param_real_iff (tcx : TyCtxt) (body : Body) (summaries : SummaryMap) :
    (RealProvenance tcx body summaries ↔ FirstObjectReal tcx body summaries) ∧
      (body.IdsFit →
        (RealProvenance tcx body summaries ↔ FirstBlockReal tcx body summaries)) :=
  ⟨realProvenance_iff, fun hfit => realProvenance_iff.trans (firstObjectReal_iff hfit)⟩

/-- A function of a number that returns a new box, made in block `1`. -/
def freshBox : Body :=
  .ofBlocks 3 1 [.rawPtr .other .mut, .other] 2
    (fun bb =>
      [.of [] (.goto (bb 1)),
        .of [] (.callTo 0 [] 0 (bb 2)),
        .of [] .return])
    (by decide)

/-- **A new box that comes from a number.**  The only object `freshBox` returns is made by the call
in block `1`, and its summary has it return a pointer of its parameter. -/
theorem fresh_box_of_param : ¬ RealProvenance boxPaths freshBox ∅ ∧ freshBox.IdsFit ∧
    (∀ o, Returned boxPaths freshBox ∅ o → o = BlockState.callSiteObject 1) ∧
    (summaryOf boxPaths freshBox ∅).returnsPtrOfParam = some 0 := by
  have hdone : ((flowProblem boxPaths freshBox ∅ (summaryInitialState freshBox)).step^[3]
      (flowProblem boxPaths freshBox ∅ (summaryInitialState freshBox)).initial).work = [] := by
    decide +kernel
  obtain ⟨x, hx, hq⟩ := FlowProblem.exists_solution hdone (n := (2 : Fin 3))
    (q := fun s => decide (s.objectsFor Local.returnPlace = {BlockState.callSiteObject 1}))
    (by decide +kernel)
  have hbefore : (computeFlowForSummary boxPaths freshBox ∅).stateBeforeTerminator boxPaths
      (2 : Fin 3) = some x := congrArg _ hx
  have hobjects : ∀ o, Returned boxPaths freshBox ∅ o ↔ o = BlockState.callSiteObject 1 := by
    intro o
    rw [← Finset.mem_singleton, ← of_decide_eq_true hq]
    constructor
    · rintro ⟨s, hs, ho⟩
      obtain ⟨bb, hreturns, hs⟩ := mem_returnStates.mp hs
      have hlast : ∀ bb : Fin 3, (freshBox.basicBlocks bb).returns = true → bb = 2 := by decide
      rw [hlast bb hreturns] at hs
      cases hs.symm.trans hbefore
      exact ho
    · exact fun ho => ⟨x, mem_returnStates.mpr ⟨(2 : Fin 3), rfl, hbefore⟩, ho⟩
  have hsome : (summaryOf boxPaths freshBox ∅).returnsPtrOfParam = some 0 := by
    refine returnsPtrOfParam_eq_some_iff.mpr ⟨_, (hobjects _).mpr rfl, by decide, ?_⟩
    intro o' ho' hlt
    rw [(hobjects o').mp ho'] at hlt
    exact absurd hlt (lt_irrefl _)
  refine ⟨fun hreal => ?_, by decide, fun o => (hobjects o).mp, hsome⟩
  exact absurd (hreal.1 0 hsome).1 (by decide)

end San
