import San.AssumeInit

/-! # Checkers that look at calls

Most checkers walk over the blocks of a body, stop at those that end in a call of a function
item, recognise the callee by its path, and ask the state before the call whether a finding may
be suppressed.  `checkCalls` is this walk; a checker is the function that it applies to each
call.
-/
namespace San

/-- A call of a function item. -/
structure CallSite where
  callee : DefId
  args : List Operand
  destination : Place
  span : Span

/-- The call of a function item that ends `bb`, if there is one. -/
def Body.callSite (body : Body) (bb : body.BasicBlock) : Option CallSite :=
  match (body.basicBlocks bb).terminator with
  | some ⟨.call func args destination _ _, span⟩ =>
      func.constFnDef.map fun item => ⟨item.1, args, destination, span⟩
  | _ => none

section
variable (tcx : TyCtxt) {body : Body} (flow : FlowResults body)
  (check : String → CallSite → Option BlockState → Option Finding)

/-- What a checker says about the call that ends `bb`: it is given the path of the callee, the
call, and the state before it if the block is reachable. -/
def checkCallIn (bb : body.BasicBlock) : Option Finding :=
  (body.callSite bb).bind fun call =>
    check (tcx.defPathStr call.callee) call (flow.stateBeforeTerminator tcx bb)

/-- What a checker says about all calls of a body. -/
def checkCalls : List Finding := (List.finRange body.numBlocks).filterMap (checkCallIn tcx flow check)

variable {tcx flow check}

theorem checkCallIn_eq {bb : body.BasicBlock} {call : CallSite} {s : BlockState}
    (hcall : body.callSite bb = some call) (hs : flow.stateBeforeTerminator tcx bb = some s) :
    checkCallIn tcx flow check bb = check (tcx.defPathStr call.callee) call (some s) := by
  unfold checkCallIn
  rw [hcall, hs]
  rfl

/-- What is said about a call is among the findings. -/
theorem mem_checkCalls {bb : body.BasicBlock} {finding : Finding}
    (h : checkCallIn tcx flow check bb = some finding) : finding ∈ checkCalls tcx flow check :=
  List.mem_filterMap.mpr ⟨bb, List.mem_finRange bb, h⟩

end

/-! ## Recognising a callee -/

/-- A table with one note for each operation has one for a path that names an operation. -/
theorem find_note_isSome {notes : List (String × String)} {path name : String}
    (hmem : name ∈ notes.map Prod.fst) (hpath : endsWith path ("::" ++ name) = true) :
    (notes.find? fun note => endsWith path ("::" ++ note.1)).isSome = true := by
  obtain ⟨note, hnote, hname⟩ := List.mem_map.mp hmem
  exact List.find?_isSome.mpr ⟨note, hnote, by rw [hname]; exact hpath⟩

/-- Report a call of an operation that has a note, unless the finding is suppressed. -/
def reportNoted (ruleId : String) (notes : List (String × String)) (path : String)
    (call : CallSite) (suppressed : Bool) : Option Finding :=
  (notes.find? fun note => endsWith path ("::" ++ note.1)).bind fun (fnName, note) =>
    if suppressed then none
    else some ⟨ruleId, .warning, call.span, "`" ++ fnName ++ "` — " ++ note⟩

theorem reportNoted_eq_none_iff {ruleId : String} {notes : List (String × String)}
    {path name : String} {call : CallSite} {suppressed : Bool} (hmem : name ∈ notes.map Prod.fst)
    (hpath : endsWith path ("::" ++ name) = true) :
    reportNoted ruleId notes path call suppressed = none ↔ suppressed = true := by
  obtain ⟨⟨fnName, note⟩, hnote⟩ := Option.isSome_iff_exists.mp (find_note_isSome hmem hpath)
  unfold reportNoted
  rw [hnote]
  cases suppressed <;> simp

end San
