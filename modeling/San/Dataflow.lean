import San.JoinLaws
import San.Worklist
import San.Terminator

/-! # The fixpoint over a body

`runFixpoint` is the worklist algorithm of `San.Worklist` on the blocks of a body.
An edge runs the statements and the terminator of its source block and then refines
the state for its target.  The results below are the worklist's, read at a body.
-/
namespace San

/-! ## The control-flow graph -/

def pushUnwind {n : Nat} : UnwindAction n → List (Fin n)
  | .cleanup bb => [bb]
  | _ => []

def blockSuccessors {n : Nat} (block : BasicBlockData n) : List (Fin n) :=
  match block.terminator with
  | none => []
  | some term =>
      match term.kind with
      | .goto target => [target]
      | .switchInt _ targets => targets.allTargets
      | .return | .unreachable | .coroutineDrop | .tailCall => []
      | .call _ _ _ target unwind => target.toList ++ pushUnwind unwind
      | .drop _ target unwind => target :: pushUnwind unwind
      | .assert _ _ target unwind => target :: pushUnwind unwind
      | .falseEdge realTarget imaginaryTarget => [realTarget, imaginaryTarget]
      | .falseUnwind realTarget unwind => realTarget :: pushUnwind unwind
      | .yield resume drop => resume :: drop.toList
      | .inlineAsm targets unwind => targets ++ pushUnwind unwind
      | .unwindResume | .unwindTerminate => []

/-! ## States along an edge -/

section Flow
variable (tcx : TyCtxt) (body : Body) (summaries : SummaryMap)

def applyStatements (stmts : List Statement) (s : BlockState) : BlockState :=
  stmts.foldl (fun s stmt => applyStatement tcx body stmt s) s

theorem applyStatements_cons (stmt : Statement) (stmts : List Statement) (s : BlockState) :
    applyStatements tcx body (stmt :: stmts) s =
      applyStatements tcx body stmts (applyStatement tcx body stmt s) := rfl

theorem applyStatements_singleton (stmt : Statement) (s : BlockState) :
    applyStatements tcx body [stmt] s = applyStatement tcx body stmt s := rfl

/-- The state after the terminator of `bb`. -/
def exitState (bb : body.BasicBlock) (s : BlockState) : BlockState :=
  let block := body.basicBlocks bb
  let s := applyStatements tcx body block.statements s
  match block.terminator with
  | some term => applyTerminator tcx body summaries bb.val term s
  | none => s

/-- Refine the exit state of `bb` for the edge to `succ`. -/
def refineEdge (bb succ : body.BasicBlock) (s : BlockState) : BlockState :=
  match (body.basicBlocks bb).terminator with
  | some term => refineSwitchintEdge term succ s
  | none => s

/-- The state that `bb`, entered in state `s`, sends to `succ`. -/
def edgeState (bb : body.BasicBlock) (s : BlockState) (succ : body.BasicBlock) : BlockState :=
  refineEdge body bb succ (exitState tcx body summaries bb s)

variable {tcx body summaries} in
theorem edgeState_of_some {bb : body.BasicBlock} {term : Terminator body.numBlocks}
    (h : (body.basicBlocks bb).terminator = some term) (s : BlockState) (succ : body.BasicBlock) :
    edgeState tcx body summaries bb s succ =
      refineSwitchintEdge term succ (applyTerminator tcx body summaries bb.val term
        (applyStatements tcx body (body.basicBlocks bb).statements s)) := by
  simp only [edgeState, refineEdge, exitState, h]

variable {tcx body summaries} in
theorem edgeState_of_none {bb : body.BasicBlock} (h : (body.basicBlocks bb).terminator = none)
    (s : BlockState) (succ : body.BasicBlock) :
    edgeState tcx body summaries bb s succ =
      applyStatements tcx body (body.basicBlocks bb).statements s := by
  simp only [edgeState, refineEdge, exitState, h]

/-- The flow problem of a body. -/
def flowProblem (initial : BlockState) : FlowProblem body.BasicBlock BlockState where
  discipline := BlockState.discipline
  lawful := BlockState.discipline_lawful
  start := body.entryBlock
  init := initial
  succs bb := blockSuccessors (body.basicBlocks bb)
  flow := edgeState tcx body summaries

/-- The stable state at the entry of each block; `none` for unreachable blocks. -/
def runFixpoint (initial : BlockState) : body.BasicBlock → Option BlockState :=
  (flowProblem tcx body summaries initial).solution

/-! ## Flow results -/

/-- The entry states of a body, and the summaries they were computed against. -/
structure FlowResults where
  entryStates : body.BasicBlock → Option BlockState
  summaries : SummaryMap

/-- The state before the terminator of `bb`. -/
def FlowResults.stateBeforeTerminator {body : Body} (flow : FlowResults body)
    (bb : body.BasicBlock) : Option BlockState :=
  (flow.entryStates bb).map (applyStatements tcx body (body.basicBlocks bb).statements)

/-- The state before the statement of `bb` with the given index. -/
def FlowResults.stateAtLocation {body : Body} (flow : FlowResults body) (bb : body.BasicBlock)
    (statementIndex : Nat) : Option BlockState :=
  (flow.entryStates bb).map
    (applyStatements tcx body ((body.basicBlocks bb).statements.take statementIndex))

/-- The parameters `_1 ..= _argCount`. -/
def Body.argsIter (body : Body) : List Local := (List.range body.argCount).map paramLocal

def seedParamTypeFacts (s : BlockState) : BlockState :=
  body.argsIter.foldl (fun s l => enforceTypeFacts tcx l (body.localTy l) s) s

def computeFlow : FlowResults body where
  entryStates := runFixpoint tcx body summaries (seedParamTypeFacts tcx body BlockState.default)
  summaries := summaries

/-- The analysis behind a summary: raw-pointer parameters start out owned. -/
def computeFlowForSummary : FlowResults body where
  entryStates := runFixpoint tcx body summaries (summaryInitialState body)
  summaries := ∅

end Flow

end San
