import San.Dataflow

/-! # Runs without joins

The fixpoint merges the states of all paths.  A **run** follows one path through the
control-flow graph, statement by statement, and never merges: it is what the transfer
functions do to a state, the join apart.  Properties that speak of "before" and "after" are
about runs.
-/
namespace San

/-- A point of a body and the state there: the first `done` statements of `block` have
been executed. -/
structure Config (body : Body) where
  block : body.BasicBlock
  done : Nat
  state : BlockState

/-- What a step executes: a statement, or a terminator that goes on to `succ`. -/
inductive Event (body : Body)
  | statement (stmt : Statement)
  | terminator (bb : body.BasicBlock) (term : Terminator body.numBlocks) (succ : body.BasicBlock)

section Run
variable (tcx : TyCtxt) (body : Body) (summaries : SummaryMap)

/-- The state after an event. -/
def Event.apply : Event body → BlockState → BlockState
  | .statement stmt, s => applyStatement tcx body stmt s
  | .terminator bb term succ, s =>
      refineSwitchintEdge term succ (applyTerminator tcx body summaries bb.val term s)

/-- The event comes next at a point, and leads to the given block and statement. -/
inductive Event.Next : Event body → Config body → body.BasicBlock → Nat → Prop
  | statement {x : Config body} {stmt : Statement}
      (h : (body.basicBlocks x.block).statements[x.done]? = some stmt) :
      Event.Next (.statement stmt) x x.block (x.done + 1)
  | terminator {x : Config body} {term : Terminator body.numBlocks} {succ : body.BasicBlock}
      (hdone : x.done = (body.basicBlocks x.block).statements.length)
      (hterm : (body.basicBlocks x.block).terminator = some term)
      (hsucc : succ ∈ blockSuccessors (body.basicBlocks x.block)) :
      Event.Next (.terminator x.block term succ) x succ 0

/-- One step of a run, by the event `e`. -/
def Step (x : Config body) (e : Event body) (y : Config body) : Prop :=
  e.Next body x y.block y.done ∧ y.state = e.apply tcx body summaries x.state

/-- A run whose events all satisfy `P` in the state they meet. -/
def Runs (P : Event body → BlockState → Prop) : Config body → Config body → Prop :=
  Relation.ReflTransGen fun x y => ∃ e, Step tcx body summaries x e y ∧ P e x.state

variable {tcx body summaries}

theorem Step.follow {x : Config body} (succ : body.BasicBlock) {term : Terminator body.numBlocks}
    (hdone : x.done = (body.basicBlocks x.block).statements.length)
    (hterm : (body.basicBlocks x.block).terminator = some term)
    (hsucc : succ ∈ blockSuccessors (body.basicBlocks x.block)) :
    Step tcx body summaries x (.terminator x.block term succ) ⟨succ, 0, refineSwitchintEdge term succ
      (applyTerminator tcx body summaries x.block.val term x.state)⟩ :=
  ⟨.terminator hdone hterm hsucc, rfl⟩

section Next
variable {P : Event body → BlockState → Prop} {x y : Config body}
  (hrun : Runs tcx body summaries P x y)
include hrun

/-- A run goes on with the next statement. -/
theorem Runs.execute {stmt : Statement}
    (h : (body.basicBlocks y.block).statements[y.done]? = some stmt)
    (hP : P (.statement stmt) y.state) :
    Runs tcx body summaries P x ⟨y.block, y.done + 1, applyStatement tcx body stmt y.state⟩ :=
  hrun.tail ⟨.statement stmt, ⟨.statement h, rfl⟩, hP⟩

/-- At the end of a block, a run goes on with a successor. -/
theorem Runs.follow (succ : body.BasicBlock) {term : Terminator body.numBlocks}
    (hdone : y.done = (body.basicBlocks y.block).statements.length)
    (hterm : (body.basicBlocks y.block).terminator = some term)
    (hsucc : succ ∈ blockSuccessors (body.basicBlocks y.block))
    (hP : P (.terminator y.block term succ) y.state) :
    Runs tcx body summaries P x ⟨succ, 0, refineSwitchintEdge term succ
      (applyTerminator tcx body summaries y.block.val term y.state)⟩ :=
  hrun.tail ⟨.terminator y.block term succ, .follow succ hdone hterm hsucc, hP⟩

end Next

/-- **The invariant rule.**  What every event that satisfies `P` preserves holds all along
the run. -/
theorem Runs.preserves {P : Event body → BlockState → Prop} {I : BlockState → Prop}
    (hstep : ∀ e s, P e s → I s → I (e.apply tcx body summaries s)) {x y : Config body}
    (hrun : Runs tcx body summaries P x y) (hx : I x.state) : I y.state := by
  induction hrun with
  | refl => exact hx
  | tail _ hlast ih =>
      obtain ⟨e, ⟨-, hstate⟩, hP⟩ := hlast
      rw [hstate]
      exact hstep e _ hP ih

end Run

end San
