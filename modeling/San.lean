import San.FiniteMap
import San.JoinDiscipline
import San.Worklist
import San.Mir
import San.DefPaths
import San.State
import San.Join
import San.JoinLaws
import San.Statement
import San.EdgeRefinement
import San.Summary
import San.Terminator
import San.Dataflow
import San.Fixpoint
import San.Footprint
import San.WellFormed
import San.Reachable
import San.Liveness
import San.MustFacts
import San.InitFacts
import San.AssumeInit
import San.HeapPaths
import San.RoundIteration
import San.SummaryRounds
import San.TaintPaths
import San.Redefinition
import San.CallResult
import San.CallSurvivors
import San.Runs
import San.LengthFacts
import San.Preconditions
import San.Values
import San.Intervals
import San.Nonzero
import San.CallChecks
import San.UncheckedArith
import San.AllocSize
import San.Guards
import San.FieldPaths
import San.KeyedDedup
import San.Report
import San.MoveCopy
import San.CallHeap
import San.Ownership
import San.IntoRaw
import San.ProtocolPaths
import San.LockState
import San.CastEquality
import San.SliceGetUnchecked
import San.SummaryExtraction
import San.PairQueries
import San.AssignFrame
import San.RawFd
import San.UnionFields
import San.Execution
import San.NumberFrames
import San.ExecutionBounds
import San.ExecutionNonzero
import San.ValueCheckers
import San.LevelSearch
import San.Pipeline
import San.Deallocators
import San.PointerRules
import San.UseAfterFree
import San.UnsafeCalls
import San.TaintCheckers
import San.RawPtrDeref
