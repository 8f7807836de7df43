import San.Join
import San.Statement

/-! # Function summaries

A summary records what a function does to its raw-pointer parameters and what its
return value aliases.  It is extracted from the states at the function's returns
(`extractSummary`) after an analysis that starts with every raw-pointer parameter
owning an object of its own (`summaryInitialState`), and is replayed at call sites
(`applyFnSummary`).
-/
namespace San

/-- The first object id reserved for parameters. -/
def summaryBase : U32 := ⟨0x80000000, by decide⟩

inductive ParamHeapEffect
  | none
  | reconstituted
  | escaped
deriving DecidableEq, Repr

structure FnSummary where
  paramEffects : List (Nat × ParamHeapEffect)
  returnsRawOwned : Bool
  returnsAliasOfParam : Option Nat
  returnsPtrOfParam : Option Nat
  reallocsParam : Option Nat
deriving DecidableEq, Repr

abbrev SummaryMap := FMap DefId FnSummary

/-- The local of parameter `i`, counted from zero. -/
def paramLocal (i : Nat) : Local := ⟨Fin.ofNat (2 ^ 32) (i + 1)⟩

/-- The object of parameter `i`: `ObjectId(SUMMARY_BASE + i)`. -/
def paramObject (i : Nat) : ObjectId := ⟨summaryBase + Fin.ofNat (2 ^ 32) i⟩

/-- `args.get(idx)`, when it is a whole local. -/
def nthArgLocal (args : List Operand) (idx : Nat) : Option Local :=
  args[idx]?.bind operandLocal

def firstArgLocal (args : List Operand) : Option Local := nthArgLocal args 0

/-! ## The initial state of a summary analysis -/

/-- Give parameter `i` an object of its own if it is a raw pointer. -/
def seedParam (body : Body) (s : BlockState) (i : Nat) : BlockState :=
  if (body.localTy (paramLocal i)).isRawPtr then
    { s with
      pointsTo := s.pointsTo.insert (paramLocal i) {paramObject i}
      heap := s.heap.insert (paramObject i) .rawOwned }
  else s

def summaryInitialState (body : Body) : BlockState :=
  (List.range body.argCount).foldl (seedParam body) BlockState.default

/-! ## Applying a summary -/

def applyParamEffect (args : List Operand) (s : BlockState) (e : Nat × ParamHeapEffect) :
    BlockState :=
  match nthArgLocal args e.1, e.2 with
  | some arg, .reconstituted => (s.reconstitute arg).dropProto arg
  | some arg, .escaped => s.escapeLocal arg
  | _, _ => s

/-- The owners that the result of an accessor aliases when `arg` is passed for the
parameter whose interior it returns. -/
def argOwners (body : Body) (arg : Local) (s : BlockState) : Finset Local :=
  if isReferenceParam body arg then {arg}
  else if (body.localTy arg).isRef || (body.localTy arg).isRawPtr then s.ownersOf arg
  else ∅

/-- `dest` receives the objects of `arg`, if there are any. -/
def inheritObjects (dest arg : Local) (s : BlockState) : BlockState :=
  match nonempty (s.pointsTo.get arg) with
  | some objs => s.setObjects dest (some objs)
  | none => s

/-- `dest` aliases the owners that `arg` does. -/
def returnAlias (body : Body) (dest arg : Local) (s : BlockState) : BlockState :=
  let owners := argOwners body arg s
  let s := if owners = ∅ then s else s.setOwners dest (some (s.ownersOf dest ∪ owners))
  if (body.localTy dest).isRawPtr then s else inheritObjects dest arg s

/-- `dest` aliases the owners of the argument passed for the parameter it returns, if any. -/
def returnAliasOf (body : Body) (dest : Local) (arg : Option Local) (s : BlockState) :
    BlockState :=
  match arg with
  | some arg => returnAlias body dest arg s
  | none => s

/-- `dest` receives the objects of the argument passed for the parameter it returns, if
any. -/
def inheritObjectsOf (dest : Local) (arg : Option Local) (s : BlockState) : BlockState :=
  match arg with
  | some arg => inheritObjects dest arg s
  | none => s

/-- The effect of a call to a summarised function from the block with index `bb`. -/
def applyFnSummary (body : Body) (args : List Operand) (dest : Local) (bb : Nat)
    (summary : FnSummary) (s : BlockState) : BlockState :=
  let s := summary.paramEffects.foldl (applyParamEffect args) s
  let s := if summary.returnsRawOwned then s.mintRawOwned dest bb
    else (s.setObjects dest none).dropProto dest
  let s := s.setOwners dest none
  let s := returnAliasOf body dest (summary.returnsAliasOfParam.bind (nthArgLocal args)) s
  inheritObjectsOf dest (summary.returnsPtrOfParam.bind (nthArgLocal args)) s

/-! ## Extracting a summary -/

/-- The summary of a function that never returns. -/
def FnSummary.empty : FnSummary := ⟨[], false, none, none, none⟩

def paramEffect : Option HeapState → ParamHeapEffect
  | some .reconstituted => .reconstituted
  | some .escaped => .escaped
  | some .maybeFreed => .escaped
  | _ => .none

/-- The parameter index of a local, if it is a parameter. -/
def paramIndex (body : Body) (l : Local) : Option Nat :=
  if isParam body l then some (l.index.val - 1) else none

/-- The parameter an object of the return place stands for. -/
def objectParam (body : Body) (o : ObjectId) : Option Nat :=
  if summaryBase ≤ o.id then
    let i := o.id.val - summaryBase.val
    if i < body.argCount then some i else none
  else
    let k := o.id.val
    if 1 ≤ k ∧ k ≤ body.argCount then some (k - 1) else none

end San
