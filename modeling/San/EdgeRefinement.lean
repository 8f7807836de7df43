import San.Statement

/-! # What a branch proves

A comparison temporary carries conditional facts: what holds if it is true, what
holds if it is false.  Taking an edge of a two-way `SwitchInt`, or passing an
`Assert`, drains the facts of the condition into the must-domains
(`refineSwitchintEdge`, `assertCondition`).
-/
namespace San

/-! ## Draining one conditional fact -/

/-- Add what the fact `k` of the condition `c` says to the must-set `m`. -/
def drain (k : Fact) (m : MustSet) (c : Local) (s : BlockState) : BlockState :=
  match (s.facts k).get c with
  | some l => s.insertMust m l
  | none => s

/-- Add the pair recorded for the condition to the must-pairs `m`. -/
def drainPair (k : PairFact) (m : MustPairs) (norm : Local × Local → Local × Local) (c : Local)
    (s : BlockState) : BlockState :=
  match (s.pairFacts k).get c with
  | some pair => s.onMustPairs [m] (insert (norm pair))
  | none => s

/-- Tighten the upper bound of the compared local. -/
def drainUpper (k : ConstFact) (f : U64 → U64) (c : Local) (s : BlockState) : BlockState :=
  match (s.constFacts k).get c with
  | some (l, bound) => s.boundAbove l (f bound)
  | none => s

/-- Tighten the lower bound of the compared local. -/
def drainLower (k : ConstFact) (f : U64 → U64) (c : Local) (s : BlockState) : BlockState :=
  match (s.constFacts k).get c with
  | some (l, bound) => s.boundBelow l (f bound)
  | none => s

/-- `k.saturating_sub(1)`. -/
def predSat (k : U64) : U64 := ⟨k.val - 1, U64.pred_lt k⟩

/-- `k.saturating_add(1)`. -/
def succSat (k : U64) : U64 := toU64 (k.val + 1)

/-- A pair of locals with the smaller index first. -/
def orderPair (p : Local × Local) : Local × Local :=
  if p.1.index ≤ p.2.index then p else (p.2, p.1)

/-! ## Edges -/

/-- The condition `c` held. -/
def refineTrueEdge (c : Local) (s : BlockState) : BlockState :=
  let s := drain .ltFacts .bounded c s
  let s := drain .leFacts .boundedOrEq c s
  let s := drainPair .ltFor .indexBoundedFor id c s
  let s := drainPair .leFor .indexBoundedOrEqFor id c s
  let s := drain .spareIfTrue .hasSpare c s
  let s := drain .fullIfTrue .isFull c s
  let s := drain .nonzeroIfTrue .nonzero c s
  let s := drain .finiteIfTrue .finite c s
  let s := drainUpper .constLt predSat c s
  let s := drainUpper .constLe id c s
  let s := drainLower .constGt succSat c s
  let s := drainLower .constGe id c s
  let s := drainPair .nePairIfTrue .keysAreNe orderPair c s
  drainPair .eqPairIfTrue .eqLocals orderPair c s

/-- The condition `c` did not hold. -/
def refineFalseEdge (c : Local) (s : BlockState) : BlockState :=
  let s := drain .geFacts .bounded c s
  let s := drain .gtFacts .boundedOrEq c s
  let s := drain .spareIfFalse .hasSpare c s
  let s := drain .fullIfFalse .isFull c s
  let s := drain .nonzeroIfFalse .nonzero c s
  let s := drain .nanIfTrue .finite c s
  let s := drainLower .constLt id c s
  let s := drainLower .constLe succSat c s
  let s := drainUpper .constGt id c s
  let s := drainUpper .constGe predSat c s
  let s := drainPair .eqPairIfTrue .keysAreNe orderPair c s
  drainPair .nePairIfTrue .eqLocals orderPair c s

/-- Is the edge to `succ` the one taken when the discriminant is nonzero (`some true`)
or zero (`some false`)?  `none` when `succ` is reached either way or through a listed
nonzero value. -/
def edgePolarity {n : Nat} (targets : SwitchTargets n) (succ : Fin n) : Option Bool :=
  let zeroTarget := (targets.targets.find? fun t => t.1 == 0).map Prod.snd
  let otherTarget := targets.otherwise
  if succ = otherTarget ∧ some succ ≠ zeroTarget then some true
  else if some succ = zeroTarget ∧ succ ≠ otherTarget then some false
  else none

/-- What is known on the edge from a terminator to `succ`. -/
def refineSwitchintEdge {n : Nat} (term : Terminator n) (succ : Fin n) (s : BlockState) :
    BlockState :=
  match term.kind with
  | .switchInt discr targets =>
      match operandLocal discr, edgePolarity targets succ with
      | some c, some true => refineTrueEdge c s
      | some c, some false => refineFalseEdge c s
      | _, _ => s
  | _ => s

/-- What passing an assertion proves. -/
def assertCondition (cond : Operand) (expected : Bool) (s : BlockState) : BlockState :=
  match operandLocal cond with
  | none => s
  | some c =>
      if expected then drain .leFacts .boundedOrEq c (drain .ltFacts .bounded c s)
      else drain .gtFacts .boundedOrEq c (drain .geFacts .bounded c s)

end San
