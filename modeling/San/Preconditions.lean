import San.AssumeInit
import San.SummaryRounds

/-! # Implicit preconditions of safe functions

A safe function that passes its parameter unguarded to an unsafe operation requires
something of its callers.  `extractPrecondSummary` finds these requirements, and
`PrecondPropagation.check` looks at each call site of a function that has some.

A requirement is handled at a call site if it is proven there, met by a constant, reported,
or passed on to the callers of the caller.  The checker leaves out an argument that is a
parameter because the requirement is expected to be passed on; but the extraction only looks
at the unsafe operations themselves, never at calls of functions with requirements.
`precondition_handled_iff` says exactly which requirements are handled.
-/
namespace San

open AssumeInit (calledItem takeSegment)

/-! ## Requirements -/

/-- What a function may require of its arguments. -/
inductive Requirement
  | nonzero (arg : Nat)
  | ascii (arg : Nat)
  | boundedFor (idxArg collArg : Nat)
deriving DecidableEq, Repr

structure PrecondSummary where
  nonzeroArgs : Finset Nat
  asciiArgs : Finset Nat
  boundedForArgs : Finset (Nat × Nat)
deriving DecidableEq

abbrev PrecondSummaryMap := FMap DefId PrecondSummary

namespace PrecondSummary

def default : PrecondSummary := ⟨∅, ∅, ∅⟩

def isEmpty (p : PrecondSummary) : Bool :=
  decide (p.nonzeroArgs = ∅) && decide (p.asciiArgs = ∅) && decide (p.boundedForArgs = ∅)

/-- The requirement is part of the summary. -/
def Requires (p : PrecondSummary) : Requirement → Prop
  | .nonzero k => k ∈ p.nonzeroArgs
  | .ascii k => k ∈ p.asciiArgs
  | .boundedFor i c => (i, c) ∈ p.boundedForArgs

theorem not_requires_default (r : Requirement) : ¬ default.Requires r := by
  cases r <;> exact Finset.notMem_empty _

theorem not_isEmpty_of_requires {p : PrecondSummary} {r : Requirement} (h : p.Requires r) :
    p.isEmpty = false := by
  refine Bool.eq_false_iff.mpr fun hempty => ?_
  simp only [isEmpty, Bool.and_eq_true, decide_eq_true_eq] at hempty
  obtain ⟨⟨hnonzero, hascii⟩, hbounded⟩ := hempty
  cases r with
  | nonzero k => exact Finset.eq_empty_iff_forall_notMem.mp hnonzero k h
  | ascii k => exact Finset.eq_empty_iff_forall_notMem.mp hascii k h
  | boundedFor i c => exact Finset.eq_empty_iff_forall_notMem.mp hbounded (i, c) h

end PrecondSummary

/-! ## Extraction -/

def isNonzeroPrecond (path : String) : Bool :=
  endsWithAny path
    ["::new_unchecked", "::unchecked_new", "::from_mut_unchecked", "ctlz_nonzero", "cttz_nonzero"]

def isAsciiPrecond (path : String) : Bool :=
  endsWithAny path ["::as_ascii_unchecked", "Char::from_u8_unchecked"]

def isIndexPrecond (path : String) : Bool :=
  endsWithAny path ["get_unchecked_mut", "get_unchecked"] && !contains path "pin::Pin"

/-- The parameter passed as first argument, unless `proven` holds of it. -/
def unprovenParam (body : Body) (args : List Operand) (proven : Local → Bool) : Option Nat :=
  (firstArgLocal args).bind fun a => if proven a then none else paramIndex body a

/-- The parameters passed as index and as collection, unless the index is proven to be in
bounds. -/
def unprovenIndex (body : Body) (args : List Operand) (s : BlockState) : Option (Nat × Nat) :=
  (nthArgLocal args 0).bind fun l => (nthArgLocal args 1).bind fun idx =>
    let recv := s.derefBase l
    if s.indexIsBoundedFor idx recv || s.localIsBounded idx then none
    else (paramIndex body recv).bind fun rp => (paramIndex body idx).map fun ip => (ip, rp)

/-- What a call of the function at `path` adds to the summary of its caller. -/
def recordPreconds (body : Body) (path : String) (args : List Operand) (s : BlockState)
    (p : PrecondSummary) : PrecondSummary where
  nonzeroArgs :=
    if isNonzeroPrecond path then
      p.nonzeroArgs ∪ (unprovenParam body args s.localIsNonzero).toFinset
    else p.nonzeroArgs
  asciiArgs :=
    if isAsciiPrecond path then p.asciiArgs ∪ (unprovenParam body args s.localIsAscii).toFinset
    else p.asciiArgs
  boundedForArgs :=
    if isIndexPrecond path then p.boundedForArgs ∪ (unprovenIndex body args s).toFinset
    else p.boundedForArgs

section Extract
variable (tcx : TyCtxt) {body : Body} (flow : FlowResults body)

/-- Add what the call that ends `bb` requires, if there is one and it is reachable. -/
def recordBlock (p : PrecondSummary) (bb : body.BasicBlock) : PrecondSummary :=
  match calledItem body bb, flow.stateBeforeTerminator tcx bb with
  | some (defId, args, _), some s => recordPreconds body (tcx.defPathStr defId) args s p
  | _, _ => p

def extractPrecondSummary : PrecondSummary :=
  (List.finRange body.numBlocks).foldl (recordBlock tcx flow) .default

end Extract

/-- The call passes a parameter of `body` to an unsafe operation that needs `r` of it, and
the state does not prove `r`. -/
def PassesUnguarded (body : Body) (path : String) (args : List Operand) (s : BlockState) :
    Requirement → Prop
  | .nonzero k => isNonzeroPrecond path = true ∧
      ∃ a, firstArgLocal args = some a ∧ s.localIsNonzero a = false ∧ paramIndex body a = some k
  | .ascii k => isAsciiPrecond path = true ∧
      ∃ a, firstArgLocal args = some a ∧ s.localIsAscii a = false ∧ paramIndex body a = some k
  | .boundedFor i c => isIndexPrecond path = true ∧
      ∃ l idx, nthArgLocal args 0 = some l ∧ nthArgLocal args 1 = some idx ∧
        s.indexIsBoundedFor idx (s.derefBase l) = false ∧ s.localIsBounded idx = false ∧
        paramIndex body (s.derefBase l) = some c ∧ paramIndex body idx = some i

theorem unprovenParam_eq_some {body : Body} {args : List Operand} {proven : Local → Bool}
    {k : Nat} : unprovenParam body args proven = some k ↔
      ∃ a, firstArgLocal args = some a ∧ proven a = false ∧ paramIndex body a = some k := by
  unfold unprovenParam
  rw [Option.bind_eq_some_iff]
  refine exists_congr fun a => and_congr_right fun _ => ?_
  cases proven a <;> simp

theorem unprovenIndex_eq_some {body : Body} {args : List Operand} {s : BlockState} {i c : Nat} :
    unprovenIndex body args s = some (i, c) ↔
      ∃ l idx, nthArgLocal args 0 = some l ∧ nthArgLocal args 1 = some idx ∧
        s.indexIsBoundedFor idx (s.derefBase l) = false ∧ s.localIsBounded idx = false ∧
        paramIndex body (s.derefBase l) = some c ∧ paramIndex body idx = some i := by
  unfold unprovenIndex
  simp only [Option.bind_eq_some_iff]
  constructor
  · rintro ⟨l, hl, idx, hidx, h⟩
    split at h
    · cases h
    · rename_i hsafe
      simp only [Bool.or_eq_true, not_or, Bool.not_eq_true] at hsafe
      obtain ⟨rp, hrp, h⟩ := Option.bind_eq_some_iff.mp h
      obtain ⟨ip, hip, heq⟩ := Option.map_eq_some_iff.mp h
      cases heq
      exact ⟨l, idx, hl, hidx, hsafe.1, hsafe.2, hrp, hip⟩
  · rintro ⟨l, idx, hl, hidx, hfor, hbounded, hc, hi⟩
    refine ⟨l, hl, idx, hidx, ?_⟩
    simp only [hfor, hbounded, hc, hi, Bool.or_self, Bool.false_eq_true, if_false,
      Option.bind_some, Option.map_some]

/-- **One call.**  It adds what it passes unguarded, and nothing else. -/
theorem requires_recordPreconds {body : Body} {path : String} {args : List Operand}
    {s : BlockState} {p : PrecondSummary} {r : Requirement} :
    (recordPreconds body path args s p).Requires r ↔
      p.Requires r ∨ PassesUnguarded body path args s r := by
  -- Each of the three sets grows by at most one element, if the path asks for it.
  have hgrow : ∀ {α : Type} [DecidableEq α] (c : Bool) (S : Finset α) (o : Option α) (x : α),
      (x ∈ if c = true then S ∪ o.toFinset else S) ↔ x ∈ S ∨ c = true ∧ o = some x := by
    intro α _ c S o x
    cases c with
    | false => simp
    | true => simp
  cases r with
  | nonzero k => exact (hgrow _ _ _ k).trans (or_congr_right (and_congr_right fun _ =>
      unprovenParam_eq_some))
  | ascii k => exact (hgrow _ _ _ k).trans (or_congr_right (and_congr_right fun _ =>
      unprovenParam_eq_some))
  | boundedFor i c => exact (hgrow _ _ _ (i, c)).trans (or_congr_right (and_congr_right fun _ =>
      unprovenIndex_eq_some))

section Extract
variable {tcx : TyCtxt} {body : Body} {flow : FlowResults body}

/-- A reachable call in `bb` passes a parameter unguarded to an operation that needs `r`. -/
def RequiredIn (tcx : TyCtxt) (flow : FlowResults body) (bb : body.BasicBlock)
    (r : Requirement) : Prop :=
  ∃ defId args span s, calledItem body bb = some (defId, args, span) ∧
    flow.stateBeforeTerminator tcx bb = some s ∧
    PassesUnguarded body (tcx.defPathStr defId) args s r

theorem requires_recordBlock {p : PrecondSummary} {bb : body.BasicBlock} {r : Requirement} :
    (recordBlock tcx flow p bb).Requires r ↔ p.Requires r ∨ RequiredIn tcx flow bb r := by
  unfold recordBlock RequiredIn
  cases hcall : calledItem body bb with
  | none => simp
  | some call =>
    obtain ⟨defId, args, span⟩ := call
    cases hs : flow.stateBeforeTerminator tcx bb with
    | none => simp
    | some s =>
      refine requires_recordPreconds.trans (or_congr_right ?_)
      constructor
      · exact fun h => ⟨defId, args, span, s, rfl, rfl, h⟩
      · rintro ⟨_, _, _, _, heq, hs', h⟩
        cases heq
        cases hs'
        exact h

theorem requires_foldl {bbs : List body.BasicBlock} {p : PrecondSummary} {r : Requirement} :
    (bbs.foldl (recordBlock tcx flow) p).Requires r ↔
      p.Requires r ∨ ∃ bb ∈ bbs, RequiredIn tcx flow bb r := by
  induction bbs generalizing p with
  | nil => simp
  | cons bb bbs ih =>
    rw [List.foldl_cons, ih, requires_recordBlock, or_assoc]
    simp only [List.mem_cons, exists_eq_or_imp]

/-- **What extraction finds.**  A function requires what one of its reachable calls passes
unguarded to an unsafe operation. -/
theorem requires_extractPrecondSummary {r : Requirement} :
    (extractPrecondSummary tcx flow).Requires r ↔ ∃ bb, RequiredIn tcx flow bb r := by
  unfold extractPrecondSummary
  rw [requires_foldl, or_iff_right (PrecondSummary.not_requires_default r)]
  simp only [List.mem_finRange, true_and]

end Extract

/-! ## The pass over the local functions -/

section Map
variable (tcx : TyCtxt) (optimizedMir : DefId → Body) (summaries : SummaryMap)

/-- The flow of a local function. -/
def flowOfFn (did : DefId) : FlowResults (optimizedMir did) :=
  computeFlow tcx (optimizedMir did) summaries

/-- Store the requirements of `did`, unless there are none. -/
def recordFn (m : PrecondSummaryMap) (did : DefId) : PrecondSummaryMap :=
  let ps := extractPrecondSummary tcx (flowOfFn tcx optimizedMir summaries did)
  if ps.isEmpty then m else m.insert did ps

/-- The precondition pass of `run_checks`. -/
def precondMap (localFns : List DefId) : PrecondSummaryMap :=
  localFns.foldl (recordFn tcx optimizedMir summaries) ∅

variable {tcx optimizedMir summaries}

theorem get_recordFn {m : PrecondSummaryMap} {did x : DefId} {ps : PrecondSummary} :
    (recordFn tcx optimizedMir summaries m did).get x = some ps ↔
      (x = did ∧ ps.isEmpty = false ∧
        ps = extractPrecondSummary tcx (flowOfFn tcx optimizedMir summaries x)) ∨
      (m.get x = some ps ∧ (x = did →
        (extractPrecondSummary tcx (flowOfFn tcx optimizedMir summaries x)).isEmpty = true)) := by
  unfold recordFn
  by_cases hx : x = did
  · subst hx
    by_cases hempty : (extractPrecondSummary tcx
        (flowOfFn tcx optimizedMir summaries x)).isEmpty = true
    · rw [if_pos hempty]
      constructor
      · exact fun h => Or.inr ⟨h, fun _ => hempty⟩
      · rintro (⟨_, hne, rfl⟩ | ⟨h, _⟩)
        · rw [hempty] at hne; cases hne
        · exact h
    · rw [if_neg hempty, FMap.get_insert_self]
      constructor
      · rintro ⟨⟩
        exact Or.inl ⟨rfl, Bool.eq_false_iff.mpr hempty, rfl⟩
      · rintro (⟨_, _, rfl⟩ | ⟨_, h⟩)
        · rfl
        · exact absurd (h rfl) hempty
  · have hkeep : (if (extractPrecondSummary tcx
        (flowOfFn tcx optimizedMir summaries did)).isEmpty = true then m
        else m.insert did (extractPrecondSummary tcx
          (flowOfFn tcx optimizedMir summaries did))).get x = m.get x := by
      split
      · rfl
      · exact FMap.get_insert_of_ne m _ hx
    simp only [hkeep, hx, false_and, false_or, false_implies, and_true]

/-- **The map of requirements.**  It has exactly the local functions that require
something. -/
theorem get_precondMap {localFns : List DefId} {x : DefId} {ps : PrecondSummary} :
    (precondMap tcx optimizedMir summaries localFns).get x = some ps ↔
      x ∈ localFns ∧ ps.isEmpty = false ∧
        ps = extractPrecondSummary tcx (flowOfFn tcx optimizedMir summaries x) := by
  have hfold : ∀ (fns : List DefId) (m : PrecondSummaryMap),
      (fns.foldl (recordFn tcx optimizedMir summaries) m).get x = some ps ↔
        (x ∈ fns ∧ ps.isEmpty = false ∧
          ps = extractPrecondSummary tcx (flowOfFn tcx optimizedMir summaries x)) ∨
        (m.get x = some ps ∧ (x ∈ fns →
          (extractPrecondSummary tcx (flowOfFn tcx optimizedMir summaries x)).isEmpty = true)) := by
    intro fns
    induction fns with
    | nil => simp
    | cons did fns ih =>
      intro m
      rw [List.foldl_cons, ih, get_recordFn]
      simp only [List.mem_cons]
      grind
  unfold precondMap
  rw [hfold]
  simp

end Map

/-! ## The checker -/

namespace PrecondPropagation

/-- The characters of a reversed path after the first `::`. -/
def dropSegment : List Char → Option (List Char)
  | ':' :: ':' :: cs => some cs
  | _ :: cs => dropSegment cs
  | [] => none

/-- The last two segments of a path. -/
def calleeShort (path : String) : String :=
  match dropSegment path.toList.reverse with
  | none => AssumeInit.lastSegment path
  | some rest =>
      String.ofList (takeSegment rest).reverse ++ "::" ++ AssumeInit.lastSegment path

/-- The text of a finding. -/
def message (callee : String) : Requirement → String
  | .nonzero k =>
      "`" ++ callee ++ "` requires arg[" ++ toString k ++ "] to be nonzero, " ++
      "but the value is not provably nonzero at this call site; " ++
      "`" ++ callee ++ "` is a safe function that internally calls " ++
      "unsafe code without verifying this precondition — the caller " ++
      "can trigger UB without writing `unsafe`"
  | .ascii k =>
      "`" ++ callee ++ "` requires arg[" ++ toString k ++ "] to be valid ASCII (≤ 127), " ++
      "but the value is not provably ASCII at this call site; " ++
      "`" ++ callee ++ "` is a safe function that internally calls " ++
      "`as_ascii_unchecked` without verifying this precondition"
  | .boundedFor i c =>
      "`" ++ callee ++ "` requires arg[" ++ toString i ++ "] < arg[" ++ toString c ++
      "].len(), but the index is not provably in-bounds at this call site; " ++
      "`" ++ callee ++ "` is a safe function wrapping `get_unchecked` without " ++
      "a bounds check — the caller can trigger an out-of-bounds read via safe code"

def violation (callee : String) (span : Span) (r : Requirement) : Finding :=
  ⟨"precond_violation", .warning, span, message callee r⟩

/-- The argument is a local that is not proven to be as required, and no parameter. -/
def unmetArg (body : Body) (args : List Operand) (proven : Local → Bool) (k : Nat) : Bool :=
  (nthArgLocal args k).any fun l => !proven l && (paramIndex body l).isNone

/-- The index argument is a local that is not proven to be in bounds of the collection
argument, and no parameter. -/
def unmetIndex (body : Body) (args : List Operand) (s : BlockState) (p : Nat × Nat) : Bool :=
  (nthArgLocal args p.1).any fun idx => (nthArgLocal args p.2).any fun l =>
    !(s.indexIsBoundedFor idx (s.derefBase l) || s.localIsBounded idx)
      && (paramIndex body idx).isNone

/-- The requirements in `ps` that are reported at a call with the given arguments. -/
def violated (body : Body) (args : List Operand) (s : BlockState) (ps : PrecondSummary) :
    List Requirement :=
  ((ps.nonzeroArgs.sort (· ≤ ·)).filter (unmetArg body args s.localIsNonzero)).map .nonzero ++
  ((ps.asciiArgs.sort (· ≤ ·)).filter (unmetArg body args s.localIsAscii)).map .ascii ++
  ((((ps.boundedForArgs.image toLex).sort (· ≤ ·)).map ofLex).filter
    (unmetIndex body args s)).map fun p => .boundedFor p.1 p.2

section
variable (tcx : TyCtxt) {body : Body} (flow : FlowResults body) (m : PrecondSummaryMap)

/-- The requirements that are reported for the call that ends `bb`. -/
def violatedIn (bb : body.BasicBlock) : List Requirement :=
  match calledItem body bb with
  | none => []
  | some (defId, args, _) =>
      match m.get defId, flow.stateBeforeTerminator tcx bb with
      | some ps, some s => if ps.isEmpty then [] else violated body args s ps
      | _, _ => []

/-- What the checker reports for `bb`. -/
def checkBlock (bb : body.BasicBlock) : List Finding :=
  match calledItem body bb with
  | none => []
  | some (defId, _, span) =>
      (violatedIn tcx flow m bb).map (violation (calleeShort (tcx.defPathStr defId)) span)

/-- `precondSummaries` is missing while summaries are extracted. -/
def check (precondSummaries : Option PrecondSummaryMap) : List Finding :=
  match precondSummaries with
  | none => []
  | some m => (List.finRange body.numBlocks).flatMap (checkBlock tcx flow m)

end

end PrecondPropagation

/-! ## Handled requirements -/

namespace Requirement

/-- The state before the call proves the requirement. -/
def Proven (s : BlockState) (args : List Operand) : Requirement → Prop
  | nonzero k => ∃ l, nthArgLocal args k = some l ∧ s.localIsNonzero l = true
  | ascii k => ∃ l, nthArgLocal args k = some l ∧ s.localIsAscii l = true
  | boundedFor i c => ∃ idx, nthArgLocal args i = some idx ∧ (s.localIsBounded idx = true ∨
      ∃ l, nthArgLocal args c = some l ∧ s.indexIsBoundedFor idx (s.derefBase l) = true)

/-- The argument is a constant with the given property. -/
def ConstantArg (args : List Operand) (k : Nat) (p : Nat → Prop) : Prop :=
  ∃ c v, args[k]? = some (.constant c) ∧ c.scalarInt = some v ∧ p v.val

/-- The argument is a constant that is as required. -/
def MetByConstant (args : List Operand) : Requirement → Prop
  | nonzero k => ConstantArg args k (· ≠ 0)
  | ascii k => ConstantArg args k (· ≤ 127)
  | boundedFor _ _ => False

/-- What the requirement of the callee means for the parameters of the caller, if the
arguments are parameters. -/
def onParams (body : Body) (s : BlockState) (args : List Operand) :
    Requirement → Option Requirement
  | nonzero k => ((nthArgLocal args k).bind (paramIndex body)).map nonzero
  | ascii k => ((nthArgLocal args k).bind (paramIndex body)).map ascii
  | boundedFor i c => ((nthArgLocal args i).bind (paramIndex body)).bind fun ip =>
      (((nthArgLocal args c).map s.derefBase).bind (paramIndex body)).map (boundedFor ip)

/-- The checker can see the arguments: they are whole locals, and the one the requirement is
about is no parameter. -/
def Visible (body : Body) (args : List Operand) : Requirement → Prop
  | nonzero k => ∃ l, nthArgLocal args k = some l ∧ paramIndex body l = none
  | ascii k => ∃ l, nthArgLocal args k = some l ∧ paramIndex body l = none
  | boundedFor i c => (∃ idx, nthArgLocal args i = some idx ∧ paramIndex body idx = none) ∧
      ∃ l, nthArgLocal args c = some l

end Requirement

namespace PrecondPropagation

section
variable {tcx : TyCtxt} {body : Body} {flow : FlowResults body} {m : PrecondSummaryMap}
  {args : List Operand} {s : BlockState} {ps : PrecondSummary} {r : Requirement}

theorem unmetArg_iff {proven : Local → Bool} {k : Nat} : unmetArg body args proven k = true ↔
    ∃ l, nthArgLocal args k = some l ∧ proven l = false ∧ paramIndex body l = none := by
  simp only [unmetArg, Option.any_eq_true, Bool.and_eq_true, Bool.not_eq_true',
    Option.isNone_iff_eq_none]

theorem unmetIndex_iff {i c : Nat} : unmetIndex body args s (i, c) = true ↔
    ∃ idx, nthArgLocal args i = some idx ∧ ∃ l, nthArgLocal args c = some l ∧
      (s.indexIsBoundedFor idx (s.derefBase l) = false ∧ s.localIsBounded idx = false) ∧
      paramIndex body idx = none := by
  simp only [unmetIndex, Option.any_eq_true, Bool.and_eq_true, Bool.not_eq_true',
    Bool.or_eq_false_iff, Option.isNone_iff_eq_none]

/-- **What is reported.**  A requirement is reported if the checker sees its arguments and
the state does not prove it. -/
theorem mem_violated :
    r ∈ violated body args s ps ↔ ps.Requires r ∧ r.Visible body args ∧ ¬ r.Proven s args := by
  cases r with
  | nonzero k =>
    simp only [violated, List.mem_append, List.mem_map, List.mem_filter, Finset.mem_sort,
      Requirement.nonzero.injEq, exists_eq_right, reduceCtorEq, and_false, exists_false, or_false,
      unmetArg_iff, PrecondSummary.Requires, Requirement.Visible, Requirement.Proven]
    grind
  | ascii k =>
    simp only [violated, List.mem_append, List.mem_map, List.mem_filter, Finset.mem_sort,
      Requirement.ascii.injEq, exists_eq_right, reduceCtorEq, and_false, exists_false, or_false,
      false_or, unmetArg_iff, PrecondSummary.Requires, Requirement.Visible, Requirement.Proven]
    grind
  | boundedFor i c =>
    simp only [violated, List.mem_append, List.mem_map, List.mem_filter, Finset.mem_sort,
      Finset.mem_image, reduceCtorEq, and_false, exists_false, false_or, Prod.exists,
      Requirement.boundedFor.injEq, PrecondSummary.Requires, Requirement.Visible,
      Requirement.Proven]
    constructor
    · rintro ⟨i', c', ⟨⟨_, ⟨⟨a, b, hmem, rfl⟩, heq⟩⟩, hunmet⟩, rfl, rfl⟩
      cases heq
      obtain ⟨idx, hidx, l, hl, hfalse, hparam⟩ := unmetIndex_iff.mp hunmet
      refine ⟨hmem, ⟨⟨idx, hidx, hparam⟩, l, hl⟩, ?_⟩
      grind
    · rintro ⟨hmem, ⟨⟨idx, hidx, hparam⟩, l, hl⟩, hproven⟩
      refine ⟨i, c, ⟨⟨toLex (i, c), ⟨i, c, hmem, rfl⟩, rfl⟩, ?_⟩, rfl, rfl⟩
      refine unmetIndex_iff.mpr ⟨idx, hidx, l, hl, ?_, hparam⟩
      grind

theorem violatedIn_eq {bb : body.BasicBlock} {g : DefId} {span : Span}
    (hcall : calledItem body bb = some (g, args, span))
    (hs : flow.stateBeforeTerminator tcx bb = some s) (hps : m.get g = some ps)
    (hr : ps.Requires r) : violatedIn tcx flow m bb = violated body args s ps := by
  unfold violatedIn
  simp only [hcall, hps, hs, PrecondSummary.not_isEmpty_of_requires hr, Bool.false_eq_true,
    if_false]

/-- What is reported for a block is reported. -/
theorem violation_mem_check {bb : body.BasicBlock} {g : DefId} {span : Span}
    (hcall : calledItem body bb = some (g, args, span)) (h : r ∈ violatedIn tcx flow m bb) :
    violation (calleeShort (tcx.defPathStr g)) span r ∈ check tcx flow (some m) := by
  refine List.mem_flatMap.mpr ⟨bb, List.mem_finRange bb, ?_⟩
  simp only [checkBlock, hcall]
  exact List.mem_map_of_mem h

end

end PrecondPropagation

section Handled
variable (tcx : TyCtxt) (optimizedMir : DefId → Body) (summaries : SummaryMap)
  (localFns : List DefId)

/-- The requirement `r` of the function called at the end of `bb` is not lost: the caller `f`
proves it, passes a constant that is as required, is reported, or has the requirement
itself. -/
def Handled (f : DefId) (bb : (optimizedMir f).BasicBlock) (args : List Operand) (s : BlockState)
    (r : Requirement) : Prop :=
  r.Proven s args ∨ r.MetByConstant args ∨
    r ∈ PrecondPropagation.violatedIn tcx (flowOfFn tcx optimizedMir summaries f)
      (precondMap tcx optimizedMir summaries localFns) bb ∨
    ∃ r' own, r.onParams (optimizedMir f) s args = some r' ∧
      (precondMap tcx optimizedMir summaries localFns).get f = some own ∧ own.Requires r'

variable {tcx optimizedMir summaries localFns}

/-- A local function has the requirements that its calls give it. -/
theorem requires_of_mem {f : DefId} (hf : f ∈ localFns) {r : Requirement} :
    (∃ own, (precondMap tcx optimizedMir summaries localFns).get f = some own ∧
      own.Requires r) ↔ ∃ bb, RequiredIn tcx (flowOfFn tcx optimizedMir summaries f) bb r := by
  rw [← requires_extractPrecondSummary]
  constructor
  · rintro ⟨own, hget, hr⟩
    obtain ⟨_, _, rfl⟩ := get_precondMap.mp hget
    exact hr
  · exact fun hr => ⟨_, get_precondMap.mpr
      ⟨hf, PrecondSummary.not_isEmpty_of_requires hr, rfl⟩, hr⟩

/-- **Which requirements are handled.**  A requirement of a called function is handled exactly
if the state proves it, a constant meets it, the argument is a whole local other than a
parameter, or the argument is a parameter that the caller itself passes unguarded to an
unsafe operation.  And what the checker reports for the call is among its findings. -/
theorem precondition_handled_iff {f g : DefId} (hf : f ∈ localFns)
    {bb : (optimizedMir f).BasicBlock} {args : List Operand} {span : Span} {s : BlockState}
    {ps : PrecondSummary} {r : Requirement}
    (hcall : calledItem (optimizedMir f) bb = some (g, args, span))
    (hs : (flowOfFn tcx optimizedMir summaries f).stateBeforeTerminator tcx bb = some s)
    (hps : (precondMap tcx optimizedMir summaries localFns).get g = some ps)
    (hr : ps.Requires r) :
    (Handled tcx optimizedMir summaries localFns f bb args s r ↔
      r.Proven s args ∨ r.MetByConstant args ∨ r.Visible (optimizedMir f) args ∨
        ∃ r' bb', r.onParams (optimizedMir f) s args = some r' ∧
          RequiredIn tcx (flowOfFn tcx optimizedMir summaries f) bb' r') ∧
    (r ∈ PrecondPropagation.violatedIn tcx (flowOfFn tcx optimizedMir summaries f)
        (precondMap tcx optimizedMir summaries localFns) bb →
      PrecondPropagation.violation (PrecondPropagation.calleeShort (tcx.defPathStr g)) span r ∈
        PrecondPropagation.check tcx (flowOfFn tcx optimizedMir summaries f)
          (some (precondMap tcx optimizedMir summaries localFns))) := by
  refine ⟨?_, PrecondPropagation.violation_mem_check hcall⟩
  have hpassed : (∃ r' own, r.onParams (optimizedMir f) s args = some r' ∧
      (precondMap tcx optimizedMir summaries localFns).get f = some own ∧ own.Requires r') ↔
      ∃ r' bb', r.onParams (optimizedMir f) s args = some r' ∧
        RequiredIn tcx (flowOfFn tcx optimizedMir summaries f) bb' r' := by
    refine exists_congr fun r' => ?_
    rw [exists_and_left, exists_and_left, requires_of_mem hf]
  unfold Handled
  rw [hpassed, PrecondPropagation.violatedIn_eq hcall hs hps hr, PrecondPropagation.mem_violated]
  -- A visible argument that is not reported is proven.
  by_cases hproven : r.Proven s args
  · simp only [hproven, true_or]
  · simp only [hproven, hr, false_or, true_and, not_false_eq_true, and_true]

end Handled

/-! ### A wrapper of a function with a requirement -/

/-- `fn foo(x) { NonZero::new_unchecked(x) }`. -/
def newNonzero : Body :=
  .ofBlocks 0 1 [.other, .uint .u32] 1
    (fun bb => [.of [] (.callTo 3 [.ofNat 1] 0 (bb 1)), .of [] .return]) (by decide)

/-- `fn bar(n) { foo(n) }`. -/
def wrapNonzero : Body :=
  .ofBlocks 1 1 [.other, .uint .u32] 1
    (fun bb => [.of [] (.callTo 0 [.ofNat 1] 0 (bb 1)), .of [] .return]) (by decide)

/-- `fn baz() { let n = ..; foo(n) }`. -/
def useNonzero : Body :=
  .ofBlocks 2 0 [.other, .uint .u32] 1
    (fun bb => [.of [.set 1 .other] (.callTo 0 [.ofNat 1] 0 (bb 1)), .of [] .return]) (by decide)

def nonzeroFns (did : DefId) : Body :=
  if did.index = 0 then newNonzero else if did.index = 1 then wrapNonzero else useNonzero

def nonzeroPaths : TyCtxt :=
  .ofPaths ["foo", "bar", "baz", "core::num::NonZero::<T>::new_unchecked"]

/-- The local functions, by number. -/
def nonzeroLocalFns : List DefId := [⟨0, 0⟩, ⟨0, 1⟩, ⟨0, 2⟩]

/-- A state before the call in block `bb` of one of these functions, of which `q` is true. -/
theorem nonzeroFns_state (did : DefId) (bb : (nonzeroFns did).BasicBlock) (q : BlockState → Bool)
    (hdone : ((AssumeInit.flowOf nonzeroPaths (nonzeroFns did) ∅).step^[2]
      (AssumeInit.flowOf nonzeroPaths (nonzeroFns did) ∅).initial).work = [])
    (h : (((AssumeInit.flowOf nonzeroPaths (nonzeroFns did) ∅).step^[2]
      (AssumeInit.flowOf nonzeroPaths (nonzeroFns did) ∅).initial).entry bb).any (fun s =>
        q (applyStatements nonzeroPaths (nonzeroFns did)
          ((nonzeroFns did).basicBlocks bb).statements s)) = true) :
    ∃ s, (flowOfFn nonzeroPaths nonzeroFns ∅ did).stateBeforeTerminator nonzeroPaths bb = some s ∧
      q s = true := by
  obtain ⟨s, hs, hq⟩ := FlowProblem.exists_solution hdone h
  exact ⟨_, congrArg (Option.map _) hs, hq⟩

/-- `foo` requires its argument to be nonzero. -/
theorem newNonzero_requires : ∃ ps,
    (precondMap nonzeroPaths nonzeroFns ∅ nonzeroLocalFns).get ⟨0, 0⟩ = some ps ∧
      ps.Requires (.nonzero 0) := by
  obtain ⟨s, hs, hfalse⟩ := nonzeroFns_state ⟨0, 0⟩ (0 : Fin 2)
    (fun s => !s.localIsNonzero (Local.ofNat 1)) (by decide +kernel) (by decide +kernel)
  have hcall : calledItem (nonzeroFns ⟨0, 0⟩) (0 : Fin 2) = some (⟨0, 3⟩, [.ofNat 1], .none) := rfl
  have hpass : PassesUnguarded (nonzeroFns ⟨0, 0⟩) (nonzeroPaths.defPathStr ⟨0, 3⟩) [.ofNat 1] s
      (.nonzero 0) :=
    ⟨by decide +kernel, Local.ofNat 1, rfl, (Bool.not_eq_true' _).mp hfalse, by decide⟩
  exact (requires_of_mem (by decide)).mpr ⟨_, _, _, _, s, hcall, hs, hpass⟩

/-- The call in `baz` is not proven, but it is reported. -/
theorem useNonzero_handled : ∃ s ps,
    (precondMap nonzeroPaths nonzeroFns ∅ nonzeroLocalFns).get ⟨0, 0⟩ = some ps ∧
    ps.Requires (.nonzero 0) ∧
    Handled nonzeroPaths nonzeroFns ∅ nonzeroLocalFns ⟨0, 2⟩ (0 : Fin 2) [.ofNat 1] s
      (.nonzero 0) := by
  obtain ⟨ps, hps, hr⟩ := newNonzero_requires
  obtain ⟨s, hs, _⟩ := nonzeroFns_state ⟨0, 2⟩ (0 : Fin 2) (fun _ => true)
    (by decide +kernel) (by decide +kernel)
  have hcall : calledItem (nonzeroFns ⟨0, 2⟩) (0 : Fin 2) = some (⟨0, 0⟩, [.ofNat 1], .none) := rfl
  have hvisible : Requirement.Visible (nonzeroFns ⟨0, 2⟩) [.ofNat 1] (.nonzero 0) :=
    ⟨Local.ofNat 1, rfl, by decide⟩
  exact ⟨s, ps, hps, hr, (precondition_handled_iff (by decide) hcall hs hps hr).1.mpr
    (Or.inr (Or.inr (Or.inl hvisible)))⟩

/-- The only function that `bar` calls is `foo`. -/
theorem wrapNonzero_calls : ∀ (bb : Fin 2) {did args span},
    calledItem (nonzeroFns ⟨0, 1⟩) bb = some (did, args, span) → did = ⟨0, 0⟩ :=
  Fin.forall_fin_two.mpr ⟨fun h => by cases h; rfl, fun h => by cases h⟩

/-- **A wrapper loses the requirement.**  `bar` passes its parameter on to `foo`, which
requires it to be nonzero.  The state of `bar` proves nothing, `bar` gets no requirement of
its own, and nothing is reported. -/
theorem wrapper_requirement_dropped : ∃ s ps,
    calledItem (nonzeroFns ⟨0, 1⟩) (0 : Fin 2) = some (⟨0, 0⟩, [.ofNat 1], .none) ∧
    (flowOfFn nonzeroPaths nonzeroFns ∅ ⟨0, 1⟩).stateBeforeTerminator nonzeroPaths (0 : Fin 2) =
      some s ∧
    (precondMap nonzeroPaths nonzeroFns ∅ nonzeroLocalFns).get ⟨0, 0⟩ = some ps ∧
    ps.Requires (.nonzero 0) ∧
    ¬ Handled nonzeroPaths nonzeroFns ∅ nonzeroLocalFns ⟨0, 1⟩ (0 : Fin 2) [.ofNat 1] s
      (.nonzero 0) := by
  obtain ⟨ps, hps, hr⟩ := newNonzero_requires
  obtain ⟨s, hs, hfalse⟩ := nonzeroFns_state ⟨0, 1⟩ (0 : Fin 2)
    (fun s => !s.localIsNonzero (Local.ofNat 1)) (by decide +kernel) (by decide +kernel)
  have hcall : calledItem (nonzeroFns ⟨0, 1⟩) (0 : Fin 2) = some (⟨0, 0⟩, [.ofNat 1], .none) := rfl
  refine ⟨s, ps, hcall, hs, hps, hr, ?_⟩
  rintro (⟨l, hl, hnonzero⟩ | ⟨c, v, harg, _⟩ | hreported | ⟨r', own, hparam, hget, hown⟩)
  · cases hl
    exact Bool.noConfusion (hnonzero.symm.trans ((Bool.not_eq_true' _).mp hfalse))
  · cases harg
  · rw [PrecondPropagation.violatedIn_eq hcall hs hps hr,
      PrecondPropagation.mem_violated] at hreported
    obtain ⟨_, ⟨l, hl, hparam⟩, _⟩ := hreported
    cases hl
    revert hparam
    decide
  · -- The only call in `bar` is that of `foo`, which is no unsafe operation.
    cases hparam
    obtain ⟨bb, did, args, span, s', hcall', _, hpath, _⟩ :=
      (requires_of_mem (by decide)).mp ⟨own, hget, hown⟩
    rw [wrapNonzero_calls bb hcall'] at hpath
    revert hpath
    decide +kernel

end San
