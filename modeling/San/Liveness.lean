import San.Footprint

/-! # Relating a run to its paths through live locals

Conditional facts and pointers of a dead temporary may differ between the
predecessors of a block without harm.  This module states which locals a statement
or a terminator *reads* and which it *settles* (leaves with data that depends on what
was read only), what it means for an assignment of locals to blocks to be *live* for
a body, and the rule that the path results share: a relation between two states that
is indexed by the locals on which they agree, and that statements, terminators and
edges respect, relates the fixpoint to every path
(`Usage.Respects.solution_of_path`).
-/
namespace San

/-! ## Reading and settling -/

def Operand.base (op : Operand) : Option Local := op.place.map Place.base

/-- The locals an rvalue reads or borrows. -/
def Rvalue.reads : Rvalue → List Local
  | .use op => op.base.toList
  | .ref p => [p.base]
  | .rawPtr p => [p.base]
  | .cast _ op _ => op.base.toList
  | .binaryOp _ op1 op2 => op1.base.toList ++ op2.base.toList
  | .unaryOp _ op => op.base.toList
  | .aggregate _ ops => ops.filterMap Operand.base
  | .other => []

/-- A store below a local counts as a read of the local. -/
def Statement.reads (stmt : Statement) : List Local :=
  match stmt.kind with
  | .assign dst rvalue => rvalue.reads ++ (if dst.isLocal then [] else [dst.base])
  | .other => []

/-- Numeric casts and overflow-checked operations leave facts of their destination as
they were. -/
def Rvalue.keepsFacts : Rvalue → Bool
  | .cast kind op _ => kind.isNumeric && (operandLocal op).isSome
  | .binaryOp op _ _ => op == .mulWithOverflow || op == .addWithOverflow
  | _ => false

/-- The local that an assignment settles. -/
def Statement.settles (stmt : Statement) : Finset Local :=
  match stmt.kind with
  | .assign dst rvalue => if dst.isLocal && !rvalue.keepsFacts then {dst.base} else ∅
  | .other => ∅

def Terminator.reads {n : Nat} (term : Terminator n) : List Local :=
  match term.kind with
  | .switchInt discr _ => discr.base.toList
  | .call _ args _ _ _ => args.filterMap Operand.base
  | .assert cond _ _ _ => cond.base.toList
  | _ => []

/-- A call to a known function settles its destination, if that is a whole local. -/
def callSettles (func : Operand) (destination : Place) : Finset Local :=
  if func.constFnDef.isSome && destination.isLocal then {destination.base} else ∅

def Terminator.settles {n : Nat} (term : Terminator n) : Finset Local :=
  match term.kind with
  | .call func _ destination _ _ => callSettles func destination
  | _ => ∅

theorem union_callSettles_subset (L : Finset Local) (func : Operand) (destination : Place) :
    L ∪ callSettles func destination ⊆ insert destination.base L := by
  refine Finset.union_subset (Finset.subset_insert _ L) ?_
  unfold callSettles
  split
  · exact Finset.singleton_subset_iff.mpr (Finset.mem_insert_self _ L)
  · exact Finset.empty_subset _

theorem callSettles_of_projected {destination : Place} (h : ¬destination.isLocal = true)
    (func : Operand) : callSettles func destination = ∅ := by
  unfold callSettles
  rw [if_neg fun hc => h (Bool.and_eq_true_iff.mp hc).2]

/-- A call whose callee is not known is not a call to a function item. -/
theorem callSettles_of_unresolved {tcx : TyCtxt} {body : Body} {func : Operand} {s : BlockState}
    (h : resolveCallee tcx body func s = none) (destination : Place) :
    callSettles func destination = ∅ := by
  unfold callSettles
  cases hconst : func.constFnDef with
  | none => rfl
  | some item =>
      unfold resolveCallee at h
      rw [hconst] at h
      dsimp only at h
      split at h
      · split at h <;> cases h
      · cases h

theorem operandLocal_base {op : Operand} {l : Local} (h : operandLocal op = some l) :
    op.base = some l := by
  cases op with
  | constant c => cases h
  | copy p =>
      simp only [operandLocal] at h
      split at h
      · exact h
      · cases h
  | move p =>
      simp only [operandLocal] at h
      split at h
      · exact h
      · cases h

theorem nthArgLocal_mem {args : List Operand} {i : Nat} {l : Local}
    (h : nthArgLocal args i = some l) : l ∈ args.filterMap Operand.base := by
  obtain ⟨op, hop, hl⟩ := Option.bind_eq_some_iff.mp h
  exact List.mem_filterMap.mpr ⟨op, List.mem_of_getElem? hop, operandLocal_base hl⟩

theorem firstArgBaseLocal_mem {args : List Operand} {l : Local}
    (h : firstArgBaseLocal args = some l) : l ∈ args.filterMap Operand.base := by
  obtain ⟨place, hplace, rfl⟩ := Option.map_eq_some_iff.mp h
  obtain ⟨arg, harg, hp⟩ := Option.bind_eq_some_iff.mp hplace
  refine List.mem_filterMap.mpr ⟨arg, List.mem_of_getElem? harg, ?_⟩
  unfold Operand.base
  rw [hp]
  rfl

/-- The locals settled once `rvalue` has been assigned to `dst`. -/
def Rvalue.settling (rvalue : Rvalue) (dst : Local) (C : Finset Local) : Finset Local :=
  if rvalue.keepsFacts then C else insert dst C

theorem Rvalue.settling_of_keeps {rvalue : Rvalue} (h : rvalue.keepsFacts = true) (dst : Local)
    (C : Finset Local) : rvalue.settling dst C = C := if_pos h

theorem Rvalue.settling_of_not_keeps {rvalue : Rvalue} (h : rvalue.keepsFacts = false) (dst : Local)
    (C : Finset Local) : rvalue.settling dst C = insert dst C := if_neg (by simp [h])

/-- An assignment to a whole local settles no more than the local. -/
theorem union_settles_subset_settling (L : Finset Local) (dst : Local) (rvalue : Rvalue) :
    L ∪ (if true && !rvalue.keepsFacts then {dst} else ∅) ⊆ rvalue.settling dst L := by
  cases hkeeps : rvalue.keepsFacts with
  | true =>
      rw [Rvalue.settling_of_keeps hkeeps]
      exact (Finset.union_empty L).subset
  | false =>
      rw [Rvalue.settling_of_not_keeps hkeeps, Finset.insert_eq, Finset.union_comm]
      exact Finset.Subset.refl _

theorem Rvalue.settling_subset (rvalue : Rvalue) (dst : Local) (L : Finset Local) :
    rvalue.settling dst L ⊆ insert dst L := by
  unfold Rvalue.settling
  split
  · exact Finset.subset_insert dst L
  · exact Finset.Subset.refl _

/-! ## Borrowed locals -/

/-- The local whose borrow `ref_base` remembers. -/
def Rvalue.borrows : Rvalue → List Local
  | .ref ⟨base, []⟩ => [base]
  | .ref ⟨base, [.deref]⟩ => [base]
  | _ => []

def Statement.borrows (stmt : Statement) : List Local :=
  match stmt.kind with
  | .assign _ rvalue => rvalue.borrows
  | .other => []

/-- A `deref` call returns a view of its first argument. -/
def Terminator.borrows {n : Nat} (term : Terminator n) : List Local :=
  match term.kind with
  | .call _ args _ _ _ => (firstArgLocal args).toList
  | _ => []

/-- The locals that `ref_base` may lead to. -/
def Body.borrowed (body : Body) : Finset Local :=
  Finset.univ.biUnion fun b =>
    ((body.basicBlocks b).statements.flatMap Statement.borrows ++
      ((body.basicBlocks b).terminator.map Terminator.borrows).getD []).toFinset

theorem Body.borrowed_of_statement {body : Body} {b : body.BasicBlock} {stmt : Statement}
    (h : stmt ∈ (body.basicBlocks b).statements) {l : Local} (hl : l ∈ stmt.borrows) :
    l ∈ body.borrowed := by
  refine Finset.mem_biUnion.mpr ⟨b, Finset.mem_univ b, List.mem_toFinset.mpr ?_⟩
  exact List.mem_append_left _ (List.mem_flatMap.mpr ⟨stmt, h, hl⟩)

theorem Body.borrowed_of_terminator {body : Body} {b : body.BasicBlock}
    {term : Terminator body.numBlocks} (h : (body.basicBlocks b).terminator = some term) {l : Local}
    (hl : l ∈ term.borrows) : l ∈ body.borrowed := by
  refine Finset.mem_biUnion.mpr ⟨b, Finset.mem_univ b, List.mem_toFinset.mpr ?_⟩
  rw [h]
  exact List.mem_append_right _ hl

/-- The targets of `ref_base` are borrowed locals. -/
def RefsInto (B : Finset Local) (s : BlockState) : Prop :=
  ∀ l base, (s.facts .refBase).get l = some base → base ∈ B

/-! ## Live locals -/

/-- What a relation needs of a body beyond reading and settling by statements: the
locals that count as live everywhere, and what each terminator settles. -/
structure Usage (body : Body) where
  always : Finset Local
  settles : Terminator body.numBlocks → Finset Local

namespace Usage
variable {body : Body} (u : Usage body)

/-- The locals settled or live after the statements. -/
def after (L : Finset Local) (stmts : List Statement) : Finset Local :=
  stmts.foldl (fun L stmt => L ∪ stmt.settles) L

/-- Every statement reads live or settled locals only. -/
def ReadsLive : Finset Local → List Statement → Prop
  | _, [] => True
  | L, stmt :: rest => (∀ l ∈ stmt.reads, l ∈ L) ∧ ReadsLive (L ∪ stmt.settles) rest

instance decidableReadsLive : ∀ (L : Finset Local) (stmts : List Statement),
    Decidable (ReadsLive L stmts)
  | _, [] => isTrue trivial
  | L, stmt :: rest =>
      have := decidableReadsLive (L ∪ stmt.settles) rest
      inferInstanceAs (Decidable (_ ∧ _))

def terminatorReads (body : Body) (b : body.BasicBlock) : List Local :=
  ((body.basicBlocks b).terminator.map Terminator.reads).getD []

def terminatorSettles (b : body.BasicBlock) : Finset Local :=
  ((body.basicBlocks b).terminator.map u.settles).getD ∅

/-- `live` contains, for every block, what may be read after its entry before it is
settled. -/
structure Live (live : body.BasicBlock → Finset Local) : Prop where
  always : ∀ b, u.always ⊆ live b
  statements : ∀ b, ReadsLive (live b) (body.basicBlocks b).statements
  terminator : ∀ b, ∀ l ∈ terminatorReads body b,
    l ∈ after (live b) (body.basicBlocks b).statements
  edges : ∀ b, ∀ s ∈ blockSuccessors (body.basicBlocks b),
    live s ⊆ after (live b) (body.basicBlocks b).statements ∪ u.terminatorSettles b

instance (live : body.BasicBlock → Finset Local) : Decidable (u.Live live) :=
  decidable_of_iff ((∀ b, u.always ⊆ live b) ∧
      (∀ b, ReadsLive (live b) (body.basicBlocks b).statements) ∧
      (∀ b, ∀ l ∈ terminatorReads body b, l ∈ after (live b) (body.basicBlocks b).statements) ∧
      ∀ b, ∀ s ∈ blockSuccessors (body.basicBlocks b),
        live s ⊆ after (live b) (body.basicBlocks b).statements ∪ u.terminatorSettles b)
    ⟨fun ⟨halways, hstmts, hterm, hedges⟩ => ⟨halways, hstmts, hterm, hedges⟩,
      fun h => ⟨h.always, h.statements, h.terminator, h.edges⟩⟩

/-! ## Relations that the transfer functions respect -/

/-- `R L` relates two states that agree on the locals `L`; reading inside `L` keeps the
relation and settling extends `L`. -/
structure Respects (tcx : TyCtxt) (summaries : SummaryMap)
    (R : Finset Local → BlockState → BlockState → Prop) : Prop where
  mono : ∀ {L L' : Finset Local} {s t : BlockState}, L' ⊆ L → u.always ⊆ L' → R L s t → R L' s t
  statement : ∀ {L : Finset Local} {s t : BlockState} (b : body.BasicBlock),
    ∀ stmt ∈ (body.basicBlocks b).statements, u.always ⊆ L → (∀ l ∈ stmt.reads, l ∈ L) →
    R L s t → R (L ∪ stmt.settles) (applyStatement tcx body stmt s) (applyStatement tcx body stmt t)
  terminator : ∀ {L : Finset Local} {s t : BlockState} (b : body.BasicBlock)
    (term : Terminator body.numBlocks), (body.basicBlocks b).terminator = some term →
    u.always ⊆ L → (∀ l ∈ term.reads, l ∈ L) → R L s t →
    R (L ∪ u.settles term) (applyTerminator tcx body summaries b.val term s)
      (applyTerminator tcx body summaries b.val term t)
  edge : ∀ {L : Finset Local} {s t : BlockState} (term : Terminator body.numBlocks)
    (succ : body.BasicBlock), (∀ l ∈ term.reads, l ∈ L) → R L s t →
    R L (refineSwitchintEdge term succ s) (refineSwitchintEdge term succ t)

namespace Respects
variable {u} {tcx : TyCtxt} {summaries : SummaryMap}
  {R : Finset Local → BlockState → BlockState → Prop} (h : u.Respects tcx summaries R)
include h

theorem statements (b : body.BasicBlock) {stmts : List Statement}
    (hsub : ∀ stmt ∈ stmts, stmt ∈ (body.basicBlocks b).statements) {L : Finset Local}
    {s t : BlockState} (halways : u.always ⊆ L) (hreads : ReadsLive L stmts) (hst : R L s t) :
    R (after L stmts) (applyStatements tcx body stmts s) (applyStatements tcx body stmts t) := by
  induction stmts generalizing L s t with
  | nil => exact hst
  | cons stmt rest ih =>
      have hstmt := h.statement b stmt (hsub stmt List.mem_cons_self) halways hreads.1 hst
      exact ih (fun x hx => hsub x (List.mem_cons_of_mem stmt hx))
        (halways.trans Finset.subset_union_left) hreads.2 hstmt

omit h in
theorem subset_after (L : Finset Local) (stmts : List Statement) : L ⊆ after L stmts := by
  induction stmts generalizing L with
  | nil => exact Finset.Subset.refl L
  | cons stmt rest ih => exact Finset.subset_union_left.trans (ih (L ∪ stmt.settles))

/-- **Edges respect the relation** at the live locals of their ends. -/
theorem edgeState {live : body.BasicBlock → Finset Local} (hlive : u.Live live)
    {b succ : body.BasicBlock} (hsucc : succ ∈ blockSuccessors (body.basicBlocks b))
    {s t : BlockState} (hst : R (live b) s t) :
    R (live succ) (edgeState tcx body summaries b s succ)
      (edgeState tcx body summaries b t succ) := by
  have hstmts := h.statements b (fun _ hx => hx) (hlive.always b) (hlive.statements b) hst
  have hafter : u.always ⊆ after (live b) (body.basicBlocks b).statements :=
    (hlive.always b).trans (subset_after _ _)
  have hreads := hlive.terminator b
  have hedges := hlive.edges b succ hsucc
  unfold terminatorReads at hreads
  unfold terminatorSettles at hedges
  cases hterm : (body.basicBlocks b).terminator with
  | none =>
      rw [hterm] at hedges
      rw [edgeState_of_none hterm, edgeState_of_none hterm]
      exact h.mono (hedges.trans (Finset.union_empty _).subset) (hlive.always succ) hstmts
  | some term =>
      rw [hterm] at hreads hedges
      rw [edgeState_of_some hterm, edgeState_of_some hterm]
      have hexit := h.terminator b term hterm hafter hreads hstmts
      exact h.mono hedges (hlive.always succ)
        (h.edge term succ (fun l hl => Finset.mem_union_left _ (hreads l hl)) hexit)

/-- **A respected relation relates the fixpoint to every path**, if it holds initially and
every merge of the run keeps it on the side of the merged state. -/
theorem solution_of_path {live : body.BasicBlock → Finset Local} (hlive : u.Live live)
    {C : body.BasicBlock → BlockState → BlockState → Prop} {initial : BlockState}
    (hinit : R (live body.entryBlock) initial initial)
    (hleft : ∀ n a e p, C n a e → R (live n) a p → R (live n) (a.joined e) p)
    (hright : ∀ n a e p, C n a e → R (live n) e p → R (live n) (a.joined e) p)
    (hkeep : ∀ n a e p, C n a e → (a.joinWith e).2 = false →
      R (live n) (a.joined e) p → R (live n) a p)
    (hrun : (flowProblem tcx body summaries initial).RunMeets C) {b : body.BasicBlock}
    {s p : BlockState} (hs : runFixpoint tcx body summaries initial b = some s)
    (hp : (flowProblem tcx body summaries initial).PathState b p) : R (live b) s p := by
  have hsim : (flowProblem tcx body summaries initial).Simulation C fun n => R (live n) :=
    ⟨hinit, fun n u p s hs hR => h.edgeState hlive hs hR, hleft, hright,
      fun n a e p hC hch hR => hkeep n a e p hC hch (hright n a e p hC hR)⟩
  exact FlowProblem.run_simulates hsim hrun hp hs

end Respects

end Usage

end San
