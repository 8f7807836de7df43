import San.CallChecks

/-! # Unchecked indexing

`SliceGetUnchecked` accepts a call of `get_unchecked` whose index is proven to be less than the
length of the collection it indexes (`index_bounded_for`), and also one whose index has been
compared with anything at all (`bounded`).

The first test is exact.  The locals that name one collection (the collection itself, and what
borrows it) are a set that is closed under borrowing; `MeasuredOn` carries through the fixpoint
that an index which is compared with lengths of one collection only is proven to be within that
collection only.  So it is the second test that decides whether a bound on one collection excuses
an access to another.
-/
namespace San

/-! ## Names and lengths of a collection -/

/-- May the path of the callee satisfy `p`?  A function pointer may go to any function. -/
def mayCall (tcx : TyCtxt) (body : Body) (p : String → Bool) (func : Operand) : Bool :=
  func.constFnDef.isNone ||
    (resolveCallee tcx body func .default).any fun did => p (tcx.defPathStr did)

/-- The result and the receiver of a call whose callee may satisfy `p`. -/
def Terminator.resultOf (tcx : TyCtxt) (body : Body) (p : String → Bool) {n : Nat}
    (term : Terminator n) : List (Local × Local) :=
  match term.kind with
  | .call func args destination _ _ =>
      if mayCall tcx body p func then
        ((firstArgLocal args).map fun recv => (destination.base, recv)).toList
      else []
  | _ => []

/-- `x = &y` and `x = &*y`. -/
def Statement.views (stmt : Statement) : List (Local × Local) :=
  match stmt.kind with
  | .assign ⟨x, []⟩ (.ref ⟨y, []⟩) => [(x, y)]
  | .assign ⟨x, []⟩ (.ref ⟨y, [.deref]⟩) => [(x, y)]
  | _ => []

/-- `r` becomes the length behind the pointer `x`. -/
def Statement.measures (stmt : Statement) : List (Local × Local) :=
  match stmt.kind with
  | .assign ⟨r, []⟩ (.unaryOp .ptrMetadata op) => ((operandLocal op).map fun x => (r, x)).toList
  | _ => []

/-- The locals that `i` is compared with. -/
def Statement.comparedWith (i : Local) (stmt : Statement) : List Local :=
  match stmt.kind with
  | .assign ⟨_, []⟩ (.binaryOp op op1 op2) =>
      if op.isComparison then
        (if operandLocal op1 = some i then (operandLocal op2).toList else []) ++
          (if operandLocal op2 = some i then (operandLocal op1).toList else [])
      else []
  | _ => []

def isDerefPath (path : String) : Bool := endsWith path "::deref" || endsWith path "::deref_mut"

def isLenPath (path : String) : Bool := endsWith path "::len"

namespace Statement
variable {stmt : Statement} {x y r i : Local}

theorem mem_views {rvalue : Rvalue} (hkind : stmt.kind = .assign ⟨x, []⟩ rvalue)
    (hrvalue : rvalue = .ref ⟨y, []⟩ ∨ rvalue = .ref ⟨y, [.deref]⟩) : (x, y) ∈ stmt.views := by
  unfold views
  rcases hrvalue with rfl | rfl <;> rw [hkind] <;> exact List.mem_singleton_self _

theorem mem_measures {op : Operand}
    (hkind : stmt.kind = .assign ⟨r, []⟩ (.unaryOp .ptrMetadata op))
    (hx : operandLocal op = some x) : (r, x) ∈ stmt.measures := by
  unfold measures
  rw [hkind]
  dsimp only
  rw [hx]
  exact List.mem_singleton_self _

theorem mem_comparedWith {op : BinOp} {op1 op2 : Operand}
    (hkind : stmt.kind = .assign ⟨x, []⟩ (.binaryOp op op1 op2)) (hop : op.isComparison = true)
    (hi : operandLocal op1 = some i) (hr : operandLocal op2 = some r) :
    r ∈ stmt.comparedWith i := by
  unfold comparedWith
  rw [hkind]
  dsimp only
  rw [if_pos hop, if_pos hi, hr]
  exact List.mem_append_left _ (List.mem_singleton_self _)

end Statement

namespace Body
variable (tcx : TyCtxt) (body : Body)

/-- What is found in the statements and terminators of a body. -/
def gather {X : Type} (f : Statement → List X) (g : Terminator body.numBlocks → List X) : List X :=
  (List.finRange body.numBlocks).flatMap fun bb =>
    (body.basicBlocks bb).statements.flatMap f ++ (body.basicBlocks bb).terminator.toList.flatMap g

/-- The locals that borrow or dereference a local, with that local. -/
def views : List (Local × Local) :=
  body.gather Statement.views (Terminator.resultOf tcx body isDerefPath)

/-- The locals that receive a length, with the local that is measured. -/
def measures : List (Local × Local) :=
  body.gather Statement.measures (Terminator.resultOf tcx body isLenPath)

/-- The locals that `i` is compared with. -/
def comparedWith (i : Local) : List Local :=
  body.gather (Statement.comparedWith i) fun _ => []

variable {body} {X : Type} {f : Statement → List X} {g : Terminator body.numBlocks → List X}
  {bb : body.BasicBlock} {x : X}

theorem mem_gather_of_statement {stmt : Statement}
    (hstmt : stmt ∈ (body.basicBlocks bb).statements) (hx : x ∈ f stmt) : x ∈ body.gather f g :=
  List.mem_flatMap.mpr ⟨bb, List.mem_finRange bb,
    List.mem_append_left _ (List.mem_flatMap.mpr ⟨stmt, hstmt, hx⟩)⟩

theorem mem_gather_of_terminator {term : Terminator body.numBlocks}
    (hterm : (body.basicBlocks bb).terminator = some term) (hx : x ∈ g term) :
    x ∈ body.gather f g :=
  List.mem_flatMap.mpr ⟨bb, List.mem_finRange bb,
    List.mem_append_right _ (List.mem_flatMap.mpr ⟨term, Option.mem_toList.mpr hterm, hx⟩)⟩

end Body

/-- `i` is compared with the locals `L` only, which hold lengths of the collection that is named by
`A`; and `B` names another collection.  What a name borrows is a name of the same collection. -/
structure ComparedWithin (tcx : TyCtxt) (body : Body) (A B L : Finset Local) (i : Local) : Prop where
  compared : ∀ r ∈ body.comparedWith i, r ∈ L
  measured : ∀ p ∈ body.measures tcx, p.1 ∈ L → p.2 ∈ A
  views : ∀ p ∈ body.views tcx, (p.1 ∈ A → p.2 ∈ A) ∧ (p.1 ∈ B → p.2 ∈ B) ∧ (p.1 ∈ L → p.2 ∈ L)
  disjoint : Disjoint A B

section Lookup
variable {tcx : TyCtxt} {body : Body} {bb : body.BasicBlock}

theorem mayCall_of_resolve {func : Operand} {s : BlockState} {did : DefId} {p : String → Bool}
    (hcallee : resolveCallee tcx body func s = some did) (hp : p (tcx.defPathStr did) = true) :
    mayCall tcx body p func = true := by
  unfold mayCall
  cases hfunc : func.constFnDef with
  | none => rfl
  | some item =>
    have hsame : resolveCallee tcx body func .default = resolveCallee tcx body func s := by
      unfold resolveCallee
      rw [hfunc]
    rw [hsame, hcallee]
    simpa using hp

theorem Terminator.mem_resultOf {n : Nat} {term : Terminator n} {func : Operand}
    {args : List Operand} {destination : Place} {target : Option (Fin n)} {unwind : UnwindAction n}
    (hterm : term.kind = .call func args destination target unwind) {s : BlockState} {did : DefId}
    {p : String → Bool} {recv : Local} (hcallee : resolveCallee tcx body func s = some did)
    (hp : p (tcx.defPathStr did) = true) (hrecv : firstArgLocal args = some recv) :
    (destination.base, recv) ∈ term.resultOf tcx body p := by
  unfold resultOf
  rw [hterm]
  dsimp only
  rw [if_pos (mayCall_of_resolve hcallee hp), hrecv]
  exact List.mem_singleton_self _

end Lookup

/-! ## The invariant -/

/-- Every known view of a name is a view of a name of the same collection; the known lengths `L` are
lengths of the collection named by `A`, and `i` is compared with, and proven to be within, this
collection only. -/
structure MeasuredOn (A B L : Finset Local) (i : Local) (s : BlockState) : Prop where
  views : (s.facts .refBase).All fun x y => (x ∈ A → y ∈ A) ∧ (x ∈ B → y ∈ B) ∧ (x ∈ L → y ∈ L)
  lengths : (s.facts .lenOf).All fun r c => r ∈ L → c ∈ A
  pending : (s.pairFacts .ltFor).All fun _ p => p.1 = i → p.2 ∈ A
  bounded : ∀ c, (i, c) ∈ s.mustPairs .indexBoundedFor → c ∈ A

/-- The fields that the invariant speaks of. -/
def Field.measured : List Field :=
  [.fact .refBase, .fact .lenOf, .pairFact .ltFor, .mustPairs .indexBoundedFor]

namespace MeasuredOn
variable {A B L : Finset Local} {i : Local} {s t : BlockState}

theorem frame {F : List Field} (h : MeasuredOn A B L i s) (hw : Writes F s t)
    (hF : ∀ f ∈ Field.measured, f ∉ F) : MeasuredOn A B L i t where
  views := by
    rw [show t.facts .refBase = s.facts .refBase from hw (.fact .refBase) (hF _ (by decide))]
    exact h.views
  lengths := by
    rw [show t.facts .lenOf = s.facts .lenOf from hw (.fact .lenOf) (hF _ (by decide))]
    exact h.lengths
  pending := by
    rw [show t.pairFacts .ltFor = s.pairFacts .ltFor from hw (.pairFact .ltFor) (hF _ (by decide))]
    exact h.pending
  bounded := by
    rw [show t.mustPairs .indexBoundedFor = s.mustPairs .indexBoundedFor from
      hw (.mustPairs .indexBoundedFor) (hF _ (by decide))]
    exact h.bounded

theorem default : MeasuredOn A B L i .default :=
  ⟨.empty, .empty, .empty, fun _ hc => absurd hc (Finset.notMem_empty _)⟩

theorem clearRedefined (h : MeasuredOn A B L i s) (l : Local) :
    MeasuredOn A B L i (s.clearRedefined l) where
  views := by
    rw [BlockState.clearRedefined_facts, if_pos (by decide)]
    exact h.views.erase l
  lengths := by
    rw [BlockState.clearRedefined_facts, if_pos (by decide)]
    exact h.lengths.erase l
  pending := by
    rw [BlockState.clearRedefined_pairFacts]
    exact h.pending.erase l
  bounded c hc := by
    rw [BlockState.clearRedefined_mustPairs] at hc
    exact h.bounded c (Finset.mem_of_mem_filter _ hc)

theorem joined (h : MeasuredOn A B L i s) (h' : MeasuredOn A B L i t) :
    MeasuredOn A B L i (s.joined t) where
  views x y hxy := (Discipline.keepFirst_source hxy).elim (h.views x y) (h'.views x y)
  lengths r c hrc := (Discipline.keepFirst_source hrc).elim (h.lengths r c) (h'.lengths r c)
  pending d p hp := (Discipline.keepFirst_source hp).elim (h.pending d p) (h'.pending d p)
  bounded c hc := h.bounded c (Finset.mem_inter.mp hc).1

/-! ### Facts that are recorded -/

theorem insertView (h : MeasuredOn A B L i s) {x y : Local}
    (hxy : (x ∈ A → y ∈ A) ∧ (x ∈ B → y ∈ B) ∧ (x ∈ L → y ∈ L)) :
    MeasuredOn A B L i (s.insertFact .refBase x y) :=
  ⟨h.views.insert hxy, h.lengths, h.pending, h.bounded⟩

theorem insertLength (h : MeasuredOn A B L i s) {r c : Local} (hrc : r ∈ L → c ∈ A) :
    MeasuredOn A B L i (s.insertFact .lenOf r c) :=
  ⟨h.views, h.lengths.insert hrc, h.pending, h.bounded⟩

/-- What a name dereferences to is a name of the same collection. -/
theorem derefBase (h : MeasuredOn A B L i s) (x : Local) :
    (x ∈ A → s.derefBase x ∈ A) ∧ (x ∈ B → s.derefBase x ∈ B) ∧ (x ∈ L → s.derefBase x ∈ L) := by
  unfold BlockState.derefBase
  cases hx : (s.facts .refBase).get x with
  | none => exact ⟨id, id, id⟩
  | some y => exact h.views x y hx

/-- A comparison of `i` with a length is one with a length of the collection. -/
theorem boundedFor (h : MeasuredOn A B L i s) {op1 op2 : Operand}
    (hcompared : ∀ r, operandLocal op1 = some i → operandLocal op2 = some r → r ∈ L)
    {p : Local × Local} (hp : boundedFor s op1 op2 = some p) (hi : p.1 = i) : p.2 ∈ A := by
  obtain ⟨lhs, hlhs, hp⟩ := Option.bind_eq_some_iff.mp hp
  obtain ⟨coll, hcoll, rfl⟩ := Option.map_eq_some_iff.mp hp
  obtain ⟨r, hr, hlen⟩ := Option.bind_eq_some_iff.mp hcoll
  have hrL : r ∈ L := hcompared r (hi ▸ hlhs) hr
  rcases Option.or_eq_some_iff.mp hlen with hlen | ⟨-, hlen⟩
  · exact h.lengths r coll hlen hrL
  · obtain ⟨base, hbase, hlen⟩ := Option.bind_eq_some_iff.mp hlen
    exact h.lengths base coll hlen ((h.views r base hbase).2.2 hrL)

/-! ### Statements -/

theorem setComparison (h : MeasuredOn A B L i s) {k : Fact} (hk : k ∈ Fact.comparisons)
    (dst : Local) (lhs : Option Local) : MeasuredOn A B L i (setComparison s k dst lhs) :=
  h.frame (setComparison_writes s hk dst lhs) (by decide)

theorem recordSpare (h : MeasuredOn A B L i s) {k : Fact} (hk : .fact k ∉ Field.measured)
    (dst : Local) (op1 op2 : Operand) (capFirst : Bool) :
    MeasuredOn A B L i (recordSpare k dst op1 op2 capFirst s) :=
  h.frame (recordSpare_writes s k dst op1 op2 capFirst) fun _ hf hmem =>
    hk (List.mem_singleton.mp hmem ▸ hf)

theorem recordConst (h : MeasuredOn A B L i s) (k : ConstFact) (dst : Local) (l : Option Local)
    (v : Option U64) : MeasuredOn A B L i (recordConst k dst l v s) :=
  h.frame (recordConst_writes s k dst l v) (by cases k <;> decide)

theorem recordNonzero (h : MeasuredOn A B L i s) (dst : Local) (l : Option Local) (v : Option U64)
    (p : U64 → Bool) : MeasuredOn A B L i (recordNonzero dst l v p s) :=
  h.frame (recordNonzero_writes s dst l v p) (by decide)

theorem recordComparison (h : MeasuredOn A B L i s) (body : Body) {op : BinOp}
    (hop : op.isComparison = true) {op1 op2 : Operand}
    (hcompared : ∀ r, operandLocal op1 = some i → operandLocal op2 = some r → r ∈ L) (dst : Local) :
    MeasuredOn A B L i (recordBinaryOp body op op1 op2 dst s) := by
  have hlt : MeasuredOn A B L i
      (s.onPairFacts [.ltFor] (·.put dst (San.boundedFor s op1 op2))) :=
    ⟨h.views, h.lengths, h.pending.put fun p hp hi => h.boundedFor hcompared hp hi, h.bounded⟩
  have hle : MeasuredOn A B L i
      (s.onPairFacts [.leFor] (·.put dst (San.boundedFor s op1 op2))) :=
    h.frame (s.onPairFacts_writes [.leFor] _) (by decide)
  cases op with
  | lt =>
    exact ((((hlt.setComparison (by decide) _ _).recordSpare (by decide) _ _ _ _).recordConst
      _ _ _ _).recordConst _ _ _ _).recordNonzero _ _ _ _
  | ge =>
    exact ((((h.setComparison (by decide) _ _).recordSpare (by decide) _ _ _ _).recordConst
      _ _ _ _).recordNonzero _ _ _ _).recordConst _ _ _ _
  | le =>
    exact ((((hle.setComparison (by decide) _ _).recordSpare (by decide) _ _ _ _).recordConst
      _ _ _ _).recordConst _ _ _ _).recordNonzero _ _ _ _
  | gt =>
    exact ((((h.setComparison (by decide) _ _).recordSpare (by decide) _ _ _ _).recordConst
      _ _ _ _).recordNonzero _ _ _ _).recordConst _ _ _ _
  | eq => exact h.frame (compareEq_writes s _ _ _ dst op1 op2) (by decide)
  | ne => exact h.frame (compareEq_writes s _ _ _ dst op1 op2) (by decide)
  | _ => cases hop

theorem assignRvalue (h : MeasuredOn A B L i s) (tcx : TyCtxt) (body : Body) (dst : Local)
    {rvalue : Rvalue}
    (hcompared : ∀ op op1 op2, rvalue = .binaryOp op op1 op2 → op.isComparison = true →
      ∀ r, operandLocal op1 = some i → operandLocal op2 = some r → r ∈ L) :
    MeasuredOn A B L i (assignRvalue tcx body dst rvalue s) := by
  cases hcompare : rvalue.isComparison with
  | false => exact h.frame (assignRvalue_plain s tcx body dst hcompare) (by decide)
  | true =>
    cases rvalue with
    | binaryOp op op1 op2 =>
      exact (h.frame (enterBinaryOp_writes s op op1 op2 dst) (by decide)).recordComparison body
        hcompare (hcompared op op1 op2 rfl hcompare) dst
    | _ => cases hcompare

theorem recordRefBase (h : MeasuredOn A B L i s) {dst : Local} {rvalue : Rvalue}
    (hviews : ∀ y, rvalue = .ref ⟨y, []⟩ ∨ rvalue = .ref ⟨y, [.deref]⟩ →
      (dst ∈ A → y ∈ A) ∧ (dst ∈ B → y ∈ B) ∧ (dst ∈ L → y ∈ L)) :
    MeasuredOn A B L i (recordRefBase dst rvalue s) := by
  unfold San.recordRefBase
  split
  · exact h.insertView (hviews _ (Or.inl rfl))
  · exact h.insertView (hviews _ (Or.inr rfl))
  · exact h

theorem recordLenOf (h : MeasuredOn A B L i s) {dst : Local} {rvalue : Rvalue}
    (hmeasured : ∀ op x, rvalue = .unaryOp .ptrMetadata op → operandLocal op = some x →
      dst ∈ L → x ∈ A) : MeasuredOn A B L i (recordLenOf dst rvalue s) := by
  unfold San.recordLenOf
  split
  · rename_i op
    split
    · rename_i x hx
      exact h.insertLength fun hdst => (h.derefBase x).1 (hmeasured op x rfl hx hdst)
    · exact h
  · exact h

theorem assignLocal (h : MeasuredOn A B L i s) (tcx : TyCtxt) (body : Body) {dst : Local}
    {rvalue : Rvalue}
    (hviews : ∀ y, rvalue = .ref ⟨y, []⟩ ∨ rvalue = .ref ⟨y, [.deref]⟩ →
      (dst ∈ A → y ∈ A) ∧ (dst ∈ B → y ∈ B) ∧ (dst ∈ L → y ∈ L))
    (hmeasured : ∀ op x, rvalue = .unaryOp .ptrMetadata op → operandLocal op = some x →
      dst ∈ L → x ∈ A)
    (hcompared : ∀ op op1 op2, rvalue = .binaryOp op op1 op2 → op.isComparison = true →
      ∀ r, operandLocal op1 = some i → operandLocal op2 = some r → r ∈ L) :
    MeasuredOn A B L i (assignLocal tcx body dst rvalue s) := by
  have hcleared := ((h.frame (lookup_writes s body dst rvalue) (by decide)).clearRedefined
    dst).frame (clearAssigned_writes _ dst) (by decide)
  have hcarried := (hcleared.recordRefBase hviews).frame (propagateRvalue_writes _ dst rvalue)
    (by decide)
  exact ((hcarried.recordLenOf hmeasured).assignRvalue tcx body dst hcompared).frame
    (enforceTypeFacts_writes _ tcx dst _) (by decide)

/-- **A statement of the body** keeps the invariant. -/
theorem applyStatement (h : MeasuredOn A B L i s) {tcx : TyCtxt} {body : Body}
    (hbody : ComparedWithin tcx body A B L i) {bb : body.BasicBlock} {stmt : Statement}
    (hstmt : stmt ∈ (body.basicBlocks bb).statements) :
    MeasuredOn A B L i (applyStatement tcx body stmt s) := by
  unfold San.applyStatement
  cases hkind : stmt.kind with
  | other => exact h
  | assign dst rvalue =>
    have howner : MeasuredOn A B L i (s.invalidateOwner dst.base) :=
      h.frame (s.invalidateOwners_writes {dst.base}) (by decide)
    by_cases hlocal : dst.isLocal = true
    · have hdst : stmt.kind = .assign ⟨dst.base, []⟩ rvalue := by
        rw [hkind, ← List.isEmpty_iff.mp hlocal]
      dsimp only
      rw [if_pos hlocal]
      refine howner.assignLocal tcx body (fun y hy => ?_) (fun op x hop hx => ?_)
        fun op op1 op2 hop hcompares r hi hr => ?_
      · exact hbody.views (dst.base, y) (Body.mem_gather_of_statement hstmt
          (Statement.mem_views hdst hy))
      · exact hbody.measured (dst.base, x) (Body.mem_gather_of_statement hstmt
          (Statement.mem_measures (hop ▸ hdst) hx))
      · exact hbody.compared r (Body.mem_gather_of_statement hstmt
          (Statement.mem_comparedWith (hop ▸ hdst) hcompares hi hr))
    · dsimp only
      rw [if_neg hlocal]
      exact howner.frame (assignProjected_writes _ tcx body dst rvalue) (by decide)

theorem applyStatements (h : MeasuredOn A B L i s) {tcx : TyCtxt} {body : Body}
    (hbody : ComparedWithin tcx body A B L i) (bb : body.BasicBlock) {stmts : List Statement}
    (hstmts : ∀ stmt ∈ stmts, stmt ∈ (body.basicBlocks bb).statements) :
    MeasuredOn A B L i (applyStatements tcx body stmts s) := by
  induction stmts generalizing s with
  | nil => exact h
  | cons stmt stmts ih =>
    exact ih (h.applyStatement hbody (hstmts stmt List.mem_cons_self))
      fun x hx => hstmts x (List.mem_cons_of_mem _ hx)

/-! ### Edges and calls -/

theorem drain (h : MeasuredOn A B L i s) (k : Fact) (m : MustSet) (c : Local) :
    MeasuredOn A B L i (San.drain k m c s) := by
  unfold San.drain
  split
  · exact ⟨h.views, h.lengths, h.pending, h.bounded⟩
  · exact h

theorem drainUpper (h : MeasuredOn A B L i s) (k : ConstFact) (f : U64 → U64) (c : Local) :
    MeasuredOn A B L i (San.drainUpper k f c s) := by
  unfold San.drainUpper
  split
  · exact h.frame (s.boundAbove_writes _ _) (by decide)
  · exact h

theorem drainLower (h : MeasuredOn A B L i s) (k : ConstFact) (f : U64 → U64) (c : Local) :
    MeasuredOn A B L i (San.drainLower k f c s) := by
  unfold San.drainLower
  split
  · exact h.frame (s.boundBelow_writes _ _) (by decide)
  · exact h

theorem drainPair (h : MeasuredOn A B L i s) (k : PairFact) {m : MustPairs}
    (hm : m ≠ .indexBoundedFor) (norm : Local × Local → Local × Local) (c : Local) :
    MeasuredOn A B L i (San.drainPair k m norm c s) := by
  unfold San.drainPair
  split
  · refine h.frame (s.onMustPairs_writes [m] _) ?_
    cases m <;> first | decide | exact absurd rfl hm
  · exact h

/-- The taken edge proves what was compared. -/
theorem drainLt (h : MeasuredOn A B L i s) (c : Local) :
    MeasuredOn A B L i (San.drainPair .ltFor .indexBoundedFor id c s) := by
  unfold San.drainPair
  split
  · rename_i p hp
    refine ⟨h.views, h.lengths, h.pending, fun d hd => ?_⟩
    have hd : (i, d) ∈ insert (id p) (s.mustPairs .indexBoundedFor) := hd
    rcases Finset.mem_insert.mp hd with heq | hmem
    · have hpair : p = (i, d) := heq.symm
      rw [hpair] at hp
      exact h.pending c (i, d) hp rfl
    · exact h.bounded d hmem
  · exact h

theorem refineTrueEdge (h : MeasuredOn A B L i s) (c : Local) :
    MeasuredOn A B L i (San.refineTrueEdge c s) := by
  have hpairs := (((h.drain .ltFacts .bounded c).drain .leFacts .boundedOrEq c).drainLt c).drainPair
    .leFor (m := .indexBoundedOrEqFor) nofun id c
  have hsets := (((hpairs.drain .spareIfTrue .hasSpare c).drain .fullIfTrue .isFull c).drain
    .nonzeroIfTrue .nonzero c).drain .finiteIfTrue .finite c
  have hbounds := (((hsets.drainUpper .constLt predSat c).drainUpper .constLe id c).drainLower
    .constGt succSat c).drainLower .constGe id c
  exact (hbounds.drainPair .nePairIfTrue (m := .keysAreNe) nofun orderPair c).drainPair
    .eqPairIfTrue (m := .eqLocals) nofun orderPair c

theorem refineFalseEdge (h : MeasuredOn A B L i s) (c : Local) :
    MeasuredOn A B L i (San.refineFalseEdge c s) := by
  have hsets := (((((h.drain .geFacts .bounded c).drain .gtFacts .boundedOrEq c).drain
    .spareIfFalse .hasSpare c).drain .fullIfFalse .isFull c).drain .nonzeroIfFalse .nonzero c).drain
    .nanIfTrue .finite c
  have hbounds := (((hsets.drainLower .constLt id c).drainLower .constLe succSat c).drainUpper
    .constGt id c).drainUpper .constGe predSat c
  exact (hbounds.drainPair .eqPairIfTrue (m := .keysAreNe) nofun orderPair c).drainPair
    .nePairIfTrue (m := .eqLocals) nofun orderPair c

theorem refineSwitchintEdge (h : MeasuredOn A B L i s) {n : Nat} (term : Terminator n)
    (succ : Fin n) : MeasuredOn A B L i (San.refineSwitchintEdge term succ s) := by
  unfold San.refineSwitchintEdge
  split
  · split
    · exact h.refineTrueEdge _
    · exact h.refineFalseEdge _
    · exact h
  · exact h

theorem assertCondition (h : MeasuredOn A B L i s) (cond : Operand) (expected : Bool) :
    MeasuredOn A B L i (San.assertCondition cond expected s) := by
  unfold San.assertCondition
  split
  · exact h
  · split
    · exact (h.drain _ _ _).drain _ _ _
    · exact (h.drain _ _ _).drain _ _ _

theorem recordReceiver (h : MeasuredOn A B L i s) {args : List Operand} {dest : Local}
    (hviews : ∀ recv, firstArgLocal args = some recv →
      (dest ∈ A → recv ∈ A) ∧ (dest ∈ B → recv ∈ B) ∧ (dest ∈ L → recv ∈ L)) :
    MeasuredOn A B L i (San.recordReceiver .refBase args dest s) := by
  unfold San.recordReceiver
  split
  · rename_i recv hrecv
    obtain ⟨hA, hB, hL⟩ := hviews recv hrecv
    have hbase := h.derefBase recv
    exact h.insertView ⟨fun hd => hbase.1 (hA hd), fun hd => hbase.2.1 (hB hd),
      fun hd => hbase.2.2 (hL hd)⟩
  · exact h

theorem recordLength (h : MeasuredOn A B L i s) {path : String} {args : List Operand} {dest : Local}
    (hmeasured : isLenPath path = true → ∀ recv, firstArgLocal args = some recv →
      dest ∈ L → recv ∈ A) : MeasuredOn A B L i (San.recordLength path args dest s) := by
  unfold San.recordLength
  split
  · rename_i hpath
    unfold San.recordReceiver
    split
    · rename_i recv hrecv
      split
      · exact h.frame (s.insertFact_writes .capOf _ _) (by decide)
      · rename_i hcap
        have hlen : isLenPath path = true :=
          (Bool.or_eq_true _ _ ▸ hpath).resolve_right hcap
        exact h.insertLength fun hd => (h.derefBase recv).1 (hmeasured hlen recv hrecv hd)
    · exact h
  · exact h

theorem recordCallFacts (h : MeasuredOn A B L i s) (path : String) (args : List Operand)
    (dest : Local)
    (hmeasured : isLenPath path = true → ∀ recv, firstArgLocal args = some recv →
      dest ∈ L → recv ∈ A)
    (hviews : isDerefPath path = true → ∀ recv, firstArgLocal args = some recv →
      (dest ∈ A → recv ∈ A) ∧ (dest ∈ B → recv ∈ B) ∧ (dest ∈ L → recv ∈ L)) :
    MeasuredOn A B L i (San.recordCallFacts path args dest s) := by
  have hfinite := (h.recordLength hmeasured).frame (recordFiniteness_writes _ path args dest)
    (by decide)
  have hderef : MeasuredOn A B L i (San.recordDeref path args dest (San.recordFiniteness path args
      dest (San.recordLength path args dest s))) := by
    unfold San.recordDeref
    split
    · rename_i hpath
      exact hfinite.recordReceiver (hviews hpath)
    · exact hfinite
  have hfd := hderef.frame (recordFd_writes _ path args dest) (by decide)
  refine MeasuredOn.frame ?_ (recordPartialEq_writes _ path args dest) (by decide)
  split
  · exact hfd.frame (markSpawned_writes _) (by decide)
  · exact hfd

theorem enterCall (h : MeasuredOn A B L i s) (tcx : TyCtxt) (body : Body) (summaries : SummaryMap)
    (callee : Option DefId) (args : List Operand) (dest : Local) :
    MeasuredOn A B L i (San.enterCall tcx body summaries callee args dest s) := by
  obtain ⟨t, ht, henter⟩ := enterCall_eq s tcx body summaries callee args dest
  rw [henter]
  exact (h.frame ht (by decide)).frame (killCapacityArgs_writes t body args) (by decide)

/-- **A terminator of the body** keeps the invariant. -/
theorem applyTerminator (h : MeasuredOn A B L i s) {tcx : TyCtxt} {body : Body}
    (hbody : ComparedWithin tcx body A B L i) (summaries : SummaryMap) {bb : body.BasicBlock}
    {term : Terminator body.numBlocks} (hterm : (body.basicBlocks bb).terminator = some term) :
    MeasuredOn A B L i (San.applyTerminator tcx body summaries bb.val term s) := by
  unfold San.applyTerminator
  split
  · rename_i func args destination target unwind hkind
    have hentered := h.enterCall tcx body summaries (resolveCallee tcx body func s) args
      destination.base
    have hescaped := hentered.frame (escapeRawPtrArgs_writes _ body args) (by decide)
    unfold San.applyCall
    dsimp only
    cases hcallee : resolveCallee tcx body func s with
    | none => rwa [hcallee] at hescaped
    | some did =>
      rw [hcallee] at hentered hescaped
      dsimp only
      split
      · have hfacts := (hentered.clearRedefined destination.base).recordCallFacts
          (tcx.defPathStr did) args destination.base
          (fun hpath recv hrecv => hbody.measured (destination.base, recv)
            (Body.mem_gather_of_terminator hterm
              (Terminator.mem_resultOf hkind hcallee hpath hrecv)))
          fun hpath recv hrecv => hbody.views (destination.base, recv)
            (Body.mem_gather_of_terminator hterm
              (Terminator.mem_resultOf hkind hcallee hpath hrecv))
        exact (hfacts.frame (applyCallKind_writes _ tcx body _ _ args _ bb.val) (by decide)).frame
          (leaveCall_writes _ tcx body _ args _) (by decide)
      · exact hescaped
  · exact h.assertCondition _ _
  · exact h.frame (applyDrop_writes s _) (by decide)
  · exact h

/-- **The invariant holds of the whole analysis.** -/
theorem invariant {tcx : TyCtxt} {body : Body} (hbody : ComparedWithin tcx body A B L i)
    (summaries : SummaryMap) :
    (AssumeInit.flowOf tcx body summaries).Invariant fun _ => MeasuredOn A B L i where
  init := default.frame (Writes.foldl (fun t l => enforceTypeFacts_writes t tcx l _) _ _) (by decide)
  flow bb s succ _ h := by
    have hstmts := h.applyStatements hbody bb fun _ hstmt => hstmt
    show MeasuredOn A B L i (edgeState tcx body summaries bb s succ)
    cases hterm : (body.basicBlocks bb).terminator with
    | none =>
      rw [edgeState_of_none hterm]
      exact hstmts
    | some term =>
      rw [edgeState_of_some hterm]
      exact (hstmts.applyTerminator hbody summaries hterm).refineSwitchintEdge term succ
  join _ _ _ ha he := ha.joined he

end MeasuredOn

/-! ## The checker -/

namespace SliceGetUnchecked

/-- The collection that is indexed. -/
def recvLocal (s : BlockState) (args : List Operand) : Option Local :=
  (args[0]?.bind Operand.place).map fun p => s.derefBase p.base

def idxLocal (args : List Operand) : Option Local := (args[1]?.bind Operand.place).map Place.base

def idxIsZero (args : List Operand) : Bool := decide (args[1]?.bind constU64 = some 0)

/-- Is a length of the collection proven to be nonzero? -/
def collNonempty (s : BlockState) (recv : Local) : Bool :=
  decide (∃ l ∈ (s.facts .lenOf).keys, (s.facts .lenOf).get l = some recv ∧ l ∈ s.mustSets .nonzero)

/-- The index is proven to be within this collection, or compared with anything; a constant zero
needs a collection that is not empty. -/
def suppressed (args : List Operand) (s : BlockState) : Bool :=
  match idxLocal args with
  | some idx => (recvLocal s args).any (s.indexIsBoundedFor idx) || s.localIsBounded idx
  | none => idxIsZero args && (recvLocal s args).any (collNonempty s)

def isGetUnchecked (path : String) : Bool :=
  endsWithAny path ["get_unchecked_mut", "get_unchecked"] && !contains path "pin::Pin"

def message (path : String) : Option String :=
  if endsWith path "get_unchecked_mut" && contains path "pin::Pin" then
    some ("`Pin::get_unchecked_mut` — must not move out of or invalidate the " ++
      "returned &mut T; moving the value violates pinning (self-referential " ++
      "structs will corrupt their internal pointers)")
  else if endsWith path "get_unchecked_mut" then
    some ("`get_unchecked_mut` — index must be strictly in-bounds (< len); " ++
      "out-of-bounds access is UB (no panic, silent memory corruption)")
  else if endsWith path "get_unchecked" then
    some ("`get_unchecked` — index must be strictly in-bounds (< len); " ++
      "out-of-bounds access is UB (no panic, silent memory corruption)")
  else if endsWith path "::slice_mut_unchecked" then
    some ("`str::slice_mut_unchecked` (deprecated since 1.29 — use `get_unchecked_mut`) " ++
      "— begin and end must be on valid UTF-8 boundaries within the string; " ++
      "out-of-bounds or misaligned offsets are UB")
  else if endsWith path "::slice_unchecked" then
    some ("`str::slice_unchecked` (deprecated since 1.29 — use `get_unchecked`) " ++
      "— begin and end must be on valid UTF-8 boundaries within the string; " ++
      "out-of-bounds or misaligned offsets are UB")
  else none

def checkCall (path : String) (call : CallSite) (s : Option BlockState) : Option Finding :=
  if isGetUnchecked path && s.any (suppressed call.args) then none
  else (message path).map fun m => ⟨"slice_get_unchecked", .warning, call.span, m⟩

def check (tcx : TyCtxt) {body : Body} (flow : FlowResults body) : List Finding :=
  checkCalls tcx flow checkCall

theorem message_isSome {path : String} (h : isGetUnchecked path = true) :
    (message path).isSome = true := by
  obtain ⟨hends, -⟩ := Bool.and_eq_true_iff.mp h
  have hends : (endsWith path "get_unchecked_mut" || (endsWith path "get_unchecked" || false)) =
      true := hends
  rw [Bool.or_false] at hends
  unfold message
  cases hmut : endsWith path "get_unchecked_mut" with
  | true => cases contains path "pin::Pin" <;> rfl
  | false =>
    rw [hmut, Bool.false_or] at hends
    rw [hends]
    rfl

/-- A call of `get_unchecked` is reported unless the state excuses it. -/
theorem checkCall_isSome_iff {path : String} (hpath : isGetUnchecked path = true) (call : CallSite)
    (s : BlockState) :
    (checkCall path call (some s)).isSome = true ↔ suppressed call.args s = false := by
  unfold checkCall
  rw [hpath, Option.any_some, Bool.true_and]
  cases suppressed call.args s with
  | true => simp
  | false => simpa using message_isSome hpath

/-- **When a bound on one collection excuses no access to another.**  Let `i` be compared with
lengths of one collection only.  Then it is proven to be within no other collection, and a reachable
call of `get_unchecked` that indexes another collection with `i` is reported exactly if `i` has not
been proven to be less than something. -/
theorem get_unchecked_reported_iff (tcx : TyCtxt) {body : Body} (summaries : SummaryMap)
    {A B L : Finset Local} {i : Local} (hbody : ComparedWithin tcx body A B L i)
    (bb : body.BasicBlock) {call : CallSite} (hcall : body.callSite bb = some call)
    (hpath : isGetUnchecked (tcx.defPathStr call.callee) = true) {recv : Place}
    (hrecv : call.args[0]?.bind Operand.place = some recv) (hname : recv.base ∈ B)
    (hidx : idxLocal call.args = some i) {s : BlockState}
    (hs : (computeFlow tcx body summaries).stateBeforeTerminator tcx bb = some s) :
    (∀ c ∈ B, s.indexIsBoundedFor i c = false) ∧
    ((∃ finding ∈ check tcx (computeFlow tcx body summaries),
        checkCallIn tcx (computeFlow tcx body summaries) checkCall bb = some finding) ↔
      s.localIsBounded i = false) := by
  obtain ⟨x, hx, rfl⟩ := Option.map_eq_some_iff.mp hs
  have hentry := (MeasuredOn.invariant hbody summaries).solution hx
  have hmeasured := hentry.applyStatements hbody bb fun _ hstmt => hstmt
  -- a bound is only ever recorded for a container of A, and A and B share no local
  have hother : ∀ c ∈ B, (San.applyStatements tcx body (body.basicBlocks bb).statements
      x).indexIsBoundedFor i c = false := fun c hc =>
    decide_eq_false fun hmem => Finset.disjoint_left.mp hbody.disjoint (hmeasured.bounded c hmem) hc
  refine ⟨hother, ?_⟩
  have hsuppressed : suppressed call.args (San.applyStatements tcx body
      (body.basicBlocks bb).statements x) =
      (San.applyStatements tcx body (body.basicBlocks bb).statements x).localIsBounded i := by
    unfold suppressed recvLocal
    rw [hidx, hrecv]
    dsimp only
    rw [Option.map_some, Option.any_some, hother _ ((hmeasured.derefBase recv.base).2.1 hname),
      Bool.false_or]
  rw [← hsuppressed, ← checkCall_isSome_iff hpath call, checkCallIn_eq hcall hs,
    Option.isSome_iff_exists]
  constructor
  · rintro ⟨finding, -, hfinding⟩
    exact ⟨finding, hfinding⟩
  · rintro ⟨finding, hfinding⟩
    exact ⟨finding, mem_checkCalls ((checkCallIn_eq hcall hs).trans hfinding), hfinding⟩

/-- `_5 = len(&_1)` and a branch on `_6 = _3 < _5`; where the comparison holds, or where it does
not, `_2` is indexed with `_3`. -/
def indexOther (guarded : Bool) : Body :=
  .ofBlocks 2 3 [.other, .other, .other, .uint .usize, .ref .other .not, .uint .usize, .bool,
      .ref .other .not, .other] 3
    (fun bb =>
      [.of [.set 4 (.ref (Place.ofLocal (Local.ofNat 1)))] (.callTo 0 [.ofNat 4] 5 (bb 1)),
        .of [.set 6 (.binaryOp .lt (.ofNat 3) (.ofNat 5))]
          (.switchInt (.ofNat 6) ⟨[(0, if guarded then bb 3 else bb 2)],
            if guarded then bb 2 else bb 3⟩),
        .of [.set 7 (.ref (Place.ofLocal (Local.ofNat 2)))]
          (.callTo 1 [.ofNat 7, .ofNat 3] 8 (bb 3)),
        .of [] .return])
    (by cases guarded <;> decide)

def slicePaths : TyCtxt :=
  .ofPaths ["core::slice::<impl [T]>::len", "core::slice::<impl [T]>::get_unchecked", "f"]

/-- `_3` is compared with the length of `_1` only, and `_2` is another collection. -/
theorem indexOther_compared (guarded : Bool) :
    ComparedWithin slicePaths (indexOther guarded) {Local.ofNat 1, Local.ofNat 4}
      {Local.ofNat 2, Local.ofNat 7} {Local.ofNat 5} (Local.ofNat 3) := by
  refine ⟨?_, ?_, ?_, by decide⟩ <;> cases guarded <;> decide +kernel

/-- The state before the access to `_2`, and what is known of `_3` there. -/
theorem indexOther_state (guarded : Bool) : ∃ s,
    (computeFlow slicePaths (indexOther guarded) ∅).stateBeforeTerminator slicePaths (2 : Fin 4) =
      some s ∧ s.localIsBounded (Local.ofNat 3) = guarded := by
  have hdone : ((AssumeInit.flowOf slicePaths (indexOther guarded) ∅).step^[6]
      (AssumeInit.flowOf slicePaths (indexOther guarded) ∅).initial).work = [] := by
    cases guarded <;> decide +kernel
  obtain ⟨x, hx, hq⟩ := FlowProblem.exists_solution hdone (n := (2 : Fin 4))
    (q := fun s => decide ((applyStatements slicePaths (indexOther guarded)
      ((indexOther guarded).basicBlocks (2 : Fin 4)).statements s).localIsBounded (Local.ofNat 3) =
        guarded))
    (by cases guarded <;> decide +kernel)
  exact ⟨_, congrArg _ hx, of_decide_eq_true hq⟩

/-- Where the index is not less than the length of `_1`, the access to `_2` is reported. -/
theorem unbounded_access_reported :
    ∃ finding ∈ check slicePaths (computeFlow slicePaths (indexOther false) ∅),
      checkCallIn slicePaths (computeFlow slicePaths (indexOther false) ∅) checkCall (2 : Fin 4) =
        some finding := by
  obtain ⟨s, hs, hbounded⟩ := indexOther_state false
  exact (get_unchecked_reported_iff slicePaths ∅ (indexOther_compared false) (2 : Fin 4) rfl
    (by decide +kernel) rfl (by decide) rfl hs).2.mpr hbounded

/-- **A bound on `_1` excuses an access to `_2`.**  Behind the guard `_3 < _1.len()` nothing is
known of `_3` and `_2`, and yet the access to `_2` goes unreported. -/
theorem bound_on_other_excuses :
    ComparedWithin slicePaths (indexOther true) {Local.ofNat 1, Local.ofNat 4}
      {Local.ofNat 2, Local.ofNat 7} {Local.ofNat 5} (Local.ofNat 3) ∧
    (∃ s, (computeFlow slicePaths (indexOther true) ∅).stateBeforeTerminator slicePaths
      (2 : Fin 4) = some s) ∧
    checkCallIn slicePaths (computeFlow slicePaths (indexOther true) ∅) checkCall (2 : Fin 4) =
      none := by
  obtain ⟨s, hs, hbounded⟩ := indexOther_state true
  refine ⟨indexOther_compared true, ⟨s, hs⟩, ?_⟩
  have hpath : isGetUnchecked (slicePaths.defPathStr ⟨0, 1⟩) = true := by decide +kernel
  have hsuppressed : suppressed [.ofNat 7, .ofNat 3] s = true :=
    Bool.or_eq_true_iff.mpr (Or.inr hbounded)
  rw [checkCallIn_eq rfl hs]
  exact Option.not_isSome_iff_eq_none.mp fun h =>
    absurd ((checkCall_isSome_iff hpath _ s).mp h) (by rw [hsuppressed]; exact nofun)

end SliceGetUnchecked

end San
