import San.Execution
import San.UnionFields
import San.UseAfterFree

/-! # Dereferences of raw pointers

`raw_ptr_deref` walks over all places that a body mentions and looks at every step that follows a
raw pointer.  A step is passed over if it was not written where it stands, if the pointer is that
of a `Box`, or if the flow shows that the memory is there; it is a use after free if the flow shows
that the memory is gone; otherwise it is to be audited.

Three results say what the walk is good for.  Every dereference is in the report of the crate, or
has one of the excuses (`raw_deref_accounted`).  A dereference of what is freed on some path is in
the report as a use after free (`freed_deref_reported`).  And no use after free is reported, here or
by the pointer rules, without a call before it that may free (`uaf_has_cause`).
-/
namespace San

/-! ## What is visited -/

/-- `place` is written, borrowed mutably or dropped if `mutates`, and read otherwise. -/
structure Access where
  place : Place
  mutates : Bool

def Operand.accesses (op : Operand) : List Access := op.place.toList.map fun p => ⟨p, false⟩

/-- The places of an rvalue; `mutably` is the kind of a borrow. -/
def Rvalue.accesses (mutably : Bool) : Rvalue → List Access
  | .use op => op.accesses
  | .ref p => [⟨p, mutably⟩]
  | .rawPtr p => [⟨p, mutably⟩]
  | .cast _ op _ => op.accesses
  | .binaryOp _ op1 op2 => op1.accesses ++ op2.accesses
  | .unaryOp _ op => op.accesses
  | .aggregate _ ops => ops.flatMap Operand.accesses
  | .other => []

def Statement.accesses (mutably : Bool) (stmt : Statement) : List Access :=
  match stmt.kind with
  | .assign dst rvalue => ⟨dst, true⟩ :: rvalue.accesses mutably
  | .other => []

def Terminator.accesses {n : Nat} (term : Terminator n) : List Access :=
  match term.kind with
  | .switchInt discr _ => discr.accesses
  | .drop place _ _ => [⟨place, true⟩]
  | .call func args destination _ _ =>
      func.accesses ++ args.flatMap Operand.accesses ++ [⟨destination, true⟩]
  | .assert cond _ _ _ => cond.accesses
  | _ => []

/-- A source scope: is it the body of an inlined callee, and which such scope is next around it? -/
structure SourceScope where
  inlined : Bool
  inlinedParentScope : Option Nat

/-- What the checker asks the compiler for.  `hidden` has the places that the statements and
terminators of the model do not show: those of rvalues and terminators without a form of their
own. -/
structure SourceInfo (body : Body) where
  elemTy : Ty → ProjectionElem → Ty
  isBox : Ty → Bool
  sourceScopes : List SourceScope
  scopeAt : body.BasicBlock → Nat → Nat
  borrowsMutably : body.BasicBlock → Nat → Bool
  hidden : body.BasicBlock → Nat → List Access
  /-- A scope is made after those around it. -/
  parent_lt : ∀ s (scope : SourceScope), sourceScopes[s]? = some scope →
    ∀ p ∈ scope.inlinedParentScope, p < s

/-- The span at the location with index `si`, which is that of the terminator after the last
statement. -/
def Body.spanAt (body : Body) (bb : body.BasicBlock) (si : Nat) : Option Span :=
  match (body.basicBlocks bb).statements[si]? with
  | some stmt => some stmt.span
  | none => (body.basicBlocks bb).terminator.map Terminator.span

/-- The statements of all blocks. -/
def Body.allStatements (body : Body) : List Statement :=
  (List.finRange body.numBlocks).flatMap fun bb => (body.basicBlocks bb).statements

namespace RawPtrDeref

section Definitions
variable {body : Body} (info : SourceInfo body)

/-- What is visited at a location. -/
def accessesAt (bb : body.BasicBlock) (si : Nat) : List Access :=
  (match (body.basicBlocks bb).statements[si]? with
    | some stmt => stmt.accesses (info.borrowsMutably bb si)
    | none => (body.basicBlocks bb).terminator.elim [] Terminator.accesses) ++ info.hidden bb si

/-- The scope `s`, or one of those around it, is an inlined callee; `n` bounds the walk. -/
def inlinedWithin (scopes : List SourceScope) : Nat → Nat → Bool
  | 0, _ => false
  | n + 1, s => scopes[s]?.any fun scope =>
      scope.inlined || scope.inlinedParentScope.any (inlinedWithin scopes n)

/-- The walk ends, because the parent of a scope comes before it. -/
def isInlined (bb : body.BasicBlock) (si : Nat) : Bool :=
  inlinedWithin info.sourceScopes (info.scopeAt bb si + 1) (info.scopeAt bb si)

/-- The steps of a path from a place of type `ty` that follow a raw pointer: the places that hold
the pointers. -/
def derefsFrom (place : Place) : Ty → List ProjectionElem → List Place
  | _, [] => []
  | ty, elem :: rest =>
      let later := derefsFrom ⟨place.base, place.projection ++ [elem]⟩
        (projectionTy info.elemTy ty elem) rest
      if elem.isDeref && ty.isRawPtr then place :: later else later

def rawDerefs (place : Place) : List Place :=
  derefsFrom info (Place.ofLocal place.base) (body.localTy place.base) place.projection

/-! ### Pointers of boxes -/

/-- Note an assignment: its rvalue, and its target if it has been assigned to before. -/
def defsStep (acc : FMap Local Rvalue × Finset Local) (stmt : Statement) :
    FMap Local Rvalue × Finset Local :=
  match stmt.assignment with
  | some (dst, rvalue) =>
      (acc.1.insert dst rvalue, if (acc.1.get dst).isSome then insert dst acc.2 else acc.2)
  | none => acc

/-- The rvalues of the locals that one statement assigns to. -/
def singleDefs (body : Body) : FMap Local Rvalue :=
  let acc := body.allStatements.foldl defsStep (∅, ∅)
  acc.1.retain fun l _ => decide (l ∉ acc.2)

/-- The place that an rvalue copies, moves or casts. -/
def copiedPlace : Rvalue → Option Place
  | .use op => op.place
  | .cast _ op _ => op.place
  | _ => none

/-- Follow the definitions of `l` backwards, at most `n` times, to a `Box`. -/
def derivesWithin (defs : FMap Local Rvalue) : Nat → Local → Bool
  | 0, _ => false
  | n + 1, l => ((defs.get l).bind copiedPlace).any fun src =>
      info.isBox (body.localTy src.base) || derivesWithin defs n src.base

def derivesFromBox (l : Local) : Bool := derivesWithin info (singleDefs body) 8 l

/-! ### The walk -/

def auditMessage (access : String) : String :=
  "raw pointer dereference (" ++ access ++ ") — the pointer must be non-null, " ++
    "aligned, and point to a live allocation valid for the accessed type; " ++
    "dereferencing an invalid raw pointer is undefined behavior"

/-- What the flow says about following the pointer in `l`: nothing, if the memory is there. -/
def checkFlow (span : Span) (mutates : Bool) (l : Local) (s : BlockState) : Option Finding :=
  let access := if mutates then "write" else "read"
  match s.useReport span (l, access) with
  | some finding => some finding
  | none =>
      if s.ptrIsRawOwned l then none
      else if mutates && (s.muRawPtr.get l).isSome then none
      else some ⟨"raw_ptr_deref", .warning, span, auditMessage access⟩

/-- One step; `base` holds the pointer. -/
def checkDeref (bb : body.BasicBlock) (si : Nat) (span : Span) (mutates : Bool)
    (state : Option BlockState) (base : Place) : Option Finding :=
  if base.isLocal && derivesFromBox info base.base then none
  else if span.fromExpansion then none
  else if isInlined info bb si then none
  else
    match if base.isLocal then state else none with
    | some s => checkFlow span mutates base.base s
    | none =>
        some ⟨"raw_ptr_deref", .warning, span, auditMessage (if mutates then "write" else "read")⟩

variable (tcx : TyCtxt) (flow : FlowResults body)

def checkLocation (bb : body.BasicBlock) (si : Nat) : List Finding :=
  (body.spanAt bb si).elim [] fun span =>
    (accessesAt info bb si).flatMap fun access =>
      (rawDerefs info access.place).filterMap
        (checkDeref info bb si span access.mutates (flow.stateAtLocation tcx bb si))

def check : List Finding :=
  (List.finRange body.numBlocks).flatMap fun bb =>
    (List.range ((body.basicBlocks bb).statements.length + 1)).flatMap
      (checkLocation info tcx flow bb)

end Definitions

def checker (info : (body : Body) → SourceInfo body) : Checker :=
  ⟨fun tcx body flow _ => check (info body) tcx flow, fun _ => []⟩

end RawPtrDeref

/-! ## Scopes and definitions -/

/-- `p` is the next inlined scope around `s`. -/
def SourceInfo.InlinedInto {body : Body} (info : SourceInfo body) (s p : Nat) : Prop :=
  ∃ scope, info.sourceScopes[s]? = some scope ∧ scope.inlinedParentScope = some p

/-- The location belongs to an inlined callee. -/
def SourceInfo.InlinedAt {body : Body} (info : SourceInfo body) (bb : body.BasicBlock) (si : Nat) :
    Prop :=
  ∃ s scope, Relation.ReflTransGen info.InlinedInto (info.scopeAt bb si) s ∧
    info.sourceScopes[s]? = some scope ∧ scope.inlined = true

/-- The rvalue, if the statement assigns to the whole local. -/
def Statement.assignedTo (l : Local) (stmt : Statement) : Option Rvalue :=
  stmt.assignment.bind fun target => if target.1 = l then some target.2 else none

/-- The rvalues that the statements of the body assign to the whole local, in their order. -/
def Body.definitions (body : Body) (l : Local) : List Rvalue :=
  body.allStatements.filterMap (Statement.assignedTo l)

/-- `l` gets its value from `src` through at most `n` copies and casts, each of which is the one
assignment to its target. -/
inductive Body.TracesTo (body : Body) : Nat → Local → Local → Prop
  | copy {n : Nat} {l : Local} {rvalue : Rvalue} {src : Place} :
      body.definitions l = [rvalue] → RawPtrDeref.copiedPlace rvalue = some src →
      TracesTo body (n + 1) l src.base
  | step {n : Nat} {l b : Local} {rvalue : Rvalue} {src : Place} :
      body.definitions l = [rvalue] → RawPtrDeref.copiedPlace rvalue = some src →
      TracesTo body n src.base b → TracesTo body (n + 1) l b

namespace RawPtrDeref

section
variable {body : Body} {info : SourceInfo body}

theorem inlinedWithin_iff {n s : Nat} (hs : s < n) :
    inlinedWithin info.sourceScopes n s = true ↔
      ∃ a scope, Relation.ReflTransGen info.InlinedInto s a ∧
        info.sourceScopes[a]? = some scope ∧ scope.inlined = true := by
  induction n generalizing s with
  | zero => omega
  | succ n ih =>
      unfold inlinedWithin
      rw [Option.any_eq_true]
      constructor
      · rintro ⟨scope, hscope, h⟩
        rcases Bool.or_eq_true_iff.mp h with h | h
        · exact ⟨s, scope, .refl, hscope, h⟩
        · obtain ⟨p, hp, h⟩ := (Option.any_eq_true _ _).mp h
          have hlt := info.parent_lt s scope hscope p hp
          obtain ⟨a, outer, hreach, houter⟩ := (ih (by omega)).mp h
          exact ⟨a, outer, .head ⟨scope, hscope, hp⟩ hreach, houter⟩
      · rintro ⟨a, outer, hreach, houter, hinlined⟩
        rcases hreach.cases_head with rfl | ⟨p, ⟨scope, hscope, hp⟩, hreach⟩
        · exact ⟨outer, houter, by rw [hinlined, Bool.true_or]⟩
        · have hlt := info.parent_lt s scope hscope p hp
          have hrest := (ih (by omega)).mpr ⟨a, outer, hreach, houter, hinlined⟩
          refine ⟨scope, hscope, ?_⟩
          rw [hp, Option.any_some, hrest, Bool.or_true]

theorem isInlined_iff {bb : body.BasicBlock} {si : Nat} :
    isInlined info bb si = true ↔ info.InlinedAt bb si :=
  inlinedWithin_iff (Nat.lt_succ_self _)

/-- **The pass over the statements** keeps the last rvalue of each local, and the locals that have
been assigned to more than once. -/
theorem foldl_defsStep (stmts : List Statement) (l : Local) :
    (stmts.foldl defsStep (∅, ∅)).1.get l = (stmts.filterMap (Statement.assignedTo l)).getLast? ∧
      (l ∈ (stmts.foldl defsStep (∅, ∅)).2 ↔
        2 ≤ (stmts.filterMap (Statement.assignedTo l)).length) := by
  induction stmts using List.reverseRecOn with
  | nil => exact ⟨rfl, by simp⟩
  | append_singleton stmts stmt ih =>
      rw [List.foldl_append, List.filterMap_append, List.foldl_cons, List.foldl_nil,
        List.filterMap_cons, List.filterMap_nil]
      generalize stmts.foldl defsStep (∅, ∅) = acc at ih ⊢
      generalize stmts.filterMap (Statement.assignedTo l) = before at ih ⊢
      unfold defsStep Statement.assignedTo
      cases stmt.assignment with
      | none =>
          rw [Option.bind_none, List.append_nil]
          exact ih
      | some target =>
          obtain ⟨dst, rvalue⟩ := target
          rw [Option.bind_some]
          by_cases hdst : dst = l
          · subst hdst
            rw [if_pos rfl]
            dsimp only
            rw [FMap.get_insert_self, List.getLast?_concat, List.length_append, ih.1]
            refine ⟨rfl, ?_⟩
            cases before with
            | nil => simpa using ih.2
            | cons first rest => simp
          · rw [if_neg hdst]
            dsimp only
            rw [List.append_nil, FMap.get_insert_of_ne _ _ (Ne.symm hdst)]
            refine ⟨ih.1, Iff.trans ?_ ih.2⟩
            split
            · rw [Finset.mem_insert, or_iff_right (Ne.symm hdst)]
            · rfl

/-- The map has the locals with a single definition. -/
theorem singleDefs_get {l : Local} {rvalue : Rvalue} :
    (singleDefs body).get l = some rvalue ↔ body.definitions l = [rvalue] := by
  obtain ⟨hlast, hmany⟩ := foldl_defsStep body.allStatements l
  unfold singleDefs Body.definitions
  dsimp only
  rw [FMap.get_retain_eq_some, decide_eq_true_eq, hlast, hmany]
  cases body.allStatements.filterMap (Statement.assignedTo l) with
  | nil => simp
  | cons first rest =>
      cases rest with
      | nil => simp
      | cons second rest => simp

/-- **The walk to a `Box`** follows single definitions. -/
theorem derivesWithin_iff {n : Nat} {l : Local} :
    derivesWithin info (singleDefs body) n l = true ↔
      ∃ b, body.TracesTo n l b ∧ info.isBox (body.localTy b) = true := by
  induction n generalizing l with
  | zero =>
      refine ⟨fun h => absurd h Bool.false_ne_true, fun ⟨b, htrace, _⟩ => ?_⟩
      cases htrace
  | succ n ih =>
      unfold derivesWithin
      simp only [Option.any_eq_true, Option.bind_eq_some_iff, singleDefs_get, Bool.or_eq_true, ih]
      constructor
      · rintro ⟨src, ⟨rvalue, hdef, hcopied⟩, hbox | ⟨b, htrace, hbox⟩⟩
        · exact ⟨src.base, .copy hdef hcopied, hbox⟩
        · exact ⟨b, .step hdef hcopied htrace, hbox⟩
      · rintro ⟨b, htrace, hbox⟩
        cases htrace with
        | copy hdef hcopied => exact ⟨_, ⟨_, hdef, hcopied⟩, .inl hbox⟩
        | step hdef hcopied htrace => exact ⟨_, ⟨_, hdef, hcopied⟩, .inr ⟨b, htrace, hbox⟩⟩

end

/-! ## Excuses -/

/-- Why a dereference is passed over. -/
inductive Excuse (tcx : TyCtxt) {body : Body} (info : SourceInfo body) (flow : FlowResults body)
    (bb : body.BasicBlock) (si : Nat) (span : Span) (mutates : Bool) (base : Place) : Prop
  /-- It was written in a macro, -/
  | expansion : span.fromExpansion = true → Excuse tcx info flow bb si span mutates base
  /-- or in a callee; -/
  | inlined : info.InlinedAt bb si → Excuse tcx info flow bb si span mutates base
  /-- it is that of a box; -/
  | box {b : Local} : base.isLocal = true → body.TracesTo 8 base.base b →
      info.isBox (body.localTy b) = true → Excuse tcx info flow bb si span mutates base
  /-- the pointer owns what it points to; -/
  | owned {s : BlockState} : base.isLocal = true → flow.stateAtLocation tcx bb si = some s →
      s.ptrIsRawOwned base.base = true → Excuse tcx info flow bb si span mutates base
  /-- or it is written through to initialise what it points to. -/
  | uninit {s : BlockState} : base.isLocal = true → flow.stateAtLocation tcx bb si = some s →
      s.freedKind base.base = .notFreed → mutates = true →
      (s.muRawPtr.get base.base).isSome = true → Excuse tcx info flow bb si span mutates base

section
variable {tcx : TyCtxt} {body : Body} {info : SourceInfo body} {flow : FlowResults body}
  {bb : body.BasicBlock} {si : Nat} {span : Span} {mutates : Bool} {base : Place}
  {finding : Finding} {s : BlockState} {l : Local}

/-- What is owned is not freed. -/
theorem freedKind_of_owned (h : s.ptrIsRawOwned l = true) : s.freedKind l = .notFreed := by
  by_contra hne
  obtain ⟨o, ho, hfreed⟩ := BlockState.freedKind_ne_notFreed_iff.mp hne
  rw [(of_decide_eq_true h).2 o ho] at hfreed
  cases hfreed

theorem useReport_eq_none {access : Local × String} :
    s.useReport span access = none ↔ s.freedKind access.1 = .notFreed := by
  rw [← not_iff_not]
  exact Option.isSome_iff_ne_none.symm.trans BlockState.useReport_isSome

theorem checkFlow_eq_none_iff : checkFlow span mutates l s = none ↔
    s.ptrIsRawOwned l = true ∨
      s.freedKind l = .notFreed ∧ mutates = true ∧ (s.muRawPtr.get l).isSome = true := by
  unfold checkFlow
  dsimp only
  split
  · next finding hreport =>
      have hfreed : s.freedKind l ≠ .notFreed := BlockState.useReport_freed hreport
      refine iff_of_false (Option.some_ne_none finding) ?_
      rintro (howned | ⟨hkind, -⟩)
      · exact hfreed (freedKind_of_owned howned)
      · exact hfreed hkind
  · next hreport =>
      have hkind : s.freedKind l = .notFreed := useReport_eq_none.mp hreport
      rw [← Bool.and_eq_true]
      split <;> rename_i howned
      · exact iff_of_true rfl (.inl howned)
      · split <;> rename_i huninit
        · exact iff_of_true rfl (.inr ⟨hkind, huninit⟩)
        · exact iff_of_false (Option.some_ne_none _) (not_or.mpr ⟨howned, fun h => huninit h.2⟩)

/-- **The checker is silent about a dereference exactly if it has an excuse.** -/
theorem checkDeref_eq_none_iff :
    checkDeref info bb si span mutates (flow.stateAtLocation tcx bb si) base = none ↔
      Excuse tcx info flow bb si span mutates base := by
  constructor
  · intro h
    unfold checkDeref at h
    split at h
    · next hbox =>
        obtain ⟨hlocal, hbox⟩ := Bool.and_eq_true_iff.mp hbox
        obtain ⟨b, htrace, hbox⟩ := derivesWithin_iff.mp hbox
        exact .box hlocal htrace hbox
    · split at h
      · next hexp => exact .expansion hexp
      · split at h
        · next hinlined => exact .inlined (isInlined_iff.mp hinlined)
        · split at h
          · next s hs =>
              obtain ⟨hlocal, hs⟩ := Option.ite_none_right_eq_some.mp hs
              rcases checkFlow_eq_none_iff.mp h with howned | ⟨hkind, hmut, huninit⟩
              · exact .owned hlocal hs howned
              · exact .uninit hlocal hs hkind hmut huninit
          · cases h
  · intro h
    unfold checkDeref
    cases h with
    | expansion hexp => simp [hexp]
    | inlined hinlined => simp [isInlined_iff.mpr hinlined]
    | box hlocal htrace hbox =>
        have hderives : derivesFromBox info base.base = true :=
          derivesWithin_iff.mpr ⟨_, htrace, hbox⟩
        rw [if_pos (Bool.and_eq_true_iff.mpr ⟨hlocal, hderives⟩)]
    | owned hlocal hs howned =>
        rw [if_pos hlocal, hs]
        dsimp only
        rw [checkFlow_eq_none_iff.mpr (.inl howned)]
        simp
    | uninit hlocal hs hkind hmut huninit =>
        rw [if_pos hlocal, hs]
        dsimp only
        rw [checkFlow_eq_none_iff.mpr (.inr ⟨hkind, hmut, huninit⟩)]
        simp

/-- What is said about a dereference: it is to be audited, or a use after free. -/
theorem checkDeref_cases {state : Option BlockState}
    (h : checkDeref info bb si span mutates state base = some finding) :
    (∃ access, finding = ⟨"raw_ptr_deref", .warning, span, auditMessage access⟩) ∨
      ∃ s op, state = some s ∧ s.useReport span (base.base, op) = some finding := by
  unfold checkDeref at h
  split at h
  · cases h
  · split at h
    · cases h
    · split at h
      · cases h
      · split at h
        · next s hs =>
            unfold checkFlow at h
            dsimp only at h
            split at h
            · next hreport =>
                cases h
                exact .inr ⟨s, _, (Option.ite_none_right_eq_some.mp hs).2, hreport⟩
            · split at h
              · cases h
              · split at h
                · cases h
                · exact .inl ⟨_, (Option.some.inj h).symm⟩
        · exact .inl ⟨_, (Option.some.inj h).symm⟩

theorem checkDeref_of_freed (hbox : derivesFromBox info l = false)
    (hexp : span.fromExpansion = false) (hinlined : isInlined info bb si = false)
    (hreport : s.useReport span (l, if mutates then "write" else "read") = some finding) :
    checkDeref info bb si span mutates (some s) (Place.ofLocal l) = some finding := by
  have hpassed : ((Place.ofLocal l).isLocal && derivesFromBox info (Place.ofLocal l).base) = false :=
    (Bool.true_and _).trans hbox
  unfold checkDeref
  rw [hpassed, hexp, hinlined]
  show checkFlow span mutates l s = some finding
  unfold checkFlow
  dsimp only
  rw [hreport]

theorem mem_check {access : Access} (hsi : si ≤ (body.basicBlocks bb).statements.length)
    (hspan : body.spanAt bb si = some span) (haccess : access ∈ accessesAt info bb si)
    (hbase : base ∈ rawDerefs info access.place)
    (h : checkDeref info bb si span access.mutates (flow.stateAtLocation tcx bb si) base =
      some finding) : finding ∈ check info tcx flow := by
  unfold check checkLocation
  refine List.mem_flatMap.mpr ⟨bb, List.mem_finRange bb, List.mem_flatMap.mpr
    ⟨si, List.mem_range.mpr (Nat.lt_succ_of_le hsi), ?_⟩⟩
  rw [hspan, Option.elim_some]
  exact List.mem_flatMap.mpr ⟨access, haccess, List.mem_filterMap.mpr ⟨base, hbase, h⟩⟩

end

end RawPtrDeref

/-- **Every dereference of a raw pointer is accounted for.**  The checker is silent about a
dereference in a function of the crate exactly if there is an excuse for it; and if there is none,
then the report of the crate has the dereference, to be audited or as a use after free. -/
theorem raw_deref_accounted (c : Crate) {checkers : List Checker}
    {info : (body : Body) → SourceInfo body} (hchecker : RawPtrDeref.checker info ∈ checkers)
    {f : DefId} (hf : f ∈ c.localFns) (bb : (c.optimizedMir f).BasicBlock) {si : Nat}
    (hsi : si ≤ ((c.optimizedMir f).basicBlocks bb).statements.length) {span : Span}
    (hspan : (c.optimizedMir f).spanAt bb si = some span) {access : Access}
    (haccess : access ∈ RawPtrDeref.accessesAt (info (c.optimizedMir f)) bb si) {base : Place}
    (hbase : base ∈ RawPtrDeref.rawDerefs (info (c.optimizedMir f)) access.place) :
    (RawPtrDeref.checkDeref (info (c.optimizedMir f)) bb si span access.mutates
        ((c.flow f).stateAtLocation c.tcx bb si) base = none ↔
      RawPtrDeref.Excuse c.tcx (info (c.optimizedMir f)) (c.flow f) bb si span access.mutates
        base) ∧
    (RawPtrDeref.Excuse c.tcx (info (c.optimizedMir f)) (c.flow f) bb si span access.mutates base ∨
      ("raw_ptr_deref", span.lo, span.hi) ∈ (runChecks c checkers).map Finding.key ∨
      ("use_after_free", span.lo, span.hi) ∈ (runChecks c checkers).map Finding.key) := by
  refine ⟨RawPtrDeref.checkDeref_eq_none_iff, ?_⟩
  rw [← RawPtrDeref.checkDeref_eq_none_iff]
  cases hcheck : RawPtrDeref.checkDeref (info (c.optimizedMir f)) bb si span access.mutates
      ((c.flow f).stateAtLocation c.tcx bb si) base with
  | none => exact .inl rfl
  | some finding =>
      right
      have hmem : finding ∈ c.findings checkers :=
        Crate.mem_findings hchecker hf (RawPtrDeref.mem_check hsi hspan haccess hbase hcheck)
      rcases RawPtrDeref.checkDeref_cases hcheck with ⟨op, rfl⟩ | ⟨s, op, -, hreport⟩
      · exact .inl (Crate.key_mem_report hmem (by decide : "raw_ptr_deref" ≠ backstopRule))
      · have hkey := BlockState.useReport_key hreport
        have hrule : finding.ruleId = "use_after_free" := congrArg Prod.fst hkey
        exact .inr (hkey ▸ Crate.key_mem_report hmem (hrule ▸ by decide))

/-- Nothing is inlined, boxed or hidden. -/
def SourceInfo.plain (body : Body) : SourceInfo body where
  elemTy ty _ := ty
  isBox _ := false
  sourceScopes := []
  scopeAt _ _ := 0
  borrowsMutably _ _ := false
  hidden _ _ := []
  parent_lt _ _ h := absurd h (Option.some_ne_none _).symm

/-- The write to freed memory is accounted for. -/
theorem raw_deref_accounted_write :
    RawPtrDeref.Excuse readsAfterFree.tcx (SourceInfo.plain readsFreed)
        (readsAfterFree.flow ⟨0, 0⟩) (3 : Fin 4) 0 .none true (Place.ofLocal (Local.ofNat 1)) ∨
      ("raw_ptr_deref", 0, 0) ∈
        (runChecks readsAfterFree [RawPtrDeref.checker SourceInfo.plain]).map Finding.key ∨
      ("use_after_free", 0, 0) ∈
        (runChecks readsAfterFree [RawPtrDeref.checker SourceInfo.plain]).map Finding.key :=
  (raw_deref_accounted readsAfterFree (f := ⟨0, 0⟩) List.mem_cons_self List.mem_cons_self (3 : Fin 4)
    (Nat.zero_le _) rfl List.mem_cons_self List.mem_cons_self).2

/-! ## Uses after free -/

/-- At the location, written there and not for a box, the raw pointer in `l` is followed. -/
structure DirectDeref {body : Body} (info : SourceInfo body) (bb : body.BasicBlock) (si : Nat)
    (span : Span) (mutates : Bool) (l : Local) : Prop where
  le : si ≤ (body.basicBlocks bb).statements.length
  spanAt : body.spanAt bb si = some span
  visited : ∃ access ∈ RawPtrDeref.accessesAt info bb si,
    access.mutates = mutates ∧ Place.ofLocal l ∈ RawPtrDeref.rawDerefs info access.place
  notBox : RawPtrDeref.derivesFromBox info l = false
  notExpansion : span.fromExpansion = false
  notInlined : RawPtrDeref.isInlined info bb si = false

section Uses
variable {c : Crate} {f : DefId} {checkers : List Checker}
  {info : (body : Body) → SourceInfo body} {bb : (c.optimizedMir f).BasicBlock} {si : Nat}
  {span : Span} {mutates : Bool} {l : Local}

/-- What the merged state takes to be freed is reported. -/
theorem DirectDeref.reported (hchecker : RawPtrDeref.checker info ∈ checkers) (hf : f ∈ c.localFns)
    (hsite : DirectDeref (info (c.optimizedMir f)) bb si span mutates l) {s : BlockState}
    (hs : (c.flow f).stateAtLocation c.tcx bb si = some s) (hfreed : s.freedKind l ≠ .notFreed) :
    ("use_after_free", span.lo, span.hi) ∈ (runChecks c checkers).map Finding.key := by
  obtain ⟨access, haccess, rfl, hbase⟩ := hsite.visited
  obtain ⟨finding, hreport⟩ := Option.isSome_iff_exists.mp
    ((BlockState.useReport_isSome : (s.useReport span
      (l, if access.mutates then "write" else "read")).isSome = true ↔ _).mpr hfreed)
  have hcheck : RawPtrDeref.checkDeref (info (c.optimizedMir f)) bb si span access.mutates
      ((c.flow f).stateAtLocation c.tcx bb si) (Place.ofLocal l) = some finding := by
    rw [hs]
    exact RawPtrDeref.checkDeref_of_freed hsite.notBox hsite.notExpansion hsite.notInlined hreport
  have hmem : finding ∈ c.findings checkers := Crate.mem_findings hchecker hf
    (RawPtrDeref.mem_check hsite.le hsite.spanAt haccess hbase hcheck)
  have hkey := BlockState.useReport_key hreport
  have hrule : finding.ruleId = "use_after_free" := congrArg Prod.fst hkey
  rw [← hkey]
  exact Crate.key_mem_report hmem (hrule ▸ by decide)

end Uses

theorem Usage.ReadsLive.take {L : Finset Local} {stmts : List Statement}
    (h : Usage.ReadsLive L stmts) (n : Nat) : Usage.ReadsLive L (stmts.take n) := by
  induction stmts generalizing L n with
  | nil => rw [List.take_nil]; exact trivial
  | cons stmt rest ih =>
      cases n with
      | zero => exact trivial
      | succ n => exact ⟨h.1, ih h.2 n⟩

/-- The state of a path, at a location in the block that it leads to. -/
def Crate.atLocation (c : Crate) (f : DefId) (bb : (c.optimizedMir f).BasicBlock) (si : Nat)
    (p : BlockState) : BlockState :=
  applyStatements c.tcx (c.optimizedMir f)
    (((c.optimizedMir f).basicBlocks bb).statements.take si) p

section Paths
variable {c : Crate} {f : DefId} {live : (c.optimizedMir f).BasicBlock → Finset Local}
  {ρ C : Option HeapState → Option HeapState → Prop}

/-- Paths are simulated at every location. -/
theorem Crate.heapSim_at_location (hρ : HeapRel ρ) (hm : MergeRel ρ C)
    (hlive : (pointerUsage c.tcx (c.optimizedMir f) c.summaries).Live live)
    (hrun : (c.problem f).RunMeets fun b => HeapAgree C (live b))
    {bb : (c.optimizedMir f).BasicBlock} {e p : BlockState}
    (he : (c.flow f).entryStates bb = some e) (hp : (c.problem f).PathState bb p) (si : Nat) :
    HeapSim ρ
      (Usage.after (live bb) (((c.optimizedMir f).basicBlocks bb).statements.take si))
      (c.atLocation f bb si e) (c.atLocation f bb si p) :=
  ((heapSim_respects hρ c.tcx (c.optimizedMir f) c.summaries).statements bb
    (fun _ hx => List.mem_of_mem_take hx) (hlive.always bb) ((hlive.statements bb).take si)
    (heapSim_tracks_of_path hρ hm hlive (tracks_seed c.tcx (c.optimizedMir f)) hrun he hp)).1

/-- **A dereference of what is freed on some path is reported.**  Let the merges of a function agree
on where live locals point to, and never lose an object to an escape on one side.  If a live raw
pointer is followed, and some path to the place frees the object behind it, then the report of the
crate has a use after free there. -/
theorem freed_deref_reported {checkers : List Checker} {info : (body : Body) → SourceInfo body}
    (hchecker : RawPtrDeref.checker info ∈ checkers) (hf : f ∈ c.localFns)
    (hlive : (pointerUsage c.tcx (c.optimizedMir f) c.summaries).Live live)
    (hrun : (c.problem f).RunMeets fun b => HeapAgree NoEscape (live b))
    (bb : (c.optimizedMir f).BasicBlock) {si : Nat} {span : Span} {mutates : Bool} {l : Local}
    (hsite : DirectDeref (info (c.optimizedMir f)) bb si span mutates l)
    (hl : l ∈ Usage.after (live bb) (((c.optimizedMir f).basicBlocks bb).statements.take si))
    {p : BlockState} (hp : (c.problem f).PathState bb p)
    (hfreed : (c.atLocation f bb si p).freedKind l ≠ .notFreed) :
    ("use_after_free", span.lo, span.hi) ∈ (runChecks c checkers).map Finding.key := by
  obtain ⟨e, he⟩ := Option.isSome_iff_exists.mp
    ((FlowProblem.solution_isSome_iff bb).mpr hp.reaches)
  have hsim := c.heapSim_at_location keepsFrees_rel keepsFrees_merge hlive hrun he hp si
  -- the object that is freed on the path is freed in the merged state too
  obtain ⟨o, ho, hstate⟩ := BlockState.freedKind_ne_notFreed_iff.mp hfreed
  have hkind : (c.atLocation f bb si e).freedKind l ≠ .notFreed :=
    BlockState.freedKind_ne_notFreed_iff.mpr
      ⟨o, hsim.objectsFor_eq hl ▸ ho, (hsim.heap o).2 hstate⟩
  exact hsite.reported hchecker hf (congrArg (Option.map _) he) hkind

end Paths

/-- The write of `readsFreed` through the pointer that has been freed. -/
theorem readsFreed_write :
    DirectDeref (SourceInfo.plain readsFreed) (3 : Fin 4) 0 .none true (Local.ofNat 1) where
  le := Nat.zero_le _
  spanAt := rfl
  visited := ⟨_, List.mem_cons_self, rfl, List.mem_cons_self⟩
  notBox := by decide +kernel
  notExpansion := rfl
  notInlined := rfl

/-- The pointer is freed on the one path to the write. -/
theorem freed_deref_reported_write : ("use_after_free", 0, 0) ∈
    (runChecks readsAfterFree [RawPtrDeref.checker SourceInfo.plain]).map Finding.key := by
  have hrun : readsProblem.RunMeets fun b => HeapAgree NoEscape (readsLive b) :=
    FlowProblem.runMeets_of_done readsProblem_done (by decide +kernel)
  have hpath : (readsAfterFree.problem ⟨0, 0⟩).PathState (3 : Fin 4)
      (readsProblem.follow (0 : Fin 4) readsProblem.init ([1, 2, 3] : List (Fin 4))) := by
    rw [readsProblem_eq]
    exact (FlowProblem.PathState.start (P := readsProblem)).along ([1, 2, 3] : List (Fin 4))
      (by decide)
  exact freed_deref_reported List.mem_cons_self List.mem_cons_self readsLive_live
    (readsProblem_eq ▸ hrun) (3 : Fin 4) readsFreed_write (by decide +kernel) hpath
    (by decide +kernel)

/-! ## Causes -/

/-- The span is that of a statement or of the terminator of the block. -/
def Body.HasSpan (body : Body) (bb : body.BasicBlock) (span : Span) : Prop :=
  ∃ si ≤ (body.basicBlocks bb).statements.length, body.spanAt bb si = some span

theorem Body.hasSpan_of_callSite {body : Body} {bb : body.BasicBlock} {call : CallSite}
    (h : body.callSite bb = some call) : body.HasSpan bb call.span := by
  refine ⟨_, Nat.le_refl _, ?_⟩
  unfold Body.callSite at h
  unfold Body.spanAt
  rw [List.getElem?_eq_none (Nat.le_refl _)]
  split at h
  · next func args destination target unwind span hterm =>
      obtain ⟨item, -, rfl⟩ := Option.map_eq_some_iff.mp h
      rw [hterm]
      rfl
  · cases h

theorem BlockState.useReport_span {s : BlockState} {span : Span} {access : Local × String}
    {finding : Finding} (h : s.useReport span access = some finding) : finding.span = span := by
  rcases BlockState.useReport_cases h with ⟨-, rfl⟩ | ⟨-, rfl⟩ <;> rfl

/-- A use after free that a dereference is reported as. -/
theorem RawPtrDeref.use_of_mem_check {tcx : TyCtxt} {body : Body} {info : SourceInfo body}
    {flow : FlowResults body} {finding : Finding} (h : finding ∈ RawPtrDeref.check info tcx flow)
    (hrule : finding.ruleId = "use_after_free") :
    ∃ bb si s l op, body.HasSpan bb finding.span ∧ flow.stateAtLocation tcx bb si = some s ∧
      s.useReport finding.span (l, op) = some finding := by
  obtain ⟨bb, -, h⟩ := List.mem_flatMap.mp h
  obtain ⟨si, hsi, h⟩ := List.mem_flatMap.mp h
  unfold RawPtrDeref.checkLocation at h
  cases hspan : body.spanAt bb si with
  | none =>
      rw [hspan] at h
      cases h
  | some span =>
      rw [hspan, Option.elim_some] at h
      obtain ⟨access, -, h⟩ := List.mem_flatMap.mp h
      obtain ⟨base, -, h⟩ := List.mem_filterMap.mp h
      rcases RawPtrDeref.checkDeref_cases h with ⟨op, rfl⟩ | ⟨s, op, hs, hreport⟩
      · exact absurd hrule (by decide : "raw_ptr_deref" ≠ "use_after_free")
      · have hfinding := BlockState.useReport_span hreport
        subst hfinding
        exact ⟨bb, si, s, base.base, op, ⟨si, Nat.le_of_lt_succ (List.mem_range.mp hsi), hspan⟩,
          hs, hreport⟩

/-- **Every use after free has a cause.**  Whatever the report of this checker and of the pointer
rules has under `use_after_free` is in a block of a function of the crate, and a call that may free,
by its name or by the summary of its callee, comes before that block in the control flow. -/
theorem uaf_has_cause {c : Crate} (info : (body : Body) → SourceInfo body)
    (rules : List PointerRule) {finding : Finding}
    (h : finding ∈ runChecks c (RawPtrDeref.checker info :: rules.map PointerRule.checker))
    (hrule : finding.ruleId = "use_after_free") :
    ∃ f ∈ c.localFns, ∃ bb, (c.optimizedMir f).HasSpan bb finding.span ∧
      ∃ cause, (c.optimizedMir f).FreesAt c.tcx c.summaries cause ∧
        (c.optimizedMir f).Precedes cause bb := by
  -- it comes from a state in which an object is freed
  obtain ⟨f, hf, bb, e, stmts, l, hspan, he, hfreed⟩ : ∃ f ∈ c.localFns, ∃ bb e stmts l,
      (c.optimizedMir f).HasSpan bb finding.span ∧ (c.flow f).entryStates bb = some e ∧
      (applyStatements c.tcx (c.optimizedMir f) stmts e).freedKind l ≠ .notFreed := by
    rcases Crate.check_of_mem_runChecks h with ⟨checker, hchecker, hmem⟩ |
      ⟨f, hf, checker, hchecker, hmem⟩
    · rcases List.mem_cons.mp hchecker with rfl | hchecker
      · cases hmem
      · obtain ⟨R, -, rfl⟩ := List.mem_map.mp hchecker
        cases hmem
    · rcases List.mem_cons.mp hchecker with rfl | hchecker
      · obtain ⟨bb, si, s, l, op, hspan, hs, hreport⟩ := RawPtrDeref.use_of_mem_check hmem hrule
        obtain ⟨e, he, rfl⟩ := Option.map_eq_some_iff.mp hs
        exact ⟨f, hf, bb, e, _, l, hspan, he, BlockState.useReport_freed hreport⟩
      · obtain ⟨R, -, rfl⟩ := List.mem_map.mp hchecker
        obtain ⟨bb, call, s, access, hcall, hs, -, hreport⟩ :=
          PointerRule.use_of_mem_check hmem hrule
        obtain ⟨e, he, rfl⟩ := Option.map_eq_some_iff.mp hs
        exact ⟨f, hf, bb, e, _, access.1,
          BlockState.useReport_span hreport ▸ Body.hasSpan_of_callSite hcall, he,
          BlockState.useReport_freed hreport⟩
  obtain ⟨o, -, ho⟩ := BlockState.freedKind_ne_notFreed_iff.mp hfreed
  exact ⟨f, hf, bb, hspan, freed_before he ho⟩

/-- So a call that may free comes before the write. -/
theorem uaf_has_cause_write : ∃ finding : Finding, finding.key = ("use_after_free", 0, 0) ∧
    ∃ f ∈ readsAfterFree.localFns, ∃ bb,
      (readsAfterFree.optimizedMir f).HasSpan bb finding.span ∧
      ∃ cause, (readsAfterFree.optimizedMir f).FreesAt readsAfterFree.tcx
          readsAfterFree.summaries cause ∧
        (readsAfterFree.optimizedMir f).Precedes cause bb := by
  obtain ⟨e, he, hq⟩ := FlowProblem.exists_solution readsProblem_done (n := (3 : Fin 4))
    (q := fun s => decide (s.freedKind (Local.ofNat 1) ≠ .notFreed)) (by decide +kernel)
  have hs : (readsAfterFree.flow ⟨0, 0⟩).stateAtLocation readsAfterFree.tcx (3 : Fin 4) 0 =
      some e := by
    have hsolution : (readsAfterFree.problem ⟨0, 0⟩).solution (3 : Fin 4) = some e := by
      rw [readsProblem_eq]
      exact he
    exact congrArg (Option.map _) hsolution
  have hreported : ("use_after_free", 0, 0) ∈ (runChecks readsAfterFree
      (RawPtrDeref.checker SourceInfo.plain :: [].map PointerRule.checker)).map Finding.key :=
    DirectDeref.reported (f := ⟨0, 0⟩) List.mem_cons_self List.mem_cons_self readsFreed_write hs
      (of_decide_eq_true hq)
  obtain ⟨finding, hmem, hkey⟩ := List.mem_map.mp hreported
  exact ⟨finding, hkey, uaf_has_cause SourceInfo.plain [] hmem (congrArg Prod.fst hkey)⟩

end San
