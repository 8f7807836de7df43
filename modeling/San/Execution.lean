import San.MustFacts
import San.Values

/-! # Executions

An execution of a body visits its blocks one after the other and carries a store.  Only the
numbers that locals hold are modelled: what is behind pointers, what a callee does and what a
statement does that the analysis does not look into is left open, except that none of it changes
a number whose address the body never takes (`Body.Disturbs`).  So every run of the compiled
function is an execution in this sense, and there may be more.

`Visits.entry_holds` is the rule for relating the analysis to executions: a relation that every
edge carries along, and that a merge only weakens, holds at every visit between the entry state
of the block and the store.
-/
namespace San

/-! ## Numbers out of reach -/

/-- The locals whose address the rvalue takes. -/
def Rvalue.exposes : Rvalue → List Local
  | .ref p => if p.hasDeref then [] else [p.base]
  | .rawPtr p => if p.hasDeref then [] else [p.base]
  | _ => []

def Statement.exposes (stmt : Statement) : List Local :=
  match stmt.kind with
  | .assign _ rvalue => rvalue.exposes
  | .other => []

/-- The body never takes the address of the local. -/
def Body.IsPrivate (body : Body) (l : Local) : Prop :=
  ∀ b, ∀ stmt ∈ (body.basicBlocks b).statements, l ∉ stmt.exposes

instance (body : Body) (l : Local) : Decidable (body.IsPrivate l) :=
  inferInstanceAs (Decidable (∀ b, ∀ stmt ∈ (body.basicBlocks b).statements, l ∉ stmt.exposes))

/-- From `σ` to `τ`, only what can be reached through pointers has been written, or what is no
number. -/
def Body.Disturbs (body : Body) (σ τ : Store) : Prop :=
  ∀ l, (body.localTy l).isScalar = true → body.IsPrivate l → τ l = σ l

/-! ## Steps -/

theorem Place.eq_ofLocal {p : Place} (h : p.isLocal = true) : p = Place.ofLocal p.base := by
  obtain ⟨base, projection⟩ := p
  cases List.isEmpty_iff.mp h
  rfl

/-- The whole local that a statement assigns, and what it assigns to it. -/
def Statement.assignment (stmt : Statement) : Option (Local × Rvalue) :=
  match stmt.kind with
  | .assign dst rvalue => if dst.isLocal then some (dst.base, rvalue) else none
  | .other => none

theorem Statement.kind_of_assignment {stmt : Statement} {dst : Local} {rvalue : Rvalue}
    (h : stmt.assignment = some (dst, rvalue)) : stmt.kind = .assign (Place.ofLocal dst) rvalue := by
  unfold Statement.assignment at h
  split at h
  · rename_i place rv hkind
    split at h
    · rename_i hlocal
      cases h
      rw [hkind, ← Place.eq_ofLocal hlocal]
    · cases h
  · cases h

/-- What a statement does to the store.  The value of a local that is no number is left open. -/
def Statement.Executes (body : Body) (stmt : Statement) (σ τ : Store) : Prop :=
  match stmt.kind with
  | .assign dst rvalue =>
      if dst.isLocal then
        ∃ v, ((body.localTy dst.base).isScalar = true → MayYield body σ dst.base rvalue v) ∧
          τ = σ.set dst.base v
      else body.Disturbs σ τ
  | .other => body.Disturbs σ τ

/-- The statements run one after the other. -/
def ExecutesAll (body : Body) : List Statement → Store → Store → Prop
  | [], σ, τ => τ = σ
  | stmt :: stmts, σ, τ => ∃ m, stmt.Executes body σ m ∧ ExecutesAll body stmts m τ

/-- What a terminator does to the store on its way to `succ`.  The outputs of inline assembly and
of a resumed coroutine are not part of the model, so they may be anything. -/
def Terminator.Leaves (body : Body) (term : Terminator body.numBlocks) (σ : Store)
    (succ : body.BasicBlock) (τ : Store) : Prop :=
  match term.kind with
  | .switchInt discr targets =>
      τ = σ ∧ ∀ c, operandLocal discr = some c → succ = targets.select (σ c)
  | .assert cond expected target _ =>
      τ = σ ∧ (succ = target → ∀ c, operandLocal cond = some c → (σ c ≠ 0 ↔ expected = true))
  | .call _ _ destination _ _ =>
      ∃ m, body.Disturbs σ m ∧
        if destination.isLocal then
          ∃ v, (body.localTy destination.base).InRange v ∧ τ = m.set destination.base v
        else τ = m
  | .drop _ _ _ => body.Disturbs σ τ
  | .yield _ _ | .inlineAsm _ _ => True
  | _ => τ = σ

/-- Control passes from the entry of `bb` to that of `succ`. -/
structure Body.Passes (body : Body) (bb : body.BasicBlock) (σ : Store) (succ : body.BasicBlock)
    (τ : Store) : Prop where
  step : ∃ m term, ExecutesAll body (body.basicBlocks bb).statements σ m ∧
    (body.basicBlocks bb).terminator = some term ∧ term.Leaves body m succ τ
  succ_mem : succ ∈ blockSuccessors (body.basicBlocks bb)

/-- The stores that the body may be entered with.  What a local holds that is no parameter is not
read before it is written, so it may be taken for a value of the type of the local. -/
def Body.Enters (body : Body) (σ : Store) : Prop := ∀ l, (body.localTy l).InRange (σ l)

/-- Some execution arrives at the entry of the block with the store. -/
inductive Body.Visits (body : Body) : body.BasicBlock → Store → Prop
  | entry {σ : Store} : body.Enters σ → Visits body body.entryBlock σ
  | next {bb succ : body.BasicBlock} {σ τ : Store} :
      Visits body bb σ → body.Passes bb σ succ τ → Visits body succ τ

/-- Some execution arrives at the terminator of the block with the store. -/
def Body.ArrivesAt (body : Body) (bb : body.BasicBlock) (τ : Store) : Prop :=
  ∃ σ, body.Visits bb σ ∧ ExecutesAll body (body.basicBlocks bb).statements σ τ

/-! ## The rule -/

theorem ProvenIn.of_not_changed {a e : BlockState} (hch : (a.joinWith e).2 = false) :
    ProvenIn a e := by
  have hw := joined_writes a hch
  have h := ProvenIn.joined_right a e
  exact
    { mustSets := fun k hk => (show (a.joined e).mustSets k = a.mustSets k from
        hw (.mustSet k) (by simp)) ▸ h.mustSets k hk
      mustPairs := fun k => (show (a.joined e).mustPairs k = a.mustPairs k from
        hw (.mustPairs k) (by simp)) ▸ h.mustPairs k
      constUpper := (show (a.joined e).constUpper = a.constUpper from
        hw .constUpper (by simp)) ▸ h.constUpper
      constLower := (show (a.joined e).constLower = a.constLower from
        hw .constLower (by simp)) ▸ h.constLower }

section Rule
variable (tcx : TyCtxt) (body : Body) (summaries : SummaryMap) (initial : BlockState)

/-- What an entry state proves is proven on every edge into its block. -/
theorem provenIn_covering : (flowProblem tcx body summaries initial).Covering
    (fun _ _ _ => True) (fun _ u e => ProvenIn u e) where
  refl _ e := .refl e
  merge _ a e _ _ := .joined_right a e
  keep _ _ _ _ hch := .of_not_changed hch
  mono _ a e _ _ _ h := (ProvenIn.joined_left a e).trans h

variable {tcx body summaries initial}

/-- **Relating the analysis to executions.**  Let `R` hold between the initial state and every
store that the body can be entered with, be carried along by every step to another block, and be
weakened by merges only.  Then every block that an execution visits has an entry state, and `R`
holds between it and the store. -/
theorem Body.Visits.entry_holds {R : BlockState → Store → Prop}
    (hinit : ∀ σ, body.Enters σ → R initial σ)
    (hedge : ∀ {bb succ s σ τ}, body.Visits bb σ →
      runFixpoint tcx body summaries initial bb = some s → R s σ → body.Passes bb σ succ τ →
      R (edgeState tcx body summaries bb s succ) τ)
    (hweaken : ∀ {s e σ}, ProvenIn s e → R e σ → R s σ)
    {bb : body.BasicBlock} {σ : Store} (h : body.Visits bb σ) :
    ∃ s, runFixpoint tcx body summaries initial bb = some s ∧ R s σ := by
  obtain ⟨⟨u, hu, hstart⟩, hedges⟩ := FlowProblem.run_covers
    (provenIn_covering tcx body summaries initial) FlowProblem.runMeets_trivial
  induction h with
  | entry hσ => exact ⟨u, hu, hweaken hstart (hinit _ hσ)⟩
  | next hvisit hpass ih =>
      obtain ⟨s, hs, hR⟩ := ih
      obtain ⟨t, ht, hproven⟩ := hedges _ s hs _ hpass.succ_mem
      exact ⟨t, ht, hweaken hproven (hedge hvisit hs hR hpass)⟩

end Rule

/-! ## Assignments and other statements -/

section Statements
variable {body : Body} {σ τ : Store} {stmt : Statement}

theorem Statement.Executes.of_assignment {dst : Local} {rvalue : Rvalue}
    (hstmt : stmt.assignment = some (dst, rvalue)) (h : stmt.Executes body σ τ) :
    ∃ v, ((body.localTy dst).isScalar = true → MayYield body σ dst rvalue v) ∧
      τ = σ.set dst v := by
  unfold Statement.Executes at h
  rw [Statement.kind_of_assignment hstmt] at h
  exact h

/-- A statement that assigns no whole local leaves the private numbers alone. -/
theorem Statement.Executes.disturbs (h : stmt.Executes body σ τ) (hstmt : stmt.assignment = none) :
    body.Disturbs σ τ := by
  unfold Statement.Executes at h
  unfold Statement.assignment at hstmt
  split at h
  · rename_i dst rvalue hkind
    rw [hkind] at hstmt
    dsimp only at hstmt
    split at h
    · rename_i hlocal
      rw [if_pos hlocal] at hstmt
      cases hstmt
    · exact h
  · exact h

/-- What the analysis writes at such a statement. -/
theorem applyStatement_writes_of_assignment_none (tcx : TyCtxt) (body : Body) (s : BlockState)
    (hstmt : stmt.assignment = none) :
    Writes (.activeVariant :: (Field.tracked ++ Field.contents)) s
      (applyStatement tcx body stmt s) := by
  unfold Statement.assignment at hstmt
  unfold applyStatement
  split
  · exact .refl _ s
  · rename_i dst rvalue hkind
    rw [hkind] at hstmt
    dsimp only at hstmt ⊢
    split
    · rename_i hlocal
      rw [if_pos hlocal] at hstmt
      cases hstmt
    · exact ((s.invalidateOwners_writes {dst.base}).mono (by decide)).trans
        (assignProjected_writes _ tcx body dst rvalue)

end Statements

end San
