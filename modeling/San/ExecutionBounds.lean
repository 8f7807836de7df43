import San.Guards
import San.NumberFrames

/-! # Constant bounds in every execution

`San.Intervals` says what one assignment and one edge do to the bounds of locals.  This module
follows them through whole executions.  The bounds of a set of numbers are right at every visit,
whatever loops and merges there are, if the set is tracked (`Body.Tracks`): the numbers are
private and unsigned, are computed from each other, and a switch on a comparison follows it in
its block, before the compared local is assigned again.

The last condition is needed, since a recorded comparison outlives assignments to the local that
has been compared.
-/
namespace San

/-! ## Statements -/

/-- The state with the bounds of `L` only. -/
def BlockState.boundsOn (s : BlockState) (L : Finset Local) : BlockState :=
  { s with
    constUpper := s.constUpper.retain fun l _ => decide (l ∈ L)
    constLower := s.constLower.retain fun l _ => decide (l ∈ L) }

theorem SameBounds.boundsOn (s : BlockState) (L : Finset Local) : SameBounds L (s.boundsOn L) s := by
  have hget : ∀ (m : FMap Local U64) {x : Local}, x ∈ L →
      m.get x = (m.retain fun l _ => decide (l ∈ L)).get x := by
    intro m x hx
    rw [FMap.get_retain]
    cases m.get x with
    | none => rfl
    | some v => exact (if_pos (decide_eq_true hx)).symm
  exact fun x hx => ⟨hget _ hx, hget _ hx⟩

/-- The locals of `L` are within their bounds. -/
def BoundedOn (L : Finset Local) (s : BlockState) (σ : Store) : Prop := ∀ x ∈ L, InBounds s x (σ x)

section Statements
variable {L : Finset Local} {s t : BlockState} {σ τ : Store} {x dst : Local} {rvalue : Rvalue}
  {v : Nat} {F : List Field} {stmt : Statement} {body : Body}

theorem InBounds.congr (h : InBounds s x v) (hupper : t.constUpper.get x = s.constUpper.get x)
    (hlower : t.constLower.get x = s.constLower.get x) : InBounds t x v := by
  unfold InBounds
  rw [hupper, hlower]
  exact h

theorem InBounds.loosen (h : InBounds s x v) (hl : Loosened x s t) : InBounds t x v :=
  ⟨fun u hu => h.1 u (hl.upper u hu), fun l hl' => h.2 l (hl.lower l hl')⟩

theorem InBounds.frame (h : InBounds s x v) (hw : Writes F s t)
    (hF : ∀ f ∈ F, f ≠ .constUpper ∧ f ≠ .constLower) : InBounds t x v :=
  h.congr (congrArg (FMap.get · x) (show t.constUpper = s.constUpper from
      hw .constUpper fun hm => (hF _ hm).1 rfl))
    (congrArg (FMap.get · x) (show t.constLower = s.constLower from
      hw .constLower fun hm => (hF _ hm).2 rfl))

theorem BoundedOn.boundsOn (h : BoundedOn L s σ) : Bounded (s.boundsOn L) σ := by
  have hmem : ∀ {m : FMap Local U64} {x : Local} {u : U64},
      (m.retain fun l _ => decide (l ∈ L)).get x = some u → x ∈ L ∧ m.get x = some u := by
    intro m x u hu
    obtain ⟨hget, hL⟩ := FMap.get_retain_eq_some.mp hu
    exact ⟨of_decide_eq_true hL, hget⟩
  refine fun x => ⟨fun u hu => ?_, fun l hl => ?_⟩
  · exact (h x (hmem hu).1).1 u (hmem hu).2
  · exact (h x (hmem hl).1).2 l (hmem hl).2

/-- **An assignment among the numbers of `L`** keeps their bounds, whatever is known of other
locals. -/
theorem BoundedOn.applyStatement (h : BoundedOn L s σ) (tcx : TyCtxt)
    (hstmt : stmt.kind = .assign (Place.ofLocal dst) rvalue)
    (hty : (body.localTy dst).IsSmallUnsigned) (hsources : ∀ l ∈ rvalue.sources, l ∈ L)
    (hlocals : rvalue.UnsignedLocals body) (hshift : rvalue.ShiftsWithin (body.localTy dst).bits)
    (hv : MayYield body σ dst rvalue v) :
    BoundedOn L (San.applyStatement tcx body stmt s) (σ.set dst v) := by
  have hbounded := h.boundsOn.applyStatement tcx hstmt hty hlocals hshift hv
  have hsame := (SameBounds.boundsOn s L).applyStatement tcx body hstmt hsources
  intro x hx
  have hmem := Finset.mem_insert_of_mem (a := x) (b := dst) hx
  exact (hbounded x).congr (hsame x hmem).1 (hsame x hmem).2

/-- A step that writes no bounds, and disturbs no private number. -/
theorem BoundedOn.disturb (h : BoundedOn L s σ) (hw : Writes F s t)
    (hF : ∀ f ∈ F, f ≠ .constUpper ∧ f ≠ .constLower) (hσ : ∀ x ∈ L, τ x = σ x) :
    BoundedOn L t τ := by
  intro x hx
  rw [hσ x hx]
  exact (h x hx).frame hw hF

end Statements

/-! ## Tracked numbers -/

/-- The amount of a right shift by a constant. -/
def Rvalue.shiftAmount : Rvalue → Option U64
  | .binaryOp .shr _ op2 => constU64 op2
  | _ => none

theorem Rvalue.shiftsWithin_of {rvalue : Rvalue} {bits : Nat}
    (h : ∀ k ∈ rvalue.shiftAmount, k.val < bits) : rvalue.ShiftsWithin bits := by
  unfold Rvalue.ShiftsWithin
  split
  · exact fun k hk => h k hk
  · trivial

/-- What `dst` receives is computed from the numbers of `N`, as unsigned numbers are. -/
def Rvalue.FedBy (body : Body) (N : Finset Local) (dst : Local) (rvalue : Rvalue) : Prop :=
  (∀ l ∈ rvalue.sources, l ∈ N) ∧
    (∀ l ∈ rvalue.locals, (body.localTy l).isInteger = true → (body.localTy l).IsSmallUnsigned) ∧
    ∀ k ∈ rvalue.shiftAmount, k.val < (body.localTy dst).bits

instance (body : Body) (N : Finset Local) (dst : Local) (rvalue : Rvalue) :
    Decidable (rvalue.FedBy body N dst) :=
  decidable_of_iff ((∀ l ∈ rvalue.sources, l ∈ N) ∧
    (∀ l ∈ rvalue.locals, (body.localTy l).isInteger = true → (body.localTy l).IsSmallUnsigned) ∧
    rvalue.shiftAmount.all fun k => k.val < (body.localTy dst).bits)
    (by simp only [Rvalue.FedBy, Option.all_eq_true, decide_eq_true_eq, Option.mem_def])

/-- The locals that the last assignment to `c` has read, if none of them has been assigned
since; `reads` is what it was before the statement. -/
def standingStep (c : Local) (reads : Option (List Local)) (stmt : Statement) :
    Option (List Local) :=
  match stmt.assignment with
  | some (dst, rvalue) =>
      if dst = c then (if c ∈ rvalue.locals then none else some rvalue.locals)
      else reads.filter fun ls => decide (dst ∉ ls)
  | none => reads

/-- After the statements, what `c` has been computed from is still there. -/
def standing (c : Local) (stmts : List Statement) : Option (List Local) :=
  stmts.foldl (standingStep c) none

/-- The local that a switch is on. -/
def Terminator.switchedOn {n : Nat} (term : Terminator n) : Option (Local × SwitchTargets n) :=
  match term.kind with
  | .switchInt discr targets => (operandLocal discr).map fun c => (c, targets)
  | _ => none

/-- The whole local that receives the result of a call through a function pointer. -/
def Terminator.indirectResult {n : Nat} (term : Terminator n) : Option Local :=
  match term.kind with
  | .call func _ destination _ _ =>
      if destination.isLocal && !func.constFnDef.isSome then some destination.base else none
  | _ => none

/-- The outputs of the terminator are not modelled. -/
def Terminator.isOpaque {n : Nat} (term : Terminator n) : Bool :=
  match term.kind with
  | .yield _ _ | .inlineAsm _ _ => true
  | _ => false

/-- The switch is on the outcome of a comparison of values that the compared locals still have,
and its edges are read right. -/
structure SwitchesAtOnce (body : Body) (stmts : List Statement) (c : Local)
    (targets : SwitchTargets body.numBlocks) : Prop where
  scalar : (body.localTy c).isScalar = true
  isPrivate : body.IsPrivate c
  canonical : targets.Canonical
  standing : (standing c stmts).isSome = true

instance {n : Nat} (targets : SwitchTargets n) : Decidable targets.Canonical :=
  decidable_of_iff (targets.target 0 ≠ none ∧ ∀ succ, targets.target 0 = some succ →
    targets.target 1 = some succ → succ = targets.otherwise)
    ⟨fun h => ⟨h.1, h.2⟩, fun h => ⟨h.zero, h.one⟩⟩

instance (body : Body) (stmts : List Statement) (c : Local)
    (targets : SwitchTargets body.numBlocks) : Decidable (SwitchesAtOnce body stmts c targets) :=
  decidable_of_iff ((body.localTy c).isScalar = true ∧ body.IsPrivate c ∧ targets.Canonical ∧
    (San.standing c stmts).isSome = true)
    ⟨fun h => ⟨h.1, h.2.1, h.2.2.1, h.2.2.2⟩,
      fun h => ⟨h.scalar, h.isPrivate, h.canonical, h.standing⟩⟩

/-- The bounds of the numbers of `N` can be followed. -/
structure Body.Tracks (body : Body) (N : Finset Local) : Prop where
  unsigned : ∀ l ∈ N, (body.localTy l).IsSmallUnsigned
  isPrivate : ∀ l ∈ N, body.IsPrivate l
  /-- The numbers are computed from each other. -/
  fed : ∀ b, ∀ stmt ∈ (body.basicBlocks b).statements, ∀ a ∈ stmt.assignment,
    a.1 ∈ N → a.2.FedBy body N a.1
  /-- Comparisons are switched on before anything they depend on changes. -/
  switches : ∀ b, ∀ term ∈ (body.basicBlocks b).terminator, ∀ on ∈ term.switchedOn,
    body.Compares on.1 → SwitchesAtOnce body (body.basicBlocks b).statements on.1 on.2
  /-- What a call through a pointer returns keeps the bounds of the old value. -/
  calls : ∀ b, ∀ term ∈ (body.basicBlocks b).terminator, ∀ l ∈ term.indirectResult, l ∉ N
  modelled : ∀ b, ∀ term ∈ (body.basicBlocks b).terminator, term.isOpaque = false

theorem Ty.isScalar_of_isSmallUnsigned {ty : Ty} (h : ty.IsSmallUnsigned) : ty.isScalar = true := by
  cases ty with
  | bool => rfl
  | char => rfl
  | uint w => rfl
  | _ => exact h.elim

namespace Body.Tracks
variable {body : Body} {N : Finset Local} {b : body.BasicBlock} {s : BlockState} {σ τ : Store}
  {stmt : Statement} {stmts : List Statement}

theorem disturbs (h : body.Tracks N) (hσ : body.Disturbs σ τ) : ∀ x ∈ N, τ x = σ x :=
  fun x hx => hσ x (Ty.isScalar_of_isSmallUnsigned (h.unsigned x hx)) (h.isPrivate x hx)

/-! ### Types -/

/-- The tracked numbers have values of their types. -/
theorem inRange_executes (h : body.Tracks N) (hexec : stmt.Executes body σ τ)
    (hσ : ∀ x ∈ N, (body.localTy x).InRange (σ x)) : ∀ x ∈ N, (body.localTy x).InRange (τ x) := by
  intro x hx
  cases hassign : stmt.assignment with
  | none =>
    rw [h.disturbs (hexec.disturbs hassign) x hx]
    exact hσ x hx
  | some a =>
    obtain ⟨dst, rvalue⟩ := a
    obtain ⟨v, hv, rfl⟩ := hexec.of_assignment hassign
    by_cases hdst : x = dst
    · subst hdst
      rw [Store.set_self]
      exact (hv (Ty.isScalar_of_isSmallUnsigned (h.unsigned x hx))).1
    · rw [Store.set_of_ne hdst]
      exact hσ x hx

theorem inRange_executesAll (h : body.Tracks N) (hexec : ExecutesAll body stmts σ τ)
    (hσ : ∀ x ∈ N, (body.localTy x).InRange (σ x)) : ∀ x ∈ N, (body.localTy x).InRange (τ x) := by
  induction stmts generalizing σ with
  | nil =>
    cases hexec
    exact hσ
  | cons stmt stmts ih =>
    obtain ⟨m, hstmt, hrest⟩ := hexec
    exact ih hrest (h.inRange_executes hstmt hσ)

theorem inRange_leaves (h : body.Tracks N) {succ : body.BasicBlock}
    {term : Terminator body.numBlocks} (hterm : (body.basicBlocks b).terminator = some term)
    (hleave : term.Leaves body σ succ τ) (hσ : ∀ x ∈ N, (body.localTy x).InRange (σ x)) :
    ∀ x ∈ N, (body.localTy x).InRange (τ x) := by
  have hmodelled := h.modelled b term hterm
  have hdisturbs : ∀ {τ : Store}, body.Disturbs σ τ → ∀ x ∈ N, (body.localTy x).InRange (τ x) := by
    intro τ hτ x hx
    rw [h.disturbs hτ x hx]
    exact hσ x hx
  obtain ⟨kind, span⟩ := term
  cases kind with
  | call func args destination target unwind =>
    obtain ⟨m, hm, hresult⟩ := hleave
    split at hresult
    · obtain ⟨v, hv, rfl⟩ := hresult
      intro x hx
      by_cases hdest : x = destination.base
      · rw [hdest, Store.set_self]
        exact hv
      · rw [Store.set_of_ne hdest]
        exact hdisturbs hm x hx
    · rw [hresult]
      exact hdisturbs hm
  | drop place target unwind => exact hdisturbs hleave
  | switchInt discr targets => exact hleave.1 ▸ hσ
  | assert cond expected target unwind => exact hleave.1 ▸ hσ
  | yield resume drop => cases hmodelled
  | inlineAsm targets unwind => cases hmodelled
  | _ =>
    cases hleave
    exact hσ

/-- **At every visit the tracked numbers have values of their types.** -/
theorem inRange_visits (h : body.Tracks N) (hvisit : body.Visits b σ) :
    ∀ x ∈ N, (body.localTy x).InRange (σ x) := by
  induction hvisit with
  | entry hσ => exact fun x _ => hσ x
  | next _ hpass ih =>
    obtain ⟨m, term, hexec, hterm, hleave⟩ := hpass.step
    exact h.inRange_leaves hterm hleave (h.inRange_executesAll hexec ih)

/-! ### Bounds -/

/-- **One statement** keeps the bounds of the tracked numbers. -/
theorem applyStatement (h : body.Tracks N) (tcx : TyCtxt)
    (hmem : stmt ∈ (body.basicBlocks b).statements) (hs : BoundedOn N s σ)
    (hexec : stmt.Executes body σ τ) : BoundedOn N (San.applyStatement tcx body stmt s) τ := by
  cases hassign : stmt.assignment with
  | none =>
    exact hs.disturb (applyStatement_writes_of_assignment_none tcx body s hassign) (by decide)
      (h.disturbs (hexec.disturbs hassign))
  | some a =>
    obtain ⟨dst, rvalue⟩ := a
    have hkind := Statement.kind_of_assignment hassign
    obtain ⟨v, hv, rfl⟩ := hexec.of_assignment hassign
    by_cases hdst : dst ∈ N
    · have hty := h.unsigned dst hdst
      obtain ⟨hsources, hlocals, hshift⟩ := h.fed b stmt hmem _ hassign hdst
      exact hs.applyStatement tcx hkind hty hsources hlocals (Rvalue.shiftsWithin_of hshift)
        (hv (Ty.isScalar_of_isSmallUnsigned hty))
    · intro x hx
      have hne : x ≠ dst := fun heq => hdst (heq ▸ hx)
      rw [Store.set_of_ne hne]
      exact (hs x hx).loosen (.applyStatement hne tcx body hkind s)

/-- **The statements of a block** keep them. -/
theorem applyStatements (h : body.Tracks N) (tcx : TyCtxt)
    (hmem : ∀ stmt ∈ stmts, stmt ∈ (body.basicBlocks b).statements) (hs : BoundedOn N s σ)
    (hexec : ExecutesAll body stmts σ τ) :
    BoundedOn N (San.applyStatements tcx body stmts s) τ := by
  induction stmts generalizing s σ with
  | nil =>
    cases hexec
    exact hs
  | cons stmt stmts ih =>
    obtain ⟨m, hstmt, hrest⟩ := hexec
    have hstep := h.applyStatement tcx (hmem stmt List.mem_cons_self) hs hstmt
    exact ih (fun x hx => hmem x (List.mem_cons_of_mem _ hx)) hstep hrest

end Body.Tracks

/-! ## Recorded comparisons -/

/-- What a fact says of the outcome `w` of the comparison and the value `v` of the local. -/
def NumFact.Correct (w v : Nat) : NumFact → Prop
  | .const kind k => w ≠ 0 ↔ kind.Holds v k.val
  | .ifTrue => w ≠ 0 → v ≠ 0
  | .ifFalse => w = 0 → v ≠ 0

section Comparisons
variable {body : Body} {σ τ : Store} {op : BinOp} {op1 op2 : Operand} {w : Nat} {c x : Local}
  {f : NumFact}

theorem ConstComparison.operand {kind : ConstFact} {k : U64}
    (h : ConstComparison op op1 op2 kind x k) :
    operandLocal op1 = some x ∨ operandLocal op2 = some x := by
  cases op <;> cases kind <;> first
    | exact h.elim
    | exact Or.inl h.1
    | exact Or.inr h.1

/-- A fact is recorded of a local that is compared. -/
theorem Records.mem_locals (h : Records op op1 op2 x f) :
    x ∈ (Rvalue.binaryOp op op1 op2).locals := by
  have hop : operandLocal op1 = some x ∨ operandLocal op2 = some x := by
    cases f with
    | const kind k => exact ConstComparison.operand h
    | ifTrue =>
      rcases h with ⟨_, hzero⟩ | hcmp | ⟨k, _, hcmp⟩
      · exact (comparedWithZero_eq_some hzero).imp And.left And.left
      · exact hcmp.operand
      · exact hcmp.operand
    | ifFalse => exact (comparedWithZero_eq_some h.2).imp And.left And.left
  have hmem : ∀ {o : Operand}, operandLocal o = some x → x ∈ o.locals := fun ho =>
    Classical.byContradiction fun hnot => operandLocal_ne hnot ho rfl
  rcases hop with hop | hop
  · exact List.mem_append_left _ (hmem hop)
  · exact List.mem_append_right _ (hmem hop)

theorem Outcome.lt_two (h : Outcome body σ op op1 op2 w) : w < 2 := by
  obtain ⟨hop, ty, _, a, b, _, _, _, hres⟩ := h
  have hflag : ∀ p [Decidable p], flag p < 2 := fun p _ => by
    unfold flag
    split <;> decide
  cases op <;> first
    | rw [hres _ rfl]; exact hflag _
    | cases hop

/-- **What a comparison records of an unsigned local is right.** -/
theorem Outcome.correct (h : Outcome body σ op op1 op2 w) (hrec : Records op op1 op2 x f)
    (hx : (body.localTy x).signed = false) : f.Correct w (σ x) := by
  have hiff : ∀ {kind k}, ConstComparison op op1 op2 kind x k →
      (w ≠ 0 ↔ kind.Holds (σ x) (k.val : Int)) := by
    intro kind k hcmp
    have hholds := h.holds_iff hcmp
    rwa [Ty.toInt_of_unsigned hx, Ty.toInt_of_unsigned hx] at hholds
  cases f with
  | const kind k => exact hiff hrec
  | ifTrue =>
    intro hw
    rcases hrec with ⟨hop, hzero⟩ | hcmp | ⟨k, hk, hcmp⟩
    · exact ((h.zero_iff hzero).1 hop).mp hw
    · have hgt : (0 : Int) < (σ x : Int) := (hiff hcmp).mp hw
      exact Nat.ne_of_gt (Int.natCast_pos.mp hgt)
    · have hge : (k.val : Int) ≤ σ x := (hiff hcmp).mp hw
      exact Nat.ne_of_gt (Nat.lt_of_lt_of_le hk (Int.ofNat_le.mp hge))
  | ifFalse => exact fun hw hzero => ((h.zero_iff hrec.2).2 hrec.1).mpr hzero hw

/-- What is recorded for `c` of the numbers of `N` is right, and is about locals that `c` has
been computed from, unless some of these have been assigned since. -/
def StandingFacts (N : Finset Local) (c : Local) (reads : Option (List Local)) (s : BlockState)
    (σ : Store) : Prop :=
  ∀ ls, reads = some ls → ∀ x ∈ N, ∀ f, s.hasFact c x f →
    x ∈ ls ∧ σ c < 2 ∧ f.Correct (σ c) (σ x)

/-- **One statement** keeps the recorded comparisons right. -/
theorem Body.Tracks.standingStep {N : Finset Local} (h : body.Tracks N) (tcx : TyCtxt)
    (hscalar : (body.localTy c).isScalar = true) (hprivate : body.IsPrivate c)
    {reads : Option (List Local)} {s : BlockState} {stmt : Statement}
    (hs : StandingFacts N c reads s σ) (hexec : stmt.Executes body σ τ) :
    StandingFacts N c (San.standingStep c reads stmt) (San.applyStatement tcx body stmt s) τ := by
  intro ls hls x hx f hf
  cases hassign : stmt.assignment with
  | none =>
    have hσ := hexec.disturbs hassign
    have hold : s.hasFact c x f := by
      refine ((Adds.frame (R := fun _ _ => False) (applyStatement_writes_of_assignment_none tcx body s
        hassign) (by decide) : Adds c _ s _) c x f hf).resolve_right fun hR => hR.2
    rw [San.standingStep, hassign] at hls
    rw [hσ c hscalar hprivate, h.disturbs hσ x hx]
    exact hs ls hls x hx f hold
  | some a =>
    obtain ⟨dst, rvalue⟩ := a
    have hkind := Statement.kind_of_assignment hassign
    obtain ⟨v, hv, rfl⟩ := hexec.of_assignment hassign
    rw [San.standingStep, hassign] at hls
    dsimp only at hls
    rcases hasFact_applyStatement tcx hkind hf with ⟨hne, hold⟩ | ⟨rfl, hrec⟩
    · -- another local is assigned, which is not one of those that `c` depends on
      rw [if_neg (Ne.symm hne)] at hls
      obtain ⟨hreads, hdst⟩ := Option.filter_eq_some_iff.mp hls
      obtain ⟨hmem, hlt, hcorrect⟩ := hs ls hreads x hx f hold
      have hxd : x ≠ dst := fun heq => of_decide_eq_true hdst (heq ▸ hmem)
      rw [Store.set_of_ne hne, Store.set_of_ne hxd]
      exact ⟨hmem, hlt, hcorrect⟩
    · -- `c` is assigned the outcome of a new comparison
      rw [if_pos rfl] at hls
      split at hls
      · cases hls
      · rename_i hself
        cases hls
        cases rvalue with
        | binaryOp op op1 op2 =>
          have hout : Outcome body σ op op1 op2 v := ⟨hrec.1, _, (hv hscalar).2⟩
          have hmem := Records.mem_locals hrec.2
          have hne : x ≠ c := fun heq => hself (heq ▸ hmem)
          rw [Store.set_self, Store.set_of_ne hne]
          exact ⟨hmem, hout.lt_two, hout.correct hrec.2
            (Ty.signed_of_isSmallUnsigned (h.unsigned x hx))⟩
        | _ => exact hrec.elim

/-- **The statements of a block** keep them right. -/
theorem Body.Tracks.standing {N : Finset Local} (h : body.Tracks N) (tcx : TyCtxt)
    (hscalar : (body.localTy c).isScalar = true) (hprivate : body.IsPrivate c)
    {reads : Option (List Local)} {s : BlockState} {stmts : List Statement}
    (hs : StandingFacts N c reads s σ) (hexec : ExecutesAll body stmts σ τ) :
    StandingFacts N c (stmts.foldl (San.standingStep c) reads)
      (San.applyStatements tcx body stmts s) τ := by
  induction stmts generalizing reads s σ with
  | nil =>
    cases hexec
    exact hs
  | cons stmt stmts ih =>
    obtain ⟨m, hstmt, hrest⟩ := hexec
    exact ih (h.standingStep tcx hscalar hprivate hs hstmt) hrest

end Comparisons

/-! ## Edges -/

/-- From `s` to `t` more may be proven, but `v` is within the bounds of `x` still, and no other
comparison is recorded. -/
structure RefinedAt (s : BlockState) (x : Local) (v : Nat) (t : BlockState) : Prop where
  inBounds : InBounds t x v
  constFacts : t.constFacts = s.constFacts

section Refine
variable {s t : BlockState} {x c l : Local} {v : Nat}

theorem InBounds.boundAbove (h : InBounds s x v) {ub : U64} (hub : x = l → v ≤ ub.val) :
    InBounds (s.boundAbove l ub) x v := by
  refine ⟨fun u hu => ?_, h.2⟩
  simp only [BlockState.boundAbove, FMap.get_insert] at hu
  split at hu
  · rename_i hx
    cases hu
    rw [Fin.coe_min]
    refine Nat.le_min.mpr ⟨?_, hub hx⟩
    -- without an old bound the default is `u64::MAX`
    cases hold : s.constUpper.get l with
    | none => exact Nat.le_trans (hub hx) (Nat.le_of_lt_succ ub.isLt)
    | some w => exact h.1 w (hx ▸ hold)
  · exact h.1 u hu

theorem InBounds.boundBelow (h : InBounds s x v) {lb : U64} (hlb : x = l → lb.val ≤ v) :
    InBounds (s.boundBelow l lb) x v := by
  refine ⟨h.1, fun w hw => ?_⟩
  simp only [BlockState.boundBelow, FMap.get_insert] at hw
  split at hw
  · rename_i hx
    cases hw
    rw [Fin.coe_max]
    refine Nat.max_le.mpr ⟨?_, hlb hx⟩
    cases hold : s.constLower.get l with
    | none => exact Nat.zero_le _
    | some w => exact h.2 w (hx ▸ hold)
  · exact h.2 w hw

namespace RefinedAt

theorem drain (h : RefinedAt s x v t) (k : Fact) (m : MustSet) (c : Local) :
    RefinedAt s x v (San.drain k m c t) := by
  unfold San.drain
  split
  · exact ⟨h.inBounds.frame (t.insertMust_writes m _) (by simp), h.constFacts⟩
  · exact h

theorem drainPair (h : RefinedAt s x v t) (k : PairFact) (m : MustPairs) (norm) (c : Local) :
    RefinedAt s x v (San.drainPair k m norm c t) := by
  unfold San.drainPair
  split
  · exact ⟨h.inBounds.frame (t.onMustPairs_writes [m] _) (by simp), h.constFacts⟩
  · exact h

theorem drainUpper (h : RefinedAt s x v t) {k : ConstFact} {f : U64 → U64}
    (hf : ∀ bound, (s.constFacts k).get c = some (x, bound) → v ≤ (f bound).val) :
    RefinedAt s x v (San.drainUpper k f c t) := by
  unfold San.drainUpper
  split
  · rename_i y bound hget
    rw [h.constFacts] at hget
    exact ⟨h.inBounds.boundAbove fun hx => hf bound (hx ▸ hget), h.constFacts⟩
  · exact h

theorem drainLower (h : RefinedAt s x v t) {k : ConstFact} {f : U64 → U64}
    (hf : ∀ bound, (s.constFacts k).get c = some (x, bound) → (f bound).val ≤ v) :
    RefinedAt s x v (San.drainLower k f c t) := by
  unfold San.drainLower
  split
  · rename_i y bound hget
    rw [h.constFacts] at hget
    exact ⟨h.inBounds.boundBelow fun hx => hf bound (hx ▸ hget), h.constFacts⟩
  · exact h

end RefinedAt

/-- On the edge where the condition holds, the comparisons of `x` that hold bound it. -/
theorem InBounds.refineTrueEdge (h : InBounds s x v)
    (hfacts : ∀ kind k, (s.constFacts kind).get c = some (x, k) → kind.Holds v k.val) :
    InBounds (San.refineTrueEdge c s) x v := by
  have hstart : RefinedAt s x v s := ⟨h, rfl⟩
  have hsets := ((((((((hstart.drain .ltFacts .bounded c).drain .leFacts .boundedOrEq c).drainPair
    .ltFor .indexBoundedFor id c).drainPair .leFor .indexBoundedOrEqFor id c).drain .spareIfTrue
    .hasSpare c).drain .fullIfTrue .isFull c).drain .nonzeroIfTrue .nonzero c).drain .finiteIfTrue
    .finite c)
  have hlt := hsets.drainUpper (k := .constLt) (f := predSat)
    fun k hget => le_predSat (Int.ofNat_lt.mp (hfacts .constLt k hget))
  have hle := hlt.drainUpper (k := .constLe) (f := id)
    fun k hget => Int.ofNat_le.mp (hfacts .constLe k hget)
  have hgt := hle.drainLower (k := .constGt) (f := succSat)
    fun k hget => succSat_le (Int.ofNat_lt.mp (hfacts .constGt k hget))
  have hge := hgt.drainLower (k := .constGe) (f := id)
    fun k hget => Int.ofNat_le.mp (hfacts .constGe k hget)
  exact ((hge.drainPair .nePairIfTrue .keysAreNe orderPair c).drainPair .eqPairIfTrue .eqLocals
    orderPair c).inBounds

/-- On the other edge, the comparisons of `x` that fail do. -/
theorem InBounds.refineFalseEdge (h : InBounds s x v)
    (hfacts : ∀ kind k, (s.constFacts kind).get c = some (x, k) → ¬ kind.Holds v k.val) :
    InBounds (San.refineFalseEdge c s) x v := by
  have hstart : RefinedAt s x v s := ⟨h, rfl⟩
  have hsets := (((((hstart.drain .geFacts .bounded c).drain .gtFacts .boundedOrEq c).drain
    .spareIfFalse .hasSpare c).drain .fullIfFalse .isFull c).drain .nonzeroIfFalse .nonzero c).drain
    .nanIfTrue .finite c
  have hlt := hsets.drainLower (k := .constLt) (f := id)
    fun k hget => Int.ofNat_le.mp (Int.not_lt.mp (hfacts .constLt k hget))
  have hle := hlt.drainLower (k := .constLe) (f := succSat)
    fun k hget => succSat_le (Int.ofNat_lt.mp (Int.not_le.mp (hfacts .constLe k hget)))
  have hgt := hle.drainUpper (k := .constGt) (f := id)
    fun k hget => Int.ofNat_le.mp (Int.not_lt.mp (hfacts .constGt k hget))
  have hge := hgt.drainUpper (k := .constGe) (f := predSat)
    fun k hget => le_predSat (Int.ofNat_lt.mp (Int.not_le.mp (hfacts .constGe k hget)))
  exact ((hge.drainPair .eqPairIfTrue .keysAreNe orderPair c).drainPair .nePairIfTrue .eqLocals
    orderPair c).inBounds

end Refine

section Switch
variable {n : Nat} {targets : SwitchTargets n} {discr : Operand} {span : Span} {c x : Local}
  {s : BlockState} {v w : Nat}

/-- A canonical switch on zero or one refines the edge it takes for the value it has. -/
theorem SwitchTargets.Canonical.keepsPolarity (h : targets.Canonical)
    (hdiscr : operandLocal discr = some c) (hw : w < 2) (span : Span) :
    KeepsPolarity ⟨.switchInt discr targets, span⟩ targets c w := by
  intro s
  rw [refineSwitchintEdge_eq hdiscr]
  obtain ⟨zero, hzero⟩ := Option.ne_none_iff_exists'.mp h.zero
  have hcases : w = 0 ∨ w = 1 := by omega
  rcases hcases with rfl | rfl
  · have hselect : targets.select 0 = zero := by
      rw [show targets.select 0 = _ from targets.select_eq 0, hzero]
      rfl
    rw [hselect, if_pos hzero, if_pos hzero]
    split
    · exact Or.inl rfl
    · exact Or.inr rfl
  · have hselect : targets.select 1 = (targets.target 1).getD targets.otherwise :=
      targets.select_eq 1
    by_cases hother : targets.select 1 = targets.otherwise
    · rw [if_pos hother]
      split
      · exact Or.inl rfl
      · exact Or.inr rfl
    · rw [if_neg hother, if_neg]
      · exact Or.inl rfl
      · intro hsame
        cases hone : targets.target 1 with
        | none => exact hother (by rw [hselect, hone]; rfl)
        | some succ =>
          have hsucc : targets.select 1 = succ := by rw [hselect, hone]; rfl
          rw [hsucc] at hsame hother
          exact hother (h.one succ hsame hone)

theorem refineSwitchintEdge_of_projected (hdiscr : operandLocal discr = none) (succ : Fin n)
    (s : BlockState) : San.refineSwitchintEdge ⟨.switchInt discr targets, span⟩ succ s = s := by
  unfold San.refineSwitchintEdge
  dsimp only
  rw [hdiscr]

/-- Where nothing is recorded of `x`, it does not matter which way the edge is read. -/
theorem InBounds.refineSwitchintEdge_of_no_fact (h : InBounds s x v)
    (hdiscr : operandLocal discr = some c)
    (hnone : ∀ kind k, (s.constFacts kind).get c ≠ some (x, k)) (succ : Fin n) :
    InBounds (San.refineSwitchintEdge ⟨.switchInt discr targets, span⟩ succ s) x v := by
  have htrue := h.refineTrueEdge (c := c) fun kind k hget => absurd hget (hnone kind k)
  have hfalse := h.refineFalseEdge (c := c) fun kind k hget => absurd hget (hnone kind k)
  rw [refineSwitchintEdge_eq hdiscr]
  split
  · split
    · exact h
    · exact htrue
  · split
    · exact hfalse
    · exact h

/-- **The taken edge of a switch** on the outcome of comparisons keeps `x` within its bounds. -/
theorem InBounds.refineSwitchintEdge (h : InBounds s x v) (hdiscr : operandLocal discr = some c)
    (hcanon : targets.Canonical)
    (hfacts : ∀ kind k, (s.constFacts kind).get c = some (x, k) →
      w < 2 ∧ (w ≠ 0 ↔ kind.Holds v k.val)) :
    InBounds (San.refineSwitchintEdge ⟨.switchInt discr targets, span⟩ (targets.select w) s) x v := by
  by_cases hsome : ∃ kind k, (s.constFacts kind).get c = some (x, k)
  · obtain ⟨kind, k, hget⟩ := hsome
    have hw := (hfacts kind k hget).1
    rcases hcanon.keepsPolarity hdiscr hw span s with heq | heq
    · rw [heq]
      exact h
    · rw [heq]
      split
      · rename_i hone
        exact h.refineTrueEdge fun kind k hget => (hfacts kind k hget).2.mp (by omega)
      · rename_i hone
        have hzero : w = 0 := by omega
        exact h.refineFalseEdge fun kind k hget hh => (hfacts kind k hget).2.mpr hh hzero
  · exact h.refineSwitchintEdge_of_no_fact hdiscr (fun kind k hget => hsome ⟨kind, k, hget⟩) _

end Switch

/-! ## Calls and the other terminators -/

section Terminators
variable {tcx : TyCtxt} {body : Body} {summaries : SummaryMap} {s : BlockState} {x : Local} {v : Nat}

theorem InBounds.boundAboveBy {l : Local} (h : InBounds s x v) {o : Option U64}
    (ho : x = l → ∀ ub, o = some ub → v ≤ ub.val) : InBounds (s.boundAboveBy l o) x v := by
  cases o with
  | none => exact h
  | some ub => exact h.boundAbove fun hx => ho hx ub rfl

theorem InBounds.enforceTypeFacts {l : Local} {ty : Ty} (h : InBounds s x v) (tcx : TyCtxt)
    (hl : x = l → ty.InRange v) : InBounds (San.enforceTypeFacts tcx l ty s) x v := by
  have hmark : Writes [.mustSet .nonzero] s
      (if tyIsNonzero tcx ty then s.insertMust .nonzero l else s) :=
    .ite (s.insertMust_writes _ _) (.refl _ s)
  exact (h.frame hmark (by simp)).boundAboveBy fun hx ub hub => (hl hx).le_uintTypeMax hub

/-- **The result of a call** to a known function is within the bounds of its type. -/
theorem inBounds_applyCall_result {func : Operand} {args : List Operand} {destination : Place}
    {bb : Nat} (hlocal : destination.isLocal = true) (hfunc : func.constFnDef.isSome = true)
    (hv : (body.localTy destination.base).InRange v) :
    InBounds (San.applyCall tcx body summaries bb func args destination s) destination.base v := by
  obtain ⟨did, hdid⟩ := Option.ne_none_iff_exists'.mp (resolveCallee_ne_none hfunc tcx body s)
  have hclear : ∀ t : BlockState, InBounds (t.clearRedefined destination.base) destination.base v := by
    intro t
    unfold InBounds
    rw [BlockState.clearRedefined_constUpper, BlockState.clearRedefined_constLower,
      FMap.get_erase_self, FMap.get_erase_self]
    exact ⟨nofun, nofun⟩
  have hmark : ∀ (t : BlockState) (c : Prop) [Decidable c], InBounds t destination.base v →
      InBounds (if c then t.insertMust .nonzero destination.base else t) destination.base v := by
    intro t c _ ht
    exact ht.frame (Writes.ite (t.insertMust_writes .nonzero destination.base) (.refl _ t)) (by simp)
  have hlayout : ∀ (t : BlockState) (c : Prop) [Decidable c], InBounds t destination.base v →
      InBounds (if c then t.insertMay .layoutOverflow destination.base else t) destination.base v := by
    intro t c _ ht
    exact ht.frame (Writes.ite (t.insertMay_writes .layoutOverflow destination.base) (.refl _ t))
      (by simp)
  unfold San.applyCall
  dsimp only
  rw [hdid]
  dsimp only
  rw [if_pos hlocal]
  exact hlayout _ _ (hmark _ _ (hmark _ _ (((hclear _).loosen
    (.callEffects _ tcx body _ _ args _ bb _)).enforceTypeFacts tcx fun _ => hv)))

end Terminators

/-! ## Whole executions -/

namespace Body.Tracks
variable {tcx : TyCtxt} {body : Body} {summaries : SummaryMap} {N : Finset Local}
  {b succ : body.BasicBlock} {s : BlockState} {σ τ : Store} {term : Terminator body.numBlocks}

/-- **A terminator** keeps the bounds of the tracked numbers. -/
theorem applyTerminator (h : body.Tracks N) (tcx : TyCtxt) (summaries : SummaryMap)
    (hterm : (body.basicBlocks b).terminator = some term) (hs : BoundedOn N s σ)
    (hleave : term.Leaves body σ succ τ) :
    BoundedOn N (San.applyTerminator tcx body summaries b.val term s) τ := by
  have hcalls := h.calls b term hterm
  have hmodelled := h.modelled b term hterm
  obtain ⟨kind, span⟩ := term
  cases kind with
  | call func args destination target unwind =>
    obtain ⟨m, hm, hresult⟩ := hleave
    have hm := h.disturbs hm
    intro x hx
    by_cases hdest : destination.isLocal = true ∧ x = destination.base
    · obtain ⟨hlocal, rfl⟩ := hdest
      rw [if_pos hlocal] at hresult
      obtain ⟨v, hv, rfl⟩ := hresult
      rw [Store.set_self]
      refine inBounds_applyCall_result hlocal ?_ hv
      cases hfunc : func.constFnDef.isSome with
      | true => rfl
      | false =>
        refine absurd hx (hcalls _ ?_)
        simp [Terminator.indirectResult, hlocal, hfunc]
    · have hne : destination.isLocal = true → x ≠ destination.base := fun hlocal heq =>
        hdest ⟨hlocal, heq⟩
      have hτ : τ x = σ x := by
        split at hresult
        · rename_i hlocal
          obtain ⟨v, _, rfl⟩ := hresult
          rw [Store.set_of_ne (hne hlocal), hm x hx]
        · rw [hresult, hm x hx]
      rw [hτ]
      exact (hs x hx).loosen (.applyCall hne tcx body summaries b.val func args s)
  | assert cond expected target unwind =>
    obtain ⟨rfl, _⟩ := hleave
    exact fun x hx => (hs x hx).loosen (.assertCondition x cond expected s)
  | drop place target unwind =>
    exact hs.disturb (applyDrop_writes s place) (by decide) (h.disturbs hleave)
  | switchInt discr targets =>
    obtain ⟨rfl, _⟩ := hleave
    exact hs
  | yield resume drop => cases hmodelled
  | inlineAsm targets unwind => cases hmodelled
  | _ =>
    cases hleave
    exact hs

/-- **One step of an execution** keeps them. -/
theorem passes (h : body.Tracks N) (tcx : TyCtxt) (summaries : SummaryMap)
    (hfacts : FactsCompared body s) (hs : BoundedOn N s σ)
    (hpass : body.Passes b σ succ τ) : BoundedOn N (edgeState tcx body summaries b s succ) τ := by
  obtain ⟨⟨m, term, hexec, hterm, hleave⟩, _⟩ := hpass
  have hstmts := h.applyStatements tcx (fun _ hmem => hmem) hs hexec
  have hexit := h.applyTerminator tcx summaries hterm hstmts hleave
  rw [edgeState_of_some hterm]
  have hswitches := h.switches b term hterm
  obtain ⟨kind, span⟩ := term
  cases kind with
  | switchInt discr targets =>
    obtain ⟨rfl, hselect⟩ := hleave
    intro x hx
    cases hdiscr : operandLocal discr with
    | none =>
      rw [refineSwitchintEdge_of_projected hdiscr]
      exact hexit x hx
    | some c =>
      by_cases hcompares : body.Compares c
      · have hat := hswitches (c, targets) (by simp [Terminator.switchedOn, hdiscr]) hcompares
        obtain ⟨ls, hls⟩ := Option.isSome_iff_exists.mp hat.standing
        have hstart : StandingFacts N c none s σ := by
          intro ls hls
          cases hls
        have hstanding := h.standing tcx hat.scalar hat.isPrivate hstart hexec
        rw [hselect c hdiscr]
        exact (hstmts x hx).refineSwitchintEdge hdiscr hat.canonical fun kind k hget =>
          (hstanding ls hls x hx (.const kind k) hget).2
      · refine (hstmts x hx).refineSwitchintEdge_of_no_fact hdiscr (fun kind k hget => ?_) succ
        exact hcompares (hfacts.applyStatements tcx (fun _ hmem => hmem) c x (.const kind k) hget)
  | _ => exact hexit

end Body.Tracks

section Sound
variable (tcx : TyCtxt) (body : Body)

theorem seedParamTypeFacts_writes (s : BlockState) :
    Writes [.mustSet .nonzero, .constUpper] s (seedParamTypeFacts tcx body s) :=
  Writes.foldl (fun t l => enforceTypeFacts_writes t tcx l (body.localTy l)) _ s

theorem factsCompared_seed : FactsCompared body (seedParamTypeFacts tcx body .default) := by
  intro c x f hf
  have hnone := (seedParamTypeFacts_writes tcx body .default).recordsNothing (by decide) c x f hf
  cases f <;> cases hnone

/-- The parameters are within the bounds of their types. -/
theorem seed_inBounds {σ : Store} (hσ : body.Enters σ) (x : Local) :
    InBounds (seedParamTypeFacts tcx body .default) x (σ x) := by
  have hfold : ∀ (ls : List Local) (s : BlockState), InBounds s x (σ x) →
      InBounds (ls.foldl (fun s l => enforceTypeFacts tcx l (body.localTy l) s) s) x (σ x) := by
    intro ls
    induction ls with
    | nil => exact fun s hs => hs
    | cons l ls ih => exact fun s hs => ih _ (hs.enforceTypeFacts tcx fun hx => hx ▸ hσ x)
  exact hfold _ _ ⟨nofun, nofun⟩

variable {body}

/-- The bounds at every visit. -/
theorem Body.Tracks.visits {N : Finset Local} (h : body.Tracks N) (summaries : SummaryMap)
    {b : body.BasicBlock} {σ : Store} (hvisit : body.Visits b σ) :
    ∃ s, (computeFlow tcx body summaries).entryStates b = some s ∧ BoundedOn N s σ := by
  refine hvisit.entry_holds (R := BoundedOn N) (fun σ hσ x _ => seed_inBounds tcx body hσ x) ?_ ?_
  · intro bb succ s σ τ _ hentry hs hpass
    have hfacts := (factsCompared_invariant tcx body summaries (factsCompared_seed tcx body)).solution
      hentry
    exact h.passes tcx summaries hfacts hs hpass
  · exact fun hproven he x hx => (he x hx).of_provenIn hproven

/-- The bounds at every terminator. -/
theorem Body.Tracks.arrives {N : Finset Local} (h : body.Tracks N) (summaries : SummaryMap)
    {b : body.BasicBlock} {τ : Store} (harrive : body.ArrivesAt b τ) :
    ∃ s, (computeFlow tcx body summaries).stateBeforeTerminator tcx b = some s ∧ BoundedOn N s τ := by
  obtain ⟨σ, hvisit, hexec⟩ := harrive
  obtain ⟨s, hs, hbounded⟩ := h.visits tcx summaries hvisit
  exact ⟨_, by rw [FlowResults.stateBeforeTerminator, hs]; rfl,
    h.applyStatements tcx (fun _ hmem => hmem) hbounded hexec⟩

theorem Body.Tracks.inRange_arrives {N : Finset Local} (h : body.Tracks N) {b : body.BasicBlock}
    {τ : Store} (harrive : body.ArrivesAt b τ) : ∀ x ∈ N, (body.localTy x).InRange (τ x) := by
  obtain ⟨σ, hvisit, hexec⟩ := harrive
  exact h.inRange_executesAll hexec (h.inRange_visits hvisit)

/-- **Constant bounds are right in every execution.**  Whenever an execution arrives at the
terminator of a block, the analysis has a state for it, and the numbers of a tracked set are
within the bounds that the state gives them; so what is proven to be ASCII or a scalar value is. -/
theorem tracked_bounds_sound {N : Finset Local} (h : body.Tracks N) (summaries : SummaryMap)
    {b : body.BasicBlock} {τ : Store} (harrive : body.ArrivesAt b τ) :
    ∃ s, (computeFlow tcx body summaries).stateBeforeTerminator tcx b = some s ∧
      ∀ x ∈ N, InBounds s x (τ x) ∧ (s.localIsAscii x = true → τ x ≤ 127) ∧
        (s.localIsValidScalar x = true → Ty.char.InRange (τ x)) := by
  obtain ⟨s, hs, hbounded⟩ := h.arrives tcx summaries harrive
  exact ⟨s, hs, fun x hx => ⟨hbounded x hx, (hbounded x hx).le_of_localIsAscii,
    (hbounded x hx).inRange_of_localIsValidScalar⟩⟩

end Sound

/-! ## A loop -/

theorem Ty.inRange_zero (ty : Ty) : ty.InRange 0 := by
  cases ty with
  | bool => decide
  | char => decide
  | int w => exact Nat.two_pow_pos _
  | uint w => exact Nat.two_pow_pos _
  | _ => trivial

/-- `_1` counts from zero to two; `_2` says whether to go on. -/
def countsToTwo : Body :=
  .ofBlocks 0 0 [.other, .uint .u32, .bool] 3
    (fun bb => [
      .of [.set 1 (.use (.constant ⟨some 0, none⟩))] (.goto (bb 1)),
      .of [.set 2 (.binaryOp .lt (.ofNat 1) (.constant ⟨some 2, none⟩))]
        (.switchInt (.ofNat 2) ⟨[(0, bb 3)], bb 2⟩),
      .of [.set 1 (.binaryOp .add (.ofNat 1) (.constant ⟨some 1, none⟩))] (.goto (bb 1)),
      .of [] .return]) (by decide)

theorem countsToTwo_tracks : countsToTwo.Tracks {Local.ofNat 1, Local.ofNat 2} where
  unsigned := by decide
  isPrivate := by decide
  fed := by decide +kernel
  switches := by decide +kernel
  calls := by decide
  modelled := by decide

/-- The counter is one after the first round. -/
theorem countsToTwo_arrives : countsToTwo.ArrivesAt (2 : Fin 4)
    (((Store.set (fun _ => 0) (Local.ofNat 1) 0).set (Local.ofNat 2) 1).set (Local.ofNat 1) 1) := by
  have hentry : countsToTwo.Visits (0 : Fin 4) fun _ => 0 := .entry fun l => Ty.inRange_zero _
  have hzero : countsToTwo.Passes (0 : Fin 4) (fun _ => 0) (1 : Fin 4)
      (Store.set (fun _ => 0) (Local.ofNat 1) 0) := by
    refine ⟨⟨_, _, ⟨_, ⟨0, fun _ => ⟨by decide, ?_⟩, rfl⟩, rfl⟩, rfl, rfl⟩, .head _⟩
    rintro p ⟨⟩
    rfl
  have hfirst : countsToTwo.Passes (1 : Fin 4) (Store.set (fun _ => 0) (Local.ofNat 1) 0)
      (2 : Fin 4) ((Store.set (fun _ => 0) (Local.ofNat 1) 0).set (Local.ofNat 2) 1) := by
    refine ⟨⟨_, _, ⟨_, ⟨1, fun _ => ⟨by decide, rfl, 0, 2, ?_, ?_, nofun, ?_⟩, rfl⟩, rfl⟩, rfl, rfl,
      ?_⟩, .tail _ (.head _)⟩
    · rintro p ⟨⟩
      rfl
    · rintro p ⟨⟩
      rfl
    · rintro r ⟨⟩
      rfl
    · rintro c ⟨⟩
      rfl
  refine ⟨_, (hentry.next hzero).next hfirst, _, ⟨1, fun _ => ⟨by decide, rfl, 0, 1, ?_, ?_,
    fun _ => by decide, ?_⟩, rfl⟩, rfl⟩
  · rintro p ⟨⟩
    rfl
  · rintro p ⟨⟩
    rfl
  · rintro r ⟨⟩
    rfl

/-- The bounds of the counter in its loop contain one. -/
theorem tracked_bounds_counter :
    ∃ s, (computeFlow (.ofPaths []) countsToTwo ∅).stateBeforeTerminator (.ofPaths []) (2 : Fin 4) =
        some s ∧ InBounds s (Local.ofNat 1) 1 := by
  obtain ⟨s, hs, hall⟩ := tracked_bounds_sound (.ofPaths []) countsToTwo_tracks ∅ countsToTwo_arrives
  exact ⟨s, hs, (hall (Local.ofNat 1) (by decide)).1⟩

end San
