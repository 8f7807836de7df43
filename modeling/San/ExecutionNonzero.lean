import San.ExecutionBounds

/-! # Proven nonzero in every execution

A local is marked as nonzero by constants, copies, casts and `|`, by the edges of a switch on a
comparison, and by calls that are known not to return null.  Of a tracked set of numbers the marks
are right at every visit if in addition no cast between them narrows, and none of them is the
result of a call that is recognised by its name (`Body.TracksNonzero`).
-/
namespace San

/-! ## What marks the destination of an assignment -/

/-- The operand is proven nonzero where the locals of `M` are. -/
def Operand.MarkedBy (M : Finset Local) (op : Operand) : Prop :=
  (∃ l, operandLocal op = some l ∧ l ∈ M) ∨ ∃ k, constU64 op = some k ∧ k ≠ 0

/-- The rvalue is. -/
def Rvalue.MarkedBy (M : Finset Local) : Rvalue → Prop
  | .use op => op.MarkedBy M
  | .cast .intToInt op _ => ∃ l, operandLocal op = some l ∧ l ∈ M
  | .binaryOp .bitOr op1 op2 => op1.MarkedBy M ∨ op2.MarkedBy M
  | _ => False

section Marked
variable {tcx : TyCtxt} {body : Body} {s t : BlockState} {dst : Local} {rvalue : Rvalue}
  {F : List Field}

theorem Writes.nonzero (hw : Writes F s t) (hF : .mustSet .nonzero ∉ F) :
    t.mustSets .nonzero = s.mustSets .nonzero := hw (.mustSet .nonzero) hF

theorem nonzero_enforceTypeFacts {ty : Ty} (hty : ty.isScalar = true) (l : Local) (s : BlockState) :
    (enforceTypeFacts tcx l ty s).mustSets .nonzero = s.mustSets .nonzero := by
  unfold enforceTypeFacts
  rw [tyIsNonzero_of_isScalar hty, if_neg Bool.false_ne_true]
  exact (s.boundAboveBy_writes l _).nonzero (by decide)

/-- A plain move or copy marks its destination if its source is marked. -/
theorem marked_of_propagateRvalue (hdst : dst ∉ t.mustSets .nonzero)
    (h : dst ∈ (propagateRvalue dst rvalue t).mustSets .nonzero) :
    rvalue.MarkedBy (t.mustSets .nonzero) := by
  have huse : ∀ {op : Operand} {src : Place} (isMove : Bool), (op = .move src ∨ op = .copy src) →
      dst ∈ (if src.isLocal then propagateUse src.base dst isMove t else t).mustSets .nonzero →
      op.MarkedBy (t.mustSets .nonzero) := by
    intro op src isMove hop hmem
    split at hmem
    · rename_i hlocal
      have hop : operandLocal op = some src.base := by
        rcases hop with rfl | rfl <;> exact if_pos hlocal
      rcases mem_propagateSet (m := t.mustSets .nonzero) hmem with ⟨_, hsrc⟩ | hmem
      · exact Or.inl ⟨src.base, hop, hsrc⟩
      · exact absurd hmem hdst
    · exact absurd hmem hdst
  unfold propagateRvalue at h
  split at h
  · exact huse true (Or.inl rfl) h
  · exact huse false (Or.inr rfl) h
  · exact absurd h hdst

theorem marked_of_assignConstant {c : Const} (hdst : dst ∉ t.mustSets .nonzero)
    (h : dst ∈ (assignConstant c dst t).mustSets .nonzero) :
    (Operand.constant c).MarkedBy (t.mustSets .nonzero) := by
  have hclear : ∀ u : BlockState, (((u.setObjects dst none).dropProto dst).clearScalarFacts
      dst).mustSets .nonzero = u.mustSets .nonzero := fun u =>
    (clearScalarFacts_writes _ dst).nonzero (by decide)
  unfold assignConstant at h
  dsimp only at h
  rw [hclear] at h
  split at h
  · rename_i val hval
    by_cases hne : val ≠ 0
    · exact Or.inr ⟨val, hval, hne⟩
    · rw [if_neg hne] at h
      have hmem : dst ∈ (t.mustSets .nonzero).erase dst := h
      exact absurd rfl (Finset.ne_of_mem_erase hmem)
  · exact absurd h hdst

theorem marked_of_assignNumericCast {kind : CastKind} {op : Operand} {src : Local} {ty : Ty}
    (hop : operandLocal op = some src) (hdst : dst ∉ t.mustSets .nonzero)
    (h : dst ∈ (assignNumericCast kind src dst ty t).mustSets .nonzero) :
    (Rvalue.cast kind op ty).MarkedBy (t.mustSets .nonzero) := by
  by_cases hkind : kind = .intToInt
  · subst hkind
    by_cases hsrc : src ∈ t.mustSets .nonzero
    · exact ⟨src, hop, hsrc⟩
    · have hw : Writes [.fact .castOrigin, .constUpper] t (assignNumericCast .intToInt src dst ty t) := by
        have hstart : Writes [.fact .castOrigin, .constUpper] t
            ((t.insertFact .castOrigin dst src).boundAboveBy dst (uintTypeMax ty)) :=
          ((t.insertFact_writes _ _ _).mono (by decide)).trans
            ((BlockState.boundAboveBy_writes _ _ _).mono (by decide))
        unfold assignNumericCast
        rw [if_pos rfl]
        dsimp only
        rw [hstart.nonzero (by decide), if_neg hsrc]
        exact hstart.trans ((BlockState.boundAboveBy_writes _ _ _).mono (by decide))
      rw [hw.nonzero (by decide)] at h
      exact absurd h hdst
  · unfold assignNumericCast at h
    rw [if_neg hkind] at h
    rw [(t.insertFact_writes .castOrigin dst src).nonzero (by decide)] at h
    exact absurd h hdst

theorem operandNonzero_iff {op : Operand} :
    operandNonzero t op = true ↔ op.MarkedBy (t.mustSets .nonzero) := by
  unfold operandNonzero Operand.MarkedBy
  simp only [Bool.or_eq_true, Option.any_eq_true, decide_eq_true_eq]

theorem marked_of_recordBinaryOp {op : BinOp} {op1 op2 : Operand}
    (hdst : dst ∉ t.mustSets .nonzero)
    (h : dst ∈ (recordBinaryOp body op op1 op2 dst t).mustSets .nonzero) :
    (Rvalue.binaryOp op op1 op2).MarkedBy (t.mustSets .nonzero) := by
  by_cases hor : op = .bitOr
  · subst hor
    have hclear : ∀ u : BlockState, (clearComparisons dst u).mustSets .nonzero = u.mustSets .nonzero :=
      fun u => (u.onFacts_writes Fact.comparisons _).nonzero (by decide)
    unfold recordBinaryOp at h
    dsimp only at h
    rw [hclear] at h
    split at h
    · rename_i hmarked
      exact (Bool.or_eq_true_iff.mp hmarked).imp operandNonzero_iff.mp operandNonzero_iff.mp
    · exact absurd h hdst
  · have hw : Writes (Field.compared ++ [.constUpper, .maySet .mulOverflow]) t
        (recordBinaryOp body op op1 op2 dst t) := by
      have hclear : ∀ u : BlockState, Writes (Field.compared ++ [.constUpper, .maySet .mulOverflow]) u
          (clearComparisons dst u) := fun u => (u.onFacts_writes Fact.comparisons _).mono (by decide)
      have harith : ∀ f, Writes (Field.compared ++ [.constUpper, .maySet .mulOverflow]) t
          (boundArith f dst op1 op2 t) := fun f => (boundArith_writes t f dst op1 op2).mono (by decide)
      have hbound : ∀ o, Writes (Field.compared ++ [.constUpper, .maySet .mulOverflow]) t
          (t.boundAboveBy dst o) := fun o => (t.boundAboveBy_writes dst o).mono (by decide)
      cases hop : op.isComparison with
      | true => exact (recordBinaryOp_compared t body hop op1 op2 dst).mono (by decide)
      | false =>
        cases op with
        | bitOr => exact absurd rfl hor
        | bitAnd => exact (hbound _).trans (hclear _)
        | rem => exact (hbound _).trans (hclear _)
        | shr => exact (hbound _).trans (hclear _)
        | mul => exact (harith _).trans (hclear _)
        | add => exact (Writes.ite (harith _) (.refl _ t)).trans (hclear _)
        | mulWithOverflow => exact harith _
        | addWithOverflow => exact Writes.ite (harith _) (.refl _ t)
        | lt => cases hop
        | le => cases hop
        | ge => cases hop
        | gt => cases hop
        | eq => cases hop
        | ne => cases hop
        | _ => exact hclear _
    rw [hw.nonzero (by decide)] at h
    exact absurd h hdst

theorem Operand.MarkedBy.mono {op : Operand} {M M' : Finset Local} (h : op.MarkedBy M)
    (hM : M ⊆ M') : op.MarkedBy M' := h.imp_left fun ⟨l, hl, hmem⟩ => ⟨l, hl, hM hmem⟩

theorem Rvalue.MarkedBy.mono {M M' : Finset Local} (h : rvalue.MarkedBy M) (hM : M ⊆ M') :
    rvalue.MarkedBy M' := by
  unfold Rvalue.MarkedBy at h ⊢
  split at h
  · exact h.mono hM
  · obtain ⟨l, hl, hmem⟩ := h
    exact ⟨l, hl, hM hmem⟩
  · exact h.imp (Operand.MarkedBy.mono · hM) (Operand.MarkedBy.mono · hM)
  · exact h.elim

theorem marked_of_assignRvalue (hnumeric : rvalue.isNumeric = true)
    (hdst : dst ∉ t.mustSets .nonzero)
    (h : dst ∈ (assignRvalue tcx body dst rvalue t).mustSets .nonzero) :
    rvalue.MarkedBy (t.mustSets .nonzero) := by
  cases rvalue with
  | use op =>
    cases op with
    | copy p => cases hnumeric
    | move p => cases hnumeric
    | constant c => exact marked_of_assignConstant hdst h
  | cast kind op ty =>
    rw [assignRvalue_numericCast t tcx body dst hnumeric] at h
    cases hop : operandLocal op with
    | none =>
      rw [hop] at h
      dsimp only at h
      rw [(assignUnknown_writes t _ dst).nonzero (by decide)] at h
      exact absurd h hdst
    | some src =>
      rw [hop] at h
      exact marked_of_assignNumericCast hop hdst h
  | binaryOp op op1 op2 =>
    have henter := (enterBinaryOp_writes t op op1 op2 dst).nonzero (by decide)
    rw [← henter] at hdst ⊢
    exact marked_of_recordBinaryOp hdst h
  | _ => cases hnumeric

/-- **What marks the destination of an assignment**: the marks of what is assigned. -/
theorem marked_of_applyStatement {stmt : Statement}
    (hstmt : stmt.kind = .assign (Place.ofLocal dst) rvalue)
    (hscalar : (body.localTy dst).isScalar = true)
    (h : dst ∈ (applyStatement tcx body stmt s).mustSets .nonzero) :
    rvalue.MarkedBy (s.mustSets .nonzero) := by
  have hdst : dst ∉ (startAssign body dst rvalue s).mustSets .nonzero := fun hmem =>
    (mem_nonzero_startAssign.mp hmem).1 rfl
  have hsub : (startAssign body dst rvalue s).mustSets .nonzero ⊆ s.mustSets .nonzero := fun l hl =>
    (mem_nonzero_startAssign.mp hl).2
  rw [applyStatement_assign tcx body hstmt, assignLocal_eq, nonzero_enforceTypeFacts hscalar] at h
  cases hnumeric : rvalue.isNumeric with
  | false =>
    rw [(assignRvalue_quiet _ tcx body dst hnumeric).nonzero (by decide),
      (recordLenOf_writes _ dst rvalue).nonzero (by decide)] at h
    exact (marked_of_propagateRvalue hdst h).mono hsub
  | true =>
    rw [propagateRvalue_of_isNumeric hnumeric, recordLenOf_of_isNumeric hnumeric] at h
    exact (marked_of_assignRvalue hnumeric hdst h).mono hsub

end Marked

/-! ## Marks are right -/

theorem Ty.InRange.lt_two_pow_bits {ty : Ty} {v : Nat} (h : ty.InRange v)
    (hty : ty.IsSmallUnsigned) : v < 2 ^ ty.bits := by
  cases ty with
  | bool => exact h
  | char =>
    rcases h with h | ⟨_, h⟩
    · exact Nat.lt_trans h (by decide)
    · exact Nat.lt_of_le_of_lt h (by decide)
  | uint w => exact h
  | _ => exact hty.elim

/-- The local that a cast between integers reads. -/
def Rvalue.castSource : Rvalue → Option Local
  | .cast .intToInt op _ => operandLocal op
  | _ => none

theorem Rvalue.mem_sources_of_castSource {rvalue : Rvalue} {src : Local}
    (h : src ∈ rvalue.castSource) : src ∈ rvalue.sources := by
  unfold Rvalue.castSource at h
  split at h
  · exact Option.mem_toList.mpr h
  · cases h

section Values
variable {body : Body} {σ : Store} {M : Finset Local} {dst : Local} {rvalue : Rvalue} {v : Nat}

theorem Operand.MarkedBy.ne_zero {op : Operand} {x : Nat} (h : op.MarkedBy M)
    (hM : ∀ l ∈ (operandLocal op).toList, l ∈ M → σ l ≠ 0) (hx : op.Denotes σ x) : x ≠ 0 := by
  rcases h with ⟨l, hl, hmem⟩ | ⟨k, hk, hne⟩
  · rw [hx.of_local hl]
    exact hM l (by simp [hl]) hmem
  · rw [hx.of_const hk]
    exact fun h0 => hne (Fin.ext h0)

/-- **A marked rvalue is not zero**, if its sources that are marked are not, and a cast is to a
type that is at least as wide. -/
theorem Rvalue.MarkedBy.ne_zero (h : rvalue.MarkedBy M)
    (hM : ∀ l ∈ rvalue.sources, l ∈ M → σ l ≠ 0)
    (hcast : ∀ l ∈ rvalue.castSource, (body.localTy l).signed = false ∧
      σ l < 2 ^ (body.localTy dst).bits)
    (hv : MayYield body σ dst rvalue v) : v ≠ 0 := by
  obtain ⟨_, hyield⟩ := hv
  unfold Rvalue.MarkedBy at h
  split at h
  · exact h.ne_zero hM hyield
  · rename_i op ty
    obtain ⟨l, hl, hmem⟩ := h
    obtain ⟨hsigned, hlt⟩ := hcast l hl
    obtain ⟨hty, hval⟩ := hyield
    rw [hval l hl, Ty.toInt_of_unsigned hsigned, Ty.wrap_natCast, hty, Nat.mod_eq_of_lt hlt]
    exact hM l (by simp [Rvalue.sources, hl]) hmem
  · rename_i op1 op2
    obtain ⟨_, x, y, hx, hy, _, hres⟩ := hyield
    have hsources : (Rvalue.binaryOp .bitOr op1 op2).sources =
        (operandLocal op1).toList ++ (operandLocal op2).toList := rfl
    rw [hsources] at hM
    rw [hres _ rfl]
    refine or_ne_zero (h.imp (fun h => h.ne_zero (fun l hl => ?_) hx) fun h =>
      h.ne_zero (fun l hl => ?_) hy)
    · exact hM l (List.mem_append_left _ hl)
    · exact hM l (List.mem_append_right _ hl)
  · exact h.elim

/-- A fact that marks a local on the edge that is taken is right. -/
theorem NumFact.Correct.ne_zero {f : NumFact} {w v : Nat} (h : f.Correct w v) {pol : Bool}
    (hmarks : f.Marks pol) (hpol : w ≠ 0 ↔ pol = true) : v ≠ 0 := by
  have hfalse : pol = false → w = 0 := fun hp =>
    Classical.byContradiction fun hw => Bool.noConfusion (hp.symm.trans (hpol.mp hw))
  cases f with
  | ifTrue => exact h (hpol.mpr hmarks)
  | ifFalse => exact h (hfalse hmarks)
  | const kind k =>
    cases kind with
    | constGt =>
      have hgt : (k.val : Int) < v := h.mp (hpol.mpr hmarks)
      omega
    | constGe =>
      have hge : (k.val : Int) ≤ v := h.mp (hpol.mpr hmarks.1)
      have hk : 1 ≤ k.val := hmarks.2
      omega
    | constLt =>
      have hlt : ¬ (v : Int) < k.val := fun hlt => h.mpr hlt (hfalse hmarks.1)
      have hk : 1 ≤ k.val := hmarks.2
      omega
    | constLe =>
      have hle : ¬ (v : Int) ≤ k.val := fun hle => h.mpr hle (hfalse hmarks)
      omega

end Values

/-! ## Edges -/

section Edges
variable {n : Nat} {targets : SwitchTargets n} {discr : Operand} {span : Span} {c x : Local}
  {s : BlockState} {v w : Nat}

/-- Where nothing is recorded of `x`, no edge marks it. -/
theorem localIsNonzero_of_no_fact (hdiscr : operandLocal discr = some c)
    (hnone : ∀ f, ¬ s.hasFact c x f) {succ : Fin n}
    (h : (refineSwitchintEdge ⟨.switchInt discr targets, span⟩ succ s).localIsNonzero x = true) :
    s.localIsNonzero x = true := by
  have htrue : (refineTrueEdge c s).localIsNonzero x = true → s.localIsNonzero x = true := fun h =>
    ((refineTrueEdge_nonzero c s x).mp h).resolve_right fun ⟨f, hf, _⟩ => hnone f hf
  have hfalse : (refineFalseEdge c s).localIsNonzero x = true → s.localIsNonzero x = true := fun h =>
    ((refineFalseEdge_nonzero c s x).mp h).resolve_right fun ⟨f, hf, _⟩ => hnone f hf
  rw [refineSwitchintEdge_eq hdiscr] at h
  split at h
  · split at h
    · exact h
    · exact htrue h
  · split at h
    · exact hfalse h
    · exact h

/-- **The taken edge of a switch** on the outcome of comparisons marks no zero. -/
theorem ne_zero_of_refineSwitchintEdge (hdiscr : operandLocal discr = some c)
    (hcanon : targets.Canonical) (hold : s.localIsNonzero x = true → v ≠ 0)
    (hfacts : ∀ f, s.hasFact c x f → w < 2 ∧ f.Correct w v)
    (h : (refineSwitchintEdge ⟨.switchInt discr targets, span⟩ (targets.select w) s).localIsNonzero
      x = true) : v ≠ 0 := by
  by_cases hsome : ∃ f, s.hasFact c x f
  · obtain ⟨f, hf⟩ := hsome
    have hlt := (hfacts f hf).1
    rcases hcanon.keepsPolarity hdiscr hlt span s with heq | heq
    · rw [heq] at h
      exact hold h
    · rw [heq] at h
      split at h
      · rename_i hone
        rcases (refineTrueEdge_nonzero c s x).mp h with hmark | ⟨f, hf, hmarks⟩
        · exact hold hmark
        · exact (hfacts f hf).2.ne_zero hmarks (by simp [hone])
      · rename_i hone
        have hzero : w = 0 := by omega
        rcases (refineFalseEdge_nonzero c s x).mp h with hmark | ⟨f, hf, hmarks⟩
        · exact hold hmark
        · exact (hfacts f hf).2.ne_zero hmarks (by simp [hzero])
  · exact hold (localIsNonzero_of_no_fact hdiscr (fun f hf => hsome ⟨f, hf⟩) h)

end Edges

/-! ## Executions -/

/-- The whole local that receives the result of a call, and the path of the callee. -/
def Terminator.namedResult (tcx : TyCtxt) (body : Body) (term : Terminator body.numBlocks) :
    Option (Local × String) :=
  match term.kind with
  | .call func _ destination _ _ =>
      if destination.isLocal then
        (resolveCallee tcx body func .default).map fun did => (destination.base, tcx.defPathStr did)
      else none
  | _ => none

/-- The marks of the numbers of `N` can be followed as well. -/
structure Body.TracksNonzero (tcx : TyCtxt) (body : Body) (N : Finset Local) : Prop
    extends body.Tracks N where
  /-- No number is cut. -/
  widens : ∀ b, ∀ stmt ∈ (body.basicBlocks b).statements, ∀ a ∈ stmt.assignment, a.1 ∈ N →
    ∀ src ∈ a.2.castSource, (body.localTy src).bits ≤ (body.localTy a.1).bits
  /-- No number is returned by a function that is known not to return null. -/
  results : ∀ b, ∀ term ∈ (body.basicBlocks b).terminator, ∀ r ∈ term.namedResult tcx body,
    r.1 ∈ N → returnsNonNull r.2 = false ∧ endsWith r.2 "::dangling" = false

/-- The numbers of `N` are within their bounds, and nonzero if marked. -/
structure NumbersOn (N : Finset Local) (s : BlockState) (σ : Store) : Prop where
  bounded : BoundedOn N s σ
  marked : ∀ x ∈ N, x ∈ s.mustSets .nonzero → σ x ≠ 0

section Numbers
variable {tcx : TyCtxt} {body : Body} {summaries : SummaryMap} {N : Finset Local}
  {s t : BlockState} {σ τ : Store} {b succ : body.BasicBlock} {stmt : Statement}
  {stmts : List Statement} {term : Terminator body.numBlocks}

theorem NumbersOn.nonzero (h : NumbersOn N s σ) {x : Local} (hx : x ∈ N)
    (hmark : s.localIsNonzero x = true) : σ x ≠ 0 := by
  rcases localIsNonzero_iff.mp hmark with hmem | ⟨lb, hlb, hone⟩
  · exact h.marked x hx hmem
  · exact Nat.ne_of_gt (Nat.lt_of_lt_of_le hone ((h.bounded x hx).2 lb hlb))

namespace Body.TracksNonzero

/-- **One statement** keeps the numbers right. -/
theorem numbersOn_applyStatement (h : body.TracksNonzero tcx N)
    (hmem : stmt ∈ (body.basicBlocks b).statements)
    (hrange : ∀ x ∈ N, (body.localTy x).InRange (σ x)) (hs : NumbersOn N s σ)
    (hexec : stmt.Executes body σ τ) :
    NumbersOn N (San.applyStatement tcx body stmt s) τ := by
  have hbounded := h.toTracks.applyStatement tcx hmem hs.bounded hexec
  cases hassign : stmt.assignment with
  | none =>
    have hσ := h.disturbs (hexec.disturbs hassign)
    have hw := (applyStatement_writes_of_assignment_none tcx body s hassign).nonzero (by decide)
    refine ⟨hbounded, fun x hx hmark => ?_⟩
    rw [hσ x hx]
    exact hs.marked x hx (hw ▸ hmark)
  | some a =>
    obtain ⟨dst, rvalue⟩ := a
    have hkind := Statement.kind_of_assignment hassign
    obtain ⟨v, hv, rfl⟩ := hexec.of_assignment hassign
    refine ⟨hbounded, fun x hx hmark => ?_⟩
    by_cases hdst : x = dst
    · subst hdst
      have hscalar := Ty.isScalar_of_isSmallUnsigned (h.unsigned x hx)
      have hfed := h.fed b stmt hmem _ hassign hx
      rw [Store.set_self]
      refine (marked_of_applyStatement hkind hscalar hmark).ne_zero
        (fun l hl => hs.marked l (hfed.1 l hl)) (fun src hsrc => ?_) (hv hscalar)
      have hsrcN := hfed.1 src (Rvalue.mem_sources_of_castSource hsrc)
      have hwide := h.widens b stmt hmem _ hassign hx src hsrc
      have hty := h.unsigned src hsrcN
      exact ⟨Ty.signed_of_isSmallUnsigned hty,
        Nat.lt_of_lt_of_le ((hrange src hsrcN).lt_two_pow_bits hty)
          (Nat.pow_le_pow_right (by decide) hwide)⟩
    · rw [Store.set_of_ne hdst]
      exact hs.marked x hx ((Loosened.applyStatement hdst tcx body hkind s).nonzero hmark)

/-- **The statements of a block** do. -/
theorem numbersOn_applyStatements (h : body.TracksNonzero tcx N)
    (hmem : ∀ stmt ∈ stmts, stmt ∈ (body.basicBlocks b).statements)
    (hrange : ∀ x ∈ N, (body.localTy x).InRange (σ x)) (hs : NumbersOn N s σ)
    (hexec : ExecutesAll body stmts σ τ) :
    NumbersOn N (San.applyStatements tcx body stmts s) τ := by
  induction stmts generalizing s σ with
  | nil =>
    cases hexec
    exact hs
  | cons stmt stmts ih =>
    obtain ⟨m, hstmt, hrest⟩ := hexec
    have hstep := h.numbersOn_applyStatement (hmem stmt List.mem_cons_self) hrange hs hstmt
    exact ih (fun x hx => hmem x (List.mem_cons_of_mem _ hx)) (h.inRange_executes hstmt hrange) hstep
      hrest

end Body.TracksNonzero

/-- The result of a call is marked by its type and by the name of the callee only. -/
theorem not_mem_nonzero_applyCall {func : Operand} {args : List Operand} {destination : Place}
    {bb : Nat} {did : DefId} (hlocal : destination.isLocal = true)
    (hdid : resolveCallee tcx body func s = some did)
    (hscalar : (body.localTy destination.base).isScalar = true)
    (hnonnull : returnsNonNull (tcx.defPathStr did) = false)
    (hdangling : endsWith (tcx.defPathStr did) "::dangling" = false) :
    destination.base ∉ (applyCall tcx body summaries bb func args destination s).mustSets .nonzero := by
  have hclear : ∀ t : BlockState,
      destination.base ∉ (t.clearRedefined destination.base).mustSets .nonzero := by
    intro t
    rw [BlockState.clearRedefined_mustSets, if_pos (by decide)]
    exact Finset.notMem_erase _ _
  have hlayout : ∀ (t : BlockState) (c : Prop) [Decidable c],
      (if c then t.insertMay .layoutOverflow destination.base else t).mustSets .nonzero =
        t.mustSets .nonzero := fun t c _ =>
    (Writes.ite (t.insertMay_writes .layoutOverflow destination.base) (.refl _ t)).nonzero (by decide)
  unfold applyCall
  dsimp only
  rw [hdid]
  dsimp only
  rw [if_pos hlocal]
  unfold applyResolvedCall leaveCall
  dsimp only
  rw [hlayout, hdangling, hnonnull, if_neg Bool.false_ne_true, if_neg Bool.false_ne_true,
    nonzero_enforceTypeFacts hscalar]
  exact fun hmem => hclear _ ((Loosened.callEffects _ tcx body _ _ args _ bb _).nonzero hmem)

namespace Body.TracksNonzero

/-- **A terminator** keeps the numbers right. -/
theorem numbersOn_applyTerminator (h : body.TracksNonzero tcx N) (summaries : SummaryMap)
    (hterm : (body.basicBlocks b).terminator = some term) (hs : NumbersOn N s σ)
    (hleave : term.Leaves body σ succ τ) :
    NumbersOn N (San.applyTerminator tcx body summaries b.val term s) τ := by
  have hbounded := h.toTracks.applyTerminator tcx summaries hterm hs.bounded hleave
  have hcalls := h.calls b term hterm
  have hmodelled := h.modelled b term hterm
  have hresults := h.results b term hterm
  have hkeep : ∀ {t : BlockState}, BoundedOn N t τ → (∀ x ∈ N, τ x = σ x) →
      (∀ x ∈ N, Loosened x s t) → NumbersOn N t τ := by
    intro t ht hσ hloose
    refine ⟨ht, fun x hx hmark => ?_⟩
    rw [hσ x hx]
    exact hs.marked x hx ((hloose x hx).nonzero hmark)
  obtain ⟨kind, span⟩ := term
  cases kind with
  | call func args destination target unwind =>
    obtain ⟨m, hm, hresult⟩ := hleave
    have hm := h.disturbs hm
    by_cases hlocal : destination.isLocal = true
    · rw [if_pos hlocal] at hresult
      obtain ⟨v, _, rfl⟩ := hresult
      refine ⟨hbounded, fun x hx hmark => ?_⟩
      by_cases hdest : x = destination.base
      · -- the result is not marked
        have hfunc : func.constFnDef.isSome = true := by
          cases hfunc : func.constFnDef.isSome with
          | true => rfl
          | false =>
            refine absurd (hdest ▸ hx) (hcalls _ ?_)
            simp [Terminator.indirectResult, hlocal, hfunc]
        obtain ⟨did, hdid⟩ := Option.ne_none_iff_exists'.mp (resolveCallee_ne_none hfunc tcx body s)
        have hname := hresults (destination.base, tcx.defPathStr did) (by
          simp [Terminator.namedResult, hlocal, resolveCallee_const hfunc tcx body .default s, hdid])
          (hdest ▸ hx)
        exact absurd (hdest ▸ hmark) (not_mem_nonzero_applyCall hlocal hdid
          (Ty.isScalar_of_isSmallUnsigned (h.unsigned _ (hdest ▸ hx))) hname.1 hname.2)
      · rw [Store.set_of_ne hdest, hm x hx]
        exact hs.marked x hx ((Loosened.applyCall (fun _ => hdest) tcx body summaries b.val func args
          s).nonzero hmark)
    · rw [if_neg hlocal] at hresult
      exact hkeep hbounded (fun x hx => by rw [hresult, hm x hx]) fun x _ =>
        .applyCall (fun hl => absurd hl hlocal) tcx body summaries b.val func args s
  | assert cond expected target unwind =>
    obtain ⟨rfl, _⟩ := hleave
    exact hkeep hbounded (fun _ _ => rfl) fun x _ => .assertCondition x cond expected s
  | drop place target unwind =>
    exact hkeep hbounded (h.disturbs hleave) fun x _ => .of_writes x (applyDrop_writes s place)
      (by decide)
  | switchInt discr targets =>
    obtain ⟨rfl, _⟩ := hleave
    exact hs
  | yield resume drop => cases hmodelled
  | inlineAsm targets unwind => cases hmodelled
  | _ =>
    cases hleave
    exact hs

/-- **One step of an execution** keeps the numbers right. -/
theorem numbersOn_passes (h : body.TracksNonzero tcx N) (summaries : SummaryMap)
    (hfacts : FactsCompared body s) (hrange : ∀ x ∈ N, (body.localTy x).InRange (σ x))
    (hs : NumbersOn N s σ) (hpass : body.Passes b σ succ τ) :
    NumbersOn N (edgeState tcx body summaries b s succ) τ := by
  have hbounded := h.toTracks.passes tcx summaries hfacts hs.bounded hpass
  obtain ⟨⟨m, term, hexec, hterm, hleave⟩, _⟩ := hpass
  have hstmts := h.numbersOn_applyStatements (fun _ hmem => hmem) hrange hs hexec
  have hexit := h.numbersOn_applyTerminator summaries hterm hstmts hleave
  rw [edgeState_of_some hterm] at hbounded ⊢
  refine ⟨hbounded, fun x hx hmark => ?_⟩
  have hswitches := h.switches b term hterm
  obtain ⟨kind, span⟩ := term
  cases kind with
  | switchInt discr targets =>
    obtain ⟨rfl, hselect⟩ := hleave
    cases hdiscr : operandLocal discr with
    | none =>
      rw [refineSwitchintEdge_of_projected hdiscr] at hmark
      exact hexit.marked x hx hmark
    | some c =>
      have hlocal : (refineSwitchintEdge ⟨.switchInt discr targets, span⟩ succ
          (San.applyStatements tcx body (body.basicBlocks b).statements s)).localIsNonzero x = true :=
        localIsNonzero_iff.mpr (Or.inl hmark)
      by_cases hcompares : body.Compares c
      · have hat := hswitches (c, targets) (by simp [Terminator.switchedOn, hdiscr]) hcompares
        obtain ⟨ls, hls⟩ := Option.isSome_iff_exists.mp hat.standing
        have hstart : StandingFacts N c none s σ := by
          intro ls hls
          cases hls
        have hstanding := h.standing tcx hat.scalar hat.isPrivate hstart hexec ls hls x hx
        rw [hselect c hdiscr] at hlocal
        exact ne_zero_of_refineSwitchintEdge hdiscr hat.canonical (hstmts.nonzero hx)
          (fun f hf => (hstanding f hf).2) hlocal
      · refine hstmts.nonzero hx (localIsNonzero_of_no_fact hdiscr (fun f hf => ?_) hlocal)
        exact hcompares (hfacts.applyStatements tcx (fun _ hmem => hmem) c x f hf)
  | _ => exact hexit.marked x hx hmark

end Body.TracksNonzero

/-- The parameters of scalar types are not marked. -/
theorem not_mem_nonzero_seed (tcx : TyCtxt) (body : Body) {x : Local}
    (hx : (body.localTy x).isScalar = true) :
    x ∉ (seedParamTypeFacts tcx body .default).mustSets .nonzero := by
  have hfold : ∀ (ls : List Local) (s : BlockState), x ∉ s.mustSets .nonzero →
      x ∉ (ls.foldl (fun s l => enforceTypeFacts tcx l (body.localTy l) s) s).mustSets .nonzero := by
    intro ls
    induction ls with
    | nil => exact fun s hs => hs
    | cons l ls ih =>
      refine fun s hs => ih _ fun hmem => ?_
      by_cases hl : x = l
      · subst hl
        exact hs (nonzero_enforceTypeFacts hx x s ▸ hmem)
      · exact hs ((Loosened.of_kept ((EntriesKept.refl x s).enforceTypeFacts hl tcx _)).nonzero hmem)
  exact hfold _ _ (Finset.notMem_empty x)

/-- The numbers at every visit. -/
theorem Body.TracksNonzero.visits (h : body.TracksNonzero tcx N) (summaries : SummaryMap)
    (hvisit : body.Visits b σ) :
    ∃ s, (computeFlow tcx body summaries).entryStates b = some s ∧ NumbersOn N s σ := by
  refine hvisit.entry_holds (R := NumbersOn N) (fun σ hσ => ?_) ?_ ?_
  · refine ⟨fun x _ => seed_inBounds tcx body hσ x, fun x hx hmark => ?_⟩
    exact absurd hmark (not_mem_nonzero_seed tcx body
      (Ty.isScalar_of_isSmallUnsigned (h.unsigned x hx)))
  · intro bb succ s σ τ hvisit hentry hs hpass
    have hfacts := (factsCompared_invariant tcx body summaries (factsCompared_seed tcx body)).solution
      hentry
    exact h.numbersOn_passes summaries hfacts (h.inRange_visits hvisit) hs hpass
  · intro s e σ hproven he
    exact ⟨fun x hx => (he.bounded x hx).of_provenIn hproven,
      fun x hx hmark => he.marked x hx (hproven.mustSets .nonzero (by decide) hmark)⟩

/-- The numbers at every terminator. -/
theorem Body.TracksNonzero.arrives (h : body.TracksNonzero tcx N) (summaries : SummaryMap)
    (harrive : body.ArrivesAt b τ) :
    ∃ s, (computeFlow tcx body summaries).stateBeforeTerminator tcx b = some s ∧
      NumbersOn N s τ := by
  obtain ⟨σ, hvisit, hexec⟩ := harrive
  obtain ⟨s, hs, hnumbers⟩ := h.visits summaries hvisit
  exact ⟨_, by rw [FlowResults.stateBeforeTerminator, hs]; rfl,
    h.numbersOn_applyStatements (fun _ hmem => hmem) (h.inRange_visits hvisit) hnumbers hexec⟩

end Numbers

/-- **What is proven nonzero is nonzero in every execution.**  Whenever an execution arrives at
the terminator of a block, the numbers of a tracked set that the analysis has proven nonzero
are. -/
theorem tracked_nonzero_sound (tcx : TyCtxt) {body : Body} {N : Finset Local}
    (h : body.TracksNonzero tcx N) (summaries : SummaryMap) {b : body.BasicBlock} {τ : Store}
    (harrive : body.ArrivesAt b τ) :
    ∃ s, (computeFlow tcx body summaries).stateBeforeTerminator tcx b = some s ∧
      ∀ x ∈ N, s.localIsNonzero x = true → τ x ≠ 0 := by
  obtain ⟨s, hs, hnumbers⟩ := h.arrives summaries harrive
  exact ⟨s, hs, fun x hx => hnumbers.nonzero hx⟩

/-! ## A check before a call -/

/-- `_1` is handed to a function if it is not zero. -/
def checksBeforeCall : Body :=
  .ofBlocks 0 1 [.other, .uint .u32, .bool] 2
    (fun bb => [
      .of [.set 2 (.binaryOp .ne (.ofNat 1) (.constant ⟨some 0, none⟩))]
        (.switchInt (.ofNat 2) ⟨[(0, bb 2)], bb 1⟩),
      .of [] (.callTo 0 [.ofNat 1] 0 (bb 2)),
      .of [] .return]) (by decide)

theorem checksBeforeCall_tracks :
    checksBeforeCall.TracksNonzero (.ofPaths ["core::intrinsics::ctlz_nonzero"])
      {Local.ofNat 1, Local.ofNat 2} where
  unsigned := by decide
  isPrivate := by decide
  fed := by decide +kernel
  switches := by decide +kernel
  calls := by decide
  modelled := by decide
  widens := by decide
  results := by decide +kernel

/-- The call receives five. -/
theorem checksBeforeCall_arrives : checksBeforeCall.ArrivesAt (1 : Fin 3)
    ((Store.set (fun _ => 0) (Local.ofNat 1) 5).set (Local.ofNat 2) 1) := by
  have hentry : checksBeforeCall.Visits (0 : Fin 3) (Store.set (fun _ => 0) (Local.ofNat 1) 5) := by
    refine .entry fun l => ?_
    by_cases hl : l = Local.ofNat 1
    · subst hl
      decide
    · rw [Store.set_of_ne hl]
      exact Ty.inRange_zero _
  refine ⟨_, hentry.next ⟨⟨_, _, ⟨_, ⟨1, fun _ => ⟨by decide, rfl, 5, 0, ?_, ?_, nofun, ?_⟩, rfl⟩,
    rfl⟩, rfl, rfl, ?_⟩, .tail _ (.head _)⟩, rfl⟩
  · rintro p ⟨⟩
    rfl
  · rintro p ⟨⟩
    rfl
  · rintro r ⟨⟩
    rfl
  · rintro c ⟨⟩
    rfl

/-- The analysis proves that what the call receives is not zero, and five is not. -/
theorem tracked_nonzero_checked :
    ∃ s, (computeFlow (.ofPaths ["core::intrinsics::ctlz_nonzero"]) checksBeforeCall
        ∅).stateBeforeTerminator (.ofPaths ["core::intrinsics::ctlz_nonzero"]) (1 : Fin 3) = some s ∧
      (s.localIsNonzero (Local.ofNat 1) = true →
        ((Store.set (fun _ => 0) (Local.ofNat 1) 5).set (Local.ofNat 2) 1) (Local.ofNat 1) ≠ 0) := by
  obtain ⟨s, hs, hall⟩ := tracked_nonzero_sound _ checksBeforeCall_tracks ∅ checksBeforeCall_arrives
  exact ⟨s, hs, hall (Local.ofNat 1) (by decide)⟩

end San
