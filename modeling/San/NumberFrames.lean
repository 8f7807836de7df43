import San.AssignFrame
import San.Execution
import San.HeapPaths
import San.Nonzero

/-! # What the steps of the analysis do to numbers

Three things are known of the number that a local holds: an upper and a lower bound, and that it
is not zero.  Besides, comparisons are recorded for the locals that hold their outcomes.  This
module says which of this a step can touch: what is known of the destination of an assignment
depends on its sources only (`SameBounds.applyStatement`), nothing new is known of other locals
(`Loosened`), and comparisons are recorded for their outcomes only (`factsCompared_invariant`).
-/
namespace San

/-! ## What the bounds of a destination depend on -/

/-- The locals whose bounds an rvalue passes on. -/
def Rvalue.sources : Rvalue → List Local
  | .use op => (operandLocal op).toList
  | .cast _ op _ => (operandLocal op).toList
  | .binaryOp op op1 op2 =>
      if op.isComparison then [] else (operandLocal op1).toList ++ (operandLocal op2).toList
  | _ => []

/-- The two states bound the locals of `L` alike. -/
def SameBounds (L : Finset Local) (s t : BlockState) : Prop :=
  ∀ x ∈ L, t.constUpper.get x = s.constUpper.get x ∧ t.constLower.get x = s.constLower.get x

namespace SameBounds
variable {L : Finset Local} {s s' t t' : BlockState} {F : List Field} {dst : Local}

theorem frame (h : SameBounds L s t) (hs : Writes F s s') (ht : Writes F t t')
    (hF : ∀ f ∈ F, f ≠ .constUpper ∧ f ≠ .constLower) : SameBounds L s' t' := by
  intro x hx
  rw [show s'.constUpper = s.constUpper from hs .constUpper fun hm => (hF _ hm).1 rfl,
    show t'.constUpper = t.constUpper from ht .constUpper fun hm => (hF _ hm).1 rfl,
    show s'.constLower = s.constLower from hs .constLower fun hm => (hF _ hm).2 rfl,
    show t'.constLower = t.constLower from ht .constLower fun hm => (hF _ hm).2 rfl]
  exact h x hx

theorem boundAbove (h : SameBounds L s t) (l : Local) (ub : U64) :
    SameBounds L (s.boundAbove l ub) (t.boundAbove l ub) := by
  intro x hx
  refine ⟨?_, (h x hx).2⟩
  simp only [BlockState.boundAbove, FMap.get_insert]
  split
  · rename_i hl
    rw [← hl, (h x hx).1]
  · exact (h x hx).1

theorem boundAboveBy (h : SameBounds L s t) (l : Local) (o : Option U64) :
    SameBounds L (s.boundAboveBy l o) (t.boundAboveBy l o) := by
  cases o with
  | none => exact h
  | some ub => exact h.boundAbove l ub

theorem setConstant (h : SameBounds L s t) (l : Local) (val : U64) :
    SameBounds L (s.setConstant l val) (t.setConstant l val) := by
  intro x hx
  simp only [BlockState.setConstant, FMap.get_insert]
  split
  · exact ⟨rfl, rfl⟩
  · exact h x hx

/-- The bounds of the destination are forgotten, so they agree from then on. -/
theorem redefine (h : SameBounds L s t) (body : Body) (dst : Local) (rvalue : Rvalue) :
    SameBounds (insert dst L) (San.redefine body dst rvalue s)
      (San.redefine body dst rvalue t) := by
  intro x hx
  rw [redefine_constUpper, redefine_constUpper, redefine_constLower, redefine_constLower]
  simp only [FMap.get_erase]
  split
  · exact ⟨rfl, rfl⟩
  · rename_i hne
    exact h x (Finset.mem_of_mem_insert_of_ne hx hne)

theorem get_propagateMap {V : Type} {m m' : FMap Local V} {src x : Local} {isMove : Bool}
    (hsrc : m'.get src = m.get src) (hx : m'.get x = m.get x) :
    (propagateMap src dst isMove m').get x = (propagateMap src dst isMove m).get x := by
  unfold propagateMap
  rw [hsrc]
  cases m.get src with
  | none => exact hx
  | some v => cases isMove <;> simp only [if_true, if_false, Bool.false_eq_true, FMap.get_erase,
      FMap.get_insert, hx]

theorem propagateUse (h : SameBounds L s t) {src : Local} (hsrc : src ∈ L) (isMove : Bool) :
    SameBounds L (San.propagateUse src dst isMove s) (San.propagateUse src dst isMove t) :=
  fun x hx => ⟨get_propagateMap (h src hsrc).1 (h x hx).1,
    get_propagateMap (h src hsrc).2 (h x hx).2⟩

theorem propagateRvalue (h : SameBounds L s t) (dst : Local) {rvalue : Rvalue}
    (hL : ∀ l ∈ rvalue.sources, l ∈ L) :
    SameBounds L (San.propagateRvalue dst rvalue s) (San.propagateRvalue dst rvalue t) := by
  have huse : ∀ {op : Operand} {src : Place}, (∀ l ∈ (operandLocal op).toList, l ∈ L) →
      (op = .move src ∨ op = .copy src) → ∀ isMove,
      SameBounds L (if src.isLocal then San.propagateUse src.base dst isMove s else s)
        (if src.isLocal then San.propagateUse src.base dst isMove t else t) := by
    intro op src hop hsrc isMove
    split
    · rename_i hlocal
      refine h.propagateUse (hop _ ?_) isMove
      rcases hsrc with rfl | rfl <;> simp only [operandLocal, hlocal, if_true, Option.mem_toList]
    · exact h
  unfold San.propagateRvalue
  split
  · exact huse hL (Or.inl rfl) true
  · exact huse hL (Or.inr rfl) false
  · exact h

/-! ### Operations -/

section Operands
variable (h : SameBounds L s t)
include h

theorem bind_upper {op : Operand} (hop : ∀ l ∈ (operandLocal op).toList, l ∈ L) :
    (operandLocal op).bind t.constUpper.get = (operandLocal op).bind s.constUpper.get := by
  cases hl : operandLocal op with
  | none => rfl
  | some l => exact (h l (hop l (by simp [hl]))).1

theorem operandUpper {op : Operand} (hop : ∀ l ∈ (operandLocal op).toList, l ∈ L) :
    San.operandUpper t op = San.operandUpper s op := by
  unfold San.operandUpper
  rw [h.bind_upper hop]

theorem boundArith {op1 op2 : Operand} (hop1 : ∀ l ∈ (operandLocal op1).toList, l ∈ L)
    (hop2 : ∀ l ∈ (operandLocal op2).toList, l ∈ L) (f : Nat → Nat → Nat) :
    SameBounds L (San.boundArith f dst op1 op2 s) (San.boundArith f dst op1 op2 t) := by
  unfold San.boundArith
  rw [h.operandUpper hop1, h.operandUpper hop2]
  split
  · dsimp only
    split
    · exact (h.boundAbove dst _).frame (BlockState.insertMay_writes _ _ _)
        (BlockState.insertMay_writes _ _ _) (by simp)
    · exact (h.boundAbove dst _).frame (BlockState.onMaySets_writes _ _ _)
        (BlockState.onMaySets_writes _ _ _) (by simp)
  · exact h.frame (s.insertMay_writes _ _) (t.insertMay_writes _ _) (by simp)

theorem clearComparisons : SameBounds L (San.clearComparisons dst s) (San.clearComparisons dst t) :=
  h.frame (s.onFacts_writes Fact.comparisons _) (t.onFacts_writes Fact.comparisons _) (by decide)

theorem binaryUpper {op : BinOp} {op1 op2 : Operand}
    (hop1 : ∀ l ∈ (operandLocal op1).toList, l ∈ L)
    (hop2 : ∀ l ∈ (operandLocal op2).toList, l ∈ L) :
    San.binaryUpper op t op1 op2 = San.binaryUpper op s op1 op2 := by
  unfold San.binaryUpper San.andUpper
  rw [h.bind_upper hop1, h.bind_upper hop2]

/-- **The bounds of a result** depend on those of the operands only. -/
theorem recordBinaryOp (body : Body) {op : BinOp} {op1 op2 : Operand}
    (hL : ∀ l ∈ (Rvalue.binaryOp op op1 op2).sources, l ∈ L) :
    SameBounds L (San.recordBinaryOp body op op1 op2 dst s)
      (San.recordBinaryOp body op op1 op2 dst t) := by
  cases hop : op.isComparison with
  | true =>
    exact h.frame (recordBinaryOp_compared s body hop op1 op2 dst)
      (recordBinaryOp_compared t body hop op1 op2 dst) (by decide)
  | false =>
    simp only [Rvalue.sources, hop, Bool.false_eq_true, if_false, List.mem_append] at hL
    have hop1 := fun l hl => hL l (Or.inl hl)
    have hop2 := fun l hl => hL l (Or.inr hl)
    have hupper : SameBounds L (s.boundAboveBy dst (San.binaryUpper op s op1 op2))
        (t.boundAboveBy dst (San.binaryUpper op t op1 op2)) := by
      rw [h.binaryUpper hop1 hop2]
      exact h.boundAboveBy dst _
    cases op with
    | bitOr =>
      have hmark : ∀ u : BlockState, Writes [.mustSet .nonzero] u
          (if operandNonzero u op1 || operandNonzero u op2 then u.insertMust .nonzero dst else u) :=
        fun u => .ite (u.insertMust_writes _ _) (.refl _ u)
      exact (h.frame (hmark s) (hmark t) (by simp)).clearComparisons
    | bitAnd => exact hupper.clearComparisons
    | rem => exact hupper.clearComparisons
    | shr => exact hupper.clearComparisons
    | mul => exact (h.boundArith hop1 hop2 _).clearComparisons
    | mulWithOverflow => exact h.boundArith hop1 hop2 _
    | add =>
      refine SameBounds.clearComparisons ?_
      split
      · exact h.boundArith hop1 hop2 _
      · exact h
    | addWithOverflow =>
      show SameBounds L (if _ then _ else s) (if _ then _ else t)
      split
      · exact h.boundArith hop1 hop2 _
      · exact h
    | lt => cases hop
    | le => cases hop
    | ge => cases hop
    | gt => cases hop
    | eq => cases hop
    | ne => cases hop
    | _ => exact h.clearComparisons

theorem assignNumericCast (kind : CastKind) {src : Local} (hsrc : src ∈ L) (ty : Ty) :
    SameBounds L (San.assignNumericCast kind src dst ty s)
      (San.assignNumericCast kind src dst ty t) := by
  have horigin : SameBounds L (s.insertFact .castOrigin dst src) (t.insertFact .castOrigin dst src) :=
    h.frame (s.insertFact_writes _ _ _) (t.insertFact_writes _ _ _) (by simp)
  have hmark : ∀ u : BlockState, Writes [.mustSet .nonzero] u
      (if src ∈ u.mustSets .nonzero then u.insertMust .nonzero dst else u) :=
    fun u => .ite (u.insertMust_writes _ _) (.refl _ u)
  unfold San.assignNumericCast
  split
  · have hbounds := (horigin.boundAboveBy dst (uintTypeMax ty)).frame (hmark _) (hmark _) (by simp)
    dsimp only
    rw [(hbounds src hsrc).1]
    exact hbounds.boundAboveBy dst _
  · exact horigin

theorem assignConstant (c : Const) :
    SameBounds L (San.assignConstant c dst s) (San.assignConstant c dst t) := by
  have hclear : ∀ u : BlockState,
      Writes ([.pointsTo, .localProto] ++ Field.scalars) u
        (((u.setObjects dst none).dropProto dst).clearScalarFacts dst) := fun u =>
    ((u.setObjects_writes _ _).mono (by decide)).trans <|
      ((BlockState.dropProto_writes _ _).mono (by decide)).trans <|
        (clearScalarFacts_writes _ _).mono (by decide)
  have hmark : ∀ (u : BlockState) (val : U64), Writes [.mustSet .nonzero] u
      (if val ≠ 0 then u.insertMust .nonzero dst else u.onMustSets [.nonzero] (·.erase dst)) :=
    fun u _ => .ite (u.insertMust_writes _ _) (u.onMustSets_writes [.nonzero] _)
  refine SameBounds.frame ?_ (hclear _) (hclear _) (by decide)
  split
  · exact (h.frame (hmark s _) (hmark t _) (by simp)).setConstant dst _
  · exact h

theorem assignRvalue (tcx : TyCtxt) (body : Body) {rvalue : Rvalue}
    (hL : ∀ l ∈ rvalue.sources, l ∈ L) :
    SameBounds L (San.assignRvalue tcx body dst rvalue s)
      (San.assignRvalue tcx body dst rvalue t) := by
  cases hnumeric : rvalue.isNumeric with
  | false =>
    exact h.frame (assignRvalue_quiet s tcx body dst hnumeric)
      (assignRvalue_quiet t tcx body dst hnumeric) (by decide)
  | true =>
    cases rvalue with
    | use op =>
      cases op with
      | copy p => cases hnumeric
      | move p => cases hnumeric
      | constant c => exact h.assignConstant c
    | cast kind op ty =>
      rw [assignRvalue_numericCast s tcx body dst hnumeric, assignRvalue_numericCast t tcx body dst
        hnumeric]
      cases hop : operandLocal op with
      | none => exact h.frame (assignUnknown_writes s _ dst) (assignUnknown_writes t _ dst) (by decide)
      | some src => exact h.assignNumericCast kind (hL src (by simp [Rvalue.sources, hop])) ty
    | binaryOp op op1 op2 =>
      exact (h.frame (enterBinaryOp_writes s op op1 op2 dst) (enterBinaryOp_writes t op op1 op2 dst)
        (by decide)).recordBinaryOp body hL
    | _ => cases hnumeric

/-- **What an assignment proves of its destination** depends on the bounds of its sources. -/
theorem applyStatement (tcx : TyCtxt) (body : Body) {rvalue : Rvalue} {stmt : Statement}
    (hstmt : stmt.kind = .assign (Place.ofLocal dst) rvalue) (hL : ∀ l ∈ rvalue.sources, l ∈ L) :
    SameBounds (insert dst L) (San.applyStatement tcx body stmt s)
      (San.applyStatement tcx body stmt t) := by
  have hL' : ∀ l ∈ rvalue.sources, l ∈ insert dst L := fun l hl => Finset.mem_insert_of_mem (hL l hl)
  have hstart := (h.frame (s.invalidateOwners_writes {dst}) (t.invalidateOwners_writes {dst})
    (by decide)).redefine body dst rvalue
  have hbase := hstart.frame (recordRefBase_writes _ dst rvalue) (recordRefBase_writes _ dst rvalue)
    (by decide)
  have hlen := (hbase.propagateRvalue dst hL').frame (recordLenOf_writes _ dst rvalue)
    (recordLenOf_writes _ dst rvalue) (by decide)
  have hmark : ∀ u : BlockState, Writes [.mustSet .nonzero] u
      (if tyIsNonzero tcx (body.localTy dst) then u.insertMust .nonzero dst else u) :=
    fun u => .ite (u.insertMust_writes _ _) (.refl _ u)
  rw [applyStatement_assign tcx body hstmt, applyStatement_assign tcx body hstmt, assignLocal_eq,
    assignLocal_eq]
  exact ((hlen.assignRvalue tcx body hL').frame (hmark _) (hmark _) (by simp)).boundAboveBy dst _

end Operands

end SameBounds

/-! ## Calls -/

/-- The fields in which a call records what its callee is known for. -/
def Field.lookups : List Field :=
  [.fact .lenOf, .fact .capOf, .fact .nanIfTrue, .fact .finiteIfTrue, .fact .refBase,
    .mustSet .fdOrigin, .maySet .fdConsumed, .threadSpawned, .pairFact .nePairIfTrue,
    .pairFact .eqPairIfTrue]

theorem recordCallFacts_lookups (s : BlockState) (path : String) (args : List Operand)
    (dest : Local) : Writes Field.lookups s (recordCallFacts path args dest s) :=
  ((recordLength_writes s path args dest).mono (by decide)).trans <|
    ((recordFiniteness_writes _ path args dest).mono (by decide)).trans <|
    ((recordDeref_writes _ path args dest).mono (by decide)).trans <|
    ((recordFd_writes _ path args dest).mono (by decide)).trans <|
    (Writes.ite ((markSpawned_writes _).mono (by decide)) (.refl _ _)).trans <|
    (recordPartialEq_writes _ path args dest).mono (by decide)

theorem resolveCallee_ne_none {func : Operand} (h : func.constFnDef.isSome = true) (tcx : TyCtxt)
    (body : Body) (s : BlockState) : resolveCallee tcx body func s ≠ none := by
  obtain ⟨⟨id, substs⟩, hconst⟩ := Option.isSome_iff_exists.mp h
  unfold resolveCallee
  rw [hconst]
  dsimp only
  split
  · split <;> exact Option.some_ne_none _
  · exact Option.some_ne_none _

/-! ## What is known of other locals -/

/-- Nothing is known of the number `x` in `t` that is not known in `s`. -/
structure Loosened (x : Local) (s t : BlockState) : Prop where
  upper : ∀ u, t.constUpper.get x = some u → s.constUpper.get x = some u
  lower : ∀ l, t.constLower.get x = some l → s.constLower.get x = some l
  nonzero : x ∈ t.mustSets .nonzero → x ∈ s.mustSets .nonzero

/-- The fields that the numbers are kept in. -/
def Field.numbers : List Field := [.constUpper, .constLower, .mustSet .nonzero]

namespace Loosened
variable {tcx : TyCtxt} {body : Body} {summaries : SummaryMap} {x dst : Local} {s t u : BlockState}
  {F : List Field} {rvalue : Rvalue}

theorem refl (x : Local) (s : BlockState) : Loosened x s s := ⟨fun _ h => h, fun _ h => h, fun h => h⟩

theorem trans (h : Loosened x s t) (h' : Loosened x t u) : Loosened x s u :=
  ⟨fun v hv => h.upper v (h'.upper v hv), fun v hv => h.lower v (h'.lower v hv),
    fun hx => h.nonzero (h'.nonzero hx)⟩

theorem of_kept (h : EntriesKept x s t) : Loosened x s t :=
  ⟨fun _ hv => h.constUpper ▸ hv, fun _ hv => h.constLower ▸ hv, (h.mustSets .nonzero).mp⟩

theorem of_writes (x : Local) (hw : Writes F s t) (hF : ∀ f ∈ Field.numbers, f ∉ F) :
    Loosened x s t where
  upper u hu := (show t.constUpper = s.constUpper from hw .constUpper (hF _ (by decide))) ▸ hu
  lower l hl := (show t.constLower = s.constLower from hw .constLower (hF _ (by decide))) ▸ hl
  nonzero hx := (show t.mustSets .nonzero = s.mustSets .nonzero from
    hw (.mustSet .nonzero) (hF _ (by decide))) ▸ hx

/-- A move takes what is known from its source; no other local gets any of it. -/
theorem propagateRvalue (hx : x ≠ dst) (rvalue : Rvalue) (s : BlockState) :
    Loosened x s (San.propagateRvalue dst rvalue s) := by
  have huse : ∀ (src : Local) (isMove : Bool), Loosened x s (San.propagateUse src dst isMove s) :=
    fun src isMove =>
      { upper := fun u hu => (propagateMap_source hu).resolve_left fun h => hx h.1
        lower := fun l hl => (propagateMap_source hl).resolve_left fun h => hx h.1
        nonzero := fun hmem =>
          (mem_propagateSet (m := s.mustSets .nonzero) hmem).resolve_left fun h => hx h.1 }
  unfold San.propagateRvalue
  split
  · split
    · exact huse _ _
    · exact .refl x s
  · split
    · exact huse _ _
    · exact .refl x s
  · exact .refl x s

theorem assignRvalue (hx : x ≠ dst) (tcx : TyCtxt) (body : Body) (rvalue : Rvalue) (s : BlockState) :
    Loosened x s (San.assignRvalue tcx body dst rvalue s) := by
  cases hnumeric : rvalue.isNumeric with
  | false => exact of_writes x (assignRvalue_quiet s tcx body dst hnumeric) (by decide)
  | true =>
    cases rvalue with
    | use op =>
      cases op with
      | copy p => cases hnumeric
      | move p => cases hnumeric
      | constant c => exact of_kept ((EntriesKept.refl x s).assignConstant hx c)
    | cast kind op ty =>
      rw [assignRvalue_numericCast s tcx body dst hnumeric]
      cases hop : operandLocal op with
      | none => exact of_writes x (assignUnknown_writes s _ dst) (by decide)
      | some src => exact of_kept ((EntriesKept.refl x s).assignNumericCast hx kind src ty)
    | binaryOp op op1 op2 => exact of_kept ((EntriesKept.refl x s).assignBinaryOp hx body op op1 op2)
    | _ => cases hnumeric

/-- **An assignment to another local** proves nothing of `x`. -/
theorem applyStatement (hx : x ≠ dst) (tcx : TyCtxt) (body : Body) {stmt : Statement}
    (hstmt : stmt.kind = .assign (Place.ofLocal dst) rvalue) (s : BlockState) :
    Loosened x s (San.applyStatement tcx body stmt s) := by
  rw [applyStatement_assign tcx body hstmt, assignLocal_eq]
  exact (of_kept ((((EntriesKept.refl x s).invalidateOwner dst).redefine hx body rvalue).recordRefBase
    hx rvalue)).trans <| (propagateRvalue hx rvalue _).trans <|
    (of_writes x (recordLenOf_writes _ dst rvalue) (by decide)).trans <|
    (assignRvalue hx tcx body rvalue _).trans <|
    of_kept ((EntriesKept.refl x _).enforceTypeFacts hx tcx _)

theorem assertCondition (x : Local) (cond : Operand) (expected : Bool) (s : BlockState) :
    Loosened x s (San.assertCondition cond expected s) := by
  have hdrain : ∀ (t : BlockState) (k : Fact) {m : MustSet} (c : Local), m ≠ .nonzero →
      Loosened x t (drain k m c t) := by
    intro t k m c hm
    unfold drain
    split
    · exact of_writes x (t.insertMust_writes m _) (by simp [Field.numbers, hm.symm])
    · exact .refl x t
  unfold San.assertCondition
  split
  · exact .refl x s
  · split
    · exact (hdrain s _ _ (by decide)).trans (hdrain _ _ _ (by decide))
    · exact (hdrain s _ _ (by decide)).trans (hdrain _ _ _ (by decide))

/-! ### Calls -/

theorem enterCall (x : Local) (tcx : TyCtxt) (body : Body) (summaries : SummaryMap)
    (callee : Option DefId) (args : List Operand) (dest : Local) (s : BlockState) :
    Loosened x s (San.enterCall tcx body summaries callee args dest s) := by
  obtain ⟨t, ht, heq⟩ := enterCall_eq s tcx body summaries callee args dest
  rw [heq]
  exact (of_writes x ht (by decide)).trans
    (of_writes x (killCapacityArgs_writes t body args) (by decide))

theorem escapeRawPtrArgs (x : Local) (body : Body) (args : List Operand) (s : BlockState) :
    Loosened x s (San.escapeRawPtrArgs body args s) :=
  of_writes x (escapeRawPtrArgs_writes s body args) (by decide)

/-- What a resolved call does between forgetting its destination and looking at its type. -/
theorem callEffects (x : Local) (tcx : TyCtxt) (body : Body) (path : String) (kind : CallKind)
    (args : List Operand) (dest : Local) (bb : Nat) (s : BlockState) :
    Loosened x s (applyCallKind tcx body path kind args dest bb (recordCallFacts path args dest s)) :=
  (of_writes x (recordCallFacts_lookups s path args dest) (by decide)).trans
    (of_writes x (applyCallKind_writes _ tcx body path kind args dest bb) (by decide))

theorem leaveCall {dest : Local} (hx : x ≠ dest) (tcx : TyCtxt) (body : Body) (path : String)
    (args : List Operand) (s : BlockState) :
    Loosened x s (San.leaveCall tcx body path args dest s) := by
  have hmark : ∀ (t : BlockState) (c : Prop) [Decidable c],
      Loosened x t (if c then t.insertMust .nonzero dest else t) := by
    intro t c _
    split
    · exact of_kept ((EntriesKept.refl x t).insertMust hx .nonzero)
    · exact .refl x t
  have hlayout : ∀ (t : BlockState) (c : Prop) [Decidable c],
      Loosened x t (if c then t.insertMay .layoutOverflow dest else t) := fun t c _ =>
    of_writes x (Writes.ite (t.insertMay_writes .layoutOverflow dest) (.refl _ t)) (by decide)
  exact (of_kept ((EntriesKept.refl x s).enforceTypeFacts hx tcx _)).trans <|
    (hmark _ _).trans <| (hmark _ _).trans (hlayout _ _)

/-- **A call** proves nothing of locals other than its destination. -/
theorem applyCall {destination : Place} (hx : destination.isLocal = true → x ≠ destination.base)
    (tcx : TyCtxt) (body : Body) (summaries : SummaryMap) (bb : Nat) (func : Operand)
    (args : List Operand) (s : BlockState) :
    Loosened x s (San.applyCall tcx body summaries bb func args destination s) := by
  have henter := fun callee => enterCall x tcx body summaries callee args destination.base s
  unfold San.applyCall
  dsimp only
  split
  · exact (henter _).trans (escapeRawPtrArgs x body args _)
  · split
    · rename_i hlocal
      exact (henter _).trans <|
        (of_kept ((EntriesKept.refl x _).clearRedefined (hx hlocal))).trans <|
        (callEffects x tcx body _ _ args _ bb _).trans (leaveCall (hx hlocal) tcx body _ args _)
    · exact (henter _).trans (escapeRawPtrArgs x body args _)

end Loosened

/-! ## What is recorded -/

/-- Some statement compares, and keeps the outcome in `c`. -/
def Body.Compares (body : Body) (c : Local) : Prop :=
  ∃ b, ∃ stmt ∈ (body.basicBlocks b).statements, ∃ a ∈ stmt.assignment,
    a.1 = c ∧ a.2.isComparison = true

instance (body : Body) (c : Local) : Decidable (body.Compares c) :=
  inferInstanceAs (Decidable (∃ b, ∃ stmt ∈ (body.basicBlocks b).statements, ∃ a ∈ stmt.assignment, _))

/-- What an edge writes: proven facts. -/
def Field.proven : List Field :=
  MustSet.all.map Field.mustSet ++ MustPairs.all.map Field.mustPairs ++ [.constUpper, .constLower]

section Proven
variable (s : BlockState) (c : Local)

theorem drain_proven (k : Fact) (m : MustSet) : Writes Field.proven s (drain k m c s) := by
  unfold drain
  split
  · exact (s.insertMust_writes m _).mono (by cases m <;> decide)
  · exact .refl _ s

theorem drainPair_proven (k : PairFact) (m : MustPairs) (norm) :
    Writes Field.proven s (drainPair k m norm c s) :=
  (drainPair_writes s k m norm c).mono (by decide)

theorem drainUpper_proven (k : ConstFact) (f : U64 → U64) :
    Writes Field.proven s (drainUpper k f c s) := by
  unfold drainUpper
  split
  · exact (s.boundAbove_writes _ _).mono (by decide)
  · exact .refl _ s

theorem drainLower_proven (k : ConstFact) (f : U64 → U64) :
    Writes Field.proven s (drainLower k f c s) := by
  unfold drainLower
  split
  · exact (s.boundBelow_writes _ _).mono (by decide)
  · exact .refl _ s

theorem refineTrueEdge_proven : Writes Field.proven s (refineTrueEdge c s) :=
  (drain_proven _ c _ _).trans <| (drain_proven _ c _ _).trans <| (drainPair_proven _ c _ _ _).trans <|
    (drainPair_proven _ c _ _ _).trans <| (drain_proven _ c _ _).trans <|
    (drain_proven _ c _ _).trans <| (drain_proven _ c _ _).trans <| (drain_proven _ c _ _).trans <|
    (drainUpper_proven _ c _ _).trans <| (drainUpper_proven _ c _ _).trans <|
    (drainLower_proven _ c _ _).trans <| (drainLower_proven _ c _ _).trans <|
    (drainPair_proven _ c _ _ _).trans (drainPair_proven _ c _ _ _)

theorem refineFalseEdge_proven : Writes Field.proven s (refineFalseEdge c s) :=
  (drain_proven _ c _ _).trans <| (drain_proven _ c _ _).trans <| (drain_proven _ c _ _).trans <|
    (drain_proven _ c _ _).trans <| (drain_proven _ c _ _).trans <| (drain_proven _ c _ _).trans <|
    (drainLower_proven _ c _ _).trans <| (drainLower_proven _ c _ _).trans <|
    (drainUpper_proven _ c _ _).trans <| (drainUpper_proven _ c _ _).trans <|
    (drainPair_proven _ c _ _ _).trans (drainPair_proven _ c _ _ _)

theorem refineSwitchintEdge_proven {n : Nat} (term : Terminator n) (succ : Fin n) :
    Writes Field.proven s (refineSwitchintEdge term succ s) := by
  unfold refineSwitchintEdge
  split
  · split
    · exact refineTrueEdge_proven s _
    · exact refineFalseEdge_proven s _
    · exact .refl _ s
  · exact .refl _ s

end Proven

/-- From `s` to `t` no comparison is recorded. -/
abbrev RecordsNothing (s t : BlockState) : Prop := ∀ c x f, t.hasFact c x f → s.hasFact c x f

section Facts
variable {tcx : TyCtxt} {body : Body} {summaries : SummaryMap} {s t u : BlockState}

theorem RecordsNothing.trans (h : RecordsNothing s t) (h' : RecordsNothing t u) :
    RecordsNothing s u := fun c x f hf => h c x f (h' c x f hf)

theorem Writes.recordsNothing {F : List Field} (hw : Writes F s t)
    (hF : ∀ f ∈ Field.numFacts, f ∉ F) : RecordsNothing s t := fun c x f hf =>
  ((Adds.frame hw hF : Adds c (fun _ _ => False) s t) c x f hf).resolve_right fun hR => hR.2

theorem clearRedefined_recordsNothing (s : BlockState) (l : Local) :
    RecordsNothing s (s.clearRedefined l) := by
  have herase : ∀ {V : Type} {m : FMap Local V} {c : Local} {v : V}, (m.erase l).get c = some v →
      m.get c = some v := fun hget => (FMap.get_erase_eq_some_iff.mp hget).2
  intro c x f hf
  cases f with
  | const kind k => exact herase ((s.clearRedefined_constFacts l kind) ▸ hf)
  | ifTrue =>
    have hfacts := s.clearRedefined_facts l .nonzeroIfTrue
    rw [if_pos (by decide)] at hfacts
    exact herase (hfacts ▸ hf)
  | ifFalse =>
    have hfacts := s.clearRedefined_facts l .nonzeroIfFalse
    rw [if_pos (by decide)] at hfacts
    exact herase (hfacts ▸ hf)

theorem enterCall_recordsNothing (tcx : TyCtxt) (body : Body) (summaries : SummaryMap)
    (s : BlockState) (callee : Option DefId) (args : List Operand) (dest : Local) :
    RecordsNothing s (enterCall tcx body summaries callee args dest s) := by
  obtain ⟨t, ht, heq⟩ := enterCall_eq s tcx body summaries callee args dest
  rw [heq]
  exact (ht.recordsNothing (by decide)).trans
    ((killCapacityArgs_writes t body args).recordsNothing (by decide))

theorem applyResolvedCall_recordsNothing (did : DefId) (args : List Operand) (dest : Local)
    (bb : Nat) : RecordsNothing s (applyResolvedCall tcx body summaries did args dest bb s) :=
  (clearRedefined_recordsNothing s dest).trans <|
    ((recordCallFacts_lookups _ _ args dest).recordsNothing (by decide)).trans <|
    ((applyCallKind_writes _ tcx body _ _ args dest bb).recordsNothing (by decide)).trans <|
    (leaveCall_writes _ tcx body _ args dest).recordsNothing (by decide)

/-- **Terminators record no comparisons.** -/
theorem applyTerminator_recordsNothing (bb : Nat) (term : Terminator body.numBlocks) :
    RecordsNothing s (applyTerminator tcx body summaries bb term s) := by
  have hescape : ∀ (t : BlockState) args, RecordsNothing t (escapeRawPtrArgs body args t) :=
    fun t args => (escapeRawPtrArgs_writes t body args).recordsNothing (by decide)
  unfold applyTerminator
  split
  · rename_i func args destination _ _ _
    have henter := enterCall_recordsNothing tcx body summaries s (resolveCallee tcx body func s)
      args destination.base
    unfold applyCall
    dsimp only
    split
    · exact henter.trans (hescape _ _)
    · split
      · exact henter.trans (applyResolvedCall_recordsNothing _ _ _ _)
      · exact henter.trans (hescape _ _)
  · rename_i cond expected _ _ _
    refine Writes.recordsNothing (F := Field.proven) ?_ (by decide)
    unfold assertCondition
    split
    · exact .refl _ s
    · exact .ite ((drain_proven s _ _ _).trans (drain_proven _ _ _ _))
        ((drain_proven s _ _ _).trans (drain_proven _ _ _ _))
  · exact (applyDrop_writes s _).recordsNothing (by decide)
  · exact fun _ _ _ hf => hf

/-- Facts are recorded for the outcomes of comparisons only. -/
def FactsCompared (body : Body) (s : BlockState) : Prop :=
  ∀ c x f, s.hasFact c x f → body.Compares c

theorem FactsCompared.applyStatement (h : FactsCompared body s) (tcx : TyCtxt)
    {b : body.BasicBlock} {stmt : Statement} (hmem : stmt ∈ (body.basicBlocks b).statements) :
    FactsCompared body (San.applyStatement tcx body stmt s) := by
  intro c x f hf
  cases hassign : stmt.assignment with
  | none =>
    exact h c x f ((applyStatement_writes_of_assignment_none tcx body s hassign).recordsNothing
      (by decide) c x f hf)
  | some a =>
    obtain ⟨dst, rvalue⟩ := a
    rcases hasFact_applyStatement tcx (Statement.kind_of_assignment hassign) hf with
      ⟨_, hold⟩ | ⟨rfl, hrec⟩
    · exact h c x f hold
    · refine ⟨b, stmt, hmem, _, hassign, rfl, ?_⟩
      cases rvalue with
      | binaryOp op op1 op2 => exact hrec.1
      | _ => exact hrec.elim

theorem FactsCompared.applyStatements (h : FactsCompared body s) (tcx : TyCtxt)
    {b : body.BasicBlock} {stmts : List Statement}
    (hmem : ∀ stmt ∈ stmts, stmt ∈ (body.basicBlocks b).statements) :
    FactsCompared body (San.applyStatements tcx body stmts s) := by
  induction stmts generalizing s with
  | nil => exact h
  | cons stmt stmts ih =>
    exact ih (h.applyStatement tcx (hmem stmt List.mem_cons_self)) fun x hx =>
      hmem x (List.mem_cons_of_mem _ hx)

theorem FactsCompared.joined (hs : FactsCompared body s) (ht : FactsCompared body t) :
    FactsCompared body (s.joined t) := by
  intro c x f hf
  have hsource : s.hasFact c x f ∨ t.hasFact c x f := by
    cases f with
    | const kind k => exact Discipline.keepFirst_source hf
    | ifTrue => exact Discipline.keepFirst_source hf
    | ifFalse => exact Discipline.keepFirst_source hf
  rcases hsource with hf | hf
  · exact hs c x f hf
  · exact ht c x f hf

variable (tcx body summaries) in
/-- **In every run, facts are recorded for the outcomes of comparisons only.** -/
theorem factsCompared_invariant {initial : BlockState} (hinit : FactsCompared body initial) :
    (flowProblem tcx body summaries initial).Invariant fun _ => FactsCompared body where
  init := hinit
  flow b s succ _ h := by
    have hstmts := h.applyStatements tcx (b := b) fun _ hmem => hmem
    show FactsCompared body (edgeState tcx body summaries b s succ)
    cases hterm : (body.basicBlocks b).terminator with
    | none =>
      rw [edgeState_of_none hterm]
      exact hstmts
    | some term =>
      rw [edgeState_of_some hterm]
      intro c x f hf
      have hrefine := (refineSwitchintEdge_proven _ term succ).recordsNothing (by decide) c x f hf
      exact hstmts c x f (applyTerminator_recordsNothing _ _ c x f hrefine)
  join _ _ _ ha he := ha.joined he

end Facts

end San
