import San.Guards

/-! # Equality through casts

`locals_are_eq` answers from the pairs that a branch on a comparison has proven equal, and looks
through one cast: a local counts as equal to the local that it was cast from.  The origin of a cast
is recorded whatever the cast does to the number, and it is kept when the origin is assigned again;
a comparison is kept when what was compared is assigned again.

An **action** is one step of an execution next to the analysis: an assignment of a value that the
rvalue may yield, or the edge that a two-way switch takes.  `Action.Faithful` is exactly what an
action must meet so that `locals_are_eq` goes on to speak of equal numbers.
-/
namespace San

/-! ## The query -/

namespace BlockState

/-- Has a branch proven the two locals equal? -/
def eqRecorded (s : BlockState) (a b : Local) : Bool :=
  decide (orderPair (a, b) ∈ s.mustPairs .eqLocals)

/-- Are `a` and `b` proven equal, looking through one level of cast? -/
def localsAreEq (s : BlockState) (a b : Local) : Bool :=
  if a = b then true
  else if s.eqRecorded a b then true
  else
    match (s.facts .castOrigin).get a, (s.facts .castOrigin).get b with
    | some sa, some sb => if sa = b ∨ sb = a ∨ sa = sb then true else s.eqRecorded sa b
    | some sa, none => if sa = b then true else s.eqRecorded sa b
    | none, some sb => if sb = a then true else s.eqRecorded a sb
    | none, none => false

end BlockState

/-- The local that is passed as the argument with the given index. -/
def argLocal (args : List Operand) (idx : Nat) : Option Local := args[idx]?.bind operandLocal

/-- Are the strides of a matrix product those of row-major matrices?  The row stride of the first
matrix is the inner dimension, and those of the second and the third are the number of columns. -/
def gemmStrideCoherent (tcx : TyCtxt) {body : Body} (flow : FlowResults body) (args : List Operand)
    (bb : body.BasicBlock) : Bool :=
  match argLocal args 1, argLocal args 2, argLocal args 5, argLocal args 8, argLocal args 12 with
  | some k, some n, some rsa, some rsb, some rsc =>
      (flow.stateBeforeTerminator tcx bb).any fun s =>
        s.localsAreEq k rsa && s.localsAreEq n rsb && s.localsAreEq n rsc
  | _, _, _, _, _ => false

/-! ## What the query answers from -/

/-- The number that a local holds. -/
def Store.value (body : Body) (σ : Store) (l : Local) : Int := (body.localTy l).toInt (σ l)

/-- Locals that the analysis takes to be equal hold the same number. -/
def EqSound (body : Body) (s : BlockState) (σ : Store) : Prop :=
  ∀ a b, s.localsAreEq a b = true → σ.value body a = σ.value body b

theorem Store.value_set_self (body : Body) (σ : Store) (dst : Local) (v : Nat) :
    (σ.set dst v).value body dst = (body.localTy dst).toInt v := by
  unfold Store.value
  rw [Store.set_self]

theorem Store.value_set_of_ne (body : Body) {σ : Store} {dst l : Local} (h : l ≠ dst) (v : Nat) :
    (σ.set dst v).value body l = σ.value body l := by
  unfold Store.value
  rw [Store.set_of_ne h]

section Query
variable {body : Body} {s : BlockState} {σ : Store}

/-- The pairs proven equal and the origins of casts decide the query. -/
theorem eqSound_iff : EqSound body s σ ↔
    (∀ a b, orderPair (a, b) ∈ s.mustPairs .eqLocals → σ.value body a = σ.value body b) ∧
    ∀ x y, (s.facts .castOrigin).get x = some y → σ.value body x = σ.value body y := by
  constructor
  · intro h
    refine ⟨fun a b hab => h a b ?_, fun x y hxy => h x y ?_⟩
    · unfold BlockState.localsAreEq BlockState.eqRecorded
      simp only [hab, decide_true, if_true, ite_self]
    · unfold BlockState.localsAreEq
      rw [hxy]
      cases (s.facts .castOrigin).get y <;> simp
  · rintro ⟨hpairs, horigins⟩ a b hab
    have hrec : ∀ {x y}, s.eqRecorded x y = true → σ.value body x = σ.value body y :=
      fun h => hpairs _ _ (of_decide_eq_true h)
    unfold BlockState.localsAreEq at hab
    split at hab
    · rename_i heq
      rw [heq]
    split at hab
    · rename_i hr
      exact hrec hr
    -- Neither the same local nor a recorded pair: one of the two was cast.
    cases ha : (s.facts .castOrigin).get a with
    | none =>
      cases hb : (s.facts .castOrigin).get b with
      | none => simp only [ha, hb, Bool.false_eq_true] at hab
      | some sb =>
        simp only [ha, hb] at hab
        split at hab
        · rename_i hsb
          exact hsb ▸ (horigins b sb hb).symm
        · exact (hrec hab).trans (horigins b sb hb).symm
    | some sa =>
      refine (horigins a sa ha).trans ?_
      cases hb : (s.facts .castOrigin).get b with
      | none =>
        simp only [ha, hb] at hab
        split at hab
        · rename_i hsa
          rw [hsa]
        · exact hrec hab
      | some sb =>
        simp only [ha, hb] at hab
        split at hab
        · rename_i hcases
          rcases hcases with hsa | hsb | hsame
          · rw [hsa]
          · rw [← horigins a sa ha, ← hsb]
            exact (horigins b sb hb).symm
          · rw [hsame]
            exact (horigins b sb hb).symm
        · exact hrec hab

theorem orderPair_cases (a b : Local) : orderPair (a, b) = (a, b) ∨ orderPair (a, b) = (b, a) := by
  unfold orderPair
  split
  · exact Or.inl rfl
  · exact Or.inr rfl

end Query

/-! ## Assignments -/

section Assign
variable {s t : BlockState} {σ : Store} {dst : Local} {rvalue : Rvalue} {body : Body} {v : Nat}

/-- The rvalue is a numeric cast of this local. -/
def Rvalue.CastsFrom (src : Local) : Rvalue → Prop
  | .cast kind op _ => kind.isNumeric = true ∧ operandLocal op = some src
  | _ => False

theorem Rvalue.CastsFrom.rvalueLocal {src : Local} (h : rvalue.CastsFrom src) :
    San.rvalueLocal rvalue = none := by
  cases rvalue with
  | cast kind op ty => rfl
  | _ => exact h.elim

theorem Rvalue.CastsFrom.unique {src src' : Local} (h : rvalue.CastsFrom src)
    (h' : rvalue.CastsFrom src') : src = src' := by
  cases rvalue with
  | cast kind op ty => exact Option.some.inj (h.2.symm.trans h'.2)
  | _ => exact h.elim

theorem assignRvalue_castOrigin_of_not (tcx : TyCtxt) (h : ∀ src, ¬ rvalue.CastsFrom src) :
    (assignRvalue tcx body dst rvalue t).facts .castOrigin = t.facts .castOrigin := by
  cases hnumeric : rvalue.isNumeric with
  | false => exact assignRvalue_quiet t tcx body dst hnumeric (.fact .castOrigin) (by decide)
  | true =>
    cases rvalue with
    | use op =>
      cases op with
      | constant c => exact assignConstant_writes t c dst (.fact .castOrigin) (by decide)
      | copy p => cases hnumeric
      | move p => cases hnumeric
    | cast kind op ty =>
      rw [assignRvalue_numericCast t tcx body dst hnumeric op ty]
      cases hop : operandLocal op with
      | none => exact assignUnknown_writes t _ dst (.fact .castOrigin) (by decide)
      | some src => exact absurd ⟨hnumeric, hop⟩ (h src)
    | binaryOp op op1 op2 =>
      have henter : (enterBinaryOp op op1 op2 dst t).facts .castOrigin = t.facts .castOrigin :=
        enterBinaryOp_writes t op op1 op2 dst (.fact .castOrigin) (by decide)
      refine Eq.trans ?_ henter
      cases hop : op.isComparison with
      | true => exact recordBinaryOp_facts _ body hop op1 op2 dst (.fact .castOrigin) (by decide)
      | false => exact recordBinaryOp_computed _ body hop op1 op2 dst (.fact .castOrigin) (by decide)
    | _ => cases hnumeric

theorem assignRvalue_castOrigin (tcx : TyCtxt) {src : Local} (h : rvalue.CastsFrom src) :
    (assignRvalue tcx body dst rvalue t).facts .castOrigin =
      (t.facts .castOrigin).insert dst src := by
  cases rvalue with
  | cast kind op ty =>
    rw [assignRvalue_numericCast t tcx body dst h.1 op ty, h.2]
    have hbound : ∀ (u : BlockState) o,
        (u.boundAboveBy dst o).facts .castOrigin = u.facts .castOrigin :=
      fun u o => u.boundAboveBy_writes dst o (.fact .castOrigin) (by decide)
    have hmust : ∀ u : BlockState,
        (u.insertMust .nonzero dst).facts .castOrigin = u.facts .castOrigin :=
      fun u => u.insertMust_writes .nonzero dst (.fact .castOrigin) (by decide)
    show (assignNumericCast kind src dst ty t).facts .castOrigin = _
    unfold assignNumericCast
    split
    · rw [hbound]
      split
      · rw [hmust, hbound]
        rfl
      · rw [hbound]
        rfl
    · rfl
  | _ => exact h.elim

theorem propagateRvalue_castOrigin (dst : Local) (rvalue : Rvalue) (t : BlockState) :
    (propagateRvalue dst rvalue t).facts .castOrigin = t.facts .castOrigin ∧
        rvalueLocal rvalue = none ∨
      ∃ src isMove, rvalueLocal rvalue = some src ∧
        (propagateRvalue dst rvalue t).facts .castOrigin =
          propagateMap src dst isMove (t.facts .castOrigin) := by
  cases rvalue with
  | use op =>
    cases op with
    | constant c => exact Or.inl ⟨rfl, rfl⟩
    | copy p =>
      by_cases hp : p.isLocal = true
      · exact Or.inr ⟨p.base, false, if_pos hp,
          by simp only [propagateRvalue, hp, if_true]; rfl⟩
      · exact Or.inl ⟨by simp only [propagateRvalue, hp]; rfl, if_neg hp⟩
    | move p =>
      by_cases hp : p.isLocal = true
      · exact Or.inr ⟨p.base, true, if_pos hp,
          by simp only [propagateRvalue, hp, if_true]; rfl⟩
      · exact Or.inl ⟨by simp only [propagateRvalue, hp]; rfl, if_neg hp⟩
  | _ => exact Or.inl ⟨rfl, rfl⟩

/-- How an assignment changes what locals were cast from. -/
structure OriginsAfter (dst : Local) (rvalue : Rvalue) (m m' : FMap Local Local) : Prop where
  /-- No other local gets an origin. -/
  old : ∀ {x y}, x ≠ dst → m'.get x = some y → m.get x = some y
  /-- Only a local that is moved away loses its origin. -/
  kept : ∀ {x y}, x ≠ dst → m.get x = some y → m'.get x = some y ∨ rvalueLocal rvalue = some x
  cast : ∀ {src}, rvalue.CastsFrom src → m'.get dst = some src
  /-- The destination has an origin if it is cast, or copied from a local that was. -/
  new : ∀ {y}, m'.get dst = some y →
    rvalue.CastsFrom y ∨ ∃ src, rvalueLocal rvalue = some src ∧ m.get src = some y

theorem propagateMap_kept {V : Type} {m : FMap Local V} {src dst x : Local} {isMove : Bool} {w : V}
    (h : m.get x = some w) (hx : x ≠ dst) (hsrc : x ≠ src) :
    (propagateMap src dst isMove m).get x = some w := by
  unfold propagateMap
  split
  · split
    · rw [FMap.get_erase_of_ne _ hsrc, FMap.get_insert_of_ne _ _ hx, h]
    · rw [FMap.get_insert_of_ne _ _ hx, h]
  · exact h

namespace OriginsAfter
variable {m : FMap Local Local}

theorem ofCast {src : Local} (h : rvalue.CastsFrom src) :
    OriginsAfter dst rvalue m ((m.erase dst).insert dst src) where
  old hx hget := by
    rwa [FMap.get_insert_of_ne _ _ hx, FMap.get_erase_of_ne _ hx] at hget
  kept hx hget := by
    rw [FMap.get_insert_of_ne _ _ hx, FMap.get_erase_of_ne _ hx]
    exact Or.inl hget
  cast hsrc := by rw [FMap.get_insert_self, h.unique hsrc]
  new hget := by
    rw [FMap.get_insert_self] at hget
    cases hget
    exact Or.inl h

theorem ofCopy {src : Local} (isMove : Bool) (h : rvalueLocal rvalue = some src) :
    OriginsAfter dst rvalue m (propagateMap src dst isMove (m.erase dst)) where
  old hx hget := by
    rcases propagateMap_source hget with ⟨rfl, -⟩ | hget
    · exact absurd rfl hx
    · rwa [FMap.get_erase_of_ne _ hx] at hget
  kept {x y} hx hget := by
    by_cases hsrc : x = src
    · exact Or.inr (hsrc ▸ h)
    · exact Or.inl (propagateMap_kept (by rw [FMap.get_erase_of_ne _ hx, hget]) hx hsrc)
  cast hsrc := absurd h (hsrc.rvalueLocal ▸ nofun)
  new {y} hget := by
    rcases propagateMap_source hget with ⟨-, hsrc⟩ | hdst
    · exact Or.inr ⟨src, h, (FMap.get_erase_eq_some_iff.mp hsrc).2⟩
    · rw [FMap.get_erase_self] at hdst
      cases hdst

theorem ofOther (h : ∀ src, ¬ rvalue.CastsFrom src) :
    OriginsAfter dst rvalue m (m.erase dst) where
  old hx hget := by rwa [FMap.get_erase_of_ne _ hx] at hget
  kept hx hget := Or.inl (by rw [FMap.get_erase_of_ne _ hx, hget])
  cast hsrc := absurd hsrc (h _)
  new hget := by
    rw [FMap.get_erase_self] at hget
    cases hget

end OriginsAfter

theorem castOrigin_applyStatement (tcx : TyCtxt) (body : Body) (s : BlockState) {stmt : Statement}
    (hstmt : stmt.kind = .assign (Place.ofLocal dst) rvalue) :
    OriginsAfter dst rvalue (s.facts .castOrigin)
      ((applyStatement tcx body stmt s).facts .castOrigin) := by
  have hstart : (startAssign body dst rvalue s).facts .castOrigin =
      (s.facts .castOrigin).erase dst := startAssign_facts body (by decide) (by decide)
  have hlen : (recordLenOf dst rvalue (propagateRvalue dst rvalue
      (startAssign body dst rvalue s))).facts .castOrigin =
      (propagateRvalue dst rvalue (startAssign body dst rvalue s)).facts .castOrigin :=
    recordLenOf_writes _ dst rvalue (.fact .castOrigin) (by decide)
  have hafter : (applyStatement tcx body stmt s).facts .castOrigin =
      (assignRvalue tcx body dst rvalue (recordLenOf dst rvalue (propagateRvalue dst rvalue
        (startAssign body dst rvalue s)))).facts .castOrigin := by
    rw [applyStatement_assign tcx body hstmt, assignLocal_eq]
    exact enforceTypeFacts_writes _ tcx dst _ (.fact .castOrigin) (by decide)
  rw [hafter]
  have hcarried := propagateRvalue_castOrigin dst rvalue (startAssign body dst rvalue s)
  by_cases hcast : ∃ src, rvalue.CastsFrom src
  · obtain ⟨src, hsrc⟩ := hcast
    rw [assignRvalue_castOrigin tcx hsrc, hlen]
    rcases hcarried with ⟨hsame, -⟩ | ⟨l, -, hl, -⟩
    · rw [hsame, hstart]
      exact .ofCast hsrc
    · exact absurd hl (hsrc.rvalueLocal ▸ nofun)
  · have hnot : ∀ src, ¬ rvalue.CastsFrom src := fun src hsrc => hcast ⟨src, hsrc⟩
    rw [assignRvalue_castOrigin_of_not tcx hnot, hlen]
    rcases hcarried with ⟨hsame, -⟩ | ⟨src, isMove, hsrc, hmap⟩
    · rw [hsame, hstart]
      exact .ofOther hnot
    · rw [hmap, hstart]
      exact .ofCopy isMove hsrc

/-- A copy has the type of what is copied. -/
def Rvalue.CopiesTyped (body : Body) (dst : Local) (rvalue : Rvalue) : Prop :=
  ∀ src, rvalueLocal rvalue = some src → body.localTy src = body.localTy dst

theorem Rvalue.Yields.eq_of_rvalueLocal {ty : Ty} (h : rvalue.Yields body σ ty v) {src : Local}
    (hsrc : rvalueLocal rvalue = some src) : v = σ src := by
  cases rvalue with
  | use op => exact Operand.Denotes.of_local h hsrc
  | _ => cases hsrc

/-- **When an assignment keeps the query right**: a cast keeps the number that is cast, and no
other local was cast from the destination, unless it holds the new number. -/
theorem eqSound_assign_iff (h : EqSound body s σ) (tcx : TyCtxt) {stmt : Statement}
    (hstmt : stmt.kind = .assign (Place.ofLocal dst) rvalue) (htyped : rvalue.CopiesTyped body dst)
    (hv : MayYield body σ dst rvalue v) :
    EqSound body (applyStatement tcx body stmt s) (σ.set dst v) ↔
      (∀ src, rvalue.CastsFrom src → src ≠ dst →
        σ.value body src = (body.localTy dst).toInt v) ∧
      ∀ x, x ≠ dst → (s.facts .castOrigin).get x = some dst →
        σ.value body x = (body.localTy dst).toInt v := by
  obtain ⟨hpairs, horigins⟩ := eqSound_iff.mp h
  have hself : (σ.set dst v).value body dst = (body.localTy dst).toInt v :=
    Store.value_set_self body σ dst v
  have hother : ∀ {x}, x ≠ dst → (σ.set dst v).value body x = σ.value body x :=
    fun hx => Store.value_set_of_ne body hx v
  have hcopy : ∀ {src}, rvalueLocal rvalue = some src →
      σ.value body src = (body.localTy dst).toInt v := by
    intro src hsrc
    rw [hv.2.eq_of_rvalueLocal hsrc, ← htyped src hsrc]
    rfl
  have hpairs' : ∀ a b, orderPair (a, b) ∈ (applyStatement tcx body stmt s).mustPairs .eqLocals →
      (σ.set dst v).value body a = (σ.set dst v).value body b := by
    intro a b hab
    rw [applyStatement_mustPairs tcx body hstmt, Finset.mem_filter] at hab
    have hne : a ≠ dst ∧ b ≠ dst := by
      rcases orderPair_cases a b with heq | heq <;> rw [heq] at hab
      · exact hab.2
      · exact hab.2.symm
    rw [hother hne.1, hother hne.2]
    exact hpairs a b hab.1
  -- the equal pairs never go wrong: every pair that names the destination is dropped, so only
  -- the recorded cast origins are left to argue about
  have hafter := castOrigin_applyStatement tcx body s hstmt
  rw [eqSound_iff, and_iff_right hpairs']
  constructor
  · intro hnew
    refine ⟨fun src hcast hne => ?_, fun x hx hxd => ?_⟩
    · rw [← hself, ← hother hne]
      exact (hnew dst src (hafter.cast hcast)).symm
    -- the source erases the entry of the destination only, so an origin that names it outlives it
    · rcases hafter.kept hx hxd with hkept | hmoved
      · rw [← hself, ← hother hx]
        exact hnew x dst hkept
      · exact hcopy hmoved
  · rintro ⟨hkeeps, hstale⟩ x y hxy
    by_cases hyx : y = x
    · rw [hyx]
    by_cases hx : x = dst
    · subst hx
      rw [hself, hother hyx]
      rcases hafter.new hxy with hcast | ⟨src, hsrc, hget⟩
      · exact (hkeeps y hcast hyx).symm
      · rw [← hcopy hsrc]
        exact horigins src y hget
    · have hget := hafter.old hx hxy
      rw [hother hx]
      by_cases hy : y = dst
      · subst hy
        rw [hself]
        exact hstale x hx hget
      · rw [hother hy]
        exact horigins x y hget

end Assign

/-! ## Branches -/

/-- From `s` to `t` nothing but `eq_locals` can have been added to what is recorded for pairs, and
it holds the pairs `E`. -/
structure Paired (s : BlockState) (E : Finset (Local × Local)) (t : BlockState) : Prop where
  pairs : t.mustPairs .eqLocals = E
  pairFacts : t.pairFacts = s.pairFacts

namespace Paired
variable {s t : BlockState} {E : Finset (Local × Local)}

theorem drain (h : Paired s E t) (k : Fact) (m : MustSet) (c : Local) :
    Paired s E (San.drain k m c t) := by
  unfold San.drain
  split
  · exact ⟨h.pairs, h.pairFacts⟩
  · exact h

theorem drainUpper (h : Paired s E t) (k : ConstFact) (f : U64 → U64) (c : Local) :
    Paired s E (San.drainUpper k f c t) := by
  unfold San.drainUpper
  split
  · exact ⟨h.pairs, h.pairFacts⟩
  · exact h

theorem drainLower (h : Paired s E t) (k : ConstFact) (f : U64 → U64) (c : Local) :
    Paired s E (San.drainLower k f c t) := by
  unfold San.drainLower
  split
  · exact ⟨h.pairs, h.pairFacts⟩
  · exact h

theorem drainPair (h : Paired s E t) (k : PairFact) {m : MustPairs} (hm : m ≠ .eqLocals)
    (norm : Local × Local → Local × Local) (c : Local) :
    Paired s E (San.drainPair k m norm c t) := by
  unfold San.drainPair
  split
  · refine ⟨Eq.trans (if_neg ?_) h.pairs, h.pairFacts⟩
    exact fun hmem => hm (List.mem_singleton.mp hmem).symm
  · exact h

/-- The last step of an edge adds the pair that the condition has compared. -/
theorem mem_drainEq (h : Paired s E t) (k : PairFact) (c : Local) (p : Local × Local) :
    p ∈ (San.drainPair k .eqLocals orderPair c t).mustPairs .eqLocals ↔
      p ∈ E ∨ ∃ q, (s.pairFacts k).get c = some q ∧ p = orderPair q := by
  unfold San.drainPair
  rw [h.pairFacts]
  split
  · rename_i q hq
    have hinsert : (t.onMustPairs [.eqLocals] (insert (orderPair q))).mustPairs .eqLocals =
        insert (orderPair q) E := by
      rw [← h.pairs]
      rfl
    rw [hinsert, Finset.mem_insert, hq]
    simp only [Option.some.injEq, exists_eq_left', or_comm]
  · rename_i hnone
    rw [h.pairs, hnone]
    simp only [reduceCtorEq, false_and, exists_false, or_false]

end Paired

/-- The comparison that is answered by an edge: `Eq` if the condition held, `Ne` if not. -/
def edgeEq (polarity : Bool) : PairFact := if polarity then .eqPairIfTrue else .nePairIfTrue

section Edges
variable {body : Body} {s : BlockState} {σ : Store}

theorem mem_eqLocals_refineTrueEdge (c : Local) (s : BlockState) (p : Local × Local) :
    p ∈ (refineTrueEdge c s).mustPairs .eqLocals ↔
      p ∈ s.mustPairs .eqLocals ∨ ∃ q, (s.pairFacts .eqPairIfTrue).get c = some q ∧ p = orderPair q := by
  have hstart : Paired s (s.mustPairs .eqLocals) s := ⟨rfl, rfl⟩
  have hsets := (((((((hstart.drain .ltFacts .bounded c).drain .leFacts .boundedOrEq c).drainPair
    .ltFor (m := .indexBoundedFor) nofun id c).drainPair .leFor (m := .indexBoundedOrEqFor) nofun
    id c).drain .spareIfTrue .hasSpare c).drain .fullIfTrue .isFull c).drain .nonzeroIfTrue
    .nonzero c).drain .finiteIfTrue .finite c
  have hbounds := (((hsets.drainUpper .constLt predSat c).drainUpper .constLe id c).drainLower
    .constGt succSat c).drainLower .constGe id c
  exact (hbounds.drainPair .nePairIfTrue (m := .keysAreNe) nofun orderPair c).mem_drainEq
    .eqPairIfTrue c p

theorem mem_eqLocals_refineFalseEdge (c : Local) (s : BlockState) (p : Local × Local) :
    p ∈ (refineFalseEdge c s).mustPairs .eqLocals ↔
      p ∈ s.mustPairs .eqLocals ∨ ∃ q, (s.pairFacts .nePairIfTrue).get c = some q ∧ p = orderPair q := by
  have hstart : Paired s (s.mustPairs .eqLocals) s := ⟨rfl, rfl⟩
  have hsets := (((((hstart.drain .geFacts .bounded c).drain .gtFacts .boundedOrEq c).drain
    .spareIfFalse .hasSpare c).drain .fullIfFalse .isFull c).drain .nonzeroIfFalse .nonzero c).drain
    .nanIfTrue .finite c
  have hbounds := (((hsets.drainLower .constLt id c).drainLower .constLe succSat c).drainUpper
    .constGt id c).drainUpper .constGe predSat c
  exact (hbounds.drainPair .eqPairIfTrue (m := .keysAreNe) nofun orderPair c).mem_drainEq
    .nePairIfTrue c p

/-- What is added keeps the query right exactly if it is a pair of equal numbers. -/
theorem eqSound_added_iff {t : BlockState} (h : EqSound body s σ) {added : Option (Local × Local)}
    (hpairs : ∀ p, p ∈ t.mustPairs .eqLocals ↔
      p ∈ s.mustPairs .eqLocals ∨ ∃ q, added = some q ∧ p = orderPair q)
    (hfacts : t.facts = s.facts) :
    EqSound body t σ ↔ ∀ a b, added = some (a, b) → σ.value body a = σ.value body b := by
  obtain ⟨hold, horigins⟩ := eqSound_iff.mp h
  rw [eqSound_iff, hfacts, and_iff_left horigins]
  constructor
  · intro hnew a b hab
    exact hnew a b ((hpairs _).mpr (Or.inr ⟨(a, b), hab, rfl⟩))
  · intro hadded a b hab
    rcases (hpairs _).mp hab with hmem | ⟨⟨x, y⟩, hxy, heq⟩
    · exact hold a b hmem
    · have hvalue := hadded x y hxy
      rcases orderPair_cases a b with ha | ha <;> rcases orderPair_cases x y with hx | hx <;>
        rw [ha, hx] at heq <;> cases heq
      · exact hvalue
      · exact hvalue.symm
      · exact hvalue.symm
      · exact hvalue

/-- **When a branch keeps the query right**: the compared locals still hold what the outcome of the
comparison says. -/
theorem eqSound_branch_iff (h : EqSound body s σ) {n : Nat} (e t : Fin n) (discr : Operand)
    (span : Span) (w : Nat) :
    EqSound body (refineSwitchintEdge ⟨.switchInt discr ⟨[(0, e)], t⟩, span⟩
        (SwitchTargets.select ⟨[(0, e)], t⟩ w) s) σ ↔
      (e ≠ t → ∀ c, operandLocal discr = some c → ∀ a b,
        (s.pairFacts (edgeEq (decide (w ≠ 0)))).get c = some (a, b) →
        σ.value body a = σ.value body b) := by
  unfold refineSwitchintEdge
  dsimp only
  cases operandLocal discr with
  | none => simp only [h, reduceCtorEq, false_implies, implies_true]
  | some c =>
    simp only [Option.some.injEq, forall_eq']
    rw [edgePolarity_select]
    by_cases het : e = t
    · rw [if_pos het]
      exact iff_of_true h fun hne => absurd het hne
    · rw [if_neg het]
      simp only [ne_eq, het, not_false_eq_true, forall_const]
      by_cases hw : w = 0
      · rw [decide_eq_false (not_not.mpr hw)]
        exact eqSound_added_iff h (mem_eqLocals_refineFalseEdge c s)
          (refineFalseEdge_drained c s).facts
      · rw [decide_eq_true hw]
        exact eqSound_added_iff h (mem_eqLocals_refineTrueEdge c s)
          (refineTrueEdge_drained c s).facts

end Edges

/-! ## Executions -/

/-- One step of an execution: an assignment and the value that it gives to its destination, or a
two-way switch and the value that it switches on. -/
inductive Action
  | assign (stmt : Statement) (dst : Local) (rvalue : Rvalue) (v : Nat)
  | branch {n : Nat} (discr : Operand) (e t : Fin n) (span : Span) (w : Nat)

namespace Action

/-- What the step does to the state of the analysis and to the store. -/
def apply (tcx : TyCtxt) (body : Body) : Action → BlockState × Store → BlockState × Store
  | .assign stmt dst _ v, (s, σ) => (applyStatement tcx body stmt s, σ.set dst v)
  | .branch discr e t span w, (s, σ) =>
      (refineSwitchintEdge ⟨.switchInt discr ⟨[(0, e)], t⟩, span⟩
        (SwitchTargets.select ⟨[(0, e)], t⟩ w) s, σ)

/-- The step may be taken with this store: the statement is the assignment, and it may yield the
value; the condition has the value that is switched on. -/
def Possible (body : Body) : Action → BlockState × Store → Prop
  | .assign stmt dst rvalue v, (_, σ) => stmt.kind = .assign (Place.ofLocal dst) rvalue ∧
      rvalue.CopiesTyped body dst ∧ MayYield body σ dst rvalue v
  | .branch discr _ _ _ w, (_, σ) => discr.Denotes σ w

/-- A cast keeps the number that is cast; what was cast from the destination holds the new number;
and what the condition of a branch has compared still holds what the outcome says. -/
def Faithful (body : Body) : Action → BlockState × Store → Prop
  | .assign _ dst rvalue v, (s, σ) =>
      (∀ src, rvalue.CastsFrom src → src ≠ dst →
        σ.value body src = (body.localTy dst).toInt v) ∧
      ∀ x, x ≠ dst → (s.facts .castOrigin).get x = some dst →
        σ.value body x = (body.localTy dst).toInt v
  | .branch discr e t _ w, (s, σ) =>
      e ≠ t → ∀ c, operandLocal discr = some c → ∀ a b,
        (s.pairFacts (edgeEq (decide (w ≠ 0)))).get c = some (a, b) →
        σ.value body a = σ.value body b

/-- **One step** keeps the query right exactly if it is faithful. -/
theorem eqSound_apply_iff (tcx : TyCtxt) {body : Body} {a : Action} {x : BlockState × Store}
    (h : EqSound body x.1 x.2) (ha : a.Possible body x) :
    EqSound body (a.apply tcx body x).1 (a.apply tcx body x).2 ↔ a.Faithful body x := by
  cases a with
  | assign stmt dst rvalue v => exact eqSound_assign_iff h tcx ha.1 ha.2.1 ha.2.2
  | branch discr e t span w => exact eqSound_branch_iff h e t discr span w

end Action

/-- Every step of a sequence satisfies `P` where it is taken. -/
def StepsMeet (tcx : TyCtxt) (body : Body) (P : Action → BlockState × Store → Prop) :
    List Action → BlockState × Store → Prop
  | [], _ => True
  | a :: rest, x => P a x ∧ StepsMeet tcx body P rest (a.apply tcx body x)

/-- Everything that is reached, from the start to the end, satisfies `Q`. -/
def AllReached (tcx : TyCtxt) (body : Body) (Q : BlockState × Store → Prop) :
    List Action → BlockState × Store → Prop
  | [], x => Q x
  | a :: rest, x => Q x ∧ AllReached tcx body Q rest (a.apply tcx body x)

/-- What a sequence of steps ends with. -/
def runActions (tcx : TyCtxt) (body : Body) (actions : List Action) (x : BlockState × Store) :
    BlockState × Store :=
  actions.foldl (fun x a => a.apply tcx body x) x

section Execution
variable {tcx : TyCtxt} {body : Body}

theorem AllReached.start {Q : BlockState × Store → Prop} {actions : List Action}
    {x : BlockState × Store} (h : AllReached tcx body Q actions x) : Q x := by
  cases actions with
  | nil => exact h
  | cons a rest => exact h.1

theorem AllReached.result {Q : BlockState × Store → Prop} {actions : List Action}
    {x : BlockState × Store} (h : AllReached tcx body Q actions x) :
    Q (runActions tcx body actions x) := by
  induction actions generalizing x with
  | nil => exact h
  | cons a rest ih => exact ih h.2

/-- **All along an execution** the query is right exactly if every step is faithful. -/
theorem allReached_eqSound_iff {actions : List Action} {x : BlockState × Store}
    (h : EqSound body x.1 x.2) (hpossible : StepsMeet tcx body (Action.Possible body) actions x) :
    AllReached tcx body (fun y => EqSound body y.1 y.2) actions x ↔
      StepsMeet tcx body (Action.Faithful body) actions x := by
  induction actions generalizing x with
  | nil => exact iff_of_true h trivial
  | cons a rest ih =>
    have hstep := a.eqSound_apply_iff tcx h hpossible.1
    constructor
    · rintro ⟨-, hrest⟩
      exact ⟨hstep.mp hrest.start, (ih hrest.start hpossible.2).mp hrest⟩
    · rintro ⟨hfaithful, hrest⟩
      have hnext := hstep.mpr hfaithful
      exact ⟨h, (ih hnext hpossible.2).mpr hrest⟩

/-- Strides that are found coherent are equal to the dimensions that they stand for. -/
theorem EqSound.strides {s : BlockState} {σ : Store} (h : EqSound body s σ)
    {flow : FlowResults body} {args : List Operand} {bb : body.BasicBlock}
    (hs : flow.stateBeforeTerminator tcx bb = some s)
    (hcoherent : gemmStrideCoherent tcx flow args bb = true) :
    ∃ k n rsa rsb rsc, argLocal args 1 = some k ∧ argLocal args 2 = some n ∧
      argLocal args 5 = some rsa ∧ argLocal args 8 = some rsb ∧ argLocal args 12 = some rsc ∧
      σ.value body k = σ.value body rsa ∧ σ.value body n = σ.value body rsb ∧
      σ.value body n = σ.value body rsc := by
  unfold gemmStrideCoherent at hcoherent
  split at hcoherent
  · rename_i k n rsa rsb rsc hk hn hrsa hrsb hrsc
    rw [hs, Option.any_some, Bool.and_eq_true, Bool.and_eq_true] at hcoherent
    exact ⟨k, n, rsa, rsb, rsc, hk, hn, hrsa, hrsb, hrsc, h _ _ hcoherent.1.1, h _ _ hcoherent.1.2,
      h _ _ hcoherent.2⟩
  · cases hcoherent

end Execution

/-- **When equality through casts is equality.**  Of an execution that starts where the query is
right: it is right in everything that is reached, exactly if each cast keeps the number that is
cast, what was cast from a local that is assigned holds the new number, and what the condition of a
branch has compared still holds what the outcome says.  The strides that are found coherent then
are the dimensions. -/
theorem cast_equality_sound_iff (tcx : TyCtxt) (body : Body) {s : BlockState} {σ : Store}
    (h : EqSound body s σ) {actions : List Action}
    (hpossible : StepsMeet tcx body (Action.Possible body) actions (s, σ)) :
    (AllReached tcx body (fun y => EqSound body y.1 y.2) actions (s, σ) ↔
      StepsMeet tcx body (Action.Faithful body) actions (s, σ)) ∧
    (StepsMeet tcx body (Action.Faithful body) actions (s, σ) →
      ∀ (flow : FlowResults body) args bb,
        flow.stateBeforeTerminator tcx bb = some (runActions tcx body actions (s, σ)).1 →
        gemmStrideCoherent tcx flow args bb = true →
        ∃ k n rsa rsb rsc, argLocal args 1 = some k ∧ argLocal args 2 = some n ∧
          argLocal args 5 = some rsa ∧ argLocal args 8 = some rsb ∧ argLocal args 12 = some rsc ∧
          (runActions tcx body actions (s, σ)).2.value body k =
            (runActions tcx body actions (s, σ)).2.value body rsa ∧
          (runActions tcx body actions (s, σ)).2.value body n =
            (runActions tcx body actions (s, σ)).2.value body rsb ∧
          (runActions tcx body actions (s, σ)).2.value body n =
            (runActions tcx body actions (s, σ)).2.value body rsc) := by
  have hiff := allReached_eqSound_iff h hpossible
  refine ⟨hiff, fun hfaithful flow args bb hs hcoherent => ?_⟩
  have hresult := (hiff.mpr hfaithful).result
  exact hresult.strides hs hcoherent

/-- The arguments of a product with the dimensions `_1` and `_2` and the strides `_3` and `_4`. -/
def gemmArgs : List Operand :=
  let other := .constant ⟨none, none⟩
  [other, .ofNat 1, .ofNat 2, other, other, .ofNat 3, other, other, .ofNat 4, other, other, other,
    .ofNat 4]

/-- `f(_1, _2)` casts both to `isize` strides, assigns `_1` anew and multiplies matrices with the
dimensions `_1` and `_2` and the strides `_3` and `_4`. -/
def strideCasts : Body :=
  .ofBlocks 1 2
    [.other, .uint .usize, .uint .usize, .int .isize, .int .isize, .bool, .uint .u8] 1
    (fun bb =>
      [.of [.set 3 (.cast .intToInt (.ofNat 1) (.int .isize)),
          .set 4 (.cast .intToInt (.ofNat 2) (.int .isize)),
          .set 1 (.use (.constant ⟨some 7, none⟩))] (.callTo 0 gemmArgs 0 (bb 1)),
        .of [] .return])
    (by decide)

def matrixPaths : TyCtxt := .ofPaths ["matrixmultiply::gemm::dgemm", "f"]

theorem eqSound_of_empty {body : Body} {s : BlockState} (σ : Store)
    (hpairs : s.mustPairs .eqLocals = ∅) (horigins : s.facts .castOrigin = ∅) :
    EqSound body s σ := by
  rw [eqSound_iff, hpairs, horigins]
  exact ⟨fun _ _ hmem => absurd hmem (Finset.notMem_empty _), fun _ _ hget => nomatch hget⟩

/-- `_5 = _1 == _2`, the branch that is taken when they are equal, and `_3 = _1 as isize`. -/
def comparedAndCast : List Action :=
  [.assign (.set 5 (.binaryOp .eq (.ofNat 1) (.ofNat 2))) (Local.ofNat 5)
      (.binaryOp .eq (.ofNat 1) (.ofNat 2)) 1,
    .branch (n := 2) (.ofNat 5) 0 1 .none 1,
    .assign (.set 3 (.cast .intToInt (.ofNat 1) (.int .isize))) (Local.ofNat 3)
      (.cast .intToInt (.ofNat 1) (.int .isize)) 9]

/-- Where `_1` and `_2` hold `9`, `_3` is rightly taken to be equal to `_2`. -/
theorem equal_through_cast :
    (runActions matrixPaths strideCasts comparedAndCast (.default, fun _ => 9)).1.localsAreEq
      (Local.ofNat 3) (Local.ofNat 2) = true ∧
    EqSound strideCasts
      (runActions matrixPaths strideCasts comparedAndCast (.default, fun _ => 9)).1
      (runActions matrixPaths strideCasts comparedAndCast (.default, fun _ => 9)).2 := by
  have hstart : EqSound strideCasts BlockState.default fun _ => 9 := eqSound_of_empty _ rfl rfl
  have hpossible : StepsMeet matrixPaths strideCasts (Action.Possible strideCasts) comparedAndCast
      (.default, fun _ => 9) := by
    refine ⟨⟨rfl, nofun, by decide, rfl, 9, 9, ?_, ?_, nofun, ?_⟩, ?_, ⟨rfl, nofun, by decide, rfl, ?_⟩,
      trivial⟩
    · intro p hp; cases hp; rfl
    · intro p hp; cases hp; rfl
    · intro r hr; cases hr; rfl
    · intro p hp; cases hp; rfl
    · intro l hl; cases hl; decide
  refine ⟨by decide +kernel, AllReached.result
    ((cast_equality_sound_iff matrixPaths strideCasts hstart hpossible).1.mpr ?_)⟩
  refine ⟨⟨nofun, fun x _ hx => nomatch hx⟩, fun _ c hc a b hab => ?_, ⟨?_, fun x _ hx => ?_⟩, trivial⟩
  · cases hc
    have hpair : ((applyStatement matrixPaths strideCasts
        (.set 5 (.binaryOp .eq (.ofNat 1) (.ofNat 2))) .default).pairFacts .eqPairIfTrue).get
        (Local.ofNat 5) = some (Local.ofNat 1, Local.ofNat 2) := by decide +kernel
    cases hpair.symm.trans hab
    decide
  · rintro src ⟨-, hsrc⟩ -
    cases hsrc
    decide
  · have hnone : (runActions matrixPaths strideCasts (comparedAndCast.take 2)
        (.default, fun _ => 9)).1.facts .castOrigin = ∅ := by decide +kernel
    have hget : ((runActions matrixPaths strideCasts (comparedAndCast.take 2)
        (.default, fun _ => 9)).1.facts .castOrigin).get x = some (Local.ofNat 3) := hx
    rw [hnone] at hget
    cases hget

/-- The statements of `strideCasts`, where both parameters hold `0`. -/
def castThenAssigned : List Action :=
  [.assign (.set 3 (.cast .intToInt (.ofNat 1) (.int .isize))) (Local.ofNat 3)
      (.cast .intToInt (.ofNat 1) (.int .isize)) 0,
    .assign (.set 4 (.cast .intToInt (.ofNat 2) (.int .isize))) (Local.ofNat 4)
      (.cast .intToInt (.ofNat 2) (.int .isize)) 0,
    .assign (.set 1 (.use (.constant ⟨some 7, none⟩))) (Local.ofNat 1)
      (.use (.constant ⟨some 7, none⟩)) 7]

/-- **Equality that is none.**  `_6 = _1 as u8` is taken to be equal to `_1`, but `256` is cut to
`0`.  And in `strideCasts` the dimension `_1` is assigned after it was cast to the stride `_3`: the
strides are found coherent where the dimension is `7` and the stride `0`. -/
theorem cut_and_stale_casts_equal :
    (∃ (σ : Store) (actions : List Action), EqSound strideCasts .default σ ∧
      StepsMeet matrixPaths strideCasts (Action.Possible strideCasts) actions (.default, σ) ∧
      (runActions matrixPaths strideCasts actions (.default, σ)).1.localsAreEq (Local.ofNat 1)
        (Local.ofNat 6) = true ∧
      (runActions matrixPaths strideCasts actions (.default, σ)).2.value strideCasts
          (Local.ofNat 1) ≠
        (runActions matrixPaths strideCasts actions (.default, σ)).2.value strideCasts
          (Local.ofNat 6)) ∧
    ∃ (s : BlockState) (σ : Store) (actions : List Action),
      (computeFlow matrixPaths strideCasts ∅).entryStates (0 : Fin 2) = some s ∧
      EqSound strideCasts s σ ∧
      StepsMeet matrixPaths strideCasts (Action.Possible strideCasts) actions (s, σ) ∧
      (computeFlow matrixPaths strideCasts ∅).stateBeforeTerminator matrixPaths (0 : Fin 2) =
        some (runActions matrixPaths strideCasts actions (s, σ)).1 ∧
      gemmStrideCoherent matrixPaths (computeFlow matrixPaths strideCasts ∅) gemmArgs
        (0 : Fin 2) = true ∧
      (runActions matrixPaths strideCasts actions (s, σ)).2.value strideCasts (Local.ofNat 1) ≠
        (runActions matrixPaths strideCasts actions (s, σ)).2.value strideCasts
          (Local.ofNat 3) := by
  constructor
  · refine ⟨fun _ => 256, [.assign (.set 6 (.cast .intToInt (.ofNat 1) (.uint .u8)))
      (Local.ofNat 6) (.cast .intToInt (.ofNat 1) (.uint .u8)) 0], eqSound_of_empty _ rfl rfl,
      ⟨⟨rfl, nofun, by decide, rfl, fun l hl => ?_⟩, trivial⟩, by decide +kernel, by decide⟩
    cases hl
    decide
  · have hdone : ((AssumeInit.flowOf matrixPaths strideCasts ∅).step^[2]
        (AssumeInit.flowOf matrixPaths strideCasts ∅).initial).work = [] := by decide +kernel
    obtain ⟨s, hs, hq⟩ := FlowProblem.exists_solution hdone (n := (0 : Fin 2))
      (q := fun s => decide (s.mustPairs .eqLocals = ∅ ∧ s.facts .castOrigin = ∅) &&
        ((runActions matrixPaths strideCasts castThenAssigned (s, fun _ => 0)).1.localsAreEq
            (Local.ofNat 1) (Local.ofNat 3) &&
          (runActions matrixPaths strideCasts castThenAssigned (s, fun _ => 0)).1.localsAreEq
            (Local.ofNat 2) (Local.ofNat 4)))
      (by decide +kernel)
    obtain ⟨hempty, hequal⟩ := Bool.and_eq_true _ _ ▸ hq
    obtain ⟨hpairs, horigins⟩ := of_decide_eq_true hempty
    obtain ⟨hrow, hcolumn⟩ := Bool.and_eq_true _ _ ▸ hequal
    have hbefore : (computeFlow matrixPaths strideCasts ∅).stateBeforeTerminator matrixPaths
        (0 : Fin 2) = some (runActions matrixPaths strideCasts castThenAssigned
          (s, fun _ => 0)).1 := congrArg _ hs
    have hstore : (runActions matrixPaths strideCasts castThenAssigned (s, fun _ => 0)).2 =
        ((Store.set (fun _ => 0) (Local.ofNat 3) 0).set (Local.ofNat 4) 0).set (Local.ofNat 1) 7 :=
      rfl
    refine ⟨s, fun _ => 0, castThenAssigned, hs, eqSound_of_empty _ hpairs horigins, ?_, hbefore, ?_,
      by rw [hstore]; decide⟩
    · refine ⟨⟨rfl, nofun, by decide, rfl, fun l hl => ?_⟩,
        ⟨rfl, nofun, by decide, rfl, fun l hl => ?_⟩, ⟨rfl, nofun, by decide, fun p hp => ?_⟩,
        trivial⟩
      · cases hl; decide
      · cases hl; decide
      · cases hp; rfl
    · unfold gemmStrideCoherent
      rw [hbefore]
      exact Bool.and_eq_true_iff.mpr ⟨Bool.and_eq_true_iff.mpr ⟨hrow, hcolumn⟩, hcolumn⟩

end San
