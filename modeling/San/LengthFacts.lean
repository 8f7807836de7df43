import San.Runs
import San.Footprint

/-! # Lengths and capacities of a collection

A `len()` or `capacity()` result is bound to its collection (`len_of`, `cap_of`), a
comparison of such results is bound to what it would prove (`spare_if_*`, `full_if_*`,
`lt_for`, `le_for`), and a branch on the comparison adds the proof (`has_spare`, `is_full`,
`index_bounded_for`).  A call that receives the collection by `&mut` may change its length;
it takes back the proofs `has_spare` and `is_full`, and nothing else.
-/
namespace San

/-! ## What is derived from a length -/

/-- The facts whose values are collections. -/
def Fact.lengths : List Fact :=
  [.lenOf, .capOf, .spareIfTrue, .spareIfFalse, .fullIfTrue, .fullIfFalse]

/-- The fields that speak of the length or the capacity of a collection. -/
def Field.lengths : List Field :=
  Fact.lengths.map Field.fact ++ [Field.pairFact .ltFor, Field.pairFact .leFor,
    Field.mustSet .hasSpare, Field.mustSet .isFull, Field.mustPairs .indexBoundedFor,
    Field.mustPairs .indexBoundedOrEqFor]

/-- No local holds a length or a capacity of `c`, or a comparison with one. -/
structure Unmeasured (c : Local) (s : BlockState) : Prop where
  facts : ∀ k ∈ Fact.lengths, (s.facts k).All fun _ v => v ≠ c
  pairs : ∀ k ∈ [PairFact.ltFor, .leFor], (s.pairFacts k).All fun _ p => p.2 ≠ c

/-- No index is proven to be within `c`. -/
def Unindexed (c : Local) (s : BlockState) : Prop :=
  ∀ m ∈ [MustPairs.indexBoundedFor, .indexBoundedOrEqFor], ∀ i, (i, c) ∉ s.mustPairs m

/-- `c` is neither proven to have spare capacity nor proven to be full. -/
def Unsized (c : Local) (s : BlockState) : Prop :=
  ∀ m ∈ [MustSet.hasSpare, .isFull], c ∉ s.mustSets m

/-- Nothing is known of the length of `c`, and nothing is pending. -/
structure Forgotten (c : Local) (s : BlockState) : Prop where
  unmeasured : Unmeasured c s
  unindexed : Unindexed c s
  unsized : Unsized c s

section Frame
variable {c : Local} {s t : BlockState} {F : List Field}

theorem Unmeasured.frame (h : Unmeasured c s) (hw : Writes F s t)
    (hF : ∀ f ∈ Fact.lengths.map Field.fact ++ [Field.pairFact .ltFor, Field.pairFact .leFor],
      f ∉ F) : Unmeasured c t where
  facts k hk := by
    rw [show t.facts k = s.facts k from
      hw (.fact k) (hF _ (List.mem_append_left _ (List.mem_map_of_mem hk)))]
    exact h.facts k hk
  pairs k hk := by
    rw [show t.pairFacts k = s.pairFacts k from
      hw (.pairFact k) (hF _ (List.mem_append_right _ (List.mem_map_of_mem hk)))]
    exact h.pairs k hk

theorem Unindexed.frame (h : Unindexed c s) (hw : Writes F s t)
    (hF : ∀ f ∈ [Field.mustPairs .indexBoundedFor, Field.mustPairs .indexBoundedOrEqFor], f ∉ F) :
    Unindexed c t := fun m hm i => by
  rw [show t.mustPairs m = s.mustPairs m from hw (.mustPairs m) (hF _ (List.mem_map_of_mem hm))]
  exact h m hm i

theorem Unsized.frame (h : Unsized c s) (hw : Writes F s t)
    (hF : ∀ f ∈ [Field.mustSet .hasSpare, Field.mustSet .isFull], f ∉ F) : Unsized c t :=
  fun m hm => by
    rw [show t.mustSets m = s.mustSets m from hw (.mustSet m) (hF _ (List.mem_map_of_mem hm))]
    exact h m hm

theorem Unsized.killCapacityArg (h : Unsized c s) (body : Body) (arg : Operand) :
    Unsized c (killCapacityArg body s arg) := by
  unfold San.killCapacityArg
  split
  · exact h
  · split
    · intro m hm hmem
      have hmem : c ∈ (if m ∈ [MustSet.hasSpare, .isFull] then (s.mustSets m).erase _
        else s.mustSets m) := hmem
      rw [if_pos hm] at hmem
      exact h m hm (Finset.mem_of_mem_erase hmem)
    · exact h

theorem Unsized.killCapacityArgs (h : Unsized c s) (body : Body) (args : List Operand) :
    Unsized c (args.foldl (San.killCapacityArg body) s) := by
  induction args generalizing s with
  | nil => exact h
  | cons arg args ih => exact ih (h.killCapacityArg body arg)

end Frame

namespace Forgotten
variable {c : Local} {s t : BlockState}

/-- What writes elsewhere forgets nothing and proves nothing. -/
theorem frame {F : List Field} (h : Forgotten c s) (hw : Writes F s t)
    (hF : ∀ f ∈ Field.lengths, f ∉ F) : Forgotten c t where
  unmeasured := h.unmeasured.frame hw fun f hf =>
    hF f ((by decide : _ ⊆ Field.lengths) hf)
  unindexed := h.unindexed.frame hw fun f hf => hF f ((by decide : _ ⊆ Field.lengths) hf)
  unsized := h.unsized.frame hw fun f hf => hF f ((by decide : _ ⊆ Field.lengths) hf)

theorem clearRedefined (h : Forgotten c s) (l : Local) : Forgotten c (s.clearRedefined l) where
  unmeasured := {
    facts := fun k hk => by
      rw [BlockState.clearRedefined_facts]
      split
      · exact (h.unmeasured.facts k hk).erase l
      · exact h.unmeasured.facts k hk
    pairs := fun k hk => by
      rw [BlockState.clearRedefined_pairFacts]
      exact (h.unmeasured.pairs k hk).erase l }
  unindexed m hm i hmem := by
    rw [BlockState.clearRedefined_mustPairs] at hmem
    exact h.unindexed m hm i (Finset.mem_of_mem_filter _ hmem)
  unsized m hm hmem := by
    rw [BlockState.clearRedefined_mustSets] at hmem
    split at hmem
    · exact h.unsized m hm (Finset.mem_of_mem_erase hmem)
    · exact h.unsized m hm hmem

/-- A fact of another collection. -/
theorem insertFact (h : Forgotten c s) (k : Fact) (l : Local) {v : Local} (hv : v ≠ c) :
    Forgotten c (s.insertFact k l v) where
  unmeasured := {
    facts := fun k' hk' => by
      show (if k' ∈ [k] then _ else _ : FMap Local Local).All _
      split
      · exact (h.unmeasured.facts k' hk').insert hv
      · exact h.unmeasured.facts k' hk'
    pairs := h.unmeasured.pairs }
  unindexed := h.unindexed
  unsized := h.unsized

/-- A pair of an index with another collection, or none. -/
theorem putPair (h : Forgotten c s) (k : PairFact) (l : Local) {o : Option (Local × Local)}
    (ho : ∀ p, o = some p → p.2 ≠ c) : Forgotten c (s.onPairFacts [k] (·.put l o)) where
  unmeasured := {
    facts := h.unmeasured.facts
    pairs := fun k' hk' => by
      show (if k' ∈ [k] then _ else _ : FMap Local (Local × Local)).All _
      split
      · exact (h.unmeasured.pairs k' hk').put ho
      · exact h.unmeasured.pairs k' hk' }
  unindexed := h.unindexed
  unsized := h.unsized

/-! ### Comparisons -/

theorem lenOf_ne (h : Forgotten c s) {l v : Local} (hv : (s.facts .lenOf).get l = some v) : v ≠ c :=
  h.unmeasured.facts .lenOf (by decide) l v hv

theorem boundedFor (h : Forgotten c s) (op1 op2 : Operand) {p : Local × Local}
    (hp : boundedFor s op1 op2 = some p) : p.2 ≠ c := by
  obtain ⟨lhs, -, hp⟩ := Option.bind_eq_some_iff.mp hp
  obtain ⟨coll, hcoll, rfl⟩ := Option.map_eq_some_iff.mp hp
  obtain ⟨l, -, hlen⟩ := Option.bind_eq_some_iff.mp hcoll
  rcases Option.or_eq_some_iff.mp hlen with hlen | ⟨-, hlen⟩
  · exact h.lenOf_ne hlen
  · obtain ⟨base, -, hlen⟩ := Option.bind_eq_some_iff.mp hlen
    exact h.lenOf_ne hlen

theorem recordSpare (h : Forgotten c s) (k : Fact) (dst : Local) (op1 op2 : Operand)
    (capFirst : Bool) : Forgotten c (recordSpare k dst op1 op2 capFirst s) := by
  unfold San.recordSpare
  split
  · dsimp only
    split
    · next cl cc hlen _ =>
        split
        · exact h.insertFact k dst (h.lenOf_ne hlen)
        · exact h
    · exact h
  · exact h

theorem sameCollection_ne (h : Forgotten c s) {a b v : Local}
    (hv : sameCollection s a b = some v) : v ≠ c := by
  obtain ⟨cl, hlen, hv⟩ := Option.bind_eq_some_iff.mp hv
  obtain ⟨cc, -, hv⟩ := Option.bind_eq_some_iff.mp hv
  split at hv
  · cases hv
    exact h.lenOf_ne hlen
  · cases hv

theorem recordFull (h : Forgotten c s) (k : Fact) (dst : Local) (op1 op2 : Operand) :
    Forgotten c (recordFull k dst op1 op2 s) := by
  unfold San.recordFull
  split
  · split
    · next coll hcoll =>
        rcases Option.or_eq_some_iff.mp hcoll with hcoll | ⟨-, hcoll⟩
        · exact h.insertFact k dst (h.sameCollection_ne hcoll)
        · exact h.insertFact k dst (h.sameCollection_ne hcoll)
    · exact h
  · exact h

theorem setComparison (h : Forgotten c s) {k : Fact} (hk : k ∈ Fact.comparisons) (dst : Local)
    (lhs : Option Local) : Forgotten c (setComparison s k dst lhs) :=
  h.frame (setComparison_writes s hk dst lhs) (by decide)

theorem recordConst (h : Forgotten c s) (k : ConstFact) (dst : Local) (l : Option Local)
    (v : Option U64) : Forgotten c (recordConst k dst l v s) :=
  h.frame (recordConst_writes s k dst l v) (by cases k <;> decide)

theorem recordNonzero (h : Forgotten c s) (dst : Local) (l : Option Local) (v : Option U64)
    (p : U64 → Bool) : Forgotten c (recordNonzero dst l v p s) :=
  h.frame (recordNonzero_writes s dst l v p) (by decide)

theorem compareEq (h : Forgotten c s) (full : Fact) {onZero : Fact} {pair : PairFact}
    (hzero : onZero ∉ Fact.lengths) (hpair : pair ∉ [PairFact.ltFor, .leFor]) (dst : Local)
    (op1 op2 : Operand) : Forgotten c (compareEq full onZero pair dst op1 op2 s) := by
  have hfull := (h.frame (s.onFacts_writes Fact.comparisons (·.erase dst)) (by decide)).recordFull
    full dst op1 op2
  have hpairs : ∀ {t : BlockState}, Forgotten c t → Forgotten c (recordPair pair dst op1 op2 t) :=
    fun ht => ht.frame (recordPair_writes _ pair dst op1 op2) (by
      cases pair <;> first | decide | exact absurd (by decide) hpair)
  refine hpairs ?_
  split
  · refine hfull.frame (BlockState.insertFact_writes _ onZero dst _) ?_
    cases onZero <;> first | decide | exact absurd (by decide) hzero
  · exact hfull

/-- **A comparison proves nothing of a collection whose length nobody holds.** -/
theorem recordComparison (h : Forgotten c s) (body : Body) {op : BinOp}
    (hop : op.isComparison = true) (op1 op2 : Operand) (dst : Local) :
    Forgotten c (recordBinaryOp body op op1 op2 dst s) := by
  have hpair : ∀ k, Forgotten c (s.onPairFacts [k] (·.put dst (San.boundedFor s op1 op2))) :=
    fun k => h.putPair k dst fun p hp => h.boundedFor op1 op2 hp
  cases op with
  | lt =>
      exact (((((hpair _).setComparison (by decide) _ _).recordSpare _ _ _ _ _).recordConst
        _ _ _ _).recordConst _ _ _ _).recordNonzero _ _ _ _
  | ge =>
      exact ((((h.setComparison (by decide) _ _).recordSpare _ _ _ _ _).recordConst
        _ _ _ _).recordNonzero _ _ _ _).recordConst _ _ _ _
  | le =>
      exact (((((hpair _).setComparison (by decide) _ _).recordSpare _ _ _ _ _).recordConst
        _ _ _ _).recordConst _ _ _ _).recordNonzero _ _ _ _
  | gt =>
      exact ((((h.setComparison (by decide) _ _).recordSpare _ _ _ _ _).recordConst
        _ _ _ _).recordNonzero _ _ _ _).recordConst _ _ _ _
  | eq => exact h.compareEq _ (by decide) (by decide) _ _ _
  | ne => exact h.compareEq _ (by decide) (by decide) _ _ _
  | _ => cases hop

end Forgotten

/-! ## Events that bring a length back -/

section Events
variable (tcx : TyCtxt) (body : Body) (c : Local)

/-- The event reads the length of `c`, by `len()`, `capacity()` or the metadata of a pointer
to it. -/
def Event.Measures (s : BlockState) : Event body → Prop
  | .statement stmt => ∃ dst op l, stmt.kind = .assign dst (.unaryOp .ptrMetadata op) ∧
      operandLocal op = some l ∧ (l = c ∨ s.derefBase l = c)
  | .terminator _ term _ => ∃ func args dest target unwind did recv,
      term.kind = .call func args dest target unwind ∧ resolveCallee tcx body func s = some did ∧
      (endsWith (tcx.defPathStr did) "::len" || endsWith (tcx.defPathStr did) "::capacity") = true ∧
      firstArgLocal args = some recv ∧ (recv = c ∨ s.derefBase recv = c)

/-- The event replaces `c` by another collection that is proven to have spare capacity or to
be full. -/
def Event.Adopts (s : BlockState) : Event body → Prop
  | .statement stmt => ∃ dst src, (stmt.kind = .assign dst (.use (.move src)) ∨
      stmt.kind = .assign dst (.use (.copy src))) ∧ dst.isLocal = true ∧ dst.base = c ∧
      src.isLocal = true ∧ (src.base ∈ s.mustSets .hasSpare ∨ src.base ∈ s.mustSets .isFull)
  | .terminator _ _ _ => False

end Events

namespace Forgotten
variable {c : Local} {s : BlockState}

/-! ### Statements -/

theorem propagateUse (h : Forgotten c s) {src dst : Local} (isMove : Bool)
    (hdst : dst = c → src ∉ s.mustSets .hasSpare ∧ src ∉ s.mustSets .isFull) :
    Forgotten c (propagateUse src dst isMove s) := by
  have hsets : Forgotten c (s.onMustSets MustSet.derived (propagateSet src dst isMove)) := {
    unmeasured := ⟨h.unmeasured.facts, h.unmeasured.pairs⟩
    unindexed := h.unindexed
    unsized := fun m hm hmem => by
      have hsrc : dst = c → src ∉ s.mustSets m := fun he => by
        simp only [List.mem_cons, List.not_mem_nil, or_false] at hm
        rcases hm with rfl | rfl
        · exact (hdst he).1
        · exact (hdst he).2
      have hold : c ∈ s.mustSets m := by
        have hmem : c ∈ (if m ∈ MustSet.derived then propagateSet src dst isMove (s.mustSets m)
          else s.mustSets m) := hmem
        split at hmem
        · unfold propagateSet at hmem
          split at hmem
          · next hin =>
              have hne : c ≠ dst := fun he => hsrc he.symm hin
              split at hmem
              · exact Finset.mem_of_mem_insert_of_ne (Finset.mem_of_mem_erase hmem) hne
              · exact Finset.mem_of_mem_insert_of_ne hmem hne
          · exact hmem
        · exact hmem
      exact h.unsized m hm hold }
  exact ((hsets.frame (BlockState.onMaySets_writes _ _ _) (by decide)).frame
    (BlockState.onFacts_writes _ [.castOrigin] _) (by decide)).frame
    (propagateMaps_writes _ src dst isMove) (by decide)

theorem assignRvalue (h : Forgotten c s) (tcx : TyCtxt) (body : Body) (dst : Local)
    (rvalue : Rvalue) : Forgotten c (assignRvalue tcx body dst rvalue s) := by
  cases hcompare : rvalue.isComparison with
  | false => exact h.frame (assignRvalue_plain s tcx body dst hcompare) (by decide)
  | true =>
      cases rvalue with
      | binaryOp op op1 op2 =>
          have hcleared := (((h.frame (s.setObjects_writes dst (offsetObjects op op1 op2 s))
            (by decide)).frame (BlockState.dropProto_writes _ dst) (by decide)).frame
            (BlockState.clearInit_writes _ dst) (by decide)).frame
            (BlockState.onMustSets_writes _ MustSet.scalar (·.erase dst)) (by decide)
          exact hcleared.recordComparison body hcompare op1 op2 dst
      | _ => cases hcompare

/-- What the assigned local is bound to when the arms are reached. -/
theorem assignLocal (h : Forgotten c s) (tcx : TyCtxt) (body : Body) {dst : Local}
    {rvalue : Rvalue}
    (hlength : ∀ op l, rvalue = .unaryOp .ptrMetadata op → operandLocal op = some l →
      l ≠ c ∧ s.derefBase l ≠ c)
    (hspare : ∀ src, rvalue = .use (.move src) ∨ rvalue = .use (.copy src) → dst = c →
      src.isLocal = true → src.base ∉ s.mustSets .hasSpare ∧ src.base ∉ s.mustSets .isFull) :
    Forgotten c (assignLocal tcx body dst rvalue s) := by
  have hredefine : Forgotten c (redefine body dst rvalue s) :=
    ((h.frame (lookup_writes s body dst rvalue) (by decide)).clearRedefined dst).frame
      (clearAssigned_writes _ dst) (by decide)
  have hbase := hredefine.frame (recordRefBase_writes _ dst rvalue) (by decide)
  -- the proofs of the source are still those of the state before the assignment
  have hsub : ∀ m src, m ∈ [MustSet.hasSpare, .isFull] → src ∉ s.mustSets m →
      src ∉ (recordRefBase dst rvalue (redefine body dst rvalue s)).mustSets m :=
    fun m src hm hsrc hmem => by
      have hderived : m ∈ MustSet.derived :=
        (by decide : ∀ m ∈ [MustSet.hasSpare, .isFull], m ∈ MustSet.derived) m hm
      rw [show BlockState.mustSets _ m = _ from recordRefBase_writes _ dst rvalue (.mustSet m) (by simp),
        redefine_mustSets, if_pos hderived] at hmem
      exact hsrc (Finset.mem_of_mem_erase hmem)
  have hcarried : Forgotten c
      (propagateRvalue dst rvalue (recordRefBase dst rvalue (redefine body dst rvalue s))) := by
    have hcarry : ∀ src isMove, rvalue = .use (.move src) ∨ rvalue = .use (.copy src) →
        src.isLocal = true → Forgotten c (San.propagateUse src.base dst isMove
          (recordRefBase dst rvalue (redefine body dst rvalue s))) := fun src isMove hrv hlocal =>
      hbase.propagateUse isMove fun he =>
        ⟨hsub _ _ (by decide) (hspare src hrv he hlocal).1,
          hsub _ _ (by decide) (hspare src hrv he hlocal).2⟩
    unfold propagateRvalue
    split
    · next src =>
        split
        · next hlocal => exact hcarry src true (.inl rfl) hlocal
        · exact hbase
    · next src =>
        split
        · next hlocal => exact hcarry src false (.inr rfl) hlocal
        · exact hbase
    · exact hbase
  refine (assignRvalue ?_ tcx body dst rvalue).frame (enforceTypeFacts_writes _ tcx dst _) (by decide)
  unfold recordLenOf
  split
  · next op =>
      split
      · next l hl =>
          refine hcarried.insertFact .lenOf dst ?_
          show (((redefine body dst _ s).facts .refBase).get l).getD l ≠ c
          rw [redefine_facts, if_pos (by decide), FMap.get_erase]
          obtain ⟨hne, hderef⟩ := hlength op l rfl hl
          split
          · exact hne
          · exact hderef
      · exact hcarried
  · exact hcarried

theorem applyStatement (h : Forgotten c s) (tcx : TyCtxt) (body : Body) (stmt : Statement)
    (hmeasure : ¬ (Event.statement stmt : Event body).Measures tcx body c s)
    (hadopt : ¬ (Event.statement stmt : Event body).Adopts body c s) :
    Forgotten c (applyStatement tcx body stmt s) := by
  unfold San.applyStatement
  cases hkind : stmt.kind with
  | other => exact h
  | assign dst rvalue =>
      dsimp only
      have howner := h.frame (s.invalidateOwners_writes {dst.base}) (by decide)
      split
      · next hlocal =>
          have hsame := s.invalidateOwners_writes {dst.base}
          have hderef : ∀ l, (s.invalidateOwners {dst.base}).derefBase l = s.derefBase l := fun l => by
            unfold BlockState.derefBase
            rw [show BlockState.facts _ .refBase = _ from hsame (.fact .refBase) (by decide)]
          refine howner.assignLocal tcx body (fun op l hop hl => ?_) (fun src hsrc he hsrcLocal => ?_)
          · subst hop
            exact ⟨fun he => hmeasure ⟨dst, op, l, hkind, hl, .inl he⟩,
              fun he => hmeasure ⟨dst, op, l, hkind, hl, .inr ((hderef l).symm.trans he)⟩⟩
          · have hkinds : stmt.kind = .assign dst (.use (.move src)) ∨
                stmt.kind = .assign dst (.use (.copy src)) := by
              rcases hsrc with rfl | rfl
              · exact .inl hkind
              · exact .inr hkind
            rw [show BlockState.mustSets _ .hasSpare = _ from hsame (.mustSet .hasSpare) (by decide),
              show BlockState.mustSets _ .isFull = _ from hsame (.mustSet .isFull) (by decide)]
            exact ⟨fun hmem => hadopt ⟨dst, src, hkinds, hlocal, he, hsrcLocal, .inl hmem⟩,
              fun hmem => hadopt ⟨dst, src, hkinds, hlocal, he, hsrcLocal, .inr hmem⟩⟩
      · exact howner.frame (assignProjected_writes _ tcx body dst rvalue) (by decide)

/-! ### Edges -/

theorem insertMust (h : Forgotten c s) {m : MustSet} {l : Local}
    (hl : m ∈ [MustSet.hasSpare, .isFull] → l ≠ c) : Forgotten c (s.insertMust m l) where
  unmeasured := ⟨h.unmeasured.facts, h.unmeasured.pairs⟩
  unindexed := h.unindexed
  unsized m' hm' hmem := by
    have hmem : c ∈ (if m' ∈ [m] then insert l (s.mustSets m') else s.mustSets m') := hmem
    split at hmem
    · next heq =>
        rw [List.mem_singleton.mp heq] at hm' hmem
        exact h.unsized m hm' (Finset.mem_of_mem_insert_of_ne hmem (hl hm').symm)
    · exact h.unsized m' hm' hmem

theorem insertPair (h : Forgotten c s) {m : MustPairs} {p : Local × Local}
    (hp : m ∈ [MustPairs.indexBoundedFor, .indexBoundedOrEqFor] → p.2 ≠ c) :
    Forgotten c (s.onMustPairs [m] (insert p)) where
  unmeasured := ⟨h.unmeasured.facts, h.unmeasured.pairs⟩
  unindexed m' hm' i hmem := by
    have hmem : (i, c) ∈ (if m' ∈ [m] then insert p (s.mustPairs m') else s.mustPairs m') := hmem
    split at hmem
    · next heq =>
        rw [List.mem_singleton.mp heq] at hm' hmem
        refine h.unindexed m hm' i (Finset.mem_of_mem_insert_of_ne hmem ?_)
        rintro rfl
        exact hp hm' rfl
    · exact h.unindexed m' hm' i hmem
  unsized := h.unsized

theorem drain (h : Forgotten c s) (k : Fact) (m : MustSet) (cond : Local)
    (hk : m ∈ [MustSet.hasSpare, .isFull] → k ∈ Fact.lengths) : Forgotten c (drain k m cond s) := by
  unfold San.drain
  split
  · next l hl => exact h.insertMust fun hm => h.unmeasured.facts k (hk hm) cond l hl
  · exact h

theorem drainPair (h : Forgotten c s) (k : PairFact) (m : MustPairs)
    (norm : Local × Local → Local × Local) (cond : Local)
    (hk : m ∈ [MustPairs.indexBoundedFor, .indexBoundedOrEqFor] →
      norm = id ∧ k ∈ [PairFact.ltFor, .leFor]) : Forgotten c (drainPair k m norm cond s) := by
  unfold San.drainPair
  split
  · next p hp =>
      refine h.insertPair fun hm => ?_
      obtain ⟨rfl, hpair⟩ := hk hm
      exact h.unmeasured.pairs k hpair cond p hp
  · exact h

theorem drainUpper (h : Forgotten c s) (k : ConstFact) (f : U64 → U64) (cond : Local) :
    Forgotten c (drainUpper k f cond s) := by
  unfold San.drainUpper
  split
  · exact h.frame (s.boundAbove_writes _ _) (by decide)
  · exact h

theorem drainLower (h : Forgotten c s) (k : ConstFact) (f : U64 → U64) (cond : Local) :
    Forgotten c (drainLower k f cond s) := by
  unfold San.drainLower
  split
  · exact h.frame (s.boundBelow_writes _ _) (by decide)
  · exact h

/-- **A branch proves nothing of a collection for which nothing is pending.** -/
theorem refineSwitchintEdge (h : Forgotten c s) {n : Nat} (term : Terminator n) (succ : Fin n) :
    Forgotten c (refineSwitchintEdge term succ s) := by
  unfold San.refineSwitchintEdge
  split
  · split
    · exact (((((((((((((h.drain _ _ _ (by decide)).drain _ _ _ (by decide)).drainPair _ _ _ _
        fun _ => ⟨rfl, by decide⟩).drainPair _ _ _ _ fun _ => ⟨rfl, by decide⟩).drain _ _ _
        (by decide)).drain _ _ _ (by decide)).drain _ _ _ (by decide)).drain _ _ _
        (by decide)).drainUpper _ _ _).drainUpper _ _ _).drainLower _ _ _).drainLower _ _
        _).drainPair _ _ _ _ (absurd · (by decide))).drainPair _ _ _ _ (absurd · (by decide))
    · exact (((((((((((h.drain _ _ _ (by decide)).drain _ _ _ (by decide)).drain _ _ _
        (by decide)).drain _ _ _ (by decide)).drain _ _ _ (by decide)).drain _ _ _
        (by decide)).drainLower _ _ _).drainLower _ _ _).drainUpper _ _ _).drainUpper _ _
        _).drainPair _ _ _ _ (absurd · (by decide))).drainPair _ _ _ _ (absurd · (by decide))
    · exact h
  · exact h

/-! ### Terminators -/

/-- Entering a call takes proofs back and gives none. -/
theorem enterCall (h : Forgotten c s) (tcx : TyCtxt) (body : Body) (summaries : SummaryMap)
    (callee : Option DefId) (args : List Operand) (dest : Local) :
    Forgotten c (enterCall tcx body summaries callee args dest s) := by
  obtain ⟨t, ht, henter⟩ := enterCall_eq s tcx body summaries callee args dest
  rw [henter]
  have hentered := h.frame ht (by decide)
  have hkill := killCapacityArgs_writes t body args
  exact ⟨hentered.unmeasured.frame hkill (by decide), hentered.unindexed.frame hkill (by decide),
    hentered.unsized.killCapacityArgs body args⟩

theorem recordCallFacts (h : Forgotten c s) (path : String) (args : List Operand) (dest : Local)
    (hlength : (endsWith path "::len" || endsWith path "::capacity") = true →
      ∀ recv, firstArgLocal args = some recv → s.derefBase recv ≠ c) :
    Forgotten c (recordCallFacts path args dest s) := by
  have hlen : Forgotten c (recordLength path args dest s) := by
    unfold recordLength
    split
    · next hpath =>
        unfold recordReceiver
        split
        · next recv hrecv => exact h.insertFact _ dest (hlength hpath recv hrecv)
        · exact h
    · exact h
  have hfd := ((hlen.frame (recordFiniteness_writes _ path args dest) (by decide)).frame
    (recordDeref_writes _ path args dest) (by decide)).frame
    (recordFd_writes _ path args dest) (by decide)
  refine Forgotten.frame ?_ (recordPartialEq_writes _ path args dest) (by decide)
  split
  · exact hfd.frame (markSpawned_writes _) (by decide)
  · exact hfd

/-- **A call learns a length only by asking for it.** -/
theorem applyCall {tcx : TyCtxt} {body : Body} {summaries : SummaryMap} {func : Operand}
    {args : List Operand} {destination : Place}
    (h : Forgotten c (San.enterCall tcx body summaries (resolveCallee tcx body func s) args
      destination.base s)) (bb : Nat)
    (hlength : ∀ did recv, resolveCallee tcx body func s = some did →
      (endsWith (tcx.defPathStr did) "::len" || endsWith (tcx.defPathStr did) "::capacity") = true →
      firstArgLocal args = some recv → recv ≠ c ∧ s.derefBase recv ≠ c) :
    Forgotten c (applyCall tcx body summaries bb func args destination s) := by
  have hescaped := h.frame (escapeRawPtrArgs_writes _ body args) (by decide)
  have hrefs : ((San.enterCall tcx body summaries (resolveCallee tcx body func s) args
      destination.base s).clearRedefined destination.base).facts .refBase =
        (s.facts .refBase).erase destination.base := by
    rw [BlockState.clearRedefined_facts, if_pos (by decide), show BlockState.facts _ .refBase = _
      from enterCall_writes s tcx body summaries _ args _ (.fact .refBase) (by decide)]
  unfold San.applyCall
  dsimp only
  cases hcallee : resolveCallee tcx body func s with
  | none => rwa [hcallee] at hescaped
  | some did =>
      rw [hcallee] at h hescaped hrefs
      dsimp only
      split
      · have hfacts := (h.clearRedefined destination.base).recordCallFacts
          (tcx.defPathStr did) args destination.base fun hpath recv hrecv => by
            obtain ⟨hne, hderef⟩ := hlength did recv hcallee hpath hrecv
            unfold BlockState.derefBase
            rw [hrefs, FMap.get_erase]
            split
            · exact hne
            · exact hderef
        exact (hfacts.frame (applyCallKind_writes _ tcx body _ _ args _ bb) (by decide)).frame
          (leaveCall_writes _ tcx body _ args _) (by decide)
      · exact hescaped

theorem assertCondition (h : Forgotten c s) (cond : Operand) (expected : Bool) :
    Forgotten c (assertCondition cond expected s) := by
  unfold San.assertCondition
  split
  · exact h
  · split
    · exact (h.drain _ _ _ (by decide)).drain _ _ _ (by decide)
    · exact (h.drain _ _ _ (by decide)).drain _ _ _ (by decide)

end Forgotten

/-! ## A possible mutation -/

section Mutation
variable {tcx : TyCtxt} {body : Body} {summaries : SummaryMap} {c : Local}

/-- The call passes the `&mut` borrow `r` of `c` to its callee. -/
def Event.Mutates (body : Body) (c : Local) (s : BlockState) : Event body → Prop
  | .statement _ => False
  | .terminator _ term _ => ∃ func args dest target unwind arg r,
      term.kind = .call func args dest target unwind ∧ arg ∈ args ∧ operandLocal arg = some r ∧
      isMutableRefTy (body.localTy r) = true ∧ (s.facts .refBase).get r = some c

/-- The event neither measures `c` nor replaces it by a collection that has been measured. -/
def Event.Quiet (tcx : TyCtxt) (body : Body) (c : Local) (e : Event body) (s : BlockState) : Prop :=
  ¬ e.Measures tcx body c s ∧ ¬ e.Adopts body c s

/-- A passed borrow takes back the proofs about the borrowed collection. -/
theorem killCapacityArgs_unsized {s : BlockState} {args : List Operand} {arg : Operand} {r : Local}
    (harg : arg ∈ args) (hr : operandLocal arg = some r)
    (hty : isMutableRefTy (body.localTy r) = true) (hbase : (s.facts .refBase).get r = some c) :
    Unsized c (args.foldl (killCapacityArg body) s) := by
  induction args generalizing s with
  | nil => cases harg
  | cons first args ih =>
      rcases List.mem_cons.mp harg with rfl | harg
      · refine Unsized.killCapacityArgs (fun m hm hmem => ?_) body args
        have hkill : killCapacityArg body s arg =
            s.onMustSets [.hasSpare, .isFull] (·.erase (s.derefBase r)) := by
          unfold killCapacityArg
          rw [hr]
          exact if_pos (by rw [hty]; rfl)
        rw [hkill] at hmem
        have hmem : c ∈ (if m ∈ [MustSet.hasSpare, .isFull] then
          (s.mustSets m).erase (s.derefBase r) else s.mustSets m) := hmem
        rw [if_pos hm, show s.derefBase r = c from by unfold BlockState.derefBase; rw [hbase]; rfl]
          at hmem
        exact Finset.notMem_erase c _ hmem
      · refine ih harg ?_
        rw [show (killCapacityArg body s first).facts .refBase = s.facts .refBase from
          killCapacityArgs_writes s body [first] (.fact .refBase) (by decide)]
        exact hbase

/-- **The step lemma.**  Quiet events prove nothing of a forgotten collection. -/
theorem Forgotten.event {s : BlockState} (h : Forgotten c s) {e : Event body}
    (hquiet : e.Quiet tcx body c s) : Forgotten c (e.apply tcx body summaries s) := by
  cases e with
  | statement stmt => exact h.applyStatement tcx body stmt hquiet.1 hquiet.2
  | terminator bb term succ =>
      refine Forgotten.refineSwitchintEdge ?_ term succ
      unfold applyTerminator
      split
      · next func args dest target unwind hkind =>
          refine (h.enterCall tcx body summaries _ args dest.base).applyCall bb.val ?_
          exact fun did recv hcallee hpath hrecv =>
            ⟨fun he => hquiet.1 ⟨func, args, dest, target, unwind, did, recv, hkind, hcallee, hpath,
              hrecv, .inl he⟩,
            fun he => hquiet.1 ⟨func, args, dest, target, unwind, did, recv, hkind, hcallee, hpath,
              hrecv, .inr he⟩⟩
      · exact h.assertCondition _ _
      · exact h.frame (applyDrop_writes s _) (by decide)
      · exact h

/-- The call forgets the collection, if nothing is pending when it is made. -/
theorem Forgotten.ofMutation {s : BlockState} {e : Event body} (hmutates : e.Mutates body c s)
    (hmeasure : ¬ e.Measures tcx body c s) (hpending : Unmeasured c s) (hindex : Unindexed c s) :
    Forgotten c (e.apply tcx body summaries s) := by
  cases e with
  | statement stmt => exact hmutates.elim
  | terminator bb term succ =>
      obtain ⟨func, args, dest, target, unwind, arg, r, hkind, harg, hr, hty, hbase⟩ := hmutates
      refine Forgotten.refineSwitchintEdge ?_ term succ
      unfold applyTerminator
      rw [hkind]
      obtain ⟨t, ht, henter⟩ := enterCall_eq s tcx body summaries (resolveCallee tcx body func s)
        args dest.base
      have hkill := killCapacityArgs_writes t body args
      have hentered : Forgotten c (San.enterCall tcx body summaries (resolveCallee tcx body func s) args
          dest.base s) := by
        rw [henter]
        refine ⟨(hpending.frame ht (by decide)).frame hkill (by decide),
          (hindex.frame ht (by decide)).frame hkill (by decide),
          killCapacityArgs_unsized harg hr hty ?_⟩
        rw [show t.facts .refBase = s.facts .refBase from ht (.fact .refBase) (by decide)]
        exact hbase
      exact hentered.applyCall bb.val fun did recv hcallee hpath hrecv =>
        ⟨fun he => hmeasure ⟨func, args, dest, target, unwind, did, recv, hkind, hcallee, hpath,
          hrecv, .inl he⟩,
        fun he => hmeasure ⟨func, args, dest, target, unwind, did, recv, hkind, hcallee, hpath,
          hrecv, .inr he⟩⟩

/-- **No stale proof survives a mutation when nothing is pending.**  If no local holds a
length of `c`, a comparison with one or an index proven for `c` when the call is made, then
all along a run that neither measures `c` again nor replaces it by a measured collection,
`c` is proven neither spare nor full and no index is proven to be within it. -/
theorem mutated_stays_unproven {x y z : Config body} {e : Event body}
    (hcall : Step tcx body summaries x e y) (hmutates : e.Mutates body c x.state)
    (hmeasure : ¬ e.Measures tcx body c x.state) (hpending : Unmeasured c x.state)
    (hindex : Unindexed c x.state) (hrun : Runs tcx body summaries (Event.Quiet tcx body c) y z) :
    c ∉ z.state.mustSets .hasSpare ∧ c ∉ z.state.mustSets .isFull ∧
      ∀ i, (i, c) ∉ z.state.mustPairs .indexBoundedFor ∧
        (i, c) ∉ z.state.mustPairs .indexBoundedOrEqFor := by
  have hafter : Forgotten c y.state := by
    rw [hcall.2]
    exact .ofMutation hmutates hmeasure hpending hindex
  have hlater := hrun.preserves (fun e s hquiet hs => hs.event hquiet) hafter
  exact ⟨hlater.unsized _ (by decide), hlater.unsized _ (by decide),
    fun i => ⟨hlater.unindexed _ (by decide) i, hlater.unindexed _ (by decide) i⟩⟩

/-- `_3 = len(&_1)`, `_4 = capacity(&_1)`, `_5 = _3 < _4`, `push(&mut _1)`, and only then a
branch on `_5`. -/
def pushThenBranch : Body :=
  .ofBlocks 3 1 [.other, .other, .ref .other .not, .uint .usize, .uint .usize, .bool,
      .ref .other .mut] 5
    (fun bb =>
      [.of [.set 2 (.ref (Place.ofLocal (Local.ofNat 1)))] (.callTo 0 [.ofNat 2] 3 (bb 1)),
        .of [] (.callTo 1 [.ofNat 2] 4 (bb 2)),
        .of [.set 5 (.binaryOp .lt (.ofNat 3) (.ofNat 4)),
          .set 6 (.ref (Place.ofLocal (Local.ofNat 1)))] (.callTo 2 [.ofNat 6] 0 (bb 3)),
        .of [] (.switchInt (.ofNat 5) ⟨[(0, bb 4)], bb 5⟩),
        .of [] .return, .of [] .return])
    (by decide)

def vecPaths : TyCtxt :=
  .ofPaths ["alloc::vec::Vec::<T>::len", "alloc::vec::Vec::<T>::capacity",
    "alloc::vec::Vec::<T>::push", "f"]

/-- The proof `has_spare(_1)` made before the `push` is taken back when no comparison is
pending. -/
theorem push_takes_back_spare :
    let s := (BlockState.default.insertFact .refBase (Local.ofNat 6) (Local.ofNat 1)).insertMust
      .hasSpare (Local.ofNat 1)
    Local.ofNat 1 ∈ s.mustSets .hasSpare ∧
      Local.ofNat 1 ∉ (applyTerminator vecPaths pushThenBranch ∅ 2
        ⟨.callTo 2 [.ofNat 6] 0 (3 : Fin 6), .none⟩ s).mustSets .hasSpare := by
  intro s
  have hwrites : Writes [.fact .refBase, .mustSet .hasSpare] .default s :=
    ((BlockState.insertFact_writes _ _ _ _).mono (by decide)).trans
      ((BlockState.insertMust_writes _ _ _).mono (by decide))
  have hnothing : Unmeasured (Local.ofNat 1) BlockState.default :=
    ⟨fun _ _ => FMap.All.empty, fun _ _ => FMap.All.empty⟩
  have hcall : Step vecPaths pushThenBranch ∅ ⟨(2 : Fin 6), 2, s⟩ _ _ :=
    .follow (3 : Fin 6) rfl rfl (.head _)
  refine ⟨by decide +kernel, (mutated_stays_unproven hcall ?_ ?_ (hnothing.frame hwrites (by decide))
    (Unindexed.frame (fun _ _ _ => Finset.notMem_empty _) hwrites (by decide)) .refl).1⟩
  · exact ⟨_, _, _, _, _, .ofNat 6, Local.ofNat 6, rfl, .head _, rfl, rfl, by decide +kernel⟩
  · rintro ⟨func, args, dest, target, unwind, did, recv, hkind, hcallee, hpath, -⟩
    cases hkind
    cases hcallee
    exact absurd hpath (by decide)

/-- **A comparison made before the mutation brings the proof back.**  On the path into the
branch of `pushThenBranch`, `_1` is proven to have spare capacity after the `push`, although
its length was read only before. -/
theorem push_keeps_spare : ∃ (x y z : Config pushThenBranch) (e : Event pushThenBranch),
    Runs vecPaths pushThenBranch ∅ (fun _ _ => True) ⟨(0 : Fin 6), 0, .default⟩ x ∧
    Step vecPaths pushThenBranch ∅ x e y ∧ e.Mutates pushThenBranch (Local.ofNat 1) x.state ∧
    ¬ e.Measures vecPaths pushThenBranch (Local.ofNat 1) x.state ∧
    Runs vecPaths pushThenBranch ∅ (Event.Quiet vecPaths pushThenBranch (Local.ofNat 1)) y z ∧
    Local.ofNat 1 ∈ z.state.mustSets .hasSpare := by
  have hstart : Runs vecPaths pushThenBranch ∅ (fun _ _ => True)
    ⟨(0 : Fin 6), 0, .default⟩ ⟨(0 : Fin 6), 0, .default⟩ := .refl
  have hborrow := hstart.execute rfl trivial
  have hlen := hborrow.follow (1 : Fin 6) rfl rfl (.head _) trivial
  have hcap := hlen.follow (2 : Fin 6) rfl rfl (.head _) trivial
  have hcompare := hcap.execute rfl trivial
  have hbefore := hcompare.execute rfl trivial
  refine ⟨_, _, _, _, hbefore, .follow (3 : Fin 6) rfl rfl (.head _), ?_, ?_,
    Runs.follow .refl (5 : Fin 6) rfl rfl (.tail _ (.head _)) ⟨?_, id⟩, ?_⟩
  · exact ⟨_, _, _, _, _, .ofNat 6, Local.ofNat 6, rfl, .head _, rfl, rfl, by decide +kernel⟩
  · rintro ⟨func, args, dest, target, unwind, did, recv, hkind, hcallee, hpath, -⟩
    cases hkind
    cases hcallee
    exact absurd hpath (by decide)
  · rintro ⟨func, args, dest, target, unwind, did, recv, hkind, -⟩
    cases hkind
  · decide +kernel

end Mutation

end San
