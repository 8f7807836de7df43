import San.CallChecks
import San.Nonzero

/-! # Guards

A guard is a comparison whose result is switched on: each edge of the switch proves the
comparison or its negation.  This module says when the polarity of the edges is read off the
target list correctly (`branch_polarity_kept_iff`), what a guard on the length and the capacity of
a collection proves, and whether the checkers that ask for spare capacity need what it says
(`capacity_guards_sound_iff`).
-/
namespace San

/-! ## What an edge adds -/

/-- From `s` to `t`, what the facts of `feeds` say about the condition `c` is added to their
must-sets, and nothing else is. -/
structure Drained (s : BlockState) (c : Local) (feeds : List (Fact × MustSet)) (t : BlockState) :
    Prop where
  mem_iff : ∀ m l, l ∈ t.mustSets m ↔
    l ∈ s.mustSets m ∨ ∃ k, (k, m) ∈ feeds ∧ (s.facts k).get c = some l
  facts : t.facts = s.facts

namespace Drained
variable {s t : BlockState} {c : Local} {feeds : List (Fact × MustSet)}

theorem refl (s : BlockState) (c : Local) : Drained s c [] s :=
  ⟨fun m l => by simp only [List.not_mem_nil, false_and, exists_false, or_false], rfl⟩

theorem drain (h : Drained s c feeds t) (k : Fact) (m : MustSet) :
    Drained s c ((k, m) :: feeds) (San.drain k m c t) := by
  have hadd : ∀ m' l, (l ∈ t.mustSets m' ∨ (m' = m ∧ (s.facts k).get c = some l)) ↔
      (l ∈ s.mustSets m' ∨ ∃ k', (k', m') ∈ (k, m) :: feeds ∧ (s.facts k').get c = some l) := by
    intro m' l
    rw [h.mem_iff, or_assoc]
    refine or_congr_right ⟨?_, ?_⟩
    · rintro (⟨k', hk', hget⟩ | ⟨rfl, hget⟩)
      · exact ⟨k', List.mem_cons_of_mem _ hk', hget⟩
      · exact ⟨k, List.mem_cons_self, hget⟩
    · rintro ⟨k', hk', hget⟩
      rcases List.mem_cons.mp hk' with heq | hk'
      · cases heq
        exact Or.inr ⟨rfl, hget⟩
      · exact Or.inl ⟨k', hk', hget⟩
  unfold San.drain
  rw [h.facts]
  split
  · rename_i x hx
    refine ⟨fun m' l => ?_, h.facts⟩
    rw [← hadd, hx, Option.some.injEq]
    by_cases hm : m' = m
    · subst hm
      simp [BlockState.insertMust, BlockState.onMustSets, or_comm, eq_comm]
    · simp [BlockState.insertMust, BlockState.onMustSets, hm]
  · rename_i hx
    refine ⟨fun m' l => ?_, h.facts⟩
    rw [← hadd, hx]
    simp only [reduceCtorEq, and_false, or_false]

theorem drainPair (h : Drained s c feeds t) (k : PairFact) (m : MustPairs) (norm) :
    Drained s c feeds (San.drainPair k m norm c t) := by
  unfold San.drainPair
  split
  · exact ⟨h.mem_iff, h.facts⟩
  · exact h

theorem drainUpper (h : Drained s c feeds t) (k : ConstFact) (f : U64 → U64) :
    Drained s c feeds (San.drainUpper k f c t) := by
  unfold San.drainUpper
  split
  · exact ⟨h.mem_iff, h.facts⟩
  · exact h

theorem drainLower (h : Drained s c feeds t) (k : ConstFact) (f : U64 → U64) :
    Drained s c feeds (San.drainLower k f c t) := by
  unfold San.drainLower
  split
  · exact ⟨h.mem_iff, h.facts⟩
  · exact h

/-- A must-set with a single feed. -/
theorem mem_iff_of_feed (h : Drained s c feeds t) {k : Fact} {m : MustSet}
    (hfeed : feeds.filter (fun f => f.2 = m) = [(k, m)]) {l : Local} :
    l ∈ t.mustSets m ↔ l ∈ s.mustSets m ∨ (s.facts k).get c = some l := by
  have hmem : ∀ k', (k', m) ∈ feeds ↔ k' = k := by
    intro k'
    have hfilter : (k', m) ∈ feeds.filter (fun f => f.2 = m) ↔ (k', m) ∈ feeds := by
      rw [List.mem_filter, decide_eq_true rfl, and_iff_left rfl]
    rw [← hfilter, hfeed, List.mem_singleton, Prod.mk.injEq, and_iff_left rfl]
  rw [h.mem_iff]
  simp only [hmem, exists_eq_left]

end Drained

/-- The facts that hold if the condition does, and where they go. -/
def trueFeeds : List (Fact × MustSet) :=
  [(.finiteIfTrue, .finite), (.nonzeroIfTrue, .nonzero), (.fullIfTrue, .isFull),
    (.spareIfTrue, .hasSpare), (.leFacts, .boundedOrEq), (.ltFacts, .bounded)]

/-- The facts that hold if the condition does not, and where they go. -/
def falseFeeds : List (Fact × MustSet) :=
  [(.nanIfTrue, .finite), (.nonzeroIfFalse, .nonzero), (.fullIfFalse, .isFull),
    (.spareIfFalse, .hasSpare), (.gtFacts, .boundedOrEq), (.geFacts, .bounded)]

theorem refineTrueEdge_drained (c : Local) (s : BlockState) :
    Drained s c trueFeeds (refineTrueEdge c s) :=
  (((((((((((((((Drained.refl s c).drain .ltFacts .bounded).drain .leFacts .boundedOrEq).drainPair
    .ltFor .indexBoundedFor id).drainPair .leFor .indexBoundedOrEqFor id).drain .spareIfTrue
    .hasSpare).drain .fullIfTrue .isFull).drain .nonzeroIfTrue .nonzero).drain .finiteIfTrue
    .finite).drainUpper .constLt predSat).drainUpper .constLe id).drainLower .constGt
    succSat).drainLower .constGe id).drainPair .nePairIfTrue .keysAreNe orderPair).drainPair
    .eqPairIfTrue .eqLocals orderPair)

theorem refineFalseEdge_drained (c : Local) (s : BlockState) :
    Drained s c falseFeeds (refineFalseEdge c s) :=
  (((((((((((((Drained.refl s c).drain .geFacts .bounded).drain .gtFacts .boundedOrEq).drain
    .spareIfFalse .hasSpare).drain .fullIfFalse .isFull).drain .nonzeroIfFalse .nonzero).drain
    .nanIfTrue .finite).drainLower .constLt id).drainLower .constLe succSat).drainUpper .constGt
    id).drainUpper .constGe predSat).drainPair .eqPairIfTrue .keysAreNe orderPair).drainPair
    .nePairIfTrue .eqLocals orderPair)

/-! ## The polarity of an edge -/

section Polarity
variable {n : Nat} {targets : SwitchTargets n} {c : Local} {s : BlockState}

/-- The successor that is listed for the value `v`. -/
def SwitchTargets.target (targets : SwitchTargets n) (v : U128) : Option (Fin n) :=
  (targets.targets.find? fun t => t.1 == v).map Prod.snd

/-- Zero has a target of its own.  It is not listed for one as well, unless it is where all
other values go. -/
structure SwitchTargets.Canonical (targets : SwitchTargets n) : Prop where
  zero : targets.target 0 ≠ none
  one : ∀ succ, targets.target 0 = some succ → targets.target 1 = some succ →
    succ = targets.otherwise

theorem SwitchTargets.select_eq (targets : SwitchTargets n) (v : U128) :
    targets.select v.val = (targets.target v).getD targets.otherwise := by
  have hbeq : (fun t : U128 × Fin n => t.1.val == v.val) = fun t => t.1 == v := by
    funext t
    rw [Bool.eq_iff_iff, beq_iff_eq, beq_iff_eq, Fin.ext_iff]
  unfold select target
  rw [hbeq]

/-- The polarity depends on the target of zero and on where all other values go. -/
theorem edgePolarity_eq (targets : SwitchTargets n) (succ : Fin n) :
    edgePolarity targets succ =
      if succ = targets.otherwise then
        (if targets.target 0 = some succ then none else some true)
      else if targets.target 0 = some succ then some false else none := by
  unfold edgePolarity
  rw [show (targets.targets.find? fun t => t.1 == 0).map Prod.snd = targets.target 0 from rfl]
  generalize targets.target 0 = zero
  generalize targets.otherwise = other
  by_cases hother : succ = other <;> by_cases hzero : zero = some succ <;>
    simp [hother, hzero, eq_comm]

/-- What is known on the edge that the value `v` takes is what it was, or what the polarity of
`v` proves. -/
def KeepsPolarity (term : Terminator n) (targets : SwitchTargets n) (c : Local) (v : Nat) : Prop :=
  ∀ s, refineSwitchintEdge term (targets.select v) s = s ∨
    refineSwitchintEdge term (targets.select v) s =
      if v = 1 then refineTrueEdge c s else refineFalseEdge c s

theorem refineSwitchintEdge_eq {discr : Operand} {span : Span} (hdiscr : operandLocal discr = some c)
    (succ : Fin n) (s : BlockState) :
    refineSwitchintEdge ⟨.switchInt discr targets, span⟩ succ s =
      if succ = targets.otherwise then
        (if targets.target 0 = some succ then s else refineTrueEdge c s)
      else if targets.target 0 = some succ then refineFalseEdge c s else s := by
  unfold refineSwitchintEdge
  dsimp only
  rw [hdiscr, edgePolarity_eq]
  by_cases hother : succ = targets.otherwise
  · rw [if_pos hother, if_pos hother]
    by_cases hzero : targets.target 0 = some succ
    · rw [if_pos hzero, if_pos hzero]
    · rw [if_neg hzero, if_neg hzero]
  · rw [if_neg hother, if_neg hother]
    by_cases hzero : targets.target 0 = some succ
    · rw [if_pos hzero, if_pos hzero]
    · rw [if_neg hzero, if_neg hzero]

/-- The two kinds of edges add different things. -/
theorem exists_edges_differ (c : Local) :
    (∃ s, refineTrueEdge c s ≠ s ∧ refineTrueEdge c s ≠ refineFalseEdge c s) ∧
      ∃ s, refineFalseEdge c s ≠ s ∧ refineFalseEdge c s ≠ refineTrueEdge c s := by
  -- a state that knows one thing about the condition, on one edge
  let known (k : Fact) : BlockState := BlockState.default.insertFact k c c
  have hknown : ∀ k, ((known k).facts k).get c = some c := fun k => by
    simp [known, BlockState.insertFact, BlockState.onFacts]
  have hother : ∀ k k', k' ≠ k → ((known k).facts k').get c ≠ some c := fun k k' hk => by
    simp [known, BlockState.insertFact, BlockState.onFacts, hk, BlockState.default]
  have htrue : ∀ s, c ∈ (refineTrueEdge c s).mustSets .hasSpare ↔
      c ∈ s.mustSets .hasSpare ∨ (s.facts .spareIfTrue).get c = some c := fun s =>
    (refineTrueEdge_drained c s).mem_iff_of_feed (by decide)
  have hfalse : ∀ s, c ∈ (refineFalseEdge c s).mustSets .hasSpare ↔
      c ∈ s.mustSets .hasSpare ∨ (s.facts .spareIfFalse).get c = some c := fun s =>
    (refineFalseEdge_drained c s).mem_iff_of_feed (by decide)
  have hempty : ∀ k, c ∉ (known k).mustSets .hasSpare := fun k => Finset.notMem_empty c
  refine ⟨⟨known .spareIfTrue, fun h => ?_, fun h => ?_⟩, known .spareIfFalse, fun h => ?_, fun h => ?_⟩
  · exact hempty _ (h ▸ (htrue _).mpr (Or.inr (hknown _)))
  · rcases (hfalse _).mp (h ▸ (htrue _).mpr (Or.inr (hknown _))) with hmem | hget
    · exact hempty _ hmem
    · exact hother _ _ (by decide) hget
  · exact hempty _ (h ▸ (hfalse _).mpr (Or.inr (hknown _)))
  · rcases (htrue _).mp (h ▸ (hfalse _).mpr (Or.inr (hknown _))) with hmem | hget
    · exact hempty _ hmem
    · exact hother _ _ (by decide) hget

end Polarity

/-- **When the polarity of a branch is kept.**  On the edge that zero or one takes, a switch on a
boolean local adds nothing or what the value proves exactly if zero has a target of its own, which
is not also that of one, or is where all other values go. -/
theorem branch_polarity_kept_iff {n : Nat} (targets : SwitchTargets n) (discr : Operand)
    (span : Span) (c : Local) (hdiscr : operandLocal discr = some c) :
    (∀ v < 2, KeepsPolarity ⟨.switchInt discr targets, span⟩ targets c v) ↔
      targets.Canonical := by
  have hzero : targets.select 0 = (targets.target 0).getD targets.otherwise :=
    targets.select_eq 0
  have hone : targets.select 1 = (targets.target 1).getD targets.otherwise :=
    targets.select_eq 1
  obtain ⟨⟨s, hs, hs'⟩, t, ht, ht'⟩ := exists_edges_differ c
  constructor
  · intro h
    refine ⟨fun hnone => ?_, fun succ hsucc hsucc' => Classical.byContradiction fun hne => ?_⟩
    -- with no arm for 0 the value 0 leaves by the default arm, which is refined as the true edge
    · have hkeep := h 0 (by decide) s
      rw [hzero, hnone, Option.getD_none, refineSwitchintEdge_eq hdiscr, if_pos rfl, hnone,
        if_neg (by simp), if_neg (by decide)] at hkeep
      exact hkeep.elim hs hs'
    -- an arm for 1 that shares its block with the arm for 0 is refined as the false edge
    · have hkeep := h 1 (by decide) t
      rw [hone, hsucc', Option.getD_some, refineSwitchintEdge_eq hdiscr, if_neg hne, if_pos hsucc,
        if_pos rfl] at hkeep
      exact hkeep.elim ht ht'
  · rintro ⟨hnone, hshared⟩ v hv u
    rw [refineSwitchintEdge_eq hdiscr]
    obtain ⟨succ, hsucc⟩ := Option.ne_none_iff_exists'.mp hnone
    rcases Nat.le_one_iff_eq_zero_or_eq_one.mp (Nat.le_of_lt_succ hv) with rfl | rfl
    · simp only [hzero, hsucc, Option.getD_some, if_true, Nat.zero_ne_one, if_false]
      split
      · exact Or.inl rfl
      · exact Or.inr rfl
    · rw [hone, if_pos rfl]
      split
      · split
        · exact Or.inl rfl
        · exact Or.inr rfl
      · rename_i hother
        rw [if_neg fun hboth => ?_]
        · exact Or.inl rfl
        · cases htarget : targets.target 1 with
          | none =>
            rw [htarget] at hother
            exact hother rfl
          | some b =>
            rw [htarget] at hother hboth
            exact hother (hshared b hboth htarget)

/-- A two-way switch on `_1`. -/
theorem two_way_switch_keeps_polarity :
    KeepsPolarity (⟨.switchInt (.ofNat 1) ⟨[(0, 1)], 2⟩, .none⟩ : Terminator 3) ⟨[(0, 1)], 2⟩
      (Local.ofNat 1) 0 ∧
    KeepsPolarity (⟨.switchInt (.ofNat 1) ⟨[(0, 1)], 2⟩, .none⟩ : Terminator 3) ⟨[(0, 1)], 2⟩
      (Local.ofNat 1) 1 := by
  have hkeep := (branch_polarity_kept_iff (⟨[(0, 1)], 2⟩ : SwitchTargets 3) (.ofNat 1) .none
    (Local.ofNat 1) rfl).mpr ⟨by decide, fun _ _ h => by cases h⟩
  exact ⟨hkeep 0 (by decide), hkeep 1 (by decide)⟩

/-- `switchInt(_1) -> [1: bb1, otherwise: bb2]`: on the edge that zero takes, the comparison is
taken to have held. -/
theorem switch_without_zero_inverted :
    refineSwitchintEdge (⟨.switchInt (.ofNat 1) ⟨[(1, 1)], 2⟩, .none⟩ : Terminator 3)
      (SwitchTargets.select ⟨[(1, 1)], 2⟩ 0) =
        refineTrueEdge (Local.ofNat 1) ∧
      ¬ KeepsPolarity (⟨.switchInt (.ofNat 1) ⟨[(1, 1)], 2⟩, .none⟩ : Terminator 3)
        ⟨[(1, 1)], 2⟩ (Local.ofNat 1) 0 := by
  have htrue : refineSwitchintEdge (⟨.switchInt (.ofNat 1) ⟨[(1, 1)], 2⟩, .none⟩ : Terminator 3)
      (SwitchTargets.select ⟨[(1, 1)], 2⟩ 0) = refineTrueEdge (Local.ofNat 1) := rfl
  refine ⟨htrue, fun h => ?_⟩
  obtain ⟨⟨s, hs, hs'⟩, _⟩ := exists_edges_differ (Local.ofNat 1)
  have hkeep := h s
  rw [htrue] at hkeep
  exact hkeep.elim hs hs'

/-! ## Comparisons of a length with a capacity -/

/-- The facts that such a comparison records. -/
def Fact.capacity : List Fact := [.spareIfTrue, .spareIfFalse, .fullIfTrue, .fullIfFalse]

/-- `a` holds the length and `b` the capacity of the collection `c`. -/
def LenCap (s : BlockState) (a b : Operand) (c : Local) : Prop :=
  ∃ l l', operandLocal a = some l ∧ operandLocal b = some l' ∧
    (s.facts .lenOf).get l = some c ∧ (s.facts .capOf).get l' = some c

/-- What a comparison tells about the capacity of a collection. -/
def Tells (s : BlockState) (op : BinOp) (op1 op2 : Operand) : Fact → Local → Prop
  | .spareIfTrue, c => (op = .lt ∧ LenCap s op1 op2 c) ∨ (op = .gt ∧ LenCap s op2 op1 c)
  | .spareIfFalse, c => (op = .ge ∧ LenCap s op1 op2 c) ∨ (op = .le ∧ LenCap s op2 op1 c)
  | .fullIfTrue, c => op = .eq ∧ (LenCap s op1 op2 c ∨ LenCap s op2 op1 c)
  | .fullIfFalse, c => op = .ne ∧ (LenCap s op1 op2 c ∨ LenCap s op2 op1 c)
  | _, _ => False

/-- From `t` to `u` no fact about capacities is added but those in `R`, for the condition `dst`;
what holds lengths and capacities stays the same. -/
structure Gains (dst : Local) (R : Fact → Local → Prop) (t u : BlockState) : Prop where
  source : ∀ k ∈ Fact.capacity, ∀ c x, (u.facts k).get c = some x →
    (t.facts k).get c = some x ∨ c = dst ∧ R k x
  lenOf : u.facts .lenOf = t.facts .lenOf
  capOf : u.facts .capOf = t.facts .capOf

namespace Gains
variable {dst : Local} {R : Fact → Local → Prop} {s t u : BlockState} {F : List Field}
  {op1 op2 : Operand}

theorem trans (h : Gains dst R s t) (h' : Gains dst R t u) : Gains dst R s u where
  source k hk c x hx := by
    rcases h'.source k hk c x hx with hx | hR
    · exact h.source k hk c x hx
    · exact Or.inr hR
  lenOf := h'.lenOf.trans h.lenOf
  capOf := h'.capOf.trans h.capOf

theorem frame (hw : Writes F s t) (hF : ∀ k ∈ .lenOf :: .capOf :: Fact.capacity, .fact k ∉ F) :
    Gains dst R s t := by
  have hsame : ∀ k ∈ .lenOf :: .capOf :: Fact.capacity, t.facts k = s.facts k :=
    fun k hk => hw (.fact k) (hF k hk)
  refine ⟨fun k hk c x hx => Or.inl ?_, hsame _ (by decide), hsame _ (by decide)⟩
  rwa [← hsame k (List.mem_cons_of_mem _ (List.mem_cons_of_mem _ hk))]

theorem insertFact {k : Fact} (hk : k ∈ Fact.capacity) {y : Local} (hR : R k y) :
    Gains dst R t (t.insertFact k dst y) := by
  have hne : k ≠ .lenOf ∧ k ≠ .capOf := by
    constructor <;> rintro rfl <;> exact absurd hk (by decide)
  have hsame : ∀ k', k ≠ k' → (t.insertFact k dst y).facts k' = t.facts k' := fun k' hk' =>
    t.insertFact_writes k dst y (.fact k') (by simpa using hk'.symm)
  refine ⟨fun k' _ c x hx => ?_, hsame _ hne.1, hsame _ hne.2⟩
  by_cases heq : k = k'
  · subst heq
    have hget : ((t.facts k).insert dst y).get c = some x := by
      simpa [BlockState.insertFact, BlockState.onFacts] using hx
    rw [FMap.get_insert] at hget
    split at hget
    · rename_i hc
      cases hget
      exact Or.inr ⟨hc, hR⟩
    · exact Or.inl hget
  · rw [hsame k' heq] at hx
    exact Or.inl hx

theorem refl (t : BlockState) : Gains dst R t t := ⟨fun _ _ _ _ => Or.inl, rfl, rfl⟩

/-- Lengths and capacities are what they were. -/
theorem lenCap (h : Gains dst R s t) {a b : Operand} {c : Local} (hc : LenCap t a b c) :
    LenCap s a b c := by
  unfold LenCap at hc ⊢
  rwa [← h.lenOf, ← h.capOf]

theorem recordSpare (h : Gains dst R s t) {k : Fact} (hk : k ∈ Fact.capacity) {capFirst : Bool}
    (hR : ∀ c, (if capFirst then LenCap s op2 op1 c else LenCap s op1 op2 c) → R k c) :
    Gains dst R s (San.recordSpare k dst op1 op2 capFirst t) := by
  refine h.trans ?_
  unfold San.recordSpare
  split
  · rename_i a b ha hb
    dsimp only
    split
    · rename_i cl cc hcl hcc
      split
      · rename_i heq
        subst heq
        refine insertFact hk (hR cl ?_)
        cases capFirst with
        | false => exact h.lenCap ⟨a, b, ha, hb, hcl, hcc⟩
        | true => exact h.lenCap ⟨b, a, hb, ha, hcl, hcc⟩
      · exact refl t
    · exact refl t
  · exact refl t

theorem sameCollection_eq_some {a b c : Local} (h : sameCollection t a b = some c) :
    (t.facts .lenOf).get a = some c ∧ (t.facts .capOf).get b = some c := by
  obtain ⟨cl, hcl, h⟩ := Option.bind_eq_some_iff.mp h
  obtain ⟨cc, hcc, h⟩ := Option.bind_eq_some_iff.mp h
  split at h
  · rename_i heq
    subst heq
    cases h
    exact ⟨hcl, hcc⟩
  · cases h

theorem recordFull (h : Gains dst R s t) {k : Fact} (hk : k ∈ Fact.capacity)
    (hR : ∀ c, LenCap s op1 op2 c ∨ LenCap s op2 op1 c → R k c) :
    Gains dst R s (San.recordFull k dst op1 op2 t) := by
  refine h.trans ?_
  unfold San.recordFull
  split
  · rename_i a b ha hb
    split
    · rename_i coll hcoll
      refine insertFact hk (hR coll ?_)
      rcases Option.or_eq_some_iff.mp hcoll with hsame | ⟨_, hsame⟩
      · obtain ⟨hlen, hcap⟩ := sameCollection_eq_some hsame
        exact Or.inl (h.lenCap ⟨a, b, ha, hb, hlen, hcap⟩)
      · obtain ⟨hlen, hcap⟩ := sameCollection_eq_some hsame
        exact Or.inr (h.lenCap ⟨b, a, hb, ha, hlen, hcap⟩)
    · exact refl t
  · exact refl t

/-- An equality tells that the collection is full. -/
theorem compareEq {full onZero : Fact} (pair : PairFact) (hfull : full ∈ Fact.capacity)
    (hzero : onZero ∉ .lenOf :: .capOf :: Fact.capacity)
    (hR : ∀ c, LenCap t op1 op2 c ∨ LenCap t op2 op1 c → R full c) :
    Gains dst R t (San.compareEq full onZero pair dst op1 op2 t) := by
  have hclear : Gains dst R t (t.onFacts Fact.comparisons (·.erase dst)) :=
    .frame (t.onFacts_writes Fact.comparisons _) (by decide)
  refine ((hclear.recordFull hfull hR).trans ?_).trans
    (.frame (recordPair_writes _ pair dst op1 op2) (by cases pair <;> decide))
  split
  · refine .frame (BlockState.insertFact_writes _ onZero dst _) fun k hk hmem => hzero ?_
    cases List.mem_singleton.mp hmem
    exact hk
  · exact refl _

end Gains

section Comparisons
variable {tcx : TyCtxt} {body : Body} {s t : BlockState} {dst : Local} {op : BinOp}
  {op1 op2 : Operand} {stmt : Statement} {k : Fact} {c : Local}

/-- **What a comparison tells**, and nothing else, is recorded. -/
theorem gains_recordBinaryOp (body : Body) (hop : op.isComparison = true) :
    Gains dst (Tells t op op1 op2) t (recordBinaryOp body op op1 op2 dst t) := by
  have hpair : ∀ {R : Fact → Local → Prop} (k : PairFact) (o : Option (Local × Local)),
      Gains dst R t (t.onPairFacts [k] (·.put dst o)) := fun k o =>
    .frame (t.onPairFacts_writes [k] _) (by cases k <;> decide)
  have hset : ∀ {R : Fact → Local → Prop} {k : Fact} (u : BlockState), k ∈ Fact.comparisons →
      Gains dst R u (setComparison u k dst (operandLocal op1)) := fun u hk =>
    .frame (setComparison_writes u hk dst _) (by decide)
  have hconst : ∀ {R : Fact → Local → Prop} (u : BlockState) (k : ConstFact) l v,
      Gains dst R u (recordConst k dst l v u) := fun u k l v =>
    .frame (recordConst_writes u k dst l v) (by cases k <;> decide)
  have hnonzero : ∀ {R : Fact → Local → Prop} (u : BlockState) l v p,
      Gains dst R u (recordNonzero dst l v p u) := fun u l v p =>
    .frame (recordNonzero_writes u dst l v p) (by decide)
  cases op with
  | lt =>
    refine ((((hpair _ _).trans (hset _ (by decide))).recordSpare (by decide) ?_).trans
      (hconst _ _ _ _)).trans ((hconst _ _ _ _).trans (hnonzero _ _ _ _))
    exact fun c hc => Or.inl ⟨rfl, hc⟩
  | ge =>
    refine (((hset _ (by decide)).recordSpare (by decide) ?_).trans (hconst _ _ _ _)).trans
      ((hnonzero _ _ _ _).trans (hconst _ _ _ _))
    exact fun c hc => Or.inl ⟨rfl, hc⟩
  | le =>
    refine ((((hpair _ _).trans (hset _ (by decide))).recordSpare (by decide) ?_).trans
      (hconst _ _ _ _)).trans ((hconst _ _ _ _).trans (hnonzero _ _ _ _))
    exact fun c hc => Or.inr ⟨rfl, hc⟩
  | gt =>
    refine (((hset _ (by decide)).recordSpare (by decide) ?_).trans (hconst _ _ _ _)).trans
      ((hnonzero _ _ _ _).trans (hconst _ _ _ _))
    exact fun c hc => Or.inr ⟨rfl, hc⟩
  | eq => exact .compareEq .eqPairIfTrue (by decide) (by decide) fun c hc => ⟨rfl, hc⟩
  | ne => exact .compareEq .nePairIfTrue (by decide) (by decide) fun c hc => ⟨rfl, hc⟩
  | _ => cases hop

theorem Tells.mono (h : Tells t op op1 op2 k c)
    (hsub : ∀ a b, LenCap t a b c → LenCap s a b c) : Tells s op op1 op2 k c := by
  cases k with
  | spareIfTrue => exact h.imp (And.imp_right (hsub _ _)) (And.imp_right (hsub _ _))
  | spareIfFalse => exact h.imp (And.imp_right (hsub _ _)) (And.imp_right (hsub _ _))
  | fullIfTrue => exact ⟨h.1, h.2.imp (hsub _ _) (hsub _ _)⟩
  | fullIfFalse => exact ⟨h.1, h.2.imp (hsub _ _) (hsub _ _)⟩
  | _ => exact h.elim

/-- **What is known of a condition after a comparison** is what the comparison tells. -/
theorem tells_of_recorded (hop : op.isComparison = true)
    (hstmt : stmt.kind = .assign (Place.ofLocal dst) (.binaryOp op op1 op2))
    (hk : k ∈ Fact.capacity)
    (h : ((applyStatement tcx body stmt s).facts k).get dst = some c) :
    Tells s op op1 op2 k c := by
  have hstart : ∀ {k'}, k' ∈ .lenOf :: .capOf :: Fact.capacity →
      (enterBinaryOp op op1 op2 dst (startAssign body dst (.binaryOp op op1 op2) s)).facts k' =
        (s.facts k').erase dst := by
    intro k' hk'
    have henter : (enterBinaryOp op op1 op2 dst
        (startAssign body dst (.binaryOp op op1 op2) s)).facts k' =
        (startAssign body dst (.binaryOp op op1 op2) s).facts k' :=
      enterBinaryOp_writes _ op op1 op2 dst (.fact k') (by simp)
    have hderived : ∀ f ∈ .lenOf :: .capOf :: Fact.capacity, f ∈ Fact.derived ∧ f ≠ .refBase := by
      decide
    rw [henter, startAssign_facts body (hderived k' hk').1 (hderived k' hk').2]
  have herase : ∀ {k' l x}, k' ∈ .lenOf :: .capOf :: Fact.capacity →
      ((enterBinaryOp op op1 op2 dst (startAssign body dst (.binaryOp op op1 op2) s)).facts
        k').get l = some x → l ≠ dst ∧ (s.facts k').get l = some x := by
    intro k' l x hk' hx
    rw [hstart hk'] at hx
    exact FMap.get_erase_eq_some_iff.mp hx
  have htype : (applyStatement tcx body stmt s).facts k =
      (recordBinaryOp body op op1 op2 dst (enterBinaryOp op op1 op2 dst
        (startAssign body dst (.binaryOp op op1 op2) s))).facts k := by
    rw [applyStatement_binaryOp tcx body hstmt]
    exact enforceTypeFacts_writes _ tcx dst (body.localTy dst) (.fact k) (by simp)
  rw [htype] at h
  rcases (gains_recordBinaryOp body hop).source k hk dst c h with hold | ⟨_, htells⟩
  · exact absurd rfl (herase (List.mem_cons_of_mem _ (List.mem_cons_of_mem _ hk)) hold).1
  · refine htells.mono ?_
    rintro a b ⟨l, l', ha, hb, hlen, hcap⟩
    exact ⟨l, l', ha, hb, (herase (by decide) hlen).2, (herase (by decide) hcap).2⟩

/-- A comparison proves nothing of capacities by itself. -/
theorem mustSets_of_compare (hop : op.isComparison = true)
    (hstmt : stmt.kind = .assign (Place.ofLocal dst) (.binaryOp op op1 op2)) {m : MustSet}
    (hm : m ∈ [.hasSpare, .isFull]) :
    (applyStatement tcx body stmt s).mustSets m ⊆ s.mustSets m := by
  have hfield : ∀ F : List Field, (∀ k ∈ [MustSet.hasSpare, .isFull], Field.mustSet k ∉ F) →
      Field.mustSet m ∉ F := fun F hF => hF m hm
  have htype : ∀ u, (enforceTypeFacts tcx dst (body.localTy dst) u).mustSets m = u.mustSets m :=
    fun u => enforceTypeFacts_writes u tcx dst _ (.mustSet m) (hfield _ (by decide))
  have hrecord : ∀ u, (recordBinaryOp body op op1 op2 dst u).mustSets m = u.mustSets m := fun u =>
    recordBinaryOp_compared u body hop op1 op2 dst (.mustSet m) (hfield _ (by decide))
  have henter : ∀ u, (enterBinaryOp op op1 op2 dst u).mustSets m = u.mustSets m := fun u =>
    enterBinaryOp_writes u op op1 op2 dst (.mustSet m) (hfield _ (by decide))
  have hbase : ∀ u, (recordRefBase dst (.binaryOp op op1 op2) u).mustSets m = u.mustSets m :=
    fun u => recordRefBase_writes u dst _ (.mustSet m) (hfield _ (by decide))
  have howner : (s.invalidateOwner dst).mustSets m = s.mustSets m :=
    s.invalidateOwners_writes {dst} (.mustSet m) (hfield _ (by decide))
  rw [applyStatement_binaryOp tcx body hstmt, htype, hrecord, henter, startAssign, hbase,
    redefine_mustSets, howner]
  split
  · exact Finset.erase_subset _ _
  · exact Finset.Subset.refl _

end Comparisons

/-! ## What a guard on the capacity proves -/

/-- The lengths and capacities that the operand holds are those of the collections. -/
def Current (body : Body) (s : BlockState) (σ : Store) (len cap : Local → Nat) (op : Operand) :
    Prop :=
  ∀ l, operandLocal op = some l →
    (∀ c, (s.facts .lenOf).get l = some c → body.localTy l = .uint .usize ∧ σ l = len c) ∧
    (∀ c, (s.facts .capOf).get l = some c → body.localTy l = .uint .usize ∧ σ l = cap c)

/-- What a recorded fact says of a collection, for a condition that holds `w`. -/
def Fact.Says (w len cap : Nat) : Fact → Prop
  | .spareIfTrue => w ≠ 0 → len < cap
  | .spareIfFalse => w = 0 → len < cap
  | .fullIfTrue => w ≠ 0 → len = cap
  | .fullIfFalse => w = 0 → len = cap
  | _ => True

section Capacity
variable {body : Body} {s : BlockState} {σ : Store} {len cap : Local → Nat} {op : BinOp}
  {op1 op2 : Operand} {w : Nat} {k : Fact} {c : Local}

/-- The outcome of a comparison of a length with a capacity. -/
theorem Outcome.of_lenCap (h : Outcome body σ op op1 op2 w) (h1 : Current body s σ len cap op1)
    (h2 : Current body s σ len cap op2) (hc : LenCap s op1 op2 c) :
    ∃ ty, ∀ r, op.result ty (.uint .usize) (len c) (cap c) = some r → w = r := by
  obtain ⟨hop, ty, _, x, y, hx, hy, _, hres⟩ := h
  obtain ⟨l, l', hl, hl', hlen, hcap⟩ := hc
  obtain ⟨hty, hvlen⟩ := (h1 l hl).1 c hlen
  have hvcap := ((h2 l' hl').2 c hcap).2
  refine ⟨ty, fun r hr => hres r ?_⟩
  rw [hx.of_local hl, hy.of_local hl', operandsTy_left hl, hty, hvlen, hvcap]
  exact hr

/-- The same with the operands the other way around. -/
theorem Outcome.of_capLen (h : Outcome body σ op op1 op2 w) (h1 : Current body s σ len cap op1)
    (h2 : Current body s σ len cap op2) (hc : LenCap s op2 op1 c) :
    ∃ ty, ∀ r, op.result ty (.uint .usize) (cap c) (len c) = some r → w = r := by
  obtain ⟨hop, ty, _, x, y, hx, hy, _, hres⟩ := h
  obtain ⟨l, l', hl, hl', hlen, hcap⟩ := hc
  obtain ⟨hty, hvcap⟩ := (h1 l' hl').2 c hcap
  have hvlen := ((h2 l hl).1 c hlen).2
  refine ⟨ty, fun r hr => hres r ?_⟩
  rw [hx.of_local hl', hy.of_local hl, operandsTy_left hl', hty, hvlen, hvcap]
  exact hr

theorem flag_eq_zero {p : Prop} [Decidable p] : flag p = 0 ↔ ¬ p :=
  not_iff_not.mp (flag_ne_zero.trans not_not.symm)

theorem toInt_usize (v : Nat) : (Ty.uint .usize).toInt v = v := Ty.toInt_of_unsigned rfl v

/-- **What a comparison tells is true.** -/
theorem Tells.holds (h : Tells s op op1 op2 k c) (hw : Outcome body σ op op1 op2 w)
    (h1 : Current body s σ len cap op1) (h2 : Current body s σ len cap op2) :
    k.Says w (len c) (cap c) := by
  cases k with
  | spareIfTrue =>
    intro hne
    rcases h with ⟨rfl, hc⟩ | ⟨rfl, hc⟩
    · obtain ⟨ty, hres⟩ := hw.of_lenCap h1 h2 hc
      rw [hres _ rfl, flag_ne_zero, toInt_usize, toInt_usize] at hne
      exact Int.ofNat_lt.mp hne
    · obtain ⟨ty, hres⟩ := hw.of_capLen h1 h2 hc
      rw [hres _ rfl, flag_ne_zero, toInt_usize, toInt_usize] at hne
      exact Int.ofNat_lt.mp hne
  | spareIfFalse =>
    intro hzero
    rcases h with ⟨rfl, hc⟩ | ⟨rfl, hc⟩
    · obtain ⟨ty, hres⟩ := hw.of_lenCap h1 h2 hc
      rw [hres _ rfl, flag_eq_zero, toInt_usize, toInt_usize] at hzero
      exact Int.ofNat_lt.mp (Int.not_le.mp hzero)
    · obtain ⟨ty, hres⟩ := hw.of_capLen h1 h2 hc
      rw [hres _ rfl, flag_eq_zero, toInt_usize, toInt_usize] at hzero
      exact Int.ofNat_lt.mp (Int.not_le.mp hzero)
  | fullIfTrue =>
    intro hne
    obtain ⟨rfl, hc | hc⟩ := h
    · obtain ⟨ty, hres⟩ := hw.of_lenCap h1 h2 hc
      rwa [hres _ rfl, flag_ne_zero] at hne
    · obtain ⟨ty, hres⟩ := hw.of_capLen h1 h2 hc
      rw [hres _ rfl, flag_ne_zero] at hne
      exact hne.symm
  | fullIfFalse =>
    intro hzero
    obtain ⟨rfl, hc | hc⟩ := h
    · obtain ⟨ty, hres⟩ := hw.of_lenCap h1 h2 hc
      rw [hres _ rfl, flag_eq_zero] at hzero
      exact not_not.mp hzero
    · obtain ⟨ty, hres⟩ := hw.of_capLen h1 h2 hc
      rw [hres _ rfl, flag_eq_zero] at hzero
      exact (not_not.mp hzero).symm
  | _ => trivial

/-- The state on the edge that a guard takes: `dst` is computed, switched on, and holds `w`. -/
def guardEdge (tcx : TyCtxt) (body : Body) (stmt : Statement) {n : Nat} (discr : Operand)
    (e t : Fin n) (span : Span) (w : Nat) (s : BlockState) : BlockState :=
  refineSwitchintEdge ⟨.switchInt discr ⟨[(0, e)], t⟩, span⟩
    (SwitchTargets.select ⟨[(0, e)], t⟩ w) (applyStatement tcx body stmt s)

/-- The facts that are drained for a condition that holds `w`. -/
def feedsOf (w : Nat) : List (Fact × MustSet) := if w = 0 then falseFeeds else trueFeeds

/-- **What a guard adds** is what its comparison tells, on the edge that is taken. -/
theorem mem_guardEdge {tcx : TyCtxt} {stmt : Statement} {dst : Local} {n : Nat} {discr : Operand}
    {e t : Fin n} {span : Span} (hop : op.isComparison = true)
    (hstmt : stmt.kind = .assign (Place.ofLocal dst) (.binaryOp op op1 op2))
    (hdiscr : operandLocal discr = some dst) {m : MustSet} (hm : m ∈ [.hasSpare, .isFull])
    (hc : c ∈ (guardEdge tcx body stmt discr e t span w s).mustSets m) :
    c ∈ s.mustSets m ∨ ∃ k, (k, m) ∈ feedsOf w ∧ Tells s op op1 op2 k c := by
  have hold : c ∈ (applyStatement tcx body stmt s).mustSets m → c ∈ s.mustSets m := fun h =>
    mustSets_of_compare hop hstmt hm h
  have hfeeds : ∀ w, ∀ f ∈ feedsOf w, f.2 ∈ [MustSet.hasSpare, .isFull] → f.1 ∈ Fact.capacity := by
    intro w
    unfold feedsOf
    split <;> decide
  have hdrained : ∀ {u}, Drained (applyStatement tcx body stmt s) dst (feedsOf w) u →
      c ∈ u.mustSets m → c ∈ s.mustSets m ∨ ∃ k, (k, m) ∈ feedsOf w ∧ Tells s op op1 op2 k c := by
    intro u hu hmem
    rcases (hu.mem_iff m c).mp hmem with h | ⟨k, hk, hget⟩
    · exact Or.inl (hold h)
    · exact Or.inr ⟨k, hk, tells_of_recorded hop hstmt (hfeeds w _ hk hm) hget⟩
  unfold guardEdge refineSwitchintEdge at hc
  dsimp only at hc
  rw [hdiscr, edgePolarity_select] at hc
  by_cases het : e = t
  · rw [if_pos het] at hc
    exact Or.inl (hold hc)
  · rw [if_neg het] at hc
    by_cases hw : w = 0
    · rw [decide_eq_false (not_not.mpr hw)] at hc
      refine hdrained ?_ hc
      rw [feedsOf, if_pos hw]
      exact refineFalseEdge_drained dst _
    · rw [decide_eq_true hw] at hc
      refine hdrained ?_ hc
      rw [feedsOf, if_neg hw]
      exact refineTrueEdge_drained dst _

theorem Tells.lenCap (h : Tells s op op1 op2 k c) : LenCap s op1 op2 c ∨ LenCap s op2 op1 c := by
  cases k with
  | spareIfTrue => exact h.imp And.right And.right
  | spareIfFalse => exact h.imp And.right And.right
  | fullIfTrue => exact h.2
  | fullIfFalse => exact h.2
  | _ => exact h.elim

/-- What the facts say holds on the edge on which they are drained. -/
theorem Fact.Says.of_feed {len cap : Nat} (h : k.Says w len cap) {m : MustSet}
    (hk : (k, m) ∈ feedsOf w) : (m = .hasSpare → len < cap) ∧ (m = .isFull → len = cap) := by
  have hfalse : ∀ f ∈ falseFeeds, (f.2 = .hasSpare → f.1 = .spareIfFalse) ∧
      (f.2 = .isFull → f.1 = .fullIfFalse) := by decide
  have htrue : ∀ f ∈ trueFeeds, (f.2 = .hasSpare → f.1 = .spareIfTrue) ∧
      (f.2 = .isFull → f.1 = .fullIfTrue) := by decide
  unfold feedsOf at hk
  split at hk
  · rename_i hw
    refine ⟨fun hm => ?_, fun hm => ?_⟩
    · cases (hfalse _ hk).1 hm
      exact h hw
    · cases (hfalse _ hk).2 hm
      exact h hw
  · rename_i hw
    refine ⟨fun hm => ?_, fun hm => ?_⟩
    · cases (htrue _ hk).1 hm
      exact h hw
    · cases (htrue _ hk).2 hm
      exact h hw

end Capacity

/-- Guards on a length and a capacity add nothing wrong: on the edge that is taken, a collection
has spare capacity or is full only if it was known before or if it is; and the comparison of the
length of one collection with the capacity of another one adds nothing. -/
def GuardsSound (tcx : TyCtxt) (body : Body) : Prop :=
  ∀ (s : BlockState) (σ : Store) (len cap : Local → Nat) (op : BinOp) (op1 op2 : Operand)
    (dst : Local) (stmt : Statement) (n : Nat) (discr : Operand) (e t : Fin n) (span : Span)
    (w : Nat), stmt.kind = .assign (Place.ofLocal dst) (.binaryOp op op1 op2) →
    Outcome body σ op op1 op2 w → Current body s σ len cap op1 → Current body s σ len cap op2 →
    operandLocal discr = some dst →
    (∀ c ∈ (guardEdge tcx body stmt discr e t span w s).mustSets .hasSpare,
      c ∈ s.mustSets .hasSpare ∨ len c < cap c) ∧
    (∀ c ∈ (guardEdge tcx body stmt discr e t span w s).mustSets .isFull,
      c ∈ s.mustSets .isFull ∨ len c = cap c) ∧
    ((∀ c, ¬ LenCap s op1 op2 c ∧ ¬ LenCap s op2 op1 c) → ∀ m ∈ [MustSet.hasSpare, .isFull],
      (guardEdge tcx body stmt discr e t span w s).mustSets m ⊆ s.mustSets m)

theorem guards_sound (tcx : TyCtxt) (body : Body) : GuardsSound tcx body := by
  intro s σ len cap op op1 op2 dst stmt n discr e t span w hstmt hw h1 h2 hdiscr
  have hadd : ∀ {m c}, m ∈ [MustSet.hasSpare, .isFull] →
      c ∈ (guardEdge tcx body stmt discr e t span w s).mustSets m →
      c ∈ s.mustSets m ∨ ∃ k, (k, m) ∈ feedsOf w ∧ Tells s op op1 op2 k c := fun hm hc =>
    mem_guardEdge hw.1 hstmt hdiscr hm hc
  refine ⟨fun c hc => ?_, fun c hc => ?_, fun hnone m hm c hc => ?_⟩
  · refine (hadd (by decide) hc).imp_right ?_
    rintro ⟨k, hk, htells⟩
    exact ((htells.holds hw h1 h2).of_feed hk).1 rfl
  · refine (hadd (by decide) hc).imp_right ?_
    rintro ⟨k, hk, htells⟩
    exact ((htells.holds hw h1 h2).of_feed hk).2 rfl
  · rcases hadd hm hc with hold | ⟨k, _, htells⟩
    · exact hold
    · exact (htells.lenCap.elim (hnone c).1 (hnone c).2).elim

/-! ## Checkers that ask for spare capacity -/

namespace PushUnchecked

/-- The operations, each with what is said about it. -/
def notes : List (String × String) :=
  [("push_unchecked",
      "collection must have remaining capacity (len < capacity) before this call; " ++
      "writing to a full collection is an out-of-bounds write (immediate UB); " ++
      "use the checked push() which panics or returns an error on overflow"),
    ("try_push_unchecked",
      "collection must have remaining capacity before this call; " ++
      "the _unchecked variant skips the capacity assertion entirely — " ++
      "out-of-bounds write if the collection is already at capacity (UB)"),
    ("pop_unchecked",
      "collection must be non-empty before this call; popping from an empty " ++
      "collection reads uninitialized or out-of-bounds memory (immediate UB); " ++
      "use pop() which returns Option and checks the length")]

/-- What the checker says about one call. -/
def checkCall (path : String) (call : CallSite) (state : Option BlockState) : Option Finding :=
  reportNoted "push_unchecked" notes path call
    (state.any fun s => (firstArgLocal call.args).any s.collectionHasSpare)

def check (tcx : TyCtxt) {body : Body} (flow : FlowResults body) : List Finding :=
  checkCalls tcx flow checkCall

end PushUnchecked

namespace HeaplessUnchecked

/-- The operations, each with what is said about it. -/
def notes : List (String × String) :=
  [("swap_remove_unchecked",
      "no bounds check on index — if index >= len, this reads/writes past the " ++
      "end of the inline array (OOB, immediate UB); use swap_remove() which " ++
      "panics on out-of-bounds"),
    ("push_front_unchecked",
      "no capacity check — if len == N, pushes past the end of the ring buffer " ++
      "(OOB write, immediate UB); use push_front() → Result"),
    ("push_back_unchecked",
      "no capacity check — if len == N, pushes past the end of the ring buffer " ++
      "(OOB write, immediate UB); use push_back() → Result"),
    ("pop_front_unchecked",
      "no empty check — if the deque is empty this reads uninitialized memory " ++
      "(immediate UB); use pop_front() → Option<T>"),
    ("pop_back_unchecked",
      "no empty check — if the deque is empty this reads uninitialized memory " ++
      "(immediate UB); use pop_back() → Option<T>"),
    ("enqueue_unchecked",
      "no capacity check — if the SPSC queue is full this writes past the end " ++
      "of the ring buffer (OOB write, immediate UB); " ++
      "use enqueue() → Result"),
    ("dequeue_unchecked",
      "no empty check — if the SPSC queue is empty this reads uninitialized " ++
      "or recycled memory (immediate UB); use dequeue() → Option<T>")]

/-- The operations that need spare capacity. -/
def spareApi (path : String) : Bool :=
  endsWithAny path ["::push_front_unchecked", "::push_back_unchecked", "::enqueue_unchecked"]

/-- Does the state prove that the call is safe? -/
def suppressed (path : String) (args : List Operand) (s : BlockState) : Bool :=
  if spareApi path then (firstArgLocal args).any s.collectionHasSpare
  else if endsWith path "::swap_remove_unchecked" then (nthArgLocal args 1).any s.localIsBounded
  else false

/-- What the checker says about one call. -/
def checkCall (path : String) (call : CallSite) (state : Option BlockState) : Option Finding :=
  reportNoted "heapless_unchecked" notes path call (state.any (suppressed path call.args))

def check (tcx : TyCtxt) {body : Body} (flow : FlowResults body) : List Finding :=
  checkCalls tcx flow checkCall

end HeaplessUnchecked

/-- The operations whose findings spare capacity suppresses. -/
inductive CapacityApi
  | push | tryPush | pop | pushFront | pushBack | enqueue
deriving DecidableEq, Repr

namespace CapacityApi

def name : CapacityApi → String
  | push => "push_unchecked"
  | tryPush => "try_push_unchecked"
  | pop => "pop_unchecked"
  | pushFront => "push_front_unchecked"
  | pushBack => "push_back_unchecked"
  | enqueue => "enqueue_unchecked"

/-- The checker that looks for the operation. -/
def checkCall : CapacityApi → String → CallSite → Option BlockState → Option Finding
  | push | tryPush | pop => PushUnchecked.checkCall
  | pushFront | pushBack | enqueue => HeaplessUnchecked.checkCall

/-- What is said about the operation: a collection that is popped must not be empty, and one that
is pushed to must not be full. -/
def Precondition (len cap : Nat) : CapacityApi → Prop
  | pop => 0 < len
  | _ => len < cap

instance decidablePrecondition (len cap : Nat) :
    ∀ api : CapacityApi, Decidable (api.Precondition len cap)
  | pop => inferInstanceAs (Decidable (0 < len))
  | push | tryPush | pushFront | pushBack | enqueue => inferInstanceAs (Decidable (len < cap))

/-- **A finding is suppressed exactly if the receiver is known to have spare capacity.** -/
theorem checkCall_eq_none_iff (api : CapacityApi) {path : String}
    (hpath : endsWith path ("::" ++ api.name) = true) (call : CallSite) (s : BlockState) :
    api.checkCall path call (some s) = none ↔
      (firstArgLocal call.args).any s.collectionHasSpare = true := by
  have hpush : api.name ∈ PushUnchecked.notes.map Prod.fst →
      (PushUnchecked.checkCall path call (some s) = none ↔
        (firstArgLocal call.args).any s.collectionHasSpare = true) := fun hmem =>
    reportNoted_eq_none_iff hmem hpath
  have hheapless : api.name ∈ HeaplessUnchecked.notes.map Prod.fst →
      HeaplessUnchecked.spareApi path = true →
      (HeaplessUnchecked.checkCall path call (some s) = none ↔
        (firstArgLocal call.args).any s.collectionHasSpare = true) := by
    intro hmem hspare
    refine (reportNoted_eq_none_iff hmem hpath).trans ?_
    rw [Option.any_some, HeaplessUnchecked.suppressed, if_pos hspare]
  have hspare : "::" ++ api.name ∈ ["::push_front_unchecked", "::push_back_unchecked",
      "::enqueue_unchecked"] → HeaplessUnchecked.spareApi path = true := fun hmem =>
    List.any_eq_true.mpr ⟨_, hmem, hpath⟩
  cases api with
  | push => exact hpush (by decide +kernel)
  | tryPush => exact hpush (by decide +kernel)
  | pop => exact hpush (by decide +kernel)
  | pushFront => exact hheapless (by decide +kernel) (hspare (by decide +kernel))
  | pushBack => exact hheapless (by decide +kernel) (hspare (by decide +kernel))
  | enqueue => exact hheapless (by decide +kernel) (hspare (by decide +kernel))

/-- Whenever spare capacity suppresses a finding, the operation is safe: `len` and `cap` are what
the receiver has, and it has spare capacity if it is known to. -/
def SuppressedSafely (api : CapacityApi) : Prop :=
  ∀ (tcx : TyCtxt) (body : Body) (flow : FlowResults body) (bb : body.BasicBlock)
    (call : CallSite) (s : BlockState) (len cap : Nat), body.callSite bb = some call →
    endsWith (tcx.defPathStr call.callee) ("::" ++ api.name) = true →
    flow.stateBeforeTerminator tcx bb = some s → len ≤ cap →
    (∀ recv, firstArgLocal call.args = some recv → s.collectionHasSpare recv = true → len < cap) →
    checkCallIn tcx flow api.checkCall bb = none → api.Precondition len cap

end CapacityApi

/-- A function that pops from `_1`. -/
def popsOnce : Body :=
  .ofBlocks 1 1 [.other, .other] 1
    (fun bb => [.of [] (.callTo 0 [.ofNat 1] 0 (bb 1)), .of [] .return]) (by decide)

/-- The state in which `_1` is known to have spare capacity. -/
def knownSpare : BlockState := BlockState.default.insertMust .hasSpare (Local.ofNat 1)

/-- An empty collection has spare capacity, and is popped without a finding. -/
theorem pop_of_empty_suppressed :
    checkCallIn (.ofPaths ["arrayvec::ArrayVec::pop_unchecked"])
      (⟨fun _ => some knownSpare, ∅⟩ : FlowResults popsOnce) CapacityApi.pop.checkCall (0 : Fin 2) =
        none ∧
      knownSpare.collectionHasSpare (Local.ofNat 1) = true ∧ ¬ CapacityApi.pop.Precondition 0 1 :=
  ⟨by decide +kernel, by decide, by decide⟩

/-- **When guards on the capacity are consumed correctly.**  Guards are always recorded correctly,
and the findings that they suppress are for safe calls exactly if the operation does not pop. -/
theorem capacity_guards_sound_iff (tcx : TyCtxt) (body : Body) (api : CapacityApi) :
    (GuardsSound tcx body ∧ api.SuppressedSafely) ↔ api ≠ .pop := by
  constructor
  · rintro ⟨_, h⟩ rfl
    have hsafe := h (.ofPaths ["arrayvec::ArrayVec::pop_unchecked"]) popsOnce
      ⟨fun _ => some knownSpare, ∅⟩ (0 : Fin 2) ⟨⟨0, 0⟩, [.ofNat 1], Place.ofLocal ⟨0⟩, .none⟩
      knownSpare 0 1 rfl (by decide +kernel) rfl (by decide) (fun _ _ _ => by decide)
      (by decide +kernel)
    exact absurd hsafe (by decide)
  · refine fun hne => ⟨guards_sound tcx body, ?_⟩
    intro tcx body flow bb call s len cap hcall hpath hs hle hspare hnone
    rw [checkCallIn_eq hcall hs, api.checkCall_eq_none_iff hpath, Option.any_eq_true] at hnone
    obtain ⟨recv, hrecv, hknown⟩ := hnone
    cases api with
    | pop => exact absurd rfl hne
    | _ => exact hspare recv hrecv hknown

end San
