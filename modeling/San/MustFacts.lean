import San.Liveness

/-! # What is proven on every path

The must-domains (`bounded`, `nonzero`, `const_upper`, …) are meant to hold what is
proven on *all* paths to a program point.  They are joined by intersection, but they
are fed from conditional facts that are joined by union with the first value winning,
so a fact that one predecessor recorded about a temporary can be drained after the
merge although the other predecessor never proved it.

`MustSim` relates a merged state to the state of one path: the path proves whatever
the merged state proves, and the two have the same conditional facts at the locals
that matter.  Every transfer function respects it.  Hence the must-domains are sound
for all paths in every run whose merges agree on the conditional facts of live locals
(`proven_on_paths`), and only there (`drained_fact_unsound`).
-/
namespace San

theorem Fact.not_comparison {k : Fact} (hk : k ∈ Fact.derived) : k ∉ Fact.comparisons := by
  have hall : ∀ k ∈ Fact.derived, k ∉ Fact.comparisons := by decide
  exact hall k hk

/-! ## The relation -/

/-- `t` proves whatever `s` proves. -/
structure ProvenIn (s t : BlockState) : Prop where
  mustSets : ∀ k, k ≠ .bufWritten → s.mustSets k ⊆ t.mustSets k
  mustPairs : ∀ k, s.mustPairs k ⊆ t.mustPairs k
  constUpper : FMap.Within (· ≤ ·) s.constUpper t.constUpper
  constLower : FMap.Within (· ≥ ·) s.constLower t.constLower

/-- The comparison facts agree at `C`, the other conditional facts at `D`. -/
structure SameFacts (C D : Finset Local) (s t : BlockState) : Prop where
  comparisons : ∀ k ∈ Fact.comparisons, FMap.AgreeOn C (s.facts k) (t.facts k)
  derived : ∀ k ∈ Fact.derived, FMap.AgreeOn D (s.facts k) (t.facts k)
  pairFacts : ∀ k, FMap.AgreeOn D (s.pairFacts k) (t.pairFacts k)
  constFacts : ∀ k, FMap.AgreeOn D (s.constFacts k) (t.constFacts k)
  fnPtrTargets : s.fnPtrTargets = t.fnPtrTargets

instance (C D : Finset Local) (s t : BlockState) : Decidable (SameFacts C D s t) :=
  decidable_of_iff ((∀ k ∈ Fact.comparisons, FMap.AgreeOn C (s.facts k) (t.facts k)) ∧
      (∀ k ∈ Fact.derived, FMap.AgreeOn D (s.facts k) (t.facts k)) ∧
      (∀ k ∈ PairFact.all, FMap.AgreeOn D (s.pairFacts k) (t.pairFacts k)) ∧
      (∀ k ∈ ConstFact.all, FMap.AgreeOn D (s.constFacts k) (t.constFacts k)) ∧
      s.fnPtrTargets = t.fnPtrTargets)
    ⟨fun ⟨hcmp, hderived, hpair, hconst, hfn⟩ =>
      ⟨hcmp, hderived, fun k => hpair k (PairFact.mem_all k), fun k => hconst k (ConstFact.mem_all k),
        hfn⟩,
      fun h => ⟨h.comparisons, h.derived, fun k _ => h.pairFacts k, fun k _ => h.constFacts k,
        h.fnPtrTargets⟩⟩

/-- The relation between a merged state `s` and the state `t` of one path. -/
structure MustSim (B C D : Finset Local) (s t : BlockState) : Prop where
  facts : SameFacts C D s t
  proven : ProvenIn s t
  refs : RefsInto B s

namespace MustSim
variable {B C D C' D' : Finset Local} {s t s' t' : BlockState} {l dst src : Local}

/-- The fields the relation is about. -/
def fields : List Field :=
  Fact.all.map .fact ++ PairFact.all.map .pairFact ++ ConstFact.all.map .constFact ++
    (MustSet.all.erase .bufWritten).map .mustSet ++ MustPairs.all.map .mustPairs ++
    [.fnPtrTargets, .constUpper, .constLower]

/-- Stages that write none of these fields keep the relation. -/
theorem frame {F : List Field} (h : MustSim B C D s t) (hs : Writes F s s') (ht : Writes F t t')
    (hF : ∀ f ∈ fields, f ∉ F) : MustSim B C D s' t' := by
  have hfact : ∀ k, s'.facts k = s.facts k ∧ t'.facts k = t.facts k := fun k =>
    have hk := hF (.fact k) (by cases k <;> decide)
    ⟨hs _ hk, ht _ hk⟩
  have hpair : ∀ k, s'.pairFacts k = s.pairFacts k ∧ t'.pairFacts k = t.pairFacts k := fun k =>
    have hk := hF (.pairFact k) (by cases k <;> decide)
    ⟨hs _ hk, ht _ hk⟩
  have hconst : ∀ k, s'.constFacts k = s.constFacts k ∧ t'.constFacts k = t.constFacts k :=
    fun k =>
    have hk := hF (.constFact k) (by cases k <;> decide)
    ⟨hs _ hk, ht _ hk⟩
  have hset : ∀ k, k ≠ .bufWritten →
      s'.mustSets k = s.mustSets k ∧ t'.mustSets k = t.mustSets k := fun k hne =>
    have hk := hF (.mustSet k) (by cases k <;> first | decide | exact absurd rfl hne)
    ⟨hs _ hk, ht _ hk⟩
  have hpairs : ∀ k, s'.mustPairs k = s.mustPairs k ∧ t'.mustPairs k = t.mustPairs k := fun k =>
    have hk := hF (.mustPairs k) (by cases k <;> decide)
    ⟨hs _ hk, ht _ hk⟩
  have hfn := hF .fnPtrTargets (by decide)
  have hupper := hF .constUpper (by decide)
  have hlower := hF .constLower (by decide)
  refine ⟨⟨fun k hk => ?_, fun k hk => ?_, fun k => ?_, fun k => ?_, ?_⟩,
    ⟨fun k hk => ?_, fun k => ?_, ?_, ?_⟩, ?_⟩
  · rw [(hfact k).1, (hfact k).2]; exact h.facts.comparisons k hk
  · rw [(hfact k).1, (hfact k).2]; exact h.facts.derived k hk
  · rw [(hpair k).1, (hpair k).2]; exact h.facts.pairFacts k
  · rw [(hconst k).1, (hconst k).2]; exact h.facts.constFacts k
  · rw [show s'.fnPtrTargets = _ from hs _ hfn, show t'.fnPtrTargets = _ from ht _ hfn]
    exact h.facts.fnPtrTargets
  · rw [(hset k hk).1, (hset k hk).2]; exact h.proven.mustSets k hk
  · rw [(hpairs k).1, (hpairs k).2]; exact h.proven.mustPairs k
  · rw [show s'.constUpper = _ from hs _ hupper, show t'.constUpper = _ from ht _ hupper]
    exact h.proven.constUpper
  · rw [show s'.constLower = _ from hs _ hlower, show t'.constLower = _ from ht _ hlower]
    exact h.proven.constLower
  · unfold RefsInto
    rw [(hfact .refBase).1]
    exact h.refs

theorem mono (h : MustSim B C D s t) (hC : C' ⊆ C) (hD : D' ⊆ D) : MustSim B C' D' s t :=
  { h with
    facts :=
      { h.facts with
        comparisons := fun k hk => (h.facts.comparisons k hk).mono hC
        derived := fun k hk => (h.facts.derived k hk).mono hD
        pairFacts := fun k => (h.facts.pairFacts k).mono hD
        constFacts := fun k => (h.facts.constFacts k).mono hD } }

/-! ## Named updates -/

theorem onMustSets (h : MustSim B C D s t) (ks : List MustSet) {f : Finset Local → Finset Local}
    (hf : Monotone f) : MustSim B C D (s.onMustSets ks f) (t.onMustSets ks f) := by
  refine { h with proven := { h.proven with mustSets := fun k hk => ?_ }, facts := { h.facts with } }
  dsimp only [BlockState.onMustSets]
  split
  · exact hf (h.proven.mustSets k hk)
  · exact h.proven.mustSets k hk

theorem onMustPairs (h : MustSim B C D s t) (ks : List MustPairs)
    {f : Finset (Local × Local) → Finset (Local × Local)} (hf : Monotone f) :
    MustSim B C D (s.onMustPairs ks f) (t.onMustPairs ks f) := by
  refine { h with proven := { h.proven with mustPairs := fun k => ?_ }, facts := { h.facts with } }
  dsimp only [BlockState.onMustPairs]
  split
  · exact hf (h.proven.mustPairs k)
  · exact h.proven.mustPairs k

theorem insertMust (h : MustSim B C D s t) (k : MustSet) (l : Local) :
    MustSim B C D (s.insertMust k l) (t.insertMust k l) :=
  h.onMustSets [k] fun _ _ hmn => Finset.insert_subset_insert l hmn

theorem eraseMust (h : MustSim B C D s t) (ks : List MustSet) (l : Local) :
    MustSim B C D (s.onMustSets ks (·.erase l)) (t.onMustSets ks (·.erase l)) :=
  h.onMustSets ks fun _ _ hmn => Finset.erase_subset_erase l hmn

theorem onComparisons (h : MustSim B C D s t) {f : FMap Local Local → FMap Local Local}
    (hf : ∀ m n, FMap.AgreeOn C m n → FMap.AgreeOn C' (f m) (f n)) :
    MustSim B C' D (s.onFacts Fact.comparisons f) (t.onFacts Fact.comparisons f) := by
  refine ⟨{ h.facts with comparisons := fun k hk => ?_, derived := fun k hk => ?_ },
    { h.proven with }, ?_⟩
  · dsimp only [BlockState.onFacts]
    rw [if_pos hk, if_pos hk]
    exact hf _ _ (h.facts.comparisons k hk)
  · dsimp only [BlockState.onFacts]
    rw [if_neg (Fact.not_comparison hk), if_neg (Fact.not_comparison hk)]
    exact h.facts.derived k hk
  · exact h.refs

/-- Rewriting one comparison fact keeps the comparison facts in agreement. -/
theorem onComparison (h : MustSim B C D s t) {k : Fact} (hk : k ∈ Fact.comparisons)
    {f : FMap Local Local → FMap Local Local}
    (hf : ∀ m n, FMap.AgreeOn C m n → FMap.AgreeOn C (f m) (f n)) :
    MustSim B C D (s.onFacts [k] f) (t.onFacts [k] f) := by
  have hderived : ∀ j ∈ Fact.derived, j ∉ [k] := by
    intro j hj hjk
    rw [List.mem_singleton.mp hjk] at hj
    exact Fact.not_comparison hj hk
  refine ⟨{ h.facts with comparisons := fun j hj => ?_, derived := fun j hj => ?_ },
    { h.proven with }, ?_⟩
  · dsimp only [BlockState.onFacts]
    split
    · exact hf _ _ (h.facts.comparisons j hj)
    · exact h.facts.comparisons j hj
  · dsimp only [BlockState.onFacts]
    rw [if_neg (hderived j hj), if_neg (hderived j hj)]
    exact h.facts.derived j hj
  · unfold RefsInto BlockState.onFacts
    dsimp only
    rw [if_neg (hderived .refBase (by decide))]
    exact h.refs

/-- Rewriting derived facts other than `ref_base`. -/
theorem onDerived (h : MustSim B C D s t) {k : Fact} (hk : k ∈ Fact.derived) (hne : k ≠ .refBase)
    {f : FMap Local Local → FMap Local Local}
    (hf : ∀ m n, FMap.AgreeOn D m n → FMap.AgreeOn D (f m) (f n)) :
    MustSim B C D (s.onFacts [k] f) (t.onFacts [k] f) := by
  have hcomparisons : ∀ j ∈ Fact.comparisons, j ∉ [k] := by
    intro j hj hjk
    rw [List.mem_singleton.mp hjk] at hj
    exact Fact.not_comparison hk hj
  refine ⟨{ h.facts with comparisons := fun j hj => ?_, derived := fun j hj => ?_ },
    { h.proven with }, ?_⟩
  · dsimp only [BlockState.onFacts]
    rw [if_neg (hcomparisons j hj), if_neg (hcomparisons j hj)]
    exact h.facts.comparisons j hj
  · dsimp only [BlockState.onFacts]
    split
    · exact hf _ _ (h.facts.derived j hj)
    · exact h.facts.derived j hj
  · unfold RefsInto BlockState.onFacts
    dsimp only
    rw [if_neg fun hm => hne (List.mem_singleton.mp hm).symm]
    exact h.refs

theorem insertFact (h : MustSim B C D s t) {k : Fact} (hk : k ∈ Fact.derived) (hne : k ≠ .refBase)
    (l v : Local) : MustSim B C D (s.insertFact k l v) (t.insertFact k l v) :=
  h.onDerived hk hne fun _ _ hmn => (hmn.insert l v).mono (Finset.subset_insert l D)

theorem insertRefBase (h : MustSim B C D s t) {base : Local} (hbase : base ∈ B) (l : Local) :
    MustSim B C D (s.insertFact .refBase l base) (t.insertFact .refBase l base) := by
  refine ⟨{ h.facts with comparisons := fun j hj => ?_, derived := fun j hj => ?_ },
    { h.proven with }, ?_⟩
  · have hne : j ∉ [Fact.refBase] := fun hm =>
      Fact.not_comparison (by decide) (List.mem_singleton.mp hm ▸ hj)
    dsimp only [BlockState.insertFact, BlockState.onFacts]
    rw [if_neg hne, if_neg hne]
    exact h.facts.comparisons j hj
  · dsimp only [BlockState.insertFact, BlockState.onFacts]
    split
    · exact ((h.facts.derived j hj).insert l base).mono (Finset.subset_insert l D)
    · exact h.facts.derived j hj
  · intro x b hb
    have hb : ((s.facts .refBase).insert l base).get x = some b := hb
    rw [FMap.get_insert] at hb
    split at hb
    · cases hb
      exact hbase
    · exact h.refs x b hb

theorem onPairFact (h : MustSim B C D s t) (k : PairFact)
    {f : FMap Local (Local × Local) → FMap Local (Local × Local)}
    (hf : ∀ m n, FMap.AgreeOn D m n → FMap.AgreeOn D (f m) (f n)) :
    MustSim B C D (s.onPairFacts [k] f) (t.onPairFacts [k] f) := by
  refine ⟨{ h.facts with pairFacts := fun j => ?_ }, { h.proven with }, h.refs⟩
  dsimp only [BlockState.onPairFacts]
  split
  · exact hf _ _ (h.facts.pairFacts j)
  · exact h.facts.pairFacts j

theorem insertConstFact (h : MustSim B C D s t) (k : ConstFact) (l : Local) (v : Local × U64) :
    MustSim B C D (s.onConstFacts [k] (·.insert l v)) (t.onConstFacts [k] (·.insert l v)) := by
  refine ⟨{ h.facts with constFacts := fun j => ?_ }, { h.proven with }, h.refs⟩
  dsimp only [BlockState.onConstFacts]
  split
  · exact ((h.facts.constFacts j).insert l v).mono (Finset.subset_insert l D)
  · exact h.facts.constFacts j

/-! ### Bounds -/

theorem u64_le_max (v : U64) : v ≤ u64Max := Fin.le_def.mpr (Nat.le_of_lt_succ v.isLt)

/-- A bound known on the path is at least as tight, `u64::MAX` standing for none. -/
theorem upper_getD_le (h : MustSim B C D s t) (l : Local) :
    (t.constUpper.get l).getD u64Max ≤ (s.constUpper.get l).getD u64Max := by
  cases hs : s.constUpper.get l with
  | none => exact u64_le_max _
  | some v =>
      obtain ⟨w, hw, hle⟩ := h.proven.constUpper l v hs
      rw [hw]
      exact hle

theorem lower_getD_le (h : MustSim B C D s t) (l : Local) :
    (s.constLower.get l).getD 0 ≤ (t.constLower.get l).getD 0 := by
  cases hs : s.constLower.get l with
  | none => exact Fin.zero_le _
  | some v =>
      obtain ⟨w, hw, hle⟩ := h.proven.constLower l v hs
      rw [hw]
      exact hle

/-- `o'` bounds at least as tightly as `o`. -/
def Tighter (o' o : Option U64) : Prop := ∀ u, o = some u → ∃ u', o' = some u' ∧ u' ≤ u

theorem Tighter.refl (o : Option U64) : Tighter o o := fun u hu => ⟨u, hu, le_refl u⟩

theorem boundAboveBy (h : MustSim B C D s t) (l : Local) {o o' : Option U64} (ho : Tighter o' o) :
    MustSim B C D (s.boundAboveBy l o) (t.boundAboveBy l o') := by
  -- bounding the path alone only tightens its bounds
  have hright : ∀ u, FMap.Within (· ≤ ·) s.constUpper (t.boundAbove l u).constUpper := by
    intro u
    refine h.proven.constUpper.insert_right l fun v hv => ?_
    obtain ⟨w, hw, hle⟩ := h.proven.constUpper l v hv
    rw [hw]
    exact le_trans (min_le_left w u) hle
  cases o with
  | none =>
      cases o' with
      | none => exact h
      | some u' => exact ⟨{ h.facts with }, { h.proven with constUpper := hright u' }, h.refs⟩
  | some u =>
      obtain ⟨u', rfl, hle⟩ := ho u rfl
      refine ⟨{ h.facts with }, { h.proven with constUpper := ?_ }, h.refs⟩
      exact h.proven.constUpper.insert l (min_le_min (h.upper_getD_le l) hle)

theorem boundBelow (h : MustSim B C D s t) (l : Local) (lb : U64) :
    MustSim B C D (s.boundBelow l lb) (t.boundBelow l lb) := by
  refine ⟨{ h.facts with }, { h.proven with constLower := ?_ }, h.refs⟩
  exact h.proven.constLower.insert l (max_le_max (h.lower_getD_le l) (le_refl lb))

theorem setConstant (h : MustSim B C D s t) (l : Local) (val : U64) :
    MustSim B C D (s.setConstant l val) (t.setConstant l val) := by
  refine ⟨{ h.facts with }, { h.proven with constUpper := ?_, constLower := ?_ }, h.refs⟩
  · exact h.proven.constUpper.insert l (le_refl val)
  · exact h.proven.constLower.insert l (le_refl val)

/-! ## Statements -/

theorem enforceTypeFacts (h : MustSim B C D s t) (tcx : TyCtxt) (l : Local) (ty : Ty) :
    MustSim B C D (enforceTypeFacts tcx l ty s) (enforceTypeFacts tcx l ty t) := by
  unfold San.enforceTypeFacts
  refine boundAboveBy ?_ l (Tighter.refl _)
  split
  · exact h.insertMust .nonzero l
  · exact h

/-- **A redefinition makes the derived facts of its local agree.** -/
theorem clearRedefined (h : MustSim B C D s t) (l : Local) :
    MustSim B C (insert l D) (s.clearRedefined l) (t.clearRedefined l) := by
  have hfn : ∀ u : BlockState, (u.clearRedefined l).fnPtrTargets = u.fnPtrTargets :=
    fun u => u.clearRedefined_writes l .fnPtrTargets (by decide)
  refine ⟨⟨fun k hk => ?_, fun k hk => ?_, fun k => ?_, fun k => ?_, ?_⟩,
    ⟨fun k hk => ?_, fun k => ?_, ?_, ?_⟩, fun x b hb => ?_⟩
  · have hne : k ∉ Fact.derived := fun hd => Fact.not_comparison hd hk
    rw [s.clearRedefined_facts, t.clearRedefined_facts, if_neg hne, if_neg hne]
    exact h.facts.comparisons k hk
  · rw [s.clearRedefined_facts, t.clearRedefined_facts, if_pos hk, if_pos hk]
    exact (h.facts.derived k hk).erase l
  · rw [s.clearRedefined_pairFacts, t.clearRedefined_pairFacts]
    exact (h.facts.pairFacts k).erase l
  · rw [s.clearRedefined_constFacts, t.clearRedefined_constFacts]
    exact (h.facts.constFacts k).erase l
  · rw [hfn, hfn]
    exact h.facts.fnPtrTargets
  · rw [s.clearRedefined_mustSets, t.clearRedefined_mustSets]
    split
    · exact Finset.erase_subset_erase l (h.proven.mustSets k hk)
    · exact h.proven.mustSets k hk
  · rw [s.clearRedefined_mustPairs, t.clearRedefined_mustPairs]
    exact Finset.filter_subset_filter _ (h.proven.mustPairs k)
  · rw [s.clearRedefined_constUpper, t.clearRedefined_constUpper]
    exact h.proven.constUpper.erase l
  · rw [s.clearRedefined_constLower, t.clearRedefined_constLower]
    exact h.proven.constLower.erase l
  · rw [s.clearRedefined_facts, if_pos (by decide)] at hb
    exact h.refs x b (FMap.get_erase_eq_some_iff.mp hb).2

theorem clearScalarFacts (h : MustSim B C D s t) (l : Local) :
    MustSim B (insert l C) D (s.clearScalarFacts l) (t.clearScalarFacts l) := by
  have hinit := h.frame (s.clearInit_writes l) (t.clearInit_writes l) (by decide)
  exact (hinit.onComparisons fun _ _ hmn => hmn.erase l).eraseMust MustSet.scalar l

theorem clearTracking (h : MustSim B C D s t) (l : Local) :
    MustSim B (insert l C) D (clearTracking l s) (clearTracking l t) := by
  have hobjs := h.frame (s.setObjects_writes l none) (t.setObjects_writes l none) (by decide)
  exact (hobjs.frame (BlockState.dropProto_writes _ l) (BlockState.dropProto_writes _ l)
    (by decide)).clearScalarFacts l

theorem derefBase_eq (h : MustSim B C D s t) (hl : l ∈ D) : s.derefBase l = t.derefBase l := by
  unfold BlockState.derefBase
  rw [h.facts.derived .refBase (by decide) l hl]

theorem updateFnPtrTarget (h : MustSim B C D s t) (dst : Local) (rvalue : Rvalue) :
    MustSim B C D (updateFnPtrTarget dst rvalue s) (updateFnPtrTarget dst rvalue t) := by
  have htarget : rvalueFnTarget rvalue s = rvalueFnTarget rvalue t := by
    unfold rvalueFnTarget
    rw [h.facts.fnPtrTargets]
  refine ⟨{ h.facts with fnPtrTargets := ?_ }, { h.proven with }, h.refs⟩
  show s.fnPtrTargets.put dst _ = t.fnPtrTargets.put dst _
  rw [htarget, h.facts.fnPtrTargets]

theorem recordRefBase (h : MustSim B C D s t) {rvalue : Rvalue} (hB : ∀ l ∈ rvalue.borrows, l ∈ B)
    (dst : Local) : MustSim B C D (recordRefBase dst rvalue s) (recordRefBase dst rvalue t) := by
  unfold San.recordRefBase
  split
  · exact h.insertRefBase (hB _ List.mem_cons_self) dst
  · exact h.insertRefBase (hB _ List.mem_cons_self) dst
  · exact h

theorem recordLenOf (h : MustSim B C D s t) {rvalue : Rvalue} (hreads : ∀ l ∈ rvalue.reads, l ∈ D)
    (dst : Local) : MustSim B C D (recordLenOf dst rvalue s) (recordLenOf dst rvalue t) := by
  unfold San.recordLenOf
  split
  · rename_i op
    split
    · rename_i l hl
      have hmem : l ∈ D := hreads l (by simp [Rvalue.reads, operandLocal_base hl])
      rw [h.derefBase_eq hmem]
      exact h.insertFact (by decide) (by decide) dst _
    · exact h
  · exact h

/-! ### Moves and copies -/

theorem propagateMaps (h : MustSim B C D s t) (hupper : s.constUpper.get dst = none)
    (hlower : s.constLower.get dst = none) (src : Local) (isMove : Bool) :
    MustSim B C D (propagateMaps src dst isMove s) (propagateMaps src dst isMove t) :=
  ⟨{ h.facts with },
    { h.proven with
      constUpper := within_propagateMap h.proven.constUpper hupper isMove
      constLower := within_propagateMap h.proven.constLower hlower isMove }, h.refs⟩

theorem propagateUse (h : MustSim B C D s t) (hsrc : src ∈ D) (hupper : s.constUpper.get dst = none)
    (hlower : s.constLower.get dst = none) (isMove : Bool) :
    MustSim B C D (propagateUse src dst isMove s) (propagateUse src dst isMove t) := by
  have hsets := h.onMustSets MustSet.derived (propagateSet_mono src dst isMove)
  have hmarks := hsets.frame
    (BlockState.onMaySets_writes _ [.fdConsumed, .mulOverflow, .layoutOverflow]
      (San.propagateSet src dst isMove))
    (BlockState.onMaySets_writes _ [.fdConsumed, .mulOverflow, .layoutOverflow]
      (San.propagateSet src dst isMove)) (by decide)
  have horigin := hmarks.onDerived (k := .castOrigin) (by decide) (by decide) fun _ _ hmn =>
    agreeOn_propagateMap hmn hsrc dst isMove
  exact horigin.propagateMaps hupper hlower src isMove

/-- What a plain move or copy carries over from a local that is read. -/
theorem propagateRvalue (h : MustSim B C D s t) {rvalue : Rvalue}
    (hreads : ∀ l ∈ rvalue.reads, l ∈ D) (hupper : s.constUpper.get dst = none)
    (hlower : s.constLower.get dst = none) :
    MustSim B C D (propagateRvalue dst rvalue s) (propagateRvalue dst rvalue t) := by
  unfold San.propagateRvalue
  split
  · split
    · exact h.propagateUse (hreads _ (List.mem_singleton.mpr rfl)) hupper hlower true
    · exact h
  · split
    · exact h.propagateUse (hreads _ (List.mem_singleton.mpr rfl)) hupper hlower false
    · exact h
  · exact h

/-- Carry the comparison facts and the scalar facts of a moved or copied local. -/
theorem carryScalars (h : MustSim B C D s t) {f : FMap Local Local → FMap Local Local}
    {g : Finset Local → Finset Local}
    (hf : ∀ m n, FMap.AgreeOn C m n → FMap.AgreeOn C' (f m) (f n)) (hg : Monotone g)
    (k : Finset Local → Finset Local) :
    MustSim B C' D
      (((s.onFacts Fact.comparisons f).onMustSets MustSet.scalar g).onMaySets [.constPtrCast] k)
      (((t.onFacts Fact.comparisons f).onMustSets MustSet.scalar g).onMaySets
        [.constPtrCast] k) :=
  ((h.onComparisons hf).onMustSets MustSet.scalar hg).frame
    (BlockState.onMaySets_writes _ _ k) (BlockState.onMaySets_writes _ _ k) (by decide)

theorem assignMove (h : MustSim B C D s t) (hsrc : src ∈ C) (dst : Local) :
    MustSim B (insert dst C) D (assignMove src dst s) (assignMove src dst t) :=
  (h.frame (moveTracked_writes s src dst) (moveTracked_writes t src dst) (by decide)).carryScalars
    (fun _ _ hmn => hmn.moveKey hsrc dst) (moveSet_mono src dst) _

theorem assignCopy (h : MustSim B C D s t) (hsrc : src ∈ C) (dst : Local) :
    MustSim B (insert dst C) D (assignCopy src dst s) (assignCopy src dst t) :=
  (h.frame (copyTracked_writes s src dst) (copyTracked_writes t src dst) (by decide)).carryScalars
    (fun _ _ hmn => hmn.copyKey hsrc dst) (copySet_mono src dst) _

/-! ### Other assignments -/

/-- New objects and no protocol for `dst`, whose scalar facts are cleared. -/
theorem resetTo (h : MustSim B C D s t) (dst : Local) (o o' : Option (Finset ObjectId)) :
    MustSim B (insert dst C) D (((s.setObjects dst o).dropProto dst).clearScalarFacts dst)
      (((t.setObjects dst o').dropProto dst).clearScalarFacts dst) := by
  have hobjs := h.frame (s.setObjects_writes dst o) (t.setObjects_writes dst o') (by decide)
  exact (hobjs.frame (BlockState.dropProto_writes _ dst) (BlockState.dropProto_writes _ dst)
    (by decide)).clearScalarFacts dst

theorem assignConstant (h : MustSim B C D s t) (c : Const) (dst : Local) :
    MustSim B (insert dst C) D (assignConstant c dst s) (assignConstant c dst t) := by
  unfold San.assignConstant
  refine resetTo ?_ dst none none
  cases c.toU64 with
  | none => exact h
  | some val =>
      dsimp only
      refine setConstant ?_ dst val
      split
      · exact h.insertMust .nonzero dst
      · exact h.eraseMust [.nonzero] dst

theorem assignFieldRead (h : MustSim B C D s t) (src : Place) (dst : Local) :
    MustSim B (insert dst C) D (assignFieldRead src dst s) (assignFieldRead src dst t) :=
  (h.resetTo dst _ _).frame (BlockState.onMaySets_writes _ [.mulOverflow] _)
    (BlockState.onMaySets_writes _ [.mulOverflow] _) (by decide)

theorem assignAggregate (h : MustSim B C D s t) (tcx : TyCtxt) (kind : AggregateKind)
    (operands : List Operand) (dst : Local) :
    MustSim B (insert dst C) D (assignAggregate tcx kind operands dst s)
      (assignAggregate tcx kind operands dst t) :=
  (h.resetTo dst _ _).frame (aggregateKind_writes _ tcx kind operands dst)
    (aggregateKind_writes _ tcx kind operands dst) (by decide)

theorem assignPtrCast (h : MustSim B C D s t) (body : Body) (src dst : Local) (ty : Ty) :
    MustSim B (insert dst C) D (assignPtrCast body src dst ty s)
      (assignPtrCast body src dst ty t) := by
  have hmark : ∀ (u : BlockState) (c : Prop) [Decidable c], Writes Field.taints u
      (if c then u.insertMay .constPtrCast dst else u) := fun u c _ =>
    .ite ((u.insertMay_writes _ _).mono (by decide)) (.refl _ u)
  have hobjs := h.frame (s.setObjects_writes dst (s.pointsTo.get src))
    (t.setObjects_writes dst (t.pointsTo.get src)) (by decide)
  have hcast := hobjs.frame (hmark _ (ty.isMutPtr ∧ ((body.localTy src).isConstPtr ∨
      src ∈ (s.setObjects dst (s.pointsTo.get src)).maySets .constPtrCast)))
    (hmark _ (ty.isMutPtr ∧ ((body.localTy src).isConstPtr ∨
      src ∈ (t.setObjects dst (t.pointsTo.get src)).maySets .constPtrCast))) (by decide)
  exact (hcast.frame (BlockState.dropProto_writes _ dst) (BlockState.dropProto_writes _ dst)
    (by decide)).clearScalarFacts dst

theorem assignUnknown (h : MustSim B C D s t) (rvalue : Rvalue) (dst : Local) :
    MustSim B (insert dst C) D (assignUnknown rvalue dst s) (assignUnknown rvalue dst t) := by
  have hclear := h.clearTracking dst
  unfold San.assignUnknown
  dsimp only
  split
  · split
    · exact hclear
    · rename_i src _
      exact ((hclear.frame (consumeField_writes _ src) (consumeField_writes _ src)
        (by decide)).clearTracking src.base).mono (Finset.subset_insert _ _) (Finset.Subset.refl D)
  · exact hclear

theorem insertMust_right (h : MustSim B C D s t) (k : MustSet) (l : Local) :
    MustSim B C D s (t.insertMust k l) := by
  refine ⟨{ h.facts with }, { h.proven with mustSets := fun j hj => ?_ }, h.refs⟩
  dsimp only [BlockState.insertMust, BlockState.onMustSets]
  split
  · exact (h.proven.mustSets j hj).trans (Finset.subset_insert l _)
  · exact h.proven.mustSets j hj

theorem assignNumericCast (h : MustSim B C D s t) (kind : CastKind) (src dst : Local) (ty : Ty) :
    MustSim B C D (assignNumericCast kind src dst ty s) (assignNumericCast kind src dst ty t) := by
  have horigin := h.insertFact (k := .castOrigin) (by decide) (by decide) dst src
  unfold San.assignNumericCast
  dsimp only
  split
  · have hbound := horigin.boundAboveBy dst (Tighter.refl (uintTypeMax ty))
    have hnonzero : MustSim B C D
        (if src ∈ ((s.insertFact .castOrigin dst src).boundAboveBy dst
            (uintTypeMax ty)).mustSets .nonzero
          then ((s.insertFact .castOrigin dst src).boundAboveBy dst
            (uintTypeMax ty)).insertMust .nonzero dst
          else (s.insertFact .castOrigin dst src).boundAboveBy dst (uintTypeMax ty))
        (if src ∈ ((t.insertFact .castOrigin dst src).boundAboveBy dst
            (uintTypeMax ty)).mustSets .nonzero
          then ((t.insertFact .castOrigin dst src).boundAboveBy dst
            (uintTypeMax ty)).insertMust .nonzero dst
          else (t.insertFact .castOrigin dst src).boundAboveBy dst (uintTypeMax ty)) := by
      split
      · rename_i hs
        rw [if_pos (hbound.proven.mustSets .nonzero (by decide) hs)]
        exact hbound.insertMust .nonzero dst
      · split
        · exact hbound.insertMust_right .nonzero dst
        · exact hbound
    exact hnonzero.boundAboveBy dst (hnonzero.proven.constUpper src)
  · exact horigin

/-! ### Binary operations -/

theorem lenCollection_eq (h : MustSim B C D s t) (hB : B ⊆ D) (hl : l ∈ D) :
    lenCollection s l = lenCollection t l := by
  have hlen : ∀ x ∈ D, (s.facts .lenOf).get x = (t.facts .lenOf).get x :=
    h.facts.derived .lenOf (by decide)
  unfold lenCollection
  rw [hlen l hl, ← h.facts.derived .refBase (by decide) l hl]
  cases hbase : (s.facts .refBase).get l with
  | none => rfl
  | some base =>
      show ((t.facts .lenOf).get l).or ((s.facts .lenOf).get base) = _
      rw [hlen base (hB (h.refs l base hbase))]
      rfl

theorem boundedFor_eq (h : MustSim B C D s t) (hB : B ⊆ D) {op1 op2 : Operand}
    (hop2 : ∀ l, operandLocal op2 = some l → l ∈ D) :
    boundedFor s op1 op2 = boundedFor t op1 op2 := by
  unfold boundedFor
  cases hl : operandLocal op2 with
  | none => rfl
  | some l =>
      show (operandLocal op1).bind (fun lhs => (lenCollection s l).map _) = _
      rw [h.lenCollection_eq hB (hop2 l hl)]
      rfl

theorem putBoundedFor (h : MustSim B C D s t) (hB : B ⊆ D) (k : PairFact) (dst : Local)
    {op1 op2 : Operand} (hop2 : ∀ l, operandLocal op2 = some l → l ∈ D) :
    MustSim B C D (s.onPairFacts [k] (·.put dst (boundedFor s op1 op2)))
      (t.onPairFacts [k] (·.put dst (boundedFor t op1 op2))) := by
  rw [h.boundedFor_eq hB hop2]
  exact h.onPairFact k fun _ _ hmn => (hmn.put dst _).mono (Finset.subset_insert dst D)

theorem clearComparisons (h : MustSim B C D s t) (dst : Local) :
    MustSim B (insert dst C) D (clearComparisons dst s) (clearComparisons dst t) :=
  h.onComparisons fun _ _ hmn => hmn.erase dst

theorem setComparison (h : MustSim B C D s t) {k : Fact} (hk : k ∈ Fact.comparisons) (dst : Local)
    (lhs : Option Local) :
    MustSim B (insert dst C) D (setComparison s k dst lhs) (setComparison t k dst lhs) := by
  refine (h.clearComparisons dst).onComparison hk fun _ _ hmn => ?_
  exact (hmn.put dst lhs).mono (Finset.subset_insert dst _)

theorem recordSpare (h : MustSim B C D s t) {k : Fact} (hk : k ∈ Fact.derived) (hne : k ≠ .refBase)
    (dst : Local) {op1 op2 : Operand} (hop1 : ∀ l, operandLocal op1 = some l → l ∈ D)
    (hop2 : ∀ l, operandLocal op2 = some l → l ∈ D) (capFirst : Bool) :
    MustSim B C D (recordSpare k dst op1 op2 capFirst s) (recordSpare k dst op1 op2 capFirst t) := by
  unfold San.recordSpare
  split
  · rename_i a b ha hb
    have hmem : ∀ c : Bool, (if c then b else a) ∈ D ∧ (if c then a else b) ∈ D := fun c => by
      cases c
      · exact ⟨hop1 a ha, hop2 b hb⟩
      · exact ⟨hop2 b hb, hop1 a ha⟩
    dsimp only
    rw [h.facts.derived .lenOf (by decide) _ (hmem capFirst).1,
      h.facts.derived .capOf (by decide) _ (hmem capFirst).2]
    split
    · split
      · exact h.insertFact hk hne dst _
      · exact h
    · exact h
  · exact h

theorem recordFull (h : MustSim B C D s t) {k : Fact} (hk : k ∈ Fact.derived) (hne : k ≠ .refBase)
    (dst : Local) {op1 op2 : Operand} (hop1 : ∀ l, operandLocal op1 = some l → l ∈ D)
    (hop2 : ∀ l, operandLocal op2 = some l → l ∈ D) :
    MustSim B C D (recordFull k dst op1 op2 s) (recordFull k dst op1 op2 t) := by
  have hsame : ∀ a ∈ D, ∀ b ∈ D, sameCollection s a b = sameCollection t a b := by
    intro a ha b hb
    unfold sameCollection
    rw [h.facts.derived .lenOf (by decide) a ha, h.facts.derived .capOf (by decide) b hb]
  unfold San.recordFull
  split
  · rename_i a b ha hb
    rw [hsame a (hop1 a ha) b (hop2 b hb), hsame b (hop2 b hb) a (hop1 a ha)]
    split
    · exact h.insertFact hk hne dst _
    · exact h
  · exact h

theorem recordConst (h : MustSim B C D s t) (k : ConstFact) (dst : Local) (l : Option Local)
    (v : Option U64) : MustSim B C D (recordConst k dst l v s) (recordConst k dst l v t) := by
  unfold San.recordConst
  split
  · exact h.insertConstFact k dst _
  · exact h

theorem recordNonzero (h : MustSim B C D s t) (dst : Local) (l : Option Local) (v : Option U64)
    (p : U64 → Bool) : MustSim B C D (recordNonzero dst l v p s) (recordNonzero dst l v p t) := by
  unfold San.recordNonzero
  split
  · split
    · exact h.insertFact (by decide) (by decide) dst _
    · exact h
  · exact h

theorem recordPair (h : MustSim B C D s t) (k : PairFact) (dst : Local) (op1 op2 : Operand) :
    MustSim B C D (recordPair k dst op1 op2 s) (recordPair k dst op1 op2 t) := by
  unfold San.recordPair
  split
  · exact h.onPairFact k fun _ _ hmn => (hmn.insert dst _).mono (Finset.subset_insert dst D)
  · exact h

theorem compareEq (h : MustSim B C D s t) {full onZero : Fact} (hfull : full ∈ Fact.derived)
    (hfull' : full ≠ .refBase) (hzero : onZero ∈ Fact.derived) (hzero' : onZero ≠ .refBase)
    (pair : PairFact) (dst : Local) {op1 op2 : Operand}
    (hop1 : ∀ l, operandLocal op1 = some l → l ∈ D)
    (hop2 : ∀ l, operandLocal op2 = some l → l ∈ D) :
    MustSim B (insert dst C) D (compareEq full onZero pair dst op1 op2 s)
      (compareEq full onZero pair dst op1 op2 t) := by
  have hrecord := (h.clearComparisons dst).recordFull hfull hfull' dst hop1 hop2
  unfold San.compareEq
  dsimp only
  refine recordPair ?_ pair dst op1 op2
  cases comparedWithZero op1 op2 with
  | none => exact hrecord
  | some l => exact hrecord.insertFact hzero hzero' dst l

/-! ### Arithmetic -/

theorem Tighter.or {o o' : Option U64} (h : Tighter o' o) (c : Option U64) :
    Tighter (c.or o') (c.or o) := by
  cases c with
  | none => exact h
  | some k => exact Tighter.refl (some k)

/-- A bound derived from the bounds of two operands. -/
theorem Tighter.bind₂ {a a' b b' : Option U64} (ha : Tighter a' a) (hb : Tighter b' b)
    {f : U64 → U64 → U64} (hf : ∀ x' x y' y, x' ≤ x → y' ≤ y → f x' y' ≤ f x y) :
    Tighter (a'.bind fun x => b'.map (f x)) (a.bind fun x => b.map (f x)) := by
  intro u hu
  obtain ⟨x, hx, hu⟩ := Option.bind_eq_some_iff.mp hu
  obtain ⟨y, hy, rfl⟩ := Option.map_eq_some_iff.mp hu
  obtain ⟨x', rfl, hxle⟩ := ha x hx
  obtain ⟨y', rfl, hyle⟩ := hb y hy
  exact ⟨f x' y', rfl, hf x' x y' y hxle hyle⟩

theorem localUpper (h : MustSim B C D s t) (op : Operand) :
    Tighter ((operandLocal op).bind t.constUpper.get) ((operandLocal op).bind s.constUpper.get) := by
  cases operandLocal op with
  | none => exact Tighter.refl none
  | some l => exact h.proven.constUpper l

theorem operandUpper (h : MustSim B C D s t) (op : Operand) :
    Tighter (operandUpper t op) (operandUpper s op) := (h.localUpper op).or (constU64 op)

/-- The bound that `boundArith` applies. -/
def arithUpper (f : Nat → Nat → Nat) (s : BlockState) (op1 op2 : Operand) : Option U64 :=
  (San.operandUpper s op1).bind fun a =>
    (San.operandUpper s op2).map fun b => toU64 (f a.val b.val)

theorem toU64_mono {m n : Nat} (h : m ≤ n) : toU64 m ≤ toU64 n :=
  Fin.le_def.mpr (min_le_min h (le_refl _))

/-- Apart from the overflow mark, `boundArith` applies a bound. -/
theorem boundArith_marks (f : Nat → Nat → Nat) (dst : Local) (op1 op2 : Operand) (s : BlockState) :
    Writes Field.marks (s.boundAboveBy dst (arithUpper f s op1 op2))
      (boundArith f dst op1 op2 s) := by
  unfold San.boundArith arithUpper
  cases San.operandUpper s op1 with
  | none => exact (s.insertMay_writes _ _).mono (by decide)
  | some a =>
      cases San.operandUpper s op2 with
      | none => exact (s.insertMay_writes _ _).mono (by decide)
      | some b =>
          exact .ite ((BlockState.insertMay_writes _ _ _).mono (by decide))
            ((BlockState.onMaySets_writes _ _ _).mono (by decide))

theorem boundArith (h : MustSim B C D s t) {f : Nat → Nat → Nat}
    (hf : ∀ a' a b' b, a' ≤ a → b' ≤ b → f a' b' ≤ f a b) (dst : Local) (op1 op2 : Operand) :
    MustSim B C D (boundArith f dst op1 op2 s) (boundArith f dst op1 op2 t) := by
  have htight : Tighter (arithUpper f t op1 op2) (arithUpper f s op1 op2) :=
    (h.operandUpper op1).bind₂ (h.operandUpper op2) fun _ _ _ _ hx hy =>
      toU64_mono (hf _ _ _ _ hx hy)
  exact (h.boundAboveBy dst htight).frame (boundArith_marks f dst op1 op2 s)
    (boundArith_marks f dst op1 op2 t) (by decide)

theorem exists_tighter {os os' : List (Option U64)} (h : List.Forall₂ Tighter os' os)
    {o : Option U64} (ho : o ∈ os) : ∃ o' ∈ os', Tighter o' o := by
  induction h with
  | nil => exact absurd ho List.not_mem_nil
  | cons hhead _ ih =>
      rcases List.mem_cons.mp ho with rfl | ho
      · exact ⟨_, List.mem_cons_self, hhead⟩
      · obtain ⟨o', ho', htight⟩ := ih ho
        exact ⟨o', List.mem_cons_of_mem _ ho', htight⟩

/-- The least of several bounds is at least as tight when each of them is. -/
theorem Tighter.min? {os os' : List (Option U64)} (h : List.Forall₂ Tighter os' os) :
    Tighter os'.reduceOption.min? os.reduceOption.min? := by
  intro u hu
  have hmem : some u ∈ os := List.reduceOption_mem_iff.mp (List.min?_mem hu)
  obtain ⟨o', ho', htight⟩ := exists_tighter h hmem
  obtain ⟨u', rfl, hle⟩ := htight u rfl
  have hu' : u' ∈ os'.reduceOption := List.reduceOption_mem_iff.mpr ho'
  cases hmin : os'.reduceOption.min? with
  | none =>
      rw [List.min?_eq_none_iff.mp hmin] at hu'
      exact absurd hu' List.not_mem_nil
  | some w => exact ⟨w, rfl, le_trans ((List.min?_eq_some_iff.mp hmin).2 u' hu') hle⟩

theorem shrUpper_mono {u u' : U64} (h : u' ≤ u) (shift : U64) :
    shrUpper u' shift ≤ shrUpper u shift := by
  unfold shrUpper
  split
  · exact Fin.le_def.mpr (Nat.div_le_div_right (Fin.le_def.mp h))
  · exact le_refl _

theorem binaryUpper (h : MustSim B C D s t) (op : BinOp) (op1 op2 : Operand) :
    Tighter (binaryUpper op t op1 op2) (binaryUpper op s op1 op2) := by
  unfold San.binaryUpper
  split
  · exact Tighter.min? (.cons (Tighter.refl _) (.cons (h.localUpper op1)
      (.cons (h.localUpper op2) .nil)))
  · exact Tighter.refl _
  · intro u hu
    obtain ⟨shift, hshift, rfl⟩ := Option.map_eq_some_iff.mp hu
    refine ⟨_, by rw [hshift]; rfl, shrUpper_mono ?_ shift⟩
    cases operandLocal op1 with
    | none => exact le_refl _
    | some l => exact h.upper_getD_le l
  · exact Tighter.refl _

theorem operandNonzero (h : MustSim B C D s t) {op : Operand} (hs : operandNonzero s op = true) :
    operandNonzero t op = true := by
  unfold San.operandNonzero at hs ⊢
  cases hl : operandLocal op with
  | none => rwa [hl] at hs
  | some l =>
      rw [hl] at hs
      simp only [Option.any_some, Bool.or_eq_true, decide_eq_true_eq] at hs ⊢
      exact hs.imp_left fun hm => h.proven.mustSets .nonzero (by decide) hm

/-- **What a binary operation proves, the path proves too.**  Unless the operation is
overflow-checked, the comparison facts of its result agree. -/
theorem recordBinaryOp (h : MustSim B C D s t) (hB : B ⊆ D) (body : Body) (op : BinOp)
    {op1 op2 : Operand} (hop1 : ∀ l, operandLocal op1 = some l → l ∈ D)
    (hop2 : ∀ l, operandLocal op2 = some l → l ∈ D) (dst : Local) :
    MustSim B ((Rvalue.binaryOp op op1 op2).settling dst C) D
      (recordBinaryOp body op op1 op2 dst s) (recordBinaryOp body op op1 op2 dst t) := by
  have hmul : ∀ a' a b' b : Nat, a' ≤ a → b' ≤ b → a' * b' ≤ a * b :=
    fun _ _ _ _ ha hb => Nat.mul_le_mul ha hb
  have hadd : ∀ a' a b' b : Nat, a' ≤ a → b' ≤ b → a' + b' ≤ a + b :=
    fun _ _ _ _ ha hb => Nat.add_le_add ha hb
  unfold San.recordBinaryOp
  cases op with
  | lt =>
      exact (h.putBoundedFor hB .ltFor dst hop2).setComparison (by decide) dst _
        |>.recordSpare (by decide) (by decide) dst hop1 hop2 false
        |>.recordConst .constLt dst _ _ |>.recordConst .constGt dst _ _
        |>.recordNonzero dst _ _ _
  | ge =>
      exact (h.setComparison (by decide) dst _).recordSpare (by decide) (by decide) dst hop1 hop2
        false |>.recordConst .constGe dst _ _ |>.recordNonzero dst _ _ _
        |>.recordConst .constLe dst _ _
  | le =>
      exact (h.putBoundedFor hB .leFor dst hop2).setComparison (by decide) dst _
        |>.recordSpare (by decide) (by decide) dst hop1 hop2 true
        |>.recordConst .constLe dst _ _ |>.recordConst .constGe dst _ _
        |>.recordNonzero dst _ _ _
  | gt =>
      exact (h.setComparison (by decide) dst _).recordSpare (by decide) (by decide) dst hop1 hop2
        true |>.recordConst .constGt dst _ _ |>.recordNonzero dst _ _ _
        |>.recordConst .constLt dst _ _
  | eq => exact h.compareEq (by decide) (by decide) (by decide) (by decide) _ dst hop1 hop2
  | ne => exact h.compareEq (by decide) (by decide) (by decide) (by decide) _ dst hop1 hop2
  | bitOr =>
      refine clearComparisons ?_ dst
      by_cases hs : (San.operandNonzero s op1 || San.operandNonzero s op2) = true
      · have ht : (San.operandNonzero t op1 || San.operandNonzero t op2) = true := by
          rcases Bool.or_eq_true_iff.mp hs with hs | hs
          · rw [h.operandNonzero hs, Bool.true_or]
          · rw [h.operandNonzero hs, Bool.or_true]
        rw [if_pos hs, if_pos ht]
        exact h.insertMust .nonzero dst
      · rw [if_neg hs]
        split
        · exact h.insertMust_right .nonzero dst
        · exact h
  | bitAnd => exact (h.boundAboveBy dst (h.binaryUpper _ op1 op2)).clearComparisons dst
  | rem => exact (h.boundAboveBy dst (h.binaryUpper _ op1 op2)).clearComparisons dst
  | shr => exact (h.boundAboveBy dst (h.binaryUpper _ op1 op2)).clearComparisons dst
  | mul => exact (h.boundArith hmul dst op1 op2).clearComparisons dst
  | add =>
      refine clearComparisons ?_ dst
      split
      · exact h.boundArith hadd dst op1 op2
      · exact h
  | mulWithOverflow => exact h.boundArith hmul dst op1 op2
  | addWithOverflow =>
      show MustSim B C D (ite _ _ _) (ite _ _ _)
      split
      · exact h.boundArith hadd dst op1 op2
      · exact h
  | _ => exact h.clearComparisons dst

theorem assignBinaryOp (h : MustSim B C D s t) (hB : B ⊆ D) (body : Body) (op : BinOp)
    {op1 op2 : Operand} (hop1 : ∀ l, operandLocal op1 = some l → l ∈ D)
    (hop2 : ∀ l, operandLocal op2 = some l → l ∈ D) (dst : Local) :
    MustSim B ((Rvalue.binaryOp op op1 op2).settling dst C) D
      (assignBinaryOp body op op1 op2 dst s) (assignBinaryOp body op op1 op2 dst t) := by
  have hobjs := h.frame (s.setObjects_writes dst (offsetObjects op op1 op2 s))
    (t.setObjects_writes dst (offsetObjects op op1 op2 t)) (by decide)
  have hproto := hobjs.frame (BlockState.dropProto_writes _ dst) (BlockState.dropProto_writes _ dst)
    (by decide)
  have hinit := hproto.frame (BlockState.clearInit_writes _ dst) (BlockState.clearInit_writes _ dst)
    (by decide)
  exact (hinit.eraseMust MustSet.scalar dst).recordBinaryOp hB body op hop1 hop2 dst

/-! ### Assignments -/

/-- **An assignment to a whole local** makes the comparison facts of the local agree, unless
it keeps them. -/
theorem assignRvalue (h : MustSim B C D s t) (hB : B ⊆ D) (tcx : TyCtxt) (body : Body)
    (dst : Local) {rvalue : Rvalue} (hC : ∀ l ∈ rvalue.reads, l ∈ C)
    (hD : ∀ l ∈ rvalue.reads, l ∈ D) :
    MustSim B (rvalue.settling dst C) D
      (assignRvalue tcx body dst rvalue s) (assignRvalue tcx body dst rvalue t) := by
  unfold San.assignRvalue
  split
  · exact h.assignConstant _ dst
  · split
    · exact h.assignMove (hC _ (List.mem_singleton.mpr rfl)) dst
    · split
      · exact h.assignFieldRead _ dst
      · exact h.assignUnknown _ dst
  · split
    · exact h.assignCopy (hC _ (List.mem_singleton.mpr rfl)) dst
    · split
      · exact h.assignFieldRead _ dst
      · exact h.assignUnknown _ dst
  · exact h.resetTo dst _ _
  · exact h.resetTo dst _ _
  · exact h.resetTo dst _ _
  · exact h.assignAggregate tcx _ _ dst
  · rename_i kind op ty
    cases hop : operandLocal op with
    | none =>
        have hkeeps : (Rvalue.cast kind op ty).keepsFacts = false := by simp [Rvalue.keepsFacts, hop]
        rw [Rvalue.settling_of_not_keeps hkeeps]
        exact h.assignUnknown _ dst
    | some src =>
        dsimp only
        split
        · rename_i hkind
          have hkeeps : (Rvalue.cast kind op ty).keepsFacts = false := by
            rcases hkind with rfl | rfl <;> rfl
          rw [Rvalue.settling_of_not_keeps hkeeps]
          exact h.assignPtrCast body src dst ty
        · split
          · rename_i hnum
            have hkeeps : (Rvalue.cast kind op ty).keepsFacts = true := by
              simp [Rvalue.keepsFacts, hop, hnum]
            rw [Rvalue.settling_of_keeps hkeeps]
            exact h.assignNumericCast kind src dst ty
          · rename_i hnum
            have hkeeps : (Rvalue.cast kind op ty).keepsFacts = false := by
              simp [Rvalue.keepsFacts, hnum]
            rw [Rvalue.settling_of_not_keeps hkeeps]
            exact h.assignUnknown _ dst
  · rename_i op op1 op2
    refine h.assignBinaryOp hB body op (fun l hl => hD l ?_) (fun l hl => hD l ?_) dst
    · simp [Rvalue.reads, operandLocal_base hl]
    · simp [Rvalue.reads, operandLocal_base hl]
  · rename_i hcast hbinary
    have hkeeps : rvalue.keepsFacts = false := by
      cases rvalue with
      | cast kind op ty => exact absurd rfl (hcast kind op ty)
      | binaryOp op op1 op2 => exact absurd rfl (hbinary op op1 op2)
      | _ => rfl
    rw [Rvalue.settling_of_not_keeps hkeeps]
    exact h.assignUnknown _ dst

theorem assignLocal (h : MustSim B C C s t) (hB : B ⊆ C) (tcx : TyCtxt) (body : Body) (dst : Local)
    {rvalue : Rvalue} (hreads : ∀ l ∈ rvalue.reads, l ∈ C) (hborrows : ∀ l ∈ rvalue.borrows, l ∈ B) :
    MustSim B (rvalue.settling dst C) (insert dst C)
      (assignLocal tcx body dst rvalue s) (assignLocal tcx body dst rvalue t) := by
  have hD : ∀ l ∈ rvalue.reads, l ∈ insert dst C := fun l hl => Finset.mem_insert_of_mem (hreads l hl)
  have howners : MustSim B C C (updateOwnerAlias body dst rvalue s)
      (updateOwnerAlias body dst rvalue t) :=
    h.frame (s.setOwners_writes dst _) (t.setOwners_writes dst _) (by decide)
  have hcleared := ((howners.updateFnPtrTarget dst rvalue).clearRedefined dst).frame
    (clearAssigned_writes _ dst) (clearAssigned_writes _ dst) (by decide)
  have hrefs := hcleared.recordRefBase hborrows dst
  -- the redefinition left no bound at `dst`, and nothing since has set one
  have hbounds : ∀ u : BlockState, ((San.recordRefBase dst rvalue ((u.clearRedefined
      dst).clearAssigned dst)).constUpper.get dst = none) ∧ ((San.recordRefBase dst rvalue
      ((u.clearRedefined dst).clearAssigned dst)).constLower.get dst = none) := by
    intro u
    have hw := ((clearAssigned_writes (u.clearRedefined dst) dst).mono
      (List.subset_append_left _ [.fact .refBase])).trans
      ((recordRefBase_writes _ dst rvalue).mono (List.subset_append_right _ _))
    constructor
    · rw [show BlockState.constUpper _ = _ from hw .constUpper (by decide),
        u.clearRedefined_constUpper, FMap.get_erase_self]
    · rw [show BlockState.constLower _ = _ from hw .constLower (by decide),
        u.clearRedefined_constLower, FMap.get_erase_self]
  have hlen := (hrefs.propagateRvalue hD (hbounds _).1 (hbounds _).2).recordLenOf hD dst
  exact (hlen.assignRvalue (hB.trans (Finset.subset_insert dst C)) tcx body dst hreads
    hD).enforceTypeFacts tcx dst _

/-- **A statement respects the relation.** -/
theorem applyStatement {L : Finset Local} (h : MustSim B L L s t) (hB : B ⊆ L) (tcx : TyCtxt)
    (body : Body) {stmt : Statement} (hreads : ∀ l ∈ stmt.reads, l ∈ L)
    (hborrows : ∀ l ∈ stmt.borrows, l ∈ B) :
    MustSim B (L ∪ stmt.settles) (L ∪ stmt.settles) (applyStatement tcx body stmt s)
      (applyStatement tcx body stmt t) := by
  obtain ⟨kind, span⟩ := stmt
  cases kind with
  | other => exact h.mono (Finset.union_empty L).subset (Finset.union_empty L).subset
  | assign dst rvalue =>
      have hinvalid := h.frame (s.invalidateOwners_writes {dst.base})
        (t.invalidateOwners_writes {dst.base}) (by decide)
      unfold San.applyStatement Statement.settles
      dsimp only
      cases hdst : dst.isLocal with
      | false =>
          have hstore := hinvalid.frame (storeObjects_writes _ dst rvalue)
            (storeObjects_writes _ dst rvalue) (by decide)
          have hvariant := hstore.frame (setUnionField_writes _ tcx body dst)
            (setUnionField_writes _ tcx body dst) (by decide)
          have hfield := hvariant.frame (writeMaybeUninitField_writes _ body dst)
            (writeMaybeUninitField_writes _ body dst) (by decide)
          exact hfield.mono (Finset.union_empty L).subset (Finset.union_empty L).subset
      | true =>
          have hassign := hinvalid.assignLocal hB tcx body dst.base (fun l hl => hreads l
            (List.mem_append_left _ hl)) hborrows
          exact hassign.mono (union_settles_subset_settling L dst.base rvalue)
            ((union_settles_subset_settling L dst.base rvalue).trans (rvalue.settling_subset _ L))

/-! ## Terminators -/

theorem resolveCallee_eq (h : MustSim B C D s t) (tcx : TyCtxt) (body : Body) (func : Operand) :
    resolveCallee tcx body func s = resolveCallee tcx body func t := by
  unfold resolveCallee
  rw [h.facts.fnPtrTargets]

theorem killCapacityArgs (h : MustSim B C D s t) (body : Body) {args : List Operand}
    (hargs : ∀ l ∈ args.filterMap Operand.base, l ∈ D) :
    MustSim B C D (args.foldl (killCapacityArg body) s) (args.foldl (killCapacityArg body) t) := by
  induction args generalizing s t with
  | nil => exact h
  | cons arg args ih =>
      have hrest : ∀ l ∈ args.filterMap Operand.base, l ∈ D := fun l hl =>
        hargs l (List.mem_filterMap.mpr (by
          obtain ⟨a, ha, hb⟩ := List.mem_filterMap.mp hl
          exact ⟨a, List.mem_cons_of_mem arg ha, hb⟩))
      refine ih ?_ hrest
      unfold killCapacityArg
      split
      · exact h
      · rename_i l hl
        have hmem : l ∈ D := hargs l (List.mem_filterMap.mpr
          ⟨arg, List.mem_cons_self, operandLocal_base hl⟩)
        rw [h.derefBase_eq hmem]
        split
        · exact h.eraseMust _ _
        · exact h

theorem enterCall (h : MustSim B C D s t) (tcx : TyCtxt) (body : Body) (summaries : SummaryMap)
    (callee : Option DefId) {args : List Operand}
    (hargs : ∀ l ∈ args.filterMap Operand.base, l ∈ D) (dest : Local) :
    MustSim B C D (enterCall tcx body summaries callee args dest s)
      (enterCall tcx body summaries callee args dest t) := by
  obtain ⟨s₁, hs, hseq⟩ := enterCall_eq s tcx body summaries callee args dest
  obtain ⟨t₁, ht, hteq⟩ := enterCall_eq t tcx body summaries callee args dest
  rw [hseq, hteq]
  exact (h.frame hs ht (by decide)).killCapacityArgs body hargs

section CallFacts
variable {args : List Operand} (hargs : ∀ l ∈ args.filterMap Operand.base, l ∈ D) (dest : Local)
include hargs

theorem recordReceiver (h : MustSim B C D s t) {k : Fact} (hk : k ∈ Fact.derived)
    (hne : k ≠ .refBase) :
    MustSim B C D (recordReceiver k args dest s) (recordReceiver k args dest t) := by
  unfold San.recordReceiver
  split
  · rename_i recv hrecv
    rw [h.derefBase_eq (hargs recv (nthArgLocal_mem hrecv))]
    exact h.insertFact hk hne dest _
  · exact h

omit hargs in
theorem recordArg (h : MustSim B C D s t) {k : Fact} (hk : k ∈ Fact.derived) (hne : k ≠ .refBase) :
    MustSim B C D (recordArg k args dest s) (recordArg k args dest t) := by
  unfold San.recordArg
  split
  · exact h.insertFact hk hne dest _
  · exact h

theorem recordLength (h : MustSim B C D s t) (path : String) :
    MustSim B C D (recordLength path args dest s) (recordLength path args dest t) := by
  unfold San.recordLength
  split
  · split
    · exact h.recordReceiver hargs dest (by decide) (by decide)
    · exact h.recordReceiver hargs dest (by decide) (by decide)
  · exact h

omit hargs in
theorem recordFiniteness (h : MustSim B C D s t) (path : String) :
    MustSim B C D (recordFiniteness path args dest s) (recordFiniteness path args dest t) := by
  unfold San.recordFiniteness
  split
  · exact h.recordArg dest (by decide) (by decide)
  · split
    · exact h.recordArg dest (by decide) (by decide)
    · exact h

/-- A view leads to a borrowed local, either the receiver or what the receiver borrows. -/
theorem recordDeref (h : MustSim B C D s t) (hrecv : ∀ l, firstArgLocal args = some l → l ∈ B)
    (path : String) :
    MustSim B C D (recordDeref path args dest s) (recordDeref path args dest t) := by
  unfold San.recordDeref
  split
  · unfold San.recordReceiver
    split
    · rename_i recv hfirst
      have hbase : s.derefBase recv ∈ B := by
        unfold BlockState.derefBase
        cases hget : (s.facts .refBase).get recv with
        | none => exact hrecv recv hfirst
        | some base => exact h.refs recv base hget
      rw [← h.derefBase_eq (hargs recv (nthArgLocal_mem hfirst))]
      exact h.insertRefBase hbase dest
    · exact h
  · exact h

omit hargs in
theorem recordFd (h : MustSim B C D s t) (path : String) :
    MustSim B C D (recordFd path args dest s) (recordFd path args dest t) := by
  unfold San.recordFd
  split
  · exact h.insertMust .fdOrigin dest
  · split
    · split
      · exact h.frame (s.insertMay_writes .fdConsumed _) (t.insertMay_writes .fdConsumed _)
          (by decide)
      · exact h
    · exact h

theorem recordPartialEq (h : MustSim B C D s t) (path : String) :
    MustSim B C D (recordPartialEq path args dest s) (recordPartialEq path args dest t) := by
  have hderef : ∀ i, (nthArgLocal args i).map s.derefBase =
      (nthArgLocal args i).map t.derefBase := by
    intro i
    cases hi : nthArgLocal args i with
    | none => rfl
    | some l =>
        show some (s.derefBase l) = some (t.derefBase l)
        rw [h.derefBase_eq (hargs l (nthArgLocal_mem hi))]
  unfold San.recordPartialEq
  rw [hderef 0, hderef 1]
  split
  · split
    · exact h.onPairFact _ fun _ _ hmn => (hmn.insert dest _).mono (Finset.subset_insert dest D)
    · exact h
  · exact h

theorem recordCallFacts (h : MustSim B C D s t) (hrecv : ∀ l, firstArgLocal args = some l → l ∈ B)
    (path : String) :
    MustSim B C D (recordCallFacts path args dest s) (recordCallFacts path args dest t) := by
  have hfinite : MustSim B C D
      (San.recordFiniteness path args dest (San.recordLength path args dest s))
      (San.recordFiniteness path args dest (San.recordLength path args dest t)) :=
    (h.recordLength hargs dest path).recordFiniteness dest path
  have hderef := hfinite.recordDeref hargs dest hrecv path
  have hspawn : ∀ {s t : BlockState}, MustSim B C D s t →
      MustSim B C D (if isThreadSpawn path then markSpawned s else s)
        (if isThreadSpawn path then markSpawned t else t) := by
    intro s t h
    split
    · exact h.frame (markSpawned_writes s) (markSpawned_writes t) (by decide)
    · exact h
  have hfd : MustSim B C D
      (San.recordFd path args dest (San.recordDeref path args dest
        (San.recordFiniteness path args dest (San.recordLength path args dest s))))
      (San.recordFd path args dest (San.recordDeref path args dest
        (San.recordFiniteness path args dest (San.recordLength path args dest t)))) :=
    hderef.recordFd dest path
  exact (hspawn hfd).recordPartialEq hargs dest path

end CallFacts

theorem leaveCall (h : MustSim B C D s t) (tcx : TyCtxt) (body : Body) (path : String)
    (args : List Operand) (dest : Local) :
    MustSim B C D (leaveCall tcx body path args dest s) (leaveCall tcx body path args dest t) := by
  have hnonzero : ∀ {s t : BlockState} (c : Bool), MustSim B C D s t →
      MustSim B C D (if c then s.insertMust .nonzero dest else s)
        (if c then t.insertMust .nonzero dest else t) := by
    intro s t c h
    split
    · exact h.insertMust .nonzero dest
    · exact h
  have hmark : ∀ (u : BlockState) (c : Bool), Writes Field.marks u
      (if c then u.insertMay .layoutOverflow dest else u) := fun u c =>
    .ite ((u.insertMay_writes _ _).mono (by decide)) (.refl _ u)
  have htypes := hnonzero (endsWith path "::dangling") (hnonzero (returnsNonNull path)
    (h.enforceTypeFacts tcx dest (body.localTy dest)))
  exact htypes.frame (hmark _ _) (hmark _ _) (by decide)

/-- **A resolved call settles its destination.** -/
theorem applyResolvedCall {L : Finset Local} (h : MustSim B L L s t) (tcx : TyCtxt) (body : Body)
    (summaries : SummaryMap) (did : DefId) {args : List Operand}
    (hargs : ∀ l ∈ args.filterMap Operand.base, l ∈ L)
    (hrecv : ∀ l, firstArgLocal args = some l → l ∈ B) (dest : Local) (bb : Nat) :
    MustSim B (insert dest L) (insert dest L)
      (applyResolvedCall tcx body summaries did args dest bb s)
      (applyResolvedCall tcx body summaries did args dest bb t) := by
  have hrecord := (h.clearRedefined dest).recordCallFacts
    (fun l hl => Finset.mem_insert_of_mem (hargs l hl)) dest hrecv (tcx.defPathStr did)
  obtain ⟨s₁, hs₁, hs₂⟩ := applyCallKind_clears (San.recordCallFacts (tcx.defPathStr did) args dest
    (s.clearRedefined dest)) tcx body (tcx.defPathStr did)
    (classify (tcx.defPathStr did) (summaries.get did)) args dest bb
  obtain ⟨t₁, ht₁, ht₂⟩ := applyCallKind_clears (San.recordCallFacts (tcx.defPathStr did) args dest
    (t.clearRedefined dest)) tcx body (tcx.defPathStr did)
    (classify (tcx.defPathStr did) (summaries.get did)) args dest bb
  have hclear := (hrecord.frame hs₁ ht₁ (by decide)).clearScalarFacts dest
  exact (hclear.frame hs₂ ht₂ (by decide)).leaveCall tcx body _ args dest

/-- **A call respects the relation**, whether or not its callee is known. -/
theorem applyCall {L : Finset Local} (h : MustSim B L L s t) (tcx : TyCtxt) (body : Body)
    (summaries : SummaryMap) (bb : Nat) (func : Operand) {args : List Operand}
    (hargs : ∀ l ∈ args.filterMap Operand.base, l ∈ L)
    (hrecv : ∀ l, firstArgLocal args = some l → l ∈ B) (destination : Place) :
    MustSim B (L ∪ callSettles func destination) (L ∪ callSettles func destination)
      (applyCall tcx body summaries bb func args destination s)
      (applyCall tcx body summaries bb func args destination t) := by
  have henter := h.enterCall tcx body summaries (resolveCallee tcx body func t) hargs
    destination.base
  have hopaque := henter.frame (escapeRawPtrArgs_writes _ body args)
    (escapeRawPtrArgs_writes _ body args) (by decide)
  have hsub := union_callSettles_subset L func destination
  unfold San.applyCall
  rw [h.resolveCallee_eq tcx body func]
  dsimp only
  cases hcallee : resolveCallee tcx body func t with
  | none =>
      rw [hcallee] at hopaque
      rw [callSettles_of_unresolved hcallee, Finset.union_empty]
      exact hopaque
  | some did =>
      rw [hcallee] at henter hopaque
      dsimp only
      split
      · exact (henter.applyResolvedCall tcx body summaries did hargs hrecv _ bb).mono hsub hsub
      · rename_i hdest
        rw [callSettles_of_projected hdest, Finset.union_empty]
        exact hopaque

theorem applyDrop (h : MustSim B C D s t) (place : Place) :
    MustSim B C D (applyDrop place s) (applyDrop place t) :=
  h.frame (applyDrop_writes s place) (applyDrop_writes t place) (by decide)

/-! ## Assertions and edges -/

theorem drain (h : MustSim B C D s t) {k : Fact} {c : Local}
    (hk : (s.facts k).get c = (t.facts k).get c) (m : MustSet) :
    MustSim B C D (drain k m c s) (drain k m c t) := by
  unfold San.drain
  rw [hk]
  split
  · exact h.insertMust m _
  · exact h

theorem drainComparison (h : MustSim B C D s t) {c : Local} (hc : c ∈ C) {k : Fact}
    (hk : k ∈ Fact.comparisons) (m : MustSet) :
    MustSim B C D (San.drain k m c s) (San.drain k m c t) :=
  h.drain (h.facts.comparisons k hk c hc) m

theorem drainDerived (h : MustSim B C D s t) {c : Local} (hc : c ∈ D) {k : Fact}
    (hk : k ∈ Fact.derived) (m : MustSet) :
    MustSim B C D (San.drain k m c s) (San.drain k m c t) :=
  h.drain (h.facts.derived k hk c hc) m

theorem drainPair (h : MustSim B C D s t) {c : Local} (hc : c ∈ D) (k : PairFact) (m : MustPairs)
    (norm : Local × Local → Local × Local) :
    MustSim B C D (drainPair k m norm c s) (drainPair k m norm c t) := by
  unfold San.drainPair
  rw [h.facts.pairFacts k c hc]
  split
  · exact h.onMustPairs [m] fun _ _ hmn => Finset.insert_subset_insert _ hmn
  · exact h

theorem drainUpper (h : MustSim B C D s t) {c : Local} (hc : c ∈ D) (k : ConstFact)
    (f : U64 → U64) : MustSim B C D (drainUpper k f c s) (drainUpper k f c t) := by
  unfold San.drainUpper
  rw [h.facts.constFacts k c hc]
  split
  · exact h.boundAboveBy _ (Tighter.refl (some _))
  · exact h

theorem drainLower (h : MustSim B C D s t) {c : Local} (hc : c ∈ D) (k : ConstFact)
    (f : U64 → U64) : MustSim B C D (drainLower k f c s) (drainLower k f c t) := by
  unfold San.drainLower
  rw [h.facts.constFacts k c hc]
  split
  · exact h.boundBelow _ _
  · exact h

theorem assertCondition (h : MustSim B C D s t) {cond : Operand}
    (hcond : ∀ c, operandLocal cond = some c → c ∈ C) (expected : Bool) :
    MustSim B C D (assertCondition cond expected s) (assertCondition cond expected t) := by
  unfold San.assertCondition
  split
  · exact h
  · rename_i c hc
    have hmem := hcond c hc
    split
    · exact (h.drainComparison hmem (by decide) .bounded).drainComparison hmem (by decide) _
    · exact (h.drainComparison hmem (by decide) .bounded).drainComparison hmem (by decide) _

theorem refineTrueEdge (h : MustSim B C D s t) {c : Local} (hC : c ∈ C) (hD : c ∈ D) :
    MustSim B C D (refineTrueEdge c s) (refineTrueEdge c t) := by
  have hbounded := (h.drainComparison (k := .ltFacts) hC (by decide) .bounded).drainComparison
    (k := .leFacts) hC (by decide) .boundedOrEq
  have hindex := (hbounded.drainPair hD .ltFor .indexBoundedFor id).drainPair hD .leFor
    .indexBoundedOrEqFor id
  have hcapacity := (hindex.drainDerived (k := .spareIfTrue) hD (by decide) .hasSpare).drainDerived
    (k := .fullIfTrue) hD (by decide) .isFull
  have hvalue := (hcapacity.drainDerived (k := .nonzeroIfTrue) hD (by decide)
    .nonzero).drainDerived (k := .finiteIfTrue) hD (by decide) .finite
  have hupper := (hvalue.drainUpper hD .constLt predSat).drainUpper hD .constLe id
  have hlower := (hupper.drainLower hD .constGt succSat).drainLower hD .constGe id
  exact (hlower.drainPair hD .nePairIfTrue .keysAreNe orderPair).drainPair hD .eqPairIfTrue
    .eqLocals orderPair

theorem refineFalseEdge (h : MustSim B C D s t) {c : Local} (hC : c ∈ C) (hD : c ∈ D) :
    MustSim B C D (refineFalseEdge c s) (refineFalseEdge c t) := by
  have hbounded := (h.drainComparison (k := .geFacts) hC (by decide) .bounded).drainComparison
    (k := .gtFacts) hC (by decide) .boundedOrEq
  have hcapacity := (hbounded.drainDerived (k := .spareIfFalse) hD (by decide)
    .hasSpare).drainDerived (k := .fullIfFalse) hD (by decide) .isFull
  have hvalue := (hcapacity.drainDerived (k := .nonzeroIfFalse) hD (by decide)
    .nonzero).drainDerived (k := .nanIfTrue) hD (by decide) .finite
  have hlower := (hvalue.drainLower hD .constLt id).drainLower hD .constLe succSat
  have hupper := (hlower.drainUpper hD .constGt id).drainUpper hD .constGe predSat
  exact (hupper.drainPair hD .eqPairIfTrue .keysAreNe orderPair).drainPair hD .nePairIfTrue
    .eqLocals orderPair

/-- **An edge respects the relation**: where the conditional facts of the discriminant agree,
draining them proves nothing new that the path does not prove. -/
theorem refineSwitchintEdge {n : Nat} {term : Terminator n} (h : MustSim B C C s t)
    (hreads : ∀ l ∈ term.reads, l ∈ C) (succ : Fin n) :
    MustSim B C C (refineSwitchintEdge term succ s) (refineSwitchintEdge term succ t) := by
  obtain ⟨kind, span⟩ := term
  cases kind with
  | switchInt discr targets =>
      unfold San.refineSwitchintEdge
      dsimp only
      have hmem : ∀ c, operandLocal discr = some c → c ∈ C := fun c hc =>
        hreads c (by simp [Terminator.reads, operandLocal_base hc])
      split
      · rename_i c hc _
        exact h.refineTrueEdge (hmem c hc) (hmem c hc)
      · rename_i c hc _
        exact h.refineFalseEdge (hmem c hc) (hmem c hc)
      · exact h
  | _ => exact h

/-- **A terminator respects the relation.** -/
theorem applyTerminator {L : Finset Local} {body : Body} (h : MustSim B L L s t) (tcx : TyCtxt)
    (summaries : SummaryMap) (bb : Nat) {term : Terminator body.numBlocks}
    (hreads : ∀ l ∈ term.reads, l ∈ L) (hborrows : ∀ l ∈ term.borrows, l ∈ B) :
    MustSim B (L ∪ term.settles) (L ∪ term.settles) (applyTerminator tcx body summaries bb term s)
      (applyTerminator tcx body summaries bb term t) := by
  have hnone : ∀ {s t : BlockState}, MustSim B L L s t → MustSim B (L ∪ ∅) (L ∪ ∅) s t :=
    fun h => h.mono (Finset.union_empty L).subset (Finset.union_empty L).subset
  obtain ⟨kind, span⟩ := term
  cases kind with
  | call func args destination target unwind =>
      refine h.applyCall tcx body summaries bb func hreads (fun l hl => hborrows l ?_) destination
      simp [Terminator.borrows, hl]
  | assert cond expected target unwind =>
      refine hnone (h.assertCondition (fun c hc => hreads c ?_) expected)
      simp [Terminator.reads, operandLocal_base hc]
  | drop place target unwind => exact hnone (h.applyDrop place)
  | _ => exact hnone h

end MustSim

/-! ## Merges -/

section Merges
variable {B C D L : Finset Local} {a e p s t u : BlockState}

theorem ProvenIn.trans (h : ProvenIn s t) (h' : ProvenIn t u) : ProvenIn s u where
  mustSets k hk := (h.mustSets k hk).trans (h'.mustSets k hk)
  mustPairs k := (h.mustPairs k).trans (h'.mustPairs k)
  constUpper := h.constUpper.trans (fun _ _ _ => le_trans) h'.constUpper
  constLower := h.constLower.trans (fun _ _ _ => ge_trans) h'.constLower

theorem SameFacts.trans (h : SameFacts C D s t) (h' : SameFacts C D t u) : SameFacts C D s u where
  comparisons k hk := (h.comparisons k hk).trans (h'.comparisons k hk)
  derived k hk := (h.derived k hk).trans (h'.derived k hk)
  pairFacts k := (h.pairFacts k).trans (h'.pairFacts k)
  constFacts k := (h.constFacts k).trans (h'.constFacts k)
  fnPtrTargets := h.fnPtrTargets.trans h'.fnPtrTargets

theorem ProvenIn.refl (s : BlockState) : ProvenIn s s :=
  ⟨fun _ _ => Finset.Subset.refl _, fun _ => Finset.Subset.refl _, .refl le_refl _,
    fun _ v hv => ⟨v, hv, le_refl v⟩⟩

theorem SameFacts.refl (C D : Finset Local) (s : BlockState) : SameFacts C D s s :=
  ⟨fun _ _ => .refl _ _, fun _ _ => .refl _ _, fun _ => .refl _ _, fun _ => .refl _ _, rfl⟩

/-- Merging proves nothing that the state merged into does not prove. -/
theorem ProvenIn.joined_left (a e : BlockState) : ProvenIn (a.joined e) a where
  mustSets _ _ := Finset.inter_subset_left
  mustPairs _ := Finset.inter_subset_left
  constUpper := Discipline.within_weaken_left le_max_left _ _
  constLower := Discipline.within_weaken_left min_le_left _ _

theorem ProvenIn.joined_right (a e : BlockState) : ProvenIn (a.joined e) e where
  mustSets _ _ := Finset.inter_subset_right
  mustPairs _ := Finset.inter_subset_right
  constUpper := Discipline.within_weaken_right le_max_right _ _
  constLower := Discipline.within_weaken_right min_le_right _ _

/-- Where the conditional facts of two states agree, so do those of their merge. -/
theorem SameFacts.joined (h : SameFacts C D a e) : SameFacts C D (a.joined e) a where
  comparisons k hk := Discipline.agreeOn_growing (fun _ => rfl) (h.comparisons k hk)
  derived k hk := Discipline.agreeOn_growing (fun _ => rfl) (h.derived k hk)
  pairFacts k := Discipline.agreeOn_growing (fun _ => rfl) (h.pairFacts k)
  constFacts k := Discipline.agreeOn_growing (fun _ => rfl) (h.constFacts k)
  fnPtrTargets := by
    show Disciplines.agreement.join a.fnPtrTargets e.fnPtrTargets = a.fnPtrTargets
    rw [← h.fnPtrTargets]
    exact agreement_lawful.self _

theorem RefsInto.joined (ha : RefsInto B a) (he : RefsInto B e) : RefsInto B (a.joined e) := by
  intro l base hbase
  rcases Discipline.keepFirst_source hbase with h | h
  · exact ha l base h
  · exact he l base h

/-- **Merging keeps the relation with the paths merged before.** -/
theorem MustSim.joined_left (hC : SameFacts C D a e) (he : RefsInto B e) (h : MustSim B C D a p) :
    MustSim B C D (a.joined e) p :=
  ⟨hC.joined.trans h.facts, (ProvenIn.joined_left a e).trans h.proven, h.refs.joined he⟩

/-- **Merging establishes the relation with the paths of the state merged in.** -/
theorem MustSim.joined_right (hC : SameFacts C D a e) (ha : RefsInto B a) (h : MustSim B C D e p) :
    MustSim B C D (a.joined e) p :=
  ⟨(hC.joined.trans hC).trans h.facts, (ProvenIn.joined_right a e).trans h.proven, ha.joined h.refs⟩

/-- A merge that reports no change leaves a state that is related already. -/
theorem MustSim.of_joined (hch : (a.joinWith e).2 = false) (h : MustSim B C D (a.joined e) p) :
    MustSim B C D a p := by
  exact h.frame (joined_writes a hch).symm (.refl _ p) (by decide)

end Merges

/-! ## Paths -/

section Paths
variable {tcx : TyCtxt} {body : Body} {summaries : SummaryMap} {initial : BlockState}

/-- Conditional facts are settled by assignments and by calls to known functions. -/
def factUsage (body : Body) : Usage body := ⟨body.borrowed, Terminator.settles⟩

variable (tcx body summaries) in
theorem mustSim_respects : (factUsage body).Respects tcx summaries fun L =>
    MustSim body.borrowed L L where
  mono hL _ h := h.mono hL hL
  statement _ _ hstmt halways hreads h := h.applyStatement halways tcx body hreads fun _ hl =>
    body.borrowed_of_statement hstmt hl
  terminator b _ hterm _ hreads h := h.applyTerminator tcx summaries b.val hreads fun _ hl =>
    body.borrowed_of_terminator hterm hl
  edge _ succ hreads h := h.refineSwitchintEdge hreads succ

variable {live : body.BasicBlock → Finset Local}

/-- The targets of `ref_base` stay borrowed locals in every run. -/
theorem refsInto_invariant (hlive : (factUsage body).Live live)
    (hinit : RefsInto body.borrowed initial) :
    (flowProblem tcx body summaries initial).Invariant fun _ => RefsInto body.borrowed where
  init := hinit
  flow _ s _ hsucc h :=
    ((mustSim_respects tcx body summaries).edgeState hlive hsucc ⟨.refl _ _ s, .refl s, h⟩).refs
  join _ _ _ ha he := ha.joined he

/-- **What is proven at a block is proven on every path to it**, in every run whose merges
agree on the conditional facts of live locals. -/
theorem proven_on_paths (hlive : (factUsage body).Live live)
    (hinit : RefsInto body.borrowed initial)
    (hrun : (flowProblem tcx body summaries initial).RunMeets fun b =>
      SameFacts (live b) (live b)) {b : body.BasicBlock} {s p : BlockState}
    (hs : runFixpoint tcx body summaries initial b = some s)
    (hp : (flowProblem tcx body summaries initial).PathState b p) : ProvenIn s p := by
  have hmerges := hrun.and (refsInto_invariant hlive hinit)
  refine ((mustSim_respects tcx body summaries).solution_of_path hlive
    ⟨.refl _ _ _, .refl _, hinit⟩ ?_ ?_ ?_ hmerges hs hp).proven
  · exact fun n a e q hC h => h.joined_left hC.1 hC.2.2
  · exact fun n a e q hC h => h.joined_right hC.1 hC.2.1
  · exact fun n a e q _ hch h => h.of_joined hch

end Paths

/-- One branch sets `_4` to `_1 < _2`, the other to the same comparison or to `true`; then
`_4` is branched on. -/
def compareOrTrue (same : Bool) : Body :=
  .ofBlocks 0 3 [.other, .uint .usize, .uint .usize, .bool, .bool] 5
    (fun bb =>
      [.of [] (.switchInt (.ofNat 3) ⟨[(0, bb 1)], bb 2⟩),
        .of [.set 4 (.binaryOp .lt (.ofNat 1) (.ofNat 2))] (.goto (bb 3)),
        .of [.set 4 (if same then .binaryOp .lt (.ofNat 1) (.ofNat 2)
          else .use (.constant ⟨some 1, none⟩))] (.goto (bb 3)),
        .of [] (.switchInt (.ofNat 4) ⟨[(0, bb 5)], bb 4⟩),
        .of [] .return,
        .of [] .return])
    (by cases same <;> decide)

/-- The analysis of `compareOrTrue`, from the default state. -/
def compareProblem (same : Bool) : FlowProblem (compareOrTrue same).BasicBlock BlockState :=
  flowProblem (.ofPaths []) (compareOrTrue same) ∅ BlockState.default

/-- The locals that are read later on in `compareOrTrue`. -/
def compareLive (b : (compareOrTrue true).BasicBlock) : Finset Local :=
  if b.val = 3 then {Local.ofNat 4}
  else if 3 < b.val then ∅
  else {Local.ofNat 1, Local.ofNat 2, Local.ofNat 3}

/-- With the same comparison on both branches, what the merged comparison proves is proven
on the path through the second branch. -/
theorem proven_on_paths_compare : ∃ s p,
    runFixpoint (.ofPaths []) (compareOrTrue true) ∅ BlockState.default (4 : Fin 6) = some s ∧
    (compareProblem true).PathState (4 : Fin 6) p ∧
    Local.ofNat 1 ∈ s.mustSets .bounded ∧ ProvenIn s p := by
  have hlive : (factUsage (compareOrTrue true)).Live compareLive := by decide +kernel
  have hdone : ((compareProblem true).step^[7] (compareProblem true).initial).work = [] := by
    decide +kernel
  have hrun : (compareProblem true).RunMeets fun b => SameFacts (compareLive b) (compareLive b) :=
    FlowProblem.runMeets_of_done hdone (by decide +kernel)
  obtain ⟨s, hs, hbounded⟩ := FlowProblem.exists_solution hdone (n := (4 : Fin 6))
    (q := fun s => decide (Local.ofNat 1 ∈ s.mustSets .bounded)) (by decide +kernel)
  have hpath := (FlowProblem.PathState.start (P := compareProblem true)).along
    ([2, 3, 4] : List (Fin 6)) (by decide)
  have hinit : RefsInto (compareOrTrue true).borrowed BlockState.default := fun _ _ h => nomatch h
  exact ⟨s, _, hs, hpath, of_decide_eq_true hbounded,
    proven_on_paths hlive hinit hrun hs hpath⟩

/-- **A drained fact need not hold on all paths.**  On the path through the second branch of
`compareOrTrue` nothing bounds `_1`, but at the block behind the merged comparison `_1`
counts as bounded. -/
theorem drained_fact_unsound : ∃ s p,
    runFixpoint (.ofPaths []) (compareOrTrue false) ∅ BlockState.default (4 : Fin 6) = some s ∧
    (compareProblem false).PathState (4 : Fin 6) p ∧
    Local.ofNat 1 ∈ s.mustSets .bounded ∧ Local.ofNat 1 ∉ p.mustSets .bounded := by
  have hdone : ((compareProblem false).step^[7] (compareProblem false).initial).work = [] := by
    decide +kernel
  obtain ⟨s, hs, hbounded⟩ := FlowProblem.exists_solution hdone (n := (4 : Fin 6))
    (q := fun s => decide (Local.ofNat 1 ∈ s.mustSets .bounded)) (by decide +kernel)
  have hpath := (FlowProblem.PathState.start (P := compareProblem false)).along
    ([2, 3, 4] : List (Fin 6)) (by decide)
  exact ⟨s, _, hs, hpath, of_decide_eq_true hbounded, by decide +kernel⟩

end San
