import San.Liveness

/-! # What a redefinition of a local forgets

An assignment `dst = rvalue` puts a new value into `dst`, so what was known of the old
one should be gone: the state afterwards should not depend on the entries that `dst` had
before.  This is a statement about two runs.  `AgreeExcept l s t` says that two states
agree on everything but the entries keyed by `l`; `DifferAt l D s t` says, more finely,
that they differ at most in the entries of `l` in the fields `D`.  Each stage of a
transfer function either keeps `D` or *settles* some of its fields, by writing an entry
of `l` that does not depend on the old one, and a pipeline that settles all of `D` maps
the two states to the same one.

The numeric casts and the overflow-checked operations skip some of the clears that every
other arm makes, and no assignment touches `realloced_params`; `Rvalue.keeps` lists the
fields whose old entry survives, and `reassignment_forgets_iff` says that these are
exactly the ones that matter.
-/
namespace San

/-! ## Forgetting the entries of a local -/

namespace BlockState

/-- The state without any entry keyed by `l`, and without pairs that contain it. -/
def forget (l : Local) (s : BlockState) : BlockState where
  heap := s.heap
  pointsTo := s.pointsTo.erase l
  localProto := s.localProto.erase l
  typestate := s.typestate
  untrackedForgetSeen := s.untrackedForgetSeen
  init := s.init.erase l
  facts k := (s.facts k).erase l
  pairFacts k := (s.pairFacts k).erase l
  constFacts k := (s.constFacts k).erase l
  mustSets k := (s.mustSets k).erase l
  mustPairs k := (s.mustPairs k).filter fun p => p.1 ≠ l ∧ p.2 ≠ l
  maySets k := (s.maySets k).erase l
  ownerAlias := s.ownerAlias.erase l
  fnPtrTargets := s.fnPtrTargets.erase l
  constUpper := s.constUpper.erase l
  constLower := s.constLower.erase l
  arrayComponents := s.arrayComponents.erase l
  threadSpawned := s.threadSpawned
  fieldOwned := s.fieldOwned.retain fun key _ => key.1 ≠ l
  muRawPtr := s.muRawPtr.erase l
  muFieldInits := s.muFieldInits.erase l
  activeVariant := s.activeVariant.erase l

end BlockState

/-- The states agree on everything except the entries keyed by `l`. -/
def AgreeExcept (l : Local) (s t : BlockState) : Prop := s.forget l = t.forget l

/-- The fields whose entries are keyed by locals. -/
def Field.perLocal : List Field :=
  [Field.pointsTo, Field.localProto, Field.init] ++ Fact.all.map Field.fact ++
    PairFact.all.map Field.pairFact ++ ConstFact.all.map Field.constFact ++
    MustSet.all.map Field.mustSet ++ MustPairs.all.map Field.mustPairs ++
    MaySet.all.map Field.maySet ++
    [Field.ownerAlias, Field.fnPtrTargets, Field.constUpper, Field.constLower,
      Field.arrayComponents, Field.fieldOwned, Field.muRawPtr, Field.muFieldInits,
      Field.activeVariant]

namespace Field

/-- What an assignment leaves to the arms. -/
def tracking : List Field := [Field.pointsTo, Field.localProto] ++ scalars

/-- What an assignment has not settled when it comes to the arms. -/
def unsettled : List Field := Field.maySet .reallocedParams :: tracking

end Field

/-- The states agree in the field away from `l`. -/
def Field.SameOff (l : Local) (s t : BlockState) (f : Field) : Prop :=
  f.Same (s.forget l) (t.forget l)

theorem Field.Same.off {s t : BlockState} {f : Field} (h : f.Same s t) (l : Local) :
    f.SameOff l s t := by
  cases f <;> first | exact h | exact congrArg (FMap.erase · l) h | skip
  case mustSet k => exact congrArg (Finset.erase · l) h
  case maySet k => exact congrArg (Finset.erase · l) h
  case mustPairs k => exact congrArg (Finset.filter (fun p => p.1 ≠ l ∧ p.2 ≠ l)) h
  case fieldOwned => exact congrArg (FMap.retain · fun key _ => key.1 ≠ l) h

theorem BlockState.eq_of_same {s t : BlockState} (h : ∀ f : Field, f.Same s t) : t = s := by
  ext1
  case heap => exact h .heap
  case pointsTo => exact h .pointsTo
  case localProto => exact h .localProto
  case typestate => exact h .typestate
  case untrackedForgetSeen => exact h .untrackedForgetSeen
  case init => exact h .init
  case facts => exact funext fun k => h (.fact k)
  case pairFacts => exact funext fun k => h (.pairFact k)
  case constFacts => exact funext fun k => h (.constFact k)
  case mustSets => exact funext fun k => h (.mustSet k)
  case mustPairs => exact funext fun k => h (.mustPairs k)
  case maySets => exact funext fun k => h (.maySet k)
  case ownerAlias => exact h .ownerAlias
  case fnPtrTargets => exact h .fnPtrTargets
  case constUpper => exact h .constUpper
  case constLower => exact h .constLower
  case arrayComponents => exact h .arrayComponents
  case threadSpawned => exact h .threadSpawned
  case fieldOwned => exact h .fieldOwned
  case muRawPtr => exact h .muRawPtr
  case muFieldInits => exact h .muFieldInits
  case activeVariant => exact h .activeVariant

/-! ## Sets of locals that agree away from one -/

theorem mem_iff_of_erase_eq {m n : Finset Local} {l x : Local} (h : m.erase l = n.erase l)
    (hx : x ≠ l) : x ∈ m ↔ x ∈ n := by
  have hmem : x ∈ m.erase l ↔ x ∈ n.erase l := by rw [h]
  rwa [Finset.mem_erase, Finset.mem_erase, and_iff_right hx, and_iff_right hx] at hmem

theorem insert_eq_of_erase_eq {m n : Finset Local} {l : Local} (h : m.erase l = n.erase l) :
    insert l m = insert l n := by
  ext x
  rw [Finset.mem_insert, Finset.mem_insert]
  by_cases hx : x = l
  · simp [hx]
  · rw [mem_iff_of_erase_eq h hx]

theorem copySet_eq_of_erase_eq {m n : Finset Local} {src dst : Local}
    (h : m.erase dst = n.erase dst) (hsrc : src ≠ dst) :
    copySet src dst m = copySet src dst n := by
  unfold copySet
  rw [if_congr (mem_iff_of_erase_eq h hsrc) (insert_eq_of_erase_eq h) h]

theorem moveSet_eq_of_erase_eq {m n : Finset Local} {src dst : Local}
    (h : m.erase dst = n.erase dst) (hsrc : src ≠ dst) :
    moveSet src dst m = moveSet src dst n := by
  have herase : (m.erase src).erase dst = (n.erase src).erase dst := by
    rw [Finset.erase_right_comm, h, Finset.erase_right_comm]
  unfold moveSet
  rw [if_congr (mem_iff_of_erase_eq h hsrc) (insert_eq_of_erase_eq herase) herase]

/-! ## Differing in some entries of a local -/

/-- The states differ at most in the entries of `l` in the fields `D`. -/
structure DifferAt (l : Local) (D : List Field) (s t : BlockState) : Prop where
  off : ∀ f : Field, f.SameOff l s t
  same : Writes D s t

namespace DifferAt
variable {l : Local} {D F : List Field} {s t s' t' : BlockState}

theorem ofAgreeExcept (h : AgreeExcept l s t) : DifferAt l Field.perLocal s t := by
  have hoff : ∀ f : Field, f.SameOff l s t := fun f => by
    unfold Field.SameOff
    rw [show s.forget l = t.forget l from h]
    exact .refl _ f
  refine ⟨hoff, fun f hf => ?_⟩
  cases f with
  | fact k => exact absurd (by cases k <;> decide) hf
  | pairFact k => exact absurd (by cases k <;> decide) hf
  | constFact k => exact absurd (by cases k <;> decide) hf
  | mustSet k => exact absurd (by cases k <;> decide) hf
  | mustPairs k => exact absurd (by cases k <;> decide) hf
  | maySet k => exact absurd (by cases k <;> decide) hf
  | heap => exact hoff .heap
  | typestate => exact hoff .typestate
  | untrackedForgetSeen => exact hoff .untrackedForgetSeen
  | threadSpawned => exact hoff .threadSpawned
  | _ => exact absurd (by decide) hf

theorem refl (l : Local) (D : List Field) (s : BlockState) : DifferAt l D s s :=
  ⟨fun f => .refl _ f, .refl D s⟩

theorem agreeExcept (h : DifferAt l D s t) : AgreeExcept l s t :=
  (BlockState.eq_of_same h.off).symm

/-- Fields on which the states agree wholly need not be listed. -/
theorem without (h : DifferAt l D s t) (hF : ∀ f ∈ F, f.Same s t) :
    DifferAt l (D.filter (· ∉ F)) s t := by
  refine ⟨h.off, fun f hf => ?_⟩
  by_cases hmem : f ∈ F
  · exact hF f hmem
  · exact h.same f fun hD => hf (List.mem_filter.mpr ⟨hD, by simpa using hmem⟩)

theorem mono (h : DifferAt l D s t) (hD : D ⊆ F) : DifferAt l F s t := ⟨h.off, h.same.mono hD⟩

theorem ofFilter {p : Field → Bool} (h : DifferAt l (D.filter p) s t) : DifferAt l D s t :=
  h.mono fun _ hf => (List.mem_filter.mp hf).1

/-- Fields that were not apart are the same. -/
theorem sameOf (h : DifferAt l D s t) (hD : D ⊆ F) {f : Field} (hf : f ∉ F) : f.Same s t :=
  h.same f fun hmem => hf (hD hmem)

theorem settled {G : List Field} (h : DifferAt l (D.filter (· ∉ F)) s t) (hG : G ⊆ F) :
    DifferAt l (D.filter (· ∉ G)) s t := by
  refine h.mono fun f hf => ?_
  simp only [List.mem_filter, decide_eq_true_eq] at hf ⊢
  exact ⟨hf.1, fun hmem => hf.2 (hG hmem)⟩

theorem eq (h : DifferAt l [] s t) : t = s :=
  BlockState.eq_of_same fun f => h.same f (List.not_mem_nil)

/-- **A stage settles what it writes alike in both states.** -/
theorem settle (h : DifferAt l D s t) (hs : Writes F s s') (ht : Writes F t t')
    (hF : ∀ f ∈ F, f.Same s' t') : DifferAt l (D.filter (· ∉ F)) s' t' := by
  have hsame : ∀ f, f ∉ F → f.Same s t → f.Same s' t' := fun f hf hst =>
    (hs f hf).symm.trans (hst.trans (ht f hf))
  refine ⟨fun f => ?_, fun f hf => ?_⟩
  · by_cases hmem : f ∈ F
    · exact (hF f hmem).off l
    · exact ((hs f hmem).off l).symm.trans ((h.off f).trans ((ht f hmem).off l))
  · by_cases hmem : f ∈ F
    · exact hF f hmem
    · exact hsame f hmem (h.same f fun hD => hf (List.mem_filter.mpr ⟨hD, by simpa using hmem⟩))

/-- A stage that writes alike keeps the states as close as they were. -/
theorem keep (h : DifferAt l D s t) (hs : Writes F s s') (ht : Writes F t t')
    (hF : ∀ f ∈ F, f.Same s' t') : DifferAt l D s' t' :=
  (h.settle hs ht hF).ofFilter

/-- A stage may also keep what it writes apart at `l`. -/
theorem keepOff (h : DifferAt l D s t) (hs : Writes F s s') (ht : Writes F t t')
    (hF : ∀ f ∈ F, f.SameOff l s' t' ∧ (f ∉ D → f.Same s' t')) : DifferAt l D s' t' := by
  refine ⟨fun f => ?_, fun f hf => ?_⟩
  · by_cases hmem : f ∈ F
    · exact (hF f hmem).1
    · exact ((hs f hmem).off l).symm.trans ((h.off f).trans ((ht f hmem).off l))
  · by_cases hmem : f ∈ F
    · exact (hF f hmem).2 hf
    · exact (hs f hmem).symm.trans ((h.same f hf).trans (ht f hmem))

/-! ### Families

A function that maps the two members alike settles them, whether it does so because the
members are the same or because it does not look at the entry of `l`. -/

theorem onFacts (h : DifferAt l D s t) (ks : List Fact) (f g : FMap Local Local → FMap Local Local)
    (hg : ∀ k ∈ ks, g (t.facts k) = f (s.facts k)) :
    DifferAt l (D.filter (· ∉ ks.map Field.fact)) (s.onFacts ks f) (t.onFacts ks g) := by
  refine h.settle (s.onFacts_writes ks f) (t.onFacts_writes ks g) fun field hfield => ?_
  obtain ⟨k, hk, rfl⟩ := List.mem_map.mp hfield
  show (if k ∈ ks then _ else _) = if k ∈ ks then _ else _
  rw [if_pos hk, if_pos hk, hg k hk]

theorem onPairFacts (h : DifferAt l D s t) (ks : List PairFact)
    (f g : FMap Local (Local × Local) → FMap Local (Local × Local))
    (hg : ∀ k ∈ ks, g (t.pairFacts k) = f (s.pairFacts k)) :
    DifferAt l (D.filter (· ∉ ks.map Field.pairFact)) (s.onPairFacts ks f) (t.onPairFacts ks g) := by
  refine h.settle (s.onPairFacts_writes ks f) (t.onPairFacts_writes ks g) fun field hfield => ?_
  obtain ⟨k, hk, rfl⟩ := List.mem_map.mp hfield
  show (if k ∈ ks then _ else _) = if k ∈ ks then _ else _
  rw [if_pos hk, if_pos hk, hg k hk]

theorem onConstFacts (h : DifferAt l D s t) (ks : List ConstFact)
    (f g : FMap Local (Local × U64) → FMap Local (Local × U64))
    (hg : ∀ k ∈ ks, g (t.constFacts k) = f (s.constFacts k)) :
    DifferAt l (D.filter (· ∉ ks.map Field.constFact)) (s.onConstFacts ks f)
      (t.onConstFacts ks g) := by
  refine h.settle (s.onConstFacts_writes ks f) (t.onConstFacts_writes ks g) fun field hfield => ?_
  obtain ⟨k, hk, rfl⟩ := List.mem_map.mp hfield
  show (if k ∈ ks then _ else _) = if k ∈ ks then _ else _
  rw [if_pos hk, if_pos hk, hg k hk]

theorem onMustSets (h : DifferAt l D s t) (ks : List MustSet) (f g : Finset Local → Finset Local)
    (hg : ∀ k ∈ ks, g (t.mustSets k) = f (s.mustSets k)) :
    DifferAt l (D.filter (· ∉ ks.map Field.mustSet)) (s.onMustSets ks f) (t.onMustSets ks g) := by
  refine h.settle (s.onMustSets_writes ks f) (t.onMustSets_writes ks g) fun field hfield => ?_
  obtain ⟨k, hk, rfl⟩ := List.mem_map.mp hfield
  show (if k ∈ ks then _ else _) = if k ∈ ks then _ else _
  rw [if_pos hk, if_pos hk, hg k hk]

theorem onMustPairs (h : DifferAt l D s t) (ks : List MustPairs)
    (f g : Finset (Local × Local) → Finset (Local × Local))
    (hg : ∀ k ∈ ks, g (t.mustPairs k) = f (s.mustPairs k)) :
    DifferAt l (D.filter (· ∉ ks.map Field.mustPairs)) (s.onMustPairs ks f)
      (t.onMustPairs ks g) := by
  refine h.settle (s.onMustPairs_writes ks f) (t.onMustPairs_writes ks g) fun field hfield => ?_
  obtain ⟨k, hk, rfl⟩ := List.mem_map.mp hfield
  show (if k ∈ ks then _ else _) = if k ∈ ks then _ else _
  rw [if_pos hk, if_pos hk, hg k hk]

theorem onMaySets (h : DifferAt l D s t) (ks : List MaySet) (f g : Finset Local → Finset Local)
    (hg : ∀ k ∈ ks, g (t.maySets k) = f (s.maySets k)) :
    DifferAt l (D.filter (· ∉ ks.map Field.maySet)) (s.onMaySets ks f) (t.onMaySets ks g) := by
  refine h.settle (s.onMaySets_writes ks f) (t.onMaySets_writes ks g) fun field hfield => ?_
  obtain ⟨k, hk, rfl⟩ := List.mem_map.mp hfield
  show (if k ∈ ks then _ else _) = if k ∈ ks then _ else _
  rw [if_pos hk, if_pos hk, hg k hk]

/-! ### Single entries -/

theorem andThen {G : List Field} (h : DifferAt l ((D.filter (· ∉ F)).filter (· ∉ G)) s t) :
    DifferAt l (D.filter (· ∉ F ++ G)) s t := by
  refine h.mono fun f hf => ?_
  simp only [List.mem_filter, decide_eq_true_eq] at hf
  simp only [List.mem_filter, List.mem_append, not_or, decide_eq_true_eq]
  exact ⟨hf.1.1, hf.1.2, hf.2⟩

theorem setObjects (h : DifferAt l D s t) (o : Option (Finset ObjectId)) :
    DifferAt l (D.filter (· ∉ [Field.pointsTo])) (s.setObjects l o) (t.setObjects l o) :=
  h.settle (s.setObjects_writes l o) (t.setObjects_writes l o)
    (List.forall_mem_singleton.mpr (FMap.put_eq_of_erase_eq (h.off .pointsTo) o))

theorem setOwners (h : DifferAt l D s t) (o : Option (Finset Local)) :
    DifferAt l (D.filter (· ∉ [Field.ownerAlias])) (s.setOwners l o) (t.setOwners l o) :=
  h.settle (s.setOwners_writes l o) (t.setOwners_writes l o)
    (List.forall_mem_singleton.mpr (FMap.put_eq_of_erase_eq (h.off .ownerAlias) o))

theorem dropProto (h : DifferAt l D s t) :
    DifferAt l (D.filter (· ∉ [Field.localProto])) (s.dropProto l) (t.dropProto l) :=
  h.settle (s.dropProto_writes l) (t.dropProto_writes l)
    (List.forall_mem_singleton.mpr (h.off .localProto))

theorem clearInit (h : DifferAt l D s t) :
    DifferAt l (D.filter (· ∉ [Field.init])) (s.clearInit l) (t.clearInit l) :=
  h.settle (s.clearInit_writes l) (t.clearInit_writes l)
    (List.forall_mem_singleton.mpr (h.off .init))

theorem clearBounds (h : DifferAt l D s t) :
    DifferAt l (D.filter (· ∉ [Field.constUpper, Field.constLower, Field.arrayComponents]))
      (s.clearBounds l) (t.clearBounds l) := by
  refine h.settle (s.clearBounds_writes l) (t.clearBounds_writes l) fun f hf => ?_
  simp only [List.mem_cons, List.not_mem_nil, or_false] at hf
  rcases hf with rfl | rfl | rfl
  · exact h.off .constUpper
  · exact h.off .constLower
  · exact h.off .arrayComponents

theorem clearParts (h : DifferAt l D s t) :
    DifferAt l (D.filter (· ∉ [Field.activeVariant, Field.muRawPtr, Field.muFieldInits]))
      (s.clearParts l) (t.clearParts l) := by
  refine h.settle (s.clearParts_writes l) (t.clearParts_writes l) fun f hf => ?_
  simp only [List.mem_cons, List.not_mem_nil, or_false] at hf
  rcases hf with rfl | rfl | rfl
  · exact h.off .activeVariant
  · exact h.off .muRawPtr
  · exact h.off .muFieldInits

theorem clearFieldOwnedFor (h : DifferAt l D s t) :
    DifferAt l (D.filter (· ∉ [Field.fieldOwned])) (s.clearFieldOwnedFor l)
      (t.clearFieldOwnedFor l) :=
  h.settle (s.clearFieldOwnedFor_writes l) (t.clearFieldOwnedFor_writes l)
    (List.forall_mem_singleton.mpr (h.off .fieldOwned))

/-- What an assignment and a call forget alike is settled. -/
theorem clearRedefined (h : DifferAt l D s t) :
    DifferAt l (D.filter (· ∉ Field.derived)) (s.clearRedefined l) (t.clearRedefined l) := by
  have hfacts := h.onFacts Fact.derived (·.erase l) (·.erase l) fun k _ => h.off (.fact k)
  have hpairFacts := (hfacts.onPairFacts PairFact.all (·.erase l) (·.erase l) fun k _ =>
    hfacts.off (.pairFact k)).andThen
  have hconstFacts := (hpairFacts.onConstFacts ConstFact.all (·.erase l) (·.erase l) fun k _ =>
    hpairFacts.off (.constFact k)).andThen
  have hmust := (hconstFacts.onMustSets MustSet.derived (·.erase l) (·.erase l) fun k _ =>
    hconstFacts.off (.mustSet k)).andThen
  have hpairs := (hmust.onMustPairs MustPairs.all (·.filter fun p => p.1 ≠ l ∧ p.2 ≠ l)
    (·.filter fun p => p.1 ≠ l ∧ p.2 ≠ l) fun k _ => hmust.off (.mustPairs k)).andThen
  have hmay := (hpairs.onMaySets [.fdConsumed] (·.erase l) (·.erase l) fun k _ =>
    hpairs.off (.maySet k)).andThen
  exact hmay.clearBounds.andThen

/-- So is what only an assignment forgets. -/
theorem clearAssigned (h : DifferAt l D s t) :
    DifferAt l (D.filter (· ∉ Field.dropped)) (s.clearAssigned l) (t.clearAssigned l) := by
  have hmay := h.onMaySets [.constPtrCast, .mulOverflow, .layoutOverflow] (·.erase l) (·.erase l)
    fun k _ => h.off (.maySet k)
  exact hmay.clearParts.andThen.clearFieldOwnedFor.andThen

/-- **The clears that end most arms** settle what they clear. -/
theorem clearScalarFacts (h : DifferAt l D s t) :
    DifferAt l (D.filter (· ∉ Field.scalars)) (s.clearScalarFacts l) (t.clearScalarFacts l) := by
  have hfacts := (h.clearInit.onFacts Fact.comparisons (·.erase l) (·.erase l) fun k _ =>
    h.clearInit.off (.fact k)).andThen
  exact (hfacts.onMustSets MustSet.scalar (·.erase l) (·.erase l) fun k _ =>
    hfacts.off (.mustSet k)).andThen

/-! ### Reading other locals, and writing entries of `l` -/

theorem get_pointsTo (h : DifferAt l D s t) {x : Local} (hx : x ≠ l) :
    t.pointsTo.get x = s.pointsTo.get x := FMap.get_eq_of_erase_eq (h.off .pointsTo) hx

theorem get_ownerAlias (h : DifferAt l D s t) {x : Local} (hx : x ≠ l) :
    t.ownerAlias.get x = s.ownerAlias.get x := FMap.get_eq_of_erase_eq (h.off .ownerAlias) hx

theorem objectsFor (h : DifferAt l D s t) {x : Local} (hx : x ≠ l) :
    t.objectsFor x = s.objectsFor x := by
  rw [BlockState.objectsFor, h.get_pointsTo hx, BlockState.objectsFor]

theorem ownersOf (h : DifferAt l D s t) {x : Local} (hx : x ≠ l) :
    t.ownersOf x = s.ownersOf x := by
  rw [BlockState.ownersOf, h.get_ownerAlias hx, BlockState.ownersOf]

theorem derefBase (h : DifferAt l D s t) {x : Local} (hx : x ≠ l) :
    t.derefBase x = s.derefBase x := by
  rw [BlockState.derefBase, FMap.get_eq_of_erase_eq (h.off (.fact .refBase)) hx,
    BlockState.derefBase]

theorem mem_mustSets (h : DifferAt l D s t) (k : MustSet) {x : Local} (hx : x ≠ l) :
    x ∈ t.mustSets k ↔ x ∈ s.mustSets k := mem_iff_of_erase_eq (h.off (.mustSet k)) hx

theorem mem_maySets (h : DifferAt l D s t) (k : MaySet) {x : Local} (hx : x ≠ l) :
    x ∈ t.maySets k ↔ x ∈ s.maySets k := mem_iff_of_erase_eq (h.off (.maySet k)) hx

theorem insertFact (h : DifferAt l D s t) (k : Fact) (v : Local) :
    DifferAt l D (s.insertFact k l v) (t.insertFact k l v) :=
  (h.onFacts [k] (·.insert l v) (·.insert l v) fun k' _ =>
    FMap.put_eq_of_erase_eq (h.off (.fact k')) (some v)).ofFilter

theorem insertMust (h : DifferAt l D s t) (k : MustSet) :
    DifferAt l D (s.insertMust k l) (t.insertMust k l) :=
  (h.onMustSets [k] (insert l) (insert l) fun k' _ =>
    insert_eq_of_erase_eq (h.off (.mustSet k'))).ofFilter

theorem insertMay (h : DifferAt l D s t) (k : MaySet) :
    DifferAt l D (s.insertMay k l) (t.insertMay k l) :=
  (h.onMaySets [k] (insert l) (insert l) fun k' _ =>
    insert_eq_of_erase_eq (h.off (.maySet k'))).ofFilter

theorem setConstant (h : DifferAt l D s t) (val : U64) :
    DifferAt l D (s.setConstant l val) (t.setConstant l val) := by
  refine h.keep (s.setConstant_writes l val) (t.setConstant_writes l val) fun f hf => ?_
  simp only [List.mem_cons, List.not_mem_nil, or_false] at hf
  rcases hf with rfl | rfl
  · exact FMap.put_eq_of_erase_eq (h.off .constUpper) (some val)
  · exact FMap.put_eq_of_erase_eq (h.off .constLower) (some val)

theorem setActiveVariant (h : DifferAt l D s t) (f : FieldIdx) :
    DifferAt l D (s.setActiveVariant l f) (t.setActiveVariant l f) :=
  h.keep (s.setActiveVariant_writes l f) (t.setActiveVariant_writes l f)
    (List.forall_mem_singleton.mpr (FMap.put_eq_of_erase_eq (h.off .activeVariant) (some f)))

theorem setComponents (h : DifferAt l D s t) (cs : List Local) :
    DifferAt l D (setComponents l cs s) (setComponents l cs t) :=
  h.keep (setComponents_writes s l cs) (setComponents_writes t l cs)
    (List.forall_mem_singleton.mpr (FMap.put_eq_of_erase_eq (h.off .arrayComponents) (some cs)))

/-- A bound that is only tightened depends on what it was. -/
theorem boundAboveBy (h : DifferAt l D s t) (hD : .constUpper ∉ D) (x : Local) (o : Option U64) :
    DifferAt l D (s.boundAboveBy x o) (t.boundAboveBy x o) := by
  refine h.keep (s.boundAboveBy_writes x o) (t.boundAboveBy_writes x o)
    (List.forall_mem_singleton.mpr ?_)
  have hupper : t.constUpper = s.constUpper := h.same .constUpper hD
  cases o with
  | none => exact hupper
  | some ub =>
      show t.constUpper.insert x _ = s.constUpper.insert x _
      rw [hupper]

theorem enforceTypeFacts (h : DifferAt l D s t) (hD : .constUpper ∉ D) (tcx : TyCtxt) (ty : Ty) :
    DifferAt l D (enforceTypeFacts tcx l ty s) (enforceTypeFacts tcx l ty t) := by
  refine DifferAt.boundAboveBy ?_ hD l (uintTypeMax ty)
  split
  · exact h.insertMust .nonzero
  · exact h

end DifferAt

/-! ## Locals that an operand does not mention -/

theorem operandLocal_ne {op : Operand} {l x : Local} (h : l ∉ op.locals)
    (hx : operandLocal op = some x) : x ≠ l := by
  rintro rfl
  obtain ⟨p, hp, rfl⟩ := Option.map_eq_some_iff.mp (operandLocal_base hx)
  refine h ?_
  unfold Operand.locals
  rw [hp]
  exact List.mem_cons_self

theorem place_base_ne {op : Operand} {l : Local} (h : l ∉ op.locals) {p : Place}
    (hp : op.place = some p) : p.base ≠ l := by
  rintro rfl
  refine h ?_
  unfold Operand.locals
  rw [hp]
  exact List.mem_cons_self

theorem operandLocals_ne {ops : List Operand} {l : Local} (h : l ∉ ops.flatMap Operand.locals) :
    ∀ x ∈ ops.filterMap operandLocal, x ≠ l := by
  intro x hx
  obtain ⟨op, hop, hl⟩ := List.mem_filterMap.mp hx
  exact operandLocal_ne (fun hmem => h (List.mem_flatMap.mpr ⟨op, hop, hmem⟩)) hl

theorem rvaluePlace_base_ne {rvalue : Rvalue} {l : Local} (h : l ∉ rvalue.locals) {p : Place}
    (hp : rvaluePlace rvalue = some p) : p.base ≠ l := by
  cases rvalue with
  | use op => exact place_base_ne h hp
  | cast kind op ty => exact place_base_ne h hp
  | ref q | rawPtr q =>
      cases hp
      exact fun he => h (he ▸ List.mem_cons_self)
  | _ => cases hp

theorem rvalueLocal_ne {rvalue : Rvalue} {l x : Local} (h : l ∉ rvalue.locals)
    (hx : rvalueLocal rvalue = some x) : x ≠ l := by
  cases rvalue with
  | use op => exact operandLocal_ne h hx
  | _ => cases hx

/-! ## The stages of an assignment -/

namespace DifferAt
variable {dst : Local} {D : List Field} {s t : BlockState}

theorem invalidateOwners (h : DifferAt dst D s t) (owners : Finset Local) :
    DifferAt dst D (s.invalidateOwners owners) (t.invalidateOwners owners) := by
  refine h.keepOff (s.invalidateOwners_writes owners) (t.invalidateOwners_writes owners)
    (List.forall_mem_singleton.mpr ?_)
  unfold BlockState.invalidateOwners
  split
  · exact ⟨h.off .ownerAlias, fun hD => h.same .ownerAlias hD⟩
  · refine ⟨FMap.erase_eq_of_get_eq fun x hx => ?_, fun hD => ?_⟩
    · rw [FMap.get_filterMap, FMap.get_filterMap, h.get_ownerAlias hx]
    · have howners : t.ownerAlias = s.ownerAlias := h.same .ownerAlias hD
      show t.ownerAlias.filterMap _ = s.ownerAlias.filterMap _
      rw [howners]

theorem rvalueOwners (h : DifferAt dst D s t) (body : Body) {rvalue : Rvalue}
    (hfresh : dst ∉ rvalue.locals) :
    rvalueOwners body dst rvalue t = rvalueOwners body dst rvalue s := by
  unfold San.rvalueOwners
  split
  · exact List.foldr_ext _ _ _ fun x hx owners => by rw [h.ownersOf (operandLocals_ne hfresh x hx)]
  · split
    · rfl
    · next place hplace =>
        have hbase := rvaluePlace_base_ne hfresh hplace
        unfold placeOwners
        rw [h.get_ownerAlias hbase]

theorem updateOwnerAlias (h : DifferAt dst D s t) (body : Body) {rvalue : Rvalue}
    (hfresh : dst ∉ rvalue.locals) :
    DifferAt dst (D.filter (· ∉ [Field.ownerAlias])) (updateOwnerAlias body dst rvalue s)
      (updateOwnerAlias body dst rvalue t) := by
  unfold San.updateOwnerAlias
  rw [h.rvalueOwners body hfresh]
  exact h.setOwners _

theorem updateFnPtrTarget (h : DifferAt dst D s t) {rvalue : Rvalue}
    (hfresh : dst ∉ rvalue.locals) :
    DifferAt dst (D.filter (· ∉ [Field.fnPtrTargets])) (updateFnPtrTarget dst rvalue s)
      (updateFnPtrTarget dst rvalue t) := by
  refine h.settle (updateFnPtrTarget_writes s dst rvalue) (updateFnPtrTarget_writes t dst rvalue)
    (List.forall_mem_singleton.mpr ?_)
  have htarget : rvalueFnTarget rvalue t = rvalueFnTarget rvalue s := by
    unfold rvalueFnTarget
    split
    · rfl
    · cases hl : rvalueLocal rvalue with
      | none => rfl
      | some x =>
          exact FMap.get_eq_of_erase_eq (h.off .fnPtrTargets) (rvalueLocal_ne hfresh hl)
  show t.fnPtrTargets.put dst _ = s.fnPtrTargets.put dst _
  rw [htarget]
  exact FMap.put_eq_of_erase_eq (h.off .fnPtrTargets) _

theorem recordRefBase (h : DifferAt dst D s t) (rvalue : Rvalue) :
    DifferAt dst D (recordRefBase dst rvalue s) (recordRefBase dst rvalue t) := by
  unfold San.recordRefBase
  split
  · exact h.insertFact .refBase _
  · exact h.insertFact .refBase _
  · exact h

theorem recordLenOf (h : DifferAt dst D s t) {rvalue : Rvalue} (hfresh : dst ∉ rvalue.locals) :
    DifferAt dst D (recordLenOf dst rvalue s) (recordLenOf dst rvalue t) := by
  unfold San.recordLenOf
  split
  · next op =>
      split
      · next x hx =>
          rw [h.derefBase (operandLocal_ne hfresh hx)]
          exact h.insertFact .lenOf _
      · exact h
  · exact h

/-! ### Moves and copies -/

theorem propagateUse (h : DifferAt dst D s t) (hD : D ⊆ Field.unsettled) (src : Local)
    (isMove : Bool) :
    DifferAt dst D (propagateUse src dst isMove s) (propagateUse src dst isMove t) := by
  have hmust := (h.onMustSets MustSet.derived (propagateSet src dst isMove)
    (propagateSet src dst isMove) fun k hk => congrArg _ (h.sameOf hD
      ((by decide : ∀ k ∈ MustSet.derived, Field.mustSet k ∉ Field.unsettled) k hk))).ofFilter
  have hmay := (hmust.onMaySets [.fdConsumed, .mulOverflow, .layoutOverflow]
    (propagateSet src dst isMove) (propagateSet src dst isMove) fun k hk =>
      congrArg _ (hmust.sameOf hD ((by decide :
        ∀ k ∈ [MaySet.fdConsumed, .mulOverflow, .layoutOverflow],
          Field.maySet k ∉ Field.unsettled) k hk))).ofFilter
  have hfacts := (hmay.onFacts [.castOrigin] (propagateMap src dst isMove)
    (propagateMap src dst isMove) (List.forall_mem_singleton.mpr
      (congrArg _ (hmay.sameOf hD (f := .fact .castOrigin) (by decide))))).ofFilter
  refine hfacts.keep (propagateMaps_writes _ src dst isMove) (propagateMaps_writes _ src dst isMove)
    fun f hf => ?_
  have hnot : ∀ f ∈ [Field.activeVariant, .muRawPtr, .muFieldInits, .arrayComponents, .constUpper,
      .constLower], f ∉ Field.unsettled := by decide
  have hsame := hfacts.sameOf hD (hnot f hf)
  simp only [List.mem_cons, List.not_mem_nil, or_false] at hf
  rcases hf with rfl | rfl | rfl | rfl | rfl | rfl
  · exact congrArg (transferMap src dst isMove) hsame
  · exact congrArg (transferMap src dst isMove) hsame
  · exact congrArg (transferMap src dst isMove) hsame
  · exact congrArg (propagateMap src dst isMove) hsame
  · exact congrArg (propagateMap src dst isMove) hsame
  · exact congrArg (propagateMap src dst isMove) hsame

theorem propagateRvalue (h : DifferAt dst D s t) (hD : D ⊆ Field.unsettled) (rvalue : Rvalue) :
    DifferAt dst D (propagateRvalue dst rvalue s) (propagateRvalue dst rvalue t) := by
  unfold San.propagateRvalue
  split
  · split
    · exact h.propagateUse hD _ true
    · exact h
  · split
    · exact h.propagateUse hD _ false
    · exact h
  · exact h

/-- What a move or a copy does to the comparison facts, the scalar sets and the
`const` taint, if the tracked data has been carried over. -/
theorem carryScalars (h : DifferAt dst (D.filter (· ∉ [Field.pointsTo, .localProto, .init])) s t)
    {f : FMap Local Local → FMap Local Local} {g : Finset Local → Finset Local}
    (hf : ∀ m n : FMap Local Local, m.erase dst = n.erase dst → f m = f n)
    (hg : ∀ m n : Finset Local, m.erase dst = n.erase dst → g m = g n) :
    DifferAt dst (D.filter (· ∉ Field.tracking))
      (((s.onFacts Fact.comparisons f).onMustSets MustSet.scalar g).onMaySets [.constPtrCast] g)
      (((t.onFacts Fact.comparisons f).onMustSets MustSet.scalar g).onMaySets [.constPtrCast] g) := by
  have hfacts := (h.onFacts Fact.comparisons f f fun k _ => hf _ _ (h.off (.fact k))).andThen
  have hmust := (hfacts.onMustSets MustSet.scalar g g fun k _ =>
    hg _ _ (hfacts.off (.mustSet k))).andThen
  have hmay := hmust.onMaySets [.constPtrCast] g g fun k _ => hg _ _ (hmust.off (.maySet k))
  exact hmay.ofFilter.settled (by decide)

theorem assignMove (h : DifferAt dst D s t) {src : Local} (hsrc : src ≠ dst) :
    DifferAt dst (D.filter (· ∉ Field.tracking)) (assignMove src dst s) (assignMove src dst t) := by
  have htracked : DifferAt dst (D.filter (· ∉ [Field.pointsTo, .localProto, .init]))
      (moveTracked src dst s) (moveTracked src dst t) := by
    refine h.settle (moveTracked_writes s src dst) (moveTracked_writes t src dst) fun f hf => ?_
    simp only [List.mem_cons, List.not_mem_nil, or_false] at hf
    rcases hf with rfl | rfl | rfl
    · show (t.pointsTo.erase src).put dst _ = (s.pointsTo.erase src).put dst _
      rw [h.get_pointsTo hsrc]
      exact FMap.put_eq_of_erase_eq (FMap.erase_comm_of_erase_eq (h.off .pointsTo) src) _
    · show (t.localProto.erase src).put dst _ = (s.localProto.erase src).put dst _
      rw [FMap.get_eq_of_erase_eq (h.off .localProto) hsrc]
      exact FMap.put_eq_of_erase_eq (FMap.erase_comm_of_erase_eq (h.off .localProto) src) _
    · exact FMap.moveKey_eq_of_erase_eq (h.off .init) hsrc
  exact htracked.carryScalars (fun _ _ hmn => FMap.moveKey_eq_of_erase_eq hmn hsrc)
    fun _ _ hmn => moveSet_eq_of_erase_eq hmn hsrc

theorem assignCopy (h : DifferAt dst D s t) {src : Local} (hsrc : src ≠ dst) :
    DifferAt dst (D.filter (· ∉ Field.tracking)) (assignCopy src dst s) (assignCopy src dst t) := by
  have htracked : DifferAt dst (D.filter (· ∉ [Field.pointsTo, .localProto, .init]))
      (copyTracked src dst s) (copyTracked src dst t) := by
    refine h.settle (copyTracked_writes s src dst) (copyTracked_writes t src dst) fun f hf => ?_
    simp only [List.mem_cons, List.not_mem_nil, or_false] at hf
    rcases hf with rfl | rfl | rfl
    · exact FMap.copyKey_eq_of_erase_eq (h.off .pointsTo) hsrc
    · exact FMap.copyKey_eq_of_erase_eq (h.off .localProto) hsrc
    · exact FMap.copyKey_eq_of_erase_eq (h.off .init) hsrc
  exact htracked.carryScalars (fun _ _ hmn => FMap.copyKey_eq_of_erase_eq hmn hsrc)
    fun _ _ hmn => copySet_eq_of_erase_eq hmn hsrc

/-! ### Reads, borrows, aggregates and casts -/

/-- Once the objects are settled, clearing the rest settles the tracking. -/
theorem finish (h : DifferAt dst (D.filter (· ∉ [Field.pointsTo])) s t) :
    DifferAt dst (D.filter (· ∉ Field.tracking)) ((s.dropProto dst).clearScalarFacts dst)
      ((t.dropProto dst).clearScalarFacts dst) :=
  h.dropProto.andThen.clearScalarFacts.andThen

/-- **Giving the destination its objects and clearing the rest** settles the tracking. -/
theorem reset (h : DifferAt dst D s t) (o : Option (Finset ObjectId)) :
    DifferAt dst (D.filter (· ∉ Field.tracking))
      (((s.setObjects dst o).dropProto dst).clearScalarFacts dst)
      (((t.setObjects dst o).dropProto dst).clearScalarFacts dst) :=
  (h.setObjects o).finish

theorem get_fieldOwned (h : DifferAt dst D s t) {key : Local × FieldIdx} (hkey : key.1 ≠ dst) :
    t.fieldOwned.get key = s.fieldOwned.get key := by
  have hget : (t.fieldOwned.retain fun key _ => key.1 ≠ dst).get key =
      (s.fieldOwned.retain fun key _ => key.1 ≠ dst).get key :=
    congrArg (FMap.get · key) (h.off .fieldOwned)
  simpa only [FMap.get_retain, ne_eq, hkey, not_false_eq_true, decide_true, if_true,
    Option.bind_fun_some] using hget

theorem assignFieldRead (h : DifferAt dst D s t) {src : Place} (hsrc : src.base ≠ dst) :
    DifferAt dst (D.filter (· ∉ Field.tracking)) (assignFieldRead src dst s)
      (assignFieldRead src dst t) := by
  have hfield : ((lastSimpleFieldIdx src.projection).bind fun f => t.fieldOwned.get (src.base, f)) =
      (lastSimpleFieldIdx src.projection).bind fun f => s.fieldOwned.get (src.base, f) := by
    cases lastSimpleFieldIdx src.projection with
    | none => rfl
    | some f => exact h.get_fieldOwned hsrc
  unfold San.assignFieldRead
  rw [h.get_pointsTo hsrc, hfield]
  have hreset := h.reset ((s.pointsTo.get src.base).or
    ((lastSimpleFieldIdx src.projection).bind fun f => s.fieldOwned.get (src.base, f)))
  exact (hreset.onMaySets [.mulOverflow] _ _ fun k _ =>
    copySet_eq_of_erase_eq (hreset.off (.maySet k)) hsrc).ofFilter

theorem assignBorrow (h : DifferAt dst D s t) {base : Local} (hbase : base ≠ dst) :
    DifferAt dst (D.filter (· ∉ Field.tracking)) (assignBorrow base dst s)
      (assignBorrow base dst t) := by
  unfold San.assignBorrow
  rw [h.get_pointsTo hbase]
  exact h.reset _

theorem assignAggregate (h : DifferAt dst D s t) (tcx : TyCtxt) (kind : AggregateKind)
    {operands : List Operand} (hops : dst ∉ operands.flatMap Operand.locals) :
    DifferAt dst (D.filter (· ∉ Field.tracking)) (assignAggregate tcx kind operands dst s)
      (assignAggregate tcx kind operands dst t) := by
  have hobjs : (operands.filterMap operandLocal).foldr (fun l objs => t.objectsFor l ∪ objs) ∅ =
      (operands.filterMap operandLocal).foldr (fun l objs => s.objectsFor l ∪ objs) ∅ :=
    List.foldr_ext _ _ _ fun x hx objs => by rw [h.objectsFor (operandLocals_ne hops x hx)]
  unfold San.assignAggregate
  rw [hobjs]
  have hreset := h.reset (nonempty (some
    ((operands.filterMap operandLocal).foldr (fun l objs => s.objectsFor l ∪ objs) ∅)))
  cases kind with
  | adt did activeField =>
      cases activeField with
      | none => exact hreset
      | some f =>
          dsimp only
          split
          · exact hreset
          · exact hreset.setActiveVariant f
  | other => exact hreset
  | array | tuple =>
      dsimp only
      cases aggregateComponents operands with
      | none => exact hreset
      | some cs =>
          cases cs with
          | nil => exact hreset
          | cons c cs => exact hreset.setComponents (c :: cs)

theorem assignPtrCast (h : DifferAt dst D s t) (body : Body) {src : Local} (hsrc : src ≠ dst)
    (ty : Ty) :
    DifferAt dst (D.filter (· ∉ Field.tracking)) (assignPtrCast body src dst ty s)
      (assignPtrCast body src dst ty t) := by
  have hobjects := h.setObjects (s.pointsTo.get src)
  unfold San.assignPtrCast
  rw [h.get_pointsTo hsrc]
  dsimp only
  refine finish ?_
  have hcond := and_congr_right' (or_congr_right (a := (body.localTy src).isConstPtr = true)
    (hobjects.mem_maySets .constPtrCast hsrc)) (a := ty.isMutPtr = true)
  by_cases hcast : ty.isMutPtr ∧ ((body.localTy src).isConstPtr ∨
      src ∈ (s.setObjects dst (s.pointsTo.get src)).maySets .constPtrCast)
  · rw [if_pos hcast, if_pos (hcond.mpr hcast)]
    exact hobjects.insertMay .constPtrCast
  · rw [if_neg hcast, if_neg fun hc => hcast (hcond.mp hc)]
    exact hobjects

theorem assignConstant (h : DifferAt dst D s t) (c : Const) :
    DifferAt dst (D.filter (· ∉ Field.tracking)) (assignConstant c dst s)
      (assignConstant c dst t) := by
  refine DifferAt.reset ?_ none
  split
  · refine DifferAt.setConstant ?_ _
    split
    · exact h.insertMust .nonzero
    · exact (h.onMustSets [.nonzero] (·.erase dst) (·.erase dst) fun k _ =>
        h.off (.mustSet k)).ofFilter
  · exact h

/-! ### Binary operations -/

theorem clearComparisons (h : DifferAt dst D s t) :
    DifferAt dst (D.filter (· ∉ Fact.comparisons.map Field.fact)) (clearComparisons dst s)
      (clearComparisons dst t) :=
  h.onFacts Fact.comparisons (·.erase dst) (·.erase dst) fun k _ => h.off (.fact k)

theorem setComparison (h : DifferAt dst D s t) (k : Fact) (lhs : Option Local) :
    DifferAt dst (D.filter (· ∉ Fact.comparisons.map Field.fact)) (setComparison s k dst lhs)
      (setComparison t k dst lhs) :=
  (h.clearComparisons.onFacts [k] (·.put dst lhs) (·.put dst lhs) fun k' _ =>
    FMap.put_eq_of_erase_eq (h.clearComparisons.off (.fact k')) lhs).ofFilter

theorem recordConst (h : DifferAt dst D s t) (kind : ConstFact) (l : Option Local)
    (k : Option U64) : DifferAt dst D (recordConst kind dst l k s) (recordConst kind dst l k t) := by
  unfold San.recordConst
  split
  · next l k =>
      exact (h.onConstFacts [kind] (·.insert dst (l, k)) (·.insert dst (l, k)) fun k' _ =>
        FMap.put_eq_of_erase_eq (h.off (.constFact k')) (some (l, k))).ofFilter
  · exact h

theorem recordNonzero (h : DifferAt dst D s t) (l : Option Local) (k : Option U64)
    (p : U64 → Bool) : DifferAt dst D (recordNonzero dst l k p s) (recordNonzero dst l k p t) := by
  unfold San.recordNonzero
  split
  · split
    · exact h.insertFact .nonzeroIfTrue _
    · exact h
  · exact h

theorem recordPair (h : DifferAt dst D s t) (kind : PairFact) (op1 op2 : Operand) :
    DifferAt dst D (recordPair kind dst op1 op2 s) (recordPair kind dst op1 op2 t) := by
  unfold San.recordPair
  split
  · next a b _ _ =>
      exact (h.onPairFacts [kind] (·.insert dst (a, b)) (·.insert dst (a, b)) fun k' _ =>
        FMap.put_eq_of_erase_eq (h.off (.pairFact k')) (some (a, b))).ofFilter
  · exact h

section Lengths
variable (h : DifferAt dst D s t) (hD : D ⊆ Field.unsettled)
include h hD

theorem same_lenOf : t.facts .lenOf = s.facts .lenOf :=
  h.sameOf hD (f := .fact .lenOf) (by decide)

theorem same_capOf : t.facts .capOf = s.facts .capOf :=
  h.sameOf hD (f := .fact .capOf) (by decide)

theorem boundedFor (op1 op2 : Operand) : boundedFor t op1 op2 = boundedFor s op1 op2 := by
  have href : t.facts .refBase = s.facts .refBase := h.sameOf hD (f := .fact .refBase) (by decide)
  have hlen : lenCollection t = lenCollection s := by
    funext x
    rw [lenCollection, h.same_lenOf hD, href, lenCollection]
  rw [San.boundedFor, hlen, San.boundedFor]

theorem recordSpare (kind : Fact) (op1 op2 : Operand) (capFirst : Bool) :
    DifferAt dst D (recordSpare kind dst op1 op2 capFirst s)
      (recordSpare kind dst op1 op2 capFirst t) := by
  unfold San.recordSpare
  rw [h.same_lenOf hD, h.same_capOf hD]
  split
  · dsimp only
    split
    · split
      · exact h.insertFact kind _
      · exact h
    · exact h
  · exact h

theorem recordFull (kind : Fact) (op1 op2 : Operand) :
    DifferAt dst D (recordFull kind dst op1 op2 s) (recordFull kind dst op1 op2 t) := by
  have hcoll : sameCollection t = sameCollection s := by
    funext a b
    rw [sameCollection, h.same_lenOf hD, h.same_capOf hD, sameCollection]
  unfold San.recordFull
  rw [hcoll]
  split
  · split
    · exact h.insertFact kind _
    · exact h
  · exact h

theorem operandUpper (op : Operand) : operandUpper t op = operandUpper s op := by
  have hupper : t.constUpper = s.constUpper := h.sameOf hD (f := .constUpper) (by decide)
  rw [San.operandUpper, hupper, San.operandUpper]

theorem boundArith (f : Nat → Nat → Nat) (op1 op2 : Operand) :
    DifferAt dst D (boundArith f dst op1 op2 s) (boundArith f dst op1 op2 t) := by
  have hnot : Field.constUpper ∉ D := fun hmem => absurd (hD hmem) (by decide)
  unfold San.boundArith
  rw [h.operandUpper hD, h.operandUpper hD]
  split
  · next a b _ _ =>
      have hbound := h.boundAboveBy hnot dst (some (toU64 (f a.val b.val)))
      dsimp only
      split
      · exact hbound.insertMay .mulOverflow
      · exact (hbound.onMaySets [.mulOverflow] (·.erase dst) (·.erase dst) fun k _ =>
          hbound.off (.maySet k)).ofFilter
  · exact h.insertMay .mulOverflow

theorem putFor (kind : PairFact) (op1 op2 : Operand) :
    DifferAt dst D (s.onPairFacts [kind] (·.put dst (San.boundedFor s op1 op2)))
      (t.onPairFacts [kind] (·.put dst (San.boundedFor t op1 op2))) := by
  rw [h.boundedFor hD]
  exact (h.onPairFacts [kind] (·.put dst (San.boundedFor s op1 op2))
    (·.put dst (San.boundedFor s op1 op2)) fun k _ =>
      FMap.put_eq_of_erase_eq (h.off (.pairFact k)) _).ofFilter

theorem compareEq (full onZero : Fact) (pair : PairFact) (op1 op2 : Operand) :
    DifferAt dst (D.filter (· ∉ Fact.comparisons.map Field.fact))
      (compareEq full onZero pair dst op1 op2 s) (compareEq full onZero pair dst op1 op2 t) := by
  refine DifferAt.recordPair ?_ pair op1 op2
  have hfull := h.clearComparisons.recordFull (fun f hf => hD (List.mem_filter.mp hf).1) full op1 op2
  split
  · exact hfull.insertFact onZero _
  · exact hfull

/-- **A comparison, and any operation that is not overflow-checked**, settles the
comparison facts of its destination. -/
theorem recordBinaryOp (body : Body) {op : BinOp} {op1 op2 : Operand}
    (hop1 : dst ∉ op1.locals) (hop2 : dst ∉ op2.locals)
    (hop : (op == .mulWithOverflow || op == .addWithOverflow) = false) :
    DifferAt dst (D.filter (· ∉ Fact.comparisons.map Field.fact))
      (recordBinaryOp body op op1 op2 dst s) (recordBinaryOp body op op1 op2 dst t) := by
  have hD' : D.filter (· ∉ Fact.comparisons.map Field.fact) ⊆ Field.unsettled :=
    fun f hf => hD (List.mem_filter.mp hf).1
  have hnot : Field.constUpper ∉ D := fun hmem => absurd (hD hmem) (by decide)
  have hupper : t.constUpper = s.constUpper := h.same .constUpper hnot
  have hspare : ∀ k (lhs : Option Local) kind capFirst {s t : BlockState}, DifferAt dst D s t →
      DifferAt dst (D.filter (· ∉ Fact.comparisons.map Field.fact))
        (San.recordSpare kind dst op1 op2 capFirst (San.setComparison s k dst lhs))
        (San.recordSpare kind dst op1 op2 capFirst (San.setComparison t k dst lhs)) :=
    fun k lhs kind capFirst _ _ h => (h.setComparison k lhs).recordSpare hD' kind op1 op2 capFirst
  cases op with
  | lt =>
      exact (((hspare _ _ _ _ (h.putFor hD .ltFor op1 op2)).recordConst _ _ _).recordConst
        _ _ _).recordNonzero _ _ _
  | le =>
      exact (((hspare _ _ _ _ (h.putFor hD .leFor op1 op2)).recordConst _ _ _).recordConst
        _ _ _).recordNonzero _ _ _
  | ge => exact (((hspare _ _ _ _ h).recordConst _ _ _).recordNonzero _ _ _).recordConst _ _ _
  | gt => exact (((hspare _ _ _ _ h).recordConst _ _ _).recordNonzero _ _ _).recordConst _ _ _
  | eq => exact h.compareEq hD _ _ _ op1 op2
  | ne => exact h.compareEq hD _ _ _ op1 op2
  | bitOr =>
      have hnonzero : ∀ {op : Operand}, dst ∉ op.locals →
          operandNonzero t op = operandNonzero s op := fun {op} hfresh => by
        unfold operandNonzero
        cases hl : operandLocal op with
        | none => rfl
        | some x =>
            simp only [Option.any_some, h.mem_mustSets .nonzero (operandLocal_ne hfresh hl)]
      refine DifferAt.clearComparisons ?_
      rw [hnonzero hop1, hnonzero hop2]
      split
      · exact h.insertMust .nonzero
      · exact h
  | bitAnd | rem | shr =>
      refine DifferAt.clearComparisons ?_
      have hbound : ∀ op, binaryUpper op t op1 op2 = binaryUpper op s op1 op2 := fun op => by
        unfold binaryUpper andUpper
        rw [hupper]
      rw [hbound]
      exact h.boundAboveBy hnot dst _
  | mul => exact (h.boundArith hD _ op1 op2).clearComparisons
  | add =>
      refine DifferAt.clearComparisons ?_
      split
      · exact h.boundArith hD _ op1 op2
      · exact h
  | mulWithOverflow => cases hop
  | addWithOverflow => cases hop
  | _ => exact h.clearComparisons

end Lengths

/-- What a binary operation settles before it looks at the operator. -/
theorem enterBinaryOp (h : DifferAt dst D s t) (op : BinOp) {op1 op2 : Operand}
    (hop1 : dst ∉ op1.locals) (hop2 : dst ∉ op2.locals) :
    DifferAt dst (D.filter (· ∉ [Field.pointsTo, .localProto, .init] ++
        MustSet.scalar.map Field.mustSet))
      ((((s.setObjects dst (offsetObjects op op1 op2 s)).dropProto dst).clearInit dst).onMustSets
        MustSet.scalar (·.erase dst))
      ((((t.setObjects dst (offsetObjects op op1 op2 t)).dropProto dst).clearInit dst).onMustSets
        MustSet.scalar (·.erase dst)) := by
  have hget : ∀ {op : Operand}, dst ∉ op.locals →
      (operandLocal op).bind t.pointsTo.get = (operandLocal op).bind s.pointsTo.get :=
    fun {op} hfresh => by
      cases hl : operandLocal op with
      | none => rfl
      | some x => exact h.get_pointsTo (operandLocal_ne hfresh hl)
  have hobjs : offsetObjects op op1 op2 t = offsetObjects op op1 op2 s := by
    unfold offsetObjects
    simp only [List.findSome?_cons, List.findSome?_nil, hget hop1, hget hop2]
  rw [hobjs]
  have hinit := (h.setObjects (offsetObjects op op1 op2 s)).dropProto.andThen.clearInit.andThen
  exact (hinit.onMustSets MustSet.scalar (·.erase dst) (·.erase dst) fun k _ =>
    hinit.off (.mustSet k)).andThen

theorem assignBinaryOp (h : DifferAt dst D s t) (hD : D ⊆ Field.unsettled) (body : Body)
    {op : BinOp} {op1 op2 : Operand} (hop1 : dst ∉ op1.locals) (hop2 : dst ∉ op2.locals)
    (hop : (op == .mulWithOverflow || op == .addWithOverflow) = false) :
    DifferAt dst (D.filter (· ∉ Field.tracking)) (assignBinaryOp body op op1 op2 dst s)
      (assignBinaryOp body op op1 op2 dst t) :=
  ((h.enterBinaryOp op hop1 hop2).recordBinaryOp (fun f hf => hD (List.mem_filter.mp hf).1) body
    hop1 hop2 hop).andThen.settled (by decide)

/-! ### Whole assignments -/

/-- Clearing any local keeps the states as close as they were, if what is cleared is not
apart. -/
theorem clearTracking (h : DifferAt dst D s t) (hD : ∀ f ∈ Field.tracking, f ∉ D) (x : Local) :
    DifferAt dst D (clearTracking x s) (clearTracking x t) := by
  have hobjects := h.keep (s.setObjects_writes x none) (t.setObjects_writes x none)
    (List.forall_mem_singleton.mpr
      (congrArg (FMap.put · x none) (h.same .pointsTo (hD _ (by decide)))))
  have hproto := hobjects.keep (BlockState.dropProto_writes _ x) (BlockState.dropProto_writes _ x)
    (List.forall_mem_singleton.mpr
      (congrArg (FMap.erase · x) (h.same .localProto (hD _ (by decide)))))
  have hinit := hproto.keep (BlockState.clearInit_writes _ x) (BlockState.clearInit_writes _ x)
    (List.forall_mem_singleton.mpr (congrArg (FMap.erase · x) (h.same .init (hD _ (by decide)))))
  have hfacts := (hinit.onFacts Fact.comparisons (·.erase x) (·.erase x) fun k hk =>
    congrArg (FMap.erase · x) (hinit.same (.fact k) (hD _ ((by decide :
      ∀ k ∈ Fact.comparisons, Field.fact k ∈ Field.tracking) k hk)))).ofFilter
  exact (hfacts.onMustSets MustSet.scalar (·.erase x) (·.erase x) fun k hk =>
    congrArg (Finset.erase · x) (hfacts.same (.mustSet k) (hD _ ((by decide :
      ∀ k ∈ MustSet.scalar, Field.mustSet k ∈ Field.tracking) k hk)))).ofFilter

theorem assignUnknown (h : DifferAt dst D s t) (hD : D ⊆ Field.unsettled) (rvalue : Rvalue) :
    DifferAt dst (D.filter (· ∉ Field.tracking)) (assignUnknown rvalue dst s)
      (assignUnknown rvalue dst t) := by
  have hclear : DifferAt dst (D.filter (· ∉ Field.tracking)) (San.clearTracking dst s)
      (San.clearTracking dst t) := h.reset none
  have hD' : ∀ f ∈ Field.tracking, f ∉ D.filter (· ∉ Field.tracking) := fun f hf hmem => by
    simp only [List.mem_filter, decide_eq_true_eq] at hmem
    exact hmem.2 hf
  unfold San.assignUnknown
  split
  · next src =>
      split
      · exact hclear
      · -- moving out of a field also clears the base of the place
        refine DifferAt.clearTracking ?_ hD' _
        have hfields := hclear.sameOf (f := .fieldOwned)
          (fun f hf => hD (List.mem_filter.mp hf).1) (by decide)
        refine hclear.keep (consumeField_writes _ src) (consumeField_writes _ src)
          (List.forall_mem_singleton.mpr ?_)
        unfold consumeField
        split
        · exact congrArg (FMap.erase · _) hfields
        · exact hfields
  · exact hclear

/-- **Every arm but the numeric casts and the overflow-checked operations** settles what
an assignment leaves to the arms. -/
theorem assignRvalue (h : DifferAt dst D s t) (hD : D ⊆ Field.unsettled) (tcx : TyCtxt)
    (body : Body) {rvalue : Rvalue} (hfresh : dst ∉ rvalue.locals)
    (hkeeps : rvalue.keepsFacts = false) :
    DifferAt dst (D.filter (· ∉ Field.tracking)) (assignRvalue tcx body dst rvalue s)
      (assignRvalue tcx body dst rvalue t) := by
  have hunknown := h.assignUnknown hD rvalue
  unfold San.assignRvalue
  split
  · exact h.assignConstant _
  · next src =>
      have hsrc : src.base ≠ dst := place_base_ne hfresh rfl
      split
      · exact h.assignMove hsrc
      · split
        · exact h.assignFieldRead hsrc
        · exact hunknown
  · next src =>
      have hsrc : src.base ≠ dst := place_base_ne hfresh rfl
      split
      · exact h.assignCopy hsrc
      · split
        · exact h.assignFieldRead hsrc
        · exact hunknown
  · next base => exact h.assignBorrow (rvaluePlace_base_ne hfresh rfl : base ≠ dst)
  · next base => exact h.assignBorrow (rvaluePlace_base_ne hfresh rfl : base ≠ dst)
  · next base => exact h.assignBorrow (rvaluePlace_base_ne hfresh rfl : base ≠ dst)
  · exact h.assignAggregate tcx _ hfresh
  · next kind op ty =>
      split
      · next src hsrc =>
          split
          · exact h.assignPtrCast body (operandLocal_ne hfresh hsrc) ty
          · split
            · next hnumeric =>
                simp [Rvalue.keepsFacts, hnumeric, hsrc] at hkeeps
            · exact hunknown
      · exact hunknown
  · next op op1 op2 =>
      exact h.assignBinaryOp hD body (fun hmem => hfresh (List.mem_append_left _ hmem))
        (fun hmem => hfresh (List.mem_append_right _ hmem)) hkeeps
  · exact hunknown

end DifferAt

/-! ## What survives an assignment -/

/-- The fields in which the destination keeps its old entry. -/
def Rvalue.keeps (rvalue : Rvalue) : List Field :=
  Field.maySet .reallocedParams :: match rvalue with
    | .cast kind op _ => if kind.isNumeric && (operandLocal op).isSome then Field.tracking else []
    | .binaryOp op _ _ =>
        if op == .mulWithOverflow || op == .addWithOverflow then Fact.comparisons.map Field.fact
        else []
    | _ => []

theorem Rvalue.keeps_of_not_keepsFacts {rvalue : Rvalue} (h : rvalue.keepsFacts = false) :
    rvalue.keeps = [Field.maySet .reallocedParams] := by
  cases rvalue with
  | cast kind op ty => exact congrArg _ (if_neg (Bool.eq_false_iff.mp h))
  | binaryOp op op1 op2 => exact congrArg _ (if_neg (Bool.eq_false_iff.mp h))
  | _ => rfl

section Assignment
variable {dst : Local} {s t : BlockState} {rvalue : Rvalue}

/-- The clears that precede the arms leave apart what the arms have to settle. -/
theorem DifferAt.redefine {K : List Field}
    (h : DifferAt dst (Field.perLocal.filter (· ∉ K)) s t) (body : Body)
    (hfresh : dst ∉ rvalue.locals) :
    DifferAt dst (Field.unsettled.filter (· ∉ K))
      (((San.updateFnPtrTarget dst rvalue (San.updateOwnerAlias body dst rvalue
        (s.invalidateOwner dst))).clearRedefined dst).clearAssigned dst)
      (((San.updateFnPtrTarget dst rvalue (San.updateOwnerAlias body dst rvalue
        (t.invalidateOwner dst))).clearRedefined dst).clearAssigned dst) := by
  have howners := (h.invalidateOwners {dst}).updateOwnerAlias body hfresh
  have hcleared := (howners.updateFnPtrTarget hfresh).clearRedefined.clearAssigned
  refine hcleared.mono fun f hf => ?_
  have hcover : ∀ f ∈ Field.perLocal, f ∈ Field.unsettled ∨
      f ∈ [Field.ownerAlias] ∨ f ∈ [Field.fnPtrTargets] ∨ f ∈ Field.derived ∨ f ∈ Field.dropped := by
    decide
  simp only [List.mem_filter, decide_eq_true_eq] at hf ⊢
  obtain ⟨⟨⟨⟨⟨hlocal, hK⟩, howner⟩, hfn⟩, hderived⟩, hdropped⟩ := hf
  refine ⟨?_, hK⟩
  rcases hcover f hlocal with hf | hf | hf | hf | hf
  · exact hf
  · exact absurd hf howner
  · exact absurd hf hfn
  · exact absurd hf hderived
  · exact absurd hf hdropped

/-- **The arms settle everything but what is kept.** -/
theorem DifferAt.assignRvalue_eq (h : DifferAt dst (Field.unsettled.filter (· ∉ rvalue.keeps)) s t)
    (tcx : TyCtxt) (body : Body) (hfresh : dst ∉ rvalue.locals) :
    San.assignRvalue tcx body dst rvalue t = San.assignRvalue tcx body dst rvalue s := by
  have hD : Field.unsettled.filter (· ∉ rvalue.keeps) ⊆ Field.unsettled :=
    fun f hf => (List.mem_filter.mp hf).1
  cases hkeeps : rvalue.keepsFacts with
  | false =>
      rw [Rvalue.keeps_of_not_keepsFacts hkeeps] at h hD
      exact ((h.assignRvalue hD tcx body hfresh hkeeps).mono (by decide)).eq
  | true =>
      cases rvalue with
      | cast kind op ty =>
          -- a numeric cast keeps all of the tracking, so nothing is apart
          have hall : (Rvalue.cast kind op ty).keeps = Field.maySet .reallocedParams ::
            Field.tracking := congrArg _ (if_pos hkeeps)
          rw [hall] at h
          rw [(h.mono (by decide) : DifferAt dst [] s t).eq]
      | binaryOp op op1 op2 =>
          have hcomparisons : (Rvalue.binaryOp op op1 op2).keeps = Field.maySet .reallocedParams ::
            Fact.comparisons.map Field.fact := congrArg _ (if_pos hkeeps)
          rw [hcomparisons] at h
          have hop1 : dst ∉ op1.locals := fun hmem => hfresh (List.mem_append_left _ hmem)
          have hop2 : dst ∉ op2.locals := fun hmem => hfresh (List.mem_append_right _ hmem)
          have henter := h.enterBinaryOp op hop1 hop2
          exact congrArg (San.recordBinaryOp body op op1 op2 dst)
            (henter.mono (by decide) : DifferAt dst [] _ _).eq
      | _ => cases hkeeps

theorem applyStatement_assign (tcx : TyCtxt) (body : Body) {stmt : Statement}
    (hstmt : stmt.kind = .assign (Place.ofLocal dst) rvalue) (s : BlockState) :
    applyStatement tcx body stmt s =
      assignLocal tcx body dst rvalue (s.invalidateOwner dst) := by
  unfold applyStatement
  rw [hstmt]
  rfl

/-- An assignment drops the pairs of its destination and adds none. -/
theorem applyStatement_mustPairs (tcx : TyCtxt) (body : Body) {stmt : Statement}
    (hstmt : stmt.kind = .assign (Place.ofLocal dst) rvalue) (s : BlockState) (k : MustPairs) :
    (applyStatement tcx body stmt s).mustPairs k =
      (s.mustPairs k).filter fun p => p.1 ≠ dst ∧ p.2 ≠ dst := by
  have hlater : (assignLocal tcx body dst rvalue (s.invalidateOwner dst)).mustPairs k =
      (redefine body dst rvalue (s.invalidateOwner dst)).mustPairs k :=
    assignLocal_redefined _ tcx body dst rvalue (.mustPairs k) (by cases k <;> decide)
  have hinvalid : (s.invalidateOwner dst).mustPairs k = s.mustPairs k :=
    s.invalidateOwners_writes {dst} (.mustPairs k) (by simp)
  rw [applyStatement_assign tcx body hstmt, hlater, redefine_mustPairs, hinvalid]

/-- Two states that agree except at the destination, and on what is kept there, are
mapped to the same state. -/
theorem applyStatement_eq_of_keeps (tcx : TyCtxt) (body : Body) {stmt : Statement}
    (hstmt : stmt.kind = .assign (Place.ofLocal dst) rvalue) (hfresh : dst ∉ rvalue.locals)
    (h : AgreeExcept dst s t) (hkeeps : ∀ f ∈ rvalue.keeps, f.Same s t) :
    applyStatement tcx body stmt s = applyStatement tcx body stmt t := by
  have hD : Field.unsettled.filter (· ∉ rvalue.keeps) ⊆ Field.unsettled :=
    fun f hf => (List.mem_filter.mp hf).1
  have hstart := ((DifferAt.ofAgreeExcept h).without hkeeps).redefine body hfresh
  have hrecorded := ((hstart.recordRefBase rvalue).propagateRvalue hD rvalue).recordLenOf hfresh
  rw [applyStatement_assign tcx body hstmt, applyStatement_assign tcx body hstmt]
  exact congrArg (enforceTypeFacts tcx dst (body.localTy dst))
    (hrecorded.assignRvalue_eq tcx body hfresh).symm

/-- A numeric cast of a whole local writes bounds of its destination only. -/
theorem assignRvalue_numeric_writes (tcx : TyCtxt) (body : Body) (dst : Local)
    {kind : CastKind} {op : Operand}
    (hnumeric : (kind.isNumeric && (operandLocal op).isSome) = true) (ty : Ty) (s : BlockState) :
    Writes [.fact .castOrigin, .mustSet .nonzero, .constUpper] s
      (assignRvalue tcx body dst (.cast kind op ty) s) := by
  obtain ⟨hkind, hsome⟩ := Bool.and_eq_true_iff.mp hnumeric
  obtain ⟨src, hsrc⟩ := Option.isSome_iff_exists.mp hsome
  rw [assignRvalue_numericCast s tcx body dst hkind op ty, hsrc]
  exact assignNumericCast_writes s kind src dst ty

/-- An overflow-checked operation does not write the comparison facts. -/
theorem assignRvalue_overflow_writes (tcx : TyCtxt) (body : Body) (dst : Local) {op : BinOp}
    (hop : (op == .mulWithOverflow || op == .addWithOverflow) = true) (op1 op2 : Operand)
    (s : BlockState) :
    Writes ([Field.pointsTo, .localProto, .init, .maySet .mulOverflow, .constUpper] ++
        MustSet.scalar.map Field.mustSet) s
      (assignRvalue tcx body dst (.binaryOp op op1 op2) s) := by
  have harith : ∀ (f : Nat → Nat → Nat) (t : BlockState),
      Writes ([Field.pointsTo, .localProto, .init, .maySet .mulOverflow, .constUpper] ++
        MustSet.scalar.map Field.mustSet) t (boundArith f dst op1 op2 t) :=
    fun f t => (boundArith_writes t f dst op1 op2).mono (by decide)
  have henter : Writes ([Field.pointsTo, .localProto, .init, .maySet .mulOverflow, .constUpper] ++
      MustSet.scalar.map Field.mustSet) s (enterBinaryOp op op1 op2 dst s) :=
    (enterBinaryOp_writes s op op1 op2 dst).mono (by decide)
  cases op with
  | mulWithOverflow => exact henter.trans (harith _ _)
  | addWithOverflow => exact henter.trans (.ite (harith _ _) (.refl _ _))
  | _ => cases hop

/-- **What is kept is not written.** -/
theorem applyStatement_keeps (tcx : TyCtxt) (body : Body) {stmt : Statement}
    (hstmt : stmt.kind = .assign (Place.ofLocal dst) rvalue) (s : BlockState) :
    ∀ f ∈ rvalue.keeps, f.Same s (applyStatement tcx body stmt s) := by
  have hstart : Writes [.ownerAlias, .fnPtrTargets] s (updateFnPtrTarget dst rvalue
      (updateOwnerAlias body dst rvalue (s.invalidateOwner dst))) :=
    ((s.invalidateOwners_writes {dst}).mono (by decide)).trans <|
      ((updateOwnerAlias_writes _ body dst rvalue).mono (by decide)).trans <|
      (updateFnPtrTarget_writes _ dst rvalue).mono (by decide)
  have hcleared := (hstart.mono (G := [Field.ownerAlias, .fnPtrTargets] ++ Field.derived ++
      Field.dropped) (by decide)).trans <|
    ((BlockState.clearRedefined_writes _ dst).mono (by decide)).trans <|
    (clearAssigned_writes _ dst).mono (by decide)
  have htype : ∀ (t : BlockState) (F : List Field), [Field.mustSet .nonzero, .constUpper] ⊆ F →
      Writes F t (enforceTypeFacts tcx dst (body.localTy dst) t) :=
    fun t F hF => (enforceTypeFacts_writes t tcx dst _).mono hF
  rw [applyStatement_assign tcx body hstmt]
  intro f hf
  rcases List.mem_cons.mp hf with rfl | hf
  · exact (hstart _ (by decide)).trans (assignLocal_writes _ tcx body dst rvalue _ (by decide))
  · cases rvalue with
    | cast kind op ty =>
        dsimp only at hf
        split at hf
        · next hnumeric =>
            have hwrites := (hcleared.trans ((assignRvalue_numeric_writes tcx body dst hnumeric
              ty _).mono (by decide))).trans (htype _ _ (by decide))
            exact hwrites f ((by decide : ∀ f ∈ Field.tracking, f ∉ [Field.ownerAlias,
              .fnPtrTargets] ++ Field.derived ++ Field.dropped) f hf)
        · cases hf
    | binaryOp op op1 op2 =>
        dsimp only at hf
        split at hf
        · next hop =>
            have hwrites := ((hcleared.mono (List.subset_append_left _ ([Field.pointsTo,
              .localProto, .init] ++ MustSet.scalar.map Field.mustSet))).trans
              ((assignRvalue_overflow_writes tcx body dst hop op1 op2 _).mono (by decide))).trans
              (htype _ _ (by decide))
            exact hwrites f ((by decide : ∀ f ∈ Fact.comparisons.map Field.fact,
              f ∉ [Field.ownerAlias, .fnPtrTargets] ++ Field.derived ++ Field.dropped ++
                ([Field.pointsTo, .localProto, .init] ++ MustSet.scalar.map Field.mustSet)) f hf)
        · cases hf
    | _ => cases hf

end Assignment

/-- **A reassignment forgets the old value up to what its rvalue keeps.**  Two states that
agree except at the destination are mapped to the same state exactly if they agree on the
kept fields: `realloced_params`, which records what happened to a parameter's buffer and
is never cleared, and the fields that numeric casts and overflow-checked operations do not
clear. -/
theorem reassignment_forgets_iff (tcx : TyCtxt) (body : Body) (stmt : Statement) (dst : Local)
    (rvalue : Rvalue) (hstmt : stmt.kind = .assign (Place.ofLocal dst) rvalue)
    (hfresh : dst ∉ rvalue.locals) (s t : BlockState) (h : AgreeExcept dst s t) :
    applyStatement tcx body stmt s = applyStatement tcx body stmt t ↔
      ∀ f ∈ rvalue.keeps, f.Same s t := by
  constructor
  · intro heq f hf
    have hs := applyStatement_keeps tcx body hstmt s f hf
    have ht := applyStatement_keeps tcx body hstmt t f hf
    rw [heq] at hs
    exact hs.trans ht.symm
  · exact applyStatement_eq_of_keeps tcx body hstmt hfresh h

theorem agreeExcept_insertMust (s : BlockState) (k : MustSet) (l : Local) :
    AgreeExcept l s (s.insertMust k l) := by
  refine (BlockState.eq_of_same fun f => ?_).symm
  by_cases hf : f ∈ [Field.mustSet k]
  · rw [List.mem_singleton.mp hf]
    show (if k ∈ [k] then _ else _ : Finset Local).erase l = (s.mustSets k).erase l
    rw [if_pos List.mem_cons_self, Finset.erase_insert_eq_erase]
  · exact (s.insertMust_writes k l f hf).off l

/-- `_1 = _2 as usize` and `_1 = _2` in a function of a `usize` and a `u8`. -/
def castOver : Body :=
  Body.ofBlocks 0 2 [.other, .uint .usize, .uint .u8] 0
    (fun _ => [BasicBlockData.of
      [.set 1 (.cast .intToInt (Operand.ofNat 2) (.uint .usize)), .set 1 (.use (Operand.ofNat 2))]
      .return])
    (by decide)

/-- **A copy forgets that its destination was bounded.** -/
theorem reassignment_forgets_copy :
    AgreeExcept (Local.ofNat 1) .default (BlockState.default.insertMust .bounded (Local.ofNat 1)) ∧
    applyStatement (TyCtxt.ofPaths []) castOver (.set 1 (.use (Operand.ofNat 2))) .default =
      applyStatement (TyCtxt.ofPaths []) castOver (.set 1 (.use (Operand.ofNat 2)))
        (BlockState.default.insertMust .bounded (Local.ofNat 1)) :=
  ⟨agreeExcept_insertMust _ _ _,
    (reassignment_forgets_iff _ _ _ (Local.ofNat 1) (.use (Operand.ofNat 2)) rfl (by decide) _ _
      (agreeExcept_insertMust _ _ _)).mpr (List.forall_mem_singleton.mpr rfl)⟩

/-- **A numeric cast does not**: `_1 = _2 as usize` leaves the bounds check of the old
`_1` in place. -/
theorem reassignment_keeps_bounded :
    AgreeExcept (Local.ofNat 1) .default (BlockState.default.insertMust .bounded (Local.ofNat 1)) ∧
    (applyStatement (TyCtxt.ofPaths []) castOver
      (.set 1 (.cast .intToInt (Operand.ofNat 2) (.uint .usize))) .default).localIsBounded
        (Local.ofNat 1) = false ∧
    (applyStatement (TyCtxt.ofPaths []) castOver
      (.set 1 (.cast .intToInt (Operand.ofNat 2) (.uint .usize)))
      (BlockState.default.insertMust .bounded (Local.ofNat 1))).localIsBounded
        (Local.ofNat 1) = true :=
  ⟨agreeExcept_insertMust _ _ _, by decide, by decide⟩

end San
