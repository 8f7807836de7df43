import San.Join

/-! # Laws of the state join

The fields of a `BlockState` are merged independently, so the laws of the join are
the laws of the product of its fields' disciplines (`BlockState.discipline_lawful`).
From them:

* the change flag is exact as long as no set-valued map binds an empty set
  (`joinWith_exact`): an empty set arriving at an unbound local is merged but
  not reported;
* a merged state absorbs both of its arguments;
* the join is associative and idempotent, but *not* commutative: the `UNION` fact
  maps keep the value that is already bound.  `ConflictFree` says exactly when the
  order of two predecessors does not matter.
-/
namespace San

open Discipline

/-! ## The value lattices -/

theorem HeapState.join_self (a : HeapState) : a.join a = a := if_pos rfl

theorem HeapState.join_comm (a b : HeapState) : a.join b = b.join a := by
  cases a <;> cases b <;> rfl

theorem HeapState.join_assoc (a b c : HeapState) : (a.join b).join c = a.join (b.join c) := by
  cases a <;> cases b <;> cases c <;> rfl

theorem ProtocolState.join_self (a : ProtocolState) : a.join a = a := if_pos rfl

theorem ProtocolState.join_comm (a b : ProtocolState) : a.join b = b.join a := by
  cases a <;> cases b <;> rfl

theorem ProtocolState.join_assoc (a b c : ProtocolState) :
    (a.join b).join c = a.join (b.join c) := by
  cases a <;> cases b <;> cases c <;> rfl

theorem InitState.join_self (a : InitState) : a.join a = a := if_pos rfl

theorem InitState.join_comm (a b : InitState) : a.join b = b.join a := by
  cases a <;> cases b <;> rfl

theorem InitState.join_assoc (a b c : InitState) : (a.join b).join c = a.join (b.join c) := by
  cases a <;> cases b <;> cases c <;> rfl

/-- How far a heap state is from `Escaped`, the top of its lattice. -/
def HeapState.height : HeapState → ℕ
  | .rawOwned => 2
  | .reconstituted => 2
  | .maybeFreed => 1
  | .escaped => 0

def ProtocolState.height (a : ProtocolState) : ℕ := if a = .maybeActive then 0 else 1

def InitState.height (a : InitState) : ℕ := if a = .unknown then 0 else 1

theorem HeapState.combine_lawful : (combineBy HeapState.join).Lawful :=
  combineBy_lawful join_self join_comm join_assoc
    ⟨height, 2, fun v => by cases v <;> decide, fun u v => by cases u <;> cases v <;> decide⟩

theorem ProtocolState.combine_lawful : (combineBy ProtocolState.join).Lawful :=
  combineBy_lawful join_self join_comm join_assoc
    ⟨height, 1, fun v => by cases v <;> decide, fun u v => by cases u <;> cases v <;> decide⟩

theorem InitState.combine_lawful : (combineBy InitState.join).Lawful :=
  combineBy_lawful join_self join_comm join_assoc
    ⟨height, 1, fun v => by cases v <;> decide, fun u v => by cases u <;> cases v <;> decide⟩

/-! ## The fields -/

theorem max_ranked : ∃ rank : U64 → ℕ, ∀ u v : U64, max u v = v → u ≠ v → rank v < rank u := by
  refine ⟨fun v => 2 ^ 64 - v.val, fun u v h hne => ?_⟩
  have hle : u ≤ v := max_eq_right_iff.mp h
  have hlt : u.val < v.val := lt_of_le_of_ne hle fun he => hne (Fin.ext he)
  show 2 ^ 64 - v.val < 2 ^ 64 - u.val
  omega

theorem min_ranked : ∃ rank : U64 → ℕ, ∀ u v : U64, min u v = v → u ≠ v → rank v < rank u := by
  refine ⟨fun v => v.val, fun u v h hne => ?_⟩
  have hle : v ≤ u := min_eq_right_iff.mp h
  exact lt_of_le_of_ne hle fun he => hne (Fin.ext he).symm

theorem constUpper_lawful : Disciplines.constUpper.Lawful :=
  shrinking_lawful (weaken_lawful max_self max_comm max_assoc max_ranked)

theorem constLower_lawful : Disciplines.constLower.Lawful :=
  shrinking_lawful (weaken_lawful min_self min_comm min_assoc min_ranked)

theorem muFieldInits_reconcile : (weaken (V := Finset FieldIdx) (· ∩ ·)).Lawful :=
  weaken_lawful Finset.inter_self Finset.inter_comm Finset.inter_assoc interSet_lawful.ranked

theorem union_lawful {K V : Type} [DecidableEq K] [DecidableEq V] [Finite K] :
    (Disciplines.union (K := K) (V := V)).Lawful := growing_lawful keepFirst_lawful

theorem sets_lawful {K V : Type} [DecidableEq K] [DecidableEq V] [Finite K] [Finite V] :
    (Disciplines.sets (K := K) (V := V)).Lawful := growing_lawful collect_lawful

theorem agreement_lawful {V : Type} [DecidableEq V] : (Disciplines.agreement (V := V)).Lawful :=
  shrinking_lawful agreeing_lawful

namespace BlockState

/-- The fields of a state as a tuple. -/
abbrev Fields : Type :=
  FMap ObjectId HeapState × FMap Local (Finset ObjectId) × FMap Local (Finset ProtocolId) ×
  FMap ProtocolId ProtocolState × Bool × FMap Local InitState × (Fact → FMap Local Local) ×
  (PairFact → FMap Local (Local × Local)) × (ConstFact → FMap Local (Local × U64)) ×
  (MustSet → Finset Local) × (MustPairs → Finset (Local × Local)) × (MaySet → Finset Local) ×
  FMap Local (Finset Local) × FMap Local DefId × FMap Local U64 × FMap Local U64 ×
  FMap Local (List Local) × Bool × FMap (Local × FieldIdx) (Finset ObjectId) ×
  FMap Local Local × FMap Local (Finset FieldIdx) × FMap Local FieldIdx

def fields (s : BlockState) : Fields :=
  (s.heap, s.pointsTo, s.localProto, s.typestate, s.untrackedForgetSeen, s.init, s.facts,
    s.pairFacts, s.constFacts, s.mustSets, s.mustPairs, s.maySets, s.ownerAlias, s.fnPtrTargets,
    s.constUpper, s.constLower, s.arrayComponents, s.threadSpawned, s.fieldOwned, s.muRawPtr,
    s.muFieldInits, s.activeVariant)

theorem fields_injective {a b : BlockState} (h : a.fields = b.fields) : a = b := by
  cases a; cases b
  simp only [fields, Prod.mk.injEq] at h
  simpa only [mk.injEq] using h

/-- The product of the fields' disciplines. -/
def fieldsDiscipline : Discipline Fields :=
  Disciplines.heap.prod <| Disciplines.sets.prod <| Disciplines.sets.prod <|
  Disciplines.typestate.prod <| raiseFlag.prod <| Disciplines.init.prod <|
  Disciplines.facts.prod <| Disciplines.pairFacts.prod <| Disciplines.constFacts.prod <|
  Disciplines.mustSets.prod <| Disciplines.mustPairs.prod <| Disciplines.maySets.prod <|
  Disciplines.sets.prod <| Disciplines.agreement.prod <| Disciplines.constUpper.prod <|
  Disciplines.constLower.prod <| Disciplines.union.prod <| raiseFlag.prod <|
  Disciplines.sets.prod <| Disciplines.agreement.prod <| Disciplines.muFieldInits.prod
  Disciplines.agreement

theorem fieldsDiscipline_lawful : fieldsDiscipline.Lawful :=
  (growing_lawful HeapState.combine_lawful).prod <| sets_lawful.prod <| sets_lawful.prod <|
  (growing_lawful ProtocolState.combine_lawful).prod <| raiseFlag_lawful.prod <|
  (growing_lawful InitState.combine_lawful).prod <|
  (family_lawful Fact.mem_all union_lawful).prod <|
  (family_lawful PairFact.mem_all union_lawful).prod <|
  (family_lawful ConstFact.mem_all union_lawful).prod <|
  (family_lawful MustSet.mem_all interSet_lawful).prod <|
  (family_lawful MustPairs.mem_all interSet_lawful).prod <|
  (family_lawful MaySet.mem_all unionSet_lawful).prod <|
  sets_lawful.prod <| agreement_lawful.prod <| constUpper_lawful.prod <|
  constLower_lawful.prod <| union_lawful.prod <| raiseFlag_lawful.prod <| sets_lawful.prod <|
  agreement_lawful.prod <| (shrinking_lawful muFieldInits_reconcile).prod agreement_lawful

/-- No value of a set-valued map is the empty set. -/
structure NoEmptySets (s : BlockState) : Prop where
  pointsTo : ∀ l objs, s.pointsTo.get l = some objs → objs ≠ ∅
  localProto : ∀ l protos, s.localProto.get l = some protos → protos ≠ ∅
  ownerAlias : ∀ l owners, s.ownerAlias.get l = some owners → owners ≠ ∅
  fieldOwned : ∀ key objs, s.fieldOwned.get key = some objs → objs ≠ ∅

/-- `join_with` as a discipline on whole states. -/
def discipline : Discipline BlockState where
  join := joined
  changed a b := (a.joinWith b).2
  good := NoEmptySets

theorem changed_eq (a b : BlockState) :
    (a.joinWith b).2 = fieldsDiscipline.changed a.fields b.fields := by
  simp only [joinWith, flags, List.any_cons, List.any_nil, id, Bool.or_false]
  rfl

theorem discipline_lawful : discipline.Lawful := by
  refine fieldsDiscipline_lawful.pullback fields fields_injective (fun _ _ => rfl) changed_eq ?_
  intro b hb
  have hset : ∀ {K V : Type} [DecidableEq K] [DecidableEq V] {m : FMap K (Finset V)},
      (∀ k v, m.get k = some v → v ≠ ∅) → Disciplines.sets.good m :=
    fun h k v hk => decide_eq_true (h k v hk)
  refine ⟨fun _ _ _ => rfl, hset hb.pointsTo, hset hb.localProto, fun _ _ _ => rfl, trivial,
    fun _ _ _ => rfl, fun _ _ _ _ => rfl, fun _ _ _ _ => rfl, fun _ _ _ _ => rfl,
    fun _ => trivial, fun _ => trivial, fun _ => trivial, hset hb.ownerAlias, trivial, trivial,
    trivial, fun _ _ _ => rfl, trivial, hset hb.fieldOwned, trivial, trivial, trivial⟩

/-! ## The flag is exact and the join absorbs -/

/-- **The change flag is exact.**  The flag of a join is raised iff the merged state
differs from the target; joining either argument into the merged state again
changes nothing and reports nothing. -/
theorem joinWith_exact (a b : BlockState) (_ha : a.NoEmptySets) (hb : b.NoEmptySets) :
    ((a.joinWith b).2 = true ↔ (a.joinWith b).1 ≠ a) ∧
      (a.joinWith b).1.joinWith a = ((a.joinWith b).1, false) ∧
      (a.joinWith b).1.joinWith b = ((a.joinWith b).1, false) := by
  have law := discipline_lawful
  refine ⟨⟨law.ne_of_changed a b, fun hne => ?_⟩, ?_, ?_⟩
  · by_contra hc
    exact hne (law.eq_of_not_changed a b hb (Bool.not_eq_true _ ▸ hc))
  · exact Prod.ext (law.left a b) (law.not_changed_left a b)
  · exact Prod.ext (law.right a b) (law.not_changed_right a b)

/-- A freed object merged into an owned one. -/
theorem joinWith_exact_freed :
    let a := { default with heap := (∅ : FMap ObjectId HeapState).insert ⟨0⟩ .rawOwned }
    let b := { default with heap := (∅ : FMap ObjectId HeapState).insert ⟨0⟩ .reconstituted }
    ((a.joinWith b).2 = true ↔ (a.joinWith b).1 ≠ a) ∧
      (a.joinWith b).1.joinWith a = ((a.joinWith b).1, false) ∧
      (a.joinWith b).1.joinWith b = ((a.joinWith b).1, false) :=
  joinWith_exact _ _ ⟨nofun, nofun, nofun, nofun⟩ ⟨nofun, nofun, nofun, nofun⟩

/-! ## When the order of two predecessors matters -/

/-- No `UNION` fact map binds a local to different values in the two states. -/
structure ConflictFree (a b : BlockState) : Prop where
  facts : ∀ k l u v, (a.facts k).get l = some u → (b.facts k).get l = some v → u = v
  pairFacts : ∀ k l u v, (a.pairFacts k).get l = some u → (b.pairFacts k).get l = some v → u = v
  constFacts : ∀ k l u v,
    (a.constFacts k).get l = some u → (b.constFacts k).get l = some v → u = v
  arrayComponents : ∀ l u v,
    a.arrayComponents.get l = some u → b.arrayComponents.get l = some v → u = v

/-- Every field outside the `UNION` fact maps is merged symmetrically. -/
theorem joined_comm_of_conflictFree {a b : BlockState} (h : ConflictFree a b) :
    a.joined b = b.joined a := by
  have hset : ∀ {K V : Type} [DecidableEq K] [DecidableEq V] (m n : FMap K (Finset V)),
      Disciplines.sets.join m n = Disciplines.sets.join n m :=
    fun m n => growing_comm Finset.union_comm m n
  have hagree : ∀ {V : Type} [DecidableEq V] (m n : FMap Local V),
      Disciplines.agreement.join m n = Disciplines.agreement.join n m :=
    fun m n => shrinking_comm agreeing_lawful m n
  refine BlockState.ext ?_ (hset _ _) (hset _ _) ?_ (Bool.or_comm _ _) ?_
    (funext fun k => ?_) (funext fun k => ?_) (funext fun k => ?_)
    (funext fun _ => Finset.inter_comm _ _) (funext fun _ => Finset.inter_comm _ _)
    (funext fun _ => Finset.union_comm _ _) (hset _ _) (hagree _ _) ?_ ?_ ?_ (Bool.or_comm _ _)
    (hset _ _) (hagree _ _) (shrinking_comm muFieldInits_reconcile _ _) (hagree _ _)
  · exact growing_comm HeapState.join_comm _ _
  · exact growing_comm ProtocolState.join_comm _ _
  · exact growing_comm InitState.join_comm _ _
  · exact (keepFirst_comm_iff _ _).mpr (h.facts k)
  · exact (keepFirst_comm_iff _ _).mpr (h.pairFacts k)
  · exact (keepFirst_comm_iff _ _).mpr (h.constFacts k)
  · exact shrinking_comm (weaken_lawful max_self max_comm max_assoc max_ranked) _ _
  · exact shrinking_comm (weaken_lawful min_self min_comm min_assoc min_ranked) _ _
  · exact (keepFirst_comm_iff _ _).mpr h.arrayComponents

theorem conflictFree_of_joined_comm {a b : BlockState} (h : a.joined b = b.joined a) :
    ConflictFree a b where
  facts k := (keepFirst_comm_iff _ _).mp (congrFun (congrArg BlockState.facts h) k)
  pairFacts k := (keepFirst_comm_iff _ _).mp (congrFun (congrArg BlockState.pairFacts h) k)
  constFacts k := (keepFirst_comm_iff _ _).mp (congrFun (congrArg BlockState.constFacts h) k)
  arrayComponents := (keepFirst_comm_iff _ _).mp (congrArg BlockState.arrayComponents h)

end BlockState

end San
