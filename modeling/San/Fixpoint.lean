import San.Dataflow

/-! # The fixpoint terminates and leaves no edge behind

The join climbs a well-founded order on states (`BlockState.Below`): lattice values
rise, union maps and sets grow, intersection sets and agreement maps shrink, upper
bounds rise and lower bounds fall.  No transfer function enters the argument, so it
does not matter that transfers are not monotone.  Termination and correctness of
`runFixpoint` are then those of the worklist algorithm.
-/
namespace San

namespace BlockState
open Discipline

/-! ## The order that the join climbs -/

/-- `b` is at or above `a` in every field. -/
structure Below (a b : BlockState) : Prop where
  heap : ∀ o u, a.heap.get o = some u → ∃ v, b.heap.get o = some v ∧ u.join v = v
  pointsTo : ∀ l u, a.pointsTo.get l = some u → ∃ v, b.pointsTo.get l = some v ∧ u ⊆ v
  localProto : ∀ l u, a.localProto.get l = some u → ∃ v, b.localProto.get l = some v ∧ u ⊆ v
  typestate : ∀ p u, a.typestate.get p = some u → ∃ v, b.typestate.get p = some v ∧ u.join v = v
  untrackedForgetSeen : a.untrackedForgetSeen = true → b.untrackedForgetSeen = true
  init : ∀ m u, a.init.get m = some u → ∃ v, b.init.get m = some v ∧ u.join v = v
  facts : ∀ k l v, (a.facts k).get l = some v → (b.facts k).get l = some v
  pairFacts : ∀ k l v, (a.pairFacts k).get l = some v → (b.pairFacts k).get l = some v
  constFacts : ∀ k l v, (a.constFacts k).get l = some v → (b.constFacts k).get l = some v
  mustSets : ∀ k, b.mustSets k ⊆ a.mustSets k
  mustPairs : ∀ k, b.mustPairs k ⊆ a.mustPairs k
  maySets : ∀ k, a.maySets k ⊆ b.maySets k
  ownerAlias : ∀ l u, a.ownerAlias.get l = some u → ∃ v, b.ownerAlias.get l = some v ∧ u ⊆ v
  fnPtrTargets : ∀ l v, b.fnPtrTargets.get l = some v → a.fnPtrTargets.get l = some v
  constUpper : ∀ l v, b.constUpper.get l = some v → ∃ u, a.constUpper.get l = some u ∧ u ≤ v
  constLower : ∀ l v, b.constLower.get l = some v → ∃ u, a.constLower.get l = some u ∧ v ≤ u
  arrayComponents : ∀ l v, a.arrayComponents.get l = some v → b.arrayComponents.get l = some v
  threadSpawned : a.threadSpawned = true → b.threadSpawned = true
  fieldOwned : ∀ l u, a.fieldOwned.get l = some u → ∃ v, b.fieldOwned.get l = some v ∧ u ⊆ v
  muRawPtr : ∀ l v, b.muRawPtr.get l = some v → a.muRawPtr.get l = some v
  muFieldInits : ∀ l v, b.muFieldInits.get l = some v →
    ∃ u, a.muFieldInits.get l = some u ∧ v ⊆ u
  activeVariant : ∀ l v, b.activeVariant.get l = some v → a.activeVariant.get l = some v

theorem union_below_iff {K V : Type} [DecidableEq K] [DecidableEq V] {a b : FMap K V} :
    Disciplines.union.join a b = b ↔ ∀ k v, a.get k = some v → b.get k = some v := by
  refine growing_below_iff.trans (forall₂_congr fun k u => imp_congr_right fun _ => ?_)
  constructor
  · rintro ⟨v, hb, huv⟩
    rw [hb, show u = v from huv]
  · exact fun hb => ⟨u, hb, rfl⟩

theorem sets_below_iff {K V : Type} [DecidableEq K] [DecidableEq V] {a b : FMap K (Finset V)} :
    Disciplines.sets.join a b = b ↔
      ∀ k u, a.get k = some u → ∃ v, b.get k = some v ∧ u ⊆ v := by
  refine growing_below_iff.trans ?_
  simp only [collect, Finset.union_eq_right]

theorem agreement_below_iff {V : Type} [DecidableEq V] {a b : FMap Local V} :
    Disciplines.agreement.join a b = b ↔ ∀ l v, b.get l = some v → a.get l = some v := by
  refine shrinking_below_iff.trans (forall₂_congr fun k v => imp_congr_right fun _ => ?_)
  constructor
  · rintro ⟨u, ha, huv⟩
    by_cases he : u = v
    · rw [ha, he]
    · rw [show agreeing.meet u v = none from if_neg he] at huv
      cases huv
  · exact fun ha => ⟨v, ha, if_pos rfl⟩

theorem weaken_below_iff {V : Type} [DecidableEq V] {j : V → V → V} {a b : FMap Local V} :
    (shrinking (weaken j)).join a b = b ↔
      ∀ l v, b.get l = some v → ∃ u, a.get l = some u ∧ j u v = v := by
  refine shrinking_below_iff.trans ?_
  simp only [weaken, Option.some.injEq]

theorem raiseFlag_below_iff {a b : Bool} : raiseFlag.join a b = b ↔ (a = true → b = true) := by
  revert a b
  decide

/-- **The order is the join's own**: `a` is below `b` iff merging `b` into `a` yields `b`. -/
theorem below_iff (a b : BlockState) : Below a b ↔ a.joined b = b := by
  constructor
  · intro h
    refine BlockState.ext (growing_below_iff.mpr h.heap) (sets_below_iff.mpr h.pointsTo)
      (sets_below_iff.mpr h.localProto) (growing_below_iff.mpr h.typestate)
      (raiseFlag_below_iff.mpr h.untrackedForgetSeen) (growing_below_iff.mpr h.init)
      (funext fun k => union_below_iff.mpr (h.facts k))
      (funext fun k => union_below_iff.mpr (h.pairFacts k))
      (funext fun k => union_below_iff.mpr (h.constFacts k))
      (funext fun k => Finset.inter_eq_right.mpr (h.mustSets k))
      (funext fun k => Finset.inter_eq_right.mpr (h.mustPairs k))
      (funext fun k => Finset.union_eq_right.mpr (h.maySets k))
      (sets_below_iff.mpr h.ownerAlias) (agreement_below_iff.mpr h.fnPtrTargets)
      (weaken_below_iff.mpr ?_) (weaken_below_iff.mpr ?_)
      (union_below_iff.mpr h.arrayComponents) (raiseFlag_below_iff.mpr h.threadSpawned)
      (sets_below_iff.mpr h.fieldOwned) (agreement_below_iff.mpr h.muRawPtr)
      (weaken_below_iff.mpr ?_) (agreement_below_iff.mpr h.activeVariant)
    · simpa only [max_eq_right_iff] using h.constUpper
    · simpa only [min_eq_right_iff] using h.constLower
    · simpa only [Finset.inter_eq_right] using h.muFieldInits
  · intro h
    have hupper := weaken_below_iff.mp (congrArg constUpper h)
    have hlower := weaken_below_iff.mp (congrArg constLower h)
    have hfields := weaken_below_iff.mp (congrArg muFieldInits h)
    exact
      { heap := growing_below_iff.mp (congrArg heap h)
        pointsTo := sets_below_iff.mp (congrArg pointsTo h)
        localProto := sets_below_iff.mp (congrArg localProto h)
        typestate := growing_below_iff.mp (congrArg typestate h)
        untrackedForgetSeen := raiseFlag_below_iff.mp (congrArg untrackedForgetSeen h)
        init := growing_below_iff.mp (congrArg init h)
        facts := fun k => union_below_iff.mp (congrFun (congrArg facts h) k)
        pairFacts := fun k => union_below_iff.mp (congrFun (congrArg pairFacts h) k)
        constFacts := fun k => union_below_iff.mp (congrFun (congrArg constFacts h) k)
        mustSets := fun k => Finset.inter_eq_right.mp (congrFun (congrArg mustSets h) k)
        mustPairs := fun k => Finset.inter_eq_right.mp (congrFun (congrArg mustPairs h) k)
        maySets := fun k => Finset.union_eq_right.mp (congrFun (congrArg maySets h) k)
        ownerAlias := sets_below_iff.mp (congrArg ownerAlias h)
        fnPtrTargets := agreement_below_iff.mp (congrArg fnPtrTargets h)
        constUpper := by simpa only [max_eq_right_iff] using hupper
        constLower := by simpa only [min_eq_right_iff] using hlower
        arrayComponents := union_below_iff.mp (congrArg arrayComponents h)
        threadSpawned := raiseFlag_below_iff.mp (congrArg threadSpawned h)
        fieldOwned := sets_below_iff.mp (congrArg fieldOwned h)
        muRawPtr := agreement_below_iff.mp (congrArg muRawPtr h)
        muFieldInits := by simpa only [Finset.inter_eq_right] using hfields
        activeVariant := agreement_below_iff.mp (congrArg activeVariant h) }

/-- `b` is strictly above `a`. -/
def Above (b a : BlockState) : Prop := Below a b ∧ b ≠ a

/-- There is no infinite ascending chain of states. -/
theorem above_wellFounded : WellFounded Above := by
  obtain ⟨rank, hrank⟩ := discipline_lawful.ranked
  refine Subrelation.wf ?_ (InvImage.wf rank Nat.lt_wfRel.wf)
  rintro b a ⟨hle, hne⟩
  exact hrank a b ((below_iff a b).mp hle) hne.symm

/-- A join that reports a change moves strictly up. -/
theorem above_of_changed {a b : BlockState} (h : (a.joinWith b).2 = true) :
    Above (a.joinWith b).1 a :=
  ⟨(below_iff _ _).mpr (discipline_lawful.below_join a b), discipline_lawful.ne_of_changed a b h⟩

end BlockState

/-! ## Termination and correctness of the fixpoint -/

section Fixpoint
variable (tcx : TyCtxt) (body : Body) (summaries : SummaryMap) (initial : BlockState)

/-- **`run_fixpoint` terminates on every body.**  The queue is empty after finitely many
iterations, because every join that reports a change moves the entry state of its block
strictly up an order without infinite ascending chains. -/
theorem runFixpoint_terminates :
    (∃ k, runFixpoint tcx body summaries initial =
        ((flowProblem tcx body summaries initial).step^[k]
          (flowProblem tcx body summaries initial).initial).entry ∧
      ((flowProblem tcx body summaries initial).step^[k]
        (flowProblem tcx body summaries initial).initial).work = []) ∧
    WellFounded BlockState.Above ∧
    ∀ a b : BlockState, (a.joinWith b).2 = true → BlockState.Above (a.joinWith b).1 a := by
  obtain ⟨k, hrun, hdone⟩ := FlowProblem.run_terminates
    (flowProblem tcx body summaries initial).initial
  refine ⟨⟨k, ?_, hdone⟩, BlockState.above_wellFounded, fun a b => BlockState.above_of_changed⟩
  rw [← hrun]
  rfl

/-- The blocks that the entry block reaches along successors. -/
inductive Body.Reachable (body : Body) : body.BasicBlock → Prop
  | entry : Reachable body body.entryBlock
  | succ {b s : body.BasicBlock} : Reachable body b →
      s ∈ blockSuccessors (body.basicBlocks b) → Reachable body s

theorem reaches_iff_reachable (b : body.BasicBlock) :
    (flowProblem tcx body summaries initial).Reaches b ↔ body.Reachable b := by
  constructor
  · intro h
    induction h with
    | start => exact .entry
    | step _ hs ih => exact .succ ih hs
  · intro h
    induction h with
    | entry => exact .start
    | succ _ hs ih => exact .step ih hs

/-- **`run_fixpoint` is correct.**  Exactly the reachable blocks have an entry state; the
initial state is absorbed at the entry block; and the exit state of every reachable
block, computed from its final entry state and refined for the edge, is absorbed at
every successor. -/
theorem runFixpoint_stable :
    (∀ b, (runFixpoint tcx body summaries initial b).isSome ↔ body.Reachable b) ∧
    (∃ u, runFixpoint tcx body summaries initial body.entryBlock = some u ∧
      (u.joinWith initial).2 = false) ∧
    ∀ b x, runFixpoint tcx body summaries initial b = some x →
      ∀ s ∈ blockSuccessors (body.basicBlocks b),
        ∃ u, runFixpoint tcx body summaries initial s = some u ∧
          (u.joinWith (edgeState tcx body summaries b x s)).2 = false := by
  obtain ⟨hstart, hedges⟩ := FlowProblem.run_stable (P := flowProblem tcx body summaries initial)
  refine ⟨fun b => ?_, hstart, hedges⟩
  rw [← reaches_iff_reachable tcx body summaries initial b]
  exact FlowProblem.solution_isSome_iff b

end Fixpoint

end San
