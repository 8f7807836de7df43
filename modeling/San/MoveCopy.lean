import San.Nonzero
import San.WellFormed

/-! # Moves and copies

The optimizer turns `dst = move src` into `dst = copy src` and back, and the transfer function
treats the two in separate arms.  `move_copy_agree` says that this is sound: the two states
differ in the entries of `src` only.  The entries that a move may drop at `src` are those of
`Field.given`; the arms write no others, so the states agree there wholly.
-/
namespace San

namespace Field

/-- The fields in which a move gives up the entry of its source. -/
def given : List Field :=
  carried ++ ([pointsTo, localProto, init] ++ (Fact.comparisons.map fact ++
    MustSet.scalar.map mustSet ++ [maySet .constPtrCast]))

end Field

/-! ## Sets and maps away from the source -/

section
variable {src dst : Local}

theorem propagateSet_off (m : Finset Local) :
    (propagateSet src dst true m).erase src = (propagateSet src dst false m).erase src := by
  unfold propagateSet
  split
  · exact Finset.erase_idem
  · rfl

theorem moveSet_off (m : Finset Local) :
    (moveSet src dst m).erase src = (copySet src dst m).erase src := by
  ext x
  unfold moveSet copySet
  split <;> simp only [Finset.mem_erase, Finset.mem_insert] <;> tauto

variable {V : Type}

theorem propagateMap_off (m : FMap Local V) :
    (propagateMap src dst true m).erase src = (propagateMap src dst false m).erase src := by
  unfold propagateMap
  cases m.get src with
  | none => rfl
  | some v => exact FMap.erase_eq_of_get_eq fun x hx => FMap.get_erase_of_ne _ hx

theorem transferMap_off (m : FMap Local V) :
    (transferMap src dst true m).erase src = (transferMap src dst false m).erase src := by
  unfold transferMap
  cases m.get src with
  | none => rfl
  | some v => exact FMap.erase_eq_of_get_eq fun x hx => FMap.get_erase_of_ne _ hx

theorem moveKey_off (m : FMap Local V) :
    (m.moveKey src dst).erase src = (m.copyKey src dst).erase src := by
  refine FMap.erase_eq_of_get_eq fun x hx => ?_
  rw [FMap.get_moveKey, FMap.get_copyKey, if_neg hx]

end

/-! ## The stages -/

namespace DifferAt
variable {src dst : Local} {s t s' t' : BlockState} {D F : List Field}

/-- A stage that writes only fields that may differ anyway. -/
theorem apart (h : DifferAt src D s t) (hs : Writes F s s') (ht : Writes F t t') (hFD : F ⊆ D)
    (hoff : ∀ f ∈ F, f.SameOff src s' t') : DifferAt src D s' t' :=
  h.keepOff hs ht fun f hf => ⟨hoff f hf, fun hD => absurd (hFD hf) hD⟩

theorem propagate (src dst : Local) (s : BlockState) :
    DifferAt src Field.carried (San.propagateUse src dst true s)
      (San.propagateUse src dst false s) := by
  refine (DifferAt.refl src Field.carried s).apart (propagateUse_writes s src dst true)
    (propagateUse_writes s src dst false) (List.Subset.refl _) fun f hf => ?_
  simp only [Field.carried, MustSet.derived, List.map_cons, List.map_nil, List.cons_append,
    List.nil_append, List.mem_cons, List.not_mem_nil, or_false] at hf
  rcases hf with rfl | rfl | rfl | rfl | rfl | rfl | rfl | rfl | rfl | rfl | rfl | rfl | rfl | rfl | rfl
  all_goals first
    | exact (propagateSet_off _).symm
    | exact (propagateMap_off _).symm
    | exact (transferMap_off _).symm

/-- The arms of a move and of a copy, when no empty set is bound. -/
theorem assignMoveCopy (h : DifferAt src Field.carried s t) (dst : Local)
    (hobjs : nonempty (s.pointsTo.get src) = s.pointsTo.get src)
    (hprotos : nonempty (s.localProto.get src) = s.localProto.get src) :
    DifferAt src Field.given (San.assignMove src dst s) (San.assignCopy src dst t) := by
  have hsame : ∀ f, f ∉ Field.carried → f.Same s t := h.same
  have hmove : Writes ([.pointsTo, .localProto, .init] ++ (Fact.comparisons.map .fact ++
      MustSet.scalar.map .mustSet ++ [.maySet .constPtrCast])) s (San.assignMove src dst s) :=
    ((moveTracked_writes s src dst).mono (by decide)).trans
      ((carryScalars_writes _ _ _ _).mono (by decide))
  have hcopy : Writes ([.pointsTo, .localProto, .init] ++ (Fact.comparisons.map .fact ++
      MustSet.scalar.map .mustSet ++ [.maySet .constPtrCast])) t (San.assignCopy src dst t) :=
    ((copyTracked_writes t src dst).mono (by decide)).trans
      ((carryScalars_writes _ _ _ _).mono (by decide))
  refine (h.mono (by decide)).apart hmove hcopy (by decide) fun f hf => ?_
  simp only [Fact.comparisons, MustSet.scalar, List.map_cons, List.map_nil, List.cons_append,
    List.nil_append, List.mem_cons, List.not_mem_nil, or_false] at hf
  have hkey : ∀ {V : Type} {m n : FMap Local V}, n = m →
      (n.copyKey src dst).erase src = (m.moveKey src dst).erase src := by
    rintro V m n rfl
    exact (moveKey_off n).symm
  have hset : ∀ {m n : Finset Local}, n = m →
      (copySet src dst n).erase src = (moveSet src dst m).erase src := by
    rintro m n rfl
    exact (moveSet_off n).symm
  rcases hf with rfl | rfl | rfl | rfl | rfl | rfl | rfl | rfl | rfl | rfl | rfl
  · show (t.pointsTo.copyKey src dst).erase src =
      ((s.pointsTo.erase src).put dst (nonempty (s.pointsTo.get src))).erase src
    rw [hobjs]
    exact hkey (hsame .pointsTo (by decide))
  · show (t.localProto.copyKey src dst).erase src =
      ((s.localProto.erase src).put dst (nonempty (s.localProto.get src))).erase src
    rw [hprotos]
    exact hkey (hsame .localProto (by decide))
  · exact hkey (hsame .init (by decide))
  · exact hkey (hsame (.fact .ltFacts) (by decide))
  · exact hkey (hsame (.fact .geFacts) (by decide))
  · exact hkey (hsame (.fact .leFacts) (by decide))
  · exact hkey (hsame (.fact .gtFacts) (by decide))
  · exact hset (hsame (.mustSet .bufWritten) (by decide))
  · exact hset (hsame (.mustSet .bounded) (by decide))
  · exact hset (hsame (.mustSet .boundedOrEq) (by decide))
  · exact hset (hsame (.maySet .constPtrCast) (by decide))

/-- The type of another local is enforced alike. -/
theorem enforceOther (h : DifferAt src Field.given s t) (hne : dst ≠ src) (tcx : TyCtxt) (ty : Ty) :
    DifferAt src Field.given (San.enforceTypeFacts tcx dst ty s)
      (San.enforceTypeFacts tcx dst ty t) := by
  have hnonzero : ∀ u v : BlockState, DifferAt src Field.given u v →
      DifferAt src Field.given (u.insertMust .nonzero dst) (v.insertMust .nonzero dst) := by
    intro u v huv
    refine huv.apart (u.insertMust_writes .nonzero dst) (v.insertMust_writes .nonzero dst)
      (by decide) (List.forall_mem_singleton.mpr ?_)
    show (insert dst (v.mustSets .nonzero)).erase src = (insert dst (u.mustSets .nonzero)).erase src
    rw [Finset.erase_insert_of_ne hne, Finset.erase_insert_of_ne hne]
    exact congrArg (insert dst) (huv.off (.mustSet .nonzero))
  have hbound : ∀ u v : BlockState, DifferAt src Field.given u v → ∀ o,
      DifferAt src Field.given (u.boundAboveBy dst o) (v.boundAboveBy dst o) := by
    intro u v huv o
    refine huv.apart (u.boundAboveBy_writes dst o) (v.boundAboveBy_writes dst o)
      (by decide) (List.forall_mem_singleton.mpr ?_)
    have hoff : v.constUpper.erase src = u.constUpper.erase src := huv.off .constUpper
    cases o with
    | none => exact hoff
    | some ub =>
      refine FMap.erase_eq_of_get_eq fun x hx => ?_
      show (v.constUpper.insert dst _).get x = (u.constUpper.insert dst _).get x
      rw [FMap.get_insert, FMap.get_insert, FMap.get_eq_of_erase_eq hoff hne,
        FMap.get_eq_of_erase_eq hoff hx]
  refine hbound _ _ ?_ _
  split
  · exact hnonzero s t h
  · exact h

end DifferAt

/-! ## The assignment -/

theorem nonempty_of_ne {α : Type} [DecidableEq α] {o : Option (Finset α)}
    (h : ∀ m, o = some m → m ≠ ∅) : nonempty o = o := by
  cases o with
  | none => rfl
  | some m => exact if_pos (decide_eq_true (h m rfl))

/-- **A move and a copy differ at most in the entries of the source.** -/
theorem differAt_move_copy (tcx : TyCtxt) (body : Body) {src dst : Local} {s : BlockState}
    (hs : Tracks body s) (hne : dst ≠ src) (span : Span) :
    DifferAt src Field.given
      (applyStatement tcx body
        ⟨.assign (Place.ofLocal dst) (.use (.move (Place.ofLocal src))), span⟩ s)
      (applyStatement tcx body
        ⟨.assign (Place.ofLocal dst) (.use (.copy (Place.ofLocal src))), span⟩ s) := by
  let start := startAssign body dst (.use (.move (Place.ofLocal src))) s
  have hwrites := startAssign_writes s body dst (.use (.move (Place.ofLocal src)))
  have hobjs : (propagateUse src dst true start).pointsTo = s.pointsTo :=
    (hwrites .pointsTo (by decide)).trans (propagateUse_writes start src dst true _ (by decide))
  have hprotos : (propagateUse src dst true start).localProto = s.localProto :=
    (hwrites .localProto (by decide)).trans (propagateUse_writes start src dst true _ (by decide))
  have harms := (DifferAt.propagate src dst start).assignMoveCopy dst
    (by rw [hobjs]; exact nonempty_of_ne fun m hm => (hs.pointsTo src m hm).1)
    (by rw [hprotos]; exact nonempty_of_ne fun m hm => (hs.localProto src m hm).1)
  rw [applyStatement_assign tcx body rfl, applyStatement_assign tcx body rfl, assignLocal_eq,
    assignLocal_eq]
  exact harms.enforceOther hne tcx (body.localTy dst)

/-- **Moves and copies agree on everything but the source.**  In a well-formed state, the two
assignments leave states that agree on all entries that are not keyed by `src`, and on all pairs
and all field entries, `src`'s included. -/
theorem move_copy_agree (tcx : TyCtxt) (body : Body) (s : BlockState) (src dst : Local)
    (span : Span) (hs : Tracks body s) (hne : src ≠ dst) :
    let moved := applyStatement tcx body
      ⟨.assign (Place.ofLocal dst) (.use (.move (Place.ofLocal src))), span⟩ s
    let copied := applyStatement tcx body
      ⟨.assign (Place.ofLocal dst) (.use (.copy (Place.ofLocal src))), span⟩ s
    AgreeExcept src moved copied ∧ moved.mustPairs = copied.mustPairs ∧
      moved.fieldOwned = copied.fieldOwned := by
  intro moved copied
  have h : DifferAt src Field.given moved copied := differAt_move_copy tcx body hs hne.symm span
  refine ⟨h.agreeExcept, funext fun k => ?_, (h.same .fieldOwned (by decide)).symm⟩
  exact (h.same (.mustPairs k) (by cases k <;> decide)).symm

/-- A body with three locals and one block. -/
def threeLocals : Body := .ofBlocks 0 0 [.other, .other, .other] 0 (fun _ => [.of [] .return])
  (by decide)

/-- `_1` owns the object of block `0`. -/
def ownsFirst : BlockState := BlockState.default.mintRawOwned (Local.ofNat 1) 0

/-- The pointer is moved or copied to `_2`: the states agree away from `_1`, and `_2` owns the
object after the copy. -/
theorem owned_pointer_move_copy :
    AgreeExcept (Local.ofNat 1)
      (applyStatement (.ofPaths []) threeLocals ⟨.assign (Place.ofLocal (Local.ofNat 2))
        (.use (.move (Place.ofLocal (Local.ofNat 1)))), .none⟩ ownsFirst)
      (applyStatement (.ofPaths []) threeLocals ⟨.assign (Place.ofLocal (Local.ofNat 2))
        (.use (.copy (Place.ofLocal (Local.ofNat 1)))), .none⟩ ownsFirst) ∧
    (applyStatement (.ofPaths []) threeLocals ⟨.assign (Place.ofLocal (Local.ofNat 2))
      (.use (.copy (Place.ofLocal (Local.ofNat 1)))), .none⟩ ownsFirst).ptrIsRawOwned
        (Local.ofNat 2) = true := by
  have hmint : Tracks threeLocals
      (BlockState.default.mintRawOwned (Local.ofNat 1) threeLocals.entryBlock.val) :=
    Tracks.mintRawOwned Tracks.default threeLocals.entryBlock
  have htracks : Tracks threeLocals ownsFirst := hmint
  have h := move_copy_agree (.ofPaths []) threeLocals ownsFirst (Local.ofNat 1) (Local.ofNat 2)
    .none htracks (by decide)
  exact ⟨h.1, by decide +kernel⟩

end San
