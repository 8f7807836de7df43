import San.Nonzero

/-! # Field paths

A store into a place below a local is keyed by the last field of its path alone
(`last_simple_field_idx`).  Two domains rest on that key.  The fields of a `MaybeUninit` written
so far are counted by it, and the objects stored in a field are kept under it.  Both are right as
long as no two paths share their last field: `field_init_complete_iff` and
`field_round_trip_iff` say that they are wrong otherwise.
-/
namespace San

/-! ## Paths -/

/-- A path of fields, behind a dereference of its base if `deref`. -/
structure FieldPath where
  deref : Bool
  outer : List (FieldIdx × Ty)
  last : FieldIdx × Ty

namespace FieldPath

def projection (p : FieldPath) : List ProjectionElem :=
  (if p.deref then [.deref] else []) ++ (p.outer ++ [p.last]).map fun f => .field f.1 f.2

/-- The fields that lead to the place. -/
def fields (p : FieldPath) : List FieldIdx := p.outer.map Prod.fst ++ [p.last.1]

/-- The path is a field of the base itself. -/
def IsDirect (p : FieldPath) : Prop := p.outer = []

/-- Neither place is part of the other. -/
def Disjoint (p q : FieldPath) : Prop := ¬ p.fields <+: q.fields ∧ ¬ q.fields <+: p.fields

theorem not_isDeref_of_mem {fs : List (FieldIdx × Ty)} {e : ProjectionElem}
    (h : e ∈ fs.map fun f => ProjectionElem.field f.1 f.2) : e.isDeref = false := by
  obtain ⟨f, _, rfl⟩ := List.mem_map.mp h
  rfl

theorem any_isDeref_tail (p : FieldPath) :
    p.projection.tail.any ProjectionElem.isDeref = false := by
  rw [List.any_eq_false]
  intro e he
  rw [Bool.not_eq_true]
  unfold projection at he
  cases hderef : p.deref with
  | true =>
    rw [hderef] at he
    exact not_isDeref_of_mem he
  | false =>
    rw [hderef] at he
    exact not_isDeref_of_mem (List.mem_of_mem_tail he)

/-- **The key of a path is its last field.** -/
theorem lastSimpleFieldIdx_projection (p : FieldPath) :
    lastSimpleFieldIdx p.projection = some p.last.1 := by
  unfold lastSimpleFieldIdx
  rw [p.any_isDeref_tail, if_neg Bool.false_ne_true, projection, List.map_append, List.map_singleton,
    ← List.append_assoc, List.reverse_append, List.reverse_singleton, List.singleton_append,
    List.findSome?_cons]

theorem isLocal_place (p : FieldPath) (base : Local) :
    Place.isLocal ⟨base, p.projection⟩ = false := by
  unfold Place.isLocal projection
  simp

theorem fields_eq_singleton_iff {p : FieldPath} {i : FieldIdx} :
    p.fields = [i] ↔ p.IsDirect ∧ p.last.1 = i := by
  unfold fields IsDirect
  cases h : p.outer with
  | nil => simp
  | cons f fs => simp

end FieldPath

/-- A store into a place below a local. -/
structure FieldWrite where
  base : Local
  path : FieldPath
  rvalue : Rvalue
  span : Span

def FieldWrite.statement (w : FieldWrite) : Statement :=
  ⟨.assign ⟨w.base, w.path.projection⟩ w.rvalue, w.span⟩

/-- A store into a place below a local is an assignment to a projected place. -/
theorem applyStatement_path (tcx : TyCtxt) (body : Body) {stmt : Statement} {base : Local}
    {path : FieldPath} {rvalue : Rvalue} (hstmt : stmt.kind = .assign ⟨base, path.projection⟩ rvalue)
    (s : BlockState) :
    applyStatement tcx body stmt s =
      assignProjected tcx body ⟨base, path.projection⟩ rvalue (s.invalidateOwner base) := by
  unfold applyStatement
  rw [hstmt]
  dsimp only
  rw [path.isLocal_place, if_neg Bool.false_ne_true]

/-! ## Fields of a `MaybeUninit` -/

/-- The last fields of the paths that are written. -/
def lastFields (ws : List FieldWrite) : Finset FieldIdx := (ws.map fun w => w.path.last.1).toFinset

/-- `ptr` points into the `MaybeUninit` `mu` of a struct. -/
structure PointsInto (body : Body) (s : BlockState) (mu : Local) (adt : AdtDef) (ptr : Local) :
    Prop where
  origin : s.muRawPtr.get ptr = some mu
  type : ∃ m, body.localTy ptr = .rawPtr (.adt adt) m

section MaybeUninit
variable {tcx : TyCtxt} {body : Body} {s : BlockState} {mu : Local} {adt : AdtDef}

/-- The fields recorded so far. -/
def BlockState.muFields (s : BlockState) (mu : Local) : Finset FieldIdx :=
  (s.muFieldInits.get mu).getD ∅

theorem structFields_eq {ty : Ty} (hstruct : adt.isStruct = true) (hpos : 0 < adt.numFields)
    (hty : ∃ m, ty = .rawPtr (.adt adt) m) : structFields ty = some adt.numFields := by
  obtain ⟨m, rfl⟩ := hty
  exact if_pos ⟨hstruct, hpos⟩

/-- What a store leaves of the fields that it does not look at. -/
theorem FieldWrite.writes_before (w : FieldWrite) (tcx : TyCtxt) (body : Body) (s : BlockState) :
    ∃ t, Writes (.activeVariant :: Field.tracked) s t ∧
      applyStatement tcx body w.statement s =
        writeMaybeUninitField body ⟨w.base, w.path.projection⟩ t := by
  rw [applyStatement_path tcx body rfl]
  refine ⟨_, ?_, rfl⟩
  exact ((s.invalidateOwners_writes {w.base}).mono (by decide)).trans <|
    ((storeObjects_writes _ _ w.rvalue).mono (by decide)).trans <|
    (setUnionField_writes _ tcx body _).mono (by decide)

/-- **One store** records the last field of its path, and initializes the `MaybeUninit` once as
many fields are recorded as the struct has. -/
theorem FieldWrite.step (w : FieldWrite) (tcx : TyCtxt) (hstruct : adt.isStruct = true)
    (hpos : 0 < adt.numFields) (hptr : PointsInto body s mu adt w.base) :
    (applyStatement tcx body w.statement s).muRawPtr = s.muRawPtr ∧
    (applyStatement tcx body w.statement s).muFields mu = insert w.path.last.1 (s.muFields mu) ∧
    ((applyStatement tcx body w.statement s).init.get mu = some .initialized ↔
      s.init.get mu = some .initialized ∨
        adt.numFields ≤ (insert w.path.last.1 (s.muFields mu)).card) := by
  obtain ⟨t, hw, heq⟩ := w.writes_before tcx body s
  have hraw : t.muRawPtr = s.muRawPtr := hw .muRawPtr (by decide)
  have hfields : t.muFields mu = s.muFields mu := by
    unfold BlockState.muFields
    rw [show t.muFieldInits = s.muFieldInits from hw .muFieldInits (by decide)]
  have hinit : t.init = s.init := hw .init (by decide)
  have hwrite : writeMaybeUninitField body ⟨w.base, w.path.projection⟩ t =
      if adt.numFields ≤ (insert w.path.last.1 (t.muFields mu)).card then
        (setMuFields mu (insert w.path.last.1 (t.muFields mu)) t).insertInit mu
      else setMuFields mu (insert w.path.last.1 (t.muFields mu)) t := by
    unfold writeMaybeUninitField
    rw [w.path.lastSimpleFieldIdx_projection, structFields_eq hstruct hpos hptr.type, hraw,
      hptr.origin]
    rfl
  rw [heq, hwrite, hfields]
  split
  · rename_i hcard
    refine ⟨hraw, ?_, ?_⟩
    · simp [BlockState.muFields, setMuFields, BlockState.insertInit]
    · simp [setMuFields, BlockState.insertInit, hcard]
  · rename_i hcard
    refine ⟨hraw, ?_, ?_⟩
    · simp [BlockState.muFields, setMuFields]
    · simp [setMuFields, hinit, hcard]

/-- **A run of stores** initializes the `MaybeUninit` once the paths have as many different last
fields as the struct has fields. -/
theorem init_of_writes (hstruct : adt.isStruct = true) (hpos : 0 < adt.numFields)
    (ws : List FieldWrite) :
    ∀ s, (∀ w ∈ ws, PointsInto body s mu adt w.base) →
      ((applyStatements tcx body (ws.map FieldWrite.statement) s).init.get mu = some .initialized ↔
        s.init.get mu = some .initialized ∨
          ws ≠ [] ∧ adt.numFields ≤ (s.muFields mu ∪ lastFields ws).card) := by
  induction ws with
  | nil =>
    intro s _
    simp [applyStatements]
  | cons w ws ih =>
    intro s hptr
    obtain ⟨hraw, hfields, hinit⟩ := w.step tcx hstruct hpos (hptr w List.mem_cons_self)
    have hrest : ∀ w' ∈ ws, PointsInto body (applyStatement tcx body w.statement s) mu adt w'.base :=
      fun w' hw' => ⟨by rw [hraw]; exact (hptr w' (List.mem_cons_of_mem _ hw')).origin,
        (hptr w' (List.mem_cons_of_mem _ hw')).type⟩
    have hunion : insert w.path.last.1 (s.muFields mu) ∪ lastFields ws =
        s.muFields mu ∪ lastFields (w :: ws) := by
      ext i
      simp only [lastFields, List.map_cons, List.toFinset_cons, Finset.mem_union, Finset.mem_insert]
      tauto
    have hsub : insert w.path.last.1 (s.muFields mu) ⊆ s.muFields mu ∪ lastFields (w :: ws) :=
      hunion ▸ Finset.subset_union_left
    refine (ih _ hrest).trans ?_
    rw [hinit, hfields, hunion, or_assoc]
    refine or_congr_right ⟨?_, ?_⟩
    · rintro (hcard | ⟨_, hcard⟩)
      · exact ⟨List.cons_ne_nil _ _, Nat.le_trans hcard (Finset.card_le_card hsub)⟩
      · exact ⟨List.cons_ne_nil _ _, hcard⟩
    · rintro ⟨_, hcard⟩
      by_cases hnil : ws = []
      · subst hnil
        refine Or.inl ?_
        rw [← hunion] at hcard
        simpa [lastFields] using hcard
      · exact Or.inr ⟨hnil, hcard⟩

/-- Stores to fields of the struct itself reach each of them before their number is that of all
fields. -/
theorem complete_of_direct {ws : List FieldWrite}
    (hdirect : ∀ w ∈ ws, w.path.IsDirect ∧ w.path.last.1.val < adt.numFields)
    (hcard : adt.numFields ≤ (lastFields ws).card) {i : FieldIdx} (hi : i.val < adt.numFields) :
    ∃ w ∈ ws, w.path.fields = [i] := by
  have hsub : (lastFields ws).map Fin.valEmbedding ⊆ Finset.range adt.numFields := by
    intro v hv
    obtain ⟨j, hj, rfl⟩ := Finset.mem_map.mp hv
    obtain ⟨w, hw, rfl⟩ := List.mem_map.mp (List.mem_toFinset.mp hj)
    exact Finset.mem_range.mpr (hdirect w hw).2
  have hall : (lastFields ws).map Fin.valEmbedding = Finset.range adt.numFields :=
    Finset.eq_of_subset_of_card_le hsub (by rw [Finset.card_map, Finset.card_range]; exact hcard)
  obtain ⟨j, hj, hval⟩ := Finset.mem_map.mp (hall ▸ Finset.mem_range.mpr hi)
  obtain ⟨w, hw, rfl⟩ := List.mem_map.mp (List.mem_toFinset.mp hj)
  exact ⟨w, hw, FieldPath.fields_eq_singleton_iff.mpr ⟨(hdirect w hw).1, Fin.ext hval⟩⟩

/-- A store to a nested place takes the part of a field that is not written: the other fields
are written, and their number is that of all fields. -/
theorem exists_incomplete (hpos : 0 < adt.numFields) (hmax : adt.numFields ≤ 2 ^ 32)
    (fieldTy : FieldIdx → Ty) {nested : FieldPath} (hnested : ¬ nested.IsDirect) (ptr : Local) :
    ∃ (ws : List FieldWrite) (k : FieldIdx), k.val < adt.numFields ∧
      (∀ w ∈ ws, w.base = ptr ∧ (w.path = nested ∨ ∃ i : FieldIdx, i.val < adt.numFields ∧
        w.path = ⟨true, [], i, fieldTy i⟩)) ∧
      adt.numFields ≤ (lastFields ws).card ∧ ∀ w ∈ ws, w.path.fields ≠ [k] := by
  have hk : ∃ k : FieldIdx, k.val < adt.numFields ∧
      (nested.last.1.val < adt.numFields → k = nested.last.1) := by
    by_cases hlast : nested.last.1.val < adt.numFields
    · exact ⟨nested.last.1, hlast, fun _ => rfl⟩
    · exact ⟨0, hpos, fun h => absurd h hlast⟩
  obtain ⟨k, hk, hlast⟩ := hk
  let store (path : FieldPath) : FieldWrite := ⟨ptr, path, .use (.constant ⟨none, none⟩), .none⟩
  let all : Finset FieldIdx := Finset.univ.map (Fin.castLEEmb hmax)
  have hall : ∀ i, i ∈ all ↔ i.val < adt.numFields := by
    intro i
    refine Finset.mem_map.trans ⟨?_, fun hi => ⟨⟨i.val, hi⟩, Finset.mem_univ _, rfl⟩⟩
    rintro ⟨j, _, rfl⟩
    exact j.isLt
  refine ⟨store nested :: (all.erase k).toList.map fun i => store ⟨true, [], i, fieldTy i⟩, k, hk,
    ?_, ?_, ?_⟩
  · intro w hw
    rcases List.mem_cons.mp hw with rfl | hw
    · exact ⟨rfl, Or.inl rfl⟩
    · obtain ⟨i, hi, rfl⟩ := List.mem_map.mp hw
      rw [Finset.mem_toList] at hi
      exact ⟨rfl, Or.inr ⟨i, (hall i).mp (Finset.mem_of_mem_erase hi), rfl⟩⟩
  · -- the last field of the nested place is counted for the one that is not written
    have hfields : lastFields (store nested :: (all.erase k).toList.map fun i =>
        store ⟨true, [], i, fieldTy i⟩) = insert nested.last.1 (all.erase k) := by
      ext i
      simp [lastFields, store]
    have hnew : nested.last.1 ∉ all.erase k := by
      intro hmem
      obtain ⟨hne, hmem⟩ := Finset.mem_erase.mp hmem
      exact hne (hlast ((hall _).mp hmem)).symm
    have hcard : all.card = adt.numFields := by rw [Finset.card_map, Finset.card_univ, Fintype.card_fin]
    rw [hfields, Finset.card_insert_of_notMem hnew, Finset.card_erase_of_mem ((hall k).mpr hk), hcard]
    omega
  · intro w hw hfields
    obtain ⟨hdirect, hi⟩ := FieldPath.fields_eq_singleton_iff.mp hfields
    rcases List.mem_cons.mp hw with rfl | hw
    · exact hnested hdirect
    · obtain ⟨i, hmem, rfl⟩ := List.mem_map.mp hw
      rw [Finset.mem_toList] at hmem
      exact Finset.ne_of_mem_erase hmem hi

end MaybeUninit

/-- **When field-wise initialization is complete.**  Let `paths` be the places of a struct that
are stored to, its fields among them.  A `MaybeUninit` of the struct counts as initialized only
after each field has been written, whatever stores are made, exactly if no path is nested. -/
theorem field_init_complete_iff (tcx : TyCtxt) (body : Body) (s : BlockState) (mu ptr : Local)
    (adt : AdtDef) (fieldTy : FieldIdx → Ty) (paths : Set FieldPath)
    (hstruct : adt.isStruct = true) (hpos : 0 < adt.numFields) (hmax : adt.numFields ≤ 2 ^ 32)
    (hptr : PointsInto body s mu adt ptr) (hnone : s.muFieldInits.get mu = none)
    (hinit : s.init.get mu ≠ some .initialized)
    (hhead : ∀ p ∈ paths, ∀ i ∈ p.fields.head?, i.val < adt.numFields)
    (hfields : ∀ i : FieldIdx, i.val < adt.numFields → ⟨true, [], i, fieldTy i⟩ ∈ paths) :
    (∀ ws : List FieldWrite, (∀ w ∈ ws, PointsInto body s mu adt w.base ∧ w.path ∈ paths) →
      (applyStatements tcx body (ws.map FieldWrite.statement) s).init.get mu = some .initialized →
      ∀ i : FieldIdx, i.val < adt.numFields → ∃ w ∈ ws, w.path.fields = [i]) ↔
      ∀ p ∈ paths, p.IsDirect := by
  have hrun : ∀ ws : List FieldWrite, (∀ w ∈ ws, PointsInto body s mu adt w.base ∧ w.path ∈ paths) →
      ((applyStatements tcx body (ws.map FieldWrite.statement) s).init.get mu = some .initialized ↔
        ws ≠ [] ∧ adt.numFields ≤ (lastFields ws).card) := by
    intro ws hws
    rw [init_of_writes hstruct hpos ws s fun w hw => (hws w hw).1, or_iff_right hinit,
      BlockState.muFields, hnone, Option.getD_none, Finset.empty_union]
  constructor
  · intro h nested hmem
    refine Classical.byContradiction fun hnested => ?_
    -- one nested path is enough: it stands in for a field that no write of the run covers
    obtain ⟨ws, k, hk, hws, hcard, hmissing⟩ := exists_incomplete hpos hmax fieldTy hnested ptr
    have hpool : ∀ w ∈ ws, PointsInto body s mu adt w.base ∧ w.path ∈ paths := by
      intro w hw
      obtain ⟨hptr', hpath⟩ := hws w hw
      refine ⟨hptr' ▸ hptr, ?_⟩
      rcases hpath with hpath | ⟨i, hi, hpath⟩
      · exact hpath ▸ hmem
      · exact hpath ▸ hfields i hi
    have hne : ws ≠ [] := by
      rintro rfl
      exact absurd hcard (Nat.not_le.mpr hpos)
    obtain ⟨w, hw, hwritten⟩ := h ws hpool ((hrun ws hpool).mpr ⟨hne, hcard⟩) k hk
    exact hmissing w hw hwritten
  · intro hdirect ws hws hdone i hi
    refine complete_of_direct (fun w hw => ?_) ((hrun ws hws).mp hdone).2 hi
    have hpath := hdirect w.path (hws w hw).2
    refine ⟨hpath, hhead w.path (hws w hw).2 _ ?_⟩
    rw [FieldPath.fields_eq_singleton_iff.mpr ⟨hpath, rfl⟩]
    rfl

/-- A struct with two fields. -/
def pairAdt : AdtDef := ⟨⟨0, 0⟩, .struct, 2⟩

/-- A function with a `MaybeUninit` of the struct in `_1` and a pointer into it in `_2`. -/
def fillsPair : Body :=
  .ofBlocks 1 1 [.other, .other, .rawPtr (.adt pairAdt) .mut] 0 (fun _ => [.of [] .return])
    (by decide)

/-- Nothing has been written through `_2`. -/
def unwritten : BlockState :=
  { BlockState.default with muRawPtr := FMap.insert ∅ (Local.ofNat 2) (Local.ofNat 1) }

/-- The store of a constant into a field behind `_2`. -/
def storeAt (outer : List (FieldIdx × Ty)) (i : FieldIdx) : FieldWrite :=
  ⟨Local.ofNat 2, ⟨true, outer, i, .other⟩, .use (.constant ⟨some 0, none⟩), .none⟩

/-- Two stores to the fields of the struct initialize it. -/
theorem direct_stores_complete :
    (applyStatements (.ofPaths []) fillsPair ([storeAt [] 0, storeAt [] 1].map
      FieldWrite.statement) unwritten).init.get (Local.ofNat 1) = some .initialized ∧
    ∀ i : FieldIdx, i.val < 2 → ∃ w ∈ [storeAt [] 0, storeAt [] 1], w.path.fields = [i] := by
  have hdone : (applyStatements (.ofPaths []) fillsPair ([storeAt [] 0, storeAt [] 1].map
      FieldWrite.statement) unwritten).init.get (Local.ofNat 1) = some .initialized := by
    decide +kernel
  have hptr : PointsInto fillsPair unwritten (Local.ofNat 1) pairAdt (Local.ofNat 2) :=
    ⟨by decide +kernel, .mut, rfl⟩
  refine ⟨hdone, (field_init_complete_iff (.ofPaths []) fillsPair unwritten (Local.ofNat 1)
    (Local.ofNat 2) pairAdt (fun _ => .other) { p | p.outer = [] ∧ p.last.1.val < 2 } rfl
    (by decide) (by decide) hptr rfl nofun ?_ fun i hi => ⟨rfl, hi⟩).mpr (fun p hp => hp.1) _ ?_
    hdone⟩
  · rintro p ⟨houter, hlast⟩ i hi
    rw [FieldPath.fields_eq_singleton_iff.mpr ⟨houter, rfl⟩] at hi
    cases hi
    exact hlast
  · intro w hw
    rcases List.mem_cons.mp hw with rfl | hw
    · exact ⟨hptr, rfl, by decide⟩
    · cases List.mem_singleton.mp hw
      exact ⟨hptr, rfl, by decide⟩

/-- Two stores into the first field initialize the struct as well, although the second field is
never written. -/
theorem nested_stores_counted :
    (applyStatements (.ofPaths []) fillsPair ([storeAt [(0, .other)] 0, storeAt [(0, .other)] 1].map
      FieldWrite.statement) unwritten).init.get (Local.ofNat 1) = some .initialized ∧
    ∀ w ∈ [storeAt [(0, .other)] 0, storeAt [(0, .other)] 1],
      w.path.fields ≠ [0] ∧ w.path.fields ≠ [1] :=
  ⟨by decide +kernel, by decide⟩

/-! ## Objects in fields -/

section Stores
variable {tcx : TyCtxt} {body : Body} {s : BlockState} {base d : Local} {path : FieldPath}

/-- What a store moves into a field is kept under the last field of its path. -/
theorem FieldWrite.store (w : FieldWrite) (hbase : w.base ≠ Local.returnPlace) (tcx : TyCtxt)
    (body : Body) (s : BlockState) :
    ((rvalueLocal w.rvalue = none →
      (applyStatement tcx body w.statement s).fieldOwned = s.fieldOwned ∧
        (applyStatement tcx body w.statement s).pointsTo = s.pointsTo) ∧
    ∀ src, rvalueLocal w.rvalue = some src →
      (applyStatement tcx body w.statement s).fieldOwned =
        s.fieldOwned.put (w.base, w.path.last.1) (nonempty (s.pointsTo.get src)) ∧
      (applyStatement tcx body w.statement s).pointsTo = s.pointsTo.erase src) := by
  have howner : (s.invalidateOwner w.base).pointsTo = s.pointsTo ∧
      (s.invalidateOwner w.base).fieldOwned = s.fieldOwned :=
    ⟨s.invalidateOwners_writes {w.base} .pointsTo (by decide),
      s.invalidateOwners_writes {w.base} .fieldOwned (by decide)⟩
  have hrest : ∀ t, Writes (.activeVariant :: Field.contents)
      (storeObjects ⟨w.base, w.path.projection⟩ w.rvalue t)
      (assignProjected tcx body ⟨w.base, w.path.projection⟩ w.rvalue t) := fun t =>
    ((setUnionField_writes _ tcx body _).mono (by decide)).trans
      ((writeMaybeUninitField_writes _ body _).mono (by decide))
  have hstore : (applyStatement tcx body w.statement s).pointsTo =
        (storeObjects ⟨w.base, w.path.projection⟩ w.rvalue (s.invalidateOwner w.base)).pointsTo ∧
      (applyStatement tcx body w.statement s).fieldOwned =
        (storeObjects ⟨w.base, w.path.projection⟩ w.rvalue (s.invalidateOwner w.base)).fieldOwned := by
    rw [applyStatement_path tcx body rfl]
    exact ⟨hrest _ .pointsTo (by decide), hrest _ .fieldOwned (by decide)⟩
  rw [hstore.1, hstore.2]
  unfold storeObjects
  refine ⟨fun hnone => ?_, fun src hsrc => ?_⟩
  · rw [hnone]
    exact howner.symm
  · rw [hsrc]
    dsimp only
    rw [if_neg fun h => hbase h.1, w.path.lastSimpleFieldIdx_projection]
    dsimp only [storeField]
    rw [howner.1, howner.2]
    exact ⟨rfl, rfl⟩

/-- An assignment keeps the objects of all locals until its rvalue is looked at, and drops what
is kept for the fields of its destination. -/
theorem startAssign_pointsTo (rvalue : Rvalue) :
    (startAssign body d rvalue s).pointsTo = s.pointsTo :=
  startAssign_writes s body d rvalue .pointsTo (by decide)

theorem get_fieldOwned_startAssign (rvalue : Rvalue) (key : Local × FieldIdx) :
    (startAssign body d rvalue s).fieldOwned.get key =
      if key.1 = d then none else s.fieldOwned.get key := by
  have hbase : (startAssign body d rvalue s).fieldOwned =
      (redefine body d rvalue (s.invalidateOwner d)).fieldOwned :=
    recordRefBase_writes _ d rvalue .fieldOwned (by decide)
  have hclear : ∀ t : BlockState, (t.clearAssigned d).fieldOwned =
      t.fieldOwned.retain fun key _ => key.1 ≠ d := fun t => rfl
  have hold : ((updateFnPtrTarget d rvalue (updateOwnerAlias body d rvalue
      (s.invalidateOwner d))).clearRedefined d).fieldOwned = s.fieldOwned :=
    ((s.invalidateOwners_writes {d} .fieldOwned (by decide)).trans
      (lookup_writes _ body d rvalue .fieldOwned (by decide))).trans
      (BlockState.clearRedefined_writes _ d .fieldOwned (by decide))
  rw [hbase, redefine, hclear, hold, FMap.get_retain]
  by_cases hkey : key.1 = d
  · simp [hkey]
  · simp [hkey]

/-- **A load** gives the objects of the base, or else what is kept under the last field; a load
into the base itself finds nothing kept. -/
theorem pointsTo_of_load {stmt : Statement}
    (hstmt : stmt.kind = .assign (Place.ofLocal d) (.use (.copy ⟨base, path.projection⟩))) :
    (applyStatement tcx body stmt s).pointsTo.get d =
      (s.pointsTo.get base).or
        (if base = d then none else s.fieldOwned.get (base, path.last.1)) := by
  have hassign : ∀ u, assignRvalue tcx body d (.use (.copy ⟨base, path.projection⟩))
      (recordLenOf d (.use (.copy ⟨base, path.projection⟩))
        (propagateRvalue d (.use (.copy ⟨base, path.projection⟩)) u)) =
      assignFieldRead ⟨base, path.projection⟩ d u := by
    intro u
    have hderef : derefsOnlyFirst path.projection = true := by
      rw [derefsOnlyFirst, path.any_isDeref_tail]
      rfl
    simp only [assignRvalue, recordLenOf, propagateRvalue, path.isLocal_place, hderef,
      Bool.false_eq_true, if_false, if_true]
  have hread : ∀ u, (assignFieldRead ⟨base, path.projection⟩ d u).pointsTo.get d =
      (u.pointsTo.get base).or (u.fieldOwned.get (base, path.last.1)) := by
    intro u
    have hclear : ∀ o, ((((u.setObjects d o).dropProto d).clearScalarFacts d).onMaySets
        [.mulOverflow] (copySet base d)).pointsTo = u.pointsTo.put d o := fun o => rfl
    have hread : (assignFieldRead ⟨base, path.projection⟩ d u).pointsTo =
        u.pointsTo.put d ((u.pointsTo.get base).or
          ((lastSimpleFieldIdx path.projection).bind fun f => u.fieldOwned.get (base, f))) :=
      hclear _
    rw [hread, path.lastSimpleFieldIdx_projection, FMap.get_put, if_pos rfl]
    rfl
  have htype : ∀ u, (enforceTypeFacts tcx d (body.localTy d) u).pointsTo = u.pointsTo := fun u =>
    enforceTypeFacts_writes u tcx d _ .pointsTo (by decide)
  have hstages : (applyStatement tcx body stmt s).pointsTo.get d =
      (assignFieldRead ⟨base, path.projection⟩ d
        (startAssign body d (.use (.copy ⟨base, path.projection⟩)) s)).pointsTo.get d := by
    rw [applyStatement_assign tcx body hstmt, assignLocal_eq, htype, hassign]
    rfl
  rw [hstages, hread, startAssign_pointsTo, get_fieldOwned_startAssign]

/-- One store leaves other keys alone, and tracks no local that was not tracked. -/
theorem FieldWrite.store_frame (w : FieldWrite) (hbase : w.base ≠ Local.returnPlace) (tcx : TyCtxt)
    (body : Body) (s : BlockState) :
    (∀ l, s.pointsTo.get l = none → (applyStatement tcx body w.statement s).pointsTo.get l = none) ∧
    ∀ key, key ≠ (w.base, w.path.last.1) →
      (applyStatement tcx body w.statement s).fieldOwned.get key = s.fieldOwned.get key := by
  obtain ⟨hnone, hsome⟩ := w.store hbase tcx body s
  cases hsrc : rvalueLocal w.rvalue with
  | none =>
    obtain ⟨hfield, hpoints⟩ := hnone hsrc
    rw [hfield, hpoints]
    exact ⟨fun _ h => h, fun _ _ => rfl⟩
  | some src =>
    obtain ⟨hfield, hpoints⟩ := hsome src hsrc
    rw [hfield, hpoints]
    refine ⟨fun l hl => ?_, fun key hkey => ?_⟩
    · rw [FMap.get_erase, hl, ite_self]
    · rw [FMap.get_put, if_neg hkey]

/-- **A run of stores** keeps what is kept under a key that none of them uses. -/
theorem fieldOwned_of_writes (tcx : TyCtxt) (body : Body) (hbase : base ≠ Local.returnPlace)
    {k : FieldIdx} (ws : List FieldWrite) (hws : ∀ w ∈ ws, w.base = base ∧ w.path.last.1 ≠ k) :
    ∀ s : BlockState, s.pointsTo.get base = none →
      (applyStatements tcx body (ws.map FieldWrite.statement) s).pointsTo.get base = none ∧
      (applyStatements tcx body (ws.map FieldWrite.statement) s).fieldOwned.get (base, k) =
        s.fieldOwned.get (base, k) := by
  induction ws with
  | nil => exact fun s h => ⟨h, rfl⟩
  | cons w ws ih =>
    intro s h
    obtain ⟨hw, hlast⟩ := hws w List.mem_cons_self
    obtain ⟨hpoints, hkept⟩ := w.store_frame (hw ▸ hbase) tcx body s
    obtain ⟨hpoints', hkept'⟩ := ih (fun w' hw' => hws w' (List.mem_cons_of_mem _ hw'))
      (applyStatement tcx body w.statement s) (hpoints base h)
    refine ⟨hpoints', hkept'.trans (hkept (base, k) ?_)⟩
    exact fun heq => hlast (congrArg Prod.snd heq).symm

end Stores

/-- The assignment of a whole local to a field. -/
def FieldWrite.move (base : Local) (path : FieldPath) (q : Local) : FieldWrite :=
  ⟨base, path, .use (.move (Place.ofLocal q)), .none⟩

/-- `d = copy base.path`. -/
def loadField (d base : Local) (path : FieldPath) : Statement :=
  ⟨.assign (Place.ofLocal d) (.use (.copy ⟨base, path.projection⟩)), .none⟩

/-- What is moved into a field of `base` in the state `s` is found there by a load into `d`, after
any stores to disjoint paths, and is not found in a disjoint path that nothing is kept for. -/
def RoundTrip (tcx : TyCtxt) (body : Body) (base d : Local) (paths : Set FieldPath)
    (s : BlockState) : Prop :=
  ∀ (p : FieldPath) (q : Local) (objs : Finset ObjectId) (ws : List FieldWrite), p ∈ paths →
    s.pointsTo.get q = some objs → objs ≠ ∅ →
    (∀ w ∈ ws, w.base = base ∧ w.path ∈ paths ∧ w.path.Disjoint p) →
    (∃ found, (applyStatement tcx body (loadField d base p) (applyStatements tcx body
      ((FieldWrite.move base p q :: ws).map FieldWrite.statement) s)).pointsTo.get d = some found ∧
      objs ⊆ found) ∧
    ∀ p' ∈ paths, p'.Disjoint p → (∀ w ∈ ws, w.path.Disjoint p') →
      s.fieldOwned.get (base, p'.last.1) = none →
      ∀ found, (applyStatement tcx body (loadField d base p') (applyStatements tcx body
        ((FieldWrite.move base p q :: ws).map FieldWrite.statement) s)).pointsTo.get d =
          some found → Disjoint found objs

section RoundTrip
variable (tcx : TyCtxt) (body : Body) {s : BlockState} {base d q : Local} {p p' : FieldPath}
  {objs : Finset ObjectId} {paths : Set FieldPath}

/-- A move into a field. -/
theorem move_store (hbase : base ≠ Local.returnPlace) (p : FieldPath) (q : Local) (s : BlockState) :
    (applyStatement tcx body (FieldWrite.move base p q).statement s).fieldOwned =
      s.fieldOwned.put (base, p.last.1) (nonempty (s.pointsTo.get q)) ∧
    (applyStatement tcx body (FieldWrite.move base p q).statement s).pointsTo =
      s.pointsTo.erase q :=
  ((FieldWrite.move base p q).store hbase tcx body s).2 q rfl

theorem nonempty_some (h : objs ≠ ∅) : nonempty (some objs) = some objs := by
  simp [nonempty, Option.filter_some, h]

/-- **The good case.**  Nothing shadows what is stored, and no two disjoint paths share a key. -/
theorem RoundTrip.of_distinct (hbase : base ≠ Local.returnPlace)
    (hs : s.pointsTo.get base = none) (hd : base ≠ d)
    (hlast : ∀ p ∈ paths, ∀ p' ∈ paths, p'.Disjoint p → p'.last.1 ≠ p.last.1) :
    RoundTrip tcx body base d paths s := by
  intro p q objs ws hp hq hobjs hws
  obtain ⟨hfield, hpoints⟩ := move_store tcx body hbase p q s
  rw [hq, nonempty_some hobjs] at hfield
  have huntracked : (applyStatement tcx body (FieldWrite.move base p q).statement s).pointsTo.get
      base = none := by
    rw [hpoints, FMap.get_erase, hs, ite_self]
  have hload : ∀ p' : FieldPath, (∀ w ∈ ws, w.path.last.1 ≠ p'.last.1) →
      (applyStatement tcx body (loadField d base p') (applyStatements tcx body
        ((FieldWrite.move base p q :: ws).map FieldWrite.statement) s)).pointsTo.get d =
      (s.fieldOwned.put (base, p.last.1) (some objs)).get (base, p'.last.1) := by
    intro p' hne
    obtain ⟨hnone, hkept⟩ := fieldOwned_of_writes tcx body hbase ws
      (fun w hw => ⟨(hws w hw).1, hne w hw⟩) _ huntracked
    rw [← hfield, ← hkept, List.map_cons, applyStatements_cons, pointsTo_of_load rfl, if_neg hd,
      hnone, Option.none_or]
  refine ⟨⟨objs, ?_, Finset.Subset.refl _⟩, fun p' hp' hdisj hws' hkept found hfound => ?_⟩
  · rw [hload p fun w hw => hlast p hp w.path (hws w hw).2.1 (hws w hw).2.2, FMap.get_put, if_pos rfl]
  · rw [hload p' fun w hw => hlast p' hp' w.path (hws w hw).2.1 (hws' w hw), FMap.get_put,
      if_neg fun heq => hlast p hp p' hp' hdisj (congrArg Prod.snd heq), hkept] at hfound
    cases hfound

/-- The round trip without further stores. -/
theorem RoundTrip.single {tcx : TyCtxt} {body : Body} (h : RoundTrip tcx body base d paths s)
    (hp : p ∈ paths) (hq : s.pointsTo.get q = some objs) (hobjs : objs ≠ ∅) :
    (∃ found, (applyStatement tcx body (loadField d base p) (applyStatement tcx body
      (FieldWrite.move base p q).statement s)).pointsTo.get d = some found ∧ objs ⊆ found) ∧
    ∀ p' ∈ paths, p'.Disjoint p → s.fieldOwned.get (base, p'.last.1) = none →
      ∀ found, (applyStatement tcx body (loadField d base p') (applyStatement tcx body
        (FieldWrite.move base p q).statement s)).pointsTo.get d = some found →
        Disjoint found objs := by
  have htrip := h p q objs [] hp hq hobjs (List.forall_mem_nil _)
  rw [List.map_singleton, applyStatements_singleton] at htrip
  obtain ⟨hfirst, hsecond⟩ := htrip
  refine ⟨hfirst, fun p' hp' hdisj hkept => ?_⟩
  exact hsecond p' hp' hdisj (List.forall_mem_nil _) hkept

/-- **Two paths with one key.**  A second store through the emptied source drops what the first
one kept. -/
theorem RoundTrip.last_ne {tcx : TyCtxt} {body : Body} (h : RoundTrip tcx body base d paths s)
    (hbase : base ≠ Local.returnPlace) (hs : s.pointsTo.get base = none)
    (hq : s.pointsTo.get q = some objs) (hobjs : objs ≠ ∅) (hp : p ∈ paths) (hp' : p' ∈ paths)
    (hdisj : p'.Disjoint p) : p'.last.1 ≠ p.last.1 := by
  intro hsame
  have hws : ∀ w ∈ [FieldWrite.move base p' q],
      w.base = base ∧ w.path ∈ paths ∧ w.path.Disjoint p := by
    intro w hw
    cases List.mem_singleton.mp hw
    exact ⟨rfl, hp', hdisj⟩
  obtain ⟨found, hget, _⟩ := (h p q objs _ hp hq hobjs hws).1
  obtain ⟨_, hpoints⟩ := move_store tcx body hbase p q s
  obtain ⟨hfield', hpoints'⟩ := move_store tcx body hbase p' q
    (applyStatement tcx body (FieldWrite.move base p q).statement s)
  have hempty : ((s.pointsTo.erase q).get q) = none := by rw [FMap.get_erase, if_pos rfl]
  have hbaseNone : ((s.pointsTo.erase q).erase q).get base = none := by
    rw [FMap.get_erase, FMap.get_erase, hs, ite_self, ite_self]
  have hlost : (applyStatement tcx body (loadField d base p) (applyStatement tcx body
      (FieldWrite.move base p' q).statement (applyStatement tcx body
        (FieldWrite.move base p q).statement s))).pointsTo.get d = none := by
    refine (pointsTo_of_load rfl).trans ?_
    rw [hfield', hpoints', hpoints, hbaseNone, hempty, hsame, FMap.get_put, if_pos rfl]
    exact Option.none_or.trans (ite_self _)
  rw [List.map_cons, List.map_singleton, applyStatements_cons, applyStatements_singleton,
    hlost] at hget
  cases hget

/-- A load right after a move. -/
theorem load_after_move (hbase : base ≠ Local.returnPlace) (hq : s.pointsTo.get q = some objs)
    (hobjs : objs ≠ ∅) (hne : base ≠ q) :
    (applyStatement tcx body (loadField d base p') (applyStatement tcx body
      (FieldWrite.move base p q).statement s)).pointsTo.get d =
    (s.pointsTo.get base).or (if base = d then none else
      if p'.last.1 = p.last.1 then some objs else s.fieldOwned.get (base, p'.last.1)) := by
  obtain ⟨hfield, hpoints⟩ := move_store tcx body hbase p q s
  refine (pointsTo_of_load rfl).trans ?_
  rw [hfield, hpoints, hq, nonempty_some hobjs, FMap.get_put, FMap.get_erase, if_neg hne]
  simp only [Prod.mk.injEq, true_and]

end RoundTrip

/-- **When stores and loads of fields agree.**  Among the paths of a local, some of which are
disjoint, stores and loads make a round trip in all states in which the local points to `tracked`
exactly if it is not tracked itself, the load goes to another local, and disjoint paths have
different last fields. -/
theorem field_round_trip_iff (tcx : TyCtxt) (body : Body) (base d : Local)
    (tracked : Option (Finset ObjectId)) (paths : Set FieldPath)
    (hbase : base ≠ Local.returnPlace) (htwo : ∃ p ∈ paths, ∃ p' ∈ paths, p'.Disjoint p) :
    (∀ s : BlockState, s.pointsTo.get base = tracked → RoundTrip tcx body base d paths s) ↔
      tracked = none ∧ base ≠ d ∧
        ∀ p ∈ paths, ∀ p' ∈ paths, p'.Disjoint p → p'.last.1 ≠ p.last.1 := by
  constructor
  · intro h
    -- the return place holds the objects that are moved
    let holding (objs : Finset ObjectId) : BlockState :=
      { BlockState.default with
        pointsTo := (FMap.put ∅ base tracked).insert Local.returnPlace objs }
    have hholds : ∀ objs, (holding objs).pointsTo.get Local.returnPlace = some objs :=
      fun objs => FMap.get_insert_self _ _ _
    have htracked : ∀ objs, (holding objs).pointsTo.get base = tracked := fun objs => by
      rw [FMap.get_insert_of_ne _ _ hbase, FMap.get_put, if_pos rfl]
    have hload : ∀ objs : Finset ObjectId, objs ≠ ∅ → ∀ p p' : FieldPath,
        (applyStatement tcx body (loadField d base p') (applyStatement tcx body
          (FieldWrite.move base p Local.returnPlace).statement (holding objs))).pointsTo.get d =
        tracked.or (if base = d then none else if p'.last.1 = p.last.1 then some objs else none) :=
      fun objs hobjs p p' =>
        htracked objs ▸ load_after_move tcx body hbase (hholds objs) hobjs hbase
    have huntracked : tracked = none := by
      obtain ⟨p, hp, p', hp', hdisj⟩ := htwo
      refine Option.eq_none_iff_forall_ne_some.mpr fun shadow hshadow => ?_
      have hfound : ∀ o p', (applyStatement tcx body (loadField d base p') (applyStatement tcx body
          (FieldWrite.move base p Local.returnPlace).statement (holding {o}))).pointsTo.get d =
          some shadow := fun o p' => by
        rw [hload _ (Finset.singleton_ne_empty o), hshadow, Option.some_or]
      have htrip := (h (holding {⟨0⟩}) (htracked _)).single hp (hholds _)
        (Finset.singleton_ne_empty (⟨0⟩ : ObjectId))
      -- a load of the stored path misses what was stored, or one of the other path finds it
      obtain ⟨found, hget, hsub⟩ := htrip.1
      rw [hfound ⟨0⟩ p, Option.some.injEq] at hget
      subst hget
      exact Finset.disjoint_left.mp (htrip.2 p' hp' hdisj rfl shadow (hfound ⟨0⟩ p'))
        (hsub (Finset.mem_singleton_self _)) (Finset.mem_singleton_self _)
    have hone : ({⟨0⟩} : Finset ObjectId) ≠ ∅ := Finset.singleton_ne_empty _
    refine ⟨huntracked, fun hd => ?_, fun p hp p' hp' hdisj => ?_⟩
    · obtain ⟨p, hp, _⟩ := htwo
      obtain ⟨found, hget, _⟩ := ((h (holding {⟨0⟩}) (htracked _)).single hp (hholds _) hone).1
      rw [hload _ hone, huntracked, if_pos hd] at hget
      cases hget
    · exact (h (holding {⟨0⟩}) (htracked _)).last_ne hbase ((htracked _).trans huntracked)
        (hholds _) hone hp hp' hdisj
  · rintro ⟨rfl, hd, hlast⟩ s hs
    exact .of_distinct tcx body hbase hs hd hlast

/-- A function with a struct in `_1` and pointers in `_2` and `_3`. -/
def storesPointers : Body :=
  .ofBlocks 1 3 [.other, .adt pairAdt, .rawPtr .other .mut, .rawPtr .other .mut] 0
    (fun _ => [.of [] .return]) (by decide)

/-- `_2` points to one object. -/
def onePointer : BlockState :=
  { BlockState.default with pointsTo := FMap.insert ∅ (Local.ofNat 2) {⟨7⟩} }

/-- A field of a struct. -/
def fieldAt (outer : List FieldIdx) (i : FieldIdx) : FieldPath :=
  ⟨false, outer.map fun f => (f, .other), i, .other⟩

/-- What is moved into the first field of a struct is loaded from there. -/
theorem first_field_round_trip :
    ∃ found, (applyStatement (.ofPaths []) storesPointers
      (loadField (Local.ofNat 3) (Local.ofNat 1) (fieldAt [] 0))
      (applyStatements (.ofPaths []) storesPointers
        ([FieldWrite.move (Local.ofNat 1) (fieldAt [] 0) (Local.ofNat 2)].map FieldWrite.statement)
        onePointer)).pointsTo.get (Local.ofNat 3) = some found ∧ {⟨7⟩} ⊆ found := by
  have hdisj : (fieldAt [] 1).Disjoint (fieldAt [] 0) := by unfold FieldPath.Disjoint; decide
  have hkeys : ∀ p ∈ ({fieldAt [] 0, fieldAt [] 1} : Set FieldPath),
      ∀ p' ∈ ({fieldAt [] 0, fieldAt [] 1} : Set FieldPath), p'.Disjoint p →
        p'.last.1 ≠ p.last.1 := by
    rintro p (rfl | rfl) p' (rfl | rfl) h
    · exact absurd (List.prefix_refl _) h.1
    · decide
    · decide
    · exact absurd (List.prefix_refl _) h.1
  exact ((field_round_trip_iff (.ofPaths []) storesPointers (Local.ofNat 1) (Local.ofNat 3) none
    {fieldAt [] 0, fieldAt [] 1} (by decide)
    ⟨fieldAt [] 0, Or.inl rfl, fieldAt [] 1, Or.inr rfl, hdisj⟩).mpr ⟨rfl, by decide, hkeys⟩
    onePointer rfl (fieldAt [] 0) (Local.ofNat 2) {⟨7⟩} [] (Or.inl rfl) (by decide +kernel)
    (by decide) (List.forall_mem_nil _)).1

/-- What is moved into the first field of one part is lost when the first field of another part is
written, and shadowed by what the struct itself points to. -/
theorem nested_field_lost :
    (applyStatement (.ofPaths []) storesPointers
      (loadField (Local.ofNat 3) (Local.ofNat 1) (fieldAt [0] 0))
      (applyStatements (.ofPaths []) storesPointers
        ([FieldWrite.move (Local.ofNat 1) (fieldAt [0] 0) (Local.ofNat 2),
          FieldWrite.move (Local.ofNat 1) (fieldAt [1] 0) (Local.ofNat 2)].map
            FieldWrite.statement) onePointer)).pointsTo.get (Local.ofNat 3) = none ∧
    (applyStatement (.ofPaths []) storesPointers
      (loadField (Local.ofNat 3) (Local.ofNat 1) (fieldAt [] 0))
      (applyStatements (.ofPaths []) storesPointers
        ([FieldWrite.move (Local.ofNat 1) (fieldAt [] 0) (Local.ofNat 2)].map FieldWrite.statement)
        (onePointer.setObjects (Local.ofNat 1) (some {⟨5⟩})))).pointsTo.get (Local.ofNat 3) =
      some {⟨5⟩} :=
  ⟨by decide +kernel, by decide +kernel⟩

end San
