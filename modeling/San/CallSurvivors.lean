import San.CallResult

/-! # What survives a call

A call result should carry no fact of the value it overwrites.  `callKeeps` lists the
fields in which an entry of the destination reaches the state after the call, and two
states that agree on them are mapped to the same state.  Here every field of the list is
shown to be needed: a state that knows nothing but the targets of function pointers is
told apart, after the call, from the same state with one entry of the destination.
-/
namespace San

/-! ## A state with one entry -/

/-- The state that knows the targets of function pointers and nothing else. -/
def BlockState.plain (m : FMap Local DefId) : BlockState :=
  { BlockState.default with fnPtrTargets := m }

/-- The local has an entry in the field; of its protocol instances, only `p` counts. -/
def Field.Has (p : ProtocolId) (l : Local) (s : BlockState) : Field → Prop
  | .pointsTo => s.pointsTo.get l ≠ none
  | .localProto => p ∈ protosOf s l
  | .init => s.init.get l ≠ none
  | .fact k => (s.facts k).get l ≠ none
  | .pairFact k => (s.pairFacts k).get l ≠ none
  | .constFact k => (s.constFacts k).get l ≠ none
  | .mustSet k => l ∈ s.mustSets k
  | .mustPairs k => (l, l) ∈ s.mustPairs k
  | .maySet k => l ∈ s.maySets k
  | .fnPtrTargets => s.fnPtrTargets.get l ≠ none
  | .constUpper => s.constUpper.get l ≠ none
  | .constLower => s.constLower.get l ≠ none
  | .arrayComponents => s.arrayComponents.get l ≠ none
  | .fieldOwned => s.fieldOwned.get (l, 0) ≠ none
  | .muRawPtr => s.muRawPtr.get l ≠ none
  | .muFieldInits => s.muFieldInits.get l ≠ none
  | .activeVariant => s.activeVariant.get l ≠ none
  | .heap | .typestate | .untrackedForgetSeen | .threadSpawned | .ownerAlias => False

/-- The state with an entry of the local in the field. -/
def BlockState.mark (p : ProtocolId) (l : Local) (s : BlockState) : Field → BlockState
  | .pointsTo => s.setObjects l (some ∅)
  | .localProto => { s with localProto := s.localProto.insert l {p} }
  | .init => s.insertInit l
  | .fact k => s.insertFact k l l
  | .pairFact k => s.onPairFacts [k] (·.insert l (l, l))
  | .constFact k => s.onConstFacts [k] (·.insert l (l, 0))
  | .mustSet k => s.insertMust k l
  | .mustPairs k => s.onMustPairs [k] (insert (l, l))
  | .maySet k => s.insertMay k l
  | .fnPtrTargets => { s with fnPtrTargets := s.fnPtrTargets.insert l ⟨0, 0⟩ }
  | .constUpper => { s with constUpper := s.constUpper.insert l 0 }
  | .constLower => { s with constLower := s.constLower.insert l 0 }
  | .arrayComponents => { s with arrayComponents := s.arrayComponents.insert l [] }
  | .fieldOwned => { s with fieldOwned := s.fieldOwned.insert (l, 0) ∅ }
  | .muRawPtr => setMuPtr l l s
  | .muFieldInits => { s with muFieldInits := s.muFieldInits.insert l ∅ }
  | .activeVariant => s.setActiveVariant l 0
  | .heap | .typestate | .untrackedForgetSeen | .threadSpawned | .ownerAlias => s

section Mark
variable (p : ProtocolId) (l : Local) (s : BlockState)

theorem mark_writes (f : Field) : Writes [f] s (s.mark p l f) := by
  cases f with
  | pointsTo => exact s.setObjects_writes l _
  | init => exact s.insertInit_writes l
  | fact k => exact s.insertFact_writes k l l
  | pairFact k => exact s.onPairFacts_writes [k] _
  | constFact k => exact s.onConstFacts_writes [k] _
  | mustSet k => exact s.insertMust_writes k l
  | mustPairs k => exact s.onMustPairs_writes [k] _
  | maySet k => exact s.insertMay_writes k l
  | muRawPtr => exact setMuPtr_writes s l l
  | activeVariant => exact s.setActiveVariant_writes l 0
  | _ =>
    intro field hf
    cases field <;> first | rfl | exact absurd (by decide) hf

/-- The entry is the only difference. -/
theorem differAt_mark (f : Field) : DifferAt l [f] s (s.mark p l f) := by
  refine ⟨fun g => ?_, mark_writes p l s f⟩
  by_cases hg : g ∈ [f]
  · rw [List.mem_singleton.mp hg]
    have hmap : ∀ {V : Type} (m : FMap Local V) (v : V), (m.insert l v).erase l = m.erase l :=
      fun m v => FMap.erase_eq_of_get_eq fun x hx => FMap.get_insert_of_ne m v hx
    cases f with
    | pointsTo => exact hmap _ _
    | localProto => exact hmap _ _
    | init => exact hmap _ _
    | fact k =>
        show (if k ∈ [k] then _ else _ : FMap Local Local).erase l = _
        rw [if_pos List.mem_cons_self]
        exact hmap _ _
    | pairFact k =>
        show (if k ∈ [k] then _ else _ : FMap Local (Local × Local)).erase l = _
        rw [if_pos List.mem_cons_self]
        exact hmap _ _
    | constFact k =>
        show (if k ∈ [k] then _ else _ : FMap Local (Local × U64)).erase l = _
        rw [if_pos List.mem_cons_self]
        exact hmap _ _
    | mustSet k =>
        show (if k ∈ [k] then _ else _ : Finset Local).erase l = _
        rw [if_pos List.mem_cons_self]
        exact Finset.erase_insert_eq_erase _ _
    | mustPairs k =>
        show (if k ∈ [k] then _ else _ : Finset (Local × Local)).filter _ = _
        rw [if_pos List.mem_cons_self, Finset.filter_insert, if_neg fun h => h.1 rfl]
        rfl
    | maySet k =>
        show (if k ∈ [k] then _ else _ : Finset Local).erase l = _
        rw [if_pos List.mem_cons_self]
        exact Finset.erase_insert_eq_erase _ _
    | fnPtrTargets => exact hmap _ _
    | constUpper => exact hmap _ _
    | constLower => exact hmap _ _
    | arrayComponents => exact hmap _ _
    | fieldOwned =>
        refine FMap.ext fun key => ?_
        show ((s.fieldOwned.insert (l, 0) ∅).retain _).get key = (s.fieldOwned.retain _).get key
        rw [FMap.get_retain, FMap.get_retain]
        by_cases hkey : key = (l, 0)
        · subst hkey
          cases s.fieldOwned.get (l, 0) <;> simp
        · rw [FMap.get_insert_of_ne _ _ hkey]
    | muRawPtr => exact hmap _ _
    | muFieldInits => exact hmap _ _
    | activeVariant => exact hmap _ _
    | _ => rfl
  · exact (mark_writes p l s f g hg).off l

theorem differAt_setOwners (o : Option (Finset Local)) :
    DifferAt l [.ownerAlias] s (s.setOwners l o) := by
  refine ⟨fun g => ?_, s.setOwners_writes l o⟩
  by_cases hg : g ∈ [Field.ownerAlias]
  · rw [List.mem_singleton.mp hg]
    exact FMap.erase_eq_of_get_eq fun x hx => (s.ownerAlias.get_put l x o).trans (if_neg hx)
  · exact (s.setOwners_writes l o g hg).off l

theorem has_mark {f : Field} (hf : f ∈ Field.perLocal) (howners : f ≠ .ownerAlias) :
    f.Has p l (s.mark p l f) := by
  have hmap : ∀ {K V : Type} [DecidableEq K] (m : FMap K V) (k : K) (v : V),
      (m.insert k v).get k ≠ none := fun m k v => by simp
  cases f with
  | heap => exact absurd hf (by decide)
  | typestate => exact absurd hf (by decide)
  | untrackedForgetSeen => exact absurd hf (by decide)
  | threadSpawned => exact absurd hf (by decide)
  | ownerAlias => exact absurd rfl howners
  | localProto =>
      show p ∈ ((s.localProto.insert l {p}).get l).getD ∅
      simp
  | fact k =>
      show (if k ∈ [k] then _ else _ : FMap Local Local).get l ≠ none
      rw [if_pos List.mem_cons_self]
      exact hmap _ _ _
  | pairFact k =>
      show (if k ∈ [k] then _ else _ : FMap Local (Local × Local)).get l ≠ none
      rw [if_pos List.mem_cons_self]
      exact hmap _ _ _
  | constFact k =>
      show (if k ∈ [k] then _ else _ : FMap Local (Local × U64)).get l ≠ none
      rw [if_pos List.mem_cons_self]
      exact hmap _ _ _
  | mustSet k =>
      show l ∈ (if k ∈ [k] then _ else _ : Finset Local)
      rw [if_pos List.mem_cons_self]
      exact Finset.mem_insert_self l _
  | mustPairs k =>
      show (l, l) ∈ (if k ∈ [k] then _ else _ : Finset (Local × Local))
      rw [if_pos List.mem_cons_self]
      exact Finset.mem_insert_self _ _
  | maySet k =>
      show l ∈ (if k ∈ [k] then _ else _ : Finset Local)
      rw [if_pos List.mem_cons_self]
      exact Finset.mem_insert_self l _
  | _ => exact hmap _ _ _

theorem not_has_plain {m : FMap Local DefId} (hm : m.get l = none) (f : Field) :
    ¬ f.Has p l (BlockState.plain m) := by
  cases f with
  | fnPtrTargets => exact fun h => h hm
  | localProto => exact Finset.notMem_empty p
  | mustSet k => exact Finset.notMem_empty l
  | mustPairs k => exact Finset.notMem_empty (l, l)
  | maySet k => exact Finset.notMem_empty l
  | heap => exact id
  | typestate => exact id
  | untrackedForgetSeen => exact id
  | threadSpawned => exact id
  | ownerAlias => exact id
  | _ => exact fun h => h rfl

variable {s} in
theorem Field.Same.has_iff {t : BlockState} {f : Field} (h : f.Same s t) :
    f.Has p l t ↔ f.Has p l s := by
  cases f with
  | localProto => exact iff_of_eq (congrArg (fun m : FMap Local (Finset ProtocolId) =>
      p ∈ (m.get l).getD ∅) h)
  | mustSet k => exact iff_of_eq (congrArg (l ∈ ·) h)
  | mustPairs k => exact iff_of_eq (congrArg ((l, l) ∈ ·) h)
  | maySet k => exact iff_of_eq (congrArg (l ∈ ·) h)
  | fieldOwned => exact iff_of_eq (congrArg (FMap.get · (l, 0) ≠ none) h)
  | heap => exact .rfl
  | typestate => exact .rfl
  | untrackedForgetSeen => exact .rfl
  | threadSpawned => exact .rfl
  | ownerAlias => exact .rfl
  | _ => exact iff_of_eq (congrArg (FMap.get · l ≠ none) h)

end Mark

/-! ## What is done to the arguments -/

/-- No local but `dest` points to an object. -/
def Untracked (dest : Local) (s : BlockState) : Prop := ∀ x, x ≠ dest → s.pointsTo.get x = none

/-- From `s` to `t` the heap and the entries of `dest` were left alone. -/
structure Spares (dest : Local) (s t : BlockState) : Prop where
  untracked : Untracked dest t
  heap : t.heap = s.heap
  objects : t.pointsTo.get dest = s.pointsTo.get dest
  protos : t.localProto.get dest = s.localProto.get dest

theorem FMap.alter_empty {K V : Type} [DecidableEq K] (m : FMap K V) (f : Option V → Option V) :
    m.alter ∅ f = m :=
  FMap.ext fun k => (m.get_alter ∅ f k).trans (if_neg (Finset.notMem_empty k))

theorem FMap.assign_empty {K V : Type} [DecidableEq K] (m : FMap K V) (f : K → V) :
    m.assign ∅ f = m :=
  FMap.ext fun k => (m.get_assign ∅ f k).trans (if_neg (Finset.notMem_empty k))

namespace Spares
variable {dest x : Local} {s t u : BlockState}

theorem refl (h : Untracked dest s) : Spares dest s s := ⟨h, rfl, rfl, rfl⟩

theorem trans (h : Spares dest s t) (h' : Spares dest t u) : Spares dest s u :=
  ⟨h'.untracked, h'.heap.trans h.heap, h'.objects.trans h.objects, h'.protos.trans h.protos⟩

/-- An effect elsewhere. -/
theorem ofWrites {F : List Field} (h : Untracked dest s) (hw : Writes F s t)
    (hheap : .heap ∉ F) (hobjects : .pointsTo ∉ F) (hprotos : .localProto ∉ F) :
    Spares dest s t := by
  have hpoints : t.pointsTo = s.pointsTo := hw .pointsTo hobjects
  exact ⟨fun x hx => by rw [hpoints, h x hx], hw .heap hheap, by rw [hpoints],
    congrArg (FMap.get · dest) (hw .localProto hprotos)⟩

theorem objectsFor (h : Untracked dest s) (hx : x ≠ dest) : s.objectsFor x = ∅ := by
  unfold BlockState.objectsFor
  rw [h x hx]
  rfl

theorem eraseObjects (h : Untracked dest s) (x : Local) :
    ∀ y, y ≠ dest → (s.pointsTo.erase x).get y = none := fun y hy => by
  rw [FMap.get_erase, h y hy, ite_self]

theorem escapeLocal (h : Untracked dest s) (hx : x ≠ dest) : Spares dest s (s.escapeLocal x) := by
  refine ⟨eraseObjects h x, ?_, FMap.get_erase_of_ne _ hx.symm, FMap.get_erase_of_ne _ hx.symm⟩
  show s.heap.alter (s.objectsFor x) _ = s.heap
  rw [objectsFor h hx, FMap.alter_empty]

theorem reconstitute (h : Untracked dest s) (hx : x ≠ dest) :
    Spares dest s (s.reconstitute x) := by
  refine ⟨h, ?_, rfl, rfl⟩
  show s.heap.alter (s.objectsFor x) _ = s.heap
  rw [objectsFor h hx, FMap.alter_empty]

theorem dropProto (h : Untracked dest s) (hx : x ≠ dest) : Spares dest s (s.dropProto x) :=
  ⟨h, rfl, rfl, FMap.get_erase_of_ne _ hx.symm⟩

theorem releaseProtos (h : Untracked dest s) (hx : x ≠ dest) (st : ProtocolState) :
    Spares dest s (San.releaseProtos x st s) :=
  ⟨h, rfl, rfl, FMap.get_erase_of_ne _ hx.symm⟩

theorem reconstituteArg (h : Untracked dest s) {src : Option Local}
    (hsrc : ∀ x, src = some x → x ≠ dest) : Spares dest s (San.reconstituteArg src s) := by
  cases src with
  | none => exact refl h
  | some x => exact reconstitute h (hsrc x rfl)

theorem forgetArg (h : Untracked dest s) (hx : x ≠ dest) (tcx : TyCtxt) (body : Body) :
    Spares dest s (San.forgetArg tcx body x s) := by
  have hescape : Spares dest s (escapeForever x s) := by
    refine ⟨eraseObjects h x, ?_, FMap.get_erase_of_ne _ hx.symm, rfl⟩
    unfold escapeForever
    rw [objectsFor h hx, FMap.alter_empty]
  have hnote : ∀ b, Spares dest s (noteForget b (escapeForever x s)) := fun b => hescape.trans
    (ofWrites hescape.untracked (noteForget_writes _ b) (by decide) (by decide) (by decide))
  have hrelease := fun b => (hnote b).trans (releaseProtos (hnote b).untracked hx .forgotten)
  exact (hrelease _).trans
    (ofWrites (hrelease _).untracked (clearContents_writes _ x) (by decide) (by decide) (by decide))

variable {args : List Operand} (hargs : dest ∉ args.flatMap Operand.locals)
include hargs

theorem escapeRawPtrArgs (h : Untracked dest s) (body : Body) :
    Spares dest s (San.escapeRawPtrArgs body args s) := by
  unfold San.escapeRawPtrArgs
  induction args generalizing s with
  | nil => exact refl h
  | cons arg args ih =>
      have hfirst : Spares dest s (escapeRawPtrArg body s arg) := by
        unfold escapeRawPtrArg
        split
        · exact refl h
        · next l hl =>
            split
            · exact escapeLocal h (operandLocal_ne (fun hmem => hargs (by simp [hmem])) hl)
            · exact refl h
      exact hfirst.trans (ih (fun hmem => hargs (by simp [hmem])) hfirst.untracked)

theorem paramEffects (h : Untracked dest s) (effects : List (Nat × ParamHeapEffect)) :
    Spares dest s (effects.foldl (applyParamEffect args) s) := by
  induction effects generalizing s with
  | nil => exact refl h
  | cons e effects ih =>
      have hfirst : Spares dest s (applyParamEffect args s e) := by
        unfold applyParamEffect
        split
        · next arg harg _ =>
            have hne := DifferAt.nthArgLocal_ne hargs harg
            have hfree := reconstitute h hne
            exact hfree.trans (dropProto hfree.untracked hne)
        · next arg harg _ => exact escapeLocal h (DifferAt.nthArgLocal_ne hargs harg)
        · exact refl h
      exact hfirst.trans (ih hfirst.untracked)

end Spares

/-! ## Recognised calls -/

section Kind
variable {dest : Local} {s : BlockState} (h : Untracked dest s) {args : List Operand}
  (hargs : dest ∉ args.flatMap Operand.locals) (tcx : TyCtxt) (body : Body) (path : String)
  (bb : Nat)

theorem get_heap_mintRawOwned {o : ObjectId} (ho : o ≠ BlockState.callSiteObject bb) :
    (s.mintRawOwned dest bb).heap.get o = s.heap.get o := FMap.get_insert_of_ne _ _ ho

include h hargs

theorem applyFnSummary_heap (summary : FnSummary) {o : ObjectId}
    (ho : o ≠ BlockState.callSiteObject bb) :
    (applyFnSummary body args dest bb summary s).heap.get o = s.heap.get o := by
  have heffects := Spares.paramEffects hargs h summary.paramEffects
  have hresult : (if summary.returnsRawOwned then
      (summary.paramEffects.foldl (applyParamEffect args) s).mintRawOwned dest bb
    else ((summary.paramEffects.foldl (applyParamEffect args) s).setObjects dest none).dropProto
      dest).heap.get o = s.heap.get o := by
    rw [← heffects.heap]
    split
    · exact get_heap_mintRawOwned bb ho
    · rfl
  exact (congrArg (FMap.get · o) (returned_writes _ _ body dest _ .heap (by decide))).trans hresult

theorem applyFnSummary_protos {summary : FnSummary} (howned : summary.returnsRawOwned = true) :
    (applyFnSummary body args dest bb summary s).localProto.get dest = s.localProto.get dest := by
  have heffects := Spares.paramEffects hargs h summary.paramEffects
  unfold applyFnSummary
  dsimp only
  rw [if_pos howned]
  exact (congrArg (FMap.get · dest)
    (returned_writes _ _ body dest _ .localProto (by decide))).trans heffects.protos

/-- **A recognised call touches one object at most**, that of its call site, if its
arguments have none. -/
theorem applyCallKind_heap (kind : CallKind) {o : ObjectId}
    (ho : o ≠ BlockState.callSiteObject bb) :
    (applyCallKind tcx body path kind args dest bb s).heap.get o = s.heap.get o := by
  have hfirst : ∀ x, firstArgLocal args = some x → x ≠ dest :=
    fun x hx => DifferAt.nthArgLocal_ne hargs hx
  have hbase : ∀ x, firstArgBaseLocal args = some x → x ≠ dest :=
    fun x hx => DifferAt.firstArgBaseLocal_ne hargs hx
  have hclear : ∀ {t u : BlockState}, Writes [.pointsTo, .localProto, .ownerAlias, .init, .muRawPtr,
      .mustSet .bufWritten] t u → (u.clearScalarFacts dest).heap.get o = t.heap.get o :=
    fun {t u} hw => congrArg (FMap.get · o)
      ((hw .heap (by decide)).trans (clearScalarFacts_writes u dest .heap (by decide)))
  cases kind with
  | rawRealloc =>
      exact (hclear (.refl _ _)).trans <| (get_heap_mintRawOwned bb ho).trans <|
        congrArg (FMap.get · o) (Spares.reconstituteArg h hfirst).heap
  | intoRaw => exact (hclear (.refl _ _)).trans (get_heap_mintRawOwned bb ho)
  | fromRaw =>
      have hsrc : ∀ x, (firstArgLocal args).or (firstArgBaseLocal args) = some x → x ≠ dest :=
        fun x hx => (Option.or_eq_some_iff.mp hx).elim (hfirst x) fun hx => hbase x hx.2
      have hfree := Spares.reconstituteArg h hsrc
      refine (hclear ?_).trans (congrArg (FMap.get · o) hfree.heap)
      exact ((BlockState.setObjects_writes _ dest none).mono (by decide)).trans <|
        ((BlockState.dropProto_writes _ dest).mono (by decide)).trans <|
        (inheritOwners_writes _ _ dest).mono (by decide)
  | memForget =>
      refine (hclear (((BlockState.setObjects_writes _ dest none).mono (by decide)).trans
        ((BlockState.dropProto_writes _ dest).mono (by decide)))).trans ?_
      cases hx : firstArgBaseLocal args with
      | none => rfl
      | some x => exact congrArg (FMap.get · o) (Spares.forgetArg h (hbase x hx) tcx body).heap
  | summarised summary =>
      refine (hclear ?_).trans (applyFnSummary_heap h hargs body bb summary ho)
      split
      · exact .ite ((inheritObjects_writes _ _ _).mono (by decide)) (.refl _ _)
      · exact .refl _ _
  | unknown =>
      refine (hclear ((BlockState.dropProto_writes _ dest).mono (by decide))).trans
        (congrArg (FMap.get · o) ?_)
      have hwritten : ∀ l, (markOwnersWritten l s).heap = s.heap :=
        fun l => markOwnersWritten_writes s l .heap (by decide)
      split
      · exact inheritProvenance_writes s args dest .heap (by decide)
      · split
        · exact hwritten _
        · split
          · exact hwritten _
          · split
            · rfl
            · exact (Spares.escapeRawPtrArgs hargs h body).heap
  | _ =>
      exact congrArg (FMap.get · o)
        (applyCallKind_keepsHeap rfl tcx body path args dest bb s)

/-- **A call that keeps the objects of its destination** leaves them alone. -/
theorem applyCallKind_objects {kind : CallKind} (hkind : kind.keepsObjects = true) :
    (applyCallKind tcx body path kind args dest bb s).pointsTo.get dest = s.pointsTo.get dest := by
  have hclear : ∀ {t u : BlockState}, Writes [.localProto, .ownerAlias, .init, .muRawPtr, .typestate,
      .mustSet .bufWritten] t u → (u.clearScalarFacts dest).pointsTo = t.pointsTo :=
    fun {t u} hw => (hw .pointsTo (by decide)).trans
      (clearScalarFacts_writes u dest .pointsTo (by decide))
  cases kind with
  | guardAcquire =>
      exact congrArg (FMap.get · dest) (hclear ((acquireProto_writes s dest bb).mono (by decide)))
  | maybeUninitWrite =>
      exact congrArg (FMap.get · dest) (hclear (((initReceiver_writes s args).mono (by decide)).trans
        ((BlockState.dropProto_writes _ dest).mono (by decide))))
  | maybeUninitAsMutPtr =>
      exact congrArg (FMap.get · dest) (hclear (((pointIntoReceiver_writes s args dest).mono
        (by decide)).trans ((BlockState.dropProto_writes _ dest).mono (by decide))))
  | unknown =>
      refine (congrArg (FMap.get · dest) (hclear
        ((BlockState.dropProto_writes _ dest).mono (by decide)))).trans ?_
      have hwritten : ∀ l, (markOwnersWritten l s).pointsTo.get dest = s.pointsTo.get dest :=
        fun l => congrArg (FMap.get · dest) (markOwnersWritten_writes s l .pointsTo (by decide))
      split
      · -- an accessor of an argument without objects finds none to pass on
        unfold inheritProvenance
        cases hx : firstArgLocal args with
        | none => rfl
        | some arg0 =>
            have hnone := h arg0 (DifferAt.nthArgLocal_ne hargs hx)
            dsimp only
            split
            · unfold inheritObjects
              rw [show (s.setOwners dest _).pointsTo = s.pointsTo from rfl, hnone]
              rfl
            · unfold inheritObjects
              rw [hnone]
              rfl
      · split
        · exact hwritten _
        · split
          · exact hwritten _
          · split
            · rfl
            · exact (Spares.escapeRawPtrArgs hargs h body).objects
  | _ => cases hkind

/-- **A call that keeps the protocol instances of its destination** at most adds that of
its call site. -/
theorem applyCallKind_protos {kind : CallKind} (hkind : kind.keepsProtos = true) {p : ProtocolId}
    (hp : p ≠ callSiteProto bb) :
    p ∈ protosOf (applyCallKind tcx body path kind args dest bb s) dest ↔ p ∈ protosOf s dest := by
  have hprotos : ∀ {t u : BlockState}, t.localProto.get dest = u.localProto.get dest →
      (p ∈ protosOf t dest ↔ p ∈ protosOf u dest) := fun heq => by
    unfold protosOf
    rw [heq]
  have hclear : ∀ u : BlockState, p ∈ protosOf (u.clearScalarFacts dest) dest ↔ p ∈ protosOf u dest :=
    fun u => hprotos (congrArg (FMap.get · dest)
      (clearScalarFacts_writes u dest .localProto (by decide)))
  have hmint : ∀ u : BlockState, (u.mintRawOwned dest bb).localProto.get dest =
      u.localProto.get dest := fun _ => rfl
  cases kind with
  | rawRealloc =>
      have hfree := Spares.reconstituteArg h fun x hx =>
        DifferAt.nthArgLocal_ne (i := 0) hargs hx
      exact (hclear _).trans (hprotos ((hmint _).trans hfree.protos))
  | intoRaw => exact (hclear _).trans (hprotos (hmint s))
  | guardAcquire =>
      refine (hclear _).trans ?_
      show p ∈ ((s.localProto.insert dest _).get dest).getD ∅ ↔ _
      rw [FMap.get_insert_self, Option.getD_some, Finset.mem_insert, or_iff_right hp]
  | summarised summary =>
      have hsummary := applyFnSummary_protos h hargs body bb hkind
      refine (hclear _).trans (hprotos (Eq.trans (congrArg (FMap.get · dest) ?_) hsummary))
      split
      · split
        · exact inheritObjects_writes _ _ _ .localProto (by decide)
        · rfl
      · rfl
  | _ => cases hkind

omit h hargs in
/-- **Only one call points into a `MaybeUninit`.** -/
theorem applyCallKind_muRawPtr {kind : CallKind} (hkind : kind.setsMuPtr args = false) :
    (applyCallKind tcx body path kind args dest bb s).muRawPtr = s.muRawPtr := by
  by_cases hptr : kind = .maybeUninitAsMutPtr
  · subst hptr
    have hnone : firstArgLocal args = none := Option.isNone_iff_eq_none.mp
      (Option.isSome_eq_false_iff.mp hkind)
    have hsame : pointIntoReceiver args dest s = s := by
      unfold pointIntoReceiver
      rw [hnone]
    show (((pointIntoReceiver args dest s).dropProto dest).clearScalarFacts dest).muRawPtr = _
    rw [hsame]
    exact (BlockState.dropProto_writes s dest .muRawPtr (by decide)).trans
      (clearScalarFacts_writes _ dest .muRawPtr (by decide))
  · obtain ⟨t, ht, hrest⟩ := applyCallKind_moves s tcx body path hptr args dest bb
    exact (ht .muRawPtr (by decide)).trans <|
      (clearScalarFacts_writes t dest .muRawPtr (by decide)).trans (hrest .muRawPtr (by decide))

end Kind

theorem leaveCall_layout {p : ProtocolId} {dest : Local} {s : BlockState} {tcx : TyCtxt}
    {body : Body} {path : String} {args : List Operand} (hmul : s.maySets .mulOverflow = ∅) :
    (Field.maySet .layoutOverflow).Has p dest (leaveCall tcx body path args dest s) ↔
      (Field.maySet .layoutOverflow).Has p dest s := by
  have hnonzero : ∀ (t : BlockState) (c : Prop) [Decidable c],
      Writes [.mustSet .nonzero, .constUpper] t (if c then t.insertMust .nonzero dest else t) :=
    fun t c _ => .ite ((t.insertMust_writes _ _).mono (by decide)) (.refl _ t)
  have htype := ((enforceTypeFacts_writes s tcx dest (body.localTy dest)).trans
    (hnonzero _ (returnsNonNull path = true))).trans (hnonzero _ (endsWith path "::dangling" = true))
  have hnone : ∀ l ∈ firstArgLocal args, l ∉ BlockState.maySets _ .mulOverflow := fun l _ => by
    rw [show BlockState.maySets _ _ = _ from htype (.maySet .mulOverflow) (by decide), hmul]
    exact Finset.notMem_empty l
  unfold leaveCall
  dsimp only
  rw [if_neg]
  · exact Field.Same.has_iff p dest (htype (.maySet .layoutOverflow) (by decide))
  · cases hx : firstArgLocal args with
    | none => simp
    | some x => simp [hnone x hx]

/-- **A known call leaves alone what it keeps.** -/
theorem applyResolvedCall_has {dest : Local} {v : BlockState} (h : Untracked dest v)
    {args : List Operand} (hargs : dest ∉ args.flatMap Operand.locals) (tcx : TyCtxt) (body : Body)
    (summaries : SummaryMap) (did : DefId) (bb : Nat) {p : ProtocolId}
    (hp : p ≠ callSiteProto bb) {f : Field}
    (hf : f ∈ (classify (tcx.defPathStr did) (summaries.get did)).keeps args)
    (hlayout : f = .maySet .layoutOverflow → v.maySets .mulOverflow = ∅) :
    f.Has p dest (applyResolvedCall tcx body summaries did args dest bb v) ↔ f.Has p dest v := by
  have hfacts : Writes (Field.derived ++ (.fact .refBase :: .mustSet .fdOrigin ::
      .maySet .fdConsumed :: .threadSpawned :: Field.values)) v
      (recordCallFacts (tcx.defPathStr did) args dest (v.clearRedefined dest)) :=
    ((v.clearRedefined_writes dest).mono (by decide)).trans
      ((recordCallFacts_writes _ (tcx.defPathStr did) args dest).mono (by decide))
  have huntracked : Untracked dest
      (recordCallFacts (tcx.defPathStr did) args dest (v.clearRedefined dest)) :=
    (Spares.ofWrites h hfacts (by decide) (by decide) (by decide)).untracked
  have hleave := leaveCall_writes (applyCallKind tcx body (tcx.defPathStr did)
    (classify (tcx.defPathStr did) (summaries.get did)) args dest bb
    (recordCallFacts (tcx.defPathStr did) args dest (v.clearRedefined dest))) tcx body
    (tcx.defPathStr did) args dest
  rcases mem_kind_keeps.mp hf with hmem | ⟨rfl, hmu⟩ | ⟨rfl, hobjects⟩ | ⟨rfl, hprotos⟩
  · by_cases hl : f = .maySet .layoutOverflow
    · subst hl
      -- no size in the state overflows, so the result is no overflowing layout
      have hmul : (applyCallKind tcx body (tcx.defPathStr did)
          (classify (tcx.defPathStr did) (summaries.get did)) args dest bb (recordCallFacts
            (tcx.defPathStr did) args dest (v.clearRedefined dest))).maySets .mulOverflow = ∅ :=
        Eq.trans ((hfacts (.maySet .mulOverflow) (by decide)).trans (applyCallKind_writes _ tcx body
          _ _ args dest bb (.maySet .mulOverflow) (by decide))) (hlayout rfl)
      refine (leaveCall_layout hmul).trans (Field.Same.has_iff p dest ?_)
      exact (hfacts (.maySet .layoutOverflow) (by decide)).trans
        (applyCallKind_writes _ tcx body _ _ args dest bb (.maySet .layoutOverflow) (by decide))
    · refine Field.Same.has_iff p dest (applyResolvedCall_writes v tcx body summaries did args dest bb
        f ?_)
      exact (by decide : ∀ f ∈ Field.survivors, f ≠ .maySet .layoutOverflow → f ∉ Field.returned)
        f hmem hl
  · exact Field.Same.has_iff p dest <| (hfacts .muRawPtr (by decide)).trans <|
      Field.Same.trans (applyCallKind_muRawPtr tcx body _ bb hmu) (hleave .muRawPtr (by decide))
  · refine (Field.Same.has_iff p dest (hleave .pointsTo (by decide))).trans ?_
    show FMap.get _ dest ≠ none ↔ FMap.get _ dest ≠ none
    rw [applyCallKind_objects huntracked hargs tcx body _ bb hobjects,
      show (recordCallFacts _ _ _ _).pointsTo = v.pointsTo from hfacts .pointsTo (by decide)]
  · refine (Field.Same.has_iff p dest (hleave .localProto (by decide))).trans ?_
    exact (applyCallKind_protos huntracked hargs tcx body _ bb hprotos hp).trans
      (Field.Same.has_iff p dest (hfacts .localProto (by decide)))

/-! ## Entering a call without aliases -/

theorem detachStale_empty (s : BlockState) : detachStale ∅ s = s := by
  have hretain : s.ownerAlias.retain (fun p _ => p ∉ (∅ : Finset Local)) = s.ownerAlias :=
    FMap.ext fun k => by
      rw [FMap.get_retain]
      cases s.ownerAlias.get k <;> simp
  unfold detachStale
  rw [Finset.image_empty, FMap.assign_empty, FMap.assign_empty, hretain]

theorem invalidateOwners_of_noAliases {s : BlockState} (h : s.ownerAlias = ∅) (A : Finset Local) :
    s.invalidateOwners A = s := by
  refine BlockState.eq_of_same fun f => ?_
  by_cases hf : f ∈ [Field.ownerAlias]
  · rw [List.mem_singleton.mp hf]
    show (s.invalidateOwners A).ownerAlias = s.ownerAlias
    unfold BlockState.invalidateOwners
    split
    · rfl
    · refine FMap.ext fun k => ?_
      rw [FMap.get_filterMap, h]
      rfl
  · exact s.invalidateOwners_writes A f hf

theorem setOwners_of_noAliases {s : BlockState} (h : s.ownerAlias = ∅) (l : Local) :
    s.setOwners l none = s := by
  refine BlockState.eq_of_same fun f => ?_
  by_cases hf : f ∈ [Field.ownerAlias]
  · rw [List.mem_singleton.mp hf]
    refine FMap.ext fun k => ?_
    show (s.ownerAlias.erase l).get k = s.ownerAlias.get k
    rw [FMap.get_erase, h]
    exact ite_self _
  · exact s.setOwners_writes l none f hf

section Enter
variable {dest : Local} {s : BlockState} {args : List Operand}
  (hargs : dest ∉ args.flatMap Operand.locals) (tcx : TyCtxt) (body : Body)
  (summaries : SummaryMap) (callee : Option DefId)
include hargs

/-- Where nothing is aliased, a call forgets capacities and may note a reallocated parameter. -/
theorem enterCall_of_noAliases (h : s.ownerAlias = ∅) :
    ∃ t : BlockState, Writes [.maySet .reallocedParams] s t ∧
      (dest ∈ t.maySets .reallocedParams ↔ dest ∈ s.maySets .reallocedParams) ∧
      enterCall tcx body summaries callee args dest s = args.foldl (killCapacityArg body) t := by
  have hrealloc : ∃ t : BlockState, Writes [.maySet .reallocedParams] s t ∧
      (dest ∈ t.maySets .reallocedParams ↔ dest ∈ s.maySets .reallocedParams) ∧
      reallocate body (reallocReceiver tcx summaries callee args) s = t := by
    cases hrecv : reallocReceiver tcx summaries callee args with
    | none => exact ⟨s, .refl _ s, .rfl, rfl⟩
    | some recv =>
        have hne := DifferAt.reallocReceiver_ne hargs hrecv
        have howners : bufferOwners recv s = {recv} := by
          unfold bufferOwners BlockState.ownersOf
          rw [h]
          exact if_pos rfl
        have hstale : stalePointers body {recv} s = ∅ := by
          unfold stalePointers
          rw [h]
          rfl
        refine ⟨_, s.onMaySets_writes [.reallocedParams]
          (· ∪ ({recv} : Finset Local).filter fun o => isParam body o), ?_, ?_⟩
        · show dest ∈ (if _ then _ else _ : Finset Local) ↔ _
          rw [if_pos List.mem_cons_self]
          simp [hne.symm]
        · unfold reallocate markStale
          dsimp only
          rw [howners, hstale, detachStale_empty]
  obtain ⟨t, ht, hdest, heq⟩ := hrealloc
  have htowners : t.ownerAlias = ∅ := Eq.trans (ht .ownerAlias (by decide)) h
  refine ⟨t, ht, hdest, ?_⟩
  unfold enterCall invalidateOwnerArgs BlockState.invalidateOwner
  dsimp only
  rw [heq, invalidateOwners_of_noAliases htowners, invalidateOwners_of_noAliases htowners,
    setOwners_of_noAliases htowners]

/-- Forgetting the capacity of what the arguments borrow leaves the destination alone. -/
theorem killCapacityArgs_has (hbase : ∀ x, x ≠ dest → s.derefBase x ≠ dest) (p : ProtocolId)
    (f : Field) : f.Has p dest (args.foldl (killCapacityArg body) s) ↔ f.Has p dest s := by
  induction args generalizing s with
  | nil => exact .rfl
  | cons arg args ih =>
      have hstep : Writes [.mustSet .hasSpare, .mustSet .isFull] s (killCapacityArg body s arg) :=
        killCapacityArgs_writes s body [arg]
      have hbase' : ∀ x, x ≠ dest → (killCapacityArg body s arg).derefBase x ≠ dest := fun x hx => by
        unfold BlockState.derefBase
        rw [show (killCapacityArg body s arg).facts .refBase = s.facts .refBase from
          hstep (.fact .refBase) (by decide)]
        exact hbase x hx
      refine (ih (fun hmem => hargs (by simp [hmem])) hbase').trans ?_
      by_cases hf : f ∈ [Field.mustSet .hasSpare, Field.mustSet .isFull]
      · unfold killCapacityArg
        split
        · exact .rfl
        · next l hl =>
            split
            · have hne := (hbase l (operandLocal_ne (fun hmem => hargs (by simp [hmem])) hl)).symm
              simp only [List.mem_cons, List.not_mem_nil, or_false] at hf
              rcases hf with rfl | rfl
              · show dest ∈ (s.mustSets .hasSpare).erase _ ↔ dest ∈ s.mustSets .hasSpare
                rw [Finset.mem_erase, and_iff_right hne]
              · show dest ∈ (s.mustSets .isFull).erase _ ↔ dest ∈ s.mustSets .isFull
                rw [Finset.mem_erase, and_iff_right hne]
            · exact .rfl
      · exact Field.Same.has_iff p dest (hstep f hf)

end Enter

/-! ## One entry of the destination -/

section OneEntry
variable {m : FMap Local DefId} {dest : Local} {f : Field} {u : BlockState}
  (hu : DifferAt dest [f] (BlockState.plain m) u) {args : List Operand}
  (hargs : dest ∉ args.flatMap Operand.locals)
include hu

theorem untracked_of_plain : Untracked dest u := fun _ hx =>
  FMap.get_eq_of_erase_eq (hu.off .pointsTo) hx

theorem derefBase_of_plain {x : Local} (hx : x ≠ dest) : u.derefBase x ≠ dest := by
  rw [hu.derefBase hx]
  exact hx

include hargs

/-- **The entry is still there after the call, if the call keeps the field.** -/
theorem applyCall_has (tcx : TyCtxt) (body : Body) (summaries : SummaryMap) (func : Operand)
    (bb : Nat) {p : ProtocolId} (hp : p ≠ callSiteProto bb) (howners : f ≠ .ownerAlias)
    (hf : f ∈ callKeeps tcx body summaries (resolveCallee tcx body func u) args dest) :
    f.Has p dest (applyCall tcx body summaries bb func args (Place.ofLocal dest) u) ↔
      f.Has p dest u := by
  obtain ⟨t, ht, hdest, henter⟩ := enterCall_of_noAliases hargs tcx body summaries
    (resolveCallee tcx body func u) (hu.same .ownerAlias (by simpa using howners.symm))
  have hbase : ∀ x, x ≠ dest → t.derefBase x ≠ dest := fun x hx => by
    unfold BlockState.derefBase
    rw [show t.facts .refBase = u.facts .refBase from ht (.fact .refBase) (by decide)]
    exact derefBase_of_plain hu hx
  have hstart : f.Has p dest (enterCall tcx body summaries (resolveCallee tcx body func u) args dest
      u) ↔ f.Has p dest u := by
    rw [henter, killCapacityArgs_has hargs body hbase p f]
    by_cases hr : f = .maySet .reallocedParams
    · subst hr
      exact hdest
    · exact Field.Same.has_iff p dest (ht f (by simpa using hr))
  have hwrites : Writes [.maySet .reallocedParams, .mustSet .hasSpare, .mustSet .isFull] u
      (enterCall tcx body summaries (resolveCallee tcx body func u) args dest u) := by
    rw [henter]
    exact (ht.mono (by decide)).trans ((killCapacityArgs_writes t body args).mono (by decide))
  have huntracked : Untracked dest
      (enterCall tcx body summaries (resolveCallee tcx body func u) args dest u) :=
    (Spares.ofWrites (untracked_of_plain hu) hwrites (by decide) (by decide) (by decide)).untracked
  unfold applyCall
  dsimp only
  cases hcallee : resolveCallee tcx body func u with
  | none =>
      rw [hcallee] at hstart huntracked
      refine Iff.trans ?_ hstart
      have hescape := Spares.escapeRawPtrArgs hargs huntracked body
      by_cases hobjects : f = .pointsTo
      · subst hobjects
        exact iff_of_eq (congrArg (· ≠ none) hescape.objects)
      · by_cases hprotos : f = .localProto
        · subst hprotos
          exact iff_of_eq (congrArg (fun o : Option (Finset ProtocolId) => p ∈ o.getD ∅)
            hescape.protos)
        · refine Field.Same.has_iff p dest (escapeRawPtrArgs_writes _ body args f fun hmem => ?_)
          rw [hcallee] at hf
          have hlocal : f ∈ Field.perLocal := (List.mem_filter.mp hf).1
          simp only [List.mem_cons, List.not_mem_nil, or_false] at hmem
          rcases hmem with rfl | rfl | rfl | rfl
          · exact absurd hlocal (by decide)
          · exact hobjects rfl
          · exact hprotos rfl
          · exact howners rfl
  | some did =>
      rw [hcallee] at hf hstart huntracked hwrites
      refine Iff.trans ?_ hstart
      have hkeeps : f ∈ (classify (tcx.defPathStr did) (summaries.get did)).keeps args := by
        rcases List.mem_append.mp hf with hf | hf
        · exact hf
        · split at hf
          · exact absurd (List.mem_singleton.mp hf) howners
          · cases hf
      refine applyResolvedCall_has huntracked hargs tcx body summaries did bb hp hkeeps ?_
      rintro rfl
      exact Eq.trans (hwrites (.maySet .mulOverflow) (by decide))
        (hu.same (.maySet .mulOverflow) (by decide))

end OneEntry

/-! ## An alias of the destination -/

section Stale
variable {dest : Local} {args : List Operand} (hargs : dest ∉ args.flatMap Operand.locals)
  {tcx : TyCtxt} {body : Body} {summaries : SummaryMap} {func : Operand} {did : DefId} {bb : Nat}
include hargs

/-- Once the stale handles are detached, a call touches one object at most. -/
theorem applyCall_heap {s : BlockState} (hcallee : resolveCallee tcx body func s = some did)
    (h : Untracked dest (reallocate body (reallocReceiver tcx summaries (some did) args) s))
    {o : ObjectId} (ho : o ≠ BlockState.callSiteObject bb) :
    (applyCall tcx body summaries bb func args (Place.ofLocal dest) s).heap.get o =
      (reallocate body (reallocReceiver tcx summaries (some did) args) s).heap.get o := by
  have henter : Writes [.ownerAlias, .mustSet .hasSpare, .mustSet .isFull]
      (reallocate body (reallocReceiver tcx summaries (some did) args) s)
      (enterCall tcx body summaries (some did) args dest s) :=
    ((BlockState.invalidateOwners_writes _ _).mono (by decide)).trans <|
      ((BlockState.invalidateOwners_writes _ {dest}).mono (by decide)).trans <|
      ((BlockState.setOwners_writes _ dest none).mono (by decide)).trans <|
      (killCapacityArgs_writes _ body args).mono (by decide)
  have hfacts : Writes (.ownerAlias :: (Field.derived ++ (.fact .refBase :: .mustSet .fdOrigin ::
      .maySet .fdConsumed :: .threadSpawned :: Field.values)))
      (reallocate body (reallocReceiver tcx summaries (some did) args) s)
      (recordCallFacts (tcx.defPathStr did) args dest
        ((enterCall tcx body summaries (some did) args dest s).clearRedefined dest)) :=
    (henter.mono (by decide)).trans <|
      ((BlockState.clearRedefined_writes _ dest).mono (by decide)).trans <|
      (recordCallFacts_writes _ (tcx.defPathStr did) args dest).mono (by decide)
  have hspares := Spares.ofWrites h hfacts (by decide) (by decide) (by decide)
  unfold applyCall
  dsimp only
  rw [hcallee]
  exact (congrArg (FMap.get · o) (leaveCall_writes _ tcx body _ args dest .heap (by decide))).trans <|
    (applyCallKind_heap hspares.untracked hargs tcx body _ bb _ ho).trans
      (congrArg (FMap.get · o) hspares.heap)

omit hargs in
/-- If `dest` aliases the buffer of `recv` and nothing else aliases anything, `dest` is the only
handle that a reallocation of the buffer leaves stale. -/
theorem reallocate_setOwners {m : FMap Local DefId} {recv : Local} (hne : recv ≠ dest)
    (href : (body.localTy dest).isRef = false) :
    reallocate body (some recv) ((BlockState.plain m).setOwners dest (some {recv})) =
      detachStale {dest} (((BlockState.plain m).setOwners dest (some {recv})).onMaySets
        [.reallocedParams] (· ∪ ({recv} : Finset Local).filter fun o => isParam body o)) := by
  have howners : bufferOwners recv ((BlockState.plain m).setOwners dest (some {recv})) = {recv} := by
    have hnone : ((BlockState.plain m).setOwners dest (some {recv})).ownersOf recv = ∅ := by
      show (((∅ : FMap Local (Finset Local)).insert dest {recv}).get recv).getD ∅ = ∅
      rw [FMap.get_insert_of_ne _ _ hne]
      rfl
    exact if_pos hnone
  have hstale : stalePointers body {recv} ((BlockState.plain m).setOwners dest (some {recv})) =
      {dest} := by
    have hself : ((BlockState.plain m).setOwners dest (some {recv})).ownersOf dest = {recv} := by
      show (((∅ : FMap Local (Finset Local)).insert dest {recv}).get dest).getD ∅ = {recv}
      rw [FMap.get_insert_self]
      rfl
    ext x
    unfold stalePointers
    rw [Finset.mem_filter, Finset.mem_singleton]
    constructor
    · rintro ⟨hx, -⟩
      exact (Finset.mem_insert.mp hx).elim id fun hx => absurd hx (Finset.notMem_empty x)
    · rintro rfl
      exact ⟨Finset.mem_insert_self _ _, ⟨recv, Finset.mem_singleton_self _, by simp [hself]⟩, href⟩
  unfold reallocate markStale
  dsimp only
  rw [howners, hstale]

/-- **A handle into a reallocated buffer leaves a trace in the heap** although the call
overwrites it. -/
theorem applyCall_stale {m : FMap Local DefId} {recv : Local}
    (hcallee : ∀ s : BlockState, s.fnPtrTargets = m → resolveCallee tcx body func s = some did)
    (hrecv : reallocReceiver tcx summaries (some did) args = some recv)
    (href : (body.localTy dest).isRef = false)
    (hbb : staleObject dest ≠ BlockState.callSiteObject bb) :
    applyCall tcx body summaries bb func args (Place.ofLocal dest) (BlockState.plain m) ≠
      applyCall tcx body summaries bb func args (Place.ofLocal dest)
        ((BlockState.plain m).setOwners dest (some {recv})) := by
  have hne := DifferAt.reallocReceiver_ne hargs hrecv
  have hplain : reallocate body (reallocReceiver tcx summaries (some did) args)
      (BlockState.plain m) = (BlockState.plain m).onMaySets [.reallocedParams]
        (· ∪ (bufferOwners recv (BlockState.plain m)).filter fun o => isParam body o) := by
    rw [hrecv]
    exact detachStale_empty _
  have hmarked : reallocate body (reallocReceiver tcx summaries (some did) args)
      ((BlockState.plain m).setOwners dest (some {recv})) =
        detachStale {dest} (((BlockState.plain m).setOwners dest (some {recv})).onMaySets
          [.reallocedParams] (· ∪ ({recv} : Finset Local).filter fun o => isParam body o)) := by
    rw [hrecv]
    exact reallocate_setOwners hne href
  intro heq
  have hplainUntracked : Untracked dest (reallocate body (reallocReceiver tcx summaries (some did)
      args) (BlockState.plain m)) := by
    rw [hplain]
    exact fun _ _ => rfl
  have hmarkedUntracked : Untracked dest (reallocate body (reallocReceiver tcx summaries (some did)
      args) ((BlockState.plain m).setOwners dest (some {recv}))) := by
    rw [hmarked]
    intro x hx
    show ((∅ : FMap Local (Finset ObjectId)).assign {dest} _).get x = none
    rw [FMap.get_assign, if_neg (by simpa using hx)]
    rfl
  -- The rest of the call touches the object of its own site only, so the heap tells the two apart.
  have hbefore := applyCall_heap hargs (hcallee (BlockState.plain m) rfl) hplainUntracked hbb
  have hafter := applyCall_heap hargs (hcallee ((BlockState.plain m).setOwners dest (some {recv})) rfl)
    hmarkedUntracked hbb
  rw [← heq, hbefore, hplain, hmarked] at hafter
  have hfreed : (detachStale {dest} (((BlockState.plain m).setOwners dest (some {recv})).onMaySets
      [.reallocedParams] (· ∪ ({recv} : Finset Local).filter fun o => isParam body o))).heap.get
        (staleObject dest) = some .maybeFreed := by
    show ((∅ : FMap ObjectId HeapState).assign _ _).get _ = _
    rw [FMap.get_assign, if_pos (by simp)]
  rw [hfreed] at hafter
  cases hafter

end Stale

/-! ## The theorem -/

theorem callKeeps_perLocal {tcx : TyCtxt} {body : Body} {summaries : SummaryMap}
    {callee : Option DefId} {args : List Operand} {dest : Local} {f : Field}
    (hf : f ∈ callKeeps tcx body summaries callee args dest) : f ∈ Field.perLocal := by
  cases callee with
  | none => exact (List.mem_filter.mp hf).1
  | some did =>
      rcases List.mem_append.mp hf with hf | hf
      · rcases mem_kind_keeps.mp hf with hf | ⟨rfl, -⟩ | ⟨rfl, -⟩ | ⟨rfl, -⟩
        · exact (by decide : ∀ f ∈ Field.survivors, f ∈ Field.perLocal) f hf
        · decide
        · decide
        · decide
      · split at hf
        · rw [List.mem_singleton.mp hf]
          decide
        · cases hf

theorem ownerAlias_mem_callKeeps {tcx : TyCtxt} {body : Body} {summaries : SummaryMap}
    {did : DefId} {args : List Operand} {dest : Local}
    (hf : .ownerAlias ∈ callKeeps tcx body summaries (some did) args dest) :
    ∃ recv, reallocReceiver tcx summaries (some did) args = some recv ∧
      (body.localTy dest).isRef = false := by
  rcases List.mem_append.mp hf with hf | hf
  · rcases mem_kind_keeps.mp hf with hf | ⟨hf, -⟩ | ⟨hf, -⟩ | ⟨hf, -⟩
    · exact absurd hf (by decide)
    · cases hf
    · cases hf
    · cases hf
  · split at hf
    · next hrecv =>
        obtain ⟨hsome, href⟩ := Bool.and_eq_true_iff.mp hrecv
        obtain ⟨recv, hrecv⟩ := Option.isSome_iff_exists.mp hsome
        exact ⟨recv, hrecv, Bool.not_eq_true' _ |>.mp href⟩
    · cases hf

/-- **The destination of a call forgets its old value up to what the call keeps.**  States
that agree except at the destination, and that agree at the destination on the fields `G`,
are always mapped to the same state exactly if `G` covers `callKeeps`: nearly everything if
the callee is unknown, and otherwise what the list of removals in the source leaves out. -/
theorem call_forgets_iff (tcx : TyCtxt) (body : Body) (summaries : SummaryMap) (func : Operand)
    (args : List Operand) (dest : Local) (target : Option (Fin body.numBlocks))
    (unwind : UnwindAction body.numBlocks) (span : Span)
    (hfresh : dest ∉ func.locals ++ args.flatMap Operand.locals) (callee : Option DefId)
    (hcallee : ∃ s, resolveCallee tcx body func s = callee) (G : List Field) :
    (∀ (bb : Nat) (s t : BlockState), resolveCallee tcx body func s = callee →
      AgreeExcept dest s t → (∀ f ∈ G, f.Same s t) →
      applyTerminator tcx body summaries bb
          ⟨.call func args (Place.ofLocal dest) target unwind, span⟩ s =
        applyTerminator tcx body summaries bb
          ⟨.call func args (Place.ofLocal dest) target unwind, span⟩ t) ↔
      callKeeps tcx body summaries callee args dest ⊆ G := by
  have hfunc : dest ∉ func.locals := fun hmem => hfresh (List.mem_append_left _ hmem)
  have hargs : dest ∉ args.flatMap Operand.locals := fun hmem =>
    hfresh (List.mem_append_right _ hmem)
  constructor
  · -- a field of the list that `G` leaves out tells two states apart
    intro hforgets f hf
    by_contra hG
    obtain ⟨s, rfl⟩ := hcallee
    have hresolve : ∀ u : BlockState, (∀ x, x ≠ dest →
        u.fnPtrTargets.get x = (s.fnPtrTargets.erase dest).get x) →
        resolveCallee tcx body func u = resolveCallee tcx body func s := fun u hu =>
      resolveCallee_congr hfunc fun x hx => (hu x hx).trans (FMap.get_erase_of_ne _ hx)
    have hother : ∀ {u : BlockState}, DifferAt dest [f]
        (BlockState.plain (s.fnPtrTargets.erase dest)) u → ∀ bb,
        applyCall tcx body summaries bb func args (Place.ofLocal dest)
            (BlockState.plain (s.fnPtrTargets.erase dest)) =
          applyCall tcx body summaries bb func args (Place.ofLocal dest) u := fun {u} hu bb =>
      hforgets bb _ u (hresolve _ fun _ _ => rfl) hu.agreeExcept fun g hg =>
        hu.same g fun hmem => hG (List.mem_singleton.mp hmem ▸ hg)
    by_cases howners : f = .ownerAlias
    · -- an alias of the destination shows in the heap, if the call reallocates what it aliases
      subst howners
      cases hdid : resolveCallee tcx body func s with
      | none =>
          rw [hdid] at hf
          exact absurd hf (by decide : Field.ownerAlias ∉ Field.perLocal.filter (· ≠ .ownerAlias))
      | some did =>
          rw [hdid] at hf hresolve
          obtain ⟨recv, hrecv, href⟩ := ownerAlias_mem_callKeeps hf
          obtain ⟨bb, hbb⟩ : ∃ bb, staleObject dest ≠ BlockState.callSiteObject bb := by
            by_cases hzero : staleObject dest = BlockState.callSiteObject 0
            · exact ⟨1, by rw [hzero]; decide⟩
            · exact ⟨0, hzero⟩
          exact applyCall_stale hargs (fun u hu => hresolve u fun x hx => by rw [hu]) hrecv href hbb
            (hother (differAt_setOwners dest _ _) bb)
    · -- any other field still holds after the call the entry that it is given before
      have hmark := differAt_mark (callSiteProto 1) dest
        (BlockState.plain (s.fnPtrTargets.erase dest)) f
      have hp : callSiteProto 1 ≠ callSiteProto 0 := by decide
      have hlocal : f ∈ Field.perLocal := callKeeps_perLocal hf
      have hhas := has_mark (callSiteProto 1) dest (BlockState.plain (s.fnPtrTargets.erase dest))
        hlocal howners
      have hkept : ∀ {u : BlockState}, DifferAt dest [f]
          (BlockState.plain (s.fnPtrTargets.erase dest)) u →
          (f.Has (callSiteProto 1) dest (applyCall tcx body summaries 0 func args
            (Place.ofLocal dest) u) ↔ f.Has (callSiteProto 1) dest u) := fun {u} hu =>
        applyCall_has hu hargs tcx body summaries func 0 hp howners (by
          rw [hresolve u fun x hx => FMap.get_eq_of_erase_eq (hu.off .fnPtrTargets) hx]
          exact hf)
      have hafter := (hkept hmark).mpr hhas
      rw [← hother hmark 0] at hafter
      exact not_has_plain _ _ (FMap.get_erase_self _ _) f ((hkept (.refl _ _ _)).mp hafter)
  · intro hkeeps bb s t hs h hG
    exact (applyCall_eq_of_keeps hargs hfunc bb h fun f hf => hG f (hkeeps (hs ▸ hf))).symm

/-- `_1 = opaque(_2)`. -/
def callOpaque : Terminator 2 := ⟨.callTo 0 [.ofNat 2] 1 (Fin.last 1), .none⟩

/-- `_1 = (*_2)(_2)`, a call through a pointer whose target is not known. -/
def callPointer : Terminator 2 :=
  ⟨.call (.ofNat 2) [.ofNat 2] (Place.ofLocal (Local.ofNat 1)) (some (Fin.last 1)) .continue, .none⟩

/-- A function of two `usize`s that calls `opaque`. -/
def callOver : Body :=
  .ofBlocks 1 2 [.other, .uint .usize, .uint .usize] 1
    (fun _ => [⟨[], some callOpaque⟩, .of [] .return]) (by decide)

/-- **A known call forgets that its destination was bounded.** -/
theorem call_forgets_bounded :
    AgreeExcept (Local.ofNat 1) .default (BlockState.default.insertMust .bounded (Local.ofNat 1)) ∧
    applyTerminator (.ofPaths ["opaque", "f"]) callOver ∅ 0 callOpaque .default =
      applyTerminator (.ofPaths ["opaque", "f"]) callOver ∅ 0 callOpaque
        (BlockState.default.insertMust .bounded (Local.ofNat 1)) := by
  refine ⟨agreeExcept_insertMust _ _ _, ?_⟩
  have hforgets := (call_forgets_iff (.ofPaths ["opaque", "f"]) callOver ∅
    (.constant ⟨none, some (⟨0, 0⟩, ⟨0⟩)⟩) [.ofNat 2] (Local.ofNat 1) (some (Fin.last 1)) .continue
    .none (by decide) (some ⟨0, 0⟩) ⟨.default, rfl⟩
    (callKeeps (.ofPaths ["opaque", "f"]) callOver ∅ (some ⟨0, 0⟩) [.ofNat 2] (Local.ofNat 1))).mpr
    (List.Subset.refl _)
  refine hforgets 0 _ _ rfl (agreeExcept_insertMust _ _ _) fun f hf => ?_
  exact BlockState.insertMust_writes _ _ _ f fun hmem => by
    rw [List.mem_singleton.mp hmem] at hf
    exact absurd hf (by decide +kernel)

/-- **It does not forget that its destination overflowed**, and a call through an unknown
pointer forgets hardly anything: the old value's bounds check is taken for the result's. -/
theorem call_keeps_overflow :
    AgreeExcept (Local.ofNat 1) .default (BlockState.default.insertMay .mulOverflow (Local.ofNat 1)) ∧
    Local.ofNat 1 ∉ (applyTerminator (.ofPaths ["opaque", "f"]) callOver ∅ 0 callOpaque
      .default).maySets .mulOverflow ∧
    Local.ofNat 1 ∈ (applyTerminator (.ofPaths ["opaque", "f"]) callOver ∅ 0 callOpaque
      (BlockState.default.insertMay .mulOverflow (Local.ofNat 1))).maySets .mulOverflow ∧
    (applyTerminator (.ofPaths ["opaque", "f"]) callOver ∅ 0 callPointer
      .default).localIsBounded (Local.ofNat 1) = false ∧
    (applyTerminator (.ofPaths ["opaque", "f"]) callOver ∅ 0 callPointer
      (BlockState.default.insertMust .bounded (Local.ofNat 1))).localIsBounded (Local.ofNat 1) =
        true :=
  ⟨(differAt_mark (callSiteProto 0) _ _ (.maySet .mulOverflow)).agreeExcept, by decide +kernel,
    by decide +kernel, by decide +kernel, by decide +kernel⟩

end San
