import San.AssignFrame
import San.CallChecks

/-! # The active field of a union

The analysis remembers for a local the field through which the union in it was last written, and the
checker of union reads goes by that: the read of the same field is passed over, the read of another
one is an error.  The field of a write or a read is found by `direct_union_field_access`, which
takes the last field on the way to a place.  The union's own field is the first one.

`LastWritten` follows the field that a union is really written through, along any sequence of
statements; only places rooted at the local count, what is written through a pointer to the union
does not.  The recorded field is the right one as long as every path into a union ends in the field
it starts with, and no longer (`active_field_iff`).
-/
namespace San

/-! ## Paths into a union -/

def ProjectionElem.fieldIdx : ProjectionElem → Option FieldIdx
  | .field f _ => some f
  | _ => none

namespace Place

/-- The fields on the way to a place. -/
def fields (p : Place) : List FieldIdx := p.projection.filterMap ProjectionElem.fieldIdx

/-- Is the place behind a pointer that is stored below the base? -/
def followsPointer (p : Place) : Bool := p.projection.tail.any ProjectionElem.isDeref

/-- `union_local.field` or `(*ptr_to_union).field`. -/
def directField (p : Place) : Option FieldIdx :=
  match p.projection with
  | [.field f _] => some f
  | [.deref, .field f _] => some f
  | _ => none

/-- The path to the place ends in the field it starts with. -/
def EndsInOwnField (p : Place) : Prop :=
  p.followsPointer = false → p.fields.getLast? = p.fields.head?

/-- **The key of a place** is the last field on the way to it. -/
theorem lastSimpleFieldIdx_eq (p : Place) : lastSimpleFieldIdx p.projection =
    if p.followsPointer then none else p.fields.getLast? := by
  unfold lastSimpleFieldIdx fields
  rw [List.getLast?_filterMap]
  refine congrArg (fun g => if p.followsPointer then none else p.projection.reverse.findSome? g) ?_
  funext e
  cases e <;> rfl

theorem directField_eq_some {p : Place} {f : FieldIdx} (h : p.directField = some f) :
    p.followsPointer = false ∧ p.fields = [f] := by
  unfold directField at h
  unfold followsPointer fields
  split at h
  · rename_i heq
    cases h
    rw [heq]
    exact ⟨rfl, rfl⟩
  · rename_i heq
    cases h
    rw [heq]
    exact ⟨rfl, rfl⟩
  · cases h

end Place

/-! ## User-defined unions -/

/-- A union from outside the standard library. -/
def Ty.isUserUnion (tcx : TyCtxt) (ty : Ty) : Bool :=
  ty.unionAdt.any fun adt => !isStdCrate (tcx.crateName adt.did)

/-- The type behind a pointer, or else the type itself. -/
def Ty.behindPointer : Ty → Ty
  | .rawPtr inner _ => inner
  | .ref inner _ => inner
  | ty => ty

theorem Ty.behindPointer_of_isUserUnion {tcx : TyCtxt} {ty : Ty} (h : ty.isUserUnion tcx = true) :
    ty.behindPointer = ty := by
  cases ty with
  | rawPtr inner m => cases h
  | ref inner m => cases h
  | _ => rfl

section Access
variable {tcx : TyCtxt} {body : Body} {place : Place}

theorem directUnionFieldAccess_eq :
    directUnionFieldAccess tcx body place =
      if (body.localTy place.base).behindPointer.isUserUnion tcx then
        (lastSimpleFieldIdx place.projection).map fun f => (place.base, f)
      else none := by
  have hadt : ∀ ty : Ty, (ty.unionAdt.bind fun adt =>
      if isStdCrate (tcx.crateName adt.did) then none
      else (lastSimpleFieldIdx place.projection).map fun f => (place.base, f)) =
      if ty.isUserUnion tcx then
        (lastSimpleFieldIdx place.projection).map fun f => (place.base, f)
      else none := by
    intro ty
    unfold Ty.isUserUnion
    cases ty.unionAdt with
    | none => rfl
    | some adt => cases hstd : isStdCrate (tcx.crateName adt.did) <;> simp [hstd]
  unfold directUnionFieldAccess
  cases body.localTy place.base <;> exact hadt _

/-- **An access is keyed by the last field on the way to it**, unless it follows a pointer. -/
theorem directUnionFieldAccess_eq_some_iff {l : Local} {f : FieldIdx}
    (hunion : (body.localTy place.base).behindPointer.isUserUnion tcx = true) :
    directUnionFieldAccess tcx body place = some (l, f) ↔
      place.base = l ∧ place.followsPointer = false ∧ place.fields.getLast? = some f := by
  rw [directUnionFieldAccess_eq, if_pos hunion, place.lastSimpleFieldIdx_eq]
  cases place.followsPointer with
  | true => simp
  | false => simp [and_comm]

/-- **What the access of a union is documented to return** it returns on direct accesses, on places
that go through no field, and on places behind a pointer, and on no others. -/
theorem directUnionFieldAccess_documented_iff
    (hunion : (body.localTy place.base).behindPointer.isUserUnion tcx = true) :
    directUnionFieldAccess tcx body place = place.directField.map (fun f => (place.base, f)) ↔
      place.directField.isSome = true ∨ place.fields = [] ∨ place.followsPointer = true := by
  rw [directUnionFieldAccess_eq, if_pos hunion, place.lastSimpleFieldIdx_eq]
  cases hdirect : place.directField with
  | some f =>
    obtain ⟨hpointer, hfields⟩ := Place.directField_eq_some hdirect
    simp [hpointer, hfields]
  | none =>
    cases place.followsPointer with
    | true => simp
    | false => simp

end Access

/-! ## The field that is really written -/

/-- For each local, the field through which the union in it was last written. -/
abbrev LastWritten := Local → Option FieldIdx

/-- The field that the value of an rvalue was last written through, if it is a union. -/
def Rvalue.lastWritten (g : LastWritten) : Rvalue → Option FieldIdx
  | .use (.copy src) => if src.isLocal then g src.base else none
  | .use (.move src) => if src.isLocal then g src.base else none
  | .aggregate (.adt _ activeField) _ => activeField
  | _ => none

/-- The field of its base that a write to a projected place goes through.  What a pointer in a union
points to is no part of the union. -/
def Place.writtenField (p : Place) : Option FieldIdx :=
  if p.followsPointer then none else p.fields.head?

/-- Follow one statement. -/
def LastWritten.step (stmt : Statement) (g : LastWritten) : LastWritten :=
  match stmt.kind with
  | .other => g
  | .assign dst rvalue =>
      if dst.isLocal then Function.update g dst.base (rvalue.lastWritten g)
      else Function.update g dst.base (dst.writtenField.or (g dst.base))

def LastWritten.after (stmts : List Statement) (g : LastWritten) : LastWritten :=
  stmts.foldl (fun g stmt => g.step stmt) g

/-- **The recorded field of a union is the one it was last written through.** -/
def ActiveFieldsRight (tcx : TyCtxt) (body : Body) (s : BlockState) (g : LastWritten) : Prop :=
  ∀ u f, (body.localTy u).isUserUnion tcx = true → s.activeVariant.get u = some f → g u = some f

/-- Copies and moves of whole locals are between locals of one type. -/
def Statement.CopiesTyped (body : Body) (stmt : Statement) : Prop :=
  ∀ dst rvalue src, stmt.kind = .assign dst rvalue → dst.isLocal = true →
    rvalueLocal rvalue = some src → body.localTy src = body.localTy dst.base

/-! ## What a statement records -/

section Record
variable {tcx : TyCtxt} {body : Body} {s : BlockState} {dst l : Local} {rvalue : Rvalue}
  {f : FieldIdx}

/-- A copy or a move of a whole local carries its field over. -/
theorem activeVariant_propagateUse {src : Place} {isMove : Bool}
    (h : (if src.isLocal then propagateUse src.base dst isMove s else s).activeVariant.get l =
      some f) :
    s.activeVariant.get l = some f ∨
      l = dst ∧ src.isLocal = true ∧ s.activeVariant.get src.base = some f := by
  split at h
  · rename_i hlocal
    exact (transferMap_source h).symm.imp id fun ⟨hl, hsrc⟩ => ⟨hl, hlocal, hsrc⟩
  · exact Or.inl h

theorem activeVariant_propagateRvalue
    (h : (propagateRvalue dst rvalue s).activeVariant.get l = some f) :
    s.activeVariant.get l = some f ∨
      l = dst ∧ ∃ src, rvalueLocal rvalue = some src ∧ s.activeVariant.get src = some f := by
  unfold propagateRvalue at h
  split at h
  · exact (activeVariant_propagateUse h).imp id fun ⟨hl, hlocal, hsrc⟩ =>
      ⟨hl, _, if_pos hlocal, hsrc⟩
  · exact (activeVariant_propagateUse h).imp id fun ⟨hl, hlocal, hsrc⟩ =>
      ⟨hl, _, if_pos hlocal, hsrc⟩
  · exact Or.inl h

/-- An rvalue that builds no value from parts records no field. -/
theorem assignRvalue_activeVariant (h : ∀ kind operands, rvalue ≠ .aggregate kind operands) :
    (assignRvalue tcx body dst rvalue s).activeVariant = s.activeVariant := by
  have hunknown : (assignUnknown rvalue dst s).activeVariant = s.activeVariant :=
    assignUnknown_writes s rvalue dst .activeVariant (by decide)
  unfold assignRvalue
  split
  · exact assignConstant_writes s _ dst .activeVariant (by decide)
  · split
    · rfl
    · split
      · rfl
      · exact hunknown
  · split
    · rfl
    · split
      · rfl
      · exact hunknown
  · rfl
  · rfl
  · rfl
  · exact absurd rfl (h _ _)
  · split
    · split
      · unfold assignPtrCast
        dsimp only
        split
        · rfl
        · rfl
      · split
        · exact assignNumericCast_writes s _ _ _ _ .activeVariant (by decide)
        · exact hunknown
    · exact hunknown
  · rw [assignBinaryOp_eq]
    exact Eq.trans (recordBinaryOp_writes _ body _ _ _ dst .activeVariant (by decide))
      (enterBinaryOp_writes s _ _ _ dst .activeVariant (by decide))
  · exact hunknown

/-- Only the literal of a union records a field. -/
theorem activeVariant_assignRvalue
    (h : (assignRvalue tcx body dst rvalue s).activeVariant.get l = some f) :
    s.activeVariant.get l = some f ∨
      l = dst ∧ ∃ did operands, rvalue = .aggregate (.adt did (some f)) operands := by
  cases rvalue with
  | aggregate kind operands =>
    dsimp only [assignRvalue, assignAggregate] at h
    split at h
    · rename_i did activeField
      split at h
      · exact Or.inl h
      · by_cases hl : l = dst
        · rw [hl] at h
          obtain rfl : activeField = f :=
            Option.some.inj ((FMap.get_insert_self _ _ _).symm.trans h)
          exact Or.inr ⟨hl, did, operands, rfl⟩
        · exact Or.inl ((FMap.get_insert_of_ne _ _ hl).symm.trans h)
    · exact Or.inl h
    · exact Or.inl h
    · split at h
      · exact Or.inl h
      · exact Or.inl h
    · split at h
      · exact Or.inl h
      · exact Or.inl h
  | _ =>
    rw [assignRvalue_activeVariant fun _ _ heq => Rvalue.noConfusion heq] at h
    exact Or.inl h

/-- **What is recorded after an assignment to a whole local**: the fields of the other locals, the
field of a local that is copied or moved from, and the field of a literal. -/
theorem activeVariant_assignLocal
    (h : (assignLocal tcx body dst rvalue s).activeVariant.get l = some f) :
    l ≠ dst ∧ s.activeVariant.get l = some f ∨
      l = dst ∧ ((∃ src, rvalueLocal rvalue = some src ∧ s.activeVariant.get src = some f) ∨
        ∃ did operands, rvalue = .aggregate (.adt did (some f)) operands) := by
  have hredefine : (recordRefBase dst rvalue (redefine body dst rvalue s)).activeVariant =
      s.activeVariant.erase dst :=
    recordRefBase_writes _ dst rvalue .activeVariant (by decide)
  have hvalue : (assignRvalue tcx body dst rvalue (recordLenOf dst rvalue
      (propagateRvalue dst rvalue (recordRefBase dst rvalue
        (redefine body dst rvalue s))))).activeVariant.get l = some f := by
    rw [← h, assignLocal_eq]
    exact congrArg (FMap.get · l)
      (enforceTypeFacts_writes _ tcx dst _ .activeVariant (by decide)).symm
  rcases activeVariant_assignRvalue hvalue with hlen | ⟨hl, hliteral⟩
  · rw [show BlockState.activeVariant (recordLenOf dst rvalue _) = _ from
      recordLenOf_writes _ dst rvalue .activeVariant (by decide)] at hlen
    rcases activeVariant_propagateRvalue hlen with hold | ⟨hl, src, hsrc, hcopied⟩
    · rw [hredefine] at hold
      exact Or.inl (FMap.get_erase_eq_some_iff.mp hold)
    · rw [hredefine] at hcopied
      exact Or.inr ⟨hl, Or.inl ⟨src, hsrc, (FMap.get_erase_eq_some_iff.mp hcopied).2⟩⟩
  · exact Or.inr ⟨hl, Or.inr hliteral⟩

/-- A write to a projected place records the field that the access of a union returns. -/
theorem activeVariant_assignProjected {place : Place}
    (h : directUnionFieldAccess tcx body place = some (l, f)) :
    (assignProjected tcx body place rvalue s).activeVariant = s.activeVariant.insert l f := by
  have hstore : (storeObjects place rvalue s).activeVariant = s.activeVariant :=
    storeObjects_writes s place rvalue .activeVariant (by decide)
  unfold assignProjected
  rw [h, ← hstore]
  exact writeMaybeUninitField_writes _ body place .activeVariant (by decide)

theorem activeVariant_assignProjected_of_none {place : Place}
    (h : directUnionFieldAccess tcx body place = none) :
    (assignProjected tcx body place rvalue s).activeVariant = s.activeVariant := by
  unfold assignProjected
  rw [h]
  exact Eq.trans (writeMaybeUninitField_writes _ body place .activeVariant (by decide))
    (storeObjects_writes s place rvalue .activeVariant (by decide))

end Record

/-! ## One statement, and a sequence of them -/

/-- Writes into a union end in the field that they start with. -/
def Statement.WritesOwnField (tcx : TyCtxt) (body : Body) (stmt : Statement) : Prop :=
  ∀ dst rvalue, stmt.kind = .assign dst rvalue → (body.localTy dst.base).isUserUnion tcx = true →
    dst.EndsInOwnField

section Step
variable {tcx : TyCtxt} {body : Body} {s : BlockState} {g : LastWritten} {dst : Place}
  {rvalue : Rvalue}

theorem Rvalue.lastWritten_of_rvalueLocal {src : Local} (h : rvalueLocal rvalue = some src) :
    rvalue.lastWritten g = g src := by
  have hplace : ∀ {p : Place}, (if p.isLocal then some p.base else none) = some src →
      (if p.isLocal then g p.base else none) = g src := by
    intro p hp
    split at hp
    · rename_i hlocal
      rw [if_pos hlocal, Option.some.inj hp]
    · cases hp
  cases rvalue with
  | use op =>
    cases op with
    | copy p => exact hplace h
    | move p => exact hplace h
    | constant c => cases h
  | _ => cases h

/-- Assigning a whole local takes the field over from the value. -/
theorem ActiveFieldsRight.assignLocal (h : ActiveFieldsRight tcx body s g) {l : Local}
    (hcopies : ∀ src, rvalueLocal rvalue = some src → body.localTy src = body.localTy l) :
    ActiveFieldsRight tcx body (assignLocal tcx body l rvalue s)
      (Function.update g l (rvalue.lastWritten g)) := by
  intro u f hunion hactive
  rcases activeVariant_assignLocal hactive with ⟨hne, hold⟩ | ⟨rfl, hvalue⟩
  · rw [Function.update_of_ne hne]
    exact h u f hunion hold
  · rw [Function.update_self]
    rcases hvalue with ⟨src, hsrc, hcopied⟩ | ⟨did, operands, rfl⟩
    · rw [Rvalue.lastWritten_of_rvalueLocal hsrc]
      exact h src f (by rw [hcopies src hsrc]; exact hunion) hcopied
    · rfl

/-- A write to a projected place changes the record of its base only. -/
theorem get_activeVariant_assignProjected_of_ne {u : Local} (hu : u ≠ dst.base) :
    (assignProjected tcx body dst rvalue s).activeVariant.get u = s.activeVariant.get u := by
  cases haccess : directUnionFieldAccess tcx body dst with
  | none => rw [activeVariant_assignProjected_of_none haccess]
  | some access =>
    have hbase : access.1 = dst.base := by
      rw [directUnionFieldAccess_eq] at haccess
      split at haccess
      · obtain ⟨f, -, rfl⟩ := Option.map_eq_some_iff.mp haccess
        rfl
      · cases haccess
    rw [activeVariant_assignProjected haccess, hbase]
    exact FMap.get_insert_of_ne _ _ hu

/-- A write into a union records the last field on the way, if there is one. -/
theorem get_activeVariant_assignProjected
    (hunion : (body.localTy dst.base).isUserUnion tcx = true) :
    (assignProjected tcx body dst rvalue s).activeVariant.get dst.base =
      (if dst.followsPointer then none else dst.fields.getLast?).or
        (s.activeVariant.get dst.base) := by
  have haccess : directUnionFieldAccess tcx body dst =
      (if dst.followsPointer then none else dst.fields.getLast?).map fun f => (dst.base, f) := by
    rw [directUnionFieldAccess_eq, Ty.behindPointer_of_isUserUnion hunion, if_pos hunion,
      dst.lastSimpleFieldIdx_eq]
  cases hlast : if dst.followsPointer then none else dst.fields.getLast? with
  | none =>
    rw [hlast] at haccess
    rw [activeVariant_assignProjected_of_none haccess, Option.none_or]
  | some f =>
    rw [hlast] at haccess
    rw [activeVariant_assignProjected haccess, FMap.get_insert_self, Option.some_or]

/-- The last field on the way to a place and the first one are both there or both missing. -/
theorem Place.endsInOwnField_iff (p : Place) : p.EndsInOwnField ↔
    (if p.followsPointer then none else p.fields.getLast?) = p.writtenField := by
  unfold Place.EndsInOwnField Place.writtenField
  cases p.followsPointer with
  | true => simp
  | false => simp

/-- Writing a union through a path that ends in its own field records that field. -/
theorem ActiveFieldsRight.assignProjected (h : ActiveFieldsRight tcx body s g)
    (hdst : (body.localTy dst.base).isUserUnion tcx = true → dst.EndsInOwnField) :
    ActiveFieldsRight tcx body (assignProjected tcx body dst rvalue s)
      (Function.update g dst.base (dst.writtenField.or (g dst.base))) := by
  intro u f hunion hactive
  by_cases hu : u = dst.base
  · subst hu
    rw [get_activeVariant_assignProjected hunion,
      dst.endsInOwnField_iff.mp (hdst hunion)] at hactive
    rw [Function.update_self]
    cases hfield : dst.writtenField with
    | none =>
      rw [hfield, Option.none_or] at hactive
      exact h dst.base f hunion hactive
    | some w =>
      rw [hfield] at hactive
      exact hactive
  · rw [get_activeVariant_assignProjected_of_ne hu] at hactive
    rw [Function.update_of_ne hu]
    exact h u f hunion hactive

theorem ActiveFieldsRight.invalidateOwner (h : ActiveFieldsRight tcx body s g) (l : Local) :
    ActiveFieldsRight tcx body (s.invalidateOwner l) g := by
  have hkept : (s.invalidateOwner l).activeVariant = s.activeVariant :=
    s.invalidateOwners_writes {l} .activeVariant (by decide)
  intro u f hunion hactive
  rw [hkept] at hactive
  exact h u f hunion hactive

/-- **One statement** keeps the recorded fields right if it writes unions through their own
fields. -/
theorem ActiveFieldsRight.applyStatement (h : ActiveFieldsRight tcx body s g) {stmt : Statement}
    (hcopies : stmt.CopiesTyped body) (hwrites : stmt.WritesOwnField tcx body) :
    ActiveFieldsRight tcx body (applyStatement tcx body stmt s) (g.step stmt) := by
  unfold San.applyStatement LastWritten.step
  cases hkind : stmt.kind with
  | other => exact h
  | assign dst rvalue =>
    have howner := h.invalidateOwner dst.base
    dsimp only
    cases hlocal : dst.isLocal with
    | true =>
      rw [if_pos rfl, if_pos rfl]
      exact howner.assignLocal fun src hsrc => hcopies dst rvalue src hkind hlocal hsrc
    | false =>
      rw [if_neg nofun, if_neg nofun]
      exact howner.assignProjected (hwrites dst rvalue hkind)

/-- **A sequence of statements** keeps them right if all its statements do. -/
theorem ActiveFieldsRight.applyStatements (h : ActiveFieldsRight tcx body s g)
    {stmts : List Statement} (hcopies : ∀ stmt ∈ stmts, stmt.CopiesTyped body)
    (hwrites : ∀ stmt ∈ stmts, stmt.WritesOwnField tcx body) :
    ActiveFieldsRight tcx body (applyStatements tcx body stmts s) (g.after stmts) := by
  induction stmts generalizing s g with
  | nil => exact h
  | cons stmt stmts ih =>
    have hstep := h.applyStatement (hcopies stmt List.mem_cons_self)
      (hwrites stmt List.mem_cons_self)
    exact ih hstep (fun x hx => hcopies x (List.mem_cons_of_mem _ hx))
      fun x hx => hwrites x (List.mem_cons_of_mem _ hx)

/-- **A write into a union through any other path** makes the record wrong, whatever it was. -/
theorem endsInOwnField_of_right {stmt : Statement} (hkind : stmt.kind = .assign dst rvalue)
    (hunion : (body.localTy dst.base).isUserUnion tcx = true)
    (h : ActiveFieldsRight tcx body (applyStatement tcx body stmt s) (g.step stmt)) :
    dst.EndsInOwnField := by
  unfold San.applyStatement LastWritten.step at h
  rw [hkind] at h
  dsimp only at h
  intro hpointer
  cases hfields : dst.fields with
  | nil => rfl
  | cons own rest =>
    have hlocal : dst.isLocal = false := by
      refine Bool.eq_false_iff.mpr fun hempty => ?_
      rw [Place.fields, List.isEmpty_iff.mp hempty] at hfields
      cases hfields
    have hlast : (own :: rest).getLast? = some ((own :: rest).getLast (List.cons_ne_nil _ _)) :=
      List.getLast?_eq_some_getLast _
    rw [hlocal, if_neg nofun, if_neg nofun] at h
    have hwritten := h dst.base _ hunion (by
      rw [get_activeVariant_assignProjected hunion, hpointer, if_neg nofun, hfields, hlast,
        Option.some_or])
    rw [Function.update_self, Place.writtenField, hpointer, if_neg nofun, hfields, List.head?_cons,
      Option.some_or] at hwritten
    rw [hlast, List.head?_cons, hwritten]

end Step

/-! ## The checker -/

/-- `PlaceTy::projection_ty`.  The types of elements of arrays, of the contents of boxes and of
casts are the compiler's. -/
def projectionTy (elemTy : Ty → ProjectionElem → Ty) : Ty → ProjectionElem → Ty
  | _, .field _ ty => ty
  | .rawPtr inner _, .deref => inner
  | .ref inner _, .deref => inner
  | ty, .downcast => ty
  | ty, elem => elemTy ty elem

namespace UnionField

/-- Does a path from a value of type `ty` go through a field of a union, and is the first such union
a user-defined one? -/
def crossesUnion (tcx : TyCtxt) (elemTy : Ty → ProjectionElem → Ty) :
    Ty → List ProjectionElem → Bool
  | _, [] => false
  | ty, elem :: rest =>
      if elem.isField ∧ ty.unionAdt.isSome then ty.isUserUnion tcx
      else crossesUnion tcx elemTy (projectionTy elemTy ty elem) rest

section Check
variable (tcx : TyCtxt) (body : Body) (elemTy : Ty → ProjectionElem → Ty)

def isUnionFieldPlace (place : Place) : Bool :=
  crossesUnion tcx elemTy (body.localTy place.base) place.projection

def writeNote : String :=
  "union field write — the stored bytes may be reinterpreted through a different field; ensure " ++
    "the written type's bit-pattern is valid for all subsequent field reads"

def readNote : String :=
  "union field read — verify the stored bytes are valid for the accessed field's type; reading " ++
    "a field whose invariants are not satisfied is UB (invalid bool, dangling reference, invalid " ++
    "enum discriminant, etc.)"

def wrongFieldNote (readIdx activeIdx : FieldIdx) : String :=
  "union field read of field " ++ toString readIdx.val ++ " but field " ++ toString activeIdx.val ++
    " was last written — the stored bytes are not valid for the type of field " ++
    toString readIdx.val ++ "; this is immediate UB (type confusion)"

/-- Every write to a field of a union is worth an audit. -/
def checkWrite (lhs : Place) (span : Span) : Option Finding :=
  if isUnionFieldPlace tcx body elemTy lhs then some ⟨"union_field", .warning, span, writeNote⟩
  else none

/-- The place that an rvalue reads or borrows. -/
def readPlace : Rvalue → Option Place
  | .use op => op.place
  | .ref p => some p
  | .rawPtr p => some p
  | _ => none

/-- The active field of the union that is read, if it is known, and the field that is read. -/
def maybeActive (place : Place) (state : Option BlockState) :
    Option (Option FieldIdx × FieldIdx) :=
  state.bind fun s => (directUnionFieldAccess tcx body place).map fun access =>
    (s.activeVariant.get access.1, access.2)

def checkRead (place : Place) (span : Span) (state : Option BlockState) : Option Finding :=
  if isUnionFieldPlace tcx body elemTy place then
    match maybeActive tcx body place state with
    | some (some activeIdx, readIdx) =>
        if activeIdx = readIdx then none
        else some ⟨"union_wrong_field", .error, span, wrongFieldNote readIdx activeIdx⟩
    | _ => some ⟨"union_field", .warning, span, readNote⟩
  else none

/-- What is found at a statement, given the state before it. -/
def checkStatement (stmt : Statement) (state : Option BlockState) : List Finding :=
  match stmt.kind with
  | .other => []
  | .assign lhs rhs =>
      (checkWrite tcx body elemTy lhs stmt.span).toList ++
        ((readPlace rhs).bind fun place => checkRead tcx body elemTy place stmt.span state).toList

/-- Walk over the statements of all blocks. -/
def check {body : Body} (flow : FlowResults body) : List Finding :=
  (List.finRange body.numBlocks).flatMap fun bb =>
    (body.basicBlocks bb).statements.zipIdx.flatMap fun (stmt, i) =>
      checkStatement tcx body elemTy stmt (flow.stateAtLocation tcx bb i)

/-- The read is reported as one of the wrong field. -/
def ReportsWrongField (place : Place) (s : BlockState) : Prop :=
  ∃ span finding, checkRead tcx body elemTy place span (some s) = some finding ∧
    finding.ruleId = "union_wrong_field"

/-- The read is passed over. -/
def Suppresses (place : Place) (s : BlockState) : Prop :=
  isUnionFieldPlace tcx body elemTy place = true ∧
    ∃ span, checkRead tcx body elemTy place span (some s) = none

end Check

section Verdict
variable {tcx : TyCtxt} {body : Body} {elemTy : Ty → ProjectionElem → Ty} {place : Place}
  {s : BlockState}

theorem checkRead_eq {l : Local} {readIdx activeIdx : FieldIdx} (span : Span)
    (hplace : isUnionFieldPlace tcx body elemTy place = true)
    (haccess : directUnionFieldAccess tcx body place = some (l, readIdx))
    (hactive : s.activeVariant.get l = some activeIdx) :
    checkRead tcx body elemTy place span (some s) =
      if activeIdx = readIdx then none
      else some ⟨"union_wrong_field", .error, span, wrongFieldNote readIdx activeIdx⟩ := by
  have hmaybe : maybeActive tcx body place (some s) = some (some activeIdx, readIdx) := by
    rw [maybeActive, haccess]
    exact congrArg (fun o => some (o, readIdx)) hactive
  rw [checkRead, if_pos hplace, hmaybe]

/-- **A read is judged by the record**, or is an audit if there is none. -/
theorem checkRead_cases (hplace : isUnionFieldPlace tcx body elemTy place = true) (span : Span) :
    (∃ l readIdx activeIdx, directUnionFieldAccess tcx body place = some (l, readIdx) ∧
      s.activeVariant.get l = some activeIdx) ∨
    checkRead tcx body elemTy place span (some s) =
      some ⟨"union_field", .warning, span, readNote⟩ := by
  cases haccess : directUnionFieldAccess tcx body place with
  | none =>
    have hmaybe : maybeActive tcx body place (some s) = none := by
      rw [maybeActive, haccess]
      rfl
    rw [checkRead, if_pos hplace, hmaybe]
    exact Or.inr rfl
  | some access =>
    cases hactive : s.activeVariant.get access.1 with
    | some activeIdx => exact Or.inl ⟨access.1, access.2, activeIdx, rfl, hactive⟩
    | none =>
      have hmaybe : maybeActive tcx body place (some s) = some (none, access.2) := by
        rw [maybeActive, haccess]
        exact congrArg (fun o => some (o, access.2)) hactive
      rw [checkRead, if_pos hplace, hmaybe]
      exact Or.inr rfl

/-- **A read is reported as wrong** only if another field is recorded than the one it is keyed
by. -/
theorem ReportsWrongField.recorded (h : ReportsWrongField tcx body elemTy place s) :
    isUnionFieldPlace tcx body elemTy place = true ∧ ∃ l readIdx activeIdx,
      directUnionFieldAccess tcx body place = some (l, readIdx) ∧
      s.activeVariant.get l = some activeIdx ∧ activeIdx ≠ readIdx := by
  obtain ⟨span, finding, hcheck, hrule⟩ := h
  have hplace : isUnionFieldPlace tcx body elemTy place = true := by
    by_contra hplace
    rw [checkRead, if_neg hplace] at hcheck
    cases hcheck
  rcases checkRead_cases hplace span with ⟨l, readIdx, activeIdx, haccess, hactive⟩ | haudit
  · refine ⟨hplace, l, readIdx, activeIdx, haccess, hactive, fun heq => ?_⟩
    rw [checkRead_eq span hplace haccess hactive, if_pos heq] at hcheck
    cases hcheck
  · rw [haudit] at hcheck
    obtain rfl := Option.some.inj hcheck
    exact absurd hrule (show "union_field" ≠ "union_wrong_field" by decide)

/-- **A read is passed over** only if the field it is keyed by is recorded. -/
theorem Suppresses.recorded (h : Suppresses tcx body elemTy place s) :
    ∃ l readIdx, directUnionFieldAccess tcx body place = some (l, readIdx) ∧
      s.activeVariant.get l = some readIdx := by
  obtain ⟨hplace, span, hcheck⟩ := h
  rcases checkRead_cases hplace span with ⟨l, readIdx, activeIdx, haccess, hactive⟩ | haudit
  · refine ⟨l, readIdx, haccess, ?_⟩
    rw [checkRead_eq span hplace haccess hactive] at hcheck
    split at hcheck
    · rename_i heq
      rw [hactive, heq]
    · cases hcheck
  · rw [haudit] at hcheck
    cases hcheck

end Verdict

/-! ## Right verdicts -/

/-- **A right verdict**: a read is reported as wrong only if it is of another field than the one
last written, and passed over only if it is of the same. -/
structure ReadRight (tcx : TyCtxt) (body : Body) (elemTy : Ty → ProjectionElem → Ty) (place : Place)
    (s : BlockState) (g : LastWritten) : Prop where
  wrong : ReportsWrongField tcx body elemTy place s →
    ∃ read written, place.fields.head? = some read ∧ g place.base = some written ∧ read ≠ written
  suppressed : Suppresses tcx body elemTy place s →
    ∃ read, place.fields.head? = some read ∧ g place.base = some read

section Right
variable {tcx : TyCtxt} {body : Body} {elemTy : Ty → ProjectionElem → Ty} {place : Place}
  {s : BlockState} {g : LastWritten}

/-- A read whose path ends in the union's own field is judged right. -/
theorem readRight_of_endsInOwnField (h : ActiveFieldsRight tcx body s g)
    (hunion : (body.localTy place.base).isUserUnion tcx = true)
    (hown : isUnionFieldPlace tcx body elemTy place = true → place.EndsInOwnField) :
    ReadRight tcx body elemTy place s g := by
  have hbehind : (body.localTy place.base).behindPointer.isUserUnion tcx = true := by
    rw [Ty.behindPointer_of_isUserUnion hunion]
    exact hunion
  have hkey : isUnionFieldPlace tcx body elemTy place = true → ∀ l f,
      directUnionFieldAccess tcx body place = some (l, f) →
      place.base = l ∧ place.fields.head? = some f := by
    intro hplace l f haccess
    obtain ⟨hl, hpointer, hlast⟩ := (directUnionFieldAccess_eq_some_iff hbehind).mp haccess
    exact ⟨hl, (hown hplace hpointer).symm.trans hlast⟩
  refine ⟨fun hwrong => ?_, fun hsilent => ?_⟩
  · obtain ⟨hplace, l, readIdx, activeIdx, haccess, hactive, hne⟩ := hwrong.recorded
    obtain ⟨rfl, hread⟩ := hkey hplace l readIdx haccess
    exact ⟨readIdx, activeIdx, hread, h _ _ hunion hactive, hne.symm⟩
  · obtain ⟨l, readIdx, haccess, hactive⟩ := hsilent.recorded
    obtain ⟨rfl, hread⟩ := hkey hsilent.1 l readIdx haccess
    exact ⟨readIdx, hread, h _ _ hunion hactive⟩

/-- The state in which `l` is recorded to hold the field `f`. -/
theorem activeFieldsRight_record (tcx : TyCtxt) (body : Body) (l : Local) (f : FieldIdx) :
    ActiveFieldsRight tcx body (BlockState.default.setActiveVariant l f) fun _ => some f := by
  intro u w _ hactive
  by_cases hu : u = l
  · rw [hu] at hactive
    exact (FMap.get_insert_self _ l f).symm.trans hactive
  · have hempty := (FMap.get_insert_of_ne BlockState.default.activeVariant f hu).symm.trans hactive
    cases hempty

/-- **A read through any other path** is passed over in a state that records the last field on the
way, although the field read is not the one last written. -/
theorem endsInOwnField_of_readRight (hunion : (body.localTy place.base).isUserUnion tcx = true)
    (hplace : isUnionFieldPlace tcx body elemTy place = true)
    (h : ∀ s g, ActiveFieldsRight tcx body s g → ReadRight tcx body elemTy place s g) :
    place.EndsInOwnField := by
  intro hpointer
  cases hlast : place.fields.getLast? with
  | none => rw [List.getLast?_eq_none_iff.mp hlast, List.head?_nil]
  | some f =>
    have haccess : directUnionFieldAccess tcx body place = some (place.base, f) := by
      refine (directUnionFieldAccess_eq_some_iff ?_).mpr ⟨rfl, hpointer, hlast⟩
      rw [Ty.behindPointer_of_isUserUnion hunion]
      exact hunion
    have hright := h _ _ (activeFieldsRight_record tcx body place.base f)
    have hsilent : Suppresses tcx body elemTy place
        (BlockState.default.setActiveVariant place.base f) := by
      refine ⟨hplace, .none, ?_⟩
      rw [checkRead_eq .none hplace haccess (FMap.get_insert_self _ _ _), if_pos rfl]
    obtain ⟨read, hread, hwritten⟩ := hright.suppressed hsilent
    rw [hread, hwritten]

end Right

/-- Reads of a union end in the field that they start with. -/
def ReadsOwnField (tcx : TyCtxt) (body : Body) (elemTy : Ty → ProjectionElem → Ty)
    (stmt : Statement) : Prop :=
  ∀ dst rvalue place, stmt.kind = .assign dst rvalue → readPlace rvalue = some place →
    (body.localTy place.base).isUserUnion tcx = true →
    isUnionFieldPlace tcx body elemTy place = true → place.EndsInOwnField

/-- The verdict on the read of a union at a statement is right. -/
def VerdictRight (tcx : TyCtxt) (body : Body) (elemTy : Ty → ProjectionElem → Ty)
    (stmt : Statement) (s : BlockState) (g : LastWritten) : Prop :=
  ∀ dst rvalue place, stmt.kind = .assign dst rvalue → readPlace rvalue = some place →
    (body.localTy place.base).isUserUnion tcx = true → ReadRight tcx body elemTy place s g

/-- **The active field is the one really written as long as all paths end in the union's own
field.**  Let a body be given and the statements that a sequence may be made of.  If all of them
write and read unions only through paths that end in the field they start with, then after every
sequence the recorded field of every union is the one it was last written through, and the verdict
on the next read is right.  If one of them does not, this fails.  The access of a union returns what
it is documented to return on direct accesses, on places that go through no field and on places
behind a pointer in the union; on all other nested places it does not. -/
theorem active_field_iff (tcx : TyCtxt) (body : Body) (elemTy : Ty → ProjectionElem → Ty)
    (allowed : Set Statement) (hcopies : ∀ stmt ∈ allowed, stmt.CopiesTyped body) :
    ((∀ stmts : List Statement, (∀ stmt ∈ stmts, stmt ∈ allowed) →
      ∀ s g, ActiveFieldsRight tcx body s g →
        ActiveFieldsRight tcx body (applyStatements tcx body stmts s) (g.after stmts) ∧
        ∀ stmt ∈ allowed, VerdictRight tcx body elemTy stmt (applyStatements tcx body stmts s)
          (g.after stmts)) ↔
      ∀ stmt ∈ allowed, stmt.WritesOwnField tcx body ∧ ReadsOwnField tcx body elemTy stmt) ∧
    ∀ place : Place, (body.localTy place.base).behindPointer.isUserUnion tcx = true →
      (directUnionFieldAccess tcx body place = place.directField.map (fun f => (place.base, f)) ↔
        place.directField.isSome = true ∨ place.fields = [] ∨ place.followsPointer = true) := by
  refine ⟨⟨fun hright stmt hstmt => ⟨?_, ?_⟩, fun hown stmts hallowed s g h => ?_⟩,
    fun place => directUnionFieldAccess_documented_iff⟩
  · -- A single write from a state with no records shows that its path must be right.
    intro dst rvalue hkind hunion
    have hempty : ActiveFieldsRight tcx body .default fun _ => none :=
      fun _ _ _ hactive => nomatch hactive
    exact endsInOwnField_of_right hkind hunion
      (hright [stmt] (List.forall_mem_singleton.mpr hstmt) _ _ hempty).1
  · intro dst rvalue place hkind hread hunion hplace
    refine endsInOwnField_of_readRight hunion hplace fun s g h => ?_
    exact (hright [] (List.forall_mem_nil _) s g h).2 stmt hstmt dst rvalue place hkind hread hunion
  · have hafter := h.applyStatements (fun stmt hstmt => hcopies stmt (hallowed stmt hstmt))
      fun stmt hstmt => (hown stmt (hallowed stmt hstmt)).1
    refine ⟨hafter, fun stmt hstmt dst rvalue place hkind hread hunion => ?_⟩
    exact readRight_of_endsInOwnField hafter hunion
      ((hown stmt hstmt).2 dst rvalue place hkind hread hunion)

/-- A pair of bytes, and a union of a byte and such a pair. -/
def pairTy : Ty := .tuple [.uint .u8, .uint .u8]
def cellTy : Ty := .adt ⟨⟨0, 0⟩, .union, 2⟩

/-- `_1.1 = 5`, or `_1.1.0 = 5` if `nested`; then both fields are read and `_1` is copied. -/
def accesses (nested : Bool) : List Statement :=
  [⟨.assign ⟨Local.ofNat 1, .field 1 pairTy :: if nested then [.field 0 (.uint .u8)] else []⟩
      (.use (.constant ⟨some 5, none⟩)), ⟨0, 1, false⟩⟩,
    ⟨.assign (Place.ofLocal (Local.ofNat 2))
      (.use (.copy ⟨Local.ofNat 1, [.field 0 (.uint .u8)]⟩)), ⟨1, 2, false⟩⟩,
    ⟨.assign (Place.ofLocal (Local.ofNat 3)) (.use (.copy ⟨Local.ofNat 1, [.field 1 pairTy]⟩)),
      ⟨2, 3, false⟩⟩,
    .set 4 (.use (.ofNat 1))]

def accessBody (nested : Bool) : Body :=
  .ofBlocks 0 0 [.other, cellTy, .uint .u8, pairTy, cellTy] 0
    (fun _ => [.of (accesses nested) .return]) (by cases nested <;> decide)

theorem accesses_typed (nested : Bool) :
    ∀ stmt ∈ accesses nested, stmt.CopiesTyped (accessBody nested) := by
  intro stmt hstmt dst rvalue src hkind hlocal hsrc
  simp only [accesses, List.mem_cons, List.not_mem_nil, or_false] at hstmt
  rcases hstmt with rfl | rfl | rfl | rfl
  · cases hkind
    cases hsrc
  · cases hkind
    cases hsrc
  · cases hkind
    cases hsrc
  · cases hkind
    cases hsrc
    rfl

/-- After a direct write of field 1 the union and its copy are recorded to hold field 1. -/
theorem direct_write_recorded :
    ActiveFieldsRight (.ofPaths []) (accessBody false)
      (applyStatements (.ofPaths []) (accessBody false) (accesses false) .default)
      (LastWritten.after (accesses false) fun _ => none) ∧
    (applyStatements (.ofPaths []) (accessBody false) (accesses false) .default).activeVariant.get
      (Local.ofNat 4) = some 1 ∧
    LastWritten.after (accesses false) (fun _ => none) (Local.ofNat 4) = some 1 := by
  have hown : ∀ stmt ∈ accesses false, stmt.WritesOwnField (.ofPaths []) (accessBody false) ∧
      ReadsOwnField (.ofPaths []) (accessBody false) (fun ty _ => ty) stmt := by
    intro stmt hstmt
    simp only [accesses, List.mem_cons, List.not_mem_nil, or_false] at hstmt
    rcases hstmt with rfl | rfl | rfl | rfl
    · refine ⟨?_, ?_⟩
      · rintro dst rvalue hkind -
        cases hkind
        exact fun _ => rfl
      · intro dst rvalue place hkind hread
        cases hkind
        cases hread
    all_goals
      refine ⟨?_, ?_⟩
      · rintro dst rvalue hkind -
        cases hkind
        exact fun _ => rfl
      · rintro dst rvalue place hkind hread - -
        cases hkind
        cases hread
        exact fun _ => rfl
  have hright := (active_field_iff (.ofPaths []) (accessBody false) (fun ty _ => ty)
    {stmt | stmt ∈ accesses false} (accesses_typed false)).1.mpr hown (accesses false)
    (fun _ hstmt => hstmt) .default (fun _ => none) fun _ _ _ hactive => nomatch hactive
  exact ⟨hright.1, by decide +kernel, by decide +kernel⟩

/-- **A nested write is taken for one of another field.**  After `_1.1.0 = 5` the union was last
written through field 1.  The read of field 0 is passed over, the read of field 1 is an error. -/
theorem nested_write_misjudged :
    LastWritten.after ((accesses true).take 1) (fun _ => none) (Local.ofNat 1) = some 1 ∧
    check (.ofPaths []) (fun ty _ => ty) (computeFlow (.ofPaths []) (accessBody true) ∅) =
      [⟨"union_field", .warning, ⟨0, 1, false⟩, writeNote⟩,
        ⟨"union_wrong_field", .error, ⟨2, 3, false⟩, wrongFieldNote 1 0⟩] := by
  refine ⟨by decide +kernel, ?_⟩
  have hdone : ((AssumeInit.flowOf (.ofPaths []) (accessBody true) ∅).step^[1]
      (AssumeInit.flowOf (.ofPaths []) (accessBody true) ∅).initial).work = [] := by
    decide +kernel
  obtain ⟨x, hx, hq⟩ := FlowProblem.exists_solution hdone (n := (0 : Fin 1))
    (q := fun s => decide (check (.ofPaths []) (fun ty _ => ty)
      (⟨fun _ => some s, ∅⟩ : FlowResults (accessBody true)) =
      [⟨"union_field", .warning, ⟨0, 1, false⟩, writeNote⟩,
        ⟨"union_wrong_field", .error, ⟨2, 3, false⟩, wrongFieldNote 1 0⟩]))
    (by decide +kernel)
  have hentry : (computeFlow (.ofPaths []) (accessBody true) ∅).entryStates = fun _ => some x := by
    funext bb
    rw [show bb = (0 : Fin 1) from Fin.fin_one_eq_zero bb]
    exact hx
  have hflow : computeFlow (.ofPaths []) (accessBody true) ∅ = ⟨fun _ => some x, ∅⟩ :=
    congrArg (FlowResults.mk · ∅) hentry
  rw [hflow]
  exact of_decide_eq_true hq

end UnionField

end San
