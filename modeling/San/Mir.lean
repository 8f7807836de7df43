import Mathlib

/-! # The fragment of MIR the analysis reads

The analysis runs over the compiler's MIR, which is not part of the repository.
This module transcribes the part of it that the transfer functions, the edge
refinement and the worklist inspect: places with their projections, operands,
rvalues, statements, terminators and bodies.  Variants that every modelled
function treats alike (`StatementKind` other than `Assign`, the rvalues of the
default arm) are one constructor `other`.

Block references are typed by the number of blocks of their body, and a `Body`
carries the facts that the compiler guarantees of its MIR: it has an entry block,
and every local it mentions is declared.

`TyCtxt` is the compiler's query interface, reduced to the queries the analysis
makes.  It is a parameter of the whole development.
-/
namespace San

abbrev U32 := Fin (2 ^ 32)
abbrev U64 := Fin (2 ^ 64)
abbrev U128 := Fin (2 ^ 128)

instance neZeroU32 : NeZero (2 ^ 32) := ⟨by decide⟩
instance neZeroU64 : NeZero (2 ^ 64) := ⟨by decide⟩
instance neZeroU128 : NeZero (2 ^ 128) := ⟨by decide⟩

theorem U64.pred_lt (k : U64) : k.val - 1 < 2 ^ 64 := Nat.lt_of_le_of_lt (Nat.sub_le _ _) k.isLt

/-- A local of a body; `_0` is the return place and `_1 ..= _argCount` are the
parameters. -/
structure Local where
  index : U32
deriving DecidableEq, Repr

theorem Local.ext_index {a b : Local} (h : a.index = b.index) : a = b := by
  cases a; cases b; cases h; rfl

instance : Finite Local :=
  Finite.of_injective Local.index fun _ _ h => Local.ext_index h

/-- Locals are ordered by index. -/
instance : LinearOrder Local := LinearOrder.lift' Local.index fun _ _ h => Local.ext_index h

/-- The return place. -/
def Local.returnPlace : Local := ⟨0⟩

abbrev FieldIdx := U32

/-- A definition, by its crate and its index there. -/
structure DefId where
  krate : Nat
  index : Nat
deriving DecidableEq, Repr

/-- The crate under analysis has number `0`. -/
def DefId.isLocal (d : DefId) : Bool := d.krate == 0

/-- Generic arguments are opaque to the analysis. -/
structure Substs where
  id : Nat
deriving DecidableEq, Repr

/-! ## Types -/

inductive Mutability
  | not
  | mut
deriving DecidableEq, Repr

inductive IntTy
  | isize | i8 | i16 | i32 | i64 | i128
deriving DecidableEq, Repr

inductive UintTy
  | usize | u8 | u16 | u32 | u64 | u128
deriving DecidableEq, Repr

inductive AdtKind
  | struct | union | enum
deriving DecidableEq, Repr

/-- An algebraic data type: its definition, its kind, and the number of fields of
its single variant (for structs and unions). -/
structure AdtDef where
  did : DefId
  kind : AdtKind
  numFields : Nat
deriving DecidableEq, Repr

def AdtDef.isUnion (a : AdtDef) : Bool := a.kind == .union
def AdtDef.isStruct (a : AdtDef) : Bool := a.kind == .struct

inductive Ty
  | bool
  | char
  | int (w : IntTy)
  | uint (w : UintTy)
  | float
  | rawPtr (pointee : Ty) (m : Mutability)
  | ref (referent : Ty) (m : Mutability)
  | adt (adt : AdtDef)
  | tuple (fields : List Ty)
  | other

def Ty.isRef : Ty → Bool
  | .ref _ _ => true
  | _ => false

def Ty.isRawPtr : Ty → Bool
  | .rawPtr _ _ => true
  | _ => false

/-- `TyKind::Int(..) | TyKind::Uint(..)`. -/
def Ty.isInteger : Ty → Bool
  | .int _ => true
  | .uint _ => true
  | _ => false

/-! ## Places, operands and rvalues -/

inductive ProjectionElem
  | deref
  | field (idx : FieldIdx) (ty : Ty)
  | index (l : Local)
  | downcast
  | other

def ProjectionElem.isDeref : ProjectionElem → Bool
  | .deref => true
  | _ => false

def ProjectionElem.isField : ProjectionElem → Bool
  | .field _ _ => true
  | _ => false

structure Place where
  base : Local
  projection : List ProjectionElem

/-- The place of a whole local. -/
def Place.ofLocal (l : Local) : Place := ⟨l, []⟩

/-- `place.projection.is_empty()`. -/
def Place.isLocal (p : Place) : Bool := p.projection.isEmpty

def Place.hasDeref (p : Place) : Bool := p.projection.any ProjectionElem.isDeref

/-- A constant operand: its scalar bits, when it is a scalar, and the function it
names, when it is of a function-item type. -/
structure Const where
  scalarInt : Option U128
  fnDef : Option (DefId × Substs)

inductive Operand
  | copy (p : Place)
  | move (p : Place)
  | constant (c : Const)

/-- `Operand::place`. -/
def Operand.place : Operand → Option Place
  | .copy p => some p
  | .move p => some p
  | .constant _ => none

/-- `Operand::const_fn_def`. -/
def Operand.constFnDef : Operand → Option (DefId × Substs)
  | .constant c => c.fnDef
  | _ => none

inductive CastKind
  | ptrToPtr
  | transmute
  | intToInt
  | intToFloat
  | floatToInt
  | floatToFloat
  | reifyFnPointer
  | other
deriving DecidableEq, Repr

inductive BinOp
  | add | addUnchecked | addWithOverflow
  | sub | subUnchecked | subWithOverflow
  | mul | mulUnchecked | mulWithOverflow
  | div | rem | bitXor | bitAnd | bitOr
  | shl | shlUnchecked | shr | shrUnchecked
  | eq | lt | le | ne | ge | gt | cmp | offset
deriving DecidableEq, Repr

inductive UnOp
  | not | neg | ptrMetadata
deriving DecidableEq, Repr

/-- `adt` carries the definition and, for a union literal, the field that is
initialised. -/
inductive AggregateKind
  | array
  | tuple
  | adt (did : DefId) (activeField : Option FieldIdx)
  | other

inductive Rvalue
  | use (op : Operand)
  | ref (p : Place)
  | rawPtr (p : Place)
  | cast (kind : CastKind) (op : Operand) (ty : Ty)
  | binaryOp (op : BinOp) (op1 op2 : Operand)
  | unaryOp (op : UnOp) (operand : Operand)
  | aggregate (kind : AggregateKind) (operands : List Operand)
  | other

/-! ## Statements, terminators and bodies -/

/-- A source range in bytes, and whether it comes from a macro expansion. -/
structure Span where
  lo : Nat
  hi : Nat
  fromExpansion : Bool
deriving DecidableEq, Repr

inductive StatementKind
  | assign (dst : Place) (rvalue : Rvalue)
  | other

structure Statement where
  kind : StatementKind
  span : Span

/-- The targets of a `SwitchInt`: one block for each listed value, and the block
taken otherwise. -/
structure SwitchTargets (n : Nat) where
  targets : List (U128 × Fin n)
  otherwise : Fin n

/-- `SwitchTargets::all_targets`. -/
def SwitchTargets.allTargets {n : Nat} (t : SwitchTargets n) : List (Fin n) :=
  t.targets.map Prod.snd ++ [t.otherwise]

inductive UnwindAction (n : Nat)
  | continue
  | unreachable
  | terminate
  | cleanup (bb : Fin n)

inductive TerminatorKind (n : Nat)
  | goto (target : Fin n)
  | switchInt (discr : Operand) (targets : SwitchTargets n)
  | unwindResume
  | unwindTerminate
  | return
  | unreachable
  | drop (place : Place) (target : Fin n) (unwind : UnwindAction n)
  | call (func : Operand) (args : List Operand) (destination : Place)
      (target : Option (Fin n)) (unwind : UnwindAction n)
  | tailCall
  | assert (cond : Operand) (expected : Bool) (target : Fin n) (unwind : UnwindAction n)
  | yield (resume : Fin n) (drop : Option (Fin n))
  | coroutineDrop
  | falseEdge (realTarget imaginaryTarget : Fin n)
  | falseUnwind (realTarget : Fin n) (unwind : UnwindAction n)
  | inlineAsm (targets : List (Fin n)) (unwind : UnwindAction n)

structure Terminator (n : Nat) where
  kind : TerminatorKind n
  span : Span

structure BasicBlockData (n : Nat) where
  statements : List Statement
  terminator : Option (Terminator n)

/-! ### The locals a piece of MIR mentions -/

def ProjectionElem.locals : ProjectionElem → List Local
  | .index l => [l]
  | _ => []

def Place.locals (p : Place) : List Local :=
  p.base :: p.projection.flatMap ProjectionElem.locals

def Operand.locals (op : Operand) : List Local :=
  (op.place.map Place.locals).getD []

def Rvalue.locals : Rvalue → List Local
  | .use op => op.locals
  | .ref p => p.locals
  | .rawPtr p => p.locals
  | .cast _ op _ => op.locals
  | .binaryOp _ op1 op2 => op1.locals ++ op2.locals
  | .unaryOp _ op => op.locals
  | .aggregate _ ops => ops.flatMap Operand.locals
  | .other => []

def Statement.locals (s : Statement) : List Local :=
  match s.kind with
  | .assign dst rv => dst.locals ++ rv.locals
  | .other => []

def Terminator.locals {n : Nat} (t : Terminator n) : List Local :=
  match t.kind with
  | .switchInt discr _ => discr.locals
  | .drop place _ _ => place.locals
  | .call func args destination _ _ =>
      func.locals ++ args.flatMap Operand.locals ++ destination.locals
  | .assert cond _ _ _ => cond.locals
  | _ => []

def BasicBlockData.locals {n : Nat} (d : BasicBlockData n) : List Local :=
  d.statements.flatMap Statement.locals ++ (d.terminator.map Terminator.locals).getD []

/-- The MIR of one function. -/
structure Body where
  numBlocks : Nat
  basicBlocks : Fin numBlocks → BasicBlockData numBlocks
  localDecls : List Ty
  argCount : Nat
  defId : DefId
  /-- There is an entry block. -/
  numBlocks_pos : 0 < numBlocks
  /-- The return place and the parameters are declared. -/
  args_declared : argCount < localDecls.length
  /-- Locals are numbered by 32-bit indices. -/
  locals_le : localDecls.length ≤ 2 ^ 32
  /-- Every local mentioned is declared. -/
  locals_declared : ∀ b, ∀ l ∈ (basicBlocks b).locals, l.index.val < localDecls.length

namespace Body
variable (body : Body)

abbrev BasicBlock := Fin body.numBlocks

/-- The entry block. -/
def entryBlock : body.BasicBlock := ⟨0, body.numBlocks_pos⟩

/-- `body.local_decls[l].ty`; a `Body` mentions declared locals only. -/
def localTy (l : Local) : Ty := body.localDecls.getD l.index.val .other

/-- Is `l` a declared local? -/
def Declares (l : Local) : Prop := l.index.val < body.localDecls.length

instance (l : Local) : Decidable (body.Declares l) :=
  inferInstanceAs (Decidable (_ < _))

variable {body} in
theorem declares_of_statement {b : body.BasicBlock} {stmt : Statement}
    (h : stmt ∈ (body.basicBlocks b).statements) {l : Local} (hl : l ∈ stmt.locals) :
    body.Declares l :=
  body.locals_declared b l (List.mem_append_left _ (List.mem_flatMap.mpr ⟨stmt, h, hl⟩))

variable {body} in
theorem declares_of_terminator {b : body.BasicBlock} {term : Terminator body.numBlocks}
    (h : (body.basicBlocks b).terminator = some term) {l : Local} (hl : l ∈ term.locals) :
    body.Declares l := by
  refine body.locals_declared b l (List.mem_append_right _ ?_)
  rw [h]
  exact hl

end Body

/-! ## Compiler queries -/

/-- What an instance resolves to: a function with a body of its own, or something
else (an intrinsic, a vtable shim, drop glue). -/
inductive InstanceKind
  | item (did : DefId)
  | other

/-- The compiler queries the analysis makes. -/
structure TyCtxt where
  /-- `def_path_str`. -/
  defPathStr : DefId → String
  /-- `crate_name(def_id.krate)`. -/
  crateName : DefId → String
  /-- `item_name`. -/
  itemName : DefId → String
  /-- `trait_of_assoc`: the trait an associated item is declared in. -/
  traitOfAssoc : DefId → Option DefId
  /-- `Instance::try_resolve(..).ok().flatten()` in the typing environment of the
  function given first. -/
  tryResolve : DefId → DefId → Substs → Option InstanceKind

/-! ## Writing bodies by hand -/

/-- `_n`. -/
def Local.ofNat (n : Nat) : Local := ⟨Fin.ofNat (2 ^ 32) n⟩

/-- The operand `copy _n`. -/
def Operand.ofNat (n : Nat) : Operand := .copy (Place.ofLocal (Local.ofNat n))

def Span.none : Span := ⟨0, 0, false⟩

/-- `_n = rvalue`. -/
def Statement.set (n : Nat) (rvalue : Rvalue) : Statement :=
  ⟨.assign (Place.ofLocal (Local.ofNat n)) rvalue, .none⟩

/-- A block with the given statements and terminator. -/
def BasicBlockData.of {n : Nat} (stmts : List Statement) (kind : TerminatorKind n) :
    BasicBlockData n := ⟨stmts, some ⟨kind, .none⟩⟩

/-- A call of the function item `did` that cannot unwind. -/
def TerminatorKind.callTo {n : Nat} (did : Nat) (args : List Operand) (dest : Nat)
    (target : Fin n) : TerminatorKind n :=
  .call (.constant ⟨none, some (⟨0, did⟩, ⟨0⟩)⟩) args (Place.ofLocal (Local.ofNat dest))
    (some target) .continue

/-- What `Body` requires of its blocks and declarations. -/
def Body.Valid {n : Nat} (blocks : Fin n → BasicBlockData n) (localDecls : List Ty)
    (argCount : Nat) : Prop :=
  argCount < localDecls.length ∧ localDecls.length ≤ 2 ^ 32 ∧
    ∀ b, ∀ l ∈ (blocks b).locals, l.index.val < localDecls.length

instance {n : Nat} (blocks : Fin n → BasicBlockData n) (localDecls : List Ty) (argCount : Nat) :
    Decidable (Body.Valid blocks localDecls argCount) :=
  inferInstanceAs (Decidable (_ ∧ _ ∧ ∀ b, ∀ l ∈ (blocks b).locals, _))

/-- The block at a place of a list of blocks. -/
def BasicBlockData.at {last : Nat}
    (blocks : (Nat → Fin (last + 1)) → List (BasicBlockData (last + 1))) (b : Fin (last + 1)) :
    BasicBlockData (last + 1) :=
  (blocks (Fin.ofNat (last + 1))).getD b.val ⟨[], none⟩

/-- The function `f` of the local crate, with blocks `0` to `last`.  The blocks are written
against a function that turns a number into a block. -/
def Body.ofBlocks (f : Nat) (argCount : Nat) (localDecls : List Ty) (last : Nat)
    (blocks : (Nat → Fin (last + 1)) → List (BasicBlockData (last + 1)))
    (h : Body.Valid (BasicBlockData.at blocks) localDecls argCount) : Body where
  numBlocks := last + 1
  basicBlocks := BasicBlockData.at blocks
  localDecls := localDecls
  argCount := argCount
  defId := ⟨0, f⟩
  numBlocks_pos := last.succ_pos
  args_declared := h.1
  locals_le := h.2.1
  locals_declared := h.2.2

/-- A compiler that knows the functions of the local crate by their paths only. -/
def TyCtxt.ofPaths (paths : List String) : TyCtxt where
  defPathStr id := paths.getD id.index ""
  crateName _ := ""
  itemName _ := ""
  traitOfAssoc _ := none
  tryResolve _ _ _ := none

end San
