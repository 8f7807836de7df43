import San.CallChecks
import San.Nonzero

/-! # Sizes of allocations

`Layout::from_size_align_unchecked(size, align)` is undefined unless `align` is a power of two and
`size`, rounded up to a multiple of it, is at most `isize::MAX`.  Two checkers share the work:
`layout_unchecked` reports a call unless its size is known to be small or its alignment is a
constant, and `alloc_size_overflow` reports sizes that come from arithmetic marked as overflowing.
The first part of this module says when calls that neither reports keep the contract
(`layout_contract_covered_iff`), the second part when arithmetic that is not marked did not wrap
(`unmarked_arithmetic_exact_iff`).
-/
namespace San

/-- `Layout::from_size_align_unchecked` and its variant for an `Alignment`. -/
def isUncheckedLayout (path : String) : Bool :=
  endsWith path "Layout::from_size_align_unchecked"
    || endsWith path "Layout::from_size_alignment_unchecked"

namespace LayoutUnchecked

/-- `isize::MAX / 2`. -/
def safeLayoutSize : U64 := 2 ^ 62 - 1

section
variable (args : List Operand)

/-- The alignment is a constant power of two. -/
def alignIsPow2 : Bool :=
  args[1]?.any fun align => (constU64 align).any fun v => decide v.val.isPowerOfTwo

/-- Is the finding for an unchecked layout suppressed? -/
def suppressed (s : BlockState) : Bool :=
  match nthArgLocal args 0 with
  | some size =>
      (s.constUpper.get size).any (fun upper => decide (upper ≤ safeLayoutSize))
        -- `alloc_size_overflow` reports the size
        || (alignIsPow2 args && decide (size ∈ s.maySets .mulOverflow))
  | none => alignIsPow2 args

end

def layoutNote (path : String) : String :=
  if endsWith path "Layout::from_size_alignment_unchecked" then
    "size must not overflow isize::MAX when rounded to the given Alignment; " ++
    "the `Alignment` type guarantees power-of-two but size overflow is still " ++
    "unchecked (nightly feature `ptr_alignment_type`)"
  else
    "align must be a power of two and size must not overflow " ++
    "isize::MAX when rounded to align; use `Layout::from_size_align` " ++
    "(returns Result) instead"

def alignmentNote : String :=
  "align must be a power of two; any other value produces an " ++
  "Alignment with an invalid internal representation (UB); " ++
  "use `Alignment::new` which returns Option " ++
  "(nightly feature `ptr_alignment_type`)"

/-- What the checker says about one call. -/
def checkCall (path : String) (call : CallSite) (state : Option BlockState) : Option Finding :=
  let report (fnName note : String) : Finding :=
    ⟨"layout_unchecked", .warning, call.span, "`" ++ fnName ++ "` — " ++ note⟩
  if isUncheckedLayout path then
    if state.any (suppressed call.args) then none
    else some (report (AssumeInit.lastSegment path) (layoutNote path))
  else if endsWith path "Alignment::new_unchecked" then
    some (report "Alignment::new_unchecked" alignmentNote)
  else none

def check (tcx : TyCtxt) {body : Body} (flow : FlowResults body) : List Finding :=
  checkCalls tcx flow checkCall

end LayoutUnchecked

namespace AllocSizeOverflow

/-- The functions that take a layout. -/
def allocators : List String :=
  ["GlobalAlloc::alloc", "GlobalAlloc::alloc_zeroed", "GlobalAlloc::realloc", "alloc::alloc",
    "alloc::alloc_zeroed", "alloc::realloc", "Allocator::allocate", "Allocator::allocate_zeroed",
    "Allocator::grow", "Allocator::grow_zeroed", "Allocator::shrink"]

def sizeMessage : String :=
  "`Layout::from_size_align_unchecked` — size argument came from " ++
  "arithmetic (mul/add) that can exceed isize::MAX without overflow " ++
  "check; wrapping produces a too-small allocation and heap overflow " ++
  "on subsequent writes; use `Layout::array::<T>(n)` or " ++
  "`n.checked_mul(size_of::<T>())` to handle overflow safely"

def layoutMessage (path : String) : String :=
  "`" ++ AssumeInit.lastSegment path ++ "` — layout passed to allocator has a size computed from " ++
  "arithmetic that can exceed isize::MAX without overflow check; " ++
  "the allocator will receive a too-small size and subsequent " ++
  "writes overflow the allocation; use `Layout::array::<T>(n)` " ++
  "or `n.checked_mul(size_of::<T>())` at the layout construction site"

/-- What the checker says about one call: the first argument is a size or a layout that is
marked. -/
def checkCall (path : String) (call : CallSite) (state : Option BlockState) : Option Finding :=
  let report (marked : MaySet) (message : String) (s : BlockState) : Option Finding :=
    (nthArgLocal call.args 0).bind fun l =>
      if l ∈ s.maySets marked then
        some ⟨"alloc_size_overflow", .warning, call.span, message⟩
      else none
  state.bind fun s =>
    if isUncheckedLayout path then report .mulOverflow sizeMessage s
    else if endsWithAny path allocators then report .layoutOverflow (layoutMessage path) s
    else none

def check (tcx : TyCtxt) {body : Body} (flow : FlowResults body) : List Finding :=
  checkCalls tcx flow checkCall

end AllocSizeOverflow

/-! ## The contract of a layout -/

/-- The least multiple of `align` that is at least `size`. -/
def roundUp (size align : Nat) : Nat := (size + align - 1) / align * align

/-- What `Layout::from_size_align_unchecked` asks of its caller. -/
def LayoutContract (size align : Nat) : Prop :=
  align.isPowerOfTwo ∧ roundUp size align ≤ isizeMax

instance (size align : Nat) : Decidable (LayoutContract size align) :=
  inferInstanceAs (Decidable (align.isPowerOfTwo ∧ roundUp size align ≤ isizeMax))

theorem roundUp_mono {size size' : Nat} (align : Nat) (h : size ≤ size') :
    roundUp size align ≤ roundUp size' align :=
  Nat.mul_le_mul_right align (Nat.div_le_div_right (Nat.sub_le_sub_right (Nat.add_le_add_right h _) 1))

theorem le_roundUp (size : Nat) {align : Nat} (h : 0 < align) : size ≤ roundUp size align := by
  have hmod := Nat.div_add_mod (size + align - 1) align
  have hlt := Nat.mod_lt (size + align - 1) h
  unfold roundUp
  rw [Nat.mul_comm]
  omega

/-- `v` is a `usize` that the operand may hold in a state: a constant holds its value, and a
whole local nothing above its bound. -/
structure Operand.MayHold (s : BlockState) (op : Operand) (v : Nat) : Prop where
  lt : v < 2 ^ 64
  const : ∀ k, constU64 op = some k → v = k.val
  upper : ∀ l u, operandLocal op = some l → s.constUpper.get l = some u → v ≤ u.val

section MayHold
variable {s : BlockState} {op : Operand} {v : Nat}

theorem constU64_of_operandLocal {l : Local} (h : operandLocal op = some l) :
    constU64 op = none := by
  cases op with
  | constant c => cases h
  | _ => rfl

/-- An operand with a known bound may reach it. -/
theorem Operand.MayHold.of_operandUpper {m : U64} (h : operandUpper s op = some m) :
    op.MayHold s m.val := by
  refine ⟨m.isLt, fun k hk => ?_, fun l u hl hu => ?_⟩
  · rw [operandUpper, hk] at h
    cases h
    rfl
  · rw [operandUpper, constU64_of_operandLocal hl, hl, Option.none_or, Option.bind_some, hu] at h
    cases h
    exact Nat.le_refl _

/-- An operand without one may hold anything. -/
theorem Operand.MayHold.of_operandUpper_none (h : operandUpper s op = none) (hv : v < 2 ^ 64) :
    op.MayHold s v := by
  obtain ⟨hconst, hupper⟩ := Option.or_eq_none_iff.mp h
  refine ⟨hv, fun k hk => ?_, fun l u hl hu => ?_⟩
  · rw [hconst] at hk
    cases hk
  · rw [hl, Option.bind_some, hu] at hupper
    cases hupper

/-- Every operand that is no constant may be zero. -/
theorem Operand.MayHold.zero (h : constU64 op = none) : op.MayHold s 0 :=
  ⟨by decide, fun k hk => (by rw [h] at hk; cases hk), fun _ _ _ _ => Nat.zero_le _⟩

theorem Operand.MayHold.le_operandUpper (h : op.MayHold s v) {m : U64}
    (hm : operandUpper s op = some m) : v ≤ m.val := by
  rcases Option.or_eq_some_iff.mp hm with hconst | ⟨_, hupper⟩
  · exact Nat.le_of_eq (h.const m hconst)
  · obtain ⟨l, hl, hu⟩ := Option.bind_eq_some_iff.mp hupper
    exact h.upper l m hl hu

/-- Every operand holds something. -/
theorem Operand.exists_mayHold (s : BlockState) (op : Operand) : ∃ v, op.MayHold s v := by
  cases h : operandUpper s op with
  | none => exact ⟨0, .of_operandUpper_none h (by decide)⟩
  | some m => exact ⟨m.val, .of_operandUpper h⟩

end MayHold

/-! ## Calls that neither checker reports -/

/-- Neither checker says anything about the call that ends `bb`. -/
def Unreported (tcx : TyCtxt) {body : Body} (flow : FlowResults body) (bb : body.BasicBlock) :
    Prop :=
  checkCallIn tcx flow LayoutUnchecked.checkCall bb = none ∧
    checkCallIn tcx flow AllocSizeOverflow.checkCall bb = none

/-- The size is a whole local that is not marked and has a small bound, or it is none and the
alignment is a constant power of two. -/
def LetPass (s : BlockState) (size align : Operand) : Prop :=
  (∃ l u, operandLocal size = some l ∧ s.constUpper.get l = some u ∧
    u ≤ LayoutUnchecked.safeLayoutSize ∧ l ∉ s.maySets .mulOverflow) ∨
  (operandLocal size = none ∧ ∃ k, constU64 align = some k ∧ k.val.isPowerOfTwo)

/-- The alignment is a constant, and together with it the bound of the size keeps the contract. -/
def ContractProven (s : BlockState) (size align : Operand) : Prop :=
  ∃ k m, constU64 align = some k ∧ operandUpper s size = some m ∧ LayoutContract m.val k.val

section Covered
variable {tcx : TyCtxt} {body : Body} {flow : FlowResults body} {bb : body.BasicBlock}
  {call : CallSite} {s : BlockState} {size align : Operand}

theorem alignIsPow2_iff :
    LayoutUnchecked.alignIsPow2 [size, align] = true ↔
      ∃ k, constU64 align = some k ∧ k.val.isPowerOfTwo := by
  simp only [LayoutUnchecked.alignIsPow2, List.getElem?_cons_succ, List.getElem?_cons_zero,
    Option.any_some, Option.any_eq_true, decide_eq_true_eq]

theorem layoutUnchecked_eq_none_iff {path : String} (hpath : isUncheckedLayout path = true) :
    LayoutUnchecked.checkCall path call (some s) = none ↔
      LayoutUnchecked.suppressed call.args s = true := by
  unfold LayoutUnchecked.checkCall
  rw [if_pos hpath]
  simp only [Option.any_some, ite_eq_left_iff, reduceCtorEq, imp_false, Bool.not_eq_true,
    Bool.not_eq_false]

theorem allocSizeOverflow_eq_none_iff {path : String} (hpath : isUncheckedLayout path = true) :
    AllocSizeOverflow.checkCall path call (some s) = none ↔
      ∀ l, nthArgLocal call.args 0 = some l → l ∉ s.maySets .mulOverflow := by
  unfold AllocSizeOverflow.checkCall
  simp only [Option.bind_some, if_pos hpath, Option.bind_eq_none_iff, ite_eq_right_iff,
    reduceCtorEq, imp_false]

/-- **What the two checkers let pass.** -/
theorem unreported_iff (hcall : body.callSite bb = some call) (hargs : call.args = [size, align])
    (hpath : isUncheckedLayout (tcx.defPathStr call.callee) = true)
    (hs : flow.stateBeforeTerminator tcx bb = some s) :
    Unreported tcx flow bb ↔ LetPass s size align := by
  unfold Unreported LetPass
  rw [checkCallIn_eq hcall hs, checkCallIn_eq hcall hs, layoutUnchecked_eq_none_iff hpath,
    allocSizeOverflow_eq_none_iff hpath, hargs]
  have harg : nthArgLocal [size, align] 0 = operandLocal size := rfl
  unfold LayoutUnchecked.suppressed
  rw [harg]
  cases hsize : operandLocal size with
  | none => simp [alignIsPow2_iff]
  | some l =>
    by_cases hmarked : l ∈ s.maySets .mulOverflow
    · simp [hmarked]
    · simp [hmarked, Option.any_eq_true]

/-- **The contract holds for whatever the operands may hold exactly if the state proves it.** -/
theorem contract_iff_proven :
    (∀ x a, size.MayHold s x → align.MayHold s a → LayoutContract x a) ↔
      ContractProven s size align := by
  constructor
  · intro h
    obtain ⟨x, hx⟩ := size.exists_mayHold s
    cases hk : constU64 align with
    | none => exact absurd (h x 0 hx (.zero hk)).1 (by decide)
    | some k =>
      have hupper : operandUpper s align = some k := by rw [operandUpper, hk, Option.some_or]
      have halign : align.MayHold s k.val := .of_operandUpper hupper
      cases hm : operandUpper s size with
      | none =>
        -- the largest `usize` is no size
        have hmax := h (2 ^ 64 - 1) k.val (.of_operandUpper_none hm (by decide)) halign
        have hle := le_roundUp (2 ^ 64 - 1) (Nat.pos_of_isPowerOfTwo hmax.1)
        exact absurd (Nat.le_trans hle hmax.2) (by decide)
      | some m => exact ⟨k, m, hk, hm, h m.val k.val (.of_operandUpper hm) halign⟩
  · rintro ⟨k, m, hk, hm, hpow, hround⟩ x a hx ha
    rw [ha.const k hk]
    exact ⟨hpow, Nat.le_trans (roundUp_mono k.val (hx.le_operandUpper hm)) hround⟩

end Covered

/-- **When the two checkers cover the contract.**  If neither reports a call of
`Layout::from_size_align_unchecked`, its contract holds for all arguments that the state allows
exactly if, for what they let pass, the alignment is a constant power of two and the size has a
bound that rounds up to at most `isize::MAX`. -/
theorem layout_contract_covered_iff (tcx : TyCtxt) (body : Body) (flow : FlowResults body)
    (bb : body.BasicBlock) (call : CallSite) (s : BlockState) (size align : Operand)
    (hcall : body.callSite bb = some call) (hargs : call.args = [size, align])
    (hpath : endsWith (tcx.defPathStr call.callee) "Layout::from_size_align_unchecked" = true)
    (hs : flow.stateBeforeTerminator tcx bb = some s) :
    (Unreported tcx flow bb →
      ∀ x a, size.MayHold s x → align.MayHold s a → LayoutContract x a) ↔
      (LetPass s size align → ContractProven s size align) := by
  have hlayout : isUncheckedLayout (tcx.defPathStr call.callee) = true := by
    rw [isUncheckedLayout, hpath, Bool.true_or]
  rw [unreported_iff hcall hargs hlayout hs, contract_iff_proven]

/-- The blocks of a function that makes a layout of the size `_1 & 15`. -/
def maskedSizeBlocks (align : Operand) (bb : Nat → Fin 2) : List (BasicBlockData 2) :=
  [.of [.set 3 (.binaryOp .bitAnd (.ofNat 1) (.constant ⟨some 15, none⟩))]
    (.callTo 0 [.ofNat 3, align] 0 (bb 1)), .of [] .return]

/-- The alignment is the constant `8`. -/
def constantAlign : Body :=
  .ofBlocks 1 2 [.other, .uint .usize, .uint .usize, .uint .usize] 1
    (maskedSizeBlocks (.constant ⟨some 8, none⟩)) (by decide)

/-- The alignment is the argument `_2`. -/
def unknownAlign : Body :=
  .ofBlocks 1 2 [.other, .uint .usize, .uint .usize, .uint .usize] 1
    (maskedSizeBlocks (.ofNat 2)) (by decide)

/-- The compiler, as far as these functions need it. -/
def layoutTcx : TyCtxt := .ofPaths ["core::alloc::Layout::from_size_align_unchecked"]

/-- The analysis of a function, up to its first call. -/
def startOf (body : Body) : FlowResults body := ⟨fun _ => some .default, ∅⟩

/-- A layout of at most `15` bytes that are aligned to `8` is not reported and keeps the
contract. -/
theorem constantAlign_covered :
    Unreported layoutTcx (startOf constantAlign) (0 : Fin 2) ∧ LayoutContract 15 8 := by
  obtain ⟨s, hs, hupper⟩ : ∃ s, (startOf constantAlign).stateBeforeTerminator layoutTcx
      (0 : Fin 2) = some s ∧ s.constUpper.get (Local.ofNat 3) = some 15 := by decide +kernel
  have hunreported : Unreported layoutTcx (startOf constantAlign) (0 : Fin 2) :=
    ⟨by decide +kernel, by decide +kernel⟩
  have hsize : operandUpper s (.ofNat 3) = some 15 := hupper
  have halign : (Operand.constant ⟨some 8, none⟩).MayHold s 8 := .of_operandUpper (m := 8) rfl
  exact ⟨hunreported, (layout_contract_covered_iff layoutTcx constantAlign (startOf constantAlign)
    (0 : Fin 2) ⟨⟨0, 0⟩, [.ofNat 3, .constant ⟨some 8, none⟩], Place.ofLocal ⟨0⟩, .none⟩ s _ _
    rfl rfl (by decide +kernel) hs).mpr (fun _ => ⟨8, 15, rfl, hsize, by decide⟩) hunreported 15 8
    (.of_operandUpper hsize) halign⟩

/-- A layout of at most `15` bytes is not reported, although any alignment is possible. -/
theorem unknownAlign_unreported :
    ∃ s, (startOf unknownAlign).stateBeforeTerminator layoutTcx (0 : Fin 2) = some s ∧
      (Operand.ofNat 3).MayHold s 15 ∧ (Operand.ofNat 2).MayHold s 3 ∧ ¬ LayoutContract 15 3 ∧
      Unreported layoutTcx (startOf unknownAlign) (0 : Fin 2) := by
  obtain ⟨s, hs, hsize, halign⟩ : ∃ s, (startOf unknownAlign).stateBeforeTerminator layoutTcx
      (0 : Fin 2) = some s ∧ s.constUpper.get (Local.ofNat 3) = some 15 ∧
      s.constUpper.get (Local.ofNat 2) = none := by decide +kernel
  exact ⟨s, hs, .of_operandUpper (m := 15) hsize, .of_operandUpper_none halign (by decide),
    by decide, by decide +kernel, by decide +kernel⟩

/-! ## Arithmetic that is not marked -/

/-- The operations that compute sizes. -/
inductive SizeOp
  | mul | add
deriving DecidableEq, Repr

namespace SizeOp

def exact : SizeOp → Nat → Nat → Nat
  | mul => (· * ·)
  | add => (· + ·)

def binOp : SizeOp → BinOp
  | mul => .mul
  | add => .add

/-- The operation of a build with overflow checks. -/
def withOverflow : SizeOp → BinOp
  | mul => .mulWithOverflow
  | add => .addWithOverflow

theorem exact_mono (o : SizeOp) {x x' y y' : Nat} (hx : x ≤ x') (hy : y ≤ y') :
    o.exact x y ≤ o.exact x' y' := by
  cases o with
  | mul => exact Nat.mul_le_mul hx hy
  | add => exact Nat.add_le_add hx hy

/-- The machine result is the exact one, cut to the width of the type. -/
theorem result_eq (o : SizeOp) (w : UintTy) (cty : Ty) (x y : Nat) :
    o.binOp.result (.uint w) cty x y = some (o.exact x y % 2 ^ w.bits) := by
  cases o with
  | mul =>
    refine congrArg some ?_
    rw [← Nat.cast_mul]
    exact Ty.wrap_natCast (.uint w) (x * y)
  | add =>
    refine congrArg some ?_
    rw [← Nat.cast_add]
    exact Ty.wrap_natCast (.uint w) (x + y)

/-- The statements that compute `dst` from `a` and `b`: the operation itself, or the operation
with an overflow flag and a read of the value half of its result. -/
def compute (o : SizeOp) (w : UintTy) (dst : Local) (a b : Operand) :
    Option (Local × Bool) → List StatementKind
  | none => [.assign (Place.ofLocal dst) (.binaryOp o.binOp a b)]
  | some (pair, isMove) =>
      let half : Place := ⟨pair, [.field 0 (.uint w)]⟩
      [.assign (Place.ofLocal pair) (.binaryOp o.withOverflow a b),
        .assign (Place.ofLocal dst) (.use (if isMove then .move half else .copy half))]

end SizeOp

/-- The bound of an operand of an assignment to `dst`, whose own bound is dropped first. -/
def boundFor (s : BlockState) (dst : Local) (op : Operand) : Option U64 :=
  (constU64 op).or ((operandLocal op).bind (s.constUpper.erase dst).get)

section Marks
variable {s t : BlockState} {dst : Local} {a b : Operand}

/-- An assignment first drops the mark and the bound of its destination. -/
theorem startAssign_mulOverflow (body : Body) (rvalue : Rvalue) :
    (startAssign body dst rvalue s).maySets .mulOverflow =
      (s.maySets .mulOverflow).erase dst := by
  have hbase : (startAssign body dst rvalue s).maySets .mulOverflow =
      (redefine body dst rvalue (s.invalidateOwner dst)).maySets .mulOverflow :=
    recordRefBase_writes _ dst rvalue (.maySet .mulOverflow) (by decide)
  have hclear : (updateFnPtrTarget dst rvalue (updateOwnerAlias body dst rvalue
      (s.invalidateOwner dst)) |>.clearRedefined dst).maySets .mulOverflow =
      (updateFnPtrTarget dst rvalue (updateOwnerAlias body dst rvalue
        (s.invalidateOwner dst))).maySets .mulOverflow :=
    BlockState.clearRedefined_writes _ dst (.maySet .mulOverflow) (by decide)
  have hlookup : (updateFnPtrTarget dst rvalue (updateOwnerAlias body dst rvalue
      (s.invalidateOwner dst))).maySets .mulOverflow = (s.invalidateOwner dst).maySets .mulOverflow :=
    lookup_writes _ body dst rvalue (.maySet .mulOverflow) (by decide)
  have howner : (s.invalidateOwner dst).maySets .mulOverflow = s.maySets .mulOverflow :=
    s.invalidateOwners_writes {dst} (.maySet .mulOverflow) (by decide)
  rw [hbase, ← howner, ← hlookup, ← hclear]
  rfl

theorem startAssign_constUpper (body : Body) (rvalue : Rvalue) :
    (startAssign body dst rvalue s).constUpper = s.constUpper.erase dst := by
  have hbase : (startAssign body dst rvalue s).constUpper =
      (redefine body dst rvalue (s.invalidateOwner dst)).constUpper :=
    recordRefBase_writes _ dst rvalue .constUpper (by decide)
  have howner : (s.invalidateOwner dst).constUpper = s.constUpper :=
    s.invalidateOwners_writes {dst} .constUpper (by decide)
  rw [hbase, redefine_constUpper, howner]

/-- A product or sum is marked unless both operands have bounds that keep it small. -/
theorem mem_boundArith_mulOverflow {f : Nat → Nat → Nat} :
    dst ∉ (boundArith f dst a b s).maySets .mulOverflow ↔
      ∃ ua ub, operandUpper s a = some ua ∧ operandUpper s b = some ub ∧
        f ua.val ub.val ≤ isizeMax := by
  unfold boundArith
  cases ha : operandUpper s a with
  | none => simp [BlockState.insertMay, BlockState.onMaySets]
  | some ua =>
    cases hb : operandUpper s b with
    | none => simp [BlockState.insertMay, BlockState.onMaySets]
    | some ub =>
      by_cases hlt : isizeMax < f ua.val ub.val
      · simp [hlt, BlockState.insertMay, BlockState.onMaySets]
      · simp [hlt, BlockState.onMaySets, Nat.le_of_not_lt hlt]

/-- The bounds of the operands when the operation is recorded. -/
theorem operandUpper_enterBinaryOp {body : Body} {op : BinOp} (x : Operand) :
    operandUpper (enterBinaryOp op a b dst (startAssign body dst (.binaryOp op a b) s)) x =
      boundFor s dst x := by
  have henter : (enterBinaryOp op a b dst (startAssign body dst (.binaryOp op a b) s)).constUpper =
      (startAssign body dst (.binaryOp op a b) s).constUpper :=
    enterBinaryOp_writes _ op a b dst .constUpper (by decide)
  unfold operandUpper boundFor
  rw [henter, startAssign_constUpper]

/-- What is known of the type of a local marks nothing. -/
theorem enforceTypeFacts_mulOverflow (tcx : TyCtxt) (l : Local) (ty : Ty) :
    (enforceTypeFacts tcx l ty s).maySets .mulOverflow = s.maySets .mulOverflow :=
  enforceTypeFacts_writes s tcx l ty (.maySet .mulOverflow) (by decide)

/-- **What marks a product or sum.** -/
theorem unmarked_iff (tcx : TyCtxt) {body : Body} {stmt : Statement} {op : BinOp}
    {f : Nat → Nat → Nat} (hstmt : stmt.kind = .assign (Place.ofLocal dst) (.binaryOp op a b))
    (hop : ∀ t, (recordBinaryOp body op a b dst t).maySets .mulOverflow =
      (boundArith f dst a b t).maySets .mulOverflow) :
    dst ∉ (applyStatement tcx body stmt s).maySets .mulOverflow ↔
      ∃ ua ub, boundFor s dst a = some ua ∧ boundFor s dst b = some ub ∧
        f ua.val ub.val ≤ isizeMax := by
  have heq : (applyStatement tcx body stmt s).maySets .mulOverflow =
      (boundArith f dst a b (enterBinaryOp op a b dst
        (startAssign body dst (.binaryOp op a b) s))).maySets .mulOverflow := by
    rw [applyStatement_binaryOp tcx body hstmt, enforceTypeFacts_mulOverflow]
    exact hop _
  rw [heq, mem_boundArith_mulOverflow, operandUpper_enterBinaryOp, operandUpper_enterBinaryOp]

/-- The mark of a read is that of the base. -/
theorem assignFieldRead_mulOverflow (src : Place) :
    dst ∈ (assignFieldRead src dst s).maySets .mulOverflow ↔
      src.base ∈ s.maySets .mulOverflow := by
  have hclear : ∀ o, (((s.setObjects dst o).dropProto dst).clearScalarFacts dst).maySets
      .mulOverflow = s.maySets .mulOverflow := fun o =>
    ((s.setObjects_writes dst o (.maySet .mulOverflow) (by decide)).trans
      (BlockState.dropProto_writes _ dst (.maySet .mulOverflow) (by decide))).trans
      (clearScalarFacts_writes _ dst (.maySet .mulOverflow) (by decide))
  show dst ∈ copySet src.base dst _ ↔ _
  rw [hclear]
  unfold copySet
  by_cases h : src.base ∈ s.maySets .mulOverflow
  · simp [h]
  · simp [h]

/-- **A read of a field inherits the mark of its base.** -/
theorem mark_of_fieldRead (tcx : TyCtxt) {body : Body} {stmt : Statement} {rvalue : Rvalue}
    {pair : Local} {f : FieldIdx} {ty : Ty} (hne : pair ≠ dst)
    (hread : rvalue = .use (.copy ⟨pair, [.field f ty]⟩) ∨
      rvalue = .use (.move ⟨pair, [.field f ty]⟩))
    (hstmt : stmt.kind = .assign (Place.ofLocal dst) rvalue) :
    dst ∈ (applyStatement tcx body stmt s).maySets .mulOverflow ↔
      pair ∈ s.maySets .mulOverflow := by
  have hassign : ∀ u, assignRvalue tcx body dst rvalue (recordLenOf dst rvalue
      (propagateRvalue dst rvalue u)) = assignFieldRead ⟨pair, [.field f ty]⟩ dst u := by
    intro u
    rcases hread with rfl | rfl <;> rfl
  have hmem : pair ∈ (startAssign body dst rvalue s).maySets .mulOverflow ↔
      pair ∈ s.maySets .mulOverflow := by
    rw [startAssign_mulOverflow, Finset.mem_erase, and_iff_right hne]
  rw [applyStatement_assign tcx body hstmt, assignLocal_eq, enforceTypeFacts_mulOverflow, hassign,
    assignFieldRead_mulOverflow]
  exact hmem

/-- **What marks the result of a computation.** -/
theorem compute_unmarked_iff (tcx : TyCtxt) {body : Body} (o : SizeOp) {w : UintTy}
    (hdst : body.localTy dst = .uint w) {via : Option (Local × Bool)}
    (hvia : ∀ pair ∈ via, body.localTy pair.1 = .tuple [.uint w, .bool]) {stmts : List Statement}
    (hstmts : stmts.map Statement.kind = o.compute w dst a b via) :
    dst ∉ (applyStatements tcx body stmts s).maySets .mulOverflow ↔
      ∃ ua ub, boundFor s ((via.map Prod.fst).getD dst) a = some ua ∧
        boundFor s ((via.map Prod.fst).getD dst) b = some ub ∧ o.exact ua.val ub.val ≤ isizeMax := by
  cases via with
  | none =>
    obtain ⟨stmt, rfl, hstmt⟩ := List.map_eq_singleton_iff.mp hstmts
    refine unmarked_iff tcx hstmt fun t => ?_
    cases o with
    | mul => rfl
    | add =>
      have hint : (body.localTy dst).isInteger = true := by rw [hdst]; rfl
      exact congrArg (fun u => (clearComparisons dst u).maySets .mulOverflow) (if_pos hint)
  | some pair =>
    obtain ⟨pair, isMove⟩ := pair
    obtain ⟨first, rest, rfl, hfirst, hrest⟩ := List.map_eq_cons_iff.mp hstmts
    obtain ⟨second, rfl, hsecond⟩ := List.map_eq_singleton_iff.mp hrest
    have hpair : body.localTy pair = .tuple [.uint w, .bool] := hvia _ rfl
    have hne : pair ≠ dst := by
      rintro rfl
      rw [hdst] at hpair
      cases hpair
    have hform : Rvalue.use (if isMove then .move ⟨pair, [.field 0 (.uint w)]⟩
          else .copy ⟨pair, [.field 0 (.uint w)]⟩) = .use (.copy ⟨pair, [.field 0 (.uint w)]⟩) ∨
        Rvalue.use (if isMove then .move ⟨pair, [.field 0 (.uint w)]⟩
          else .copy ⟨pair, [.field 0 (.uint w)]⟩) = .use (.move ⟨pair, [.field 0 (.uint w)]⟩) := by
      cases isMove with
      | false => exact Or.inl rfl
      | true => exact Or.inr rfl
    have hread : dst ∈ (applyStatement tcx body second (applyStatement tcx body first s)).maySets
        .mulOverflow ↔ pair ∈ (applyStatement tcx body first s).maySets .mulOverflow :=
      mark_of_fieldRead tcx hne hform hsecond
    refine (not_congr hread).trans (unmarked_iff tcx hfirst fun t => ?_)
    cases o with
    | mul => rfl
    | add =>
      have hint : (body.localTy pair).firstComponent.isInteger = true := by rw [hpair]; rfl
      exact congrArg (fun u : BlockState => u.maySets .mulOverflow) (if_pos hint)

end Marks

/-- The largest value of the type. -/
def UintTy.max (w : UintTy) : Nat := 2 ^ w.bits - 1

/-- `x` and `y` are values of the type that the operands may hold. -/
structure SizeOperands (w : UintTy) (s : BlockState) (a b : Operand) (x y : Nat) : Prop where
  lhs : a.MayHold s x
  rhs : b.MayHold s y
  lhs_le : x ≤ w.max
  rhs_le : y ≤ w.max
  same : ∀ l, operandLocal a = some l → operandLocal b = some l → x = y

section Exact
variable {w : UintTy} {s : BlockState} {dst : Local} {a b : Operand}

/-- A bound that is left when that of `dst` is dropped was there before. -/
theorem operandUpper_of_boundFor {op : Operand} {u : U64} (h : boundFor s dst op = some u) :
    operandUpper s op = some u := by
  rcases Option.or_eq_some_iff.mp h with hconst | ⟨hnone, hbind⟩
  · rw [operandUpper, hconst, Option.some_or]
  · obtain ⟨l, hl, hget⟩ := Option.bind_eq_some_iff.mp hbind
    rw [operandUpper, hnone, hl, Option.none_or, Option.bind_some,
      (FMap.get_erase_eq_some_iff.mp hget).2]

/-- Below its bound, a value of the type may be any that is not a constant. -/
theorem Operand.MayHold.min_of_operandUpper {op : Operand} {u : U64}
    (hconst : ∀ k, constU64 op = some k → k.val ≤ w.max) (hu : operandUpper s op = some u) :
    op.MayHold s (min u.val w.max) := by
  have hreach : op.MayHold s u.val := .of_operandUpper hu
  refine ⟨Nat.lt_of_le_of_lt (Nat.min_le_left _ _) u.isLt, fun k hk => ?_, fun l v hl hv => ?_⟩
  · rw [hreach.const k hk]
    exact Nat.min_eq_left (hconst k hk)
  · exact Nat.le_trans (Nat.min_le_left _ _) (hreach.upper l v hl hv)

/-- Two operands may reach their bounds together. -/
theorem SizeOperands.of_bounds {ua ub : U64} (ha : ∀ k, constU64 a = some k → k.val ≤ w.max)
    (hb : ∀ k, constU64 b = some k → k.val ≤ w.max) (hua : operandUpper s a = some ua)
    (hub : operandUpper s b = some ub) :
    SizeOperands w s a b (min ua.val w.max) (min ub.val w.max) := by
  refine ⟨.min_of_operandUpper ha hua, .min_of_operandUpper hb hub, Nat.min_le_right _ _,
    Nat.min_le_right _ _, fun l hl hl' => ?_⟩
  rw [operandUpper, constU64_of_operandLocal hl, hl] at hua
  rw [operandUpper, constU64_of_operandLocal hl', hl'] at hub
  rw [Option.some.inj (hua.symm.trans hub)]

theorem UintTy.mod_eq_iff {n : Nat} : n % 2 ^ w.bits = n ↔ n ≤ w.max := by
  have hpos : 0 < 2 ^ w.bits := Nat.two_pow_pos _
  rw [Nat.mod_eq_iff_lt (Nat.ne_of_gt hpos), UintTy.max]
  omega

end Exact

/-- **When arithmetic that is not marked did not wrap.**  The result of a product or sum that
ends up unmarked is exact, and at most `isize::MAX`, for all operands that the state allows
exactly if the bounds that left it unmarked, cut to the type, have a product or sum that fits the
type. -/
theorem unmarked_arithmetic_exact_iff (tcx : TyCtxt) (body : Body) (o : SizeOp) (w : UintTy)
    (dst : Local) (a b : Operand) (via : Option (Local × Bool)) (stmts : List Statement)
    (s : BlockState) (hdst : body.localTy dst = .uint w)
    (hvia : ∀ pair ∈ via, body.localTy pair.1 = .tuple [.uint w, .bool])
    (ha : ∀ k, constU64 a = some k → k.val ≤ w.max)
    (hb : ∀ k, constU64 b = some k → k.val ≤ w.max)
    (hstmts : stmts.map Statement.kind = o.compute w dst a b via) :
    (∀ x y, SizeOperands w s a b x y →
      dst ∉ (applyStatements tcx body stmts s).maySets .mulOverflow →
      o.binOp.result (.uint w) (.uint w) x y = some (o.exact x y) ∧ o.exact x y ≤ isizeMax) ↔
    (∀ ua ub, boundFor s ((via.map Prod.fst).getD dst) a = some ua →
      boundFor s ((via.map Prod.fst).getD dst) b = some ub → o.exact ua.val ub.val ≤ isizeMax →
      o.exact (min ua.val w.max) (min ub.val w.max) ≤ w.max) := by
  rw [compute_unmarked_iff tcx o hdst hvia hstmts]
  simp only [o.result_eq, Option.some.injEq, UintTy.mod_eq_iff]
  constructor
  · intro h ua ub hua hub hsmall
    have hmay := SizeOperands.of_bounds ha hb (operandUpper_of_boundFor hua)
      (operandUpper_of_boundFor hub)
    exact (h _ _ hmay ⟨ua, ub, hua, hub, hsmall⟩).1
  · rintro h x y hxy ⟨ua, ub, hua, hub, hsmall⟩
    have hx := hxy.lhs.le_operandUpper (operandUpper_of_boundFor hua)
    have hy := hxy.rhs.le_operandUpper (operandUpper_of_boundFor hub)
    exact ⟨Nat.le_trans (o.exact_mono (Nat.le_min.mpr ⟨hx, hxy.lhs_le⟩)
      (Nat.le_min.mpr ⟨hy, hxy.rhs_le⟩)) (h ua ub hua hub hsmall),
      Nat.le_trans (o.exact_mono hx hy) hsmall⟩

/-- A function with numbers of one type: `_3` is computed from `_1` and `_2`. -/
def numbers (w : UintTy) : Body :=
  .ofBlocks 1 2 [.other, .uint w, .uint w, .uint w] 0 (fun _ => [.of [] .return])
    (by cases w <;> decide)

/-- The state in which `_1` and `_2` are known to be at most `ub`. -/
def bothAtMost (ub : U64) : BlockState :=
  { BlockState.default with
    constUpper := (FMap.insert ∅ (Local.ofNat 1) ub).insert (Local.ofNat 2) ub }

/-- The product of two `usize`s that are at most `1000` is not marked, and exact. -/
theorem product_of_small_exact :
    Local.ofNat 3 ∉ (applyStatements (.ofPaths []) (numbers .usize)
      [.set 3 (.binaryOp .mul (.ofNat 1) (.ofNat 2))] (bothAtMost 1000)).maySets .mulOverflow ∧
    BinOp.mul.result (.uint .usize) (.uint .usize) 1000 1000 = some (1000 * 1000) := by
  have hunmarked : Local.ofNat 3 ∉ (applyStatements (.ofPaths []) (numbers .usize)
      [.set 3 (.binaryOp .mul (.ofNat 1) (.ofNat 2))] (bothAtMost 1000)).maySets .mulOverflow := by
    decide +kernel
  have hholds : SizeOperands .usize (bothAtMost 1000) (.ofNat 1) (.ofNat 2) 1000 1000 :=
    ⟨.of_operandUpper (m := 1000) rfl, .of_operandUpper (m := 1000) rfl, by decide, by decide,
      fun _ _ _ => rfl⟩
  have hfits : ∀ ua ub, boundFor (bothAtMost 1000) (Local.ofNat 3) (.ofNat 1) = some ua →
      boundFor (bothAtMost 1000) (Local.ofNat 3) (.ofNat 2) = some ub →
      SizeOp.mul.exact ua.val ub.val ≤ isizeMax →
      SizeOp.mul.exact (min ua.val UintTy.usize.max) (min ub.val UintTy.usize.max) ≤
        UintTy.usize.max := by
    intro ua ub hua hub _
    cases hua
    cases hub
    decide
  exact ⟨hunmarked, ((unmarked_arithmetic_exact_iff (.ofPaths []) (numbers .usize) .mul .usize
    (Local.ofNat 3) (.ofNat 1) (.ofNat 2) none _ (bothAtMost 1000) rfl nofun nofun nofun rfl).mpr
    hfits 1000 1000 hholds hunmarked).1⟩

/-- The product of two `u32`s that are at most `2 ^ 20` is not marked either, but wraps. -/
theorem product_of_u32_wraps :
    Local.ofNat 3 ∉ (applyStatements (.ofPaths []) (numbers .u32)
      [.set 3 (.binaryOp .mul (.ofNat 1) (.ofNat 2))] (bothAtMost (2 ^ 20))).maySets .mulOverflow ∧
    SizeOperands .u32 (bothAtMost (2 ^ 20)) (.ofNat 1) (.ofNat 2) (2 ^ 20) (2 ^ 20) ∧
    BinOp.mul.result (.uint .u32) (.uint .u32) (2 ^ 20) (2 ^ 20) = some 0 :=
  ⟨by decide +kernel, ⟨.of_operandUpper (m := 2 ^ 20) rfl, .of_operandUpper (m := 2 ^ 20) rfl,
    by decide, by decide, fun _ _ _ => rfl⟩, by decide +kernel⟩

end San
