import San.CallChecks
import San.Values

/-! # The `unchecked_int_arith` checker

The unchecked operations on integers are undefined unless their result fits the type, or the
shift amount is less than its width.  The checker suppresses a finding when the constant bounds
of the operands prove this.  What it tests is right for additions and multiplications, for
subtractions of unsigned integers of at most 64 bits, and for shifts of integers of a fixed width
up to 64 bits; `unchecked_suppression_sound_iff` says that it is wrong for all the rest.
-/
namespace San

/-! ## Integers as numbers -/

/-- `x` is a value of the integer type. -/
def Ty.Holds (ty : Ty) (x : Int) : Prop :=
  if ty.signed = true then -2 ^ (ty.bits - 1) ≤ x ∧ x < 2 ^ (ty.bits - 1)
  else 0 ≤ x ∧ x < 2 ^ ty.bits

instance (ty : Ty) (x : Int) : Decidable (ty.Holds x) :=
  inferInstanceAs (Decidable (if ty.signed = true then
    -2 ^ (ty.bits - 1) ≤ x ∧ x < 2 ^ (ty.bits - 1) else 0 ≤ x ∧ x < 2 ^ ty.bits))

theorem Ty.holds_unsigned {ty : Ty} (h : ty.signed = false) {x : Int} :
    ty.Holds x ↔ 0 ≤ x ∧ x < 2 ^ ty.bits := by
  simp only [Ty.Holds, h, Bool.false_eq_true, if_false]

namespace UncheckedIntArith

/-! ## The checker -/

/-- The operations, in the order in which the checker looks for them, each with what is said
about it. -/
def notes : List (String × String) :=
  [("unchecked_add",
      "overflow is UB (not a panic or wrap); the optimizer may " ++
      "eliminate branches guarded by the assumption that addition cannot overflow"),
    ("unchecked_sub",
      "underflow is UB; unsigned underflow (lhs < rhs) and signed overflow " ++
      "are both immediate UB — use `checked_sub` or `wrapping_sub` if unsure"),
    ("unchecked_mul",
      "overflow is UB; multiplicative overflow on size/length values is a " ++
      "frequent source of allocator bugs (CVE-class: integer overflow → heap OOB)"),
    ("unchecked_shl",
      "shift amount must be < bit-width of the type; any larger shift is UB " ++
      "(not masked like `<<` in C — LLVM may produce poison)"),
    ("unchecked_shr",
      "shift amount must be < bit-width of the type; any larger shift is UB"),
    ("unchecked_neg",
      "negating T::MIN is UB (no positive counterpart); for i8: " ++
      "`(-128i8).unchecked_neg()` is immediately undefined behaviour"),
    ("unchecked_div",
      "divisor must be non-zero; dividing by zero is UB (not a panic); " ++
      "for signed types T::MIN / -1 is also UB (nightly feature `division_unchecked`)"),
    ("unchecked_rem",
      "divisor must be non-zero; remainder with zero divisor is UB; " ++
      "for signed types T::MIN % -1 is also UB (nightly feature `division_unchecked`)"),
    ("unchecked_div_exact",
      "divisor must be non-zero, self must be exactly divisible by rhs (no remainder), " ++
      "and for signed types T::MIN / -1 is UB; all three conditions must hold simultaneously " ++
      "(nightly feature `exact_div`)"),
    ("unchecked_shl_exact",
      "shift amount must be < bit-width; additionally the shifted-out bits must all " ++
      "be zero (no 1-bits lost); both conditions are UB if violated " ++
      "(nightly feature `exact_bitshifts`)"),
    ("unchecked_shr_exact",
      "shift amount must be < bit-width; the shifted-out low bits must all be zero; " ++
      "both conditions are UB if violated (nightly feature `exact_bitshifts`)"),
    ("unchecked_disjoint_bitor",
      "self and rhs must have no overlapping set bits (self & rhs == 0); " ++
      "if any bit is set in both, the result is UB; the compiler uses this " ++
      "to emit a single OR without masking (nightly feature `disjoint_bitor`)"),
    ("unchecked_funnel_shl",
      "shift amount `n` must be < bit-width of the type; a funnel shift " ++
      "combines two integers `(self, low)` shifted left by `n` bits, " ++
      "taking the high bits from self and low bits from low; if n >= bit-width, " ++
      "the result is UB (nightly feature `funnel_shifts`, issue #145686)"),
    ("unchecked_funnel_shr",
      "shift amount `n` must be < bit-width of the type; a funnel shift " ++
      "combines two integers `(self, low)` shifted right by `n` bits; " ++
      "if n >= bit-width, the result is UB (nightly feature `funnel_shifts`, issue #145686)")]

/-- The name of the operation at `path`, and what is said about it. -/
def description (path : String) : Option (String × String) :=
  if contains path "num" then notes.find? fun note => endsWith path ("::" ++ note.1) else none

/-- The width that the checker assumes of a type that is shifted. -/
def bitWidth : Ty → U64
  | .uint .u8 | .int .i8 => 8
  | .uint .u16 | .int .i16 => 16
  | .uint .u32 | .int .i32 => 32
  | .uint .u64 | .int .i64 => 64
  | _ => u64Max

section
variable (body : Body) (args : List Operand) (destination : Place) (s : BlockState)

/-- Both operands are bounded, and `fits` of the bounds and the largest value of the result
type. -/
def boundsFit (fits : Nat → Nat → Nat → Bool) : Bool :=
  (nthArgLocal args 0).any fun al => (nthArgLocal args 1).any fun bl =>
    (s.constUpper.get al).any fun au => (s.constUpper.get bl).any fun bu =>
      (uintTypeMax (body.localTy destination.base)).any fun m => fits au.val bu.val m.val

/-- `au.checked_add(bu)` is at most `m`. -/
def addFits (au bu m : Nat) : Bool := decide (au + bu < 2 ^ 64) && decide (au + bu ≤ m)

/-- `(au as u128).checked_mul(bu as u128)` is at most `m`. -/
def mulFits (au bu m : Nat) : Bool := decide (au * bu < 2 ^ 128) && decide (au * bu ≤ m)

/-- The lower bound of the first operand is at least the upper bound of the second. -/
def ordered : Bool :=
  (nthArgLocal args 0).any fun al => (nthArgLocal args 1).any fun bl =>
    decide ((s.constUpper.get bl).getD u64Max ≤ (s.constLower.get al).getD 0)

/-- The upper bound of the shift amount is less than the width. -/
def shiftFits : Bool :=
  (nthArgLocal args 1).any fun shift => (nthArgLocal args 0).any fun val =>
    decide ((s.constUpper.get shift).getD u64Max < bitWidth (body.localTy val))

/-- Do the bounds prove that the operation at `path` is defined? -/
def suppressed (path : String) : Bool :=
  if endsWith path "::unchecked_add" || endsWith path "::unchecked_mul" then
    if endsWith path "::unchecked_add" then boundsFit body args destination s addFits
    else boundsFit body args destination s mulFits
  else if endsWith path "::unchecked_sub" then ordered args s
  else if endsWith path "::unchecked_shl" || endsWith path "::unchecked_shr"
      || endsWith path "::unchecked_shl_exact" || endsWith path "::unchecked_shr_exact" then
    shiftFits body args s
  else false

end

/-- What the checker says about one call. -/
def checkCall (body : Body) (path : String) (call : CallSite) (state : Option BlockState) :
    Option Finding :=
  (description path).bind fun (fnName, note) =>
    if state.any fun s => suppressed body call.args call.destination s path then none
    else some ⟨"unchecked_int_arith", .warning, call.span, "`" ++ fnName ++ "` — " ++ note⟩

def check (tcx : TyCtxt) {body : Body} (flow : FlowResults body) : List Finding :=
  checkCalls tcx flow (checkCall body)

/-! ## The operations whose findings may be suppressed -/

inductive Op
  | add | mul | sub | shl | shr | shlExact | shrExact
deriving DecidableEq, Repr

namespace Op

def name : Op → String
  | add => "unchecked_add"
  | mul => "unchecked_mul"
  | sub => "unchecked_sub"
  | shl => "unchecked_shl"
  | shr => "unchecked_shr"
  | shlExact => "unchecked_shl_exact"
  | shrExact => "unchecked_shr_exact"

/-- The type of the second operand. -/
def rhsTy (ty : Ty) : Op → Ty
  | add | mul | sub => ty
  | _ => .uint .u32

/-- The documented precondition: the exact result fits the type; the shift amount is less than
its width and, for the exact shifts, no set bit is shifted out. -/
def Precondition (ty : Ty) (x y : Int) : Op → Prop
  | add => ty.Holds (x + y)
  | mul => ty.Holds (x * y)
  | sub => ty.Holds (x - y)
  | shl | shr => y < ty.bits
  | shlExact => y < ty.bits ∧ ty.wrap x * 2 ^ y.toNat < 2 ^ ty.bits
  | shrExact => y < ty.bits ∧ ty.wrap x % 2 ^ y.toNat = 0

instance decidablePrecondition (ty : Ty) (x y : Int) :
    ∀ op : Op, Decidable (op.Precondition ty x y)
  | add => inferInstanceAs (Decidable (ty.Holds (x + y)))
  | mul => inferInstanceAs (Decidable (ty.Holds (x * y)))
  | sub => inferInstanceAs (Decidable (ty.Holds (x - y)))
  | shl | shr => inferInstanceAs (Decidable (y < ty.bits))
  | shlExact =>
      inferInstanceAs (Decidable (y < ty.bits ∧ ty.wrap x * 2 ^ y.toNat < 2 ^ ty.bits))
  | shrExact => inferInstanceAs (Decidable (y < ty.bits ∧ ty.wrap x % 2 ^ y.toNat = 0))

/-- What the checker tests for the operation. -/
def proven (body : Body) (args : List Operand) (destination : Place) (s : BlockState) : Op → Bool
  | add => boundsFit body args destination s addFits
  | mul => boundsFit body args destination s mulFits
  | sub => ordered args s
  | shl | shr | shlExact | shrExact => shiftFits body args s

/-- Every path that names the operation is one the checker looks for. -/
theorem description_isSome (op : Op) {path : String} (hnum : contains path "num" = true)
    (hpath : endsWith path ("::" ++ op.name) = true) : (description path).isSome = true := by
  unfold description
  rw [if_pos hnum]
  exact find_note_isSome (by cases op <;> decide +kernel) hpath

/-- The path tests of the checker pick out the operation. -/
theorem suppressed_eq (op : Op) {path : String} (hpath : endsWith path ("::" ++ op.name) = true)
    (body : Body) (args : List Operand) (destination : Place) (s : BlockState) :
    suppressed body args destination s path = op.proven body args destination s := by
  have hother : ∀ suffix, endsWith ("::" ++ op.name) suffix = false →
      endsWith suffix ("::" ++ op.name) = false → endsWith path suffix = false :=
    fun suffix h h' => endsWith_eq_false hpath h h'
  unfold suppressed
  cases op with
  | add =>
    have hadd : endsWith path "::unchecked_add" = true := hpath
    rw [hadd]
    rfl
  | mul =>
    have hmul : endsWith path "::unchecked_mul" = true := hpath
    rw [hmul, hother "::unchecked_add" (by decide +kernel) (by decide +kernel)]
    rfl
  | sub =>
    have hsub : endsWith path "::unchecked_sub" = true := hpath
    rw [hsub, hother "::unchecked_add" (by decide +kernel) (by decide +kernel),
      hother "::unchecked_mul" (by decide +kernel) (by decide +kernel)]
    rfl
  | shl =>
    have hshl : endsWith path "::unchecked_shl" = true := hpath
    rw [hshl, hother "::unchecked_add" (by decide +kernel) (by decide +kernel),
      hother "::unchecked_mul" (by decide +kernel) (by decide +kernel),
      hother "::unchecked_sub" (by decide +kernel) (by decide +kernel)]
    rfl
  | shr =>
    have hshr : endsWith path "::unchecked_shr" = true := hpath
    rw [hshr, hother "::unchecked_add" (by decide +kernel) (by decide +kernel),
      hother "::unchecked_mul" (by decide +kernel) (by decide +kernel),
      hother "::unchecked_sub" (by decide +kernel) (by decide +kernel), Bool.or_true]
    rfl
  | shlExact =>
    have hshl : endsWith path "::unchecked_shl_exact" = true := hpath
    rw [hshl, hother "::unchecked_add" (by decide +kernel) (by decide +kernel),
      hother "::unchecked_mul" (by decide +kernel) (by decide +kernel),
      hother "::unchecked_sub" (by decide +kernel) (by decide +kernel), Bool.or_true]
    rfl
  | shrExact =>
    have hshr : endsWith path "::unchecked_shr_exact" = true := hpath
    rw [hshr, hother "::unchecked_add" (by decide +kernel) (by decide +kernel),
      hother "::unchecked_mul" (by decide +kernel) (by decide +kernel),
      hother "::unchecked_sub" (by decide +kernel) (by decide +kernel), Bool.or_true]
    rfl

/-- **A finding is suppressed exactly if the test succeeds.** -/
theorem checkCall_eq_none_iff (op : Op) {path : String} (hnum : contains path "num" = true)
    (hpath : endsWith path ("::" ++ op.name) = true) (body : Body) (call : CallSite)
    (s : BlockState) :
    checkCall body path call (some s) = none ↔
      op.proven body call.args call.destination s = true := by
  obtain ⟨⟨fnName, note⟩, hdesc⟩ := Option.isSome_iff_exists.mp (op.description_isSome hnum hpath)
  unfold checkCall
  rw [hdesc]
  simp only [Option.bind_some, Option.any_some, op.suppressed_eq hpath, ite_eq_left_iff,
    reduceCtorEq, imp_false, Bool.not_eq_true, Bool.not_eq_false]

end Op

/-! ## Operands and their bounds -/

/-- The bounds of `l`, read as numbers, contain `x`. -/
def Within (s : BlockState) (l : Local) (x : Int) : Prop :=
  (∀ u, s.constUpper.get l = some u → x ≤ u.val) ∧ ∀ lb, s.constLower.get l = some lb → lb.val ≤ x

/-- The call is one of the operation on integers of type `ty`.  Its result goes to a local of
this type, or to a place inside of something that is no scalar. -/
structure Typed (op : Op) (ty : Ty) (body : Body) (call : CallSite) : Prop where
  lhs : ∀ a, nthArgLocal call.args 0 = some a → body.localTy a = ty
  rhs : ∀ b, nthArgLocal call.args 1 = some b → body.localTy b = op.rhsTy ty
  result : body.localTy call.destination.base = ty ∨
    (body.localTy call.destination.base).isScalar = false

/-- `x` and `y` are operands that the bounds allow. -/
structure Compatible (op : Op) (ty : Ty) (call : CallSite) (s : BlockState) (x y : Int) :
    Prop where
  lhs : ty.Holds x
  rhs : (op.rhsTy ty).Holds y
  lhsWithin : ∀ a, nthArgLocal call.args 0 = some a → Within s a x
  rhsWithin : ∀ b, nthArgLocal call.args 1 = some b → Within s b y

/-- The types whose operations are suppressed only if they are defined. -/
def SafeFor (ty : Ty) : Op → Prop
  | .add | .mul => True
  | .sub => ty.signed = false ∧ ty.bits ≤ 64
  | .shl | .shr => (bitWidth ty).val = ty.bits
  | .shlExact | .shrExact => False

theorem uintTypeMax_integer {ty : Ty} (hty : ty.isInteger = true) {m : U64}
    (hm : uintTypeMax ty = some m) : ty.signed = false ∧ m.val + 1 = 2 ^ ty.bits := by
  cases ty with
  | uint w => cases w <;> first | (cases hm; exact ⟨rfl, by decide⟩) | cases hm
  | int w => cases hm
  | _ => cases hty

theorem uintTypeMax_of_not_isScalar {ty : Ty} (h : ty.isScalar = false) :
    uintTypeMax ty = none := by
  cases ty with
  | bool => cases h
  | char => cases h
  | uint w => cases h
  | _ => rfl

section Sound
variable {op : Op} {ty : Ty} {body : Body} {call : CallSite} {s : BlockState} {x y : Int}

/-- What `boundsFit` finds. -/
theorem exists_of_boundsFit {fits : Nat → Nat → Nat → Bool} (hty : ty.isInteger = true)
    (htyped : Typed op ty body call) (hc : Compatible op ty call s x y)
    (hfit : boundsFit body call.args call.destination s fits = true) :
    ∃ au bu m : Nat, x ≤ au ∧ y ≤ bu ∧ ty.signed = false ∧ m + 1 = 2 ^ ty.bits ∧
      fits au bu m = true := by
  simp only [boundsFit, Option.any_eq_true] at hfit
  obtain ⟨al, hal, bl, hbl, au, hau, bu, hbu, m, hm, hfits⟩ := hfit
  have hmax : uintTypeMax ty = some m := by
    rcases htyped.result with hres | hres
    · rw [← hres]
      exact hm
    · rw [uintTypeMax_of_not_isScalar hres] at hm
      cases hm
  obtain ⟨hsigned, hbits⟩ := uintTypeMax_integer hty hmax
  exact ⟨au.val, bu.val, m.val, (hc.lhsWithin al hal).1 au hau, (hc.rhsWithin bl hbl).1 bu hbu,
    hsigned, hbits, hfits⟩

theorem add_sound (hty : ty.isInteger = true) (htyped : Typed .add ty body call)
    (hc : Compatible .add ty call s x y)
    (hfit : boundsFit body call.args call.destination s addFits = true) : ty.Holds (x + y) := by
  obtain ⟨au, bu, m, hx, hy, hsigned, hbits, hfits⟩ := exists_of_boundsFit hty htyped hc hfit
  have hle : au + bu ≤ m := of_decide_eq_true (Bool.and_eq_true_iff.mp hfits).2
  have hpow : ((2 ^ ty.bits : Nat) : Int) = 2 ^ ty.bits := by norm_cast
  have hlhs := (Ty.holds_unsigned hsigned).mp hc.lhs
  have hrhs : 0 ≤ y ∧ y < 2 ^ ty.bits := (Ty.holds_unsigned hsigned).mp hc.rhs
  rw [Ty.holds_unsigned hsigned]
  omega

theorem mul_sound (hty : ty.isInteger = true) (htyped : Typed .mul ty body call)
    (hc : Compatible .mul ty call s x y)
    (hfit : boundsFit body call.args call.destination s mulFits = true) : ty.Holds (x * y) := by
  obtain ⟨au, bu, m, hx, hy, hsigned, hbits, hfits⟩ := exists_of_boundsFit hty htyped hc hfit
  have hle : au * bu ≤ m := of_decide_eq_true (Bool.and_eq_true_iff.mp hfits).2
  have hlhs := (Ty.holds_unsigned hsigned).mp hc.lhs
  have hrhs : 0 ≤ y ∧ y < 2 ^ ty.bits := (Ty.holds_unsigned hsigned).mp hc.rhs
  have hprod : x * y ≤ ((au * bu : Nat) : Int) := by
    rw [Nat.cast_mul]
    exact mul_le_mul hx hy hrhs.1 (Int.natCast_nonneg au)
  have hpow : ((2 ^ ty.bits : Nat) : Int) = 2 ^ ty.bits := by norm_cast
  rw [Ty.holds_unsigned hsigned]
  refine ⟨Int.mul_nonneg hlhs.1 hrhs.1, ?_⟩
  omega

theorem sub_sound (hsafe : SafeFor ty .sub) (hc : Compatible .sub ty call s x y)
    (hfit : ordered call.args s = true) : ty.Holds (x - y) := by
  obtain ⟨hsigned, hbits⟩ := hsafe
  simp only [ordered, Option.any_eq_true, decide_eq_true_eq] at hfit
  obtain ⟨al, hal, bl, hbl, hle⟩ := hfit
  have hlhs := (Ty.holds_unsigned hsigned).mp hc.lhs
  have hrhs : 0 ≤ y ∧ y < 2 ^ ty.bits := (Ty.holds_unsigned hsigned).mp hc.rhs
  have hupper : y ≤ ((s.constUpper.get bl).getD u64Max).val := by
    cases hget : s.constUpper.get bl with
    | none =>
      have hpow : (2 : Int) ^ ty.bits ≤ 2 ^ 64 := pow_le_pow_right₀ (by decide) hbits
      have hmax : ((u64Max.val : Nat) : Int) = 2 ^ 64 - 1 := by decide
      rw [Option.getD_none, hmax]
      omega
    | some u => exact (hc.rhsWithin bl hbl).1 u hget
  have hlower : ((s.constLower.get al).getD 0).val ≤ x := by
    cases hget : s.constLower.get al with
    | none => exact hlhs.1
    | some lb => exact (hc.lhsWithin al hal).2 lb hget
  have hyx : y ≤ x := hupper.trans (le_trans (Int.ofNat_le.mpr (Fin.le_def.mp hle)) hlower)
  rw [Ty.holds_unsigned hsigned]
  omega

theorem shift_sound (hsafe : (bitWidth ty).val = ty.bits) (htyped : Typed op ty body call)
    (hc : Compatible op ty call s x y) (hfit : shiftFits body call.args s = true) :
    y < ty.bits := by
  simp only [shiftFits, Option.any_eq_true, decide_eq_true_eq] at hfit
  obtain ⟨shift, hshift, val, hval, hlt⟩ := hfit
  rw [htyped.lhs val hval] at hlt
  cases hget : s.constUpper.get shift with
  | none =>
    -- `u64::MAX` is less than no width
    rw [hget, Option.getD_none] at hlt
    exact absurd (Fin.lt_def.mp hlt) (Nat.not_lt.mpr (Nat.le_of_lt_succ (bitWidth ty).isLt))
  | some u =>
    rw [hget, Option.getD_some, Fin.lt_def, hsafe] at hlt
    exact lt_of_le_of_lt ((hc.rhsWithin shift hshift).1 u hget) (Int.ofNat_lt.mpr hlt)

end Sound

/-! ## The main result -/

/-- Whenever the checker suppresses a finding for the operation on integers of type `ty`, its
precondition holds for all operands that the bounds allow. -/
def SuppressesSafely (op : Op) (ty : Ty) : Prop :=
  ∀ (tcx : TyCtxt) (body : Body) (flow : FlowResults body) (bb : body.BasicBlock)
    (call : CallSite) (s : BlockState) (x y : Int), body.callSite bb = some call →
    contains (tcx.defPathStr call.callee) "num" = true →
    endsWith (tcx.defPathStr call.callee) ("::" ++ op.name) = true →
    flow.stateBeforeTerminator tcx bb = some s → Typed op ty body call →
    Compatible op ty call s x y →
    checkCallIn tcx flow (checkCall body) bb = none → op.Precondition ty x y

/-- A function that applies an operation to `_1` and `_2`. -/
def applies (ty rhsTy : Ty) : Body :=
  .ofBlocks 1 2 [ty, ty, rhsTy] 1
    (fun bb => [.of [] (.callTo 0 [.ofNat 1, .ofNat 2] 0 (bb 1)), .of [] .return])
    ⟨(by decide : 2 < 3), (by decide : 3 ≤ 2 ^ 32),
      (by decide : ∀ b : Fin 2, ∀ l ∈ (BasicBlockData.at (fun bb =>
        [.of [] (.callTo 0 [.ofNat 1, .ofNat 2] 0 (bb 1)), .of [] .return]) b).locals,
        l.index.val < 3)⟩

/-- One state and two operands refute the suppression of an operation. -/
theorem not_suppressesSafely {op : Op} {ty : Ty} {s : BlockState} {x y : Int}
    (hproven : op.proven (applies ty (op.rhsTy ty)) [.ofNat 1, .ofNat 2] (Place.ofLocal ⟨0⟩) s =
      true)
    (hx : ty.Holds x ∧ Within s (Local.ofNat 1) x)
    (hy : (op.rhsTy ty).Holds y ∧ Within s (Local.ofNat 2) y) (hpre : ¬ op.Precondition ty x y) :
    ¬ SuppressesSafely op ty := by
  intro h
  have hnum : contains ((TyCtxt.ofPaths ["core::num::" ++ op.name]).defPathStr ⟨0, 0⟩) "num" =
      true := by cases op <;> decide +kernel
  have hpath : endsWith ((TyCtxt.ofPaths ["core::num::" ++ op.name]).defPathStr ⟨0, 0⟩)
      ("::" ++ op.name) = true := by cases op <;> decide +kernel
  refine hpre (h (.ofPaths ["core::num::" ++ op.name]) (applies ty (op.rhsTy ty))
    ⟨fun _ => some s, ∅⟩ (0 : Fin 2) ⟨⟨0, 0⟩, [.ofNat 1, .ofNat 2], Place.ofLocal ⟨0⟩, .none⟩ s x y
    rfl hnum hpath rfl ?_ ?_ ?_)
  · exact ⟨fun a ha => by cases ha; rfl, fun b hb => by cases hb; rfl, Or.inl rfl⟩
  · exact ⟨hx.1, hy.1, fun a ha => by cases ha; exact hx.2, fun b hb => by cases hb; exact hy.2⟩
  · exact (op.checkCall_eq_none_iff hnum hpath _ _ s).mpr hproven

/-- The state in which `_2` is known to be at most `ub`. -/
def atMost (ub : U64) : BlockState :=
  { BlockState.default with constUpper := FMap.insert ∅ (Local.ofNat 2) ub }

/-- The state in which `_1` is known to be at least `lb`. -/
def atLeast (lb : U64) : BlockState :=
  { BlockState.default with constLower := FMap.insert ∅ (Local.ofNat 1) lb }

theorem within_atMost {ub : U64} {x y : Int} (hy : y ≤ ub.val) :
    Within (atMost ub) (Local.ofNat 1) x ∧ Within (atMost ub) (Local.ofNat 2) y := by
  refine ⟨⟨fun u hu => ?_, nofun⟩, fun u hu => ?_, nofun⟩
  · cases (FMap.get_insert_of_ne _ ub (by decide : Local.ofNat 1 ≠ Local.ofNat 2)).symm.trans hu
  · cases (FMap.get_insert_self _ _ ub).symm.trans hu
    exact hy

theorem within_atLeast {lb : U64} {x y : Int} (hx : lb.val ≤ x) :
    Within (atLeast lb) (Local.ofNat 1) x ∧ Within (atLeast lb) (Local.ofNat 2) y := by
  refine ⟨⟨nofun, fun l hl => ?_⟩, nofun, fun l hl => ?_⟩
  · cases (FMap.get_insert_self _ _ lb).symm.trans hl
    exact hx
  · cases (FMap.get_insert_of_ne _ lb (by decide : Local.ofNat 2 ≠ Local.ofNat 1)).symm.trans hl

/-- The smallest signed integer is at most zero, and subtracting it from the largest overflows. -/
theorem not_safe_sub_signed (w : IntTy) : ¬ SuppressesSafely .sub (.int w) := by
  have hwithin : Within (atMost 0) (Local.ofNat 1) (2 ^ (w.bits - 1) - 1) ∧
      Within (atMost 0) (Local.ofNat 2) (-2 ^ (w.bits - 1)) :=
    within_atMost (by cases w <;> decide)
  refine not_suppressesSafely ?_ ⟨?_, hwithin.1⟩ ⟨?_, hwithin.2⟩ ?_
  all_goals cases w <;> decide +kernel

/-- An unknown `u128` may be larger than any bound. -/
theorem not_safe_sub_u128 : ¬ SuppressesSafely .sub (.uint .u128) := by
  have hwithin : Within (atLeast u64Max) (Local.ofNat 1) (2 ^ 64 - 1) ∧
      Within (atLeast u64Max) (Local.ofNat 2) (2 ^ 64) := within_atLeast (by decide)
  refine not_suppressesSafely ?_ ⟨?_, hwithin.1⟩ ⟨?_, hwithin.2⟩ ?_
  all_goals decide +kernel

/-- A width that the checker does not know counts as `u64::MAX`, and a shift by `200` as
proper. -/
theorem not_safe_shift {op : Op} (hop : op = .shl ∨ op = .shr) {ty : Ty}
    (hty : ty.isInteger = true) (hwidth : (bitWidth ty).val ≠ ty.bits) :
    ¬ SuppressesSafely op ty := by
  have hwithin : Within (atMost 200) (Local.ofNat 1) 0 ∧ Within (atMost 200) (Local.ofNat 2) 200 :=
    within_atMost (by decide)
  refine not_suppressesSafely ?_ ⟨?_, hwithin.1⟩ ⟨?_, hwithin.2⟩ ?_
  all_goals
    rcases hop with rfl | rfl <;> cases ty with
    | uint w => cases w <;> first | exact absurd rfl hwidth | decide +kernel
    | int w => cases w <;> first | exact absurd rfl hwidth | decide +kernel
    | _ => cases hty

/-- Nothing is known of the bits that an exact shift drops. -/
theorem not_safe_exact {op : Op} (hop : op = .shlExact ∨ op = .shrExact) {ty : Ty}
    (hty : ty.isInteger = true) : ¬ SuppressesSafely op ty := by
  have hwithin : Within (atMost 1) (Local.ofNat 1) (ty.toInt (2 ^ ty.bits - 1)) ∧
      Within (atMost 1) (Local.ofNat 2) 1 := within_atMost (by decide)
  refine not_suppressesSafely ?_ ⟨?_, hwithin.1⟩ ⟨?_, hwithin.2⟩ ?_
  all_goals
    rcases hop with rfl | rfl <;> cases ty with
    | uint w => cases w <;> decide +kernel
    | int w => cases w <;> decide +kernel
    | _ => cases hty

/-- **When a suppressed operation is defined.**  What the checker tests for an operation on
integers of one type proves its precondition, for all operands that the bounds allow, exactly if
the operation is an addition or a multiplication, a subtraction of unsigned integers of at most
64 bits, or a shift of integers whose width the checker knows. -/
theorem unchecked_suppression_sound_iff (op : Op) (ty : Ty) (hty : ty.isInteger = true) :
    SuppressesSafely op ty ↔ SafeFor ty op := by
  constructor
  · intro h
    cases op with
    | add => exact trivial
    | mul => exact trivial
    | sub =>
      cases ty with
      | uint w =>
        cases w with
        -- an absent upper bound counts as u64::MAX, which a u128 can exceed
        | u128 => exact absurd h not_safe_sub_u128
        | _ => exact ⟨rfl, by decide⟩
      | int w => exact absurd h (not_safe_sub_signed w)
      | _ => cases hty
    | shl => exact Classical.byContradiction fun hw => not_safe_shift (Or.inl rfl) hty hw h
    | shr => exact Classical.byContradiction fun hw => not_safe_shift (Or.inr rfl) hty hw h
    | shlExact => exact not_safe_exact (Or.inl rfl) hty h
    | shrExact => exact not_safe_exact (Or.inr rfl) hty h
  · intro hsafe tcx body flow bb call s x y hcall hnum hpath hs htyped hc hnone
    rw [checkCallIn_eq hcall hs, op.checkCall_eq_none_iff hnum hpath] at hnone
    cases op with
    | add => exact add_sound hty htyped hc hnone
    | mul => exact mul_sound hty htyped hc hnone
    | sub => exact sub_sound hsafe hc hnone
    | shl => exact shift_sound hsafe htyped hc hnone
    | shr => exact shift_sound hsafe htyped hc hnone
    | shlExact => exact hsafe.elim
    | shrExact => exact hsafe.elim

/-- Subtractions of bytes are suppressed only where they do not underflow. -/
theorem sub_of_bytes_suppressed_safely : SuppressesSafely .sub (.uint .u8) :=
  (unchecked_suppression_sound_iff .sub (.uint .u8) rfl).mpr ⟨rfl, by decide⟩

/-- A shift of a `usize`, a subtraction of bytes with a sign and an exact shift are suppressed
for operands that violate the precondition. -/
theorem suppressed_although_undefined :
    ¬ SuppressesSafely .shl (.uint .usize) ∧ ¬ SuppressesSafely .sub (.int .i8) ∧
      ¬ SuppressesSafely .shlExact (.uint .u32) :=
  ⟨not_safe_shift (Or.inl rfl) rfl (by decide), not_safe_sub_signed .i8,
    not_safe_exact (Or.inl rfl) rfl⟩

end UncheckedIntArith

end San
