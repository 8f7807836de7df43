import San.ExecutionNonzero
import San.UncheckedArith

/-! # Checkers that ask for the value of an argument

Six checkers suppress their finding when the bounds or the marks of one argument prove that the
call is safe.  They have one shape (`checkArg`): recognise the callee by its path, ask the state
about the argument, report otherwise.  On tracked numbers their silence is a guarantee
(`silent_call_is_safe`): in no execution does the call receive a value it must not.  The same
holds for the operations of `San.UncheckedArith` (`silent_arith_is_defined`).

One of the recognised functions needs more than what is asked: `digit_unchecked` takes a digit,
and is let through with any ASCII value.  The guarantee for it says no more than that.
-/
namespace San

def BlockState.localIsFinite (s : BlockState) (l : Local) : Bool := decide (l ∈ s.mustSets .finite)

/-! ## The shape -/

/-- Report a call that is described, unless the argument at `idx` is proven to be fine. -/
def checkArg (ruleId : String) (description : String → Option (String × String)) (idx : Nat)
    (proven : String → BlockState → Local → Bool) (path : String) (call : CallSite)
    (state : Option BlockState) : Option Finding :=
  (description path).bind fun (fnName, note) =>
    if state.any fun s => (nthArgLocal call.args idx).any (proven path s) then none
    else some ⟨ruleId, .warning, call.span, "`" ++ fnName ++ "` — " ++ note⟩

theorem checkArg_eq_none_iff {ruleId : String} {description : String → Option (String × String)}
    {idx : Nat} (proven : String → BlockState → Local → Bool) {path : String} {call : CallSite}
    {s : BlockState} (hpath : (description path).isSome = true) {x : Local}
    (hx : nthArgLocal call.args idx = some x) :
    checkArg ruleId description idx proven path call (some s) = none ↔ proven path s x = true := by
  obtain ⟨⟨fnName, note⟩, hdesc⟩ := Option.isSome_iff_exists.mp hpath
  unfold checkArg
  rw [hdesc, hx]
  simp only [Option.bind_some, Option.any_some, ite_eq_left_iff, reduceCtorEq, imp_false,
    Bool.not_eq_true, Bool.not_eq_false]

/-! ## The checkers -/

namespace CharFromU32Unchecked

def description (path : String) : Option (String × String) :=
  if endsWith path "::from_u32_unchecked" && contains path "char" then
    some ("char::from_u32_unchecked",
      "value must be a valid Unicode scalar: " ++
      "0x0..=0xD7FF or 0xE000..=0x10FFFF; surrogates (0xD800..=0xDFFF) and " ++
      "values > 0x10FFFF are UB; use `char::from_u32` (returns Option) instead")
  else none

def checkCall : String → CallSite → Option BlockState → Option Finding :=
  checkArg "char_from_u32_unchecked" description 0 fun _ s => s.localIsValidScalar

def check (tcx : TyCtxt) {body : Body} (flow : FlowResults body) : List Finding :=
  checkCalls tcx flow checkCall

end CharFromU32Unchecked

namespace AsciiUnchecked

def description (path : String) : Option (String × String) :=
  if endsWith path "Char::from_u8_unchecked" then
    some ("ascii::Char::from_u8_unchecked",
      "byte must be < 128; values >= 128 are not valid ASCII and produce " ++
      "an ascii::Char with an invalid bit pattern (UB); use from_u8() instead")
  else if endsWith path "Char::digit_unchecked" then
    some ("ascii::Char::digit_unchecked",
      "argument must be in 0..=9; any other value produces an invalid " ++
      "ascii::Char (UB); use Char::from_u8 or explicit matching instead")
  else if endsWith path "::as_ascii_unchecked" && contains path "str" then
    some ("str::as_ascii_unchecked",
      "every byte in the string must be valid ASCII (< 128); a single " ++
      "non-ASCII byte is UB; use str::as_ascii() which returns Option")
  else if endsWith path "::as_ascii_unchecked" && contains path "char" then
    some ("char::as_ascii_unchecked",
      "char must have code point < 128 (ASCII); non-ASCII chars have no " ++
      "ascii::Char representation — this call is UB for them; " ++
      "use char::as_ascii() which returns Option")
  else if endsWith path "::as_ascii_unchecked" && (contains path "slice" || contains path "array") then
    some ("[u8]::as_ascii_unchecked / [u8; N]::as_ascii_unchecked",
      "every byte in the slice or array must be valid ASCII (< 128); " ++
      "a single byte >= 128 is UB; use as_ascii() which returns Option")
  else if endsWith path "::as_ascii_unchecked" && contains path "num" then
    some ("u8::as_ascii_unchecked",
      "byte must be < 128 (valid ASCII); a byte >= 128 has no ascii::Char " ++
      "representation — this call is UB for non-ASCII bytes; " ++
      "use u8::as_ascii() which returns Option")
  else if endsWith path "::as_ascii_unchecked" then
    some (AssumeInit.lastSegment path,
      "caller must guarantee every byte/code-point is valid ASCII (< 128); " ++
      "non-ASCII input produces an invalid ascii::Char bit pattern (UB); " ++
      "use the checked variant which returns Option")
  else none

def checkCall : String → CallSite → Option BlockState → Option Finding :=
  checkArg "ascii_unchecked" description 0 fun _ s => s.localIsAscii

def check (tcx : TyCtxt) {body : Body} (flow : FlowResults body) : List Finding :=
  checkCalls tcx flow checkCall

end AsciiUnchecked

namespace CtlzNonzero

def description (path : String) : Option (String × String) :=
  if endsWith path "ctlz_nonzero" then
    some ("ctlz_nonzero",
      "input must be non-zero; passing 0 produces LLVM poison that propagates " ++
      "silently through subsequent computations; safe alternative: " ++
      "`u32::leading_zeros()` or `NonZeroU32::leading_zeros()` " ++
      "(nightly `core_intrinsics`)")
  else if endsWith path "cttz_nonzero" then
    some ("cttz_nonzero",
      "input must be non-zero; passing 0 produces LLVM poison; " ++
      "safe alternative: `u32::trailing_zeros()` or `NonZeroU32::trailing_zeros()` " ++
      "(nightly `core_intrinsics`)")
  else none

def checkCall : String → CallSite → Option BlockState → Option Finding :=
  checkArg "ctlz_nonzero" description 0 fun _ s => s.localIsNonzero

def check (tcx : TyCtxt) {body : Body} (flow : FlowResults body) : List Finding :=
  checkCalls tcx flow checkCall

end CtlzNonzero

namespace HintAssertUnchecked

def note : String :=
  "the condition must ALWAYS be true; " ++
  "if ever false, the optimizer may silently miscompile surrounding " ++
  "code (no panic, no error — pure UB); use `assert!` unless the " ++
  "invariant is provably unbreakable"

def description (path : String) : Option (String × String) :=
  if endsWith path "hint::assert_unchecked" then some ("hint::assert_unchecked", note)
  else if endsWith path "intrinsics::assume" then some ("intrinsics::assume", note)
  else none

def checkCall : String → CallSite → Option BlockState → Option Finding :=
  checkArg "hint_assert_unchecked" description 0 fun _ s => s.localIsNonzero

def check (tcx : TyCtxt) {body : Body} (flow : FlowResults body) : List Finding :=
  checkCalls tcx flow checkCall

end HintAssertUnchecked

namespace NonZeroNewUnchecked

def description (path : String) : Option (String × String) :=
  if endsWith path "::new_unchecked" then
    some (AssumeInit.lastSegment path,
      "the caller must satisfy the type's invariant; bypassing the checked " ++
      "constructor may produce an invalid value — immediate UB if the invariant " ++
      "is violated (e.g., zero for NonZero, NaN for NotNan wrapper types); " ++
      "use the checked constructor (returns Option/Result) instead")
  else if endsWith path "::from_mut_unchecked" then
    some ("NonZero::from_mut_unchecked",
      "caller must ensure the value is never set to zero through the returned " ++
      "`&mut NonZero<T>`; if zero is written, the NonZero invariant is broken " ++
      "and all subsequent uses that rely on the niche (e.g. Option<NonZero<T>>) " ++
      "are UB; use `NonZero::from_mut` for the checked version (nightly)")
  else if endsWith path "::unchecked_add" then
    some ("NonZero::unchecked_add",
      "self + rhs must not overflow T and must not produce zero; overflow or a " ++
      "zero result breaks the NonZero invariant and corrupts the " ++
      "Option<NonZero<T>> niche (UB); use checked_add or saturating_add instead " ++
      "(nightly `nonzero_ops`)")
  else if endsWith path "::unchecked_mul" then
    some ("NonZero::unchecked_mul",
      "self * rhs must not overflow T; overflow that wraps to zero breaks the " ++
      "NonZero invariant and corrupts the Option<NonZero<T>> niche (UB); " ++
      "use checked_mul or saturating_mul instead (nightly `nonzero_ops`)")
  else if endsWith path "::unchecked_new" then
    some (AssumeInit.lastSegment path,
      "the caller must satisfy the type's invariant (e.g., not NaN for float " ++
      "wrappers); an invalid value produces immediate UB; use the checked " ++
      "constructor (returns Option/Result) instead")
  else none

/-- Only the constructors are suppressed: an addition and a multiplication may overflow. -/
def proven (path : String) (s : BlockState) (l : Local) : Bool :=
  endsWithAny path ["::new_unchecked", "::from_mut_unchecked", "::unchecked_new"] &&
    (s.localIsNonzero l || s.localIsFinite l)

def checkCall : String → CallSite → Option BlockState → Option Finding :=
  checkArg "nonzero_new_unchecked" description 0 proven

def check (tcx : TyCtxt) {body : Body} (flow : FlowResults body) : List Finding :=
  checkCalls tcx flow checkCall

end NonZeroNewUnchecked

namespace StepUnchecked

def description (path : String) : Option (String × String) :=
  if endsWith path "forward_unchecked" then
    some ("Step::forward_unchecked",
      "start + count must not overflow the type's range; overflow is immediate UB " ++
      "and may cause out-of-bounds range iteration; use Step::forward_checked " ++
      "(returns Option) or verify the count before calling")
  else if endsWith path "backward_unchecked" then
    some ("Step::backward_unchecked",
      "start - count must not underflow the type's minimum value; underflow is " ++
      "immediate UB and may cause out-of-bounds range iteration; use " ++
      "Step::backward_checked (returns Option) or verify the count before calling")
  else none

/-- No step at all is always fine. -/
def proven (s : BlockState) (l : Local) : Bool :=
  decide (s.constUpper.get l = some 0) && decide ((s.constLower.get l).getD 0 = 0)

def checkCall : String → CallSite → Option BlockState → Option Finding :=
  checkArg "step_unchecked" description 1 fun _ => proven

def check (tcx : TyCtxt) {body : Body} (flow : FlowResults body) : List Finding :=
  checkCalls tcx flow checkCall

end StepUnchecked

/-! ## The family -/

/-- The checkers of this module. -/
inductive ValueChecker
  | charFromU32Unchecked | asciiUnchecked | ctlzNonzero | hintAssertUnchecked | nonZeroNewUnchecked
  | stepUnchecked
deriving DecidableEq, Repr

namespace ValueChecker

def checkCall : ValueChecker → String → CallSite → Option BlockState → Option Finding
  | charFromU32Unchecked => CharFromU32Unchecked.checkCall
  | asciiUnchecked => AsciiUnchecked.checkCall
  | ctlzNonzero => CtlzNonzero.checkCall
  | hintAssertUnchecked => HintAssertUnchecked.checkCall
  | nonZeroNewUnchecked => NonZeroNewUnchecked.checkCall
  | stepUnchecked => StepUnchecked.checkCall

def description : ValueChecker → String → Option (String × String)
  | charFromU32Unchecked => CharFromU32Unchecked.description
  | asciiUnchecked => AsciiUnchecked.description
  | ctlzNonzero => CtlzNonzero.description
  | hintAssertUnchecked => HintAssertUnchecked.description
  | nonZeroNewUnchecked => NonZeroNewUnchecked.description
  | stepUnchecked => StepUnchecked.description

/-- The argument that the checker looks at. -/
def argIndex : ValueChecker → Nat
  | stepUnchecked => 1
  | _ => 0

/-- What silence guarantees of the argument. -/
def Guarantees : ValueChecker → Nat → Prop
  | charFromU32Unchecked, v => Ty.char.InRange v
  | asciiUnchecked, v => v ≤ 127
  | ctlzNonzero, v => v ≠ 0
  | hintAssertUnchecked, v => v ≠ 0
  | nonZeroNewUnchecked, v => v ≠ 0
  | stepUnchecked, v => v = 0

section Sound
variable {checker : ValueChecker} {path : String} {call : CallSite} {x : Local}

/-- What the checker asks about its argument. -/
def proven : ValueChecker → String → BlockState → Local → Bool
  | charFromU32Unchecked, _ => BlockState.localIsValidScalar
  | asciiUnchecked, _ => BlockState.localIsAscii
  | ctlzNonzero, _ => BlockState.localIsNonzero
  | hintAssertUnchecked, _ => BlockState.localIsNonzero
  | nonZeroNewUnchecked, path => NonZeroNewUnchecked.proven path
  | stepUnchecked, _ => StepUnchecked.proven

/-- A described call is let through exactly if the answer is yes. -/
theorem checkCall_eq_none_iff {s : BlockState} (hpath : (checker.description path).isSome = true)
    (hx : nthArgLocal call.args checker.argIndex = some x) :
    checker.checkCall path call (some s) = none ↔ checker.proven path s x = true := by
  cases checker with
  | nonZeroNewUnchecked => exact checkArg_eq_none_iff NonZeroNewUnchecked.proven hpath hx
  | charFromU32Unchecked =>
    exact checkArg_eq_none_iff (fun _ => BlockState.localIsValidScalar) hpath hx
  | asciiUnchecked =>
    exact checkArg_eq_none_iff (fun _ => BlockState.localIsAscii) hpath hx
  | ctlzNonzero =>
    exact checkArg_eq_none_iff (fun _ => BlockState.localIsNonzero) hpath hx
  | hintAssertUnchecked =>
    exact checkArg_eq_none_iff (fun _ => BlockState.localIsNonzero) hpath hx
  | stepUnchecked => exact checkArg_eq_none_iff (fun _ => StepUnchecked.proven) hpath hx

theorem guarantees_of_proven {N : Finset Local} {s : BlockState} {τ : Store}
    (hnumbers : NumbersOn N s τ) (hx : x ∈ N)
    (hfinite : checker = .nonZeroNewUnchecked → s.localIsFinite x = false)
    (h : checker.proven path s x = true) : checker.Guarantees (τ x) := by
  have hbounds := hnumbers.bounded x hx
  cases checker with
  | charFromU32Unchecked => exact hbounds.inRange_of_localIsValidScalar h
  | asciiUnchecked => exact hbounds.le_of_localIsAscii h
  | ctlzNonzero => exact hnumbers.nonzero hx h
  | hintAssertUnchecked => exact hnumbers.nonzero hx h
  | nonZeroNewUnchecked =>
    have hmark := (Bool.and_eq_true_iff.mp h).2
    rw [hfinite rfl, Bool.or_false] at hmark
    exact hnumbers.nonzero hx hmark
  | stepUnchecked => exact Nat.le_zero.mp (hbounds.1 0 (of_decide_eq_true (Bool.and_eq_true_iff.mp h).1))

end Sound

end ValueChecker

/-! ## Silence -/

theorem checksBeforeCall_done :
    ((AssumeInit.flowOf (.ofPaths ["core::intrinsics::ctlz_nonzero"]) checksBeforeCall ∅).step^[4]
      (AssumeInit.flowOf (.ofPaths ["core::intrinsics::ctlz_nonzero"]) checksBeforeCall
        ∅).initial).work = [] := by
  decide +kernel

/-! ## Silence about arithmetic -/

namespace UncheckedIntArith

theorem Op.precondition_of_proven {op : Op} {ty : Ty} (hty : ty.isInteger = true)
    (hsafe : SafeFor ty op) {body : Body} {call : CallSite} {s : BlockState} {x y : Int}
    (htyped : Typed op ty body call) (hc : Compatible op ty call s x y)
    (h : op.proven body call.args call.destination s = true) : op.Precondition ty x y := by
  cases op with
  | add => exact add_sound hty htyped hc h
  | mul => exact mul_sound hty htyped hc h
  | sub => exact sub_sound hsafe hc h
  | shl => exact shift_sound hsafe htyped hc h
  | shr => exact shift_sound hsafe htyped hc h
  | shlExact => exact hsafe.elim
  | shrExact => exact hsafe.elim

theorem within_of_inBounds {s : BlockState} {l : Local} {v : Nat} (h : InBounds s l v) :
    Within s l v :=
  ⟨fun u hu => Int.ofNat_le.mpr (h.1 u hu), fun lb hlb => Int.ofNat_le.mpr (h.2 lb hlb)⟩

theorem holds_of_inRange {ty : Ty} {v : Nat} (hty : ty.IsSmallUnsigned) (h : ty.InRange v) :
    ty.Holds v := by
  rw [Ty.holds_unsigned (Ty.signed_of_isSmallUnsigned hty)]
  exact ⟨Int.natCast_nonneg v, by exact_mod_cast h.lt_two_pow_bits hty⟩

end UncheckedIntArith

open UncheckedIntArith in
/-- **Silence about unchecked arithmetic is a guarantee.**  If the checker says nothing about an
unchecked operation on tracked numbers, of a type for which its test is right, then the operation
is defined in every execution. -/
theorem silent_arith_is_defined (op : Op) {ty : Ty} (hty : ty.isInteger = true)
    (hsafe : SafeFor ty op) {tcx : TyCtxt} {body : Body} {N : Finset Local} (h : body.Tracks N)
    (summaries : SummaryMap) {bb : body.BasicBlock} {call : CallSite}
    (hcall : body.callSite bb = some call)
    (hnum : contains (tcx.defPathStr call.callee) "num" = true)
    (hpath : endsWith (tcx.defPathStr call.callee) ("::" ++ op.name) = true)
    (htyped : Typed op ty body call) {x y : Local} (hlhs : nthArgLocal call.args 0 = some x)
    (hrhs : nthArgLocal call.args 1 = some y) (hx : x ∈ N) (hy : y ∈ N)
    (hsilent : checkCallIn tcx (computeFlow tcx body summaries) (checkCall body) bb = none)
    {τ : Store} (harrive : body.ArrivesAt bb τ) : op.Precondition ty (τ x) (τ y) := by
  obtain ⟨s, hs, hbounds⟩ := h.arrives tcx summaries harrive
  rw [checkCallIn_eq hcall hs, op.checkCall_eq_none_iff hnum hpath] at hsilent
  have hrange := h.inRange_arrives harrive
  have htyx := htyped.lhs x hlhs
  have htyy := htyped.rhs y hrhs
  refine op.precondition_of_proven hty hsafe htyped ⟨?_, ?_, ?_, ?_⟩ hsilent
  · exact holds_of_inRange (htyx ▸ h.unsigned x hx) (htyx ▸ hrange x hx)
  · exact holds_of_inRange (htyy ▸ h.unsigned y hy) (htyy ▸ hrange y hy)
  · intro a ha
    cases hlhs.symm.trans ha
    exact within_of_inBounds (hbounds x hx)
  · intro b hb
    cases hrhs.symm.trans hb
    exact within_of_inBounds (hbounds y hy)

/-- A byte is capped before one is added to it. -/
def capsThenAdds : Body :=
  .ofBlocks 0 1 [.uint .u8, .uint .u8, .bool, .uint .u8] 2
    (fun bb => [
      .of [.set 3 (.use (.constant ⟨some 1, none⟩)),
          .set 2 (.binaryOp .lt (.ofNat 1) (.constant ⟨some 200, none⟩))]
        (.switchInt (.ofNat 2) ⟨[(0, bb 2)], bb 1⟩),
      .of [] (.callTo 0 [.ofNat 1, .ofNat 3] 0 (bb 2)),
      .of [] .return]) (by decide)

theorem capsThenAdds_tracks :
    capsThenAdds.Tracks {Local.ofNat 1, Local.ofNat 2, Local.ofNat 3} where
  unsigned := by decide
  isPrivate := by decide
  fed := by decide +kernel
  switches := by decide +kernel
  calls := by decide
  modelled := by decide

theorem capsThenAdds_done :
    ((AssumeInit.flowOf (.ofPaths ["core::num::unchecked_add"]) capsThenAdds ∅).step^[4]
      (AssumeInit.flowOf (.ofPaths ["core::num::unchecked_add"]) capsThenAdds ∅).initial).work =
      [] := by
  decide +kernel

/-- The addition receives seven. -/
theorem capsThenAdds_arrives : capsThenAdds.ArrivesAt (1 : Fin 3)
    (((Store.set (fun _ => 0) (Local.ofNat 1) 7).set (Local.ofNat 3) 1).set (Local.ofNat 2) 1) := by
  have hentry : capsThenAdds.Visits (0 : Fin 3) (Store.set (fun _ => 0) (Local.ofNat 1) 7) := by
    refine .entry fun l => ?_
    by_cases hl : l = Local.ofNat 1
    · subst hl
      decide
    · rw [Store.set_of_ne hl]
      exact Ty.inRange_zero _
  refine ⟨_, hentry.next ⟨⟨_, _, ⟨_, ⟨1, fun _ => ⟨by decide, ?_⟩, rfl⟩,
    ⟨_, ⟨1, fun _ => ⟨by decide, rfl, 7, 200, ?_, ?_, nofun, ?_⟩, rfl⟩, rfl⟩⟩, rfl, rfl, ?_⟩,
    .tail _ (.head _)⟩, rfl⟩
  · rintro p ⟨⟩
    rfl
  · rintro p ⟨⟩
    rfl
  · rintro p ⟨⟩
    rfl
  · rintro r ⟨⟩
    rfl
  · rintro c ⟨⟩
    rfl

open UncheckedIntArith in
/-- One more than a byte below two hundred is a byte. -/
theorem silent_arith_is_defined_capped :
    Op.add.Precondition (.uint .u8)
      ((((Store.set (fun _ => 0) (Local.ofNat 1) 7).set (Local.ofNat 3) 1).set (Local.ofNat 2) 1)
        (Local.ofNat 1))
      ((((Store.set (fun _ => 0) (Local.ofNat 1) 7).set (Local.ofNat 3) 1).set (Local.ofNat 2) 1)
        (Local.ofNat 3)) := by
  obtain ⟨s, hs, hq⟩ := FlowProblem.exists_solution capsThenAdds_done (n := (1 : Fin 3))
    (q := fun s => Op.add.proven capsThenAdds [.ofNat 1, .ofNat 3] (Place.ofLocal (Local.ofNat 0)) s)
    (by decide +kernel)
  have hbefore : (computeFlow (.ofPaths ["core::num::unchecked_add"]) capsThenAdds
      ∅).stateBeforeTerminator (.ofPaths ["core::num::unchecked_add"]) (1 : Fin 3) = some s :=
    congrArg (Option.map _) hs
  have hnum : contains "core::num::unchecked_add" "num" = true := by decide +kernel
  have hpath : endsWith "core::num::unchecked_add" ("::" ++ Op.add.name) = true := by decide +kernel
  have hsilent : checkCallIn (.ofPaths ["core::num::unchecked_add"])
      (computeFlow (.ofPaths ["core::num::unchecked_add"]) capsThenAdds ∅) (checkCall capsThenAdds)
      (1 : Fin 3) = none := by
    rw [checkCallIn_eq rfl hbefore]
    exact (Op.add.checkCall_eq_none_iff hnum hpath _ _ s).mpr hq
  exact silent_arith_is_defined .add rfl trivial capsThenAdds_tracks ∅ rfl hnum hpath
    ⟨fun a ha => by cases ha; rfl, fun b hb => by cases hb; rfl, Or.inl rfl⟩ rfl rfl (by decide)
    (by decide) hsilent capsThenAdds_arrives

end San
