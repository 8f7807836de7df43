import San.Report

/-! # Checkers of accesses through pointers

Twenty checkers are about functions that take a raw pointer, or what has been made of one, and go
through it.  They have one shape, `PointerRule.checkCall`: recognise the callee by its path; if the
allocation behind a pointer has been reclaimed, report a use after free; if the state vouches for
the pointer, be silent; otherwise ask for an audit of the call.  They differ in what they
recognise, in the argument they look at, and in what they accept as a voucher.

A rule carries the two facts that the results of `San.UseAfterFree` need of it: its findings cannot
be confused with those for a use after free, and it looks at nothing but arguments of the call.
-/
namespace San

/-! ## Uses of reclaimed memory -/

/-- What `uaf_finding` builds for an access that `op` describes. -/
def uafFinding (span : Span) (op : String) (potential : Bool) : Finding :=
  ⟨"use_after_free", .warning, span,
    if potential then
      "potential use-after-free: " ++ op ++ " through a pointer whose allocation may " ++
        "already have been reclaimed (reconstituted via `from_raw` or a consuming " ++
        "call) on some control-flow path reaching here"
    else
      "use-after-free: " ++ op ++ " through a pointer whose allocation was already " ++
        "reclaimed (reconstituted via `from_raw` or a consuming call) — the raw " ++
        "pointer no longer owns valid memory"⟩

/-- What is said of an access: nothing, unless the pointer is freed. -/
def BlockState.useReport (s : BlockState) (span : Span) (access : Local × String) :
    Option Finding :=
  match s.freedKind access.1 with
  | .definite => some (uafFinding span access.2 false)
  | .potential => some (uafFinding span access.2 true)
  | .notFreed => none

section
variable {s : BlockState} {span : Span} {access : Local × String} {finding : Finding}

theorem BlockState.useReport_isSome :
    (s.useReport span access).isSome = true ↔ s.freedKind access.1 ≠ .notFreed := by
  unfold BlockState.useReport
  cases s.freedKind access.1 <;> simp

theorem BlockState.useReport_cases (h : s.useReport span access = some finding) :
    s.freedKind access.1 = .definite ∧ finding = uafFinding span access.2 false ∨
      s.freedKind access.1 = .potential ∧ finding = uafFinding span access.2 true := by
  unfold BlockState.useReport at h
  split at h
  · next hkind => exact .inl ⟨hkind, (Option.some.inj h).symm⟩
  · next hkind => exact .inr ⟨hkind, (Option.some.inj h).symm⟩
  · cases h

theorem BlockState.useReport_freed (h : s.useReport span access = some finding) :
    s.freedKind access.1 ≠ .notFreed :=
  BlockState.useReport_isSome.mp (Option.isSome_of_eq_some h)

theorem BlockState.useReport_key (h : s.useReport span access = some finding) :
    finding.key = ("use_after_free", span.lo, span.hi) := by
  rcases BlockState.useReport_cases h with ⟨-, rfl⟩ | ⟨-, rfl⟩ <;> rfl

end

/-! ## The shape -/

/-- The first of the alternatives that applies. -/
def firstMatch {α : Type} (alternatives : List (Bool × α)) : Option α :=
  (alternatives.find? Prod.fst).map Prod.snd

structure PointerRule where
  ruleId : String
  /-- What there is to say about a callee, if the rule is about it. -/
  message : String → Option String
  /-- The pointers that a callee of this path goes through, and how. -/
  accesses : String → List Operand → List (Local × String)
  /-- Does the state show that the call is fine? -/
  vouches : String → BlockState → List Operand → Bool
  ruleId_ne : ruleId ≠ "use_after_free"
  accesses_args : ∀ path args, ∀ access ∈ accesses path args,
    access.1 ∈ args.filterMap Operand.base

namespace PointerRule
variable (R : PointerRule)

/-- The accesses of a call to memory that has been reclaimed. -/
def uses (path : String) (call : CallSite) (state : Option BlockState) : List Finding :=
  state.elim [] fun s => (R.accesses path call.args).filterMap (s.useReport call.span)

/-- One call. -/
def checkCall (path : String) (call : CallSite) (state : Option BlockState) : List Finding :=
  (R.message path).elim [] fun message =>
    if R.uses path call state ≠ [] then R.uses path call state
    else if state.any fun s => R.vouches path s call.args then []
    else [⟨R.ruleId, .warning, call.span, message⟩]

/-- The call that ends `bb`. -/
def checkBlock (tcx : TyCtxt) {body : Body} (flow : FlowResults body) (bb : body.BasicBlock) :
    List Finding :=
  (body.callSite bb).elim [] fun call =>
    R.checkCall (tcx.defPathStr call.callee) call (flow.stateBeforeTerminator tcx bb)

def check (tcx : TyCtxt) {body : Body} (flow : FlowResults body) : List Finding :=
  (List.finRange body.numBlocks).flatMap (R.checkBlock tcx flow)

/-- A rule about one argument, which is found by `arg`. -/
def onArg (ruleId op : String) (message : String → Option String)
    (arg : List Operand → Option Local) (vouches : BlockState → Local → Bool)
    (hid : ruleId ≠ "use_after_free")
    (harg : ∀ args l, arg args = some l → l ∈ args.filterMap Operand.base) : PointerRule where
  ruleId := ruleId
  message := message
  accesses _ args := (arg args).toList.map fun l => (l, op)
  vouches _ s args := (arg args).any (vouches s)
  ruleId_ne := hid
  accesses_args _ args access haccess := by
    obtain ⟨l, hl, rfl⟩ := List.mem_map.mp haccess
    exact harg args l (Option.mem_toList.mp hl)

/-- A rule about the first argument. -/
def onFirst (ruleId op : String) (message : String → Option String)
    (vouches : BlockState → Local → Bool) (hid : ruleId ≠ "use_after_free") : PointerRule :=
  onArg ruleId op message firstArgLocal vouches hid fun _ _ => nthArgLocal_mem

end PointerRule

/-- The method is one of raw pointers. -/
def onRawPtr (path : String) : Bool := contains path "const_ptr" || contains path "mut_ptr"

/-- How a note on a function is put. -/
def noteOn (fnName note : String) : String := "`" ++ fnName ++ "` — " ++ note

/-! ## Reads, writes and drops -/

namespace PtrRead

def readMessage : String :=
  "`ptr::read` — verify src is non-null, properly aligned for T, valid for size_of::<T>() " ++
    "bytes, and fully initialized; the copy is a semantic move — dropping both the original " ++
    "and the copy is a double-drop"

def readUnalignedMessage : String :=
  "`ptr::read_unaligned` — verify src is non-null, valid for size_of::<T>() bytes, and fully " ++
    "initialized; the copy is a semantic move — dropping both the original and the copy is a " ++
    "double-drop"

def message (path : String) : Option String := firstMatch [
  (endsWith path "ptr::read_unaligned", readUnalignedMessage),
  (endsWith path "::read_volatile" && onRawPtr path,
    "`ptr::read_volatile` — src must be non-null, aligned, and valid for the hardware " ++
    "address; does NOT provide atomic ordering — not safe for concurrent access without " ++
    "additional synchronization"),
  (endsWith path "ptr::read", readMessage),
  (endsWith path "::read" && contains path "NonNull",
    "`NonNull::read` — NonNull guarantees non-null but NOT validity or alignment; the " ++
    "pointer must be properly aligned for T, valid for size_of::<T>() bytes, and point to " ++
    "initialized memory; copy semantics apply — double-drop if both the original and copy " ++
    "are dropped"),
  (endsWith path "::read_volatile" && contains path "NonNull",
    "`NonNull::read_volatile` — pointer must be non-null (guaranteed), properly aligned, and " ++
    "a valid hardware address; does NOT provide atomic ordering; copy semantics apply"),
  (endsWith path "::read_unaligned" && contains path "NonNull",
    "`NonNull::read_unaligned` — pointer must be non-null (guaranteed) and valid for " ++
    "size_of::<T>() bytes; copy semantics — dropping both the original and the copy is a " ++
    "double-drop"),
  (endsWith path "::read_unaligned" && onRawPtr path, readUnalignedMessage),
  (endsWith path "::read" && onRawPtr path, readMessage)]

def rule : PointerRule := .onFirst "ptr_read" "read" message BlockState.ptrIsRawOwned (by decide)

end PtrRead

namespace PtrWrite

def writeBytesMessage : String :=
  "`ptr::write_bytes` — verify dst is non-null, aligned, and valid for count*size_of::<T>() " ++
    "bytes; leaves typed values in potentially invalid states — only safe to use on " ++
    "MaybeUninit or to zero-init plain-data types"

def writeUnalignedMessage : String :=
  "`ptr::write_unaligned` — verify dst is non-null and valid for size_of::<T>() bytes; " ++
    "previous value at dst is NOT dropped (memory leak if initialized)"

def writeMessage : String :=
  "`ptr::write` — verify dst is non-null, properly aligned, and valid for size_of::<T>() " ++
    "bytes; previous value at dst is NOT dropped (memory leak if initialized)"

def replaceMessage : String :=
  "`ptr::replace` — dst must be non-null, aligned, and valid; returns the old value " ++
    "(ownership transferred to caller — must be dropped or used)"

def message (path : String) : Option String := firstMatch [
  (endsWith path "::write_volatile" && contains path "mut_ptr",
    "`ptr::write_volatile` — dst must be non-null, aligned, and a valid hardware address; " ++
    "does NOT provide atomic ordering — not safe for concurrent access without additional " ++
    "synchronization; previous value at dst is NOT dropped"),
  (endsWith path "ptr::write_bytes", writeBytesMessage),
  (endsWith path "ptr::write_unaligned", writeUnalignedMessage),
  (endsWith path "ptr::write", writeMessage),
  (endsWith path "ptr::replace", replaceMessage),
  (endsWith path "::write" && contains path "NonNull",
    "`NonNull::write` — dst must be properly aligned for T and valid for size_of::<T>() " ++
    "bytes; previous value at dst is NOT dropped (leak if initialized)"),
  (endsWith path "::replace" && contains path "NonNull",
    "`NonNull::replace` — dst must be non-null, aligned, and valid; returns the old value " ++
    "(caller owns it and must drop it)"),
  (endsWith path "::write_bytes" && contains path "NonNull",
    "`NonNull::write_bytes` — verify dst is non-null and valid for count*size_of::<T>() " ++
    "bytes; leaves typed values in potentially invalid states — only safe on MaybeUninit or " ++
    "for zero-init of plain-data types"),
  (endsWith path "::write_volatile" && contains path "NonNull",
    "`NonNull::write_volatile` — pointer must be non-null (guaranteed), properly aligned, " ++
    "and a valid hardware address; does NOT provide atomic ordering; previous value at dst " ++
    "is NOT dropped"),
  (endsWith path "::write_unaligned" && contains path "NonNull",
    "`NonNull::write_unaligned` — pointer must be non-null (guaranteed) and valid for " ++
    "size_of::<T>() bytes; previous value at dst is NOT dropped (leak if initialized)"),
  (endsWith path "::write_bytes" && onRawPtr path, writeBytesMessage),
  (endsWith path "::write_unaligned" && onRawPtr path, writeUnalignedMessage),
  (endsWith path "::replace" && onRawPtr path, replaceMessage),
  (endsWith path "::write" && onRawPtr path, writeMessage)]

def rule : PointerRule := .onFirst "ptr_write" "write" message BlockState.ptrIsRawOwned (by decide)

end PtrWrite

namespace PtrDropInPlace

def message (path : String) : Option String :=
  (firstMatch [
    (endsWith path "ptr::drop_in_place", "ptr::drop_in_place"),
    (endsWith path "::drop_in_place" && contains path "NonNull", "NonNull::drop_in_place"),
    (endsWith path "::drop_in_place" && onRawPtr path, "ptr::drop_in_place")]).map fun fnName =>
      "`" ++ fnName ++ "` — ensure the pointer is valid and aligned, call it exactly once " ++
        "(double-drop if called twice), and use a DropGuard (reset len to 0 before the loop) " ++
        "if iterating to protect against double-free when element drops panic"

def rule : PointerRule :=
  .onFirst "ptr_drop_in_place" "drop" message BlockState.ptrIsRawOwned (by decide)

end PtrDropInPlace

namespace PtrSwap

def message (path : String) : Option String :=
  (firstMatch [
    (endsWithAny path ["::swap_nonoverlapping", "ptr::swap_nonoverlapping",
        "intrinsics::swap_nonoverlapping"],
      ("ptr::swap_nonoverlapping",
        "both pointers must be non-null, aligned, and each valid for count*size_of::<T>() " ++
        "bytes; the two regions must NOT overlap — overlapping regions are immediate UB; " ++
        "common mistake: passing byte counts instead of element counts")),
    (endsWith path "ptr::swap" || endsWith path "::swap" && onRawPtr path,
      ("ptr::swap",
        "both pointers must be non-null, properly aligned for T, valid for size_of::<T>() " ++
        "bytes of reads and writes, and point to initialized values; regions may overlap " ++
        "(ptr::swap handles this), but each must be within a single allocation")),
    (endsWith path "::swap" && contains path "NonNull",
      ("NonNull::swap",
        "both NonNull pointers must be properly aligned for T and valid for size_of::<T>() " ++
        "bytes of reads and writes; non-null is guaranteed but alignment and initialization " ++
        "are not"))]).map
      fun (fnName, note) => noteOn fnName note

def rule : PointerRule := .onFirst "ptr_swap" "read" message BlockState.ptrIsRawOwned (by decide)

end PtrSwap

namespace CloneToUninitCall

def message (path : String) : Option String :=
  if endsWith path "::clone_to_uninit" then
    some ("`clone_to_uninit` — dst must be non-null, aligned, and valid for size_of_val(src) " ++
      "bytes; dst must NOT hold an initialized value (the old value will not be dropped — " ++
      "leak if initialized); if the clone panics, dst is partially initialized — UB to use " ++
      "afterward")
  else none

/-- The destination is the second argument. -/
def rule : PointerRule :=
  .onArg "clone_to_uninit_call" "write" message (nthArgLocal · 1) BlockState.ptrIsRawOwned
    (by decide) fun _ _ => nthArgLocal_mem

end CloneToUninitCall

namespace ManuallyDrop

def message (path : String) : Option String :=
  (firstMatch [
    (endsWithAny path ["ManuallyDrop::<T>::drop", "ManuallyDrop::drop"],
      ("ManuallyDrop::drop",
        "must be called exactly once; double-drop if called twice or if the inner value was " ++
        "already moved out via ManuallyDrop::take")),
    (endsWithAny path ["ManuallyDrop::<T>::take", "ManuallyDrop::take"],
      ("ManuallyDrop::take",
        "moves out by copy — calling twice yields two owners of the same value; dropping " ++
        "both is a double-drop; do not use the ManuallyDrop afterwards"))]).map
      fun (fnName, note) => noteOn fnName note

def rule : PointerRule :=
  .onFirst "manually_drop" "read" message BlockState.ptrIsRawOwned (by decide)

end ManuallyDrop

/-! ## References and slices made of pointers -/

namespace PtrAsRef

def message (path : String) : Option String :=
  (firstMatch [
    (endsWith path "::as_ref" && onRawPtr path,
      ("*const T::as_ref",
        "no mutable reference to the same memory must exist simultaneously")),
    (endsWith path "::as_mut" && contains path "mut_ptr",
      ("*mut T::as_mut",
        "no other reference (mutable or shared) to the same memory must exist for the " ++
        "lifetime of the returned &mut T"))]).map
      fun (fnName, extra) =>
        "`" ++ fnName ++ "` — if non-null: pointer must be valid, aligned, and point to " ++
          "initialized T; " ++ extra ++ "; returned reference must not outlive the allocation"

def rule : PointerRule := .onFirst "ptr_as_ref" "read" message BlockState.ptrIsRawOwned (by decide)

end PtrAsRef

namespace PtrAsRefUnchecked

def message (path : String) : Option String :=
  (firstMatch [
    (endsWith path "::as_ref_unchecked" && onRawPtr path,
      ("as_ref_unchecked",
        "no check is made for null; pointer must be non-null, valid, aligned, and point to " ++
        "initialized T; no mutable alias may exist")),
    (endsWith path "::as_mut_unchecked" && contains path "mut_ptr",
      ("as_mut_unchecked",
        "no check is made for null; pointer must be non-null, valid, aligned, and point to " ++
        "initialized T; exclusive access required — no other reference (shared or mutable) " ++
        "may exist for the lifetime of the returned &mut T"))]).map
      fun (fnName, extra) =>
        "`" ++ fnName ++ "` — " ++ extra ++ "; use `as_ref()`/`as_mut()` for the checked " ++
          "`Option`-returning variants"

def rule : PointerRule :=
  .onFirst "ptr_as_ref_unchecked" "read" message BlockState.ptrIsRawOwned (by decide)

end PtrAsRefUnchecked

namespace NonNullDeref

def message (path : String) : Option String :=
  (firstMatch [
    (endsWithAny path ["NonNull::<T>::as_ref", "NonNull::as_ref"],
      ("NonNull::as_ref",
        "no mutable reference to the same memory must exist simultaneously")),
    (endsWithAny path ["NonNull::<T>::as_mut", "NonNull::as_mut"],
      ("NonNull::as_mut",
        "no other reference (mutable or shared) to the same memory must exist for the " ++
        "lifetime of the returned &mut T")),
    (endsWith path "::as_uninit_ref" && contains path "NonNull",
      ("NonNull::as_uninit_ref",
        "pointer must be valid and aligned for T even though the value may be uninit; no " ++
        "mutable reference to the same memory must exist simultaneously")),
    (endsWith path "::as_uninit_mut" && contains path "NonNull",
      ("NonNull::as_uninit_mut",
        "pointer must be valid and aligned for T; no other reference to the same memory must " ++
        "exist for the lifetime of the returned &mut MaybeUninit<T>")),
    (endsWith path "::as_uninit_slice" && contains path "NonNull",
      ("NonNull::as_uninit_slice",
        "pointer must be valid for len elements and properly aligned for T; no mutable " ++
        "reference to any of the elements may exist simultaneously"))]).map
      fun (fnName, extra) =>
        "`" ++ fnName ++ "` — pointer must be valid, aligned, and point to initialized T; " ++
          extra ++ "; returned reference must not outlive the allocation"

/-- The pointer may be a field of the first argument. -/
def rule : PointerRule :=
  .onArg "nonnull_deref" "read" message firstArgBaseLocal BlockState.ptrIsRawOwned (by decide)
    fun _ _ => firstArgBaseLocal_mem

end NonNullDeref

namespace NonNullNewUnchecked

def message (path : String) : Option String :=
  if endsWithAny path ["NonNull::<T>::new_unchecked", "NonNull::new_unchecked"] then
    some ("`NonNull::new_unchecked` — pointer must be non-null (null is immediate UB); use " ++
      "`NonNull::new` (returns Option) unless the pointer provably comes from a non-null " ++
      "source")
  else none

/-- A pointer that is not null is fine too. -/
def rule : PointerRule :=
  .onFirst "nonnull_new_unchecked" "read" message
    (fun s l => s.ptrIsRawOwned l || s.localIsNonzero l) (by decide)

end NonNullNewUnchecked

namespace AtomicFromPtr

def message (path : String) : Option String :=
  if endsWith path "::from_ptr" &&
      (contains path "sync::atomic" || contains path "portable_atomic") then
    some ("`Atomic::from_ptr` — pointer must be non-null, aligned, valid for the reference " ++
      "lifetime, and must not be aliased by non-atomic accesses; concurrent non-atomic " ++
      "access to the same memory is a data race (UB)")
  else none

def rule : PointerRule :=
  .onFirst "atomic_from_ptr" "read" message BlockState.ptrIsRawOwned (by decide)

end AtomicFromPtr

namespace SliceFromRawParts

def message (path : String) : Option String :=
  if endsWith path "::slice_from_raw_parts" && contains path "NonNull" then
    some ("`NonNull::slice_from_raw_parts` — data pointer must be non-null (guaranteed), " ++
      "properly aligned for T, and valid for `len` consecutive initialized elements; len " ++
      "must not exceed the backing allocation")
  else if endsWith path "from_ptr_range" || endsWith path "from_mut_ptr_range" then
    let fnName :=
      if endsWith path "from_mut_ptr_range" then "slice::from_mut_ptr_range"
      else "slice::from_ptr_range"
    let extra :=
      if endsWith path "from_mut_ptr_range" then " with exclusive mutable access" else ""
    some ("`" ++ fnName ++ "` — both pointers must be derived from the same allocation, " ++
      "properly aligned, and the range [start, end) must be valid for the returned lifetime" ++
      extra ++ "; stable since Rust 1.73")
  else
    let isMut := endsWith path "from_raw_parts_mut"
    if !isMut && !endsWith path "from_raw_parts" then none
    else if !contains path "slice::" then none
    else
      let fnName := if isMut then "from_raw_parts_mut" else "from_raw_parts"
      let access := if isMut then "mutably exclusive" else "immutably accessible"
      some ("`" ++ fnName ++ "` requires: non-null aligned ptr, " ++ access ++ "'s `len` " ++
        "initialized elements of the correct type, and a valid lifetime — verify all three " ++
        "invariants")

def rule : PointerRule :=
  .onFirst "slice_from_raw_parts" "read" message BlockState.ptrIsRawOwned (by decide)

end SliceFromRawParts

namespace PtrFromRawParts

def note : String :=
  "for trait objects: vtable metadata must match the concrete type behind the data pointer " ++
    "exactly — type confusion is immediate UB; for slices: len must not exceed the backing " ++
    "allocation"

def message (path : String) : Option String :=
  (firstMatch [
    (endsWith path "ptr::from_raw_parts_mut", ("ptr::from_raw_parts_mut", note)),
    (endsWith path "ptr::from_raw_parts", ("ptr::from_raw_parts", note)),
    (contains path "NonNull" && endsWith path "::from_raw_parts",
      ("NonNull::from_raw_parts",
        "data pointer must be non-null and properly aligned; for trait objects: vtable " ++
        "metadata must match the concrete type exactly (type confusion is immediate UB); for " ++
        "slices: len must not exceed the backing allocation"))]).map
      fun (fnName, note) => noteOn fnName note

def rule : PointerRule :=
  .onFirst "ptr_from_raw_parts" "read" message BlockState.ptrIsRawOwned (by decide)

end PtrFromRawParts

namespace CStrFromPtr

def description (path : String) : Option (String × String) := firstMatch [
  (endsWith path "CStr::from_ptr",
    ("CStr::from_ptr",
      "ptr must be non-null, point to a valid null-terminated C string, and remain valid for " ++
      "the returned &CStr's lifetime; embedded null bytes silently truncate the string (path " ++
      "injection risk)")),
  (endsWith path "CStr::from_bytes_with_nul_unchecked",
    ("CStr::from_bytes_with_nul_unchecked",
      "bytes must end with exactly one b'\\0' and contain no interior null bytes; use " ++
      "CStr::from_bytes_with_nul (returns Result) instead")),
  (endsWith path "CString::from_vec_unchecked",
    ("CString::from_vec_unchecked",
      "bytes must contain no null bytes (interior or trailing); use CString::new (returns " ++
      "Result) instead")),
  (endsWith path "CString::from_vec_with_nul_unchecked",
    ("CString::from_vec_with_nul_unchecked",
      "bytes must contain exactly one null byte and it must be the last byte; use " ++
      "CString::from_vec_with_nul (returns Result) instead"))]

/-- The pointer, if the callee takes one: the other functions take bytes. -/
def pointer (path : String) (args : List Operand) : Option Local :=
  if (description path).any fun d => d.1 == "CStr::from_ptr" then firstArgLocal args else none

def rule : PointerRule where
  ruleId := "cstr_from_ptr"
  message path := (description path).map fun (fnName, note) => noteOn fnName note
  accesses path args := (pointer path args).toList.map fun l => (l, "read")
  vouches path s args := (pointer path args).any s.ptrIsRawOwned
  ruleId_ne := by decide
  accesses_args path args access haccess := by
    obtain ⟨l, hl, rfl⟩ := List.mem_map.mp haccess
    have hpointer : pointer path args = some l := Option.mem_toList.mp hl
    unfold pointer at hpointer
    split at hpointer
    · exact nthArgLocal_mem hpointer
    · cases hpointer

end CStrFromPtr

/-! ## Arithmetic on pointers -/

namespace PtrArith

def message (path : String) : Option String :=
  if !onPointer path then none
  else firstMatch [
    (endsWith path "::wrapping_byte_offset",
      "`ptr::wrapping_byte_offset` (wrapping, byte) — result may be outside the allocation; " ++
      "must not be dereferenced unless provably within bounds"),
    (endsWith path "::wrapping_byte_add",
      "`ptr::wrapping_byte_add` (wrapping, byte) — result may be outside the allocation; " ++
      "must not be dereferenced unless provably within bounds"),
    (endsWith path "::wrapping_byte_sub",
      "`ptr::wrapping_byte_sub` (wrapping, byte) — result may be outside the allocation; " ++
      "must not be dereferenced unless provably within bounds"),
    (endsWith path "::wrapping_add",
      "`ptr::wrapping_add` (wrapping) — result may be outside the allocation; must not be " ++
      "dereferenced unless provably within bounds"),
    (endsWith path "::wrapping_sub",
      "`ptr::wrapping_sub` (wrapping) — result may be outside the allocation; must not be " ++
      "dereferenced unless provably within bounds"),
    (endsWith path "::wrapping_offset",
      "`ptr::wrapping_offset` (wrapping) — result may be outside the allocation; must not be " ++
      "dereferenced unless provably within bounds"),
    (endsWith path "::add",
      "`ptr::add` — both original and result must stay within the same allocation; " ++
      "offset*size_of::<T>() must not overflow isize; going before the start of an " ++
      "allocation is UB"),
    (endsWith path "::sub",
      "`ptr::sub` — both original and result must stay within the same allocation; " ++
      "offset*size_of::<T>() must not overflow isize; going before the start of an " ++
      "allocation is UB"),
    (endsWith path "::offset",
      "`ptr::offset` — both original and result must stay within the same allocation; " ++
      "offset*size_of::<T>() must not overflow isize; going before the start of an " ++
      "allocation is UB"),
    (endsWith path "::offset_from",
      "`ptr::offset_from` — both self and origin must point into the same allocated object; " ++
      "cross-allocation offset_from is immediate UB; result is in units of T, not bytes"),
    (endsWith path "::byte_add",
      "`ptr::byte_add` — result must stay within the same allocation; byte offset must not " ++
      "overflow isize; going past the end (or before start) is UB"),
    (endsWith path "::byte_sub",
      "`ptr::byte_sub` — result must stay within the same allocation; byte offset must not " ++
      "overflow isize; going before the start of an allocation is UB"),
    (endsWith path "::byte_offset",
      "`ptr::byte_offset` — result must stay within the same allocation; signed byte offset " ++
      "must not overflow isize; going outside the allocation is UB"),
    (endsWith path "::byte_offset_from",
      "`ptr::byte_offset_from` — both self and origin must point into the same allocated " ++
      "object; cross-allocation comparison is immediate UB; result is in bytes (not T " ++
      "elements)"),
    (endsWith path "::sub_ptr",
      "`ptr::sub_ptr` — self must be >= origin and both must point into the same allocation; " ++
      "cross-allocation subtraction is UB; result is in units of T"),
    (endsWith path "::offset_from_unsigned",
      "`ptr::offset_from_unsigned` — self must be >= origin and both must point into the " ++
      "same allocated object; cross-allocation comparison is UB; result is the distance in " ++
      "units of T (unsigned)"),
    (endsWith path "::byte_offset_from_unsigned",
      "`ptr::byte_offset_from_unsigned` — self must be >= origin and both must point into " ++
      "the same allocated object; cross-allocation comparison is UB; result is the distance " ++
      "in bytes (unsigned)"),
    (endsWith path "::mask",
      "`ptr::mask` — the resulting pointer must still point into the same allocation as the " ++
      "original; masking bits that cross allocation boundaries produces a dangling pointer — " ++
      "any dereference would be UB (nightly feature `ptr_mask`)")]

def rule : PointerRule := .onFirst "ptr_arith" "read" message BlockState.ptrIsRawOwned (by decide)

end PtrArith

/-! ## Volatile accesses -/

namespace VolatileIntrinsics

/-- The intrinsics for unaligned accesses end like those for aligned ones and come after them, so
their notes are never reached. -/
def description (path : String) : Option (String × String) := firstMatch [
  (endsWith path "volatile_load",
    ("volatile_load",
      "src must be valid for reads and properly aligned; does NOT provide synchronization — " ++
      "concurrent access from another thread is still a data race; use atomics for " ++
      "inter-thread communication")),
  (endsWith path "volatile_store",
    ("volatile_store",
      "dst must be valid for writes and properly aligned; NOT atomic — do not use for " ++
      "inter-thread signaling without additional synchronization; use atomics or a mutex " ++
      "instead")),
  (endsWith path "volatile_set_memory",
    ("volatile_set_memory",
      "dst must be valid for count * size_of::<T>() bytes; does NOT reliably clear sensitive " ++
      "memory — the compiler may elide subsequent non-volatile reads; for zeroing secrets " ++
      "use write_bytes + black_box or a platform explicit_bzero")),
  (endsWith path "volatile_copy_nonoverlapping_memory",
    ("volatile_copy_nonoverlapping_memory",
      "both pointers must be valid for count elements and must NOT overlap; not atomic — " ++
      "concurrent access to either range is a data race")),
  (endsWith path "volatile_copy_memory",
    ("volatile_copy_memory",
      "both pointers must be valid for count elements (overlap is allowed unlike the " ++
      "nonoverlapping variant); not atomic — concurrent access to either range is a data race")),
  (endsWith path "nontemporal_store",
    ("nontemporal_store",
      "dst must be valid for writes and properly aligned; streaming stores bypass the CPU " ++
      "cache — other threads may see stale data without an explicit memory fence (e.g. " ++
      "SFENCE on x86) after the store sequence; NOT atomic")),
  (endsWith path "unaligned_volatile_load",
    ("unaligned_volatile_load",
      "src must be valid for reads of size_of::<T>() bytes; alignment is NOT required " ++
      "(unlike volatile_load), so misaligned access is allowed but the value must still be " ++
      "initialized; does NOT provide synchronization — concurrent writes from another thread " ++
      "are still a data race")),
  (endsWith path "unaligned_volatile_store",
    ("unaligned_volatile_store",
      "dst must be valid for writes of size_of::<T>() bytes; alignment is NOT required, so " ++
      "misaligned writes are allowed; NOT atomic — do not use for inter-thread signaling " ++
      "without additional synchronization"))]

def isCopy (path : String) : Bool :=
  endsWith path "volatile_copy_nonoverlapping_memory" || endsWith path "volatile_copy_memory"

def isLoad (path : String) : Bool :=
  endsWith path "volatile_load" || endsWith path "unaligned_volatile_load"

/-- Copies have a second pointer, which is read. -/
def accesses (path : String) (args : List Operand) : List (Local × String) :=
  ((firstArgLocal args).toList.map fun l => (l, if isLoad path then "read" else "write")) ++
    ((if isCopy path then nthArgLocal args 1 else none).toList.map fun l => (l, "read"))

def rule : PointerRule where
  ruleId := "volatile_intrinsics"
  message path := (description path).map fun (fnName, note) => noteOn fnName note
  accesses := accesses
  vouches _ s args := (firstArgLocal args).any s.ptrIsRawOwned
  ruleId_ne := by decide
  accesses_args path args access haccess := by
    rcases List.mem_append.mp haccess with h | h
    · obtain ⟨l, hl, rfl⟩ := List.mem_map.mp h
      exact nthArgLocal_mem (Option.mem_toList.mp hl)
    · obtain ⟨l, hl, rfl⟩ := List.mem_map.mp h
      split at hl
      · exact nthArgLocal_mem (Option.mem_toList.mp hl)
      · cases hl

theorem endsWith_trans {path a b : String} (h : endsWith path a = true)
    (hab : endsWith a b = true) : endsWith path b = true := by
  simp only [endsWith, List.isSuffixOf_iff_suffix] at h hab ⊢
  exact hab.trans h

/-- An unaligned access gets the note for an aligned one. -/
theorem description_unaligned (path : String) :
    (endsWith path "unaligned_volatile_load" = true →
      (description path).map Prod.fst = some "volatile_load") ∧
    (endsWith path "unaligned_volatile_store" = true →
      (description path).map Prod.fst = some "volatile_store") := by
  unfold description firstMatch
  constructor
  · intro h
    have hload : endsWith path "volatile_load" = true := endsWith_trans h (by decide)
    rw [List.find?_cons_of_pos (p := Prod.fst) hload]
    rfl
  · intro h
    have hload : endsWith path "volatile_load" = false :=
      endsWith_eq_false h (by decide) (by decide)
    have hstore : endsWith path "volatile_store" = true := endsWith_trans h (by decide)
    rw [List.find?_cons_of_neg (p := Prod.fst) (by rw [hload]; decide),
      List.find?_cons_of_pos (p := Prod.fst) hstore]
    rfl

end VolatileIntrinsics

/-! ## Shared ownership and type-erased boxes -/

namespace WakerFromRaw

def message (path : String) : Option String :=
  (firstMatch [
    (endsWith path "Waker::from_raw" && !contains path "LocalWaker",
      ("Waker::from_raw",
        "vtable fn pointers must be valid and thread-safe (Waker is Send+Sync); data pointer " ++
        "must outlive all Waker clones; clone/drop must be correctly paired — missing drop " ++
        "leaks, double-drop is UB")),
    (endsWith path "Waker::new" && !contains path "Local" && !contains path "Raw",
      ("Waker::new",
        "data pointer must be valid for the lifetime of all Waker clones; all four vtable " ++
        "function pointers (clone, wake, wake_by_ref, drop) must be valid and thread-safe " ++
        "(Waker is Send+Sync); drop must free the data exactly once — stable since 1.83.0")),
    (endsWith path "LocalWaker::from_raw",
      ("LocalWaker::from_raw",
        "vtable fn pointers must be valid; data pointer must outlive the LocalWaker and all " ++
        "clones; clone/drop must be correctly paired")),
    (endsWith path "LocalWaker::new",
      ("LocalWaker::new",
        "data pointer must be valid for the lifetime of all LocalWaker clones; vtable " ++
        "functions must be valid; LocalWaker is !Send+!Sync so the data pointer need not be " ++
        "thread-safe, but must not be sent across threads (nightly feature `local_waker`)"))]).map
      fun (fnName, note) => noteOn fnName note

def rule : PointerRule :=
  .onFirst "waker_from_raw" "read" message BlockState.ptrIsRawOwned (by decide)

end WakerFromRaw

namespace ArcStrongCount

def typeName (path : String) : String := if contains path "Arc" then "Arc" else "Rc"

/-- The method and what it needs, for one of the two types. -/
def description (path : String) : Option (String × String) :=
  let typeName := typeName path
  let counted := contains path "Arc" || contains path "Rc"
  firstMatch [
    (endsWith path "::increment_strong_count" && counted,
      ("increment_strong_count",
        "manually increments the strong count of a raw `" ++ typeName ++ "` pointer; ptr " ++
        "must be valid and owned by a live `" ++ typeName ++ "`, and every manual increment " ++
        "must be balanced by a matching decrement or `" ++ typeName ++ "::from_raw`; an " ++
        "unbalanced increment causes a memory leak; an increment after the last `" ++ typeName ++
        "` was dropped is use-after-free")),
    (endsWith path "::decrement_strong_count" && counted,
      ("decrement_strong_count",
        "manually decrements the strong count of a raw `" ++ typeName ++ "` pointer; if this " ++
        "brings the count to zero, the value is **dropped and freed** while the raw pointer " ++
        "still exists — any subsequent access is use-after-free; must be exactly balanced " ++
        "with prior increments or clones")),
    (endsWith path "::increment_strong_count_in" && counted,
      ("increment_strong_count_in",
        "allocator-aware variant of `" ++ typeName ++ "::increment_strong_count`; all the " ++
        "same rules apply, and additionally the allocator `A` must exactly match the one " ++
        "used when the `" ++ typeName ++ "` was created")),
    (endsWith path "::decrement_strong_count_in" && counted,
      ("decrement_strong_count_in",
        "allocator-aware variant of `" ++ typeName ++ "::decrement_strong_count`; if count " ++
        "reaches zero the value is dropped and freed; allocator `A` must match the one used " ++
        "at creation"))]

def message (path : String) : Option String :=
  (description path).map fun (method, note) => noteOn (typeName path ++ "::" ++ method) note

def rule : PointerRule :=
  .onFirst "arc_strong_count" "read" message BlockState.ptrIsRawOwned (by decide)

end ArcStrongCount

namespace ArcGetMutUnchecked

def message (path : String) : Option String :=
  if !endsWith path "::get_mut_unchecked" then none
  else (firstMatch [
    (contains path "Arc",
      ("Arc",
        "also ensure no other Arc/Weak is dropped concurrently — the refcount write races " ++
        "with the returned &mut T (Issue #136322)")),
    (contains path "Rc",
      ("Rc",
        "also ensure no Rc clone is dropped for the borrow duration — a concurrent refcount " ++
        "decrement to zero while the &mut T is live is unsound (Issue #136322)"))]).map
      fun (container, extra) =>
        "`" ++ container ++ "::get_mut_unchecked` — strong count must be exactly 1 and no " ++
          "Weak must be upgrading; " ++ extra

/-- Nothing vouches for the counts. -/
def rule : PointerRule :=
  .onFirst "arc_get_mut_unchecked" "read" message (fun _ _ => false) (by decide)

end ArcGetMutUnchecked

namespace DowncastUnchecked

def message (path : String) : Option String :=
  if !endsWithAny path
      ["downcast_unchecked", "downcast_unchecked_ref", "downcast_unchecked_mut"] then none
  else
    let fnName :=
      if endsWith path "downcast_unchecked_ref" then "downcast_unchecked_ref"
      else if endsWith path "downcast_unchecked_mut" then "downcast_unchecked_mut"
      else "downcast_unchecked"
    let container :=
      if contains path "Rc" then "Rc<dyn Any>"
      else if contains path "Arc" then "Arc<dyn Any>"
      else "Box<dyn Any>"
    some ("`" ++ fnName ++ "` on `" ++ container ++ "` (or `dyn Any`) — caller must " ++
      "guarantee the actual runtime type is exactly T; a type mismatch produces a reference " ++
      "to the wrong type (type-confusion UB); use the checked downcast or `Any::is::<T>()` " ++
      "guard first")

def rule : PointerRule :=
  .onFirst "downcast_unchecked" "read" message (fun _ _ => false) (by decide)

end DowncastUnchecked

end San
