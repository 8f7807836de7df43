import San.Mir

/-! # Recognising callees by their definition path

The transfer functions classify a callee by tests on the string the compiler
prints for it (`tcx.def_path_str`): suffixes pick out the method, substrings the
type.  The tests are kept exactly as the source writes them, because several of
them overlap and the order in which `applyTerminator` asks them decides which one
wins.
-/
namespace San

/-- `path.ends_with(s)`. -/
def endsWith (path s : String) : Bool := s.toList.isSuffixOf path.toList

/-- `path.contains(s)`. -/
def contains (path s : String) : Bool := path.toList.tails.any (s.toList.isPrefixOf ·)

/-- Does `path` end with one of the suffixes? -/
def endsWithAny (path : String) (ss : List String) : Bool := ss.any (endsWith path)

/-- Does `path` contain one of the substrings? -/
def containsAny (path : String) (ss : List String) : Bool := ss.any (contains path)

/-- Of two suffixes of a path the shorter one is a suffix of the longer one. -/
theorem endsWith_total {path a b : String} (ha : endsWith path a = true)
    (hb : endsWith path b = true) : endsWith a b = true ∨ endsWith b a = true := by
  simp only [endsWith, List.isSuffixOf_iff_suffix] at ha hb ⊢
  exact (List.suffix_or_suffix_of_suffix ha hb).symm

/-- A path does not end with two texts neither of which ends with the other. -/
theorem endsWith_eq_false {path a b : String} (ha : endsWith path a = true)
    (hab : endsWith a b = false) (hba : endsWith b a = false) : endsWith path b = false := by
  refine Bool.eq_false_iff.mpr fun hb => ?_
  rcases endsWith_total ha hb with h | h
  · rw [h] at hab; cases hab
  · rw [h] at hba; cases hba

/-- Families of suffixes neither of which contains a suffix of the other have no path in
common. -/
theorem endsWithAny_disjoint {path : String} {as bs : List String}
    (hdisjoint : ∀ a ∈ as, ∀ b ∈ bs, endsWith a b = false ∧ endsWith b a = false)
    (h : endsWithAny path as = true) : endsWithAny path bs = false := by
  obtain ⟨a, ha, hpath⟩ := List.any_eq_true.mp h
  refine List.any_eq_false.mpr fun b hb hpathb => ?_
  obtain ⟨hab, hba⟩ := hdisjoint a ha b hb
  rw [endsWith_eq_false hpath hab hba] at hpathb
  cases hpathb

def isReallocatingMethod (path : String) : Bool :=
  let onBuffer := contains path "vec::Vec" || contains path "string::String"
  onBuffer && endsWithAny path
    ["::reserve", "::reserve_exact", "::try_reserve", "::try_reserve_exact", "::shrink_to_fit",
      "::shrink_to", "::into_boxed_slice", "::push", "::push_str", "::insert", "::append",
      "::extend_from_slice", "::resize", "::resize_with", "::extend_from_within", "::insert_str"]

def isIntoRaw (path : String) : Bool :=
  let tailMatches := endsWithAny path
    ["::into_raw", "::into_raw_with_allocator", "::into_non_null", "::into_raw_parts",
      "::into_raw_parts_with_alloc"]
  let typeMatches := containsAny path
    ["::Box::", "::Box<", "::Arc::", "::Arc<", "::Rc::", "::Rc<", "::Vec::", "::Vec<",
      "::String::", "::Thread::", "::Weak::", "::Weak<", "::CString::", "::CStr::", "triomphe"]
  -- A raw allocator call also hands out a freshly owned pointer.
  let rawAlloc :=
    ["std::alloc::alloc", "core::alloc::alloc", "alloc::alloc::alloc", "__rust_alloc",
      "std::alloc::alloc_zeroed", "core::alloc::alloc_zeroed", "alloc::alloc::alloc_zeroed",
      "__rust_alloc_zeroed"].contains path
    || endsWith path "Allocator::allocate"
    || endsWith path "Allocator::allocate_zeroed"
  (tailMatches && typeMatches) || rawAlloc

def isGlobalPtrCopyToSecondArg (path : String) : Bool :=
  (endsWith path "ptr::copy" || endsWith path "ptr::copy_nonoverlapping")
    && !contains path "const_ptr" && !contains path "mut_ptr" && !contains path "NonNull"

/-- The path belongs to a raw pointer or to `NonNull`. -/
def onPointer (path : String) : Bool :=
  contains path "const_ptr" || contains path "mut_ptr" || contains path "NonNull"

def isPtrWriteToFirstArg (path : String) : Bool :=
  onPointer path && endsWithAny path
    ["::write", "::write_unaligned", "::write_bytes", "::copy_from", "::copy_from_nonoverlapping"]

def isPtrPureRead (path : String) : Bool :=
  onPointer path && endsWithAny path
    ["::is_null", "::is_aligned", "::is_aligned_to", "::addr", "::expose_provenance", "::as_ptr",
      "::guaranteed_ne", "::guaranteed_eq", "::align_offset", "::offset_from",
      "::byte_offset_from", "::sub_ptr"]

def isFromRaw (path : String) : Bool :=
  let direct := endsWith path "::from_raw" && containsAny path
    ["::Box::", "::Box<", "::Arc::", "::Arc<", "::Rc::", "::Rc<", "::Weak::", "::Weak<",
      "::Thread::", "::CString::", "::CStr::", "triomphe"]
  let fromRawIn := endsWith path "::from_raw_in" && containsAny path
    ["::Box::", "::Box<", "::Arc::", "::Arc<", "::Rc::", "::Rc<"]
  let fromNonNull := endsWithAny path ["::from_non_null", "::from_non_null_in"]
    && containsAny path ["::Box::", "::Box<"]
  let vecParts := endsWithAny path ["::from_raw_parts", "::from_raw_parts_in"]
    && containsAny path ["::Vec::", "::Vec<", "::String::"]
  let triompheThin := endsWith path "::from_raw_slice" && contains path "triomphe"
  -- A raw deallocation frees the tracked allocation.
  let rawDealloc :=
    ["std::alloc::dealloc", "core::alloc::dealloc", "alloc::alloc::dealloc",
      "__rust_dealloc"].contains path
    || endsWith path "Allocator::deallocate"
  direct || fromRawIn || fromNonNull || vecParts || rawDealloc || triompheThin

def isMemForget (path : String) : Bool := path == "std::mem::forget" || path == "core::mem::forget"

def isRawRealloc (path : String) : Bool :=
  ["std::alloc::realloc", "core::alloc::realloc", "alloc::alloc::realloc",
    "__rust_realloc"].contains path
  || endsWithAny path ["Allocator::grow", "Allocator::grow_zeroed", "Allocator::shrink"]

def isPtrRead (path : String) : Bool :=
  endsWith path "ptr::read" || endsWith path "ptr::read_unaligned"
    || (onPointer path && endsWithAny path ["::read", "::read_unaligned"])
    || (contains path "ManuallyDrop" && endsWithAny path ["::new", "::take", "::into_inner"])

def isEpochPin (path : String) : Bool :=
  endsWithAny path ["::pin", "::pin_reuse"] && contains path "epoch"

def isLockAcquire (path : String) : Bool :=
  endsWithAny path ["::lock", "::try_lock", "::lock_arc"] && containsAny path
    ["::Mutex::", "::Mutex<", "::RwLock::", "::RwLock<", "::ReentrantMutex::",
      "::ReentrantMutex<"]

def isMaybeUninitInit (path : String) : Bool :=
  contains path "MaybeUninit" && (endsWith path "::new" || endsWith path "::zeroed")

def isMaybeUninitWrite (path : String) : Bool :=
  contains path "MaybeUninit" && endsWith path "::write"

def isMaybeUninitAsMutPtr (path : String) : Bool :=
  contains path "MaybeUninit" && endsWith path "::as_mut_ptr"

def isBufWrite (path : String) : Bool :=
  endsWithAny path
    ["::put_slice", "::put_bytes", "::put", "::put_u8", "::put_i8",
      "::put_u16", "::put_u16_le", "::put_u16_ne", "::put_i16", "::put_i16_le", "::put_i16_ne",
      "::put_u32", "::put_u32_le", "::put_u32_ne", "::put_i32", "::put_i32_le", "::put_i32_ne",
      "::put_u64", "::put_u64_le", "::put_u64_ne", "::put_i64", "::put_i64_le", "::put_i64_ne",
      "::put_f32", "::put_f32_le", "::put_f32_ne", "::put_f64", "::put_f64_le", "::put_f64_ne"]

def isMaybeUninitAssumeInit (path : String) : Bool :=
  contains path "MaybeUninit" && contains path "assume_init"

def isIntoRawFd (path : String) : Bool :=
  endsWithAny path ["::into_raw_fd", "::into_raw_socket", "::into_raw_handle"]

def isFromRawFdCall (path : String) : Bool :=
  endsWithAny path
    ["::from_raw_fd", "::from_raw_socket", "::from_raw_handle", "::from_raw_handle_or_invalid"]
  || (endsWith path "::borrow_raw"
    && (contains path "BorrowedFd" || contains path "BorrowedSocket"))

/-- Calls whose result has the provenance of their first argument. -/
def isOwnedBufferAccessor (path : String) : Bool :=
  let bufferAccessor := endsWithAny path ["::as_mut_ptr", "::as_ptr"]
    && containsAny path ["vec::Vec", "[T]", "string::String"]
  let nonnullTransform := contains path "NonNull"
    && (endsWithAny path ["::as_ptr", "::new_unchecked", "::new"] || contains path "::cast"
      || endsWithAny path ["::as_mut", "::as_ref"])
  let rawPtrTransform := (contains path "const_ptr" || contains path "mut_ptr")
    && (endsWithAny path
        ["::offset", "::add", "::sub", "::byte_offset", "::byte_add", "::byte_sub",
          "::wrapping_offset", "::wrapping_add", "::wrapping_sub", "::wrapping_byte_offset",
          "::wrapping_byte_add", "::wrapping_byte_sub"]
      || contains path "::cast")
  let sliceBuild := endsWithAny path ["slice::from_raw_parts", "slice::from_raw_parts_mut"]
  let fatPtrBuild := endsWithAny path
    ["ptr::from_raw_parts", "ptr::from_raw_parts_mut", "ptr::with_metadata_of"]
  let rawWaker := endsWith path "RawWaker::new"
  bufferAccessor || nonnullTransform || rawPtrTransform || sliceBuild || fatPtrBuild || rawWaker

/-- Calls that never return a null pointer. -/
def returnsNonNull (path : String) : Bool :=
  endsWithAny path ["::as_ptr", "::as_mut_ptr", "::as_non_null_ptr", "::as_non_null_slice",
    "::as_non_null"]

def isLayoutFromSizeAlign (path : String) : Bool :=
  endsWithAny path ["Layout::from_size_align_unchecked", "Layout::from_size_alignment_unchecked"]

def isThreadSpawn (path : String) : Bool :=
  endsWithAny path ["thread::spawn", "Builder::spawn", "Builder::spawn_unchecked"]

end San
