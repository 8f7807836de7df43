import San.CastEquality

/-! # Queries about pairs of locals

The state keeps pairs of locals that a branch has proven equal, and pairs that a branch has proven
different.  `locals_are_eq` looks for a pair through one cast on either side, `locals_are_ne`
through one borrow on either side.  The callers pass the two locals in any order.

`locals_are_ne` asks for each of the four pairs in turn and is symmetric (`localsAreNe_iff`,
`localsAreNe_comm`), so the checker for disjoint mutable references does not depend on the order of
the keys (`SliceDisjointUnchecked.keysSuppressed_perm`).  `locals_are_eq` commits itself to one pair
once its first local is a
cast, and loses the pairs with the origin of the second one (`pair_queries_iff`).
-/
namespace San

/-! ## The query for different locals -/

namespace BlockState

/-- Has a branch proven the two locals different? -/
def neRecorded (s : BlockState) (a b : Local) : Bool :=
  decide (orderPair (a, b) ∈ s.mustPairs .keysAreNe)

/-- Are `a` and `b` proven different, looking through one level of borrow? -/
def localsAreNe (s : BlockState) (a b : Local) : Bool :=
  if s.neRecorded a b then true
  else
    match (s.facts .refBase).get a, (s.facts .refBase).get b with
    | some sa, some sb =>
        if s.neRecorded sa b then true
        else if s.neRecorded a sb then true
        else s.neRecorded sa sb
    | some sa, none => s.neRecorded sa b
    | none, some sb => s.neRecorded a sb
    | none, none => false

end BlockState

/-- `x'` is `x` or what `m` binds it to. -/
def Through (m : FMap Local Local) (x x' : Local) : Prop := x' = x ∨ m.get x = some x'

/-- Some pair found by looking through `m` on either side satisfies `p`. -/
def PairThrough (m : FMap Local Local) (p : Local → Local → Prop) (a b : Local) : Prop :=
  ∃ a' b', Through m a a' ∧ Through m b b' ∧ p a' b'

theorem orderPair_comm (a b : Local) : orderPair (a, b) = orderPair (b, a) := by
  have hext : ∀ {x y : Local}, x.index = y.index → x = y := by
    rintro ⟨x⟩ ⟨y⟩ rfl
    rfl
  unfold orderPair
  dsimp only
  by_cases hab : a.index ≤ b.index
  · by_cases hba : b.index ≤ a.index
    · rw [hext (le_antisymm hab hba)]
    · rw [if_pos hab, if_neg hba]
  · rw [if_neg hab, if_pos (le_of_lt (not_le.mp hab))]

section Through
variable {m : FMap Local Local} {p : Local → Local → Prop} {a b : Local}

/-- Looking through is symmetric where the pairs are. -/
theorem PairThrough.symm (hp : ∀ x y, p x y → p y x) (h : PairThrough m p a b) :
    PairThrough m p b a := by
  obtain ⟨a', b', ha, hb, hab⟩ := h
  exact ⟨b', a', hb, ha, hp a' b' hab⟩

/-- The four pairs, or fewer where a side is bound to nothing. -/
theorem pairThrough_iff : PairThrough m p a b ↔
    p a b ∨ (∃ sa, m.get a = some sa ∧ p sa b) ∨ (∃ sb, m.get b = some sb ∧ p a sb) ∨
      ∃ sa sb, m.get a = some sa ∧ m.get b = some sb ∧ p sa sb := by
  constructor
  · rintro ⟨a', b', rfl | ha, rfl | hb, hp⟩
    · exact Or.inl hp
    · exact Or.inr (Or.inr (Or.inl ⟨b', hb, hp⟩))
    · exact Or.inr (Or.inl ⟨a', ha, hp⟩)
    · exact Or.inr (Or.inr (Or.inr ⟨a', b', ha, hb, hp⟩))
  · rintro (hp | ⟨sa, ha, hp⟩ | ⟨sb, hb, hp⟩ | ⟨sa, sb, ha, hb, hp⟩)
    · exact ⟨a, b, Or.inl rfl, Or.inl rfl, hp⟩
    · exact ⟨sa, b, Or.inr ha, Or.inl rfl, hp⟩
    · exact ⟨a, sb, Or.inl rfl, Or.inr hb, hp⟩
    · exact ⟨sa, sb, Or.inr ha, Or.inr hb, hp⟩

end Through

section Queries
variable (s : BlockState) (a b : Local)

/-- The pair is recorded as different. -/
def NePair (s : BlockState) (x y : Local) : Prop := orderPair (x, y) ∈ s.mustPairs .keysAreNe

/-- The locals are the same or recorded as equal. -/
def EqPair (s : BlockState) (x y : Local) : Prop := x = y ∨ orderPair (x, y) ∈ s.mustPairs .eqLocals

theorem NePair.symm {s : BlockState} (x y : Local) (h : NePair s x y) : NePair s y x := by
  unfold NePair
  rwa [orderPair_comm]

theorem EqPair.symm {s : BlockState} (x y : Local) (h : EqPair s x y) : EqPair s y x := by
  unfold EqPair
  rw [orderPair_comm]
  exact h.imp_left Eq.symm

theorem neRecorded_iff {x y : Local} : s.neRecorded x y = true ↔ NePair s x y := decide_eq_true_iff

/-- **`locals_are_ne` looks through one borrow on either side.** -/
theorem localsAreNe_iff :
    s.localsAreNe a b = true ↔ PairThrough (s.facts .refBase) (NePair s) a b := by
  rw [pairThrough_iff]
  unfold BlockState.localsAreNe
  by_cases hab : s.neRecorded a b = true
  · rw [if_pos hab]
    exact iff_of_true rfl (Or.inl ((neRecorded_iff s).mp hab))
  rw [if_neg hab, ← neRecorded_iff, or_iff_right hab]
  cases ha : (s.facts .refBase).get a with
  | none =>
    cases hb : (s.facts .refBase).get b with
    | none => simp
    | some sb => simp [neRecorded_iff]
  | some sa =>
    cases hb : (s.facts .refBase).get b with
    | none => simp [neRecorded_iff]
    | some sb =>
      simp only [Bool.if_true_left, Bool.or_eq_true, decide_eq_true_eq, Option.some.injEq,
        neRecorded_iff]
      simp

theorem localsAreNe_comm : s.localsAreNe a b = s.localsAreNe b a := by
  rw [Bool.eq_iff_iff, localsAreNe_iff, localsAreNe_iff]
  exact ⟨PairThrough.symm NePair.symm, PairThrough.symm NePair.symm⟩

/-! ## The query for equal locals -/

/-- The pairs that `locals_are_eq` asks for if both locals are casts. -/
def CastPairs (s : BlockState) (a b sa sb : Local) : Prop :=
  EqPair s a b ∨ sa = b ∨ sb = a ∨ sa = sb ∨ EqPair s sa b

/-- Where both locals are casts and one of the pairs with the origin of the second one is recorded,
the query finds another pair. -/
def CastsSeen (s : BlockState) (a b : Local) : Prop :=
  ∀ sa sb, (s.facts .castOrigin).get a = some sa → (s.facts .castOrigin).get b = some sb →
    EqPair s a sb ∨ EqPair s sa sb → CastPairs s a b sa sb

theorem eqRecorded_iff {x y : Local} :
    s.eqRecorded x y = true ↔ orderPair (x, y) ∈ s.mustPairs .eqLocals := decide_eq_true_iff

/-- With a cast on one side at most, `locals_are_eq` looks through it. -/
theorem localsAreEq_iff_of_none
    (h : (s.facts .castOrigin).get a = none ∨ (s.facts .castOrigin).get b = none) :
    s.localsAreEq a b = true ↔ PairThrough (s.facts .castOrigin) (EqPair s) a b := by
  rw [pairThrough_iff]
  unfold BlockState.localsAreEq EqPair
  simp only [← eqRecorded_iff, Bool.if_true_left, Bool.or_eq_true, decide_eq_true_eq, or_assoc]
  refine or_congr_right (or_congr_right ?_)
  cases ha : (s.facts .castOrigin).get a with
  | none =>
    cases hb : (s.facts .castOrigin).get b with
    | none => simp
    | some sb => simp [eq_comm (a := a)]
  | some sa =>
    rcases h with h | h
    · cases ha.symm.trans h
    · rw [h]
      simp

/-- With a cast on both sides it asks for the pair of the first origin only. -/
theorem localsAreEq_iff_of_casts {sa sb : Local} (ha : (s.facts .castOrigin).get a = some sa)
    (hb : (s.facts .castOrigin).get b = some sb) :
    s.localsAreEq a b = true ↔ CastPairs s a b sa sb := by
  unfold BlockState.localsAreEq CastPairs EqPair
  rw [ha, hb]
  simp only [← eqRecorded_iff, Bool.if_true_left, Bool.or_eq_true, decide_eq_true_eq]
  tauto

/-- **When `locals_are_eq` looks through one cast on either side.** -/
theorem looksThrough_iff :
    (s.localsAreEq a b = true ↔ PairThrough (s.facts .castOrigin) (EqPair s) a b) ↔
      CastsSeen s a b := by
  cases ha : (s.facts .castOrigin).get a with
  | none =>
    refine iff_of_true (localsAreEq_iff_of_none s a b (Or.inl ha)) fun sa _ hsa => ?_
    cases ha.symm.trans hsa
  | some sa =>
    cases hb : (s.facts .castOrigin).get b with
    | none =>
      refine iff_of_true (localsAreEq_iff_of_none s a b (Or.inr hb)) fun _ sb _ hsb => ?_
      cases hb.symm.trans hsb
    | some sb =>
      rw [localsAreEq_iff_of_casts s a b ha hb]
      constructor
      · rintro h sa' sb' hsa hsb hpair
        cases ha.symm.trans hsa
        cases hb.symm.trans hsb
        refine h.mpr (pairThrough_iff.mpr (Or.inr (Or.inr ?_)))
        exact hpair.imp (fun hp => ⟨sb, hb, hp⟩) fun hp => ⟨sa, sb, ha, hb, hp⟩
      · intro hseen
        refine ⟨fun hcast => pairThrough_iff.mpr ?_, fun hthrough => ?_⟩
        · rcases hcast with hp | hp | hp | hp | hp
          · exact Or.inl hp
          · exact Or.inr (Or.inl ⟨sa, ha, Or.inl hp⟩)
          · exact Or.inr (Or.inr (Or.inl ⟨sb, hb, Or.inl hp.symm⟩))
          · exact Or.inr (Or.inr (Or.inr ⟨sa, sb, ha, hb, Or.inl hp⟩))
          · exact Or.inr (Or.inl ⟨sa, ha, hp⟩)
        · rcases pairThrough_iff.mp hthrough with hp | ⟨_, ha', hp⟩ | ⟨_, hb', hp⟩ |
            ⟨_, _, ha', hb', hp⟩
          · exact Or.inl hp
          · cases ha.symm.trans ha'
            exact Or.inr (Or.inr (Or.inr (Or.inr hp)))
          · cases hb.symm.trans hb'
            exact hseen sa sb ha hb (Or.inl hp)
          · cases ha.symm.trans ha'
            cases hb.symm.trans hb'
            exact hseen sa sb ha hb (Or.inr hp)

end Queries

/-- **The pair queries are right about `a` and `b`**: both look through one level on either side,
in either order of the locals, and both are symmetric. -/
structure PairQueriesRight (s : BlockState) (a b : Local) : Prop where
  eq : s.localsAreEq a b = true ↔ PairThrough (s.facts .castOrigin) (EqPair s) a b
  eq_swapped : s.localsAreEq b a = true ↔ PairThrough (s.facts .castOrigin) (EqPair s) b a
  ne : s.localsAreNe a b = true ↔ PairThrough (s.facts .refBase) (NePair s) a b
  ne_swapped : s.localsAreNe b a = true ↔ PairThrough (s.facts .refBase) (NePair s) b a
  eq_comm : s.localsAreEq a b = s.localsAreEq b a
  ne_comm : s.localsAreNe a b = s.localsAreNe b a

/-- **When the pair queries are right**: where both locals are casts, no pair with the origin of the
second one is needed, in either order. -/
theorem pair_queries_iff (s : BlockState) (a b : Local) :
    PairQueriesRight s a b ↔ CastsSeen s a b ∧ CastsSeen s b a := by
  constructor
  · intro h
    exact ⟨(looksThrough_iff s a b).mp h.eq, (looksThrough_iff s b a).mp h.eq_swapped⟩
  · rintro ⟨hab, hba⟩
    have heq := (looksThrough_iff s a b).mpr hab
    have heq' := (looksThrough_iff s b a).mpr hba
    refine ⟨heq, heq', localsAreNe_iff s a b, localsAreNe_iff s b a, ?_, localsAreNe_comm s a b⟩
    rw [Bool.eq_iff_iff, heq, heq']
    exact ⟨PairThrough.symm EqPair.symm, PairThrough.symm EqPair.symm⟩

/-- `_1` is a cast of `_3` and `_2` a cast of `_4`, and the pair is proven equal. -/
def castsOf (x y : Nat) : BlockState :=
  ((BlockState.default.insertFact .castOrigin (Local.ofNat 1) (Local.ofNat 3)).insertFact
    .castOrigin (Local.ofNat 2) (Local.ofNat 4)).onMustPairs [.eqLocals]
      (insert (Local.ofNat x, Local.ofNat y))

/-- **Casts of equal numbers.**  If `_3 == _4` is proven, `_1` and `_2` are not found to be equal;
if `_1 == _4` is proven, they are found to be equal in one order only. -/
theorem cast_pairs_missed :
    ¬ PairQueriesRight (castsOf 3 4) (Local.ofNat 1) (Local.ofNat 2) ∧
    ((castsOf 1 4).localsAreEq (Local.ofNat 1) (Local.ofNat 2) = false ∧
      (castsOf 1 4).localsAreEq (Local.ofNat 2) (Local.ofNat 1) = true) ∧
    ∀ s ∈ [castsOf 3 4, castsOf 1 4], ∀ k ∈ [MustPairs.eqLocals, .keysAreNe],
      ∀ p ∈ s.mustPairs k, p.1.index ≤ p.2.index := by
  refine ⟨fun h => ?_, by decide +kernel, by decide +kernel⟩
  have hseen : PairThrough ((castsOf 3 4).facts .castOrigin) (EqPair (castsOf 3 4))
      (Local.ofNat 1) (Local.ofNat 2) :=
    ⟨Local.ofNat 3, Local.ofNat 4, Or.inr (by decide +kernel), Or.inr (by decide +kernel),
      Or.inr (by decide +kernel)⟩
  exact absurd (h.eq.mpr hseen) (by decide +kernel)

/-! ## Disjoint mutable references -/

/-- Is the local, or every component of it, proven to be less than something? -/
def BlockState.indexIsFullyBounded (s : BlockState) (l : Local) : Bool :=
  match s.arrayComponents.get l with
  | some components => !components.isEmpty && components.all s.localIsBounded
  | none => s.localIsBounded l

namespace SliceDisjointUnchecked

def isDisjointMut (path : String) : Bool := endsWith path "get_disjoint_unchecked_mut"

def isKeyDisjoint (path : String) : Bool :=
  endsWithAny path ["::get2_unchecked_mut", "::get_many_unchecked_mut",
    "::get_many_key_value_unchecked_mut"]

/-- Is each key proven to differ from those before it? -/
def allNe (s : BlockState) (comps : List Local) : Bool :=
  comps.zipIdx.all fun key => (comps.take key.2).all (s.localsAreNe key.1)

/-- Do the keys of an array excuse the call?  Integers have to be bounded as well. -/
def keysSuppressed (body : Body) (s : BlockState) (comps : List Local) : Bool :=
  if comps.length ≤ 1 then false
  else if !allNe s comps then false
  else if comps.any fun c => (body.localTy c).isInteger then comps.all s.indexIsFullyBounded
  else true

def arraySuppressed (body : Body) (s : BlockState) (args : List Operand) : Bool :=
  ((argLocal args 1).bind s.arrayComponents.get).any (keysSuppressed body s)

def individualSuppressed (path : String) (s : BlockState) (args : List Operand) : Bool :=
  isKeyDisjoint path && ((argLocal args 1).any fun a => (argLocal args 2).any (s.localsAreNe a))

def message (path : String) : String :=
  if isDisjointMut path then
    "all indices must be in-bounds (< self.len()) and pairwise distinct; " ++
      "duplicate indices produce aliased `&mut T` references (immediate UB); " ++
      "use the checked variant (returns Err/None on overlap)"
  else
    "all keys must be pairwise distinct; duplicate keys produce aliased " ++
      "`&mut T` references (immediate UB); use the checked variant (returns " ++
      "Err/None on duplicate keys)"

def checkCall (body : Body) (path : String) (call : CallSite) (s : Option BlockState) :
    Option Finding :=
  if !isDisjointMut path && !isKeyDisjoint path then none
  else if s.any fun s => arraySuppressed body s call.args || individualSuppressed path s call.args
    then none
  else some ⟨"disjoint_unchecked_mut", .warning, call.span,
    "`" ++ AssumeInit.lastSegment path ++ "` — " ++ message path⟩

def check (tcx : TyCtxt) {body : Body} (flow : FlowResults body) : List Finding :=
  checkCalls tcx flow (checkCall body)

/-- The keys are pairwise proven different. -/
theorem allNe_iff (s : BlockState) (comps : List Local) :
    allNe s comps = true ↔ comps.Pairwise fun a b => s.localsAreNe a b = true := by
  unfold allNe
  rw [List.all_eq_true, List.pairwise_iff_getElem]
  constructor
  · intro h i j hi hj hij
    have hkey := h (comps[j], j) (List.mk_mem_zipIdx_iff_getElem?.mpr (List.getElem?_eq_getElem hj))
    rw [localsAreNe_comm]
    exact List.all_eq_true.mp hkey _ (List.mem_take_iff_getElem.mpr ⟨i, lt_min hij hi, rfl⟩)
  · rintro h ⟨a, j⟩ hkey
    obtain ⟨hj, rfl⟩ := List.getElem?_eq_some_iff.mp (List.mk_mem_zipIdx_iff_getElem?.mp hkey)
    refine List.all_eq_true.mpr fun b hb => ?_
    obtain ⟨i, hi, rfl⟩ := List.mem_take_iff_getElem.mp hb
    rw [localsAreNe_comm]
    exact h i j (lt_of_lt_of_le hi (min_le_right _ _)) hj (lt_of_lt_of_le hi (min_le_left _ _))

/-- **The order of the keys is irrelevant**: however the keys are arranged in the array, the call
is excused or not. -/
theorem keysSuppressed_perm (body : Body) (s : BlockState) {xs ys : List Local} (h : xs.Perm ys) :
    keysSuppressed body s xs = keysSuppressed body s ys := by
  have hne : allNe s xs = allNe s ys := by
    rw [Bool.eq_iff_iff, allNe_iff, allNe_iff]
    exact h.pairwise_iff fun {a b} hab => (localsAreNe_comm s b a).trans hab
  unfold keysSuppressed
  rw [h.length_eq, hne, h.any_eq, h.all_eq]

/-- **What excuses an array of keys**: through at most one borrow each, every two of them have
been proven different. -/
theorem keysSuppressed_distinct {body : Body} {s : BlockState} {comps : List Local}
    (h : keysSuppressed body s comps = true) :
    comps.Pairwise (PairThrough (s.facts .refBase) (NePair s)) := by
  unfold keysSuppressed at h
  split at h
  · cases h
  split at h
  · cases h
  rename_i hne
  have hne : allNe s comps = true := by simpa using hne
  exact ((allNe_iff s comps).mp hne).imp fun {a b} => (localsAreNe_iff s a b).mp

end SliceDisjointUnchecked

end San
