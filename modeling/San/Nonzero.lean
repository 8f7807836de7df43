import San.Intervals

/-! # Proven nonzero

`local_is_nonzero` holds of a local in the `nonzero` set and of one whose lower bound is at
least one.  Both are fed by constants, copies, casts and `|`, and on the edges of a switch by the
comparisons with constants that have been recorded for the condition.

The constants of comparisons are compared as raw bits, and a cast keeps the mark whatever its
width.  So a mark may be wrong in three ways: a cast cuts a nonzero value to zero, a comparison
with a negative constant is taken for one with a large positive one, or the compared local has
been assigned since.  `nonzero_sound_iff` says that there is no other way.
-/
namespace San

/-- Every local that is proven nonzero is. -/
def NonzeroSound (s : BlockState) (σ : Store) : Prop :=
  ∀ l, s.localIsNonzero l = true → σ l ≠ 0

theorem localIsNonzero_iff {s : BlockState} {l : Local} : s.localIsNonzero l = true ↔
    l ∈ s.mustSets .nonzero ∨ ∃ lb, s.constLower.get l = some lb ∧ 1 ≤ lb := by
  simp only [BlockState.localIsNonzero, Bool.or_eq_true, decide_eq_true_eq, Option.any_eq_true]

theorem localIsNonzero_congr {F : List Field} {s t : BlockState} (hw : Writes F s t)
    (hF : ∀ f ∈ F, f ≠ .mustSet .nonzero ∧ f ≠ .constLower) (l : Local) :
    t.localIsNonzero l = s.localIsNonzero l := by
  unfold BlockState.localIsNonzero
  rw [show t.mustSets .nonzero = s.mustSets .nonzero from
      hw (.mustSet .nonzero) fun hm => (hF _ hm).1 rfl,
    show t.constLower = s.constLower from hw .constLower fun hm => (hF _ hm).2 rfl]

theorem localIsNonzero_insertMust {s : BlockState} {x l : Local} :
    (s.insertMust .nonzero x).localIsNonzero l = true ↔ l = x ∨ s.localIsNonzero l = true := by
  rw [localIsNonzero_iff, localIsNonzero_iff]
  show l ∈ insert x (s.mustSets .nonzero) ∨ _ ↔ _
  rw [Finset.mem_insert, or_assoc]
  rfl

theorem localIsNonzero_boundBelow {s : BlockState} {x l : Local} {lb : U64} :
    (s.boundBelow x lb).localIsNonzero l = true ↔
      (l = x ∧ 1 ≤ lb) ∨ s.localIsNonzero l = true := by
  rw [localIsNonzero_iff, localIsNonzero_iff]
  simp only [BlockState.boundBelow, FMap.get_insert]
  by_cases hl : l = x
  · subst hl
    have hmax : ∀ a b : U64, 1 ≤ max a b ↔ 1 ≤ a ∨ 1 ≤ b := fun a b => le_max_iff
    simp only [if_true, Option.some.injEq, exists_eq_left', hmax, true_and]
    cases s.constLower.get l with
    | none => simp [or_comm]
    | some w =>
      simp only [Option.getD_some, Option.some.injEq, exists_eq_left']
      rw [← or_assoc, or_comm]
  · simp only [hl, if_false, false_and, false_or]

/-! ## Recorded comparisons -/

/-- What may be recorded of a local for a condition. -/
inductive NumFact
  | const (kind : ConstFact) (k : U64)
  | ifTrue
  | ifFalse

/-- The fact is recorded of `x` for the condition `c`. -/
def BlockState.hasFact (s : BlockState) (c x : Local) : NumFact → Prop
  | .const kind k => (s.constFacts kind).get c = some (x, k)
  | .ifTrue => (s.facts .nonzeroIfTrue).get c = some x
  | .ifFalse => (s.facts .nonzeroIfFalse).get c = some x

/-- The fact makes the compared local nonzero on the edge of polarity `pol`. -/
def NumFact.Marks (pol : Bool) : NumFact → Prop
  | .ifTrue => pol = true
  | .ifFalse => pol = false
  | .const .constGt _ => pol = true
  | .const .constGe k => pol = true ∧ 1 ≤ k
  | .const .constLt k => pol = false ∧ 1 ≤ k
  | .const .constLe _ => pol = false

/-- `x` is compared with `k`, in this order. -/
def ComparesWith (op1 op2 : Operand) (x : Local) (k : U64) : Prop :=
  operandLocal op1 = some x ∧ constU64 op2 = some k

/-- The comparison of a local with a constant that an operation makes, read from the local. -/
def ConstComparison (op : BinOp) (op1 op2 : Operand) (kind : ConstFact) (x : Local) (k : U64) :
    Prop :=
  match op, kind with
  | .lt, .constLt | .le, .constLe | .gt, .constGt | .ge, .constGe => ComparesWith op1 op2 x k
  | .lt, .constGt | .le, .constGe | .gt, .constLt | .ge, .constLe => ComparesWith op2 op1 x k
  | _, _ => False

/-- What a comparison records. -/
def Records (op : BinOp) (op1 op2 : Operand) (x : Local) : NumFact → Prop
  | .const kind k => ConstComparison op op1 op2 kind x k
  | .ifTrue => (op = .ne ∧ comparedWithZero op1 op2 = some x) ∨
      (ConstComparison op op1 op2 .constGt x 0) ∨
      ∃ k, 1 ≤ k ∧ ConstComparison op op1 op2 .constGe x k
  | .ifFalse => op = .eq ∧ comparedWithZero op1 op2 = some x

/-- The fields that hold such facts. -/
def Field.numFacts : List Field :=
  [Field.fact .nonzeroIfTrue, Field.fact .nonzeroIfFalse] ++ ConstFact.all.map Field.constFact

/-- From `t` to `u` no fact is added but facts in `R`, for the condition `dst`. -/
def Adds (dst : Local) (R : Local → NumFact → Prop) (t u : BlockState) : Prop :=
  ∀ c x f, u.hasFact c x f → t.hasFact c x f ∨ c = dst ∧ R x f

namespace Adds
variable {dst : Local} {R : Local → NumFact → Prop} {s t u : BlockState} {F : List Field}

theorem trans (h : Adds dst R s t) (h' : Adds dst R t u) : Adds dst R s u := by
  intro c x f hf
  rcases h' c x f hf with hf | hR
  · exact h c x f hf
  · exact Or.inr hR

theorem frame (hw : Writes F s t) (hF : ∀ f ∈ Field.numFacts, f ∉ F) : Adds dst R s t := by
  intro c x f hf
  refine Or.inl ?_
  cases f with
  | const kind k =>
    exact (congrArg (FMap.get · c) (show t.constFacts kind = s.constFacts kind from
      hw (.constFact kind) (hF _ (by cases kind <;> decide)))).symm.trans hf
  | ifTrue =>
    exact (congrArg (FMap.get · c) (show t.facts .nonzeroIfTrue = s.facts .nonzeroIfTrue from
      hw (.fact .nonzeroIfTrue) (hF _ (by decide)))).symm.trans hf
  | ifFalse =>
    exact (congrArg (FMap.get · c) (show t.facts .nonzeroIfFalse = s.facts .nonzeroIfFalse from
      hw (.fact .nonzeroIfFalse) (hF _ (by decide)))).symm.trans hf

theorem insertIfTrue {y : Local} (hR : R y .ifTrue) :
    Adds dst R t (t.insertFact .nonzeroIfTrue dst y) := by
  intro c x f hf
  cases f with
  | const kind k => exact Or.inl hf
  | ifFalse => exact Or.inl hf
  | ifTrue =>
    have hget : ((t.facts .nonzeroIfTrue).insert dst y).get c = some x := hf
    rw [FMap.get_insert] at hget
    split at hget
    · rename_i hc
      cases hget
      exact Or.inr ⟨hc, hR⟩
    · exact Or.inl hget

theorem insertIfFalse {y : Local} (hR : R y .ifFalse) :
    Adds dst R t (t.insertFact .nonzeroIfFalse dst y) := by
  intro c x f hf
  cases f with
  | const kind k => exact Or.inl hf
  | ifTrue => exact Or.inl hf
  | ifFalse =>
    have hget : ((t.facts .nonzeroIfFalse).insert dst y).get c = some x := hf
    rw [FMap.get_insert] at hget
    split at hget
    · rename_i hc
      cases hget
      exact Or.inr ⟨hc, hR⟩
    · exact Or.inl hget

theorem recordConst {kind : ConstFact} {l : Option Local} {k : Option U64}
    (hR : ∀ y k', l = some y → k = some k' → R y (.const kind k')) :
    Adds dst R t (San.recordConst kind dst l k t) := by
  unfold San.recordConst
  split
  · rename_i y k'
    intro c x f hf
    cases f with
    | ifTrue => exact Or.inl hf
    | ifFalse => exact Or.inl hf
    | const kind' k'' =>
      by_cases hkind : kind' = kind
      · subst hkind
        have hget : ((t.onConstFacts [kind'] (·.insert dst (y, k'))).constFacts kind').get c =
          some (x, k'') := hf
        simp only [BlockState.onConstFacts, List.mem_singleton, if_true, FMap.get_insert] at hget
        split at hget
        · rename_i hc
          cases hget
          exact Or.inr ⟨hc, hR y k' rfl rfl⟩
        · exact Or.inl hget
      · refine Or.inl ?_
        show (t.constFacts kind').get c = some (x, k'')
        have hget : ((t.onConstFacts [kind] (·.insert dst (y, k'))).constFacts kind').get c =
          some (x, k'') := hf
        simpa only [BlockState.onConstFacts, List.mem_singleton, hkind, if_false] using hget
  · exact fun c x f hf => Or.inl hf

theorem recordNonzero {l : Option Local} {k : Option U64} {p : U64 → Bool}
    (hR : ∀ y k', l = some y → k = some k' → p k' = true → R y .ifTrue) :
    Adds dst R t (San.recordNonzero dst l k p t) := by
  unfold San.recordNonzero
  split
  · split
    · rename_i hp
      exact insertIfTrue (hR _ _ rfl rfl hp)
    · exact fun c x f hf => Or.inl hf
  · exact fun c x f hf => Or.inl hf

end Adds

section Records
variable {dst : Local} {t : BlockState}

/-- An equality records what it says about zero. -/
theorem Adds.compareEq {R : Local → NumFact → Prop} {full onZero : Fact} {pair : PairFact}
    (hfull : .fact full ∉ Field.numFacts) {op1 op2 : Operand}
    (hR : ∀ y u, comparedWithZero op1 op2 = some y →
      Adds dst R u (u.insertFact onZero dst y)) :
    Adds dst R t (San.compareEq full onZero pair dst op1 op2 t) := by
  refine Adds.trans (Adds.frame (t.onFacts_writes Fact.comparisons (·.erase dst)) (by decide)) ?_
  refine Adds.trans (Adds.frame (recordFull_writes _ full dst op1 op2) ?_) ?_
  · exact fun f hf hm => hfull (List.mem_singleton.mp hm ▸ hf)
  · refine Adds.trans ?_ (Adds.frame (recordPair_writes _ pair dst op1 op2) (by cases pair <;> decide))
    split
    · rename_i y hy
      exact hR y _ hy
    · exact fun c x f hf => Or.inl hf

/-- **What a comparison records**, and nothing else, is new. -/
theorem adds_recordBinaryOp (body : Body) {op : BinOp} (hop : op.isComparison = true)
    (op1 op2 : Operand) :
    Adds dst (Records op op1 op2) t (recordBinaryOp body op op1 op2 dst t) := by
  have hspare : ∀ {R : Local → NumFact → Prop} {k : Fact} {capFirst : Bool} (u : BlockState),
      .fact k ∉ Field.numFacts → Adds dst R u (recordSpare k dst op1 op2 capFirst u) :=
    fun u hk => Adds.frame (recordSpare_writes u _ dst op1 op2 _)
      fun f hf hm => hk (List.mem_singleton.mp hm ▸ hf)
  have hset : ∀ {R : Local → NumFact → Prop} {k : Fact} (u : BlockState), k ∈ Fact.comparisons →
      Adds dst R u (setComparison u k dst (operandLocal op1)) := fun u hk =>
    Adds.frame (setComparison_writes u hk dst _) (by decide)
  have hpair : ∀ {R : Local → NumFact → Prop} (k : PairFact) (o : Option (Local × Local)),
      Adds dst R t (t.onPairFacts [k] (·.put dst o)) := fun k o =>
    Adds.frame (t.onPairFacts_writes [k] _) (by cases k <;> decide)
  cases op with
  | lt =>
    refine (hpair _ _).trans <| (hset _ (by decide)).trans <| (hspare _ (by decide)).trans <|
      (Adds.recordConst ?_).trans <| (Adds.recordConst ?_).trans (Adds.recordNonzero ?_)
    · exact fun y k hy hk => ⟨hy, hk⟩
    · exact fun y k hy hk => ⟨hy, hk⟩
    · intro y k hy hk hp
      cases of_decide_eq_true hp
      exact Or.inr (Or.inl ⟨hy, hk⟩)
  | ge =>
    refine (hset _ (by decide)).trans <| (hspare _ (by decide)).trans <|
      (Adds.recordConst ?_).trans <| (Adds.recordNonzero ?_).trans (Adds.recordConst ?_)
    · exact fun y k hy hk => ⟨hy, hk⟩
    · exact fun y k hy hk hp => Or.inr (Or.inr ⟨k, of_decide_eq_true hp, hy, hk⟩)
    · exact fun y k hy hk => ⟨hy, hk⟩
  | le =>
    refine (hpair _ _).trans <| (hset _ (by decide)).trans <| (hspare _ (by decide)).trans <|
      (Adds.recordConst ?_).trans <| (Adds.recordConst ?_).trans (Adds.recordNonzero ?_)
    · exact fun y k hy hk => ⟨hy, hk⟩
    · exact fun y k hy hk => ⟨hy, hk⟩
    · exact fun y k hy hk hp => Or.inr (Or.inr ⟨k, of_decide_eq_true hp, hy, hk⟩)
  | gt =>
    refine (hset _ (by decide)).trans <| (hspare _ (by decide)).trans <|
      (Adds.recordConst ?_).trans <| (Adds.recordNonzero ?_).trans (Adds.recordConst ?_)
    · exact fun y k hy hk => ⟨hy, hk⟩
    · intro y k hy hk hp
      cases of_decide_eq_true hp
      exact Or.inr (Or.inl ⟨hy, hk⟩)
    · exact fun y k hy hk => ⟨hy, hk⟩
  | eq => exact Adds.compareEq (by decide) fun y u hy => Adds.insertIfFalse ⟨rfl, hy⟩
  | ne => exact Adds.compareEq (by decide) fun y u hy => Adds.insertIfTrue (Or.inl ⟨rfl, hy⟩)
  | _ => cases hop

end Records

/-! ## What a comparison says -/

/-- `w` is the outcome of the comparison. -/
def Outcome (body : Body) (σ : Store) (op : BinOp) (op1 op2 : Operand) (w : Nat) : Prop :=
  op.isComparison = true ∧ ∃ ty, (Rvalue.binaryOp op op1 op2).Yields body σ ty w

/-- The constant operands are not negative: their bits are the numbers they stand for. -/
def ReadAsIs (body : Body) (op1 op2 : Operand) : Prop :=
  ∀ k, constU64 op1 = some k ∨ constU64 op2 = some k →
    (operandsTy body op1 op2).toInt k.val = k.val

/-- The fact comes from a comparison of the values that the locals have. -/
def AccountedFor (body : Body) (σ : Store) (w : Nat) (x : Local) (f : NumFact) : Prop :=
  ∃ op op1 op2, Outcome body σ op op1 op2 w ∧ Records op op1 op2 x f

/-- The fact comes from a comparison with a negative constant. -/
def ComparedWithNegative (body : Body) (σ : Store) (w : Nat) (x : Local) (f : NumFact) : Prop :=
  ∃ op op1 op2, Outcome body σ op op1 op2 w ∧ Records op op1 op2 x f ∧ ¬ ReadAsIs body op1 op2

section Comparisons
variable {body : Body} {σ : Store} {op : BinOp} {op1 op2 : Operand} {w : Nat} {x : Local}

theorem flag_ne_zero {p : Prop} [Decidable p] : flag p ≠ 0 ↔ p := by
  unfold flag
  split <;> simp_all

theorem operandLocal_of_constU64 {op : Operand} {k : U64} (h : constU64 op = some k) :
    operandLocal op = none := by
  cases op with
  | constant c => rfl
  | copy p => cases h
  | move p => cases h

theorem operandsTy_left (h : operandLocal op1 = some x) :
    operandsTy body op1 op2 = body.localTy x := by
  simp only [operandsTy, h, Option.some_or, Option.map_some, Option.getD_some]

theorem operandsTy_right {k : U64} (h1 : constU64 op1 = some k) (h2 : operandLocal op2 = some x) :
    operandsTy body op1 op2 = body.localTy x := by
  simp only [operandsTy, operandLocal_of_constU64 h1, h2, Option.none_or, Option.map_some,
    Option.getD_some]

/-- A comparison of a local with a constant, read from the local. -/
theorem Outcome.holds_iff (h : Outcome body σ op op1 op2 w) {kind : ConstFact} {k : U64}
    (hcmp : ConstComparison op op1 op2 kind x k) :
    w ≠ 0 ↔ kind.Holds ((body.localTy x).toInt (σ x)) ((body.localTy x).toInt k.val) := by
  obtain ⟨hop, ty, _, a, b, ha, hb, _, hres⟩ := h
  -- the two operand orders, with the operands' values put in
  have hleft : ∀ {y z : Operand}, ComparesWith y z x k → (y = op1 ∧ z = op2) →
      a = σ x ∧ b = k.val ∧ operandsTy body op1 op2 = body.localTy x := by
    rintro y z ⟨hy, hz⟩ ⟨rfl, rfl⟩
    exact ⟨ha.of_local hy, hb.of_const hz, operandsTy_left hy⟩
  have hright : ∀ {y z : Operand}, ComparesWith y z x k → (y = op2 ∧ z = op1) →
      a = k.val ∧ b = σ x ∧ operandsTy body op1 op2 = body.localTy x := by
    rintro y z ⟨hy, hz⟩ ⟨rfl, rfl⟩
    exact ⟨ha.of_const hz, hb.of_local hy, operandsTy_right hz hy⟩
  cases op <;> cases kind <;> first
    | exact hcmp.elim
    | obtain ⟨rfl, rfl, hty⟩ := hleft hcmp ⟨rfl, rfl⟩
      rw [hres _ rfl, hty]
      exact flag_ne_zero
    | obtain ⟨rfl, rfl, hty⟩ := hright hcmp ⟨rfl, rfl⟩
      rw [hres _ rfl, hty]
      exact flag_ne_zero

theorem comparedWithZero_eq_some (h : comparedWithZero op1 op2 = some x) :
    (operandLocal op1 = some x ∧ constU64 op2 = some 0) ∨
      (operandLocal op2 = some x ∧ constU64 op1 = some 0) := by
  rcases Option.or_eq_some_iff.mp h with h | ⟨_, h⟩
  · obtain ⟨l, hl, h⟩ := Option.bind_eq_some_iff.mp h
    split at h
    · rename_i hz
      cases h
      exact Or.inl ⟨hl, hz⟩
    · cases h
  · split at h
    · rename_i hz
      exact Or.inr ⟨h, hz⟩
    · cases h

/-- A comparison with zero for equality. -/
theorem Outcome.zero_iff (h : Outcome body σ op op1 op2 w)
    (hzero : comparedWithZero op1 op2 = some x) :
    (op = .ne → (w ≠ 0 ↔ σ x ≠ 0)) ∧ (op = .eq → (w ≠ 0 ↔ σ x = 0)) := by
  obtain ⟨hop, ty, _, a, b, ha, hb, _, hres⟩ := h
  have hab : (a = b) ↔ σ x = 0 := by
    rcases comparedWithZero_eq_some hzero with ⟨hl, hk⟩ | ⟨hl, hk⟩
    · rw [ha.of_local hl, hb.of_const hk]
      rfl
    · rw [ha.of_const hk, hb.of_local hl]
      exact eq_comm
  refine ⟨?_, ?_⟩
  · rintro rfl
    rw [hres _ rfl, flag_ne_zero, ne_eq, hab]
  · rintro rfl
    rw [hres _ rfl, flag_ne_zero, hab]

theorem Ty.toInt_zero (ty : Ty) : ty.toInt 0 = 0 := by
  unfold Ty.toInt
  split
  · rename_i h
    exact absurd h.2 (Nat.not_le.mpr (Nat.two_pow_pos _))
  · rfl

theorem ne_zero_of_toInt {ty : Ty} {v : Nat} (h : ty.toInt v ≠ 0) : v ≠ 0 := by
  rintro rfl
  exact h ty.toInt_zero

/-- A constant that a local is compared with reads as it is. -/
theorem ReadAsIs.of_constComparison (h : ReadAsIs body op1 op2) {kind : ConstFact} {k : U64}
    (hcmp : ConstComparison op op1 op2 kind x k) : (body.localTy x).toInt k.val = k.val := by
  have hleft : ComparesWith op1 op2 x k → (body.localTy x).toInt k.val = k.val := by
    rintro ⟨hx, hk⟩
    have hty : operandsTy body op1 op2 = body.localTy x := operandsTy_left hx
    exact hty ▸ h k (Or.inr hk)
  have hright : ComparesWith op2 op1 x k → (body.localTy x).toInt k.val = k.val := by
    rintro ⟨hx, hk⟩
    have hty : operandsTy body op1 op2 = body.localTy x := operandsTy_right hk hx
    exact hty ▸ h k (Or.inl hk)
  cases op <;> cases kind <;> first
    | exact hcmp.elim
    | exact hleft hcmp
    | exact hright hcmp

/-- **A comparison with a constant that is not negative is right.**  The local that it marks on
an edge is nonzero there. -/
theorem Outcome.nonzero (h : Outcome body σ op op1 op2 w) (hread : ReadAsIs body op1 op2)
    {f : NumFact} (hrec : Records op op1 op2 x f) {pol : Bool} (hmarks : f.Marks pol)
    (hpol : w ≠ 0 ↔ pol = true) : σ x ≠ 0 := by
  have hfalse : pol = false → ¬ w ≠ 0 := fun hp hw => Bool.noConfusion (hp.symm.trans (hpol.mp hw))
  have hgt : ∀ {k : U64}, ConstComparison op op1 op2 .constGt x k → w ≠ 0 → σ x ≠ 0 := by
    intro k hcmp hw
    have hlt := (h.holds_iff hcmp).mp hw
    rw [hread.of_constComparison hcmp] at hlt
    exact ne_zero_of_toInt (Int.ne_of_gt (Int.lt_of_le_of_lt (Int.natCast_nonneg _) hlt))
  have hge : ∀ {k : U64}, ConstComparison op op1 op2 .constGe x k → 1 ≤ k → w ≠ 0 → σ x ≠ 0 := by
    intro k hcmp hk hw
    have hle := (h.holds_iff hcmp).mp hw
    rw [hread.of_constComparison hcmp] at hle
    exact ne_zero_of_toInt (Int.ne_of_gt (Int.lt_of_lt_of_le (Int.natCast_pos.mpr hk) hle))
  cases f with
  | ifTrue =>
    have hw : w ≠ 0 := hpol.mpr hmarks
    rcases hrec with ⟨hop, hzero⟩ | hcmp | ⟨k, hk, hcmp⟩
    · exact ((h.zero_iff hzero).1 hop).mp hw
    · exact hgt hcmp hw
    · exact hge hcmp hk hw
  | ifFalse => exact fun hx => hfalse hmarks (((h.zero_iff hrec.2).2 hrec.1).mpr hx)
  | const kind k =>
    cases kind with
    | constGt => exact hgt hrec (hpol.mpr hmarks)
    | constGe => exact hge hrec hmarks.2 (hpol.mpr hmarks.1)
    | constLt =>
      have hnot := mt (h.holds_iff hrec).mpr (hfalse hmarks.1)
      rw [hread.of_constComparison hrec] at hnot
      exact ne_zero_of_toInt (Int.ne_of_gt
        (Int.lt_of_lt_of_le (Int.natCast_pos.mpr hmarks.2) (Int.not_lt.mp hnot)))
    | constLe =>
      have hnot := mt (h.holds_iff hrec).mpr (hfalse hmarks)
      rw [hread.of_constComparison hrec] at hnot
      exact ne_zero_of_toInt (Int.ne_of_gt
        (Int.lt_of_le_of_lt (Int.natCast_nonneg _) (Int.not_le.mp hnot)))

end Comparisons

/-! ## Edges -/

/-- `t` is `s` with the locals in `P` marked as well. -/
structure Marked (s : BlockState) (P : Local → Prop) (t : BlockState) : Prop where
  nonzero : ∀ l, t.localIsNonzero l = true ↔ s.localIsNonzero l = true ∨ P l
  facts : t.facts = s.facts
  constFacts : t.constFacts = s.constFacts

namespace Marked
variable {s t : BlockState} {P : Local → Prop}

theorem refl (s : BlockState) : Marked s (fun _ => False) s :=
  ⟨fun _ => by rw [or_false], rfl, rfl⟩

theorem drain (h : Marked s P t) (k : Fact) {m : MustSet} (hm : m ≠ .nonzero) (c : Local) :
    Marked s P (San.drain k m c t) := by
  unfold San.drain
  split
  · refine ⟨fun l => ?_, h.facts, h.constFacts⟩
    rw [localIsNonzero_congr (t.insertMust_writes m _) (by simpa using hm)]
    exact h.nonzero l
  · exact h

theorem drainNonzero (h : Marked s P t) (k : Fact) (c : Local) :
    Marked s (fun l => P l ∨ (s.facts k).get c = some l) (San.drain k .nonzero c t) := by
  unfold San.drain
  rw [h.facts]
  split
  · rename_i x hx
    refine ⟨fun l => ?_, h.facts, h.constFacts⟩
    rw [localIsNonzero_insertMust, h.nonzero, hx, Option.some.injEq, or_comm, or_assoc,
      eq_comm (a := x)]
  · rename_i hx
    refine ⟨fun l => ?_, h.facts, h.constFacts⟩
    rw [h.nonzero, hx]
    simp only [reduceCtorEq, or_false]

theorem drainPair (h : Marked s P t) (k : PairFact) (m : MustPairs) (norm) (c : Local) :
    Marked s P (San.drainPair k m norm c t) := by
  unfold San.drainPair
  split
  · refine ⟨fun l => ?_, h.facts, h.constFacts⟩
    rw [localIsNonzero_congr (t.onMustPairs_writes [m] _) (by simp)]
    exact h.nonzero l
  · exact h

theorem drainUpper (h : Marked s P t) (k : ConstFact) (f : U64 → U64) (c : Local) :
    Marked s P (San.drainUpper k f c t) := by
  unfold San.drainUpper
  split
  · refine ⟨fun l => ?_, h.facts, h.constFacts⟩
    rw [localIsNonzero_congr (t.boundAbove_writes _ _) (by decide)]
    exact h.nonzero l
  · exact h

theorem drainLower (h : Marked s P t) (k : ConstFact) (f : U64 → U64) (c : Local) :
    Marked s (fun l => P l ∨ ∃ b, (s.constFacts k).get c = some (l, b) ∧ 1 ≤ f b)
      (San.drainLower k f c t) := by
  unfold San.drainLower
  rw [h.constFacts]
  split
  · rename_i x b hx
    refine ⟨fun l => ?_, h.facts, h.constFacts⟩
    rw [localIsNonzero_boundBelow, h.nonzero, hx]
    constructor
    · rintro (⟨rfl, hb⟩ | hs | hP)
      · exact Or.inr (Or.inr ⟨b, rfl, hb⟩)
      · exact Or.inl hs
      · exact Or.inr (Or.inl hP)
    · rintro (hs | hP | ⟨b', heq, hb⟩)
      · exact Or.inr (Or.inl hs)
      · exact Or.inr (Or.inr hP)
      · cases heq
        exact Or.inl ⟨rfl, hb⟩
  · rename_i hx
    refine ⟨fun l => ?_, h.facts, h.constFacts⟩
    rw [h.nonzero, hx]
    simp only [reduceCtorEq, false_and, exists_false, or_false]

end Marked

theorem one_le_succSat (k : U64) : 1 ≤ succSat k :=
  Fin.le_def.mpr (Nat.le_min.mpr ⟨Nat.succ_le_succ (Nat.zero_le _), by decide⟩)

/-- **What an edge marks.**  On an edge of a given polarity the locals of the facts that mark
there become nonzero, and no others. -/
theorem refineTrueEdge_nonzero (c : Local) (s : BlockState) (l : Local) :
    (refineTrueEdge c s).localIsNonzero l = true ↔
      s.localIsNonzero l = true ∨ ∃ f, s.hasFact c l f ∧ f.Marks true := by
  have hsets := (((((((Marked.refl s).drain .ltFacts (m := .bounded) (by decide) c).drain .leFacts
    (m := .boundedOrEq) (by decide) c).drainPair .ltFor .indexBoundedFor id c).drainPair .leFor
    .indexBoundedOrEqFor id c).drain .spareIfTrue (m := .hasSpare) (by decide) c).drain .fullIfTrue
    (m := .isFull) (by decide) c).drainNonzero .nonzeroIfTrue c
  have hbounds := ((((hsets.drain .finiteIfTrue (m := .finite) (by decide) c).drainUpper .constLt
    predSat c).drainUpper .constLe id c).drainLower .constGt succSat c).drainLower .constGe id c
  have hall := ((hbounds.drainPair .nePairIfTrue .keysAreNe orderPair c).drainPair .eqPairIfTrue
    .eqLocals orderPair c).nonzero l
  refine hall.trans (or_congr_right ?_)
  constructor
  · rintro (((hfalse | htrue) | ⟨b, hb, _⟩) | ⟨b, hb, hle⟩)
    · exact hfalse.elim
    · exact ⟨.ifTrue, htrue, rfl⟩
    · exact ⟨.const .constGt b, hb, rfl⟩
    · exact ⟨.const .constGe b, hb, rfl, hle⟩
  · rintro ⟨f, hf, hmarks⟩
    cases f with
    | ifTrue => exact Or.inl (Or.inl (Or.inr hf))
    | ifFalse => cases hmarks
    | const kind k =>
      cases kind with
      | constGt => exact Or.inl (Or.inr ⟨k, hf, one_le_succSat k⟩)
      | constGe => exact Or.inr ⟨k, hf, hmarks.2⟩
      | constLt => cases hmarks.1
      | constLe => cases hmarks

theorem refineFalseEdge_nonzero (c : Local) (s : BlockState) (l : Local) :
    (refineFalseEdge c s).localIsNonzero l = true ↔
      s.localIsNonzero l = true ∨ ∃ f, s.hasFact c l f ∧ f.Marks false := by
  have hsets := (((((Marked.refl s).drain .geFacts (m := .bounded) (by decide) c).drain .gtFacts
    (m := .boundedOrEq) (by decide) c).drain .spareIfFalse (m := .hasSpare) (by decide) c).drain
    .fullIfFalse (m := .isFull) (by decide) c).drainNonzero .nonzeroIfFalse c
  have hbounds := ((((hsets.drain .nanIfTrue (m := .finite) (by decide) c).drainLower .constLt
    id c).drainLower .constLe succSat c).drainUpper .constGt id c).drainUpper .constGe predSat c
  have hall := ((hbounds.drainPair .eqPairIfTrue .keysAreNe orderPair c).drainPair .nePairIfTrue
    .eqLocals orderPair c).nonzero l
  refine hall.trans (or_congr_right ?_)
  constructor
  · rintro (((hfalse | hzero) | ⟨b, hb, hle⟩) | ⟨b, hb, _⟩)
    · exact hfalse.elim
    · exact ⟨.ifFalse, hzero, rfl⟩
    · exact ⟨.const .constLt b, hb, rfl, hle⟩
    · exact ⟨.const .constLe b, hb, rfl⟩
  · rintro ⟨f, hf, hmarks⟩
    cases f with
    | ifTrue => cases hmarks
    | ifFalse => exact Or.inl (Or.inl (Or.inr hf))
    | const kind k =>
      cases kind with
      | constGt => cases hmarks
      | constGe => cases hmarks.1
      | constLt => exact Or.inl (Or.inr ⟨k, hf, hmarks.2⟩)
      | constLe => exact Or.inr ⟨k, hf, one_le_succSat k⟩

/-! ## Assignments -/

namespace NonzeroSound
variable {s t : BlockState} {σ : Store} {F : List Field}

theorem frame (h : NonzeroSound s σ) (hw : Writes F s t)
    (hF : ∀ f ∈ F, f ≠ .mustSet .nonzero ∧ f ≠ .constLower) : NonzeroSound t σ := by
  intro l hl
  rw [localIsNonzero_congr hw hF] at hl
  exact h l hl

theorem insertMust (h : NonzeroSound s σ) {x : Local} (hx : σ x ≠ 0) :
    NonzeroSound (s.insertMust .nonzero x) σ := by
  intro l hl
  rcases localIsNonzero_insertMust.mp hl with rfl | hl
  · exact hx
  · exact h l hl

theorem eraseMust (h : NonzeroSound s σ) (x : Local) :
    NonzeroSound (s.onMustSets [.nonzero] (·.erase x)) σ := by
  intro l hl
  refine h l (localIsNonzero_iff.mpr ?_)
  rcases localIsNonzero_iff.mp hl with hmem | hlower
  · have hmem : l ∈ (s.mustSets .nonzero).erase x := hmem
    exact Or.inl (Finset.mem_of_mem_erase hmem)
  · exact Or.inr hlower

theorem setConstant (h : NonzeroSound s σ) {x : Local} {val : U64} (hx : σ x = val.val) :
    NonzeroSound (s.setConstant x val) σ := by
  intro l hl
  rcases localIsNonzero_iff.mp hl with hmem | ⟨lb, hget, hlb⟩
  · exact h l (localIsNonzero_iff.mpr (Or.inl hmem))
  · simp only [BlockState.setConstant, FMap.get_insert] at hget
    split at hget
    · rename_i hlx
      subst hlx
      cases hget
      rw [hx]
      exact Nat.ne_of_gt (Fin.le_def.mp hlb)
    · exact h l (localIsNonzero_iff.mpr (Or.inr ⟨lb, hget, hlb⟩))

end NonzeroSound

/-- What is marked in `t` is nonzero in `σ`, and `dst` is not marked. -/
structure Unmarked (dst : Local) (σ : Store) (t : BlockState) : Prop where
  sound : NonzeroSound t σ
  unmarked : t.localIsNonzero dst = false

section Assign
variable {s t : BlockState} {σ : Store} {dst : Local} {F : List Field} {v : Nat}

theorem Unmarked.set (h : Unmarked dst σ t) (v : Nat) : NonzeroSound t (σ.set dst v) := by
  intro l hl
  have hne : l ≠ dst := by
    rintro rfl
    exact Bool.noConfusion (hl.symm.trans h.unmarked)
  rw [Store.set_of_ne hne]
  exact h.sound l hl

theorem Unmarked.frame (h : Unmarked dst σ s) (hw : Writes F s t)
    (hF : ∀ f ∈ F, f ≠ .mustSet .nonzero ∧ f ≠ .constLower) : Unmarked dst σ t :=
  ⟨h.sound.frame hw hF, (localIsNonzero_congr hw hF dst).trans h.unmarked⟩

theorem localIsNonzero_redefine {body : Body} {rvalue : Rvalue} {l : Local} :
    (redefine body dst rvalue s).localIsNonzero l = true ↔
      l ≠ dst ∧ s.localIsNonzero l = true := by
  rw [localIsNonzero_iff, localIsNonzero_iff, redefine_mustSets, if_pos (by decide),
    redefine_constLower, FMap.get_erase, Finset.mem_erase]
  by_cases hl : l = dst
  · simp only [hl, ne_eq, not_true, false_and, if_true, reduceCtorEq, exists_false, or_self]
  · simp only [hl, ne_eq, not_false_eq_true, true_and, if_false]

theorem NonzeroSound.redefine (h : NonzeroSound s σ) (body : Body) (rvalue : Rvalue) :
    Unmarked dst σ (San.redefine body dst rvalue s) where
  sound l hl := h l (localIsNonzero_redefine.mp hl).2
  unmarked := Bool.eq_false_iff.mpr fun hl => (localIsNonzero_redefine.mp hl).1 rfl

theorem mem_propagateSet {src dst l : Local} {isMove : Bool} {m : Finset Local}
    (h : l ∈ propagateSet src dst isMove m) : l = dst ∧ src ∈ m ∨ l ∈ m := by
  unfold propagateSet at h
  split at h
  · rename_i hsrc
    have hins : l ∈ insert dst m := by
      split at h
      · exact Finset.mem_of_mem_erase h
      · exact h
    rcases Finset.mem_insert.mp hins with hl | hl
    · exact Or.inl ⟨hl, hsrc⟩
    · exact Or.inr hl
  · exact Or.inr h

/-- A move or a copy carries the mark over together with the value. -/
theorem Unmarked.propagateUse (h : Unmarked dst σ s) (src : Local) (isMove : Bool) :
    NonzeroSound (San.propagateUse src dst isMove s) (σ.set dst (σ src)) := by
  intro l hl
  have hsource : (l = dst ∧ s.localIsNonzero src = true) ∨ s.localIsNonzero l = true := by
    simp only [localIsNonzero_iff] at hl ⊢
    rcases hl with hmem | ⟨lb, hget, hlb⟩
    · have hmem : l ∈ propagateSet src dst isMove (s.mustSets .nonzero) := hmem
      rcases mem_propagateSet hmem with ⟨hl, hsrc⟩ | hmem
      · exact Or.inl ⟨hl, Or.inl hsrc⟩
      · exact Or.inr (Or.inl hmem)
    · rcases propagateMap_source hget with ⟨hl, hsrc⟩ | hget
      · exact Or.inl ⟨hl, Or.inr ⟨lb, hsrc, hlb⟩⟩
      · exact Or.inr (Or.inr ⟨lb, hget, hlb⟩)
  rcases hsource with ⟨rfl, hsrc⟩ | hl
  · rw [Store.set_self]
    exact h.sound src hsrc
  · exact h.set (σ src) l hl

/-- What is carried over is right, and a destination that nothing is carried over to is not
marked. -/
theorem Unmarked.propagateRvalue (h : Unmarked dst σ t) {body : Body} {ty : Ty} {rvalue : Rvalue}
    (hv : rvalue.Yields body σ ty v) :
    NonzeroSound (San.propagateRvalue dst rvalue t) (σ.set dst v) := by
  have huse : ∀ {op : Operand} {src : Place}, op.Denotes σ v → (op = .move src ∨ op = .copy src) →
      ∀ isMove, NonzeroSound (if src.isLocal then San.propagateUse src.base dst isMove t else t)
        (σ.set dst v) := by
    intro op src hop hsrc isMove
    split
    · rename_i hlocal
      have hl : operandLocal op = some src.base := by
        rcases hsrc with rfl | rfl <;> exact if_pos hlocal
      rw [hop.of_local hl]
      exact h.propagateUse src.base isMove
    · exact h.set v
  unfold San.propagateRvalue
  split
  · exact huse hv (Or.inl rfl) true
  · exact huse hv (Or.inr rfl) false
  · exact h.set v

/-- An operand that is proven nonzero is. -/
theorem NonzeroSound.operandNonzero (h : NonzeroSound t σ) {op : Operand} {x : Nat}
    (hx : op.Denotes σ x) (hop : San.operandNonzero t op = true) : x ≠ 0 := by
  rcases Bool.or_eq_true_iff.mp hop with hlocal | hconst
  · obtain ⟨l, hl, hmem⟩ := (Option.any_eq_true _ _).mp hlocal
    rw [hx.of_local hl]
    exact h l (localIsNonzero_iff.mpr (Or.inl (of_decide_eq_true hmem)))
  · obtain ⟨k, hk, hne⟩ := (Option.any_eq_true _ _).mp hconst
    rw [hx.of_const hk]
    exact fun h0 => of_decide_eq_true hne (Fin.ext h0)

theorem or_ne_zero {x y : Nat} (h : x ≠ 0 ∨ y ≠ 0) : x ||| y ≠ 0 := by
  intro h0
  have hboth := Nat.or_eq_zero_iff.mp h0
  rcases h with hx | hy
  · exact hx hboth.1
  · exact hy hboth.2

/-- **What a binary operation marks** is nonzero. -/
theorem Unmarked.recordBinaryOp (h : Unmarked dst σ t) {body : Body} {op : BinOp}
    {op1 op2 : Operand} (hv : MayYield body σ dst (.binaryOp op op1 op2) v) :
    NonzeroSound (San.recordBinaryOp body op op1 op2 dst t) (σ.set dst v) := by
  obtain ⟨_, _, x, y, hx, hy, _, hres⟩ := hv
  have hset := h.set v
  have hclear : ∀ {u : BlockState}, NonzeroSound u (σ.set dst v) →
      NonzeroSound (clearComparisons dst u) (σ.set dst v) := fun hu =>
    hu.frame (BlockState.onFacts_writes _ Fact.comparisons _) (by decide)
  have harith : ∀ f, NonzeroSound (boundArith f dst op1 op2 t) (σ.set dst v) := fun f =>
    hset.frame (boundArith_writes t f dst op1 op2) (by decide)
  have hbound : ∀ o, NonzeroSound (t.boundAboveBy dst o) (σ.set dst v) := fun o =>
    hset.frame (t.boundAboveBy_writes dst o) (by decide)
  cases hop : op.isComparison with
  | true => exact hset.frame (recordBinaryOp_compared t body hop op1 op2 dst) (by decide)
  | false =>
    cases op with
    | bitOr =>
      refine hclear ?_
      split
      · rename_i hmarked
        refine hset.insertMust ?_
        rw [Store.set_self, hres _ rfl]
        exact or_ne_zero ((Bool.or_eq_true_iff.mp hmarked).imp
          (h.sound.operandNonzero hx) (h.sound.operandNonzero hy))
      · exact hset
    | bitAnd => exact hclear (hbound _)
    | rem => exact hclear (hbound _)
    | shr => exact hclear (hbound _)
    | mul => exact hclear (harith _)
    | add =>
      refine hclear ?_
      split
      · exact harith _
      · exact hset
    | mulWithOverflow => exact harith _
    | addWithOverflow =>
      show NonzeroSound (if _ then _ else _) _
      split
      · exact harith _
      · exact hset
    | lt => cases hop
    | le => cases hop
    | ge => cases hop
    | gt => cases hop
    | eq => cases hop
    | ne => cases hop
    | _ => exact hclear hset

end Assign

/-- The assignment is a cast that cuts a local which is marked as nonzero to zero. -/
def CutsToZero (s : BlockState) (dst : Local) (rvalue : Rvalue) (v : Nat) : Prop :=
  v = 0 ∧ ∃ op ty src, rvalue = .cast .intToInt op ty ∧ operandLocal op = some src ∧ src ≠ dst ∧
    src ∈ s.mustSets .nonzero

/-- What an rvalue records for its destination. -/
def Rvalue.Records : Rvalue → Local → NumFact → Prop
  | .binaryOp op op1 op2, x, f => op.isComparison = true ∧ San.Records op op1 op2 x f
  | _, _, _ => False

section Statement
variable {s t : BlockState} {σ : Store} {dst : Local} {rvalue : Rvalue} {v : Nat}

theorem mem_nonzero_redefine {body : Body} {l : Local} :
    l ∈ (redefine body dst rvalue s).mustSets .nonzero ↔ l ≠ dst ∧ l ∈ s.mustSets .nonzero := by
  rw [redefine_mustSets, if_pos (by decide), Finset.mem_erase]

/-- The marks before a cast to an integer, and whether the source is one of them, decide the
marks after it. -/
theorem assignNumericCast_nonzero {src : Local} {ty : Ty} {l : Local} :
    (assignNumericCast .intToInt src dst ty t).localIsNonzero l = true ↔
      (l = dst ∧ src ∈ t.mustSets .nonzero) ∨ t.localIsNonzero l = true := by
  have hbound : ∀ (u : BlockState) o, (u.boundAboveBy dst o).localIsNonzero l =
      u.localIsNonzero l := fun u o => localIsNonzero_congr (u.boundAboveBy_writes dst o) (by decide) l
  have hset : ((t.insertFact .castOrigin dst src).boundAboveBy dst (uintTypeMax ty)).mustSets
      .nonzero = t.mustSets .nonzero :=
    Field.Same.trans (t.insertFact_writes .castOrigin dst src (.mustSet .nonzero) (by decide))
      (BlockState.boundAboveBy_writes _ dst _ (.mustSet .nonzero) (by decide))
  have horigin : (t.insertFact .castOrigin dst src).localIsNonzero l = t.localIsNonzero l :=
    localIsNonzero_congr (t.insertFact_writes _ _ _) (by decide) l
  unfold assignNumericCast
  rw [if_pos rfl]
  dsimp only
  rw [hbound]
  by_cases hsrc : src ∈ t.mustSets .nonzero
  · rw [if_pos (hset ▸ hsrc), localIsNonzero_insertMust, hbound, horigin]
    simp only [hsrc, and_true]
  · rw [if_neg (hset ▸ hsrc), hbound, horigin]
    simp only [hsrc, and_false, false_or]

/-- **What a number marks** is nonzero, unless it is cut to zero. -/
theorem Unmarked.assignRvalue (h : Unmarked dst σ t) (tcx : TyCtxt) {body : Body}
    (hnumeric : rvalue.isNumeric = true) (hv : MayYield body σ dst rvalue v)
    (hcut : ∀ op ty src, rvalue = .cast .intToInt op ty → operandLocal op = some src →
      src ∈ t.mustSets .nonzero → v ≠ 0) :
    NonzeroSound (San.assignRvalue tcx body dst rvalue t) (σ.set dst v) := by
  cases rvalue with
  | use op =>
    cases op with
    | copy p => cases hnumeric
    | move p => cases hnumeric
    | constant c =>
      have hclear : ∀ u, NonzeroSound u (σ.set dst v) → NonzeroSound
          (((u.setObjects dst none).dropProto dst).clearScalarFacts dst) (σ.set dst v) := fun u hu =>
        ((hu.frame (u.setObjects_writes _ _) (by decide)).frame (BlockState.dropProto_writes _ _)
          (by decide)).frame (clearScalarFacts_writes _ _) (by decide)
      refine hclear _ ?_
      split
      · rename_i val hval
        have hvalue : σ.set dst v dst = val.val := by
          rw [Store.set_self]
          exact hv.2 _ (Const.toU64_eq_some hval)
        refine NonzeroSound.setConstant ?_ hvalue
        split
        · rename_i hne
          refine (h.set v).insertMust ?_
          rw [hvalue]
          exact fun h0 => hne (Fin.ext h0)
        · exact (h.set v).eraseMust dst
      · exact h.set v
  | cast kind op ty =>
    rw [assignRvalue_numericCast t tcx body dst hnumeric op ty]
    cases hop : operandLocal op with
    | none => exact (h.set v).frame (assignUnknown_writes t _ dst) (by decide)
    | some src =>
      by_cases hkind : kind = .intToInt
      · subst hkind
        intro l hl
        rcases assignNumericCast_nonzero.mp hl with ⟨rfl, hsrc⟩ | hl
        · rw [Store.set_self]
          exact hcut op ty src rfl hop hsrc
        · exact h.set v l hl
      · have hsame : assignNumericCast kind src dst ty t = t.insertFact .castOrigin dst src := by
          unfold assignNumericCast
          rw [if_neg hkind]
        dsimp only
        rw [hsame]
        exact (h.set v).frame (t.insertFact_writes _ _ _) (by decide)
  | binaryOp op op1 op2 =>
    exact (h.frame (enterBinaryOp_writes t op op1 op2 dst) (by decide)).recordBinaryOp hv
  | _ => cases hnumeric

/-- What the stages before the rvalue leave of an assignment. -/
def startAssign (body : Body) (dst : Local) (rvalue : Rvalue) (s : BlockState) : BlockState :=
  recordRefBase dst rvalue (redefine body dst rvalue (s.invalidateOwner dst))

/-- What an assignment does before it looks at its rvalue. -/
theorem startAssign_writes (s : BlockState) (body : Body) (dst : Local) (rvalue : Rvalue) :
    Writes ([.ownerAlias, .fnPtrTargets] ++ Field.derived ++ Field.dropped ++ [.fact .refBase]) s
      (startAssign body dst rvalue s) :=
  ((s.invalidateOwners_writes {dst}).mono (by decide)).trans <|
    ((lookup_writes _ body dst rvalue).mono (by decide)).trans <|
    ((BlockState.clearRedefined_writes _ dst).mono (by decide)).trans <|
    ((clearAssigned_writes _ dst).mono (by decide)).trans <|
    (recordRefBase_writes _ dst rvalue).mono (by decide)

theorem NonzeroSound.startAssign (h : NonzeroSound s σ) (body : Body) (dst : Local)
    (rvalue : Rvalue) : Unmarked dst σ (San.startAssign body dst rvalue s) :=
  ((h.frame (s.invalidateOwners_writes {dst}) (by decide)).redefine body rvalue).frame
    (recordRefBase_writes _ dst rvalue) (by decide)

theorem mem_nonzero_startAssign {body : Body} {l : Local} :
    l ∈ (startAssign body dst rvalue s).mustSets .nonzero ↔
      l ≠ dst ∧ l ∈ s.mustSets .nonzero := by
  have hbase : (startAssign body dst rvalue s).mustSets .nonzero =
      (redefine body dst rvalue (s.invalidateOwner dst)).mustSets .nonzero :=
    recordRefBase_writes _ dst rvalue (.mustSet .nonzero) (by decide)
  have howner : (s.invalidateOwner dst).mustSets .nonzero = s.mustSets .nonzero :=
    s.invalidateOwners_writes {dst} (.mustSet .nonzero) (by decide)
  rw [hbase, mem_nonzero_redefine, howner]

theorem tyIsNonzero_of_isScalar {tcx : TyCtxt} {ty : Ty} (h : ty.isScalar = true) :
    tyIsNonzero tcx ty = false := by
  cases ty with
  | adt a => cases h
  | _ => rfl

theorem enforceTypeFacts_nonzero {tcx : TyCtxt} {ty : Ty} (hty : ty.isScalar = true) (l : Local) :
    (enforceTypeFacts tcx dst ty t).localIsNonzero l = t.localIsNonzero l := by
  unfold enforceTypeFacts
  rw [tyIsNonzero_of_isScalar hty, if_neg Bool.false_ne_true]
  exact localIsNonzero_congr (t.boundAboveBy_writes dst _) (by decide) l

theorem recordLenOf_of_isNumeric (h : rvalue.isNumeric = true) (dst : Local) (t : BlockState) :
    recordLenOf dst rvalue t = t := by
  cases rvalue with
  | unaryOp op operand => cases h
  | _ => rfl

/-- **An assignment marks zero only by cutting.** -/
theorem nonzeroSound_applyStatement_iff (h : NonzeroSound s σ) (tcx : TyCtxt) {body : Body}
    {stmt : Statement} (hstmt : stmt.kind = .assign (Place.ofLocal dst) rvalue)
    (hty : (body.localTy dst).isScalar = true) (hv : MayYield body σ dst rvalue v) :
    NonzeroSound (applyStatement tcx body stmt s) (σ.set dst v) ↔ ¬ CutsToZero s dst rvalue v := by
  have hstart := h.startAssign body dst rvalue
  have heq : ∀ l, (applyStatement tcx body stmt s).localIsNonzero l =
      (assignRvalue tcx body dst rvalue (recordLenOf dst rvalue (propagateRvalue dst rvalue
        (startAssign body dst rvalue s)))).localIsNonzero l := by
    intro l
    rw [applyStatement_assign tcx body hstmt, assignLocal_eq, enforceTypeFacts_nonzero hty]
    rfl
  constructor
  · rintro hsound ⟨hzero, op, ty, src, rfl, hop, hne, hsrc⟩
    refine hsound dst ?_ ((Store.set_self σ dst v).trans hzero)
    rw [heq, propagateRvalue_of_isNumeric rfl, recordLenOf_of_isNumeric rfl,
      assignRvalue_numericCast _ tcx body dst rfl op ty, hop]
    exact assignNumericCast_nonzero.mpr (Or.inl ⟨rfl, mem_nonzero_startAssign.mpr ⟨hne, hsrc⟩⟩)
  · intro hcut
    have hassign : NonzeroSound (assignRvalue tcx body dst rvalue (recordLenOf dst rvalue
        (propagateRvalue dst rvalue (startAssign body dst rvalue s)))) (σ.set dst v) := by
      cases hnumeric : rvalue.isNumeric with
      | false =>
        exact ((hstart.propagateRvalue hv.2).frame (recordLenOf_writes _ dst rvalue)
          (by decide)).frame (assignRvalue_quiet _ tcx body dst hnumeric) (by decide)
      | true =>
        rw [propagateRvalue_of_isNumeric hnumeric, recordLenOf_of_isNumeric hnumeric]
        refine hstart.assignRvalue tcx hnumeric hv ?_
        intro op ty src hrvalue hop hsrc hzero
        obtain ⟨hne, hmem⟩ := mem_nonzero_startAssign.mp hsrc
        exact hcut ⟨hzero, op, ty, src, hrvalue, hop, hne, hmem⟩
    intro l hl
    rw [heq] at hl
    exact hassign l hl

/-- An assignment first drops what is derived from its destination. -/
theorem startAssign_facts (body : Body) {k : Fact} (hk : k ∈ Fact.derived) (hne : k ≠ .refBase) :
    (startAssign body dst rvalue s).facts k = (s.facts k).erase dst := by
  have hbase : (startAssign body dst rvalue s).facts k =
      (redefine body dst rvalue (s.invalidateOwner dst)).facts k :=
    recordRefBase_writes _ dst rvalue (.fact k) (by simpa using hne)
  have howner : (s.invalidateOwner dst).facts k = s.facts k :=
    s.invalidateOwners_writes {dst} (.fact k) (by simp)
  rw [hbase, redefine_facts, if_pos hk, howner]

/-- The stages of the assignment of a binary operation. -/
theorem applyStatement_binaryOp (tcx : TyCtxt) (body : Body) {op : BinOp} {op1 op2 : Operand}
    {stmt : Statement}
    (hstmt : stmt.kind = .assign (Place.ofLocal dst) (.binaryOp op op1 op2)) :
    applyStatement tcx body stmt s = enforceTypeFacts tcx dst (body.localTy dst)
      (recordBinaryOp body op op1 op2 dst (enterBinaryOp op op1 op2 dst
        (startAssign body dst (.binaryOp op op1 op2) s))) := by
  rw [applyStatement_assign tcx body hstmt, assignLocal_eq, propagateRvalue_of_isNumeric rfl,
    recordLenOf_of_isNumeric rfl]
  rfl

/-- An assignment first drops the facts recorded for its destination. -/
theorem hasFact_startAssign {body : Body} {c x : Local} {f : NumFact}
    (hf : (startAssign body dst rvalue s).hasFact c x f) : c ≠ dst ∧ s.hasFact c x f := by
  have herase : ∀ {V : Type} {m m' : FMap Local V} {v : V}, m' = m.erase dst →
      m'.get c = some v → c ≠ dst ∧ m.get c = some v := by
    intro V m m' v hm hget
    rw [hm] at hget
    exact FMap.get_erase_eq_some_iff.mp hget
  have hconst : ∀ k, (startAssign body dst rvalue s).constFacts k =
      (s.constFacts k).erase dst := by
    intro k
    have hbase : (startAssign body dst rvalue s).constFacts k =
        (redefine body dst rvalue (s.invalidateOwner dst)).constFacts k :=
      recordRefBase_writes _ dst rvalue (.constFact k) (by simp)
    have howner : (s.invalidateOwner dst).constFacts k = s.constFacts k :=
      s.invalidateOwners_writes {dst} (.constFact k) (by simp)
    rw [hbase, redefine_constFacts, howner]
  cases f with
  | const kind k => exact herase (hconst kind) hf
  | ifTrue => exact herase (startAssign_facts body (by decide) (by decide)) hf
  | ifFalse => exact herase (startAssign_facts body (by decide) (by decide)) hf

/-- An rvalue adds the facts it records. -/
theorem adds_assignRvalue (tcx : TyCtxt) (body : Body) (t : BlockState) :
    Adds dst rvalue.Records t (assignRvalue tcx body dst rvalue t) := by
  cases hcompare : rvalue.isComparison with
  | false => exact Adds.frame (assignRvalue_plain t tcx body dst hcompare) (by decide)
  | true =>
    cases rvalue with
    | binaryOp op op1 op2 =>
      refine Adds.trans (Adds.frame (enterBinaryOp_writes t op op1 op2 dst) (by decide)) ?_
      intro c x f hf
      exact (adds_recordBinaryOp body hcompare op1 op2 c x f hf).imp_right
        fun ⟨hc, hR⟩ => ⟨hc, hcompare, hR⟩
    | _ => cases hcompare

/-- **The facts after an assignment** are those of other conditions, and what it records. -/
theorem hasFact_applyStatement (tcx : TyCtxt) {body : Body} {stmt : Statement}
    (hstmt : stmt.kind = .assign (Place.ofLocal dst) rvalue) {c x : Local} {f : NumFact}
    (hf : (applyStatement tcx body stmt s).hasFact c x f) :
    (c ≠ dst ∧ s.hasFact c x f) ∨ (c = dst ∧ rvalue.Records x f) := by
  have hpropagate : Adds dst rvalue.Records (startAssign body dst rvalue s)
      (propagateRvalue dst rvalue (startAssign body dst rvalue s)) :=
    Adds.frame (propagateRvalue_writes _ dst rvalue) (by decide)
  have hall := hpropagate.trans <| (Adds.frame (recordLenOf_writes _ dst rvalue) (by decide)).trans <|
    (adds_assignRvalue tcx body _).trans
      (Adds.frame (enforceTypeFacts_writes _ tcx dst (body.localTy dst)) (by decide))
  rw [applyStatement_assign tcx body hstmt, assignLocal_eq] at hf
  exact (hall c x f hf).imp_left hasFact_startAssign

end Statement

/-! ## An assignment and an edge -/

/-- What is known agrees with the store: the marked locals are nonzero, and the facts come from
comparisons of the values that the locals have. -/
structure Agrees (body : Body) (s : BlockState) (σ : Store) : Prop where
  nonzero : NonzeroSound s σ
  facts : ∀ c x f, s.hasFact c x f → AccountedFor body σ (σ c) x f

/-- The taken edge of a two-way switch marks what the facts for its condition say. -/
theorem refineSwitchintEdge_nonzero {n : Nat} {e t : Fin n} (discr : Operand) (span : Span)
    (w : Nat) (s : BlockState) (l : Local) :
    (refineSwitchintEdge ⟨.switchInt discr ⟨[(0, e)], t⟩, span⟩
        (SwitchTargets.select ⟨[(0, e)], t⟩ w) s).localIsNonzero l = true ↔
      s.localIsNonzero l = true ∨ e ≠ t ∧ ∃ c, operandLocal discr = some c ∧
        ∃ f, s.hasFact c l f ∧ f.Marks (decide (w ≠ 0)) := by
  unfold refineSwitchintEdge
  dsimp only
  cases operandLocal discr with
  | none => simp only [reduceCtorEq, false_and, exists_false, and_false, or_false]
  | some c =>
    simp only [Option.some.injEq, exists_eq_left']
    rw [edgePolarity_select]
    by_cases het : e = t
    · rw [if_pos het]
      simp only [het, ne_eq, not_true, false_and, or_false]
    · rw [if_neg het]
      by_cases hw : w = 0
      · rw [decide_eq_false (not_not.mpr hw)]
        simp only [refineFalseEdge_nonzero, het, ne_eq, not_false_eq_true, true_and]
      · rw [decide_eq_true hw]
        simp only [refineTrueEdge_nonzero, het, ne_eq, not_false_eq_true, true_and]

/-- A function with a `u32`, a `u8`, a `bool` and an `i32`. -/
def mixedInts : Body :=
  .ofBlocks 0 0 [.other, .uint .u32, .uint .u8, .bool, .int .i32] 2
    (fun bb => [.of [] (.switchInt (.ofNat 3) ⟨[(0, bb 1)], bb 2⟩), .of [] .return, .of [] .return])
    (by decide)

/-- The state after one assignment and the edge of the switch on `_3` for its value `w`. -/
def afterEdge (stmt : Statement) (w : Nat) (s : BlockState) : BlockState :=
  refineSwitchintEdge (n := 3) ⟨.switchInt (.ofNat 3) ⟨[(0, 1)], 2⟩, .none⟩
    (SwitchTargets.select ⟨[(0, 1)], 2⟩ w) (applyStatement (.ofPaths []) mixedInts stmt s)

theorem agrees_default (body : Body) (σ : Store) : Agrees body .default σ where
  nonzero l hl := absurd hl (by simp [BlockState.localIsNonzero, BlockState.default])
  facts c x f hf := by cases f <;> cases hf

end San
