import San.EdgeRefinement
import San.Footprint
import San.MustFacts
import San.Redefinition
import San.Values

/-! # Constant bounds

`const_upper` and `const_lower` bound the value of a local.  This module proves that the
bounds are kept by every step of the analysis, as long as the locals involved are unsigned:
an assignment bounds its destination by what the rvalue computes (`Bounded.applyStatement`),
the taken edge of a two-way switch bounds the compared local (`Bounded.refineSwitchintEdge`),
and a merge keeps the weaker bound (`InBounds.of_provenIn`).
-/
namespace San

/-- `v` is within the bounds of `x`. -/
def InBounds (s : BlockState) (x : Local) (v : Nat) : Prop :=
  (∀ u, s.constUpper.get x = some u → v ≤ u.val) ∧ ∀ l, s.constLower.get x = some l → l.val ≤ v

/-- Every local is within its bounds. -/
def Bounded (s : BlockState) (σ : Store) : Prop := ∀ x, InBounds s x (σ x)

/-! ## Updates -/

namespace Bounded
variable {s t : BlockState} {σ : Store} {F : List Field}

/-- **Frame.**  A step that writes no bounds keeps them. -/
theorem frame (h : Bounded s σ) (hw : Writes F s t)
    (hF : ∀ f ∈ F, f ≠ .constUpper ∧ f ≠ .constLower) : Bounded t σ := by
  intro x
  unfold InBounds
  rw [show t.constUpper = s.constUpper from hw .constUpper fun hm => (hF _ hm).1 rfl,
    show t.constLower = s.constLower from hw .constLower fun hm => (hF _ hm).2 rfl]
  exact h x

theorem boundAbove (h : Bounded s σ) {l : Local} {ub : U64} (hub : σ l ≤ ub.val) :
    Bounded (s.boundAbove l ub) σ := by
  intro x
  refine ⟨fun u hu => ?_, (h x).2⟩
  simp only [BlockState.boundAbove, FMap.get_insert] at hu
  split at hu
  · rename_i hx
    subst hx
    cases hu
    -- the old bound, `u64::MAX` if there is none, or the new one
    rw [Fin.coe_min]
    refine Nat.le_min.mpr ⟨?_, hub⟩
    cases hold : s.constUpper.get x with
    | none => exact Nat.le_trans hub (Nat.le_of_lt_succ ub.isLt)
    | some v => exact (h x).1 v hold
  · exact (h x).1 u hu

theorem boundAboveBy (h : Bounded s σ) {l : Local} {o : Option U64}
    (ho : ∀ ub, o = some ub → σ l ≤ ub.val) : Bounded (s.boundAboveBy l o) σ := by
  cases o with
  | none => exact h
  | some ub => exact h.boundAbove (ho ub rfl)

theorem boundBelow (h : Bounded s σ) {l : Local} {lb : U64} (hlb : lb.val ≤ σ l) :
    Bounded (s.boundBelow l lb) σ := by
  intro x
  refine ⟨(h x).1, fun v hv => ?_⟩
  simp only [BlockState.boundBelow, FMap.get_insert] at hv
  split at hv
  · rename_i hx
    subst hx
    cases hv
    rw [Fin.coe_max]
    refine Nat.max_le.mpr ⟨?_, hlb⟩
    cases hold : s.constLower.get x with
    | none => exact Nat.zero_le _
    | some w => exact (h x).2 w hold
  · exact (h x).2 v hv

theorem setConstant (h : Bounded s σ) {l : Local} {val : U64} (hval : σ l = val.val) :
    Bounded (s.setConstant l val) σ := by
  intro x
  unfold InBounds
  rw [show (s.setConstant l val).constUpper = s.constUpper.insert l val from rfl,
    show (s.setConstant l val).constLower = s.constLower.insert l val from rfl,
    FMap.get_insert, FMap.get_insert]
  split
  · rename_i hx
    subst hx
    refine ⟨fun u hu => ?_, fun l hl => ?_⟩
    · cases hu; exact Nat.le_of_eq hval
    · cases hl; exact Nat.le_of_eq hval.symm
  · exact h x

end Bounded

/-! ## Edges -/

/-- What a recorded comparison with a constant says. -/
def ConstFact.Holds : ConstFact → Int → Int → Prop
  | .constLt, x, k => x < k
  | .constLe, x, k => x ≤ k
  | .constGt, x, k => x > k
  | .constGe, x, k => x ≥ k

/-- Every condition with a recorded comparison holds the outcome of it. -/
def Truthful (body : Body) (s : BlockState) (σ : Store) : Prop :=
  ∀ kind c x k, (s.constFacts kind).get c = some (x, k) →
    (σ c ≠ 0 ↔ kind.Holds ((body.localTy x).toInt (σ x)) ((body.localTy x).toInt k.val))

/-- The compared locals are unsigned. -/
def UnsignedFacts (body : Body) (s : BlockState) : Prop :=
  ∀ kind c x k, (s.constFacts kind).get c = some (x, k) → (body.localTy x).IsSmallUnsigned

/-- `t` is `s` with more proven, but nothing false and no other comparison recorded. -/
structure Refined (s : BlockState) (σ : Store) (t : BlockState) : Prop where
  bounded : Bounded t σ
  constFacts : t.constFacts = s.constFacts

namespace Refined
variable {s t : BlockState} {σ : Store}

theorem drain (h : Refined s σ t) (k : Fact) (m : MustSet) (c : Local) :
    Refined s σ (San.drain k m c t) := by
  unfold San.drain
  split
  · exact ⟨h.bounded.frame (t.insertMust_writes m _) (by simp), h.constFacts⟩
  · exact h

theorem drainPair (h : Refined s σ t) (k : PairFact) (m : MustPairs) (norm) (c : Local) :
    Refined s σ (San.drainPair k m norm c t) := by
  unfold San.drainPair
  split
  · exact ⟨h.bounded.frame (t.onMustPairs_writes [m] _) (by simp), h.constFacts⟩
  · exact h

theorem drainUpper (h : Refined s σ t) {k : ConstFact} {f : U64 → U64} {c : Local}
    (hf : ∀ x bound, (s.constFacts k).get c = some (x, bound) → σ x ≤ (f bound).val) :
    Refined s σ (San.drainUpper k f c t) := by
  unfold San.drainUpper
  split
  · rename_i x bound hget
    rw [h.constFacts] at hget
    exact ⟨h.bounded.boundAbove (hf x bound hget), h.constFacts⟩
  · exact h

theorem drainLower (h : Refined s σ t) {k : ConstFact} {f : U64 → U64} {c : Local}
    (hf : ∀ x bound, (s.constFacts k).get c = some (x, bound) → (f bound).val ≤ σ x) :
    Refined s σ (San.drainLower k f c t) := by
  unfold San.drainLower
  split
  · rename_i x bound hget
    rw [h.constFacts] at hget
    exact ⟨h.bounded.boundBelow (hf x bound hget), h.constFacts⟩
  · exact h

end Refined

section Edges
variable {body : Body} {s : BlockState} {σ : Store}

theorem succSat_le {k : U64} {v : Nat} (h : k.val < v) : (succSat k).val ≤ v :=
  Nat.le_trans (Nat.min_le_left _ _) h

theorem le_predSat {k : U64} {v : Nat} (h : v < k.val) : v ≤ (predSat k).val := Nat.le_pred_of_lt h

/-- A recorded comparison of an unsigned local, read as one of numbers. -/
theorem Truthful.unsigned (h : Truthful body s σ) (hu : UnsignedFacts body s) {kind : ConstFact}
    {c x : Local} {k : U64} (hget : (s.constFacts kind).get c = some (x, k)) :
    σ c ≠ 0 ↔ kind.Holds (σ x) k.val := by
  have hsigned := Ty.signed_of_isSmallUnsigned (hu kind c x k hget)
  have hiff := h kind c x k hget
  rwa [Ty.toInt_of_unsigned hsigned, Ty.toInt_of_unsigned hsigned] at hiff

theorem Bounded.refineTrueEdge (h : Bounded s σ) (ht : Truthful body s σ)
    (hu : UnsignedFacts body s) {c : Local} (hc : σ c ≠ 0) :
    Bounded (San.refineTrueEdge c s) σ := by
  have holds : ∀ {kind x k}, (s.constFacts kind).get c = some (x, k) →
      kind.Holds (σ x) (k.val : Int) := fun hget => (ht.unsigned hu hget).mp hc
  have hstart : Refined s σ s := ⟨h, rfl⟩
  have hsets := ((((((((hstart.drain .ltFacts .bounded c).drain .leFacts .boundedOrEq c).drainPair
    .ltFor .indexBoundedFor id c).drainPair .leFor .indexBoundedOrEqFor id c).drain .spareIfTrue
    .hasSpare c).drain .fullIfTrue .isFull c).drain .nonzeroIfTrue .nonzero c).drain .finiteIfTrue
    .finite c)
  have hlt := hsets.drainUpper (k := .constLt) (f := predSat)
    fun x k hget => le_predSat (Int.ofNat_lt.mp (holds hget))
  have hle := hlt.drainUpper (k := .constLe) (f := id)
    fun x k hget => Int.ofNat_le.mp (holds hget)
  have hgt := hle.drainLower (k := .constGt) (f := succSat)
    fun x k hget => succSat_le (Int.ofNat_lt.mp (holds hget))
  have hge := hgt.drainLower (k := .constGe) (f := id)
    fun x k hget => Int.ofNat_le.mp (holds hget)
  exact ((hge.drainPair .nePairIfTrue .keysAreNe orderPair c).drainPair .eqPairIfTrue .eqLocals
    orderPair c).bounded

theorem Bounded.refineFalseEdge (h : Bounded s σ) (ht : Truthful body s σ)
    (hu : UnsignedFacts body s) {c : Local} (hc : σ c = 0) :
    Bounded (San.refineFalseEdge c s) σ := by
  have fails : ∀ {kind x k}, (s.constFacts kind).get c = some (x, k) →
      ¬ kind.Holds (σ x) (k.val : Int) := fun hget hh => (ht.unsigned hu hget).mpr hh hc
  have hstart : Refined s σ s := ⟨h, rfl⟩
  have hsets := (((((hstart.drain .geFacts .bounded c).drain .gtFacts .boundedOrEq c).drain
    .spareIfFalse .hasSpare c).drain .fullIfFalse .isFull c).drain .nonzeroIfFalse .nonzero c).drain
    .nanIfTrue .finite c
  have hlt := hsets.drainLower (k := .constLt) (f := id)
    fun x k hget => Int.ofNat_le.mp (Int.not_lt.mp (fails hget))
  have hle := hlt.drainLower (k := .constLe) (f := succSat)
    fun x k hget => succSat_le (Int.ofNat_lt.mp (Int.not_le.mp (fails hget)))
  have hgt := hle.drainUpper (k := .constGt) (f := id)
    fun x k hget => Int.ofNat_le.mp (Int.not_lt.mp (fails hget))
  have hge := hgt.drainUpper (k := .constGe) (f := predSat)
    fun x k hget => le_predSat (Int.ofNat_lt.mp (Int.not_le.mp (fails hget)))
  exact ((hge.drainPair .eqPairIfTrue .keysAreNe orderPair c).drainPair .nePairIfTrue .eqLocals
    orderPair c).bounded

/-- The polarity of the edge that a two-way switch takes. -/
theorem edgePolarity_select {n : Nat} (e t : Fin n) (v : Nat) :
    edgePolarity ⟨[(0, e)], t⟩ (SwitchTargets.select ⟨[(0, e)], t⟩ v) =
      if e = t then none else some (decide (v ≠ 0)) := by
  have hselect : SwitchTargets.select ⟨[(0, e)], t⟩ v = if v = 0 then e else t := by
    by_cases hv : v = 0
    · subst hv
      rfl
    · have hne : ((0 : U128).val == v) = false := beq_eq_false_iff_ne.mpr fun h => hv h.symm
      simp only [SwitchTargets.select, List.find?_cons, hne, List.find?_nil, hv, if_false,
        Option.map_none, Option.getD_none]
  have hzero : ((0 : U128) == 0) = true := rfl
  rw [hselect]
  by_cases het : e = t
  · subst het
    simp only [edgePolarity, List.find?_cons, hzero, Option.map_some, ite_self, ne_eq, not_true,
      and_false, if_false, if_true]
  · have hte : t ≠ e := fun h => het h.symm
    by_cases hv : v = 0
    · simp only [edgePolarity, List.find?_cons, hzero, Option.map_some, hv, het, if_true, if_false,
        false_and, ne_eq, not_false_eq_true, and_true, not_true, decide_false]
    · simp only [edgePolarity, List.find?_cons, hzero, Option.map_some, hv, het, hte, if_true,
        if_false, Option.some.injEq, ne_eq, not_false_eq_true, and_true, decide_true]

/-- **The taken edge of a two-way switch keeps the bounds.** -/
theorem Bounded.refineSwitchintEdge (h : Bounded s σ) (ht : Truthful body s σ)
    (hu : UnsignedFacts body s) {n : Nat} {e t succ : Fin n} {discr : Operand} {span : Span}
    (hsucc : ∀ c, operandLocal discr = some c →
      succ = SwitchTargets.select ⟨[(0, e)], t⟩ (σ c)) :
    Bounded (San.refineSwitchintEdge ⟨.switchInt discr ⟨[(0, e)], t⟩, span⟩ succ s) σ := by
  unfold San.refineSwitchintEdge
  dsimp only
  cases hdiscr : operandLocal discr with
  | none => exact h
  | some c =>
    rw [hsucc c hdiscr, edgePolarity_select]
    by_cases het : e = t
    · rw [if_pos het]
      exact h
    · rw [if_neg het]
      by_cases hc : σ c = 0
      · rw [decide_eq_false (not_not.mpr hc)]
        exact h.refineFalseEdge ht hu hc
      · rw [decide_eq_true hc]
        exact h.refineTrueEdge ht hu hc

end Edges

/-! ## Merges and queries -/

/-- A merge proves only what both sides prove. -/
theorem InBounds.of_provenIn {s t : BlockState} (hp : ProvenIn s t) {x : Local} {v : Nat}
    (h : InBounds t x v) : InBounds s x v := by
  refine ⟨fun u hu => ?_, fun l hl => ?_⟩
  · obtain ⟨w, hw, hle⟩ := hp.constUpper x u hu
    exact Nat.le_trans (h.1 w hw) hle
  · obtain ⟨w, hw, hle⟩ := hp.constLower x l hl
    exact Nat.le_trans hle (h.2 w hw)

theorem InBounds.le_of_localIsAscii {s : BlockState} {x : Local} {v : Nat} (h : InBounds s x v)
    (hascii : s.localIsAscii x = true) : v ≤ 127 := by
  obtain ⟨u, hu, hle⟩ := (Option.any_eq_true _ _).mp hascii
  exact Nat.le_trans (h.1 u hu) (of_decide_eq_true hle)

/-- A proven scalar value is one. -/
theorem InBounds.inRange_of_localIsValidScalar {s : BlockState} {x : Local} {v : Nat}
    (h : InBounds s x v) (hscalar : s.localIsValidScalar x = true) : Ty.char.InRange v := by
  obtain ⟨hrange, hsurrogates⟩ := Bool.and_eq_true_iff.mp hscalar
  obtain ⟨u, hu, hle⟩ := (Option.any_eq_true _ _).mp hrange
  rcases Bool.or_eq_true_iff.mp hsurrogates with hbelow | habove
  · obtain ⟨u', hu', hlt⟩ := (Option.any_eq_true _ _).mp hbelow
    exact Or.inl (Nat.lt_of_le_of_lt (h.1 u' hu') (of_decide_eq_true hlt))
  · obtain ⟨l, hl, hlt⟩ := (Option.any_eq_true _ _).mp habove
    exact Or.inr ⟨Nat.lt_of_lt_of_le (of_decide_eq_true hlt) (h.2 l hl),
      Nat.le_trans (h.1 u hu) (of_decide_eq_true hle)⟩

/-! ## Assignments -/

/-- The bounds of `t` hold in `σ`, and `dst` has none. -/
structure Unbound (dst : Local) (σ : Store) (t : BlockState) : Prop where
  bounded : Bounded t σ
  upper : t.constUpper.get dst = none
  lower : t.constLower.get dst = none

section Assign
variable {s t : BlockState} {σ : Store} {dst : Local} {F : List Field}

/-- What the store gives to a local without bounds does not matter. -/
theorem Unbound.set (h : Unbound dst σ t) (v : Nat) : Bounded t (σ.set dst v) := by
  intro x
  by_cases hx : x = dst
  · subst hx
    refine ⟨fun u hu => ?_, fun l hl => ?_⟩
    · rw [h.upper] at hu; cases hu
    · rw [h.lower] at hl; cases hl
  · rw [Store.set_of_ne hx]
    exact h.bounded x

theorem Unbound.frame (h : Unbound dst σ s) (hw : Writes F s t)
    (hF : ∀ f ∈ F, f ≠ .constUpper ∧ f ≠ .constLower) : Unbound dst σ t where
  bounded := h.bounded.frame hw hF
  upper := by
    rw [show t.constUpper = s.constUpper from hw .constUpper fun hm => (hF _ hm).1 rfl]
    exact h.upper
  lower := by
    rw [show t.constLower = s.constLower from hw .constLower fun hm => (hF _ hm).2 rfl]
    exact h.lower

/-- An assignment starts by forgetting the bounds of its destination. -/
theorem Bounded.redefine (h : Bounded s σ) (body : Body) (rvalue : Rvalue) :
    Unbound dst σ (San.redefine body dst rvalue s) where
  bounded x := by
    unfold InBounds
    rw [redefine_constUpper, redefine_constLower, FMap.get_erase, FMap.get_erase]
    split
    · exact ⟨nofun, nofun⟩
    · exact h x
  upper := by rw [redefine_constUpper, FMap.get_erase_self]
  lower := by rw [redefine_constLower, FMap.get_erase_self]

/-- A move or a copy carries the bounds over together with the value. -/
theorem Unbound.propagateUse (h : Unbound dst σ s) (src : Local) (isMove : Bool) :
    Bounded (San.propagateUse src dst isMove s) (σ.set dst (σ src)) := by
  intro x
  refine ⟨fun u hu => ?_, fun l hl => ?_⟩
  · rcases propagateMap_source hu with ⟨rfl, hsrc⟩ | hx
    · rw [Store.set_self]
      exact (h.bounded src).1 u hsrc
    · exact (h.set (σ src) x).1 u hx
  · rcases propagateMap_source hl with ⟨rfl, hsrc⟩ | hx
    · rw [Store.set_self]
      exact (h.bounded src).2 l hsrc
    · exact (h.set (σ src) x).2 l hx

/-- What is known of an operand bounds its value. -/
theorem Bounded.operandUpper (h : Bounded s σ) {op : Operand} {x : Nat} (hx : op.Denotes σ x)
    {u : U64} (hu : San.operandUpper s op = some u) : x ≤ u.val := by
  unfold San.operandUpper at hu
  rcases Option.or_eq_some_iff.mp hu with hk | ⟨_, hl⟩
  · exact Nat.le_of_eq (hx.of_const hk)
  · obtain ⟨l, hlocal, hget⟩ := Option.bind_eq_some_iff.mp hl
    rw [hx.of_local hlocal]
    exact (h l).1 u hget

/-- A product or a sum is at most that of the bounds, wrapped or not. -/
theorem Bounded.boundArith (h : Bounded t σ) {v : Nat} (hset : Bounded t (σ.set dst v))
    {f : Nat → Nat → Nat} (hf : ∀ {a b c d : Nat}, a ≤ c → b ≤ d → f a b ≤ f c d)
    {op1 op2 : Operand} {x y : Nat} (hx : op1.Denotes σ x) (hy : op2.Denotes σ y)
    (hv : v ≤ f x y) (hsmall : v < 2 ^ 64) :
    Bounded (San.boundArith f dst op1 op2 t) (σ.set dst v) := by
  unfold San.boundArith
  split
  · rename_i a b ha hb
    have hle : v ≤ f a.val b.val :=
      Nat.le_trans hv (hf (h.operandUpper hx ha) (h.operandUpper hy hb))
    have hbound : Bounded (t.boundAbove dst (toU64 (f a.val b.val))) (σ.set dst v) := by
      refine hset.boundAbove ?_
      rw [Store.set_self]
      exact Nat.le_min.mpr ⟨hle, Nat.le_of_lt_succ hsmall⟩
    dsimp only
    split
    · exact hbound.frame (BlockState.insertMay_writes _ _ _) (by simp)
    · exact hbound.frame (BlockState.onMaySets_writes _ _ _) (by simp)
  · exact hset.frame (t.insertMay_writes _ _) (by simp)

theorem Bounded.clearComparisons (h : Bounded t σ) : Bounded (San.clearComparisons dst t) σ :=
  h.frame (t.onFacts_writes Fact.comparisons _) (by decide)

/-- The bound of a conjunction: a constant, or the bound of an operand. -/
theorem Bounded.andUpper (h : Bounded s σ) {op1 op2 : Operand} {x y : Nat}
    (hx : op1.Denotes σ x) (hy : op2.Denotes σ y) {u : U64}
    (hu : San.andUpper s op1 op2 = some u) : x &&& y ≤ u.val := by
  have hmem := List.reduceOption_mem_iff.mp (List.min?_mem hu)
  have hlocal : ∀ {op : Operand} {z : Nat}, op.Denotes σ z →
      (operandLocal op).bind s.constUpper.get = some u → z ≤ u.val := by
    intro op z hz hbind
    obtain ⟨l, hl, hget⟩ := Option.bind_eq_some_iff.mp hbind
    rw [hz.of_local hl]
    exact (h l).1 u hget
  simp only [List.mem_cons, List.not_mem_nil, or_false] at hmem
  rcases hmem with hconst | hop1 | hop2
  · rcases Option.or_eq_some_iff.mp hconst.symm with hk | ⟨_, hk⟩
    · exact Nat.le_trans Nat.and_le_right (Nat.le_of_eq (hy.of_const hk))
    · exact Nat.le_trans Nat.and_le_left (Nat.le_of_eq (hx.of_const hk))
  · exact Nat.le_trans Nat.and_le_left (hlocal hx hop1.symm)
  · exact Nat.le_trans Nat.and_le_right (hlocal hy hop2.symm)

theorem le_u64Max {x : Nat} (h : x < 2 ^ 64) : x ≤ u64Max.val := Nat.le_sub_one_of_lt h

/-- A bound, or `u64::MAX` where there is none. -/
theorem Bounded.le_getD (h : Bounded s σ) {op : Operand} {x : Nat} (hx : op.Denotes σ x)
    (hsmall : x < 2 ^ 64) : x ≤ (((operandLocal op).bind s.constUpper.get).getD u64Max).val := by
  cases hbind : (operandLocal op).bind s.constUpper.get with
  | none => exact le_u64Max hsmall
  | some u =>
    obtain ⟨l, hl, hget⟩ := Option.bind_eq_some_iff.mp hbind
    rw [Option.getD_some, hx.of_local hl]
    exact (h l).1 u hget

theorem shrUpper_val {ub k : U64} (hk : k.val < 64) :
    (shrUpper ub k).val = ub.val / 2 ^ k.val := by
  have hmod : k.val % 2 ^ 32 = k.val := Nat.mod_eq_of_lt (Nat.lt_trans hk (by decide))
  have hlt : k.val % 2 ^ 32 < 64 := by rw [hmod]; exact hk
  unfold shrUpper
  rw [if_pos hlt]
  show ub.val / 2 ^ (k.val % 2 ^ 32) = _
  rw [hmod]

/-- An unsigned remainder is less than the divisor. -/
theorem rem_result_le {ty : Ty} (hty : ty.signed = false) {x y v : Nat} (hy : 0 < y) {cty : Ty}
    (hv : ∀ r, BinOp.rem.result ty cty x y = some r → v = r) : v ≤ y - 1 := by
  have hres := hv _ (if_neg (Nat.pos_iff_ne_zero.mp hy))
  rw [Ty.toInt_of_unsigned hty, Ty.toInt_of_unsigned hty, ← Int.ofNat_tmod] at hres
  rw [hres]
  exact Nat.le_trans (Ty.wrap_natCast_le ty _) (Nat.le_sub_one_of_lt (Nat.mod_lt x hy))

/-- An unsigned right shift divides. -/
theorem shr_result_le {ty : Ty} (hty : ty.signed = false) {x y v : Nat} (hy : y < ty.bits)
    {cty : Ty} (hv : ∀ r, BinOp.shr.result ty cty x y = some r → v = r) : v ≤ x / 2 ^ y := by
  have hres := hv _ rfl
  have hdiv : (x : Int) / 2 ^ y = ((x / 2 ^ y : Nat) : Int) := by push_cast; rfl
  rw [Ty.toInt_of_unsigned hty, Nat.mod_eq_of_lt hy, hdiv] at hres
  rw [hres]
  exact Ty.wrap_natCast_le ty _

/-- **What a binary operation proves** of its result holds of it. -/
theorem Unbound.recordBinaryOp (h : Unbound dst σ t) {body : Body} {op : BinOp}
    {op1 op2 : Operand} {v : Nat} (hty : (body.localTy dst).IsSmallUnsigned)
    (hv : MayYield body σ dst (.binaryOp op op1 op2) v)
    (hshift : op = .shr → ∀ k, constU64 op2 = some k → k.val < (body.localTy dst).bits) :
    Bounded (San.recordBinaryOp body op op1 op2 dst t) (σ.set dst v) := by
  obtain ⟨hrange, hpair, x, y, hx, hy, hop1, hres⟩ := hv
  have hset := h.set v
  have hsmall := hrange.lt_two_pow hty
  have hunsigned := Ty.signed_of_isSmallUnsigned hty
  cases hop : op.isComparison with
  | true => exact hset.frame (recordBinaryOp_compared t body hop op1 op2 dst) (by decide)
  | false =>
    have hbits := Ty.bits_of_isSmallUnsigned hty
    cases op with
    | bitOr =>
      refine Bounded.clearComparisons ?_
      split
      · exact hset.frame (t.insertMust_writes _ _) (by simp)
      · exact hset
    | bitAnd =>
      refine (hset.boundAboveBy fun ub hub => ?_).clearComparisons
      rw [Store.set_self, hres _ rfl]
      exact h.bounded.andUpper hx hy hub
    | rem =>
      refine (hset.boundAboveBy fun ub hub => ?_).clearComparisons
      obtain ⟨d, hd, hub⟩ := Option.bind_eq_some_iff.mp hub
      split at hub
      · rename_i hpos
        cases hub
        rw [Store.set_self]
        have hyd := hy.of_const hd
        subst hyd
        exact rem_result_le hunsigned hpos hres
      · cases hub
    | shr =>
      refine (hset.boundAboveBy fun ub hub => ?_).clearComparisons
      obtain ⟨k, hk, rfl⟩ := Option.map_eq_some_iff.mp hub
      have hlt := hshift rfl k hk
      have hyk := hy.of_const hk
      subst hyk
      rw [Store.set_self, shrUpper_val (Nat.lt_of_lt_of_le hlt hbits)]
      exact Nat.le_trans (shr_result_le hunsigned hlt hres)
        (Nat.div_le_div_right (h.bounded.le_getD hx ((hop1 rfl).lt_two_pow hty)))
    | mul =>
      refine (h.bounded.boundArith hset Nat.mul_le_mul hx hy ?_ hsmall).clearComparisons
      rw [hres _ rfl, ← Int.natCast_mul]
      exact Ty.wrap_natCast_le _ _
    | add =>
      refine Bounded.clearComparisons ?_
      split
      · refine h.bounded.boundArith hset Nat.add_le_add hx hy ?_ hsmall
        rw [hres _ rfl, ← Int.natCast_add]
        exact Ty.wrap_natCast_le _ _
      · exact hset
    | mulWithOverflow => cases hpair
    | addWithOverflow => cases hpair
    | lt => cases hop
    | le => cases hop
    | ge => cases hop
    | gt => cases hop
    | eq => cases hop
    | ne => cases hop
    | _ => exact hset.clearComparisons

/-- A cast to an unsigned type cuts an unsigned value, which does not make it larger. -/
theorem Unbound.assignNumericCast (h : Unbound dst σ t) {body : Body} {kind : CastKind}
    {src : Local} {ty : Ty} {v : Nat} (hsrc : (body.localTy src).signed = false)
    (hv : kind = .intToInt → v = ty.wrap ((body.localTy src).toInt (σ src)))
    (hrange : kind = .intToInt → ∀ m, uintTypeMax ty = some m → v ≤ m.val) :
    Bounded (San.assignNumericCast kind src dst ty t) (σ.set dst v) := by
  have horigin : Bounded (t.insertFact .castOrigin dst src) (σ.set dst v) :=
    (h.set v).frame (t.insertFact_writes _ _ _) (by simp)
  unfold San.assignNumericCast
  split
  · rename_i hkind
    have htype := horigin.boundAboveBy (l := dst) (o := uintTypeMax ty) fun m hm => by
      rw [Store.set_self]
      exact hrange hkind m hm
    have hnonzero : ∀ u, Bounded u (σ.set dst v) →
        Bounded (if src ∈ u.mustSets .nonzero then u.insertMust .nonzero dst else u)
          (σ.set dst v) := by
      intro u hu
      split
      · exact hu.frame (u.insertMust_writes _ _) (by simp)
      · exact hu
    refine (hnonzero _ htype).boundAboveBy fun ub hub => ?_
    by_cases hsame : src = dst
    · subst hsame
      exact (hnonzero _ htype src).1 ub hub
    · have hold := (hnonzero _ htype src).1 ub hub
      rw [Store.set_of_ne hsame] at hold
      rw [Store.set_self, hv hkind, Ty.toInt_of_unsigned hsrc]
      exact Nat.le_trans (Ty.wrap_natCast_le ty _) hold
  · exact horigin

end Assign

/-- Every local of the rvalue that is an integer is unsigned and has at most 64 bits. -/
def Rvalue.UnsignedLocals (body : Body) (rvalue : Rvalue) : Prop :=
  ∀ l ∈ rvalue.locals, (body.localTy l).isInteger = true → (body.localTy l).IsSmallUnsigned

/-- A right shift by a constant is one by less than `bits`. -/
def Rvalue.ShiftsWithin (bits : Nat) : Rvalue → Prop
  | .binaryOp .shr _ op2 => ∀ k, constU64 op2 = some k → k.val < bits
  | _ => True

section Statement
variable {s t : BlockState} {σ : Store} {dst : Local} {rvalue : Rvalue} {v : Nat}

/-- A plain move or copy carries the bounds over; anything else leaves the destination
unbound for now. -/
theorem Unbound.propagateRvalue (h : Unbound dst σ t) {body : Body} {ty : Ty}
    (hv : rvalue.Yields body σ ty v) :
    Bounded (San.propagateRvalue dst rvalue t) (σ.set dst v) := by
  have huse : ∀ {op : Operand} {src : Place}, op.Denotes σ v → (op = .move src ∨ op = .copy src) →
      ∀ isMove, Bounded (if src.isLocal then San.propagateUse src.base dst isMove t else t)
        (σ.set dst v) := by
    intro op src hop hsrc isMove
    split
    · rename_i hlocal
      have hl : operandLocal op = some src.base := by
        rcases hsrc with rfl | rfl <;> exact if_pos hlocal
      rw [hop.of_local hl]
      exact h.propagateUse src.base isMove
    · exact h.set v
  unfold San.propagateRvalue
  split
  · exact huse hv (Or.inl rfl) true
  · exact huse hv (Or.inr rfl) false
  · exact h.set v

theorem propagateRvalue_of_isNumeric (h : rvalue.isNumeric = true) (dst : Local) (t : BlockState) :
    San.propagateRvalue dst rvalue t = t := by
  cases rvalue with
  | use op =>
    cases op with
    | constant c => rfl
    | copy p => cases h
    | move p => cases h
  | _ => rfl

/-- **What a number proves.**  The bounds that a constant, a cast or an operation gives to its
destination contain what it computes. -/
theorem Unbound.assignRvalue (h : Unbound dst σ t) (tcx : TyCtxt) {body : Body}
    (hnumeric : rvalue.isNumeric = true) (hty : (body.localTy dst).IsSmallUnsigned)
    (hlocals : rvalue.UnsignedLocals body)
    (hshift : rvalue.ShiftsWithin (body.localTy dst).bits) (hv : MayYield body σ dst rvalue v) :
    Bounded (San.assignRvalue tcx body dst rvalue t) (σ.set dst v) := by
  cases rvalue with
  | use op =>
    cases op with
    | copy p => cases hnumeric
    | move p => cases hnumeric
    | constant c =>
      have hclear : ∀ u, Bounded u (σ.set dst v) → Bounded
          (((u.setObjects dst none).dropProto dst).clearScalarFacts dst) (σ.set dst v) := fun u hu =>
        ((hu.frame (u.setObjects_writes _ _) (by decide)).frame (BlockState.dropProto_writes _ _)
          (by decide)).frame (clearScalarFacts_writes _ _) (by decide)
      refine hclear _ ?_
      split
      · rename_i val hval
        refine Bounded.setConstant ?_ ?_
        · split
          · exact (h.set v).frame (t.insertMust_writes _ _) (by simp)
          · exact (h.set v).frame (t.onMustSets_writes _ _) (by simp)
        · rw [Store.set_self]
          exact hv.2 _ (Const.toU64_eq_some hval)
      · exact h.set v
  | cast kind op ty =>
    rw [assignRvalue_numericCast t tcx body dst hnumeric op ty]
    cases hop : operandLocal op with
    | none => exact (h.set v).frame (assignUnknown_writes t _ dst) (by decide)
    | some src =>
      have hmem : src ∈ (Rvalue.cast kind op ty).locals :=
        Classical.byContradiction fun hnot => operandLocal_ne hnot hop rfl
      have hsrc : (body.localTy src).signed = false := by
        cases hinteger : (body.localTy src).isInteger with
        | true => exact Ty.signed_of_isSmallUnsigned (hlocals src hmem hinteger)
        | false => exact Ty.signed_of_not_isInteger hinteger
      refine h.assignNumericCast hsrc ?_ ?_
      · rintro rfl
        exact hv.2.2 src hop
      · rintro rfl m hm
        exact hv.1.le_uintTypeMax (hv.2.1 ▸ hm)
  | binaryOp op op1 op2 =>
    have henter := h.frame (enterBinaryOp_writes t op op1 op2 dst) (by decide)
    refine henter.recordBinaryOp hty hv ?_
    rintro rfl
    exact hshift
  | _ => cases hnumeric

/-- **An assignment keeps the bounds.**  What it proves of its destination holds of the value
it computes. -/
theorem Bounded.applyStatement (h : Bounded s σ) (tcx : TyCtxt) {body : Body} {stmt : Statement}
    (hstmt : stmt.kind = .assign (Place.ofLocal dst) rvalue)
    (hty : (body.localTy dst).IsSmallUnsigned) (hlocals : rvalue.UnsignedLocals body)
    (hshift : rvalue.ShiftsWithin (body.localTy dst).bits) (hv : MayYield body σ dst rvalue v) :
    Bounded (San.applyStatement tcx body stmt s) (σ.set dst v) := by
  have hstart : Unbound dst σ (San.redefine body dst rvalue (s.invalidateOwner dst)) :=
    (h.frame (s.invalidateOwners_writes {dst}) (by decide)).redefine body rvalue
  have hbase := hstart.frame (recordRefBase_writes _ dst rvalue) (by decide)
  have hassign : Bounded (San.assignRvalue tcx body dst rvalue (recordLenOf dst rvalue
      (San.propagateRvalue dst rvalue (recordRefBase dst rvalue
        (San.redefine body dst rvalue (s.invalidateOwner dst)))))) (σ.set dst v) := by
    cases hnumeric : rvalue.isNumeric with
    | true =>
      rw [propagateRvalue_of_isNumeric hnumeric]
      exact (hbase.frame (recordLenOf_writes _ dst rvalue) (by decide)).assignRvalue tcx hnumeric
        hty hlocals hshift hv
    | false =>
      exact ((hbase.propagateRvalue hv.2).frame (recordLenOf_writes _ dst rvalue)
        (by decide)).frame (assignRvalue_quiet _ tcx body dst hnumeric) (by decide)
  rw [applyStatement_assign tcx body hstmt, assignLocal_eq]
  unfold enforceTypeFacts
  refine Bounded.boundAboveBy ?_ fun m hm => ?_
  · split
    · exact hassign.frame (BlockState.insertMust_writes _ _ _) (by simp)
    · exact hassign
  · rw [Store.set_self]
    exact hv.1.le_uintTypeMax hm

end Statement

/-- **The constant bounds are sound on unsigned values.**  They are kept by every assignment to
an unsigned local, by the taken edge of a two-way switch, and by merges; so what is proven to be
ASCII, or a scalar value, is. -/
theorem constant_bounds_sound (tcx : TyCtxt) (body : Body) :
    (∀ s σ dst rvalue v stmt, Bounded s σ → stmt.kind = .assign (Place.ofLocal dst) rvalue →
      (body.localTy dst).IsSmallUnsigned → rvalue.UnsignedLocals body →
      rvalue.ShiftsWithin (body.localTy dst).bits → MayYield body σ dst rvalue v →
      Bounded (applyStatement tcx body stmt s) (σ.set dst v)) ∧
    (∀ (n : Nat) (e t succ : Fin n) discr span s σ, Bounded s σ → Truthful body s σ →
      UnsignedFacts body s →
      (∀ c, operandLocal discr = some c →
        succ = SwitchTargets.select ⟨[(0, e)], t⟩ (σ c)) →
      Bounded (refineSwitchintEdge ⟨.switchInt discr ⟨[(0, e)], t⟩, span⟩ succ s) σ) ∧
    (∀ (a b : BlockState) x v, InBounds a x v ∨ InBounds b x v →
      InBounds (a.joinWith b).1 x v) ∧
    (∀ s x v, InBounds s x v → (s.localIsAscii x = true → v ≤ 127) ∧
      (s.localIsValidScalar x = true → Ty.char.InRange v)) := by
  refine ⟨?_, ?_, ?_, ?_⟩
  · intro s σ dst rvalue v stmt h hstmt hty hlocals hshift hv
    exact h.applyStatement tcx hstmt hty hlocals hshift hv
  · intro n e t succ discr span s σ h ht hu hsucc
    exact h.refineSwitchintEdge ht hu hsucc
  · rintro a b x v (ha | hb)
    · exact ha.of_provenIn (ProvenIn.joined_left a b)
    · exact hb.of_provenIn (ProvenIn.joined_right a b)
  · exact fun s x v h => ⟨h.le_of_localIsAscii, h.inRange_of_localIsValidScalar⟩

/-- A function with two `u8`s. -/
def twoBytes : Body :=
  .ofBlocks 0 1 [.other, .uint .u8, .uint .u8] 0 (fun _ => [.of [] .return]) (by decide)

/-- `_2 = _1 & 0x7F`, where `_1` holds `200`. -/
theorem masked_byte_is_ascii :
    (applyStatement (.ofPaths []) twoBytes (.set 2 (.binaryOp .bitAnd (.ofNat 1)
      (.constant ⟨some 0x7F, none⟩))) .default).localIsAscii (Local.ofNat 2) = true ∧
    200 &&& 0x7F ≤ 127 := by
  have hascii : (applyStatement (.ofPaths []) twoBytes (.set 2 (.binaryOp .bitAnd (.ofNat 1)
      (.constant ⟨some 0x7F, none⟩))) .default).localIsAscii (Local.ofNat 2) = true := by
    decide +kernel
  have hyield : MayYield twoBytes (fun _ => 200) (Local.ofNat 2) (.binaryOp .bitAnd (.ofNat 1)
      (.constant ⟨some 0x7F, none⟩)) (200 &&& 0x7F) := by
    refine ⟨by decide, rfl, 200, 0x7F, ?_, ?_, fun _ => by decide, fun r hr => ?_⟩
    · intro p hp; cases hp; rfl
    · intro p hp; cases hp; rfl
    · cases hr; rfl
  have hlocals : Rvalue.UnsignedLocals twoBytes (.binaryOp .bitAnd (.ofNat 1)
      (.constant ⟨some 0x7F, none⟩)) := by
    intro l hl _
    cases List.mem_singleton.mp hl
    decide
  have hbounded := (constant_bounds_sound (.ofPaths []) twoBytes).1 .default (fun _ => 200)
    (Local.ofNat 2) _ _ (.set 2 (.binaryOp .bitAnd (.ofNat 1) (.constant ⟨some 0x7F, none⟩)))
    (fun _ => ⟨nofun, nofun⟩) rfl (by decide) hlocals trivial hyield
  exact ⟨hascii, ((constant_bounds_sound (.ofPaths []) twoBytes).2.2.2 _ _ _
    (hbounded (Local.ofNat 2))).1 hascii⟩

end San
