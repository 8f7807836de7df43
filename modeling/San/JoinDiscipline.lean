import San.FiniteMap

/-! # Join disciplines

A dataflow state is merged component by component, and each component has its own
discipline: what the merged value is, and when the merge reports a change.  A
`Discipline` is such a pair, and `Discipline.Lawful` collects what a worklist
needs of it:

* merging is associative and idempotent, and a merged value absorbs both of its
  arguments;
* the flag is exact: a reported change is a real one, and an unreported one is
  not, at least on `good` arguments;
* a value that has been merged without a change stays merged when the target
  grows (`mono`);
* the *natural order* of the join, `a` below `b` when `join a b = b`, has no
  infinite ascending chain: some rank decreases strictly along it.

Three constructions cover the usual disciplines: semilattices with an exact flag
(`Lawful.ofSemilattice`), maps whose keys accumulate (`growing`), and maps whose
keys are intersected (`shrinking`).  Families (`family`) and products (`prod`)
combine them, and `Lawful.pullback` carries the laws to a record of components.
-/

/-- What merging one value into another yields, and when it reports a change. -/
structure Discipline (σ : Type) where
  join : σ → σ → σ
  changed : σ → σ → Bool
  /-- The arguments on which an unreported change is no change. -/
  good : σ → Prop

namespace Discipline
variable {σ τ κ K V : Type}

/-- The laws of a join with its change flag. -/
structure Lawful (d : Discipline σ) : Prop where
  self : ∀ a, d.join a a = a
  assoc : ∀ a b c, d.join (d.join a b) c = d.join a (d.join b c)
  left : ∀ a b, d.join (d.join a b) a = d.join a b
  ne_of_changed : ∀ a b, d.changed a b = true → d.join a b ≠ a
  eq_of_not_changed : ∀ a b, d.good b → d.changed a b = false → d.join a b = a
  mono : ∀ a x y, d.changed a x = false → d.changed (d.join a y) x = false
  ranked : ∃ rank : σ → ℕ, ∀ a b, d.join a b = b → a ≠ b → rank b < rank a

namespace Lawful
variable {d : Discipline σ}

theorem right (h : d.Lawful) (a b : σ) : d.join (d.join a b) b = d.join a b := by
  rw [h.assoc, h.self]

theorem not_changed (h : d.Lawful) {a b : σ} (he : d.join a b = a) : d.changed a b = false := by
  cases hc : d.changed a b with
  | false => rfl
  | true => exact absurd he (h.ne_of_changed a b hc)

theorem not_changed_self (h : d.Lawful) (a : σ) : d.changed a a = false :=
  h.not_changed (h.self a)

theorem not_changed_left (h : d.Lawful) (a b : σ) : d.changed (d.join a b) a = false :=
  h.not_changed (h.left a b)

theorem not_changed_right (h : d.Lawful) (a b : σ) : d.changed (d.join a b) b = false :=
  h.not_changed (h.right a b)

/-- A value is below what it is merged into. -/
theorem below_join (h : d.Lawful) (a b : σ) : d.join a (d.join a b) = d.join a b := by
  rw [← h.assoc, h.self]

end Lawful

/-! ## Semilattices -/

/-- A commutative join whose flag says whether the value moved. -/
theorem Lawful.ofSemilattice {d : Discipline σ} (self : ∀ a, d.join a a = a)
    (comm : ∀ a b, d.join a b = d.join b a)
    (assoc : ∀ a b c, d.join (d.join a b) c = d.join a (d.join b c))
    (flag : ∀ a b, d.changed a b = true ↔ d.join a b ≠ a)
    (ranked : ∃ rank : σ → ℕ, ∀ a b, d.join a b = b → a ≠ b → rank b < rank a) : d.Lawful where
  self := self
  assoc := assoc
  left a b := by rw [comm (d.join a b) a, ← assoc, self]
  ne_of_changed a b h := (flag a b).mp h
  eq_of_not_changed a b _ h := by
    by_contra hne
    rw [(flag a b).mpr hne] at h
    cases h
  mono a x y h := by
    have hax : d.join a x = a := by
      by_contra hne
      rw [(flag a x).mpr hne] at h
      cases h
    cases hc : d.changed (d.join a y) x with
    | false => rfl
    | true =>
        refine absurd ?_ ((flag _ _).mp hc)
        rw [assoc, comm y x, ← assoc, hax]
  ranked := ranked

section Sets
variable [DecidableEq K]

/-- Sets that shrink to what both sides have. -/
def interSet : Discipline (Finset K) where
  join a b := a ∩ b
  changed a b := decide (a ∩ b ≠ a)
  good _ := True

theorem interSet_lawful : (interSet (K := K)).Lawful := by
  refine Lawful.ofSemilattice Finset.inter_self Finset.inter_comm Finset.inter_assoc
    (fun a b => by simp [interSet]) ⟨Finset.card, ?_⟩
  intro a b hab hne
  have hsub : b ⊆ a := Finset.inter_eq_right.mp hab
  exact Finset.card_lt_card (Finset.ssubset_iff_subset_ne.mpr ⟨hsub, fun h => hne h.symm⟩)

/-- Sets that collect what either side has; inserting a new element is a change. -/
def unionSet : Discipline (Finset K) where
  join a b := a ∪ b
  changed a b := decide (∃ x ∈ b, x ∉ a)
  good _ := True

theorem union_ranked [Finite K] : ∃ (rank : Finset K → ℕ) (top : ℕ), (∀ s, rank s ≤ top) ∧
    ∀ a b, a ∪ b = b → a ≠ b → rank b < rank a := by
  have := Fintype.ofFinite K
  refine ⟨fun s => Fintype.card K - s.card, Fintype.card K, fun s => Nat.sub_le _ _, ?_⟩
  intro a b hab hne
  have hlt : a.card < b.card :=
    Finset.card_lt_card (Finset.ssubset_iff_subset_ne.mpr ⟨Finset.union_eq_right.mp hab, hne⟩)
  have hle : b.card ≤ Fintype.card K := Finset.card_le_univ b
  show Fintype.card K - b.card < Fintype.card K - a.card
  omega

theorem unionSet_lawful [Finite K] : (unionSet (K := K)).Lawful := by
  obtain ⟨rank, _, _, hrank⟩ := union_ranked (K := K)
  refine Lawful.ofSemilattice Finset.union_self Finset.union_comm Finset.union_assoc
    (fun a b => ?_) ⟨rank, hrank⟩
  show decide (∃ x ∈ b, x ∉ a) = true ↔ a ∪ b ≠ a
  rw [decide_eq_true_iff, Ne, Finset.union_eq_left, Finset.subset_iff]
  push Not
  rfl

end Sets

/-- A flag that is raised once and for all. -/
def raiseFlag : Discipline Bool where
  join a b := a || b
  changed a b := b && !a
  good _ := True

theorem raiseFlag_lawful : raiseFlag.Lawful :=
  Lawful.ofSemilattice Bool.or_self Bool.or_comm Bool.or_assoc
    (by decide) ⟨fun a => if a then 0 else 1, by decide⟩

/-! ## Maps whose keys accumulate -/

/-- How two values bound at one key combine, and which values count as a change
when they arrive at an unbound key. -/
structure Accumulate (V : Type) where
  combine : V → V → V
  fresh : V → Bool

structure Accumulate.Lawful (g : Accumulate V) : Prop where
  self : ∀ u, g.combine u u = u
  assoc : ∀ u v w, g.combine (g.combine u v) w = g.combine u (g.combine v w)
  left : ∀ u v, g.combine (g.combine u v) u = g.combine u v
  mono : ∀ u v w, g.combine u v = u → g.combine (g.combine u w) v = g.combine u w
  stale : ∀ u v, g.fresh v = false → g.combine u v = u
  ranked : ∃ (rank : V → ℕ) (top : ℕ), (∀ v, rank v ≤ top) ∧
    ∀ u v, g.combine u v = v → u ≠ v → rank v < rank u

/-- Combine optional values: what is bound on one side only is kept. -/
def Accumulate.combineOpt (g : Accumulate V) : Option V → Option V → Option V
  | some u, some v => some (g.combine u v)
  | some u, none => some u
  | none, o => o

section Growing
variable [DecidableEq K] [DecidableEq V]

/-- Does the value arriving at a key change what is bound there? -/
def Accumulate.arrives (g : Accumulate V) : Option V → Option V → Bool
  | none, some v => g.fresh v
  | some u, some v => decide (g.combine u v ≠ u)
  | _, none => false

/-- Maps that keep every key of both sides. -/
def growing (g : Accumulate V) : Discipline (FMap K V) where
  join a b := FMap.merge g.combineOpt rfl a b
  changed a b := decide (∃ k ∈ b.keys, g.arrives (a.get k) (b.get k) = true)
  good b := ∀ k v, b.get k = some v → g.fresh v = true

variable {g : Accumulate V}

theorem get_growing (a b : FMap K V) (k : K) :
    ((growing g).join a b).get k = g.combineOpt (a.get k) (b.get k) := rfl

theorem growing_changed_iff {a b : FMap K V} :
    (growing g).changed a b = true ↔ ∃ k, g.arrives (a.get k) (b.get k) = true := by
  simp only [growing, decide_eq_true_iff]
  constructor
  · rintro ⟨k, _, hk⟩
    exact ⟨k, hk⟩
  · rintro ⟨k, hk⟩
    refine ⟨k, ?_, hk⟩
    by_contra hn
    rw [FMap.get_eq_none_iff.mpr hn] at hk
    cases h : a.get k <;> simp [h, Accumulate.arrives] at hk

theorem growing_not_changed_iff {a b : FMap K V} :
    (growing g).changed a b = false ↔ ∀ k, g.arrives (a.get k) (b.get k) = false := by
  rw [← Bool.not_eq_true, growing_changed_iff]
  push Not
  simp only [ne_eq, Bool.not_eq_true]

/-- The rank of a growing map: an unbound key can still climb past every value. -/
theorem growing_ranked [Finite K] (h : g.Lawful) :
    ∃ rank : FMap K V → ℕ, ∀ a b, (growing g).join a b = b → a ≠ b → rank b < rank a := by
  classical
  have := Fintype.ofFinite K
  obtain ⟨rank, top, hle, hlt⟩ := h.ranked
  let r : Option V → ℕ := fun o => o.elim (top + 1) rank
  refine ⟨fun m => ∑ k, r (m.get k), fun a b hab hne => ?_⟩
  have hk : ∀ k, g.combineOpt (a.get k) (b.get k) = b.get k := fun k => by
    rw [← get_growing, hab]
  have hpoint : ∀ k, a.get k ≠ b.get k → r (b.get k) < r (a.get k) := by
    intro k hkne
    have := hk k
    cases ha : a.get k with
    | none =>
        cases hb : b.get k with
        | none => rw [ha, hb] at hkne; exact absurd rfl hkne
        | some v => exact Nat.lt_succ_of_le (hle v)
    | some u =>
        rw [ha] at this hkne
        cases hb : b.get k with
        | none => rw [hb] at this; cases this
        | some v =>
            rw [hb] at this hkne
            exact hlt u v (Option.some.inj this) (fun he => hkne (congrArg some he))
  obtain ⟨k, hkne⟩ : ∃ k, a.get k ≠ b.get k := by
    by_contra hall
    push Not at hall
    exact hne (FMap.ext hall)
  refine Finset.sum_lt_sum (fun i _ => ?_) ⟨k, Finset.mem_univ k, hpoint k hkne⟩
  by_cases hi : a.get i = b.get i
  · rw [hi]
  · exact Nat.le_of_lt (hpoint i hi)

theorem growing_lawful [Finite K] (h : g.Lawful) : (growing (K := K) g).Lawful where
  self a := by
    ext1 k
    rw [get_growing]
    cases a.get k with
    | none => rfl
    | some u => exact congrArg some (h.self u)
  assoc a b c := by
    ext1 k
    simp only [get_growing]
    cases a.get k <;> cases b.get k <;> cases c.get k <;>
      simp [Accumulate.combineOpt, h.assoc]
  left a b := by
    ext1 k
    simp only [get_growing]
    cases a.get k <;> cases b.get k <;> simp [Accumulate.combineOpt, h.left, h.self]
  ne_of_changed a b hc he := by
    obtain ⟨k, hk⟩ := growing_changed_iff.mp hc
    have hget : g.combineOpt (a.get k) (b.get k) = a.get k := by rw [← get_growing, he]
    cases ha : a.get k <;> cases hb : b.get k <;>
      simp_all [Accumulate.arrives, Accumulate.combineOpt]
  eq_of_not_changed a b hgood hc := by
    ext1 k
    have hk := growing_not_changed_iff.mp hc k
    rw [get_growing]
    cases ha : a.get k with
    | none =>
        cases hb : b.get k with
        | none => rfl
        | some v => rw [ha, hb, Accumulate.arrives, hgood k v hb] at hk; cases hk
    | some u =>
        cases hb : b.get k with
        | none => rfl
        | some v =>
            rw [ha, hb, Accumulate.arrives, decide_eq_false_iff_not, not_not] at hk
            exact congrArg some hk
  mono a x y hc := by
    refine growing_not_changed_iff.mpr fun k => ?_
    have hk := growing_not_changed_iff.mp hc k
    rw [get_growing]
    cases hx : x.get k with
    | none => cases g.combineOpt (a.get k) (y.get k) <;> rfl
    | some v =>
        rw [hx] at hk
        cases ha : a.get k with
        | none =>
            rw [ha] at hk
            cases y.get k with
            | none => exact hk
            | some w => simp [Accumulate.combineOpt, Accumulate.arrives, h.stale w v hk]
        | some u =>
            rw [ha, Accumulate.arrives, decide_eq_false_iff_not, not_not] at hk
            cases y.get k with
            | none => simp [Accumulate.combineOpt, Accumulate.arrives, hk]
            | some w => simp [Accumulate.combineOpt, Accumulate.arrives, h.mono u v w hk]
  ranked := growing_ranked h

/-- The natural order of growing maps: keys stay bound, to values further up. -/
theorem growing_below_iff {a b : FMap K V} : (growing g).join a b = b ↔
    ∀ k u, a.get k = some u → ∃ v, b.get k = some v ∧ g.combine u v = v := by
  constructor
  · intro h k u ha
    have hk : g.combineOpt (a.get k) (b.get k) = b.get k := by rw [← get_growing, h]
    rw [ha] at hk
    cases hb : b.get k with
    | none => rw [hb] at hk; cases hk
    | some v => rw [hb] at hk; exact ⟨v, rfl, Option.some.inj hk⟩
  · intro h
    ext1 k
    rw [get_growing]
    cases ha : a.get k with
    | none => rfl
    | some u =>
        obtain ⟨v, hb, huv⟩ := h k u ha
        rw [hb]
        exact congrArg some huv

theorem growing_comm (hc : ∀ u v, g.combine u v = g.combine v u) (a b : FMap K V) :
    (growing g).join a b = (growing g).join b a := by
  ext1 k
  simp only [get_growing]
  cases a.get k <;> cases b.get k <;> simp [Accumulate.combineOpt, hc]

/-- Where the two sides agree, merging them changes nothing. -/
theorem agreeOn_growing (hself : ∀ u, g.combine u u = u) {L : Finset K} {a b : FMap K V}
    (h : FMap.AgreeOn L a b) : FMap.AgreeOn L ((growing g).join a b) a := by
  intro k hk
  rw [get_growing, ← h k hk]
  cases a.get k with
  | none => rfl
  | some u => exact congrArg some (hself u)

end Growing

/-- Keep the value that is already bound. -/
def keepFirst : Accumulate V := ⟨fun u _ => u, fun _ => true⟩

theorem keepFirst_lawful : (keepFirst (V := V)).Lawful where
  self _ := rfl
  assoc _ _ _ := rfl
  left _ _ := rfl
  mono _ _ _ _ := rfl
  stale _ _ h := nomatch h
  ranked := ⟨fun _ => 0, 0, fun _ => Nat.le_refl 0, fun _ _ h hne => absurd h hne⟩

/-- A binding that keeps the first value comes from one of the sides. -/
theorem keepFirst_source [DecidableEq K] [DecidableEq V] {a b : FMap K V} {k : K} {v : V}
    (h : ((growing keepFirst).join a b).get k = some v) :
    a.get k = some v ∨ b.get k = some v := by
  rw [get_growing] at h
  cases ha : a.get k with
  | none => rw [ha] at h; exact Or.inr h
  | some u =>
      rw [ha] at h
      cases hb : b.get k with
      | none => rw [hb] at h; exact Or.inl h
      | some w => rw [hb] at h; exact Or.inl h

/-- Keeping the first value is symmetric exactly where the two sides do not conflict. -/
theorem keepFirst_comm_iff [DecidableEq K] [DecidableEq V] (a b : FMap K V) :
    (growing keepFirst).join a b = (growing keepFirst).join b a ↔
      ∀ k u v, a.get k = some u → b.get k = some v → u = v := by
  constructor
  · intro h k u v ha hb
    have hk := congrArg (fun m => m.get k) h
    simp only [get_growing, ha, hb] at hk
    exact Option.some.inj hk
  · intro h
    ext1 k
    simp only [get_growing]
    cases ha : a.get k with
    | none => cases b.get k <;> rfl
    | some u =>
        cases hb : b.get k with
        | none => rfl
        | some v => exact congrArg some (h k u v ha hb)

/-- Combine by a semilattice join; any value arriving at an unbound key is a change. -/
def combineBy (j : V → V → V) : Accumulate V := ⟨j, fun _ => true⟩

theorem combineBy_lawful {j : V → V → V} (self : ∀ u, j u u = u) (comm : ∀ u v, j u v = j v u)
    (assoc : ∀ u v w, j (j u v) w = j u (j v w))
    (ranked : ∃ (rank : V → ℕ) (top : ℕ), (∀ v, rank v ≤ top) ∧
      ∀ u v, j u v = v → u ≠ v → rank v < rank u) : (combineBy j).Lawful where
  self := self
  assoc := assoc
  left u v := by show j (j u v) u = j u v; rw [comm (j u v) u, ← assoc, self]
  mono u v w h := by
    show j (j u w) v = j u w
    rw [assoc, comm w v, ← assoc, show j u v = u from h]
  stale _ _ h := nomatch h
  ranked := ranked

/-- Collect sets; an empty set arriving at an unbound key adds nothing and is not
reported. -/
def collect [DecidableEq V] : Accumulate (Finset V) := ⟨fun u v => u ∪ v, fun v => decide (v ≠ ∅)⟩

theorem collect_lawful [DecidableEq V] [Finite V] : (collect (V := V)).Lawful where
  self := Finset.union_self
  assoc := Finset.union_assoc
  left u v := by
    show u ∪ v ∪ u = u ∪ v
    rw [Finset.union_right_comm, Finset.union_self]
  mono u v w h := by
    show u ∪ w ∪ v = u ∪ w
    rw [Finset.union_right_comm, show u ∪ v = u from h]
  stale u v h := by
    have hv : v = ∅ := by simpa [collect] using h
    show u ∪ v = u
    rw [hv, Finset.union_empty]
  ranked := union_ranked

/-! ## Maps whose keys are intersected -/

/-- How two values bound at one key are reconciled; `none` drops the key. -/
structure Reconcile (V : Type) where
  meet : V → V → Option V

structure Reconcile.Lawful (g : Reconcile V) : Prop where
  self : ∀ u, g.meet u u = some u
  comm : ∀ u v, g.meet u v = g.meet v u
  assoc : ∀ u v w, (g.meet u v).bind (g.meet · w) = (g.meet v w).bind (g.meet u ·)
  ranked : ∃ rank : V → ℕ, ∀ u v, g.meet u v = some v → u ≠ v → rank v < rank u

/-- Reconcile optional values: a key unbound on one side is dropped. -/
def Reconcile.meetOpt (g : Reconcile V) : Option V → Option V → Option V
  | some u, some v => g.meet u v
  | _, _ => none

section Shrinking
variable [DecidableEq K] [DecidableEq V]

/-- Maps that keep only keys of both sides. -/
def shrinking (g : Reconcile V) : Discipline (FMap K V) where
  join a b := FMap.merge g.meetOpt rfl a b
  changed a b := decide (FMap.merge g.meetOpt rfl a b ≠ a)
  good _ := True

variable {g : Reconcile V}

theorem get_shrinking (a b : FMap K V) (k : K) :
    ((shrinking g).join a b).get k = g.meetOpt (a.get k) (b.get k) := rfl

/-- The rank of a shrinking map: an unbound key is as low as it gets. -/
theorem shrinking_ranked [Finite K] (h : g.Lawful) :
    ∃ rank : FMap K V → ℕ, ∀ a b, (shrinking g).join a b = b → a ≠ b → rank b < rank a := by
  classical
  have := Fintype.ofFinite K
  obtain ⟨rank, hlt⟩ := h.ranked
  let r : Option V → ℕ := fun o => o.elim 0 (fun v => rank v + 1)
  refine ⟨fun m => ∑ k, r (m.get k), fun a b hab hne => ?_⟩
  have hk : ∀ k, g.meetOpt (a.get k) (b.get k) = b.get k := fun k => by
    rw [← get_shrinking, hab]
  have hpoint : ∀ k, a.get k ≠ b.get k → r (b.get k) < r (a.get k) := by
    intro k hkne
    have := hk k
    cases ha : a.get k with
    | none =>
        rw [ha] at this hkne
        exact absurd this hkne
    | some u =>
        rw [ha] at this hkne
        cases hb : b.get k with
        | none => exact Nat.succ_pos _
        | some v =>
            rw [hb] at this hkne
            exact Nat.succ_lt_succ (hlt u v this (fun he => hkne (congrArg some he)))
  obtain ⟨k, hkne⟩ : ∃ k, a.get k ≠ b.get k := by
    by_contra hall
    push Not at hall
    exact hne (FMap.ext hall)
  refine Finset.sum_lt_sum (fun i _ => ?_) ⟨k, Finset.mem_univ k, hpoint k hkne⟩
  by_cases hi : a.get i = b.get i
  · rw [hi]
  · exact Nat.le_of_lt (hpoint i hi)

/-- The natural order of shrinking maps: bound keys were bound, to values further down. -/
theorem shrinking_below_iff {a b : FMap K V} : (shrinking g).join a b = b ↔
    ∀ k v, b.get k = some v → ∃ u, a.get k = some u ∧ g.meet u v = some v := by
  constructor
  · intro h k v hb
    have hk : g.meetOpt (a.get k) (b.get k) = b.get k := by rw [← get_shrinking, h]
    rw [hb] at hk
    cases ha : a.get k with
    | none => rw [ha] at hk; cases hk
    | some u => rw [ha] at hk; exact ⟨u, rfl, hk⟩
  · intro h
    ext1 k
    rw [get_shrinking]
    cases hb : b.get k with
    | none => cases a.get k <;> rfl
    | some v =>
        obtain ⟨u, ha, huv⟩ := h k v hb
        rw [ha]
        exact huv

theorem shrinking_comm (h : g.Lawful) (a b : FMap K V) :
    (shrinking g).join a b = (shrinking g).join b a := by
  ext1 k
  simp only [get_shrinking]
  cases a.get k <;> cases b.get k <;> simp [Reconcile.meetOpt, h.comm]

theorem shrinking_lawful [Finite K] (h : g.Lawful) : (shrinking (K := K) g).Lawful := by
  refine Lawful.ofSemilattice (fun a => ?_) (shrinking_comm h) (fun a b c => ?_)
    (fun a b => by simp [shrinking]) (shrinking_ranked h)
  · ext1 k
    rw [get_shrinking]
    cases a.get k with
    | none => rfl
    | some u => exact h.self u
  · ext1 k
    simp only [get_shrinking]
    cases ha : a.get k with
    | none => rfl
    | some u =>
        cases hb : b.get k with
        | none => rfl
        | some v =>
            cases hc : c.get k with
            | none => cases hm : g.meet u v <;> simp [Reconcile.meetOpt, hm]
            | some w =>
                have := h.assoc u v w
                show g.meetOpt (g.meet u v) (some w) = g.meetOpt (some u) (g.meet v w)
                cases hm : g.meet u v <;> cases hn : g.meet v w <;> rw [hm, hn] at this <;>
                  exact this

end Shrinking

/-- Keep a binding on which both sides agree. -/
def agreeing [DecidableEq V] : Reconcile V := ⟨fun u v => if u = v then some u else none⟩

theorem agreeing_lawful [DecidableEq V] : (agreeing (V := V)).Lawful where
  self u := if_pos rfl
  comm u v := by
    show (if u = v then some u else none) = if v = u then some v else none
    by_cases h : u = v
    · rw [h]
    · rw [if_neg h, if_neg (fun he => h he.symm)]
  assoc u v w := by
    show (if u = v then some u else none).bind (fun x => if x = w then some x else none) =
      (if v = w then some v else none).bind (fun x => if u = x then some u else none)
    by_cases h1 : u = v <;> by_cases h2 : v = w <;> simp_all
  ranked := ⟨fun _ => 0, fun u v h hne => by
    rw [show agreeing.meet u v = if u = v then some u else none from rfl, if_neg hne] at h
    cases h⟩

/-- A binding kept by agreement is bound on both sides. -/
theorem agreeing_source [DecidableEq K] [DecidableEq V] {a b : FMap K V} {k : K} {v : V}
    (h : ((shrinking agreeing).join a b).get k = some v) :
    a.get k = some v ∧ b.get k = some v := by
  rw [get_shrinking] at h
  cases ha : a.get k with
  | none => rw [ha] at h; cases h
  | some u =>
      cases hb : b.get k with
      | none => rw [ha, hb] at h; cases h
      | some w =>
          rw [ha, hb] at h
          have hmeet : (if u = w then some u else none) = some v := h
          split at hmeet
          · rename_i huw
            cases hmeet
            exact ⟨rfl, by rw [huw]⟩
          · cases hmeet

/-- Reconcile by a semilattice join, always keeping the key. -/
def weaken (j : V → V → V) : Reconcile V := ⟨fun u v => some (j u v)⟩

theorem weaken_lawful {j : V → V → V} (self : ∀ u, j u u = u) (comm : ∀ u v, j u v = j v u)
    (assoc : ∀ u v w, j (j u v) w = j u (j v w))
    (ranked : ∃ rank : V → ℕ, ∀ u v, j u v = v → u ≠ v → rank v < rank u) :
    (weaken j).Lawful where
  self u := congrArg some (self u)
  comm u v := congrArg some (comm u v)
  assoc u v w := congrArg some (assoc u v w)
  ranked := by
    obtain ⟨rank, h⟩ := ranked
    exact ⟨rank, fun u v huv => h u v (Option.some.inj huv)⟩

section Weaken
variable [DecidableEq K] [DecidableEq V] {j : V → V → V} {r : V → V → Prop}

/-- A weakened binding is bound on both sides. -/
theorem weaken_source {a b : FMap K V} {k : K} {v : V}
    (h : ((shrinking (weaken j)).join a b).get k = some v) :
    ∃ u w, a.get k = some u ∧ b.get k = some w ∧ j u w = v := by
  rw [get_shrinking] at h
  cases ha : a.get k with
  | none => rw [ha] at h; cases h
  | some u =>
      cases hb : b.get k with
      | none => rw [ha, hb] at h; cases h
      | some w => rw [ha, hb] at h; exact ⟨u, w, rfl, rfl, Option.some.inj h⟩

theorem within_weaken_left (hr : ∀ u w, r u (j u w)) (a b : FMap K V) :
    FMap.Within r ((shrinking (weaken j)).join a b) a := by
  intro k v hv
  obtain ⟨u, w, ha, _, rfl⟩ := weaken_source hv
  exact ⟨u, ha, hr u w⟩

theorem within_weaken_right (hr : ∀ u w, r w (j u w)) (a b : FMap K V) :
    FMap.Within r ((shrinking (weaken j)).join a b) b := by
  intro k v hv
  obtain ⟨u, w, _, hb, rfl⟩ := weaken_source hv
  exact ⟨w, hb, hr u w⟩

end Weaken

/-! ## Families -/

/-- One discipline for every member of a family listed by `all`. -/
def family (all : List κ) (d : Discipline σ) : Discipline (κ → σ) where
  join a b := fun k => d.join (a k) (b k)
  changed a b := all.any fun k => d.changed (a k) (b k)
  good b := ∀ k, d.good (b k)

theorem family_not_changed {all : List κ} (hall : ∀ k, k ∈ all) {d : Discipline σ}
    {a b : κ → σ} : (family all d).changed a b = false ↔ ∀ k, d.changed (a k) (b k) = false := by
  simp only [family, List.any_eq_false, Bool.not_eq_true]
  exact ⟨fun h k => h k (hall k), fun h k _ => h k⟩

theorem family_lawful [DecidableEq κ] {all : List κ} (hall : ∀ k, k ∈ all) {d : Discipline σ}
    (h : d.Lawful) : (family all d).Lawful where
  self a := funext fun k => h.self (a k)
  assoc a b c := funext fun k => h.assoc (a k) (b k) (c k)
  left a b := funext fun k => h.left (a k) (b k)
  ne_of_changed a b hc he := by
    obtain ⟨k, _, hk⟩ := List.any_eq_true.mp hc
    exact h.ne_of_changed _ _ hk (congrFun he k)
  eq_of_not_changed a b hgood hc :=
    funext fun k => h.eq_of_not_changed _ _ (hgood k) ((family_not_changed hall).mp hc k)
  mono a x y hc :=
    (family_not_changed hall).mpr fun k => h.mono _ _ _ ((family_not_changed hall).mp hc k)
  ranked := by
    obtain ⟨rank, hlt⟩ := h.ranked
    refine ⟨fun a => ∑ k ∈ all.toFinset, rank (a k), fun a b hab hne => ?_⟩
    obtain ⟨k, hk⟩ : ∃ k, a k ≠ b k := by
      by_contra hall'
      push Not at hall'
      exact hne (funext hall')
    refine Finset.sum_lt_sum (fun i _ => ?_)
      ⟨k, List.mem_toFinset.mpr (hall k), hlt _ _ (congrFun hab k) hk⟩
    by_cases hi : a i = b i
    · rw [hi]
    · exact Nat.le_of_lt (hlt _ _ (congrFun hab i) hi)

/-! ## Products and records -/

def prod (d : Discipline σ) (e : Discipline τ) : Discipline (σ × τ) where
  join a b := (d.join a.1 b.1, e.join a.2 b.2)
  changed a b := d.changed a.1 b.1 || e.changed a.2 b.2
  good b := d.good b.1 ∧ e.good b.2

theorem Lawful.prod {d : Discipline σ} {e : Discipline τ} (hd : d.Lawful) (he : e.Lawful) :
    (d.prod e).Lawful where
  self a := Prod.ext (hd.self a.1) (he.self a.2)
  assoc a b c := Prod.ext (hd.assoc a.1 b.1 c.1) (he.assoc a.2 b.2 c.2)
  left a b := Prod.ext (hd.left a.1 b.1) (he.left a.2 b.2)
  ne_of_changed a b hc heq := by
    rcases Bool.or_eq_true_iff.mp hc with h | h
    · exact hd.ne_of_changed _ _ h (congrArg Prod.fst heq)
    · exact he.ne_of_changed _ _ h (congrArg Prod.snd heq)
  eq_of_not_changed a b hgood hc := by
    obtain ⟨h1, h2⟩ := Bool.or_eq_false_iff.mp hc
    exact Prod.ext (hd.eq_of_not_changed _ _ hgood.1 h1) (he.eq_of_not_changed _ _ hgood.2 h2)
  mono a x y hc := by
    obtain ⟨h1, h2⟩ := Bool.or_eq_false_iff.mp hc
    exact Bool.or_eq_false_iff.mpr ⟨hd.mono _ _ _ h1, he.mono _ _ _ h2⟩
  ranked := by
    obtain ⟨rd, hrd⟩ := hd.ranked
    obtain ⟨re, hre⟩ := he.ranked
    refine ⟨fun a => rd a.1 + re a.2, fun a b hab hne => ?_⟩
    have h1 : a.1 ≠ b.1 → rd b.1 < rd a.1 := hrd _ _ (congrArg Prod.fst hab)
    have h2 : a.2 ≠ b.2 → re b.2 < re a.2 := hre _ _ (congrArg Prod.snd hab)
    show rd b.1 + re b.2 < rd a.1 + re a.2
    by_cases hfst : a.1 = b.1
    · have := h2 fun hsnd => hne (Prod.ext hfst hsnd)
      rw [hfst]
      omega
    · have := h1 hfst
      by_cases hsnd : a.2 = b.2
      · rw [hsnd]
        omega
      · have := h2 hsnd
        omega

/-- A record merged component by component inherits the laws of its components. -/
theorem Lawful.pullback {e : Discipline τ} (he : e.Lawful) {d : Discipline σ} (f : σ → τ)
    (inj : ∀ {a b}, f a = f b → a = b) (hjoin : ∀ a b, f (d.join a b) = e.join (f a) (f b))
    (hchanged : ∀ a b, d.changed a b = e.changed (f a) (f b))
    (hgood : ∀ b, d.good b → e.good (f b)) : d.Lawful where
  self a := inj (by rw [hjoin, he.self])
  assoc a b c := inj (by simp only [hjoin, he.assoc])
  left a b := inj (by simp only [hjoin, he.left])
  ne_of_changed a b hc heq := by
    refine he.ne_of_changed (f a) (f b) (by rw [← hchanged, hc]) ?_
    rw [← hjoin, heq]
  eq_of_not_changed a b hg hc := by
    refine inj ?_
    rw [hjoin]
    exact he.eq_of_not_changed _ _ (hgood b hg) (by rw [← hchanged, hc])
  mono a x y hc := by
    rw [hchanged, hjoin]
    exact he.mono _ _ _ (by rw [← hchanged, hc])
  ranked := by
    obtain ⟨rank, hrank⟩ := he.ranked
    exact ⟨fun a => rank (f a), fun a b hab hne =>
      hrank _ _ (by rw [← hjoin, hab]) fun h => hne (inj h)⟩

end Discipline
