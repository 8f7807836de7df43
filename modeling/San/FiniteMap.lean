import Mathlib

/-! # Finite maps with extensional equality

A `FMap K V` is a lookup function together with the finite set of keys on which
it is defined.  The key set is determined by the lookup, so two maps are equal
iff they look up alike (`FMap.ext`), and equality is decided on the keys.

Every operation is described by its lookup, and each `get_…` lemma holds by
`rfl`: a proof about a chain of updates never needs to know how keys are stored.
-/

/-- A finite partial map: `keys` is exactly where `get` is defined. -/
structure FMap (K V : Type) where
  get : K → Option V
  keys : Finset K
  mem_keys : ∀ k, k ∈ keys ↔ get k ≠ none

namespace FMap
variable {K V W : Type}

@[ext] theorem ext {a b : FMap K V} (h : ∀ k, a.get k = b.get k) : a = b := by
  have hget : a.get = b.get := funext h
  have hkeys : a.keys = b.keys := by
    ext k
    rw [a.mem_keys, b.mem_keys, hget]
  cases a; cases b
  cases hget; cases hkeys
  rfl

theorem get_eq_none_iff {m : FMap K V} {k : K} : m.get k = none ↔ k ∉ m.keys := by
  rw [m.mem_keys, not_not]

theorem mem_keys_of_get {m : FMap K V} {k : K} {v : V} (h : m.get k = some v) : k ∈ m.keys :=
  (m.mem_keys k).mpr (by rw [h]; exact Option.some_ne_none v)

instance [DecidableEq K] [DecidableEq V] : DecidableEq (FMap K V) := fun a b =>
  decidable_of_iff (a.keys = b.keys ∧ ∀ k ∈ a.keys, a.get k = b.get k) (by
    constructor
    · rintro ⟨hk, hg⟩
      ext1 k
      by_cases h : k ∈ a.keys
      · exact hg k h
      · rw [get_eq_none_iff.mpr h, get_eq_none_iff.mpr (hk ▸ h)]
    · rintro rfl
      exact ⟨rfl, fun _ _ => rfl⟩)

instance : EmptyCollection (FMap K V) :=
  ⟨{ get := fun _ => none, keys := ∅, mem_keys := by simp }⟩

@[simp] theorem get_empty (k : K) : (∅ : FMap K V).get k = none := rfl

/-- The map that looks up like `f`, whose values all sit at keys of `s`. -/
def ofFun (s : Finset K) (f : K → Option V) (h : ∀ k, f k ≠ none → k ∈ s) : FMap K V where
  get := f
  keys := s.filter (fun k => (f k).isSome)
  mem_keys k := by
    rw [Finset.mem_filter, Option.isSome_iff_ne_none]
    exact ⟨fun hk => hk.2, fun hk => ⟨h k hk, hk⟩⟩

section Update
variable [DecidableEq K]

/-- Bind `k` to `v`, replacing any earlier binding. -/
def insert (m : FMap K V) (k : K) (v : V) : FMap K V where
  get x := if x = k then some v else m.get x
  keys := Insert.insert k m.keys
  mem_keys x := by
    by_cases hx : x = k <;> simp [hx, m.mem_keys]

/-- Drop the binding of `k`. -/
def erase (m : FMap K V) (k : K) : FMap K V where
  get x := if x = k then none else m.get x
  keys := m.keys.erase k
  mem_keys x := by
    by_cases hx : x = k <;> simp [hx, m.mem_keys]

theorem get_insert (m : FMap K V) (k x : K) (v : V) :
    (m.insert k v).get x = if x = k then some v else m.get x := rfl

@[simp] theorem get_insert_self (m : FMap K V) (k : K) (v : V) : (m.insert k v).get k = some v :=
  if_pos rfl

theorem get_insert_of_ne (m : FMap K V) {k x : K} (v : V) (h : x ≠ k) :
    (m.insert k v).get x = m.get x := if_neg h

theorem get_insert_ne_none {m : FMap K V} {k x : K} {v : V} (h : x = k ∨ m.get x ≠ none) :
    (m.insert k v).get x ≠ none := by
  rw [get_insert]
  split
  · exact Option.some_ne_none v
  · rename_i hne
    exact h.resolve_left hne

theorem get_erase (m : FMap K V) (k x : K) :
    (m.erase k).get x = if x = k then none else m.get x := rfl

@[simp] theorem get_erase_self (m : FMap K V) (k : K) : (m.erase k).get k = none := if_pos rfl

theorem get_erase_of_ne (m : FMap K V) {k x : K} (h : x ≠ k) :
    (m.erase k).get x = m.get x := if_neg h

theorem get_erase_eq_some_iff {m : FMap K V} {k x : K} {v : V} :
    (m.erase k).get x = some v ↔ x ≠ k ∧ m.get x = some v := by
  rw [get_erase]
  split
  · simp [*]
  · simp [*]

/-- Bind `k` to `v` when there is a `v`, and unbind it otherwise. -/
def put (m : FMap K V) (k : K) : Option V → FMap K V
  | some v => m.insert k v
  | none => m.erase k

theorem get_put (m : FMap K V) (k x : K) (o : Option V) :
    (m.put k o).get x = if x = k then o else m.get x := by
  cases o <;> rfl

theorem get_put_of_ne {m : FMap K V} {k x : K} (h : x ≠ k) (o : Option V) :
    (m.put k o).get x = m.get x := by
  rw [get_put, if_neg h]

/-- Move the binding of `src` to `dst`; `dst` is unbound when `src` was. -/
def moveKey (m : FMap K V) (src dst : K) : FMap K V := (m.erase src).put dst (m.get src)

/-- Copy the binding of `src` to `dst`; `dst` is unbound when `src` is. -/
def copyKey (m : FMap K V) (src dst : K) : FMap K V := m.put dst (m.get src)

theorem get_moveKey (m : FMap K V) (src dst x : K) :
    (m.moveKey src dst).get x =
      if x = dst then m.get src else if x = src then none else m.get x := by
  rw [moveKey, get_put, get_erase]

theorem get_copyKey (m : FMap K V) (src dst x : K) :
    (m.copyKey src dst).get x = if x = dst then m.get src else m.get x := by
  rw [copyKey, get_put]

/-! Maps that agree away from one key. -/

theorem get_eq_of_erase_eq {m n : FMap K V} {k x : K} (h : m.erase k = n.erase k) (hx : x ≠ k) :
    m.get x = n.get x := by
  rw [← get_erase_of_ne m hx, h, get_erase_of_ne n hx]

theorem erase_eq_of_get_eq {m n : FMap K V} {k : K} (h : ∀ x, x ≠ k → m.get x = n.get x) :
    m.erase k = n.erase k := by
  ext1 x
  rw [get_erase, get_erase]
  split
  · rfl
  · next hx => exact h x hx

theorem put_eq_of_erase_eq {m n : FMap K V} {k : K} (h : m.erase k = n.erase k) (o : Option V) :
    m.put k o = n.put k o := by
  ext1 x
  rw [get_put, get_put]
  split
  · rfl
  · next hx => exact get_eq_of_erase_eq h hx

theorem erase_comm_of_erase_eq {m n : FMap K V} {k : K} (h : m.erase k = n.erase k) (k' : K) :
    (m.erase k').erase k = (n.erase k').erase k := by
  refine erase_eq_of_get_eq fun x hx => ?_
  rw [get_erase, get_erase, get_eq_of_erase_eq h hx]

theorem copyKey_eq_of_erase_eq {m n : FMap K V} {src dst : K} (h : m.erase dst = n.erase dst)
    (hsrc : src ≠ dst) : m.copyKey src dst = n.copyKey src dst := by
  rw [copyKey, copyKey, get_eq_of_erase_eq h hsrc]
  exact put_eq_of_erase_eq h _

theorem moveKey_eq_of_erase_eq {m n : FMap K V} {src dst : K} (h : m.erase dst = n.erase dst)
    (hsrc : src ≠ dst) : m.moveKey src dst = n.moveKey src dst := by
  ext1 x
  rw [get_moveKey, get_moveKey, get_eq_of_erase_eq h hsrc]
  split
  · rfl
  · next hx => rw [get_eq_of_erase_eq h hx]

/-- Rewrite the lookup at every key of `ks`, bound or not. -/
def alter (m : FMap K V) (ks : Finset K) (f : Option V → Option V) : FMap K V :=
  ofFun (m.keys ∪ ks) (fun k => if k ∈ ks then f (m.get k) else m.get k) (by
    intro k hk
    by_cases h : k ∈ ks
    · exact Finset.mem_union_right _ h
    · rw [if_neg h] at hk
      exact Finset.mem_union_left _ ((m.mem_keys k).mpr hk))

theorem get_alter (m : FMap K V) (ks : Finset K) (f : Option V → Option V) (k : K) :
    (m.alter ks f).get k = if k ∈ ks then f (m.get k) else m.get k := rfl

/-- Bind every key of `ks`, replacing earlier bindings. -/
def assign (m : FMap K V) (ks : Finset K) (f : K → V) : FMap K V :=
  ofFun (m.keys ∪ ks) (fun k => if k ∈ ks then some (f k) else m.get k) (by
    intro k hk
    by_cases h : k ∈ ks
    · exact Finset.mem_union_right _ h
    · rw [if_neg h] at hk
      exact Finset.mem_union_left _ ((m.mem_keys k).mpr hk))

theorem get_assign (m : FMap K V) (ks : Finset K) (f : K → V) (k : K) :
    (m.assign ks f).get k = if k ∈ ks then some (f k) else m.get k := rfl

/-- Combine two maps key by key. -/
def merge (f : Option V → Option V → Option V) (hf : f none none = none) (a b : FMap K V) :
    FMap K V :=
  ofFun (a.keys ∪ b.keys) (fun k => f (a.get k) (b.get k)) (by
    intro k hk
    by_contra h
    rw [Finset.mem_union, not_or] at h
    rw [get_eq_none_iff.mpr h.1, get_eq_none_iff.mpr h.2] at hk
    exact hk hf)

end Update

/-- Rewrite every binding, dropping those mapped to `none`. -/
def filterMap (m : FMap K V) (f : K → V → Option W) : FMap K W :=
  ofFun m.keys (fun k => (m.get k).bind (f k)) (by
    intro k hk
    rw [m.mem_keys]
    intro hn
    exact hk (by rw [hn]; rfl))

theorem get_filterMap (m : FMap K V) (f : K → V → Option W) (k : K) :
    (m.filterMap f).get k = (m.get k).bind (f k) := rfl

/-- Keep the bindings that satisfy `p`. -/
def retain (m : FMap K V) (p : K → V → Bool) : FMap K V :=
  m.filterMap (fun k v => if p k v then some v else none)

theorem get_retain (m : FMap K V) (p : K → V → Bool) (k : K) :
    (m.retain p).get k = (m.get k).bind (fun v => if p k v then some v else none) := rfl

theorem get_retain_eq_some {m : FMap K V} {p : K → V → Bool} {k : K} {v : V} :
    (m.retain p).get k = some v ↔ m.get k = some v ∧ p k v = true := by
  rw [get_retain, Option.bind_eq_some_iff]
  constructor
  · rintro ⟨w, hw, he⟩
    split at he
    · rename_i hp
      cases he
      exact ⟨hw, hp⟩
    · cases he
  · rintro ⟨hw, hp⟩
    exact ⟨v, hw, if_pos hp⟩

/-! ## Predicates on all bindings -/

/-- Every binding satisfies `p`. -/
def All (p : K → V → Prop) (m : FMap K V) : Prop := ∀ k v, m.get k = some v → p k v

namespace All
variable {p q : K → V → Prop} {m : FMap K V}

theorem empty : (∅ : FMap K V).All p := nofun

theorem mono (h : m.All p) (hpq : ∀ k v, p k v → q k v) : m.All q :=
  fun k v hk => hpq k v (h k v hk)

theorem retain (h : m.All p) (f : K → V → Bool) : (m.retain f).All p :=
  fun k v hk => h k v (get_retain_eq_some.mp hk).1

theorem filterMap {f : K → V → Option V} (h : m.All p)
    (hf : ∀ k v w, p k v → f k v = some w → p k w) : (m.filterMap f).All p := by
  intro k w hk
  obtain ⟨v, hv, hw⟩ := Option.bind_eq_some_iff.mp hk
  exact hf k v w (h k v hv) hw

variable [DecidableEq K]

theorem insert (h : m.All p) {k : K} {v : V} (hv : p k v) : (m.insert k v).All p := by
  intro x w hx
  rw [get_insert] at hx
  split at hx
  · rename_i he
    cases hx
    rwa [he]
  · exact h x w hx

theorem erase (h : m.All p) (k : K) : (m.erase k).All p := by
  intro x w hx
  rw [get_erase] at hx
  split at hx
  · cases hx
  · exact h x w hx

theorem put (h : m.All p) {k : K} {o : Option V} (ho : ∀ v, o = some v → p k v) :
    (m.put k o).All p := by
  cases o with
  | none => exact h.erase k
  | some v => exact h.insert (ho v rfl)

theorem assign (h : m.All p) {ks : Finset K} {f : K → V} (hf : ∀ k ∈ ks, p k (f k)) :
    (m.assign ks f).All p := by
  intro x w hx
  rw [get_assign] at hx
  split at hx
  · rename_i hmem
    cases hx
    exact hf x hmem
  · exact h x w hx

end All

/-! ## Relations between two maps -/

/-- At the keys `L`, what the maps bind is related by `ρ`. -/
def RelOn (ρ : Option V → Option V → Prop) (L : Finset K) (m n : FMap K V) : Prop :=
  ∀ k ∈ L, ρ (m.get k) (n.get k)

namespace RelOn
variable {ρ : Option V → Option V → Prop} {L L' : Finset K} {m n : FMap K V}

theorem mono (h : RelOn ρ L m n) (hL : L' ⊆ L) : RelOn ρ L' m n := fun k hk => h k (hL hk)

variable [DecidableEq K]

theorem put (h : RelOn ρ L m n) (k : K) {o o' : Option V} (ho : ρ o o') :
    RelOn ρ (Insert.insert k L) (m.put k o) (n.put k o') := by
  intro x hx
  rw [get_put, get_put]
  split
  · exact ho
  · rename_i hne
    exact h x ((Finset.mem_insert.mp hx).resolve_left hne)

theorem copyKey (h : RelOn ρ L m n) {src : K} (hsrc : src ∈ L) (dst : K) :
    RelOn ρ (Insert.insert dst L) (m.copyKey src dst) (n.copyKey src dst) := h.put dst (h src hsrc)

theorem moveKey (h : RelOn ρ L m n) (hnone : ρ none none) {src : K} (hsrc : src ∈ L) (dst : K) :
    RelOn ρ (Insert.insert dst L) (m.moveKey src dst) (n.moveKey src dst) :=
  ((h.put src hnone).mono (Finset.subset_insert src L)).put dst (h src hsrc)

end RelOn

/-- The maps agree at the keys `L`. -/
def AgreeOn (L : Finset K) (m n : FMap K V) : Prop := RelOn (· = ·) L m n

instance [DecidableEq V] (L : Finset K) (m n : FMap K V) : Decidable (AgreeOn L m n) :=
  inferInstanceAs (Decidable (∀ k ∈ L, m.get k = n.get k))

namespace AgreeOn
variable {L L' : Finset K} {m n : FMap K V}

theorem refl (L : Finset K) (m : FMap K V) : AgreeOn L m m := fun _ _ => rfl

theorem mono (h : AgreeOn L m n) (hL : L' ⊆ L) : AgreeOn L' m n := RelOn.mono h hL

theorem trans {o : FMap K V} (h : AgreeOn L m n) (h' : AgreeOn L n o) : AgreeOn L m o :=
  fun k hk => (h k hk).trans (h' k hk)

variable [DecidableEq K]

theorem put (h : AgreeOn L m n) (k : K) (o : Option V) :
    AgreeOn (Insert.insert k L) (m.put k o) (n.put k o) := RelOn.put h k rfl

theorem insert (h : AgreeOn L m n) (k : K) (v : V) :
    AgreeOn (Insert.insert k L) (m.insert k v) (n.insert k v) := h.put k (some v)

theorem erase (h : AgreeOn L m n) (k : K) :
    AgreeOn (Insert.insert k L) (m.erase k) (n.erase k) := h.put k none

theorem copyKey (h : AgreeOn L m n) {src : K} (hsrc : src ∈ L) (dst : K) :
    AgreeOn (Insert.insert dst L) (m.copyKey src dst) (n.copyKey src dst) :=
  RelOn.copyKey h hsrc dst

theorem moveKey (h : AgreeOn L m n) {src : K} (hsrc : src ∈ L) (dst : K) :
    AgreeOn (Insert.insert dst L) (m.moveKey src dst) (n.moveKey src dst) :=
  RelOn.moveKey h rfl hsrc dst

theorem assign (h : AgreeOn L m n) (ks : Finset K) (f : K → V) :
    AgreeOn L (m.assign ks f) (n.assign ks f) := by
  intro k hk
  rw [get_assign, get_assign, h k hk]

end AgreeOn

/-- Whatever `m` binds is bound by `n` too, to a value related by `r`. -/
def Within (r : V → V → Prop) (m n : FMap K V) : Prop :=
  ∀ k v, m.get k = some v → ∃ w, n.get k = some w ∧ r w v

namespace Within
variable {r : V → V → Prop} {m n : FMap K V}

theorem refl (hr : ∀ v, r v v) (m : FMap K V) : Within r m m := fun _ v hv => ⟨v, hv, hr v⟩

theorem trans {o : FMap K V} (hr : ∀ u v w, r u v → r v w → r u w) (h : Within r m n)
    (h' : Within r n o) : Within r m o := by
  intro k v hv
  obtain ⟨w, hw, hwv⟩ := h k v hv
  obtain ⟨u, hu, huw⟩ := h' k w hw
  exact ⟨u, hu, hr u w v huw hwv⟩

variable [DecidableEq K]

theorem put (h : Within r m n) (k : K) {o o' : Option V}
    (ho : ∀ v, o = some v → ∃ w, o' = some w ∧ r w v) : Within r (m.put k o) (n.put k o') := by
  intro x v hv
  rw [get_put] at hv
  rw [get_put]
  split at hv
  · rename_i hx
    rw [if_pos hx]
    exact ho v hv
  · rename_i hx
    rw [if_neg hx]
    exact h x v hv

theorem insert (h : Within r m n) (k : K) {v w : V} (hr : r w v) :
    Within r (m.insert k v) (n.insert k w) := by
  have hput : ∀ u, some v = some u → ∃ x, some w = some x ∧ r x u := by
    rintro _ ⟨⟩
    exact ⟨w, rfl, hr⟩
  exact h.put k hput

theorem erase (h : Within r m n) (k : K) : Within r (m.erase k) (n.erase k) := by
  have hput : ∀ v, none = some v → ∃ w, none = some w ∧ r w v := nofun
  exact h.put k hput

/-- Binding a key of `n` to something better. -/
theorem insert_right (h : Within r m n) (k : K) {w : V} (hr : ∀ v, m.get k = some v → r w v) :
    Within r m (n.insert k w) := by
  intro x v hv
  rw [get_insert]
  split
  · rename_i hx
    subst hx
    exact ⟨w, rfl, hr v hv⟩
  · exact h x v hv

end Within

end FMap

/-! ## Searching a finite set in order -/

/-- **The first find.**  What a search through a finite set in order finds is found at its least
member with a result. -/
theorem findSome?_sort_eq_some_iff {α β : Type} [LinearOrder α] {A : Finset α} {f : α → Option β}
    {b : β} : (A.sort (· ≤ ·)).findSome? f = some b ↔
      ∃ a ∈ A, f a = some b ∧ ∀ a' ∈ A, a' < a → f a' = none := by
  have hsorted := (A.sortedLT_sort).pairwise
  rw [List.findSome?_eq_some_iff]
  constructor
  · rintro ⟨before, a, after, hsplit, hfound, hbefore⟩
    have hmem : ∀ x, x ∈ before ∨ x = a ∨ x ∈ after ↔ x ∈ A := by
      intro x
      rw [← Finset.mem_sort (· ≤ ·), hsplit, List.mem_append, List.mem_cons]
    rw [hsplit] at hsorted
    refine ⟨a, (hmem a).mp (Or.inr (Or.inl rfl)), hfound, fun a' ha' hlt => ?_⟩
    rcases (hmem a').mpr ha' with hin | rfl | hin
    · exact hbefore a' hin
    · exact absurd hlt (lt_irrefl _)
    · have hafter := (List.pairwise_cons.mp (List.pairwise_append.mp hsorted).2.1).1 a' hin
      exact absurd hlt (lt_asymm hafter)
  · rintro ⟨a, ha, hfound, hleast⟩
    obtain ⟨before, after, hsplit⟩ := List.append_of_mem ((Finset.mem_sort (· ≤ ·)).mpr ha)
    refine ⟨before, a, after, hsplit, hfound, fun x hx => ?_⟩
    have hx' : x ∈ A := by
      rw [← Finset.mem_sort (· ≤ ·), hsplit]
      exact List.mem_append_left _ hx
    rw [hsplit] at hsorted
    exact hleast x hx' ((List.pairwise_append.mp hsorted).2.2 x hx a List.mem_cons_self)
