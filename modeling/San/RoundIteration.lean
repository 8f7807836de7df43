import San.FiniteMap

/-! # Recomputing a table in rounds

A table maps keys to entries, and the entry of a key is computed from the entries of
the keys it uses.  A round recomputes the entry of every listed key against a
snapshot of the table; the loop makes at most a fixed number of rounds and stops
early when a round changes nothing.

If no chain of uses between listed keys is longer than the number of rounds, the
loop ends in the only table that recomputing leaves alone (`fixed_rounds`,
`eq_rounds_of_fixed`), and the order of the keys does not matter
(`rounds_congr`).  Entries may come and go on the way: nothing is assumed to be
monotone.
-/

/-- How entries are computed and which keys the entry of a key depends on. -/
structure RoundProblem (K V : Type) where
  entry : K → FMap K V → Option V
  Uses : K → K → Prop
  entry_congr : ∀ {k : K} {m n : FMap K V}, (∀ j, Uses k j → m.get j = n.get j) →
    entry k m = entry k n

namespace RoundProblem
variable {K V : Type} (R : RoundProblem K V)

/-- Every chain of uses between keys of `ks` that starts at `k` has at most `n` keys. -/
def DepthAtMost (ks : List K) (n : ℕ) (k : K) : Prop :=
  ∀ c : List K, (k :: c).IsChain R.Uses → (∀ j ∈ k :: c, j ∈ ks) → (k :: c).length ≤ n

/-- If every use between the keys of a chain lowers a rank, the rank of its first key
bounds its length. -/
theorem length_le_of_rank {r : K → K → Prop} {rank : K → ℕ} {k : K} {c : List K}
    (hc : (k :: c).IsChain r) (hrank : ∀ i ∈ k :: c, ∀ j ∈ k :: c, r i j → rank j < rank i) :
    (k :: c).length ≤ rank k + 1 := by
  induction c generalizing k with
  | nil => simp
  | cons j c ih =>
      obtain ⟨hkj, htail⟩ := List.isChain_cons_cons.mp hc
      have hlen := ih htail fun i hi i' hi' =>
        hrank i (List.mem_cons_of_mem k hi) i' (List.mem_cons_of_mem k hi')
      have hlt : rank j < rank k := hrank k (by simp) j (by simp) hkj
      rw [List.length_cons]
      omega

/-- What a key uses has chains that are shorter by one. -/
theorem DepthAtMost.uses {R : RoundProblem K V} {ks : List K} {n : ℕ} {k j : K}
    (h : R.DepthAtMost ks (n + 1) k) (hk : k ∈ ks) (hj : R.Uses k j) :
    R.DepthAtMost ks n j := by
  intro c hc hmem
  have hchain : (k :: j :: c).IsChain R.Uses := List.isChain_cons_cons.mpr ⟨hj, hc⟩
  have hlen := h (j :: c) hchain (by
    intro i hi
    rcases List.mem_cons.mp hi with rfl | hi
    · exact hk
    · exact hmem i hi)
  simpa using hlen

variable [DecidableEq K]

theorem get_foldl_put (ks : List K) (f : K → Option V) (m : FMap K V) (k : K) :
    (ks.foldl (fun m k => m.put k (f k)) m).get k = if k ∈ ks then f k else m.get k := by
  induction ks generalizing m with
  | nil => simp
  | cons j ks ih =>
      rw [List.foldl_cons, ih, FMap.get_put]
      by_cases hj : k = j
      · subst hj
        simp
      · simp [hj]


/-- Recompute the entries of `ks` against the snapshot `snap`. -/
def round (ks : List K) (snap : FMap K V) : FMap K V :=
  ks.foldl (fun m k => m.put k (R.entry k snap)) snap

/-- At most `n` rounds; a round that changes nothing is the last. -/
def rounds [DecidableEq V] (ks : List K) : ℕ → FMap K V → FMap K V
  | 0, m => m
  | n + 1, m => if R.round ks m = m then R.round ks m else rounds ks n (R.round ks m)

/-- Recomputing any entry of the table gives the entry, and only keys of `ks` have one. -/
def Fixed (ks : List K) (m : FMap K V) : Prop :=
  ∀ k, m.get k = if k ∈ ks then R.entry k m else none

/-- The table has entries for keys of `ks` only. -/
def Supported (ks : List K) (m : FMap K V) : Prop := ∀ k, k ∉ ks → m.get k = none

variable {R} {ks : List K}

/-! ## One round -/

theorem get_round (m : FMap K V) (k : K) :
    (R.round ks m).get k = if k ∈ ks then R.entry k m else m.get k :=
  get_foldl_put ks (fun k => R.entry k m) m k

/-- A round asks only which keys are listed, not in which order. -/
theorem round_congr {ks ks' : List K} (h : ∀ k, k ∈ ks ↔ k ∈ ks') (m : FMap K V) :
    R.round ks m = R.round ks' m := by
  apply FMap.ext
  intro k
  rw [get_round, get_round, if_congr (h k) rfl rfl]

theorem Supported.round {m : FMap K V} (h : Supported ks m) : Supported ks (R.round ks m) := by
  intro k hk
  rw [get_round, if_neg hk, h k hk]

theorem Supported.iterate {m : FMap K V} (h : Supported ks m) (n : ℕ) :
    Supported ks ((R.round ks)^[n] m) := by
  induction n with
  | zero => exact h
  | succ n ih =>
      rw [Function.iterate_succ_apply']
      exact ih.round

theorem fixed_iff {m : FMap K V} : R.Fixed ks m ↔ Supported ks m ∧ R.round ks m = m := by
  constructor
  · intro h
    have hsupp : Supported ks m := fun k hk => (h k).trans (if_neg hk)
    refine ⟨hsupp, FMap.ext fun k => ?_⟩
    rw [get_round, h k]
    by_cases hk : k ∈ ks
    · simp only [if_pos hk]
    · simp only [if_neg hk]
  · rintro ⟨hsupp, hround⟩ k
    by_cases hk : k ∈ ks
    · rw [if_pos hk]
      conv_lhs => rw [← hround, get_round, if_pos hk]
    · rw [if_neg hk, hsupp k hk]

/-! ## The loop -/

/-- Stopping early makes no difference. -/
theorem rounds_eq_iterate [DecidableEq V] (n : ℕ) (m : FMap K V) :
    R.rounds ks n m = (R.round ks)^[n] m := by
  induction n generalizing m with
  | zero => rfl
  | succ n ih =>
      rw [rounds, Function.iterate_succ_apply]
      split
      · next h => rw [h, Function.iterate_fixed h]
      · exact ih _

/-- The loop visits the keys in an order of its own, to no effect. -/
theorem rounds_congr [DecidableEq V] {ks ks' : List K} (h : ∀ k, k ∈ ks ↔ k ∈ ks') (n : ℕ)
    (m : FMap K V) :
    R.rounds ks n m = R.rounds ks' n m := by
  rw [rounds_eq_iterate, rounds_eq_iterate, funext (round_congr h)]

/-- **Invariants of a table.**  What a recomputed entry has whenever all entries of the snapshot
have it, all entries of the table have. -/
theorem rounds_all [DecidableEq V] {P : K → V → Prop}
    (h : ∀ k ∈ ks, ∀ m, (∀ j w, m.get j = some w → P j w) → ∀ v, R.entry k m = some v → P k v)
    (n : ℕ) {k : K} {v : V} (hv : (R.rounds ks n ∅).get k = some v) : P k v := by
  rw [rounds_eq_iterate] at hv
  induction n generalizing k v with
  | zero => cases hv
  | succ n ih =>
      rw [Function.iterate_succ_apply', get_round] at hv
      split at hv
      · next hk => exact h k hk _ (fun _ _ => ih) v hv
      · exact ih hv

/-- **After `n` rounds the entries of keys of depth `n` are settled**, whatever the
table was at first. -/
theorem iterate_get_eq {m m' : FMap K V} (hm : Supported ks m) (hm' : Supported ks m') (n : ℕ)
    {k : K} (hk : k ∈ ks) (hdepth : R.DepthAtMost ks n k) :
    ((R.round ks)^[n] m).get k = ((R.round ks)^[n] m').get k := by
  induction n generalizing k with
  | zero =>
      have hlen := hdepth [] (List.isChain_singleton k) (by simpa using hk)
      simp at hlen
  | succ n ih =>
      rw [Function.iterate_succ_apply', Function.iterate_succ_apply', get_round, get_round,
        if_pos hk, if_pos hk]
      apply R.entry_congr
      intro j hj
      by_cases hjs : j ∈ ks
      · exact ih hjs (hdepth.uses hk hj)
      · rw [hm.iterate n j hjs, hm'.iterate n j hjs]

section Shallow
variable {n : ℕ} (hdepth : ∀ k ∈ ks, R.DepthAtMost ks n k)
include hdepth

theorem iterate_eq {m m' : FMap K V} (hm : Supported ks m) (hm' : Supported ks m') :
    (R.round ks)^[n] m = (R.round ks)^[n] m' := by
  apply FMap.ext
  intro k
  by_cases hk : k ∈ ks
  · exact iterate_get_eq hm hm' n hk (hdepth k hk)
  · rw [hm.iterate n k hk, hm'.iterate n k hk]

/-- **The loop ends in a fixed table.** -/
theorem fixed_rounds [DecidableEq V] : R.Fixed ks (R.rounds ks n ∅) := by
  have hempty : Supported ks (∅ : FMap K V) := fun _ _ => rfl
  rw [rounds_eq_iterate]
  refine fixed_iff.mpr ⟨hempty.iterate n, ?_⟩
  have hstep := Function.iterate_succ_apply' (R.round ks) n ∅
  rw [← hstep, Function.iterate_succ_apply]
  exact iterate_eq hdepth hempty.round hempty

/-- **There is no other fixed table.** -/
theorem eq_rounds_of_fixed [DecidableEq V] {m : FMap K V} (h : R.Fixed ks m) : m = R.rounds ks n ∅ := by
  have hempty : Supported ks (∅ : FMap K V) := fun _ _ => rfl
  obtain ⟨hsupp, hround⟩ := fixed_iff.mp h
  rw [rounds_eq_iterate, ← iterate_eq hdepth hsupp hempty, Function.iterate_fixed hround]

end Shallow

end RoundProblem
