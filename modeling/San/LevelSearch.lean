import San.FiniteMap

/-! # Searching a graph in levels

The nodes that can be reached from a list of starting points are collected level by level.  A new
node must be admitted, no more than a fixed number of levels is searched, and no more than a
fixed number of nodes is added.

The search finds only what is within reach, and all of it unless it has run into the second limit
(`Invariant.search`).  So short of that limit the order of the starting points makes no difference
(`mem_found_congr`).
-/

/-- A graph, which of its nodes are admitted, and how many of them may be added. -/
structure LevelSearch (α : Type) where
  next : α → List α
  admits : α → Bool
  cap : ℕ

namespace LevelSearch
variable {α : Type} (G : LevelSearch α)

/-! ## Reach -/

/-- `a` is a root, or comes after at most `n` steps to admitted nodes from one. -/
def Reached (roots : List α) : ℕ → α → Prop
  | 0, a => a ∈ roots
  | n + 1, a => Reached roots n a ∨ ∃ f, Reached roots n f ∧ a ∈ G.next f ∧ G.admits a = true

variable {G}

theorem Reached.mono {roots : List α} {a : α} {m n : ℕ} (h : G.Reached roots m a) (hmn : m ≤ n) :
    G.Reached roots n a := by
  induction hmn with
  | refl => exact h
  | step _ ih => exact .inl ih

theorem reached_congr {roots roots' : List α} (h : ∀ a, a ∈ roots ↔ a ∈ roots') (n : ℕ) (a : α) :
    G.Reached roots n a ↔ G.Reached roots' n a := by
  induction n generalizing a with
  | zero => exact h a
  | succ n ih => simp only [Reached, ih]

/-- What is reached is a root or admitted. -/
theorem Reached.admits {roots : List α} {a : α} {n : ℕ} (h : G.Reached roots n a)
    (hroot : a ∉ roots) : G.admits a = true := by
  induction n with
  | zero => exact absurd h hroot
  | succ n ih =>
      rcases h with h | ⟨f, -, -, hadmitted⟩
      · exact ih h
      · exact hadmitted

/-! ## The loop -/

variable [DecidableEq α]

/-- What a search keeps: the nodes found, as a set and in order, those found on the present level,
and the number of nodes added to the starting points. -/
structure State (α : Type) where
  inSet : Finset α
  found : List α
  frontier : List α
  count : ℕ

def State.start (roots : List α) : State α := ⟨roots.toFinset, roots, roots, 0⟩

variable (G)

/-- Add a node, unless it is known, not admitted, or one too many. -/
def offer (s : State α) (a : α) : State α :=
  if a ∈ s.inSet ∨ G.cap ≤ s.count then s
  else if G.admits a then
    ⟨insert a s.inSet, s.found ++ [a], s.frontier ++ [a], s.count + 1⟩
  else s

/-- Offer all neighbours of the frontier; what is added is the next frontier. -/
def level (s : State α) : State α :=
  (s.frontier.flatMap G.next).foldl G.offer { s with frontier := [] }

/-- Search at most `n` more levels. -/
def search : ℕ → State α → State α
  | 0, s => s
  | n + 1, s =>
      if G.cap ≤ s.count then s
      else if (G.level s).frontier = [] then G.level s
      else search n (G.level s)

variable {G}

/-! ## One level -/

/-- Offering the nodes of `as` in state `s` has added the nodes of `ext`. -/
structure Adds (G : LevelSearch α) (as ext : List α) (s t : State α) : Prop where
  inSet : t.inSet = s.inSet ∪ ext.toFinset
  found : t.found = s.found ++ ext
  frontier : t.frontier = s.frontier ++ ext
  count : t.count = s.count + ext.length
  nodup : ext.Nodup
  fresh : ∀ a ∈ ext, a ∉ s.inSet
  offered : ∀ a ∈ ext, a ∈ as ∧ G.admits a = true
  le_cap : s.count ≤ G.cap → t.count ≤ G.cap
  all : t.count < G.cap → ∀ a ∈ as, G.admits a = true → a ∈ t.inSet

/-- Nothing is added to a state that has no use for the node. -/
theorem Adds.skip {as ext : List α} {s t : State α} {a : α} (h : G.Adds as ext s t)
    (ha : s.count < G.cap → G.admits a = true → a ∈ s.inSet) : G.Adds (a :: as) ext s t where
  inSet := h.inSet
  found := h.found
  frontier := h.frontier
  count := h.count
  nodup := h.nodup
  fresh := h.fresh
  offered b hb := ⟨List.mem_cons_of_mem a (h.offered b hb).1, (h.offered b hb).2⟩
  le_cap := h.le_cap
  all := by
    intro hcount b hb hadmitted
    rcases List.mem_cons.mp hb with rfl | hb
    · have hlt : s.count < G.cap := by
        have := h.count
        omega
      rw [h.inSet]
      exact Finset.mem_union_left _ (ha hlt hadmitted)
    · exact h.all hcount b hb hadmitted

theorem Adds.add {as ext : List α} {s t : State α} {a : α} (hnew : a ∉ s.inSet)
    (hcap : s.count < G.cap) (hadmitted : G.admits a = true)
    (h : G.Adds as ext ⟨insert a s.inSet, s.found ++ [a], s.frontier ++ [a], s.count + 1⟩ t) :
    G.Adds (a :: as) (a :: ext) s t where
  inSet := by
    rw [h.inSet, List.toFinset_cons, Finset.union_insert, Finset.insert_union]
  found := by rw [h.found, List.append_assoc, List.singleton_append]
  frontier := by rw [h.frontier, List.append_assoc, List.singleton_append]
  count := by
    have hcount : t.count = s.count + 1 + ext.length := h.count
    rw [hcount, List.length_cons]
    omega
  nodup := List.nodup_cons.mpr
    ⟨fun hmem => h.fresh a hmem (Finset.mem_insert_self _ _), h.nodup⟩
  fresh b hb := by
    rcases List.mem_cons.mp hb with rfl | hb
    · exact hnew
    · exact fun hmem => h.fresh b hb (Finset.mem_insert_of_mem hmem)
  offered b hb := by
    rcases List.mem_cons.mp hb with rfl | hb
    · exact ⟨List.mem_cons_self, hadmitted⟩
    · exact ⟨List.mem_cons_of_mem a (h.offered b hb).1, (h.offered b hb).2⟩
  le_cap _ := h.le_cap hcap
  all := by
    intro hcount b hb hb'
    rcases List.mem_cons.mp hb with rfl | hb
    · rw [h.inSet]
      exact Finset.mem_union_left _ (Finset.mem_insert_self _ _)
    · exact h.all hcount b hb hb'

theorem exists_adds (as : List α) (s : State α) : ∃ ext, G.Adds as ext s (as.foldl G.offer s) := by
  induction as generalizing s with
  | nil =>
      refine ⟨[], ?_⟩
      constructor <;> simp
  | cons a as ih =>
      rw [List.foldl_cons, offer]
      split
      · next hskip =>
          obtain ⟨ext, h⟩ := ih s
          exact ⟨ext, h.skip fun hlt _ => hskip.resolve_right (Nat.not_le.mpr hlt)⟩
      · next hnew =>
          rw [not_or, Nat.not_le] at hnew
          split
          · next hadmitted =>
              obtain ⟨ext, h⟩ := ih _
              exact ⟨a :: ext, .add hnew.1 hnew.2 hadmitted h⟩
          · next hadmitted =>
              obtain ⟨ext, h⟩ := ih s
              exact ⟨ext, h.skip fun _ h => absurd h hadmitted⟩

/-! ## The search -/

/-- What holds after `n` levels.  Short of the limit, everything within `n` steps has been found,
and all neighbours of what is no longer in the frontier. -/
structure Invariant (G : LevelSearch α) (roots : List α) (n : ℕ) (s : State α) : Prop where
  added : ∃ ext, s.found = roots ++ ext ∧ ext.Nodup ∧ (∀ a ∈ ext, a ∉ roots) ∧ s.count = ext.length
  inSet : s.inSet = s.found.toFinset
  le_cap : s.count ≤ G.cap
  reached : ∀ a ∈ s.found, G.Reached roots n a
  frontier : ∀ a ∈ s.frontier, a ∈ s.found
  complete : s.count < G.cap → ∀ a, G.Reached roots n a → a ∈ s.found
  expanded : s.count < G.cap → ∀ f ∈ s.found, f ∉ s.frontier → ∀ a ∈ G.next f,
    G.admits a = true → a ∈ s.found

namespace Invariant
variable {roots : List α} {n : ℕ} {s : State α}

theorem start (G : LevelSearch α) (roots : List α) : G.Invariant roots 0 (.start roots) where
  added := ⟨[], (List.append_nil roots).symm, List.nodup_nil, by simp, rfl⟩
  inSet := rfl
  le_cap := Nat.zero_le _
  reached _ h := h
  frontier _ h := h
  complete _ _ h := h
  expanded _ _ h hnot := absurd h hnot

theorem level (h : G.Invariant roots n s) : G.Invariant roots (n + 1) (G.level s) := by
  obtain ⟨ext, hadds⟩ :=
    exists_adds (G := G) (s.frontier.flatMap G.next) { s with frontier := [] }
  obtain ⟨old, hold, hnodup, hfresh, hcount⟩ := h.added
  have hinSet := hadds.inSet
  have hfound : (G.level s).found = s.found ++ ext := hadds.found
  have hfrontier : (G.level s).frontier = ext := hadds.frontier
  have hlevel : (G.level s).count = s.count + ext.length := hadds.count
  have hnew : ∀ a ∈ ext, a ∉ s.found := fun a ha hmem =>
    hadds.fresh a ha (h.inSet ▸ List.mem_toFinset.mpr hmem)
  have hsets : (G.level s).inSet = (G.level s).found.toFinset := by
    rw [hfound, List.toFinset_append, ← h.inSet]
    exact hinSet
  -- all neighbours of the old frontier have been offered
  have hoffered : (G.level s).count < G.cap → ∀ f ∈ s.frontier, ∀ a ∈ G.next f,
      G.admits a = true → a ∈ (G.level s).found := by
    intro hlt f hf a ha hadmitted
    have hmem := hadds.all hlt a (List.mem_flatMap.mpr ⟨f, hf, ha⟩) hadmitted
    exact List.mem_toFinset.mp (hsets ▸ hmem)
  have hkept : ∀ a ∈ s.found, a ∈ (G.level s).found := fun a ha =>
    hfound ▸ List.mem_append_left ext ha
  have hneighbour : (G.level s).count < G.cap → ∀ f ∈ s.found, ∀ a ∈ G.next f,
      G.admits a = true → a ∈ (G.level s).found := by
    intro hlt f hf a ha hadmitted
    by_cases hfr : f ∈ s.frontier
    · exact hoffered hlt f hfr a ha hadmitted
    · exact hkept a (h.expanded (by omega) f hf hfr a ha hadmitted)
  constructor
  · refine ⟨old ++ ext, by rw [hfound, hold, List.append_assoc], ?_, ?_, ?_⟩
    · refine List.nodup_append.mpr ⟨hnodup, hadds.nodup, ?_⟩
      rintro a ha b hb rfl
      exact hnew a hb (hold ▸ List.mem_append_right roots ha)
    · intro a ha hroot
      rcases List.mem_append.mp ha with ha | ha
      · exact hfresh a ha hroot
      · exact hnew a ha (hold ▸ List.mem_append_left old hroot)
    · rw [hlevel, hcount, List.length_append]
  · exact hsets
  · exact hadds.le_cap h.le_cap
  · intro a ha
    rw [hfound] at ha
    rcases List.mem_append.mp ha with ha | ha
    · exact .inl (h.reached a ha)
    · obtain ⟨hoff, hadmitted⟩ := hadds.offered a ha
      obtain ⟨f, hf, hfa⟩ := List.mem_flatMap.mp hoff
      exact .inr ⟨f, h.reached f (h.frontier f hf), hfa, hadmitted⟩
  · intro a ha
    rw [hfound]
    exact List.mem_append_right s.found (hfrontier ▸ ha)
  · intro hlt a ha
    rcases ha with ha | ⟨f, hf, hfa, hadmitted⟩
    · exact hkept a (h.complete (by omega) a ha)
    · exact hneighbour hlt f (h.complete (by omega) f hf) a hfa hadmitted
  · intro hlt f hf hnot a ha hadmitted
    rw [hfound] at hf
    rcases List.mem_append.mp hf with hf | hf
    · exact hneighbour hlt f hf a ha hadmitted
    · exact absurd (hfrontier ▸ hf) hnot

/-- A search that has run into the limit stays as it is. -/
theorem of_full (h : G.Invariant roots n s) (hfull : G.cap ≤ s.count) {m : ℕ} (hm : n ≤ m) :
    G.Invariant roots m s :=
  { h with
    reached := fun a ha => (h.reached a ha).mono hm
    complete := fun hlt => absurd hfull (Nat.not_le.mpr hlt) }

/-- So does one that has nothing left to expand. -/
theorem of_closed (h : G.Invariant roots n s) (hclosed : s.frontier = []) {m : ℕ} (hm : n ≤ m) :
    G.Invariant roots m s := by
  refine { h with
    reached := fun a ha => (h.reached a ha).mono hm
    complete := fun hlt => ?_ }
  induction hm with
  | refl => exact h.complete hlt
  | step _ ih =>
      rintro a (ha | ⟨f, hf, hfa, hadmitted⟩)
      · exact ih a ha
      · exact h.expanded hlt f (ih f hf) (by simp [hclosed]) a hfa hadmitted

/-- **A search finds what is within reach**, up to its limits. -/
theorem search (h : G.Invariant roots n s) (m : ℕ) : G.Invariant roots (n + m) (G.search m s) := by
  induction m generalizing n s with
  | zero => exact h
  | succ m ih =>
      unfold LevelSearch.search
      split
      · next hfull => exact h.of_full hfull (Nat.le_add_right _ _)
      · split
        · next hclosed => exact h.level.of_closed hclosed (by omega)
        · have hrest := ih h.level
          rwa [Nat.add_right_comm] at hrest

end Invariant

section Congr
variable (G) (n : ℕ) {roots roots' : List α}

/-- What is found short of the limit, in terms of the starting points. -/
theorem mem_found_iff (hcap : (G.search n (.start roots)).count < G.cap) {a : α} :
    a ∈ (G.search n (.start roots)).found ↔ G.Reached roots n a := by
  have h := (Invariant.start G roots).search n
  rw [Nat.zero_add] at h
  exact ⟨h.reached a, h.complete hcap a⟩

/-- From the same starting points in another order, no more nodes are added. -/
theorem count_le_of_congr (hroots : ∀ a, a ∈ roots ↔ a ∈ roots')
    (hcap : (G.search n (.start roots)).count < G.cap) :
    (G.search n (.start roots')).count ≤ (G.search n (.start roots)).count := by
  have h := (Invariant.start G roots).search n
  have h' := (Invariant.start G roots').search n
  rw [Nat.zero_add] at h h'
  obtain ⟨ext, hext, -, -, hcount⟩ := h.added
  obtain ⟨ext', hext', hnodup', hfresh', hcount'⟩ := h'.added
  rw [hcount, hcount']
  refine (hnodup'.subperm fun a ha => ?_).length_le
  have hreached := h'.reached a (hext' ▸ List.mem_append_right roots' ha)
  have hmem := h.complete hcap a ((reached_congr hroots n a).mpr hreached)
  rw [hext] at hmem
  exact (List.mem_append.mp hmem).resolve_left fun hroot => hfresh' a ha ((hroots a).mp hroot)

/-- Short of the limit, the order of the starting points does not matter. -/
theorem mem_found_congr (hroots : ∀ a, a ∈ roots ↔ a ∈ roots')
    (hcap : (G.search n (.start roots)).count < G.cap) (a : α) :
    a ∈ (G.search n (.start roots')).found ↔ a ∈ (G.search n (.start roots)).found := by
  have hcap' := lt_of_le_of_lt (count_le_of_congr G n hroots hcap) hcap
  rw [mem_found_iff G n hcap, mem_found_iff G n hcap', reached_congr hroots]

end Congr

end LevelSearch
