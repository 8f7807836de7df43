import San.JoinDiscipline

/-! # The forward worklist algorithm

A `FlowProblem` is a graph whose edges transform states and whose nodes merge the
states that reach them by a lawful join discipline.  The worklist algorithm keeps a
queue of nodes whose entry state has changed since they were last processed.
Nothing is assumed of the edge functions: they need not be monotone.

* `run` is total.  A merge that reports a change moves the entry state of its node
  strictly up the natural order of the join, and that order has no infinite
  ascending chain; a step that changes nothing shortens the queue.
* `run_covers` is the invariant of the loop.  Let `Cov n u e` say that the entry
  state `u` of `n` accounts for the state `e` sent to it.  If merging establishes and
  preserves coverage, then in the end every edge out of a reached node is covered.
* `run_simulates` follows paths: a relation that edges preserve and that merging
  respects holds between the final entry state of a node and the state of every path
  to it.

Whether merging respects a relation may depend on the two states merged.  Both
results are stated for runs all of whose merges meet a condition (`RunMeets`).
-/

/-- A graph with states flowing along its edges. -/
structure FlowProblem (N σ : Type) where
  discipline : Discipline σ
  lawful : discipline.Lawful
  start : N
  init : σ
  succs : N → List N
  /-- The state that `n`, entered in state `x`, sends to its successor `s`. -/
  flow : (n : N) → (x : σ) → (s : N) → σ

/-- The state of the algorithm: the entry states so far, the queue, and the set of
queued nodes. -/
structure WorklistConfig (N σ : Type) where
  entry : N → Option σ
  work : List N
  queued : Finset N

namespace FlowProblem
variable {N σ : Type} [DecidableEq N] (P : FlowProblem N σ)

abbrev Config (_ : FlowProblem N σ) := WorklistConfig N σ

/-- The start node holds the initial state and is queued. -/
def initial : P.Config where
  entry n := if n = P.start then some P.init else none
  work := [P.start]
  queued := {P.start}

/-- Give `n` the entry state `x` and queue it unless it is queued already. -/
def update (c : P.Config) (n : N) (x : σ) : P.Config where
  entry m := if m = n then some x else c.entry m
  work := if n ∈ c.queued then c.work else c.work ++ [n]
  queued := insert n c.queued

/-- Send the state `e` to `s`. -/
def propagate (c : P.Config) (s : N) (e : σ) : P.Config :=
  match c.entry s with
  | none => P.update c s e
  | some a => if P.discipline.changed a e then P.update c s (P.discipline.join a e) else c

/-- Send the exit state of `n`, entered in state `x`, to each of `ss`. -/
def spread (n : N) (x : σ) (c : P.Config) (ss : List N) : P.Config :=
  ss.foldl (fun c s => P.propagate c s (P.flow n x s)) c

/-- Take `n` off the queue. -/
def pop (c : P.Config) (n : N) (rest : List N) : P.Config :=
  { c with work := rest, queued := c.queued.erase n }

/-- One iteration of the loop. -/
def step (c : P.Config) : P.Config :=
  match c.work with
  | [] => c
  | n :: rest =>
      match c.entry n with
      | none => P.pop c n rest
      | some x => P.spread n x (P.pop c n rest) (P.succs n)

variable {P}

/-! ## What one propagation does -/

theorem propagate_cases (c : P.Config) (s : N) (e : σ) :
    (c.entry s = none ∧ P.propagate c s e = P.update c s e) ∨
    (∃ a, c.entry s = some a ∧ P.discipline.changed a e = true ∧
      P.propagate c s e = P.update c s (P.discipline.join a e)) ∨
    (∃ a, c.entry s = some a ∧ P.discipline.changed a e = false ∧ P.propagate c s e = c) := by
  unfold propagate
  cases hs : c.entry s with
  | none => exact Or.inl ⟨rfl, rfl⟩
  | some a =>
      cases hc : P.discipline.changed a e with
      | true => exact Or.inr (Or.inl ⟨a, rfl, hc, by simp [hc]⟩)
      | false => exact Or.inr (Or.inr ⟨a, rfl, hc, by simp [hc]⟩)

/-- An invariant of the loop that every propagation preserves is preserved by
spreading. -/
theorem spread_induction {n : N} {x : σ} (Inv : P.Config → Prop)
    (hstep : ∀ c s, s ∈ P.succs n → Inv c → Inv (P.propagate c s (P.flow n x s)))
    (c : P.Config) (hc : Inv c) : Inv (P.spread n x c (P.succs n)) := by
  suffices h : ∀ (ss : List N), (∀ s ∈ ss, s ∈ P.succs n) → ∀ c, Inv c →
      Inv (P.spread n x c ss) from h _ (fun _ hs => hs) c hc
  intro ss
  induction ss with
  | nil => exact fun _ c hc => hc
  | cons s ss ih =>
      intro hss c hc
      exact ih (fun t ht => hss t (List.mem_cons_of_mem s ht)) _
        (hstep c s (hss s List.mem_cons_self) hc)

theorem step_of_done {c : P.Config} (hw : c.work = []) : P.step c = c := by
  unfold step
  rw [hw]

theorem step_of_unreached {c : P.Config} {n : N} {rest : List N} (hw : c.work = n :: rest)
    (hn : c.entry n = none) : P.step c = P.pop c n rest := by
  unfold step
  rw [hw]
  simp only [hn]

theorem step_of_reached {c : P.Config} {n : N} {rest : List N} {x : σ} (hw : c.work = n :: rest)
    (hn : c.entry n = some x) :
    P.step c = P.spread n x (P.pop c n rest) (P.succs n) := by
  unfold step
  rw [hw]
  simp only [hn]

/-- An invariant preserved by popping and by every propagation from the popped node is
preserved by a step. -/
theorem step_induction (Inv : P.Config → Prop) {c : P.Config} (hc : Inv c)
    (hpop : ∀ n rest, c.work = n :: rest → Inv (P.pop c n rest))
    (hprop : ∀ n x, c.entry n = some x → ∀ d s, s ∈ P.succs n → Inv d →
      Inv (P.propagate d s (P.flow n x s))) : Inv (P.step c) := by
  cases hw : c.work with
  | nil => rwa [step_of_done hw]
  | cons n rest =>
      cases hn : c.entry n with
      | none =>
          rw [step_of_unreached hw hn]
          exact hpop n rest hw
      | some x =>
          rw [step_of_reached hw hn]
          exact spread_induction Inv (hprop n x hn) _ (hpop n rest hw)

/-! ## Termination -/

section Termination

/-- How far a node can still climb: an unreached node is above every state. -/
noncomputable def height (P : FlowProblem N σ) (c : P.Config) (n : N) : WithTop ℕ :=
  (c.entry n).elim ⊤ fun x => WithTop.some (P.lawful.ranked.choose x)

omit [DecidableEq N] in
theorem rank_join_lt {a e : σ} (h : P.discipline.changed a e = true) :
    P.lawful.ranked.choose (P.discipline.join a e) < P.lawful.ranked.choose a :=
  P.lawful.ranked.choose_spec a _ (P.lawful.below_join a e)
    fun he => P.lawful.ne_of_changed a e h he.symm

theorem height_update_lt (c : P.Config) {s : N} {x : σ}
    (h : WithTop.some (P.lawful.ranked.choose x) < P.height c s) :
    P.height (P.update c s x) < P.height c := by
  have hs : P.height (P.update c s x) s = WithTop.some (P.lawful.ranked.choose x) := by
    simp [height, update]
  refine Pi.lt_def.mpr ⟨fun n => ?_, s, hs ▸ h⟩
  by_cases hn : n = s
  · rw [hn, hs]
    exact le_of_lt h
  · simp [height, update, hn]

/-- A propagation changes nothing, or it lowers the heights. -/
theorem propagate_height (c : P.Config) (s : N) (e : σ) :
    P.propagate c s e = c ∨ P.height (P.propagate c s e) < P.height c := by
  rcases propagate_cases c s e with ⟨hn, hp⟩ | ⟨a, ha, hc, hp⟩ | ⟨a, _, _, hp⟩
  · rw [hp]
    refine Or.inr (height_update_lt c ?_)
    simp [height, hn]
  · rw [hp]
    refine Or.inr (height_update_lt c ?_)
    simp only [height, ha, Option.elim_some]
    exact WithTop.coe_lt_coe.mpr (rank_join_lt hc)
  · exact Or.inl hp

theorem spread_height (n : N) (x : σ) (c : P.Config) (ss : List N) :
    P.spread n x c ss = c ∨ P.height (P.spread n x c ss) < P.height c := by
  induction ss generalizing c with
  | nil => exact Or.inl rfl
  | cons s ss ih =>
      have hs := ih (P.propagate c s (P.flow n x s))
      rcases propagate_height c s (P.flow n x s) with hp | hp
      · rw [hp] at hs
        show P.spread n x (P.propagate c s (P.flow n x s)) ss = c ∨ _
        rw [hp]
        exact hs.imp_right fun h => by simpa [spread, hp] using h
      · refine Or.inr ?_
        rcases hs with hs | hs
        · show P.height (P.spread n x (P.propagate c s (P.flow n x s)) ss) < _
          rw [hs]
          exact hp
        · exact lt_trans hs hp

/-- The measure of the loop: the heights, then the length of the queue. -/
noncomputable def loopMeasure (P : FlowProblem N σ) (c : P.Config) : (N → WithTop ℕ) ×ₗ ℕ :=
  toLex (P.height c, c.work.length)

/-- **Every iteration lowers the measure.** -/
theorem step_measure_lt (c : P.Config) (hw : c.work ≠ []) :
    P.loopMeasure (P.step c) < P.loopMeasure c := by
  obtain ⟨n, rest, hw⟩ := List.exists_cons_of_ne_nil hw
  have hpop : P.height (P.pop c n rest) = P.height c := rfl
  have hlen : P.loopMeasure (P.pop c n rest) < P.loopMeasure c := by
    refine Prod.Lex.toLex_lt_toLex.mpr (Or.inr ⟨hpop, ?_⟩)
    rw [hw]
    exact Nat.lt_succ_self _
  cases hn : c.entry n with
  | none => rwa [step_of_unreached hw hn]
  | some x =>
      rw [step_of_reached hw hn]
      rcases spread_height n x (P.pop c n rest) (P.succs n) with h | h
      · rwa [h]
      · exact Prod.Lex.toLex_lt_toLex.mpr (Or.inl (hpop ▸ h))

end Termination

/-! ## Running to the end -/

/-- Iterate until the queue is empty. -/
def run [Finite N] (P : FlowProblem N σ) (c : P.Config) : P.Config :=
  if _hw : c.work = [] then c else P.run (P.step c)
termination_by (wellFounded_lt (α := (N → WithTop ℕ) ×ₗ ℕ)).wrap (P.loopMeasure c)
decreasing_by exact step_measure_lt c ‹_›

variable [Finite N]

/-- The entry states that the algorithm returns. -/
def solution (P : FlowProblem N σ) : N → Option σ := (P.run P.initial).entry

theorem run_of_done {c : P.Config} (h : c.work = []) : P.run c = c := by
  rw [run, dif_pos h]

theorem run_step (c : P.Config) : P.run (P.step c) = P.run c := by
  by_cases h : c.work = []
  · rw [step_of_done h]
  · conv_rhs => rw [run, dif_neg h]

theorem run_iterate (k : ℕ) (c : P.Config) : P.run (P.step^[k] c) = P.run c := by
  induction k generalizing c with
  | zero => rfl
  | succ k ih => rw [Function.iterate_succ_apply, ih, run_step]

/-- Once enough iterations have emptied the queue, they are the run. -/
theorem run_eq_iterate {k : ℕ} {c : P.Config} (h : (P.step^[k] c).work = []) :
    P.run c = P.step^[k] c := by
  rw [← run_iterate k c, run_of_done h]

/-- A solution can be read off the iterate that has emptied the queue. -/
theorem exists_solution {k : ℕ} (hdone : (P.step^[k] P.initial).work = []) {n : N} {q : σ → Bool}
    (h : ((P.step^[k] P.initial).entry n).any q = true) :
    ∃ x, P.solution n = some x ∧ q x = true := by
  unfold solution
  rw [run_eq_iterate hdone]
  exact (Option.any_eq_true _ _).mp h

/-- **The loop stops** after finitely many iterations. -/
theorem run_terminates (c : P.Config) :
    ∃ k, P.run c = P.step^[k] c ∧ (P.step^[k] c).work = [] := by
  suffices h : ∃ k, (P.step^[k] c).work = [] by
    obtain ⟨k, hk⟩ := h
    exact ⟨k, run_eq_iterate hk, hk⟩
  induction c using run.induct with
  | case1 c hw => exact ⟨0, hw⟩
  | case2 c hw ih =>
      obtain ⟨k, hk⟩ := ih
      exact ⟨k + 1, hk⟩

/-- What holds initially and is preserved by a step holds at the end. -/
theorem run_induction (Inv : P.Config → Prop) (hinit : Inv P.initial)
    (hstep : ∀ k, Inv (P.step^[k] P.initial) → Inv (P.step (P.step^[k] P.initial))) :
    Inv (P.run P.initial) := by
  obtain ⟨k, hk, -⟩ := run_terminates P.initial
  rw [hk]
  clear hk
  induction k with
  | zero => exact hinit
  | succ k ih =>
      rw [Function.iterate_succ_apply']
      exact hstep k ih

/-! ## Conditions on the merges of a run -/

omit [Finite N]

/-- Every merge made while spreading meets `C`. -/
def SpreadMeets (C : N → σ → σ → Prop) (n : N) (x : σ) : P.Config → List N → Prop
  | _, [] => True
  | c, s :: ss =>
      (∀ a, c.entry s = some a → C s a (P.flow n x s)) ∧
        SpreadMeets C n x (P.propagate c s (P.flow n x s)) ss

/-- Every merge made by the next iteration meets `C`. -/
def StepMeets (C : N → σ → σ → Prop) (c : P.Config) : Prop :=
  match c.work with
  | [] => True
  | n :: rest => ∀ x, c.entry n = some x → SpreadMeets C n x (P.pop c n rest) (P.succs n)

/-- Every merge of the run meets `C`: whenever a state `e` is merged into the entry
state `a` of a node `s`, `C s a e` holds. -/
def RunMeets (P : FlowProblem N σ) (C : N → σ → σ → Prop) : Prop :=
  ∀ k, StepMeets C (P.step^[k] P.initial)

section Decidable
variable (C : N → σ → σ → Prop) [∀ n a e, Decidable (C n a e)]

instance decidableSpreadMeets (n : N) (x : σ) :
    ∀ (c : P.Config) (ss : List N), Decidable (SpreadMeets C n x c ss)
  | _, [] => isTrue trivial
  | c, s :: ss =>
      have := decidableSpreadMeets n x (P.propagate c s (P.flow n x s)) ss
      inferInstanceAs (Decidable ((∀ a ∈ c.entry s, C s a (P.flow n x s)) ∧ _))

instance decidableStepMeets : ∀ c : P.Config, Decidable (StepMeets C c)
  | ⟨_, [], _⟩ => isTrue trivial
  | ⟨entry, n :: rest, queued⟩ =>
      inferInstanceAs (Decidable (∀ x ∈ entry n,
        SpreadMeets C n x (P.pop ⟨entry, n :: rest, queued⟩ n rest) (P.succs n)))

end Decidable

/-- Nothing is merged once the queue is empty. -/
theorem runMeets_of_done {C : N → σ → σ → Prop} {k : ℕ} (hdone : (P.step^[k] P.initial).work = [])
    (hC : ∀ i < k, StepMeets C (P.step^[i] P.initial)) : P.RunMeets C := by
  intro i
  by_cases hi : i < k
  · exact hC i hi
  · obtain ⟨j, rfl⟩ := Nat.exists_eq_add_of_le (Nat.not_lt.mp hi)
    rw [Nat.add_comm, Function.iterate_add_apply, Function.iterate_fixed (step_of_done hdone)]
    unfold StepMeets
    rw [hdone]
    trivial

theorem spreadMeets_trivial (n : N) (x : σ) (c : P.Config) (ss : List N) :
    SpreadMeets (fun _ _ _ => True) n x c ss := by
  induction ss generalizing c with
  | nil => trivial
  | cons s ss ih => exact ⟨fun _ _ => trivial, ih _⟩

theorem runMeets_trivial : P.RunMeets fun _ _ _ => True := by
  intro k
  unfold StepMeets
  cases (P.step^[k] P.initial).work with
  | nil => trivial
  | cons n rest => exact fun x _ => spreadMeets_trivial n x _ _

/-! ## Covering every edge -/

/-- Merging under the condition `C` establishes and preserves the coverage `Cov`. -/
structure Covering (P : FlowProblem N σ) (C Cov : N → σ → σ → Prop) : Prop where
  refl : ∀ n e, Cov n e e
  merge : ∀ n a e, C n a e → P.discipline.changed a e = true → Cov n (P.discipline.join a e) e
  keep : ∀ n a e, C n a e → P.discipline.changed a e = false → Cov n a e
  mono : ∀ n a e x, C n a e → P.discipline.changed a e = true → Cov n a x →
    Cov n (P.discipline.join a e) x

/-- The entry state of `s` covers `e`. -/
def Covered (Cov : N → σ → σ → Prop) (c : P.Config) (s : N) (e : σ) : Prop :=
  ∃ u, c.entry s = some u ∧ Cov s u e

section Coverage
variable {C Cov : N → σ → σ → Prop} (h : P.Covering C Cov)
include h

theorem covered_propagate {c : P.Config} {s t : N} {e x : σ}
    (hC : ∀ a, c.entry s = some a → C s a e) (hc : Covered Cov c t x) :
    Covered Cov (P.propagate c s e) t x := by
  obtain ⟨u, hu, hcov⟩ := hc
  rcases propagate_cases c s e with ⟨hn, hp⟩ | ⟨a, ha, hch, hp⟩ | ⟨a, _, _, hp⟩ <;> rw [hp]
  · have hts : t ≠ s := fun he => by rw [he, hn] at hu; cases hu
    exact ⟨u, by simp [update, hts, hu], hcov⟩
  · by_cases hts : t = s
    · subst hts
      rw [ha] at hu
      cases hu
      exact ⟨_, if_pos rfl, h.mono _ _ _ _ (hC _ ha) hch hcov⟩
    · exact ⟨u, by simp [update, hts, hu], hcov⟩
  · exact ⟨u, hu, hcov⟩

theorem covered_propagate_self {c : P.Config} {s : N} {e : σ}
    (hC : ∀ a, c.entry s = some a → C s a e) : Covered Cov (P.propagate c s e) s e := by
  rcases propagate_cases c s e with ⟨_, hp⟩ | ⟨a, ha, hch, hp⟩ | ⟨a, ha, hch, hp⟩ <;> rw [hp]
  · exact ⟨e, if_pos rfl, h.refl s e⟩
  · exact ⟨_, if_pos rfl, h.merge _ _ _ (hC a ha) hch⟩
  · exact ⟨a, ha, h.keep _ _ _ (hC a ha) hch⟩

end Coverage

theorem mem_work_propagate {c : P.Config} {s n : N} {e : σ} (hn : n ∈ c.work) :
    n ∈ (P.propagate c s e).work := by
  rcases propagate_cases c s e with ⟨_, hp⟩ | ⟨a, _, _, hp⟩ | ⟨a, _, _, hp⟩ <;> rw [hp]
  · by_cases hq : s ∈ c.queued <;> simp [update, hq, hn]
  · by_cases hq : s ∈ c.queued <;> simp [update, hq, hn]
  · exact hn

/-- A propagation that touches the entry state of `n` leaves `n` queued. -/
theorem entry_propagate {c : P.Config} (hq : ∀ n ∈ c.queued, n ∈ c.work) {s n : N} {e : σ}
    (hn : n ∉ (P.propagate c s e).work) : (P.propagate c s e).entry n = c.entry n := by
  have hupd : ∀ x, n ∉ (P.update c s x).work → (P.update c s x).entry n = c.entry n := by
    intro x hx
    have hns : n ≠ s := by
      rintro rfl
      by_cases hnq : n ∈ c.queued
      · simp [update, hnq, hq n hnq] at hx
      · simp [update, hnq] at hx
    simp [update, hns]
  rcases propagate_cases c s e with ⟨_, hp⟩ | ⟨a, _, _, hp⟩ | ⟨a, _, _, hp⟩ <;> rw [hp] at hn ⊢
  · exact hupd _ hn
  · exact hupd _ hn

theorem queued_propagate {c : P.Config} (hq : ∀ n ∈ c.queued, n ∈ c.work) (s : N) (e : σ) :
    ∀ n ∈ (P.propagate c s e).queued, n ∈ (P.propagate c s e).work := by
  have hupd : ∀ x, ∀ n ∈ (P.update c s x).queued, n ∈ (P.update c s x).work := by
    intro x n hn
    by_cases hs : s ∈ c.queued
    · have : n ∈ c.queued := by simpa [update, hs] using hn
      simpa [update, hs] using hq n this
    · rcases Finset.mem_insert.mp hn with rfl | hn
      · simp [update, hs]
      · simp [update, hs, hq n hn]
  rcases propagate_cases c s e with ⟨_, hp⟩ | ⟨a, _, _, hp⟩ | ⟨a, _, _, hp⟩ <;> rw [hp]
  · exact hupd _
  · exact hupd _
  · exact hq

/-- The invariant of the loop: every edge out of a node that is not queued is
covered. -/
structure LoopInv (Cov : N → σ → σ → Prop) (c : P.Config) : Prop where
  queued : ∀ n ∈ c.queued, n ∈ c.work
  start : Covered Cov c P.start P.init
  edges : ∀ n x, c.entry n = some x → n ∉ c.work → ∀ s ∈ P.succs n, Covered Cov c s (P.flow n x s)

/-- The invariant while `n`, entered in state `x`, is being spread: its edges to `done`
are covered, unless `n` itself has been queued again. -/
structure SpreadInv (Cov : N → σ → σ → Prop) (n : N) (x : σ) (done : List N) (c : P.Config) :
    Prop where
  queued : ∀ n ∈ c.queued, n ∈ c.work
  start : Covered Cov c P.start P.init
  others : ∀ m y, m ≠ n → c.entry m = some y → m ∉ c.work →
    ∀ s ∈ P.succs m, Covered Cov c s (P.flow m y s)
  self : n ∉ c.work → c.entry n = some x ∧ ∀ s ∈ done, Covered Cov c s (P.flow n x s)

section Coverage
variable {C Cov : N → σ → σ → Prop} (h : P.Covering C Cov)
include h

theorem spreadInv_propagate {n : N} {x : σ} {done : List N} {c : P.Config} {s : N}
    (hC : ∀ a, c.entry s = some a → C s a (P.flow n x s)) (hi : SpreadInv Cov n x done c) :
    SpreadInv Cov n x (done ++ [s]) (P.propagate c s (P.flow n x s)) where
  queued := queued_propagate hi.queued s _
  start := covered_propagate h hC hi.start
  others m y hm hy hw t ht := by
    rw [entry_propagate hi.queued hw] at hy
    exact covered_propagate h hC (hi.others m y hm hy (mt mem_work_propagate hw) t ht)
  self hw := by
    obtain ⟨hx, hdone⟩ := hi.self (mt mem_work_propagate hw)
    refine ⟨by rw [entry_propagate hi.queued hw, hx], fun t ht => ?_⟩
    rcases List.mem_append.mp ht with ht | ht
    · exact covered_propagate h hC (hdone t ht)
    · rw [List.mem_singleton.mp ht]
      exact covered_propagate_self h hC

theorem spreadInv_spread {n : N} {x : σ} {done ss : List N} {c : P.Config}
    (hC : SpreadMeets C n x c ss) (hi : SpreadInv Cov n x done c) :
    SpreadInv Cov n x (done ++ ss) (P.spread n x c ss) := by
  induction ss generalizing c done with
  | nil => simpa [spread] using hi
  | cons s ss ih =>
      have := ih hC.2 (spreadInv_propagate h hC.1 hi)
      rwa [List.append_assoc, List.singleton_append] at this

omit h in
/-- Popping `n` exposes its edges, and only those. -/
theorem spreadInv_pop {n : N} {rest : List N} {c : P.Config} {x : σ} (hw : c.work = n :: rest)
    (hn : c.entry n = some x) (hi : LoopInv Cov c) : SpreadInv Cov n x [] (P.pop c n rest) where
  queued m hm := by
    obtain ⟨hmn, hm⟩ := Finset.mem_erase.mp hm
    exact (List.mem_cons.mp (hw ▸ hi.queued m hm)).resolve_left hmn
  start := hi.start
  others m y hm hy hmw := by
    refine hi.edges m y hy fun hmem => ?_
    rcases List.mem_cons.mp (hw ▸ hmem) with he | he
    · exact hm he
    · exact hmw he
  self _ := ⟨hn, fun s hs => nomatch hs⟩

omit h in
theorem loopInv_of_spreadInv {n : N} {x : σ} {c : P.Config}
    (hi : SpreadInv Cov n x (P.succs n) c) : LoopInv Cov c where
  queued := hi.queued
  start := hi.start
  edges m y hy hw s hs := by
    by_cases hm : m = n
    · subst hm
      obtain ⟨hx, hdone⟩ := hi.self hw
      rw [hx] at hy
      cases hy
      exact hdone s hs
    · exact hi.others m y hm hy hw s hs

omit h in
theorem loopInv_pop_unreached {n : N} {rest : List N} {c : P.Config} (hw : c.work = n :: rest)
    (hn : c.entry n = none) (hi : LoopInv Cov c) : LoopInv Cov (P.pop c n rest) where
  queued m hm := by
    obtain ⟨hmn, hm⟩ := Finset.mem_erase.mp hm
    exact (List.mem_cons.mp (hw ▸ hi.queued m hm)).resolve_left hmn
  start := hi.start
  edges m y hy hmw := by
    refine hi.edges m y hy fun hmem => ?_
    rcases List.mem_cons.mp (hw ▸ hmem) with rfl | he
    · rw [show c.entry m = some y from hy] at hn
      cases hn
    · exact hmw he

theorem loopInv_step {c : P.Config} (hC : StepMeets C c) (hi : LoopInv Cov c) :
    LoopInv Cov (P.step c) := by
  cases hw : c.work with
  | nil => rwa [step_of_done hw]
  | cons n rest =>
      cases hn : c.entry n with
      | none =>
          rw [step_of_unreached hw hn]
          exact loopInv_pop_unreached hw hn hi
      | some x =>
          rw [step_of_reached hw hn]
          unfold StepMeets at hC
          rw [hw] at hC
          exact loopInv_of_spreadInv (spreadInv_spread h (hC x hn) (spreadInv_pop hw hn hi))

theorem loopInv_initial : LoopInv Cov P.initial where
  queued n hn := by
    rw [Finset.mem_singleton.mp hn]
    exact List.mem_singleton.mpr rfl
  start := ⟨P.init, if_pos rfl, h.refl _ _⟩
  edges n x hx hw := by
    by_cases hn : n = P.start
    · exact absurd (by rw [hn]; exact List.mem_singleton.mpr rfl) hw
    · simp [initial, hn] at hx

variable [Finite N]

theorem loopInv_run (hC : P.RunMeets C) : LoopInv Cov (P.run P.initial) :=
  run_induction _ (loopInv_initial h) fun k => loopInv_step h (hC k)

omit h in
theorem run_done : (P.run P.initial).work = [] := by
  obtain ⟨k, hk, hd⟩ := run_terminates P.initial
  rwa [hk]

/-- **Coverage.**  If every merge of the run meets `C`, then in the end the initial
state is covered at the start, and so is every edge out of a reached node, computed
from the final entry state of that node. -/
theorem run_covers (hC : P.RunMeets C) :
    (∃ u, P.solution P.start = some u ∧ Cov P.start u P.init) ∧
    ∀ n x, P.solution n = some x → ∀ s ∈ P.succs n,
      ∃ u, P.solution s = some u ∧ Cov s u (P.flow n x s) := by
  have hi := loopInv_run h hC
  refine ⟨hi.start, fun n x hx => hi.edges n x hx ?_⟩
  rw [run_done]
  exact List.not_mem_nil

end Coverage

/-! ## Invariants of the entry states -/

/-- `Q` holds of the initial state, along every edge and of every merge. -/
structure Invariant (P : FlowProblem N σ) (Q : N → σ → Prop) : Prop where
  init : Q P.start P.init
  flow : ∀ n x s, s ∈ P.succs n → Q n x → Q s (P.flow n x s)
  join : ∀ n a b, Q n a → Q n b → Q n (P.discipline.join a b)

/-- Every entry state satisfies `Q` at its node. -/
def Entries (Q : N → σ → Prop) (c : P.Config) : Prop := ∀ n x, c.entry n = some x → Q n x

section Invariants
variable {Q : N → σ → Prop}

theorem entries_update {c : P.Config} {s : N} {x : σ} (hx : Q s x) (hc : Entries Q c) :
    Entries Q (P.update c s x) := by
  intro m y hy
  by_cases hm : m = s
  · subst hm
    obtain rfl : x = y := by simpa [update] using hy
    exact hx
  · exact hc m y (by simpa [update, hm] using hy)

theorem entries_initial (hQ : P.Invariant Q) : Entries Q P.initial := by
  intro n x hx
  by_cases hn : n = P.start
  · subst hn
    obtain rfl : P.init = x := by simpa [initial] using hx
    exact hQ.init
  · simp [initial, hn] at hx

theorem entries_propagate (hQ : P.Invariant Q) {c : P.Config} {s : N} {e : σ} (he : Q s e)
    (hc : Entries Q c) : Entries Q (P.propagate c s e) := by
  rcases propagate_cases c s e with ⟨_, hp⟩ | ⟨a, ha, _, hp⟩ | ⟨a, _, _, hp⟩ <;> rw [hp]
  · exact entries_update he hc
  · exact entries_update (hQ.join s a e (hc s a ha) he) hc
  · exact hc

theorem entries_step (hQ : P.Invariant Q) {c : P.Config} (hc : Entries Q c) :
    Entries Q (P.step c) :=
  step_induction (Entries Q) hc (fun _ _ _ => hc) fun n x hx _ s hs hd =>
    entries_propagate hQ (hQ.flow n x s hs (hc n x hx)) hd

theorem entries_iterate (hQ : P.Invariant Q) (k : ℕ) : Entries Q (P.step^[k] P.initial) := by
  induction k with
  | zero => exact entries_initial hQ
  | succ k ih =>
      rw [Function.iterate_succ_apply']
      exact entries_step hQ ih

/-- **Invariants hold of every entry state of the solution.** -/
theorem Invariant.solution [Finite N] (hQ : P.Invariant Q) {n : N} {x : σ}
    (hx : P.solution n = some x) : Q n x :=
  run_induction (Entries Q) (entries_initial hQ) (fun _ hk => entries_step hQ hk) n x hx

/-- A step looks at the edge function only at the entry states. -/
theorem step_withFlow {c : P.Config} (hc : Entries Q c) {f : N → σ → N → σ}
    (hf : ∀ n x, Q n x → f n x = P.flow n x) :
    FlowProblem.step { P with flow := f } c = P.step c := by
  cases hw : c.work with
  | nil => rw [step_of_done hw, step_of_done (P := { P with flow := f }) hw]
  | cons n rest =>
      cases hn : c.entry n with
      | none =>
          rw [step_of_unreached hw hn, step_of_unreached (P := { P with flow := f }) hw hn]
          rfl
      | some x =>
          rw [step_of_reached hw hn, step_of_reached (P := { P with flow := f }) hw hn]
          unfold spread
          rw [show FlowProblem.flow { P with flow := f } n x = P.flow n x from
            hf n x (hc n x hn)]
          rfl

/-- **Edge functions that agree on an invariant of the entry states have the same
solution.** -/
theorem solution_withFlow [Finite N] (hQ : P.Invariant Q) {f : N → σ → N → σ}
    (hf : ∀ n x, Q n x → f n x = P.flow n x) :
    FlowProblem.solution { P with flow := f } = P.solution := by
  have hiter : ∀ k, (FlowProblem.step { P with flow := f })^[k] P.initial =
      P.step^[k] P.initial := by
    intro k
    induction k with
    | zero => rfl
    | succ k ih =>
        rw [Function.iterate_succ_apply', Function.iterate_succ_apply', ih]
        exact step_withFlow (entries_iterate hQ k) hf
  obtain ⟨k, hrun, hdone⟩ := run_terminates P.initial
  have hdone' : ((FlowProblem.step { P with flow := f })^[k] P.initial).work = [] := by
    rw [hiter k]
    exact hdone
  have hrun' := run_eq_iterate hdone'
  unfold solution
  rw [hrun, ← hiter k]
  exact congrArg WorklistConfig.entry hrun'

theorem spreadMeets_and (hQ : P.Invariant Q) {C : N → σ → σ → Prop} {n : N} {x : σ} {ss : List N}
    (hss : ∀ s ∈ ss, Q s (P.flow n x s)) {c : P.Config} (hc : Entries Q c)
    (hC : SpreadMeets C n x c ss) :
    SpreadMeets (fun s a e => C s a e ∧ Q s a ∧ Q s e) n x c ss := by
  induction ss generalizing c with
  | nil => trivial
  | cons s ss ih =>
      have hs : Q s (P.flow n x s) := hss s List.mem_cons_self
      refine ⟨fun a ha => ⟨hC.1 a ha, hc s a ha, hs⟩, ?_⟩
      exact ih (fun t ht => hss t (List.mem_cons_of_mem s ht)) (entries_propagate hQ hs hc) hC.2

/-- What is merged in a run satisfies every invariant. -/
theorem RunMeets.and (hQ : P.Invariant Q) {C : N → σ → σ → Prop} (hC : P.RunMeets C) :
    P.RunMeets fun n a e => C n a e ∧ Q n a ∧ Q n e := by
  intro k
  have hentries := entries_iterate hQ k
  have hk := hC k
  unfold StepMeets at hk ⊢
  cases hw : (P.step^[k] P.initial).work with
  | nil => trivial
  | cons n rest =>
      rw [hw] at hk
      intro x hx
      exact spreadMeets_and hQ (fun s hs => hQ.flow n x s hs (hentries n x hx)) hentries (hk x hx)

end Invariants

/-- The state at the end of the path that leads from `n`, entered in state `x`, through
`ss`. -/
def follow (P : FlowProblem N σ) : N → σ → List N → σ
  | _, x, [] => x
  | n, x, s :: ss => P.follow s (P.flow n x s) ss

/-- The nodes to which the start has a path. -/
inductive Reaches (P : FlowProblem N σ) : N → Prop
  | start : Reaches P P.start
  | step {n s : N} : Reaches P n → s ∈ P.succs n → Reaches P s

variable [Finite N]

/-- **Exactly the reachable nodes get an entry state.** -/
theorem solution_isSome_iff (n : N) : (P.solution n).isSome ↔ P.Reaches n := by
  constructor
  · intro hn
    obtain ⟨x, hx⟩ := Option.isSome_iff_exists.mp hn
    have hreaches : P.Invariant fun n _ => P.Reaches n :=
      ⟨.start, fun _ _ _ hs hn => .step hn hs, fun _ _ _ hn _ => hn⟩
    exact hreaches.solution hx
  · intro hn
    have hcov : P.Covering (fun _ _ _ => True) (fun _ _ _ => True) :=
      ⟨fun _ _ => trivial, fun _ _ _ _ _ => trivial, fun _ _ _ _ _ => trivial,
        fun _ _ _ _ _ _ _ => trivial⟩
    obtain ⟨⟨u, hu, _⟩, hedges⟩ := run_covers hcov runMeets_trivial
    induction hn with
    | start => exact Option.isSome_iff_exists.mpr ⟨u, hu⟩
    | step _ hs ih =>
        obtain ⟨x, hx⟩ := Option.isSome_iff_exists.mp ih
        obtain ⟨v, hv, _⟩ := hedges _ x hx _ hs
        exact Option.isSome_iff_exists.mpr ⟨v, hv⟩

/-- **No edge is left unpropagated**: merging the initial state into the start, or the
state of any edge into its target, reports no change any more. -/
theorem run_stable :
    (∃ u, P.solution P.start = some u ∧ P.discipline.changed u P.init = false) ∧
    ∀ n x, P.solution n = some x → ∀ s ∈ P.succs n,
      ∃ u, P.solution s = some u ∧ P.discipline.changed u (P.flow n x s) = false := by
  have hcov : P.Covering (fun _ _ _ => True) fun _ u e => P.discipline.changed u e = false :=
    ⟨fun _ e => P.lawful.not_changed_self e, fun _ a e _ _ => P.lawful.not_changed_right a e,
      fun _ _ _ _ hc => hc, fun _ a e x _ _ hx => P.lawful.mono a x e hx⟩
  exact run_covers hcov runMeets_trivial

/-! ## Following paths -/

/-- The states of the paths to a node: edges are followed and nothing is merged. -/
inductive PathState (P : FlowProblem N σ) : N → σ → Prop
  | start : PathState P P.start P.init
  | step {n s : N} {x : σ} : PathState P n x → s ∈ P.succs n → PathState P s (P.flow n x s)

omit [DecidableEq N] [Finite N] in
/-- Following edges leads along a path. -/
theorem PathState.along {n : N} {x : σ} (h : P.PathState n x) (ss : List N)
    (hss : List.IsChain (fun n s => s ∈ P.succs n) (n :: ss)) :
    P.PathState (ss.getLastD n) (P.follow n x ss) := by
  induction ss generalizing n x with
  | nil => exact h
  | cons s ss ih =>
      rw [List.isChain_cons_cons] at hss
      have hlast : (s :: ss).getLastD n = ss.getLastD s := by cases ss <;> rfl
      rw [hlast]
      exact ih (h.step hss.1) hss.2

omit [DecidableEq N] [Finite N] in
theorem PathState.reaches {n : N} {x : σ} (h : P.PathState n x) : P.Reaches n := by
  induction h with
  | start => exact .start
  | step _ hs ih => exact .step ih hs

omit [DecidableEq N] [Finite N] in
theorem PathState.invariant {Q : N → σ → Prop} (hQ : P.Invariant Q) {n : N} {x : σ}
    (h : P.PathState n x) : Q n x := by
  induction h with
  | start => exact hQ.init
  | step _ hs ih => exact hQ.flow _ _ _ hs ih

/-- Edges preserve `R`, and merging under the condition `C` respects it on the side of
the merged state. -/
structure Simulation (P : FlowProblem N σ) (C R : N → σ → σ → Prop) : Prop where
  init : R P.start P.init P.init
  flow : ∀ n u p s, s ∈ P.succs n → R n u p → R s (P.flow n u s) (P.flow n p s)
  left : ∀ n a e p, C n a e → R n a p → R n (P.discipline.join a e) p
  right : ∀ n a e p, C n a e → R n e p → R n (P.discipline.join a e) p
  keep : ∀ n a e p, C n a e → P.discipline.changed a e = false → R n e p → R n a p

/-- **Paths are simulated.**  If every merge of the run meets `C`, then `R` holds between
the final entry state of a node and the state of every path to it. -/
theorem run_simulates {C R : N → σ → σ → Prop} (h : P.Simulation C R) (hC : P.RunMeets C)
    {n : N} {p u : σ} (hp : P.PathState n p) (hu : P.solution n = some u) : R n u p := by
  have hcov : P.Covering C (fun n u e => ∀ p, R n e p → R n u p) :=
    ⟨fun _ _ _ hp => hp, fun n a e hC _ p => h.right n a e p hC,
      fun n a e hC hch p => h.keep n a e p hC hch,
      fun n a e x hC _ hx p hp => h.left n a e p hC (hx p hp)⟩
  obtain ⟨⟨v, hv, hinit⟩, hedges⟩ := run_covers hcov hC
  induction hp generalizing u with
  | start =>
      rw [hv] at hu
      cases hu
      exact hinit _ h.init
  | @step n s x hpath hs ih =>
      obtain ⟨y, hy⟩ := Option.isSome_iff_exists.mp ((solution_isSome_iff n).mpr hpath.reaches)
      obtain ⟨w, hw, hR⟩ := hedges n y hy s hs
      rw [hw] at hu
      cases hu
      exact hR _ (h.flow n y x s hs (ih hy))

end FlowProblem
