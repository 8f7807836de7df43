import San.Worklist

/-! # Distributive flow problems

The worklist algorithm merges the states that arrive at a node, so in general an entry state says
less than the paths to the node.  It says exactly as much about observations of a state that edges
handle one at a time: what is observed after an edge is there in any case, or comes from a single
observation before it (`DistributesOn`).  If moreover a merge shows what its sides show, then what
is observed of an entry state is what is observed on some path to the node
(`FlowProblem.Distributive.solution`).

Functions of this kind compose, so that a long transfer function is taken apart along its
definition.  All this may depend on an invariant `I` of the states.
-/

section DistributesOn
variable {σ A : Type}

/-- On states with `I`, which `F` keeps, what is observed after `F` is there in any case, or comes
from one observation before it. -/
def DistributesOn (I : σ → Prop) (obs : σ → A → Prop) (F : σ → σ) : Prop :=
  (∀ x, I x → I (F x)) ∧ ∃ (gen : A → Prop) (rel : A → A → Prop),
    ∀ x, I x → ∀ b, obs (F x) b ↔ gen b ∨ ∃ a, obs x a ∧ rel a b

/-- The same on all states. -/
abbrev Distributes (obs : σ → A → Prop) (F : σ → σ) : Prop := DistributesOn (fun _ => True) obs F

theorem Distributes.of_rel {obs : σ → A → Prop} {F : σ → σ} (gen : A → Prop) (rel : A → A → Prop)
    (h : ∀ x b, obs (F x) b ↔ gen b ∨ ∃ a, obs x a ∧ rel a b) : Distributes obs F :=
  ⟨fun _ _ => trivial, gen, rel, fun x _ => h x⟩

namespace DistributesOn
variable {I : σ → Prop} {obs : σ → A → Prop} {F G : σ → σ}

/-- What is not written is observed as before. -/
theorem of_iff (hI : ∀ x, I x → I (F x)) (h : ∀ x, I x → ∀ b, obs (F x) b ↔ obs x b) :
    DistributesOn I obs F :=
  ⟨hI, fun _ => False, Eq, fun x hx b => by rw [h x hx, false_or, exists_eq_right]⟩

theorem refl : DistributesOn I obs fun x => x := .of_iff (fun _ hx => hx) fun _ _ _ => Iff.rfl

theorem comp (hG : DistributesOn I obs G) (hF : DistributesOn I obs F) :
    DistributesOn I obs fun x => G (F x) := by
  obtain ⟨hIF, genF, relF, hF⟩ := hF
  obtain ⟨hIG, genG, relG, hG⟩ := hG
  refine ⟨fun x hx => hIG _ (hIF x hx), fun c => genG c ∨ ∃ b, genF b ∧ relG b c,
    fun a c => ∃ b, relF a b ∧ relG b c, fun x hx c => ?_⟩
  rw [hG _ (hIF x hx)]
  constructor
  · rintro (hc | ⟨b, hb, hbc⟩)
    · exact .inl (.inl hc)
    · rcases (hF x hx b).mp hb with hb | ⟨a, ha, hab⟩
      · exact .inl (.inr ⟨b, hb, hbc⟩)
      · exact .inr ⟨a, ha, b, hab, hbc⟩
  · rintro ((hc | ⟨b, hb, hbc⟩) | ⟨a, ha, b, hab, hbc⟩)
    · exact .inl hc
    · exact .inr ⟨b, (hF x hx b).mpr (.inl hb), hbc⟩
    · exact .inr ⟨b, (hF x hx b).mpr (.inr ⟨a, ha, hab⟩), hbc⟩

theorem mono (h : DistributesOn I obs F) {x y : σ} (hx : I x) (hy : I y)
    (hxy : ∀ a, obs x a → obs y a) (b : A) (hb : obs (F x) b) : obs (F y) b := by
  obtain ⟨-, gen, rel, h⟩ := h
  rw [h x hx] at hb
  rw [h y hy]
  exact hb.imp_right fun ⟨a, ha, hab⟩ => ⟨a, hxy a ha, hab⟩

/-- If the states `T` show all that `x` shows, then they still do afterwards. -/
theorem explained (h : DistributesOn I obs F) {T : σ → Prop} (hT : ∃ p, T p)
    (hTI : ∀ p, T p → I p) {x : σ} (hx : I x) (hxT : ∀ a, obs x a → ∃ p, T p ∧ obs p a) (b : A)
    (hb : obs (F x) b) : ∃ p, T p ∧ obs (F p) b := by
  obtain ⟨-, gen, rel, h⟩ := h
  rcases (h x hx b).mp hb with hb | ⟨a, ha, hab⟩
  · obtain ⟨p, hp⟩ := hT
    exact ⟨p, hp, (h p (hTI p hp) b).mpr (.inl hb)⟩
  · obtain ⟨p, hp, ha⟩ := hxT a ha
    exact ⟨p, hp, (h p (hTI p hp) b).mpr (.inr ⟨a, ha, hab⟩)⟩

end DistributesOn

end DistributesOn

namespace FlowProblem
variable {N σ A : Type} {P : FlowProblem N σ} {I : σ → Prop} {obs : σ → A → Prop}

/-- Edges handle observations one at a time, and merges show what their sides show. -/
structure Distributive (P : FlowProblem N σ) (I : σ → Prop) (obs : σ → A → Prop) : Prop where
  init : I P.init
  flow : ∀ n s, s ∈ P.succs n → DistributesOn I obs fun x => P.flow n x s
  inv : ∀ a e, I a → I e → I (P.discipline.join a e)
  join : ∀ a e, I a → I e → ∀ b, obs (P.discipline.join a e) b ↔ obs a b ∨ obs e b
  keep : ∀ a e, I a → I e → P.discipline.changed a e = false → ∀ b, obs e b → obs a b

theorem Distributive.invariant (h : P.Distributive I obs) : P.Invariant fun _ => I :=
  ⟨h.init, fun n x s hs => (h.flow n s hs).1 x, fun _ => h.inv⟩

variable [DecidableEq N] [Finite N]

/-- A node with an entry state has a path to it, and what is observed of the entry state is
observed on some path. -/
theorem Distributive.observed_on_path (h : P.Distributive I obs) {n : N} {x : σ}
    (hx : P.solution n = some x) :
    (∃ p, P.PathState n p) ∧ I x ∧ ∀ b, obs x b → ∃ p, P.PathState n p ∧ obs p b := by
  have hpathI : ∀ {n p}, P.PathState n p → I p := fun hp => hp.invariant h.invariant
  have hinv : P.Invariant fun n x =>
      (∃ p, P.PathState n p) ∧ I x ∧ ∀ b, obs x b → ∃ p, P.PathState n p ∧ obs p b := by
    refine ⟨⟨⟨_, .start⟩, h.init, fun b hb => ⟨_, .start, hb⟩⟩,
      fun n x s hs ⟨hpaths, hI, hx⟩ => ?_, ?_⟩
    · obtain ⟨p, hp⟩ := hpaths
      refine ⟨⟨_, hp.step hs⟩, (h.flow n s hs).1 x hI, fun b hb => ?_⟩
      obtain ⟨q, hq, hb⟩ := (h.flow n s hs).explained ⟨p, hp⟩ (fun _ => hpathI) hI hx b hb
      exact ⟨_, hq.step hs, hb⟩
    · rintro n a e ⟨hpaths, hIa, ha⟩ ⟨-, hIe, he⟩
      exact ⟨hpaths, h.inv a e hIa hIe,
        fun b hb => ((h.join a e hIa hIe b).mp hb).elim (ha b) (he b)⟩
  exact hinv.solution hx

/-- **Merging loses nothing and makes nothing up**: what is observed of an entry state, after a
function that distributes, is what is observed on some path. -/
theorem Distributive.solution (h : P.Distributive I obs) {F : σ → σ} (hF : DistributesOn I obs F)
    {n : N} {x : σ} (hx : P.solution n = some x) (b : A) :
    obs (F x) b ↔ ∃ p, P.PathState n p ∧ obs (F p) b := by
  have hsim : P.Simulation (fun _ a e => True ∧ I a ∧ I e) fun _ u p =>
      I u ∧ I p ∧ ∀ a, obs p a → obs u a := by
    refine ⟨⟨h.init, h.init, fun _ ha => ha⟩, fun n u p s hs ⟨hu, hp, hup⟩ => ?_, ?_, ?_, ?_⟩
    · have hedge := h.flow n s hs
      exact ⟨hedge.1 u hu, hedge.1 p hp, hedge.mono hp hu hup⟩
    · rintro _ a e p ⟨-, hIa, hIe⟩ ⟨-, hp, hap⟩
      exact ⟨h.inv a e hIa hIe, hp, fun b hb => (h.join a e hIa hIe b).mpr (.inl (hap b hb))⟩
    · rintro _ a e p ⟨-, hIa, hIe⟩ ⟨-, hp, hep⟩
      exact ⟨h.inv a e hIa hIe, hp, fun b hb => (h.join a e hIa hIe b).mpr (.inr (hep b hb))⟩
    · rintro _ a e p ⟨-, hIa, hIe⟩ hch ⟨-, hp, hep⟩
      exact ⟨hIa, hp, fun b hb => h.keep a e hIa hIe hch b (hep b hb)⟩
  obtain ⟨hpaths, hI, hexplained⟩ := h.observed_on_path hx
  constructor
  · exact hF.explained hpaths (fun _ hp => hp.invariant h.invariant) hI hexplained b
  · rintro ⟨p, hp, hb⟩
    obtain ⟨-, hIp, hpx⟩ := run_simulates hsim (runMeets_trivial.and h.invariant) hp hx
    exact hF.mono hIp hI hpx b hb

end FlowProblem
