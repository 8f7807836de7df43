import San.CallChecks
import San.KeyedDedup

/-! # The report

At the end of `run_checks` the findings of all checkers on all bodies are put through two
`retain` passes.  The first keeps one finding for each rule and source range.  The second drops
the findings of the backstop rule `unsafe_fn_call` that overlap a finding of another rule.

What is reported of a list of findings, as rules at source ranges, does not depend on the order
of the list (`post_process_spec`).  How severe it is does: of two duplicates the first is kept,
so a warning that was produced before an error hides it (`severity_kept_iff`).
-/
namespace San

/-! ## The two passes -/

/-- What two findings must share for one of them to be dropped. -/
def Finding.key (f : Finding) : String × Nat × Nat := (f.ruleId, f.span.lo, f.span.hi)

/-- The rule whose findings give way to those of any other rule. -/
def backstopRule : String := "unsafe_fn_call"

/-- The first pass: `seen.insert((f.rule_id, f.span.lo(), f.span.hi()))`. -/
def dedupFindings (findings : List Finding) : List Finding := retainUnseen Finding.key ∅ findings

/-- The order of `(BytePos, BytePos)`. -/
def spanLe (a b : Nat × Nat) : Prop := a.1 < b.1 ∨ a.1 = b.1 ∧ a.2 ≤ b.2

instance : DecidableRel spanLe := fun _ _ => inferInstanceAs (Decidable (_ ∨ _ ∧ _))

/-- The source ranges on which a rule other than the backstop spoke, sorted. -/
def coveredSpans (findings : List Finding) : List (Nat × Nat) :=
  ((findings.filter fun f => decide (f.ruleId ≠ backstopRule)).map fun f =>
    (f.span.lo, f.span.hi)).insertionSort spanLe

/-- The second pass. -/
def dropCovered (findings : List Finding) : List Finding :=
  let covered := coveredSpans findings
  findings.filter fun f =>
    if f.ruleId ≠ backstopRule then true
    else !covered.any fun c => decide (c.1 < f.span.hi) && decide (f.span.lo < c.2)

/-- What `run_checks` returns for the findings it collected. -/
def postProcess (findings : List Finding) : List Finding := dropCovered (dedupFindings findings)

/-! ## What is reported -/

/-- Some finding of a rule other than the backstop intersects the range from `lo` to `hi`. -/
def Covered (findings : List Finding) (lo hi : Nat) : Prop :=
  ∃ g ∈ findings, g.ruleId ≠ backstopRule ∧ g.span.lo < hi ∧ lo < g.span.hi

theorem mem_coveredSpans {findings : List Finding} {c : Nat × Nat} :
    c ∈ coveredSpans findings ↔
      ∃ g ∈ findings, g.ruleId ≠ backstopRule ∧ (g.span.lo, g.span.hi) = c := by
  unfold coveredSpans
  rw [List.mem_insertionSort, List.mem_map]
  simp only [List.mem_filter, decide_eq_true_eq, and_assoc]

theorem mem_dropCovered {findings : List Finding} {f : Finding} :
    f ∈ dropCovered findings ↔
      f ∈ findings ∧ (f.ruleId = backstopRule → ¬Covered findings f.span.lo f.span.hi) := by
  unfold dropCovered
  rw [List.mem_filter]
  refine and_congr_right fun _ => ?_
  by_cases hrule : f.ruleId = backstopRule
  · simp only [hrule, ne_eq, not_true, if_false, Bool.not_eq_true', List.any_eq_false,
      Bool.and_eq_true, decide_eq_true_eq, forall_true_left]
    constructor
    · rintro hnone ⟨g, hg, hother, hlo, hhi⟩
      exact hnone _ (mem_coveredSpans.mpr ⟨g, hg, hother, rfl⟩) ⟨hlo, hhi⟩
    · rintro hcovered c hc ⟨hlo, hhi⟩
      obtain ⟨g, hg, hother, rfl⟩ := mem_coveredSpans.mp hc
      exact hcovered ⟨g, hg, hother, hlo, hhi⟩
  · simp only [hrule, ne_eq, not_false_eq_true, if_true, false_implies]

/-- Whether a range is covered can be read off the keys of the findings. -/
theorem covered_iff_keys {findings : List Finding} {lo hi : Nat} :
    Covered findings lo hi ↔
      ∃ k ∈ findings.map Finding.key, k.1 ≠ backstopRule ∧ k.2.1 < hi ∧ lo < k.2.2 := by
  simp only [List.mem_map, exists_exists_and_eq_and]
  rfl

/-- Lists with the same keys cover the same ranges. -/
theorem covered_congr {a b : List Finding}
    (h : ∀ k, k ∈ a.map Finding.key ↔ k ∈ b.map Finding.key) (lo hi : Nat) :
    Covered a lo hi ↔ Covered b lo hi := by
  simp only [covered_iff_keys, h]

theorem mem_keys_dedupFindings (findings : List Finding) (k : String × Nat × Nat) :
    k ∈ (dedupFindings findings).map Finding.key ↔ k ∈ findings.map Finding.key :=
  (mem_keys_retainUnseen Finding.key).trans (and_iff_left (Finset.notMem_empty k))

/-- **What is reported**, as a rule at a source range: what some finding has, unless it is of
the backstop rule and covered by another one. -/
theorem mem_keys_postProcess {findings : List Finding} {k : String × Nat × Nat} :
    k ∈ (postProcess findings).map Finding.key ↔
      k ∈ findings.map Finding.key ∧
        (k.1 = backstopRule → ¬Covered findings k.2.1 k.2.2) := by
  have hcovered := covered_congr (mem_keys_dedupFindings findings)
  rw [← mem_keys_dedupFindings findings]
  constructor
  · intro hk
    obtain ⟨f, hf, rfl⟩ := List.mem_map.mp hk
    obtain ⟨hmem, hkeep⟩ := mem_dropCovered.mp hf
    exact ⟨List.mem_map_of_mem hmem, fun hrule h => hkeep hrule ((hcovered _ _).mpr h)⟩
  · rintro ⟨hk, hkeep⟩
    obtain ⟨f, hf, rfl⟩ := List.mem_map.mp hk
    refine List.mem_map_of_mem (mem_dropCovered.mpr ⟨hf, fun hrule h => ?_⟩)
    exact hkeep hrule ((hcovered _ _).mp h)

theorem postProcess_sublist (findings : List Finding) : (postProcess findings).Sublist findings :=
  List.filter_sublist.trans (retainUnseen_sublist _ _ _)

theorem nodup_keys_postProcess (findings : List Finding) :
    ((postProcess findings).map Finding.key).Nodup :=
  (nodup_keys_retainUnseen Finding.key ∅ findings).sublist (List.filter_sublist.map _)

/-- Nothing is left to drop. -/
theorem postProcess_idem (findings : List Finding) :
    postProcess (postProcess findings) = postProcess findings := by
  have hdedup : dedupFindings (postProcess findings) = postProcess findings :=
    retainUnseen_eq_self _ (nodup_keys_postProcess findings) fun _ _ => Finset.notMem_empty _
  unfold postProcess at hdedup ⊢
  rw [hdedup]
  refine List.filter_eq_self.mpr fun f hf => ?_
  have hfilter : f ∈ dropCovered (dropCovered (dedupFindings findings)) := by
    refine mem_dropCovered.mpr ⟨hf, fun hrule => ?_⟩
    rintro ⟨g, hg, hother, hrange⟩
    exact (mem_dropCovered.mp hf).2 hrule ⟨g, (mem_dropCovered.mp hg).1, hother, hrange⟩
  exact (List.mem_filter.mp hfilter).2

/-- **The report loses nothing but duplicates and covered backstops.**  It is a sublist of the
findings without two for the same rule and range; every rule but the backstop keeps all its
ranges; the backstop keeps those that no other rule intersects; the order of the findings has no
influence on the rules and ranges reported; and post-processing the report changes nothing. -/
theorem post_process_spec (findings : List Finding) :
    (postProcess findings).Sublist findings ∧
      (postProcess findings).Pairwise (fun f g => f.key ≠ g.key) ∧
      (∀ f ∈ findings, f.ruleId ≠ backstopRule → f.key ∈ (postProcess findings).map Finding.key) ∧
      (∀ lo hi, (backstopRule, lo, hi) ∈ (postProcess findings).map Finding.key ↔
        (backstopRule, lo, hi) ∈ findings.map Finding.key ∧
          ∀ g ∈ findings, g.ruleId ≠ backstopRule → ¬(g.span.lo < hi ∧ lo < g.span.hi)) ∧
      (∀ shuffled, shuffled.Perm findings → ∀ k,
        k ∈ (postProcess shuffled).map Finding.key ↔ k ∈ (postProcess findings).map Finding.key) ∧
      postProcess (postProcess findings) = postProcess findings := by
  refine ⟨postProcess_sublist findings, List.pairwise_map.mp (nodup_keys_postProcess findings),
    fun f hf hother => ?_, fun lo hi => ?_, fun shuffled hperm k => ?_, postProcess_idem findings⟩
  · exact mem_keys_postProcess.mpr ⟨List.mem_map_of_mem hf, fun hrule => absurd hrule hother⟩
  · rw [mem_keys_postProcess]
    refine and_congr_right fun _ => ⟨fun h g hg hother hrange => ?_, fun h _ => ?_⟩
    · exact h rfl ⟨g, hg, hother, hrange⟩
    · rintro ⟨g, hg, hother, hrange⟩
      exact h g hg hother hrange
  · have hkeys : ∀ k, k ∈ shuffled.map Finding.key ↔ k ∈ findings.map Finding.key :=
      fun _ => (hperm.map Finding.key).mem_iff
    rw [mem_keys_postProcess, mem_keys_postProcess, hkeys, covered_congr hkeys]

/-! ## How severe it is -/

/-- `Error` above `Warning` above `Info`. -/
def Severity.rank : Severity → Nat
  | .error => 2
  | .warning => 1
  | .info => 0

theorem Severity.rank_injective : Function.Injective Severity.rank := by
  intro a b h
  cases a <;> cases b <;> first | rfl | cases h

/-- Every finding but those of the backstop rule has a representative that is at least as
severe. -/
def SeverityKept (findings : List Finding) : Prop :=
  ∀ f ∈ findings, f.ruleId ≠ backstopRule →
    ∃ g ∈ dedupFindings findings, g.key = f.key ∧ f.severity.rank ≤ g.severity.rank

instance (findings : List Finding) : Decidable (SeverityKept findings) :=
  inferInstanceAs (Decidable (∀ f ∈ findings, f.ruleId ≠ backstopRule → ∃ g ∈ _, _))

/-- A finding that comes first hides all others with its key. -/
theorem eq_of_mem_dedup_cons {f g : Finding} {l : List Finding} (hg : g ∈ dedupFindings (f :: l))
    (hkey : g.key = f.key) : g = f :=
  List.inj_on_of_nodup_map (nodup_keys_retainUnseen Finding.key ∅ (f :: l)) hg
    (head_mem_retainUnseen Finding.key l (Finset.notMem_empty _)) hkey

/-! ## A rule with two severities -/

namespace EnvSetVar

/-- The name and the note to report for a callee, if it changes the environment. -/
def description (path : String) : Option (String × String) :=
  if endsWith path "env::set_var" then
    some ("env::set_var",
      "not thread-safe on POSIX: concurrent reads of the environment " ++
      "(from any thread, signal handler, or C code) are a data race; " ++
      "only safe before the first `thread::spawn` call; " ++
      "prefer `Command::env` to set vars for child processes")
  else if endsWith path "env::remove_var" then
    some ("env::remove_var",
      "not thread-safe on POSIX: concurrent reads of the environment " ++
      "(from any thread, signal handler, or C code) are a data race; " ++
      "only safe before the first `thread::spawn` call; " ++
      "prefer `Command::env_remove` to remove vars for child processes")
  else none

/-- A change of the environment is an error once a thread may have been spawned. -/
def checkCall (path : String) (call : CallSite) (state : Option BlockState) : Option Finding :=
  (description path).map fun (fnName, note) =>
    if state.any BlockState.threadSpawned then
      ⟨"env_set_var", .error, call.span,
        "CONCURRENT: `" ++ fnName ++ "` called after `thread::spawn` — " ++ note ++
        " (thread-safety violation confirmed by dataflow)"⟩
    else ⟨"env_set_var", .warning, call.span, "`" ++ fnName ++ "` — " ++ note⟩

def check (tcx : TyCtxt) {body : Body} (flow : FlowResults body) : List Finding :=
  checkCalls tcx flow checkCall

end EnvSetVar

/-- A function that sets a variable, after it has spawned a thread if `spawns`. -/
def setsVariable (spawns : Bool) : Body :=
  .ofBlocks 0 0 [.other] 2 (fun bb =>
    [.of [] (if spawns then .callTo 1 [] 0 (bb 1) else .goto (bb 1)),
      .of [] (.callTo 2 [] 0 (bb 2)), .of [] .return]) (by cases spawns <;> decide)

def envPaths : TyCtxt := .ofPaths ["f", "std::thread::spawn", "std::env::set_var"]

/-- The state before the call that sets the variable. -/
theorem setsVariable_spawned (spawns : Bool) : ∃ s,
    (computeFlow envPaths (setsVariable spawns) ∅).stateBeforeTerminator envPaths (1 : Fin 3) =
      some s ∧ s.threadSpawned = spawns := by
  have hdone : ((AssumeInit.flowOf envPaths (setsVariable spawns) ∅).step^[3]
      (AssumeInit.flowOf envPaths (setsVariable spawns) ∅).initial).work = [] := by
    cases spawns <;> decide +kernel
  obtain ⟨s, hs, hspawned⟩ := FlowProblem.exists_solution hdone (n := (1 : Fin 3))
    (q := fun s => s.threadSpawned == spawns) (by cases spawns <;> decide +kernel)
  exact ⟨s, congrArg (Option.map _) hs, beq_iff_eq.mp hspawned⟩

/-- The checker says one thing about the function, and how severe it is depends on the spawn. -/
theorem check_setsVariable (spawns : Bool) : ∃ f,
    EnvSetVar.check envPaths (computeFlow envPaths (setsVariable spawns) ∅) = [f] ∧
      f.key = ("env_set_var", 0, 0) ∧ f.severity = if spawns then .error else .warning := by
  obtain ⟨s, hs, hspawned⟩ := setsVariable_spawned spawns
  let verdict : Fin 3 → Option Finding :=
    checkCallIn envPaths (computeFlow envPaths (setsVariable spawns) ∅) EnvSetVar.checkCall
  have hcheck : EnvSetVar.check envPaths (computeFlow envPaths (setsVariable spawns) ∅) =
      [0, 1, 2].filterMap verdict := rfl
  have hfirst : verdict 0 = none := by cases spawns <;> rfl
  have hlast : verdict 2 = none := rfl
  have hsite : (setsVariable spawns).callSite (1 : Fin 3) =
      some ⟨⟨0, 2⟩, [], Place.ofLocal (Local.ofNat 0), .none⟩ := rfl
  have hcall : verdict 1 = EnvSetVar.checkCall "std::env::set_var"
      ⟨⟨0, 2⟩, [], Place.ofLocal (Local.ofNat 0), .none⟩ (some s) :=
    checkCallIn_eq hsite hs
  have hdesc : EnvSetVar.description "std::env::set_var" ≠ none := by decide +kernel
  obtain ⟨⟨fnName, note⟩, hdesc⟩ := Option.ne_none_iff_exists'.mp hdesc
  unfold EnvSetVar.checkCall at hcall
  rw [hdesc, Option.any_some, hspawned] at hcall
  rw [hcheck, List.filterMap_cons_none hfirst, List.filterMap_cons_some hcall,
    List.filterMap_cons_none hlast]
  cases spawns <;> exact ⟨_, rfl, rfl, rfl⟩

/-! ## Duplicates that disagree -/

/-- **Severity survives in every order exactly when duplicates agree on it.** -/
theorem severity_kept_iff (findings : List Finding) :
    (∀ shuffled, shuffled.Perm findings → SeverityKept shuffled) ↔
      ∀ f ∈ findings, ∀ g ∈ findings, f.ruleId ≠ backstopRule → f.key = g.key →
        f.severity = g.severity := by
  constructor
  · intro hkept f hf g hg hother hkey
    -- put one of the two first: it is the survivor, so the other is no more severe
    have hle : ∀ a ∈ findings, ∀ b ∈ findings, b.ruleId ≠ backstopRule → b.key = a.key →
        b.severity.rank ≤ a.severity.rank := by
      intro a ha b hb hrule hba
      obtain ⟨c, hc, hcb, hrank⟩ := hkept _ (List.perm_cons_erase ha).symm b
        ((List.perm_cons_erase ha).mem_iff.mp hb) hrule
      rw [eq_of_mem_dedup_cons hc (hcb.trans hba)] at hrank
      exact hrank
    have hother' : g.ruleId ≠ backstopRule := fun h => hother ((congrArg Prod.fst hkey).trans h)
    exact Severity.rank_injective
      (Nat.le_antisymm (hle g hg f hf hother hkey) (hle f hf g hg hother' hkey.symm))
  · intro hagree shuffled hperm f hf hother
    obtain ⟨g, hg, hkey⟩ := List.mem_map.mp
      ((mem_keys_dedupFindings _ _).mpr (List.mem_map_of_mem (f := Finding.key) hf))
    have hgmem : g ∈ findings :=
      hperm.mem_iff.mp ((retainUnseen_sublist Finding.key ∅ shuffled).subset hg)
    have heq := hagree f (hperm.mem_iff.mp hf) g hgmem hother hkey.symm
    exact ⟨g, hg, hkey, le_of_eq (congrArg Severity.rank heq)⟩

/-- **The warning of one function hides the error of another.**  Two functions that a macro
expands to share their source ranges.  The one that is checked first only sets a variable; the
one that is checked second spawns a thread before it does, and its error is dropped. -/
theorem error_hidden_by_warning :
    ¬SeverityKept
      (EnvSetVar.check envPaths (computeFlow envPaths (setsVariable false) ∅) ++
        EnvSetVar.check envPaths (computeFlow envPaths (setsVariable true) ∅)) := by
  obtain ⟨w, hw, hwkey, hwarning⟩ := check_setsVariable false
  obtain ⟨e, he, hekey, herror⟩ := check_setsVariable true
  rw [hw, he]
  intro hkept
  have hother : e.ruleId ≠ backstopRule := by
    rw [show e.ruleId = "env_set_var" from congrArg Prod.fst hekey]
    decide
  obtain ⟨g, hg, hkey, hrank⟩ := hkept e (by simp) hother
  rw [eq_of_mem_dedup_cons hg (hkey.trans (hekey.trans hwkey.symm)), hwarning, herror] at hrank
  exact absurd hrank (by decide)

end San
