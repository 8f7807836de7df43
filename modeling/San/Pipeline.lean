import San.LevelSearch
import San.Preconditions
import San.Report
import San.SummaryRounds

/-! # The analysis of a crate

`run_checks` takes the functions of a crate through five passes: it looks for functions of other
crates that are called from them, summarises all of these, extracts what the functions of the
crate require of their callers, runs every checker, and puts the findings through the report.

Functions of other crates are looked for in levels (`San.LevelSearch`), no further than two calls
away and no more than six hundred of them: `discovery_exact`.  The functions come in the order of
the compiler's tables and the checkers in that of a static array.  Neither has an influence on
what is reported, as long as the search for functions is not cut short:
`report_order_insensitive`.
-/
namespace San

/-- What `run_checks` sees of a crate: the compiler, the bodies of functions, the functions,
closures and coroutines of the crate, and which functions of other crates come with their MIR. -/
structure Crate where
  tcx : TyCtxt
  optimizedMir : DefId → Body
  localFns : List DefId
  exportsMir : DefId → Bool

/-- What a checker says about a body, given its flow and what is required of callers, and what it
says about the crate as a whole. -/
structure Checker where
  check : TyCtxt → (body : Body) → FlowResults body → Option PrecondSummaryMap → List Finding
  checkCrate : TyCtxt → List Finding

/-! ## The passes -/

def maxExternalDepth : Nat := 2

def maxExternalFns : Nat := 600

/-- The function items that a body calls, in the order of its blocks. -/
def Body.calledItems (body : Body) : List DefId :=
  (List.finRange body.numBlocks).filterMap fun bb => (body.callSite bb).map CallSite.callee

namespace Crate
variable (c : Crate)

/-- The graph of calls, in which functions of other crates are looked for. -/
def callGraph : LevelSearch DefId where
  next f := (c.optimizedMir f).calledItems
  admits := c.exportsMir
  cap := maxExternalFns

/-- The functions to be summarised: those of the crate, then those found in others. -/
def toSummarize : List DefId :=
  (c.callGraph.search maxExternalDepth (.start c.localFns)).found

/-- The number of functions of other crates among them. -/
def externalCount : Nat := (c.callGraph.search maxExternalDepth (.start c.localFns)).count

def summaries : SummaryMap := computeSummaries c.tcx c.optimizedMir c.toSummarize

def precondSummaries : PrecondSummaryMap :=
  precondMap c.tcx c.optimizedMir c.summaries c.localFns

def flow (did : DefId) : FlowResults (c.optimizedMir did) :=
  flowOfFn c.tcx c.optimizedMir c.summaries did

variable (checkers : List Checker)

/-- What all checkers say about one function. -/
def findingsIn (did : DefId) : List Finding :=
  checkers.flatMap fun checker =>
    checker.check c.tcx (c.optimizedMir did) (c.flow did) (some c.precondSummaries)

/-- All findings, those about the crate as a whole first. -/
def findings : List Finding :=
  (checkers.flatMap fun checker => checker.checkCrate c.tcx) ++
    c.localFns.flatMap (c.findingsIn checkers)

end Crate

def runChecks (c : Crate) (checkers : List Checker) : List Finding :=
  postProcess (c.findings checkers)

/-! ## Functions of other crates -/

/-- `g` can be reached from a function of the crate by at most `n` calls, all to functions that
come with their MIR. -/
def Crate.CalledWithin (c : Crate) (n : Nat) (g : DefId) : Prop :=
  c.callGraph.Reached c.localFns n g

theorem Crate.toSummarize_invariant (c : Crate) : c.callGraph.Invariant c.localFns maxExternalDepth
    (c.callGraph.search maxExternalDepth (.start c.localFns)) := by
  have h := (LevelSearch.Invariant.start c.callGraph c.localFns).search maxExternalDepth
  rwa [Nat.zero_add] at h

/-- **What is summarised.**  First all functions of the crate, in their order, then functions of
other crates, each of them once, at most six hundred, and each within two calls of the crate.  If
they are fewer than that, no function within two calls has been left out. -/
theorem discovery_exact (c : Crate) : ∃ external : List DefId,
    c.toSummarize = c.localFns ++ external ∧ external.length = c.externalCount ∧
      external.length ≤ maxExternalFns ∧ external.Nodup ∧
      (∀ g ∈ external, g ∉ c.localFns ∧ c.exportsMir g = true ∧ c.CalledWithin 2 g) ∧
      (external.length < maxExternalFns →
        ∀ g, c.CalledWithin 2 g → g ∈ c.localFns ∨ g ∈ external) := by
  have h := c.toSummarize_invariant
  obtain ⟨external, hfound, hnodup, hfresh, hcount⟩ := h.added
  refine ⟨external, hfound, hcount.symm, hcount ▸ h.le_cap, hnodup, fun g hg => ?_,
    fun hlt g hg => ?_⟩
  · have hreached := h.reached g (hfound ▸ List.mem_append_right c.localFns hg)
    exact ⟨hfresh g hg, hreached.admits (hfresh g hg), hreached⟩
  · exact List.mem_append.mp (hfound ▸ h.complete (hcount ▸ hlt) g hg)

/-! ## Order -/

section Order
variable (c : Crate) {order : List DefId}

/-- The same crate with its functions in another order. -/
def Crate.withOrder (order : List DefId) : Crate := { c with localFns := order }

/-- The functions to be summarised are the same. -/
theorem Crate.mem_toSummarize_withOrder (hperm : order.Perm c.localFns)
    (hcap : c.externalCount < maxExternalFns) (f : DefId) :
    f ∈ (c.withOrder order).toSummarize ↔ f ∈ c.toSummarize :=
  c.callGraph.mem_found_congr maxExternalDepth (fun _ => hperm.mem_iff.symm) hcap f

theorem Crate.summaries_withOrder (hperm : order.Perm c.localFns)
    (hcap : c.externalCount < maxExternalFns) : (c.withOrder order).summaries = c.summaries :=
  RoundProblem.rounds_congr (c.mem_toSummarize_withOrder hperm hcap) maxSummaryRounds ∅

theorem precondMap_congr {tcx : TyCtxt} {optimizedMir : DefId → Body} {summaries : SummaryMap}
    {fns fns' : List DefId} (h : ∀ f, f ∈ fns ↔ f ∈ fns') :
    precondMap tcx optimizedMir summaries fns = precondMap tcx optimizedMir summaries fns' := by
  refine FMap.ext fun f => Option.ext fun ps => ?_
  rw [get_precondMap, get_precondMap, h]

theorem Crate.precondSummaries_withOrder (hperm : order.Perm c.localFns)
    (hcap : c.externalCount < maxExternalFns) :
    (c.withOrder order).precondSummaries = c.precondSummaries := by
  unfold Crate.precondSummaries
  rw [c.summaries_withOrder hperm hcap]
  exact precondMap_congr fun _ => hperm.mem_iff

/-- What is said about one function is the same. -/
theorem Crate.findingsIn_withOrder (hperm : order.Perm c.localFns)
    (hcap : c.externalCount < maxExternalFns) (checkers : List Checker) (did : DefId) :
    (c.withOrder order).findingsIn checkers did = c.findingsIn checkers did := by
  unfold Crate.findingsIn Crate.flow
  rw [c.summaries_withOrder hperm hcap, c.precondSummaries_withOrder hperm hcap]
  rfl

/-- **The report does not depend on the order of functions and checkers.**  If fewer functions of
other crates are found than allowed, then listing the functions of the crate and the checkers in
any other order gives the same rules at the same source ranges. -/
theorem report_order_insensitive (hperm : order.Perm c.localFns)
    (hcap : c.externalCount < maxExternalFns) {checkers checkers' : List Checker}
    (hcheckers : checkers'.Perm checkers) (k : String × Nat × Nat) :
    k ∈ (runChecks (c.withOrder order) checkers').map Finding.key ↔
      k ∈ (runChecks c checkers).map Finding.key := by
  have hin : ∀ did, (c.withOrder order).findingsIn checkers' did =
      c.findingsIn checkers' did := c.findingsIn_withOrder hperm hcap checkers'
  have hfindings : ((c.withOrder order).findings checkers').Perm (c.findings checkers) := by
    unfold Crate.findings
    rw [funext hin]
    refine (hcheckers.flatMap_right _).append ?_
    refine (hperm.flatMap_right _).trans (List.Perm.flatMap_left _ fun did _ => ?_)
    exact hcheckers.flatMap_right _
  have hkeys : ∀ k, k ∈ ((c.withOrder order).findings checkers').map Finding.key ↔
      k ∈ (c.findings checkers).map Finding.key := fun _ => (hfindings.map Finding.key).mem_iff
  unfold runChecks
  rw [mem_keys_postProcess, mem_keys_postProcess, hkeys, covered_congr hkeys]

end Order

/-- The checker of changes to the environment. -/
def EnvSetVar.checker : Checker := ⟨fun tcx _ flow _ => EnvSetVar.check tcx flow, fun _ => []⟩

/-- Two functions that change the environment, the second of them after it has spawned a thread. -/
def twoSetters : Crate where
  tcx := envPaths
  optimizedMir f := setsVariable (f.index == 1)
  localFns := [⟨0, 0⟩, ⟨0, 1⟩]
  exportsMir _ := false

/-- Either order of the two functions gives a finding at their common source range, or neither. -/
theorem report_order_insensitive_setters :
    ("env_set_var", 0, 0) ∈ (runChecks (twoSetters.withOrder [⟨0, 1⟩, ⟨0, 0⟩])
        [EnvSetVar.checker]).map Finding.key ↔
      ("env_set_var", 0, 0) ∈ (runChecks twoSetters [EnvSetVar.checker]).map Finding.key :=
  report_order_insensitive twoSetters (by decide) (by decide) (List.Perm.refl _) _

end San
