import Gentest.Runner.CalmRun
import Gentest.Runner.StaticSkip

/-!
# Skipped cases in a run

The test executors honour `should_skip`; `run_measured_cases` does not look at
it. `skips_honoured_iff` says for which selections this makes no difference. Its
converse needs a run that gets to every benchmark and jitter: one in which
everything passes.
-/

namespace Gentest.Runner

open Loops
open AsyncExecutor (Env Batch Run Resume FixtureGroupPlan SuiteExecutionPlan planned runTestsAsyncBatch afterPlans)
open SyncExecutor (Tests SyncRun Trace runTestsSync runTestsAsyncBatchOn)
open Measured (CaseRun runMeasuredCase)

variable {cases : Nat → RegisteredCase} {failFast : Bool}

/-- A run of the tests: the planned occurrences begin in order, all of them
unless the run stops; no skipped case is invoked, and each occurrence of one is
counted once, as skipped or, without its fixture, as blocked. -/
structure TestsRun.HonoursSkips (cases : Nat → RegisteredCase) (plans : List SuiteExecutionPlan) (run : TestsRun) :
    Prop where
  begun : run.started <+: planned plans
  all : run.stopped = false → run.started = planned plans
  invoked : ∀ i ∈ run.invoked, (cases i).shouldSkip = false
  counted : ∀ n i, run.started[n]? = some i → (cases i).shouldSkip = true →
    run.counted.count n = 1 ∧
      (run.ledger.filter (fun entry => entry.1 == n) = [(n, .skip)] ∨
        run.ledger.filter (fun entry => entry.1 == n) = [(n, .blocked)] ∧ n ∈ run.unavailable)

def HonoursSkip (run : CaseRun) : Prop :=
  run.invoked = [] ∧ (CaseRun.outcome run = .skip ∨ CaseRun.outcome run = .blocked ∧ run.failure.phase = "allocation")

structure MeasuredRun.HonoursSkips (cases : Nat → RegisteredCase) (idxs : List Nat) (run : MeasuredRun) : Prop where
  begun : run.runs.map Prod.fst <+: idxs
  skipped : ∀ entry ∈ run.runs, (cases entry.1).shouldSkip = true → HonoursSkip entry.2

structure ExecutionRun.HonoursSkips (cases : Nat → RegisteredCase) (opt : RunOptions) (selection : SelectionResult)
    (run : ExecutionRun) : Prop where
  planned : (planned (buildSuiteExecutionPlan cases selection.testIdxs opt.shuffle)).Perm selection.testIdxs
  tests : ∀ test ∈ run.tests,
    test.HonoursSkips cases (buildSuiteExecutionPlan cases selection.testIdxs opt.shuffle)
  benches : run.benches.HonoursSkips cases selection.benchIdxs
  jitters : run.jitters.HonoursSkips cases selection.jitterIdxs

-- ---------------------------------------------------------------------------
-- The tests
-- ---------------------------------------------------------------------------

theorem count_fst_filter (ledger : List (Nat × Outcome)) (n : Nat) :
    (ledger.map Prod.fst).count n = (ledger.filter fun entry => entry.1 == n).length := by
  rw [List.count, List.countP_map, List.countP_eq_length_filter]
  rfl

theorem honoursSkips_runTestsOnce (behavior : TestsBehavior) (plans : List SuiteExecutionPlan) (state : RunState) :
    (runTestsOnce cases failFast behavior plans state).HonoursSkips cases plans := by
  unfold runTestsOnce
  split
  · have hhonours := SyncExecutor.honours_runTestsAsyncBatchOn (behavior.asyncEnv cases failFast) plans state
    have hbatch := SyncExecutor.batch_runOn (behavior.asyncEnv cases failFast) plans state
    refine ⟨?_, fun hgo => ?_, hhonours.trace.invoked, fun n i hn hskip => ⟨?_, hhonours.trace.counted n i hn hskip⟩⟩
    · simp only [hbatch]
      exact AsyncExecutor.started_of_plans (behavior.asyncEnv cases failFast) plans state
    · have hreturned := congrArg Prod.snd
        (SyncExecutor.erase_runTestsAsyncBatchOn (behavior.asyncEnv cases failFast) plans state)
      simp only [hbatch]
      exact SyncExecutor.all_started_runTestsAsyncBatch (hreturned.trans hgo)
    · simp only [hbatch] at hn ⊢
      exact SyncExecutor.counted_runTestsAsyncBatch hn hskip
  · have hhonours := SyncExecutor.honours_runTestsSync (behavior.syncTests cases failFast) plans state
    refine ⟨SyncExecutor.runTestsSync_started plans state, fun hgo => ?_, hhonours.invoked, fun n i hn hskip => ?_⟩
    · exact (SyncExecutor.runTestsSync_begins plans state).1 hgo
    · have hledger := hhonours.counted n i hn hskip
      refine ⟨?_, hledger⟩
      rw [count_fst_filter]
      rcases hledger with hone | ⟨hone, -⟩
      · rw [hone]; rfl
      · rw [hone]; rfl

theorem honoursSkips_repeatTests (behaviors : Nat → TestsBehavior) (plans : List SuiteExecutionPlan) (repeatN : Nat)
    (state : RunState) :
    ∀ run ∈ (repeatTests cases failFast behaviors plans repeatN state).1, run.HonoursSkips cases plans := by
  refine loopUntil_invariant (P := fun s : List TestsRun × RunState => ∀ run ∈ s.1, run.HonoursSkips cases plans)
    (fun iter _ s h run hmem => ?_) nofun
  rcases List.mem_append.mp hmem with hmem | hmem
  · exact h run hmem
  · rw [List.mem_singleton.mp hmem]
    exact honoursSkips_runTestsOnce (behaviors iter) plans s.2

-- ---------------------------------------------------------------------------
-- Benchmarks and jitters
-- ---------------------------------------------------------------------------

theorem runs_measureCase (kind : Measured.Kind) (behaviors : Nat → MeasuredBehavior) (i : Nat) (s : MeasuredRun) :
    (measureCase cases failFast kind behaviors i s).1.runs.map Prod.fst = s.runs.map Prod.fst ++ [i] := by
  simp [measureCase]

theorem begun_runMeasuredCases (cases : Nat → RegisteredCase) (failFast : Bool) (kind : Measured.Kind) (behaviors : Nat → MeasuredBehavior) (idxs : List Nat) :
    (runMeasuredCases cases failFast kind behaviors idxs).runs.map Prod.fst <+: idxs := by
  obtain ⟨p, hp, hruns⟩ := loopUntil_trace_stopped (m := fun s : MeasuredRun => s.runs.map Prod.fst)
    (s := {}) (fun i s _ => runs_measureCase kind behaviors i s)
    fun i s => ⟨[i], List.prefix_rfl, runs_measureCase kind behaviors i s⟩
  rw [List.flatMap_singleton'] at hp
  rw [runMeasuredCases, hruns]
  exact hp

theorem honoursSkips_runMeasuredCases {idxs : List Nat} (h : ∀ i ∈ idxs, (cases i).shouldSkip = false)
    (kind : Measured.Kind) (behaviors : Nat → MeasuredBehavior) :
    (runMeasuredCases cases failFast kind behaviors idxs).HonoursSkips cases idxs := by
  have hbegun := begun_runMeasuredCases cases failFast kind behaviors idxs
  refine ⟨hbegun, fun entry hmem hskip => ?_⟩
  rw [h entry.1 (hbegun.subset (List.mem_map_of_mem hmem))] at hskip
  cases hskip

-- ---------------------------------------------------------------------------
-- The run
-- ---------------------------------------------------------------------------

theorem honoursSkips_measured {idxs : List Nat} (h : ∀ i ∈ idxs, (cases i).shouldSkip = false) (kind : Measured.Kind)
    (behaviors : Nat → MeasuredBehavior) (begun : Bool) :
    MeasuredRun.HonoursSkips cases idxs (if begun then runMeasuredCases cases failFast kind behaviors idxs else {}) := by
  split
  · exact honoursSkips_runMeasuredCases h kind behaviors
  · exact ⟨List.nil_prefix, nofun⟩

theorem honoursSkips_runExecution {opt : RunOptions} {selection : SelectionResult}
    (hbench : ∀ i ∈ selection.benchIdxs, (cases i).shouldSkip = false)
    (hjitter : ∀ i ∈ selection.jitterIdxs, (cases i).shouldSkip = false) (behavior : RunBehavior) :
    (runExecution cases opt selection behavior).HonoursSkips cases opt selection := by
  unfold runExecution
  refine ⟨planned_perm cases selection.testIdxs opt.shuffle, ?_, honoursSkips_measured hbench .bench behavior.benches _,
    honoursSkips_measured hjitter .jitter behavior.jitters _⟩
  dsimp only
  split
  · exact honoursSkips_repeatTests behavior.tests _ opt.repeatN behavior.state
  · exact nofun

def calmRun (cases : Nat → RegisteredCase) : RunBehavior :=
  { tests := fun _ => calmBehavior fun i => (cases i).toCase }

theorem calm_runExecution (opt : RunOptions) (selection : SelectionResult) :
    (runExecution cases opt selection (calmRun cases)).benches =
        runMeasuredCases cases opt.failFast .bench (fun _ => {}) selection.benchIdxs ∧
      (runExecution cases opt selection (calmRun cases)).jitters =
        runMeasuredCases cases opt.failFast .jitter (fun _ => {}) selection.jitterIdxs := by
  have htests : ∀ begun : Bool, (if begun then repeatTests cases opt.failFast (calmRun cases).tests
      (buildSuiteExecutionPlan cases selection.testIdxs opt.shuffle) opt.repeatN (calmRun cases).state
      else ([], false)).2 = false := by
    intro begun
    split
    · exact calm_repeatTests cases _ opt.repeatN ⟨rfl, rfl⟩
    · rfl
  have hbench := (calm_runMeasuredCases opt.failFast cases .bench selection.benchIdxs).1
  have hgate : (calmRun cases).gateRejected = false := rfl
  have hbehaves : (calmRun cases).benches = fun _ => {} := rfl
  unfold runExecution
  simp only [htests, hgate, hbehaves, hbench, Bool.and_false, Bool.not_false, Bool.and_self, Bool.or_self, if_true]
  exact ⟨trivial, rfl⟩

theorem skip_invoked {idxs : List Nat} {kind : Measured.Kind} {i : Nat}
    (h : (runMeasuredCases cases failFast kind (fun _ => {}) idxs).HonoursSkips cases idxs) (hi : i ∈ idxs) :
    (cases i).shouldSkip = false := by
  by_contra hskip
  obtain ⟨run, hmem, hinvoked⟩ := (calm_runMeasuredCases failFast cases kind idxs).2 i hi
  exact hinvoked (h.skipped (i, run) hmem (by simpa using hskip)).1

/-- Skipped cases are never run and counted once as such, whatever the tests,
the fixtures and the clock do, iff no benchmark or jitter selected is skipped. -/
theorem skips_honoured_iff (cases : Nat → RegisteredCase) (opt : RunOptions) (idxs : List Nat) :
    (∀ behavior, (runExecution cases opt (splitSelectedCases cases idxs) behavior).HonoursSkips cases opt
        (splitSelectedCases cases idxs)) ↔
      ∀ i ∈ idxs, (cases i).isBenchmark = true ∨ (cases i).isJitter = true → (cases i).shouldSkip = false := by
  constructor
  · intro h i hi hkind
    have hcalm := h (calmRun cases)
    obtain ⟨hbench, hjitter⟩ := calm_runExecution opt (splitSelectedCases cases idxs)
    cases hmeasured : (cases i).isBenchmark with
    | true => exact skip_invoked (hbench ▸ hcalm.benches) (by simp [splitSelectedCases, hi, hmeasured])
    | false =>
      have hisJitter : (cases i).isJitter = true := hkind.resolve_left (by simp [hmeasured])
      exact skip_invoked (hjitter ▸ hcalm.jitters) (by simp [splitSelectedCases, hi, hmeasured, hisJitter])
  · intro h behavior
    refine honoursSkips_runExecution (fun i hi => ?_) (fun i hi => ?_) behavior
    · simp only [splitSelectedCases, List.mem_filter] at hi
      exact h i hi.1 (.inl hi.2)
    · simp only [splitSelectedCases, List.mem_filter, Bool.and_eq_true] at hi
      exact h i hi.1 (.inr hi.2.2)

def skippedBench (_ : Nat) : RegisteredCase := { name := "bench", shouldSkip := true, isBenchmark := true }

/-- It is invoked, and counted as passed. -/
theorem skipped_bench_runs :
    ¬ ∀ behavior, (runExecution skippedBench {} (splitSelectedCases skippedBench [0]) behavior).HonoursSkips
      skippedBench {} (splitSelectedCases skippedBench [0]) := by
  intro h
  have hcalm := (h (calmRun skippedBench)).benches
  have hrun : ((runExecution skippedBench {} (splitSelectedCases skippedBench [0]) (calmRun skippedBench)).benches.runs.map
      fun entry => (entry.1, entry.2.invoked.isEmpty, CaseRun.outcome entry.2)) = [(0, false, .pass)] := by
    decide +kernel
  have hmem : (0, false, Outcome.pass) ∈
      (runExecution skippedBench {} (splitSelectedCases skippedBench [0]) (calmRun skippedBench)).benches.runs.map
        fun entry => (entry.1, entry.2.invoked.isEmpty, CaseRun.outcome entry.2) := by
    rw [hrun]
    exact List.mem_singleton.mpr rfl
  obtain ⟨entry, hentry, heq⟩ := List.mem_map.mp hmem
  have hempty : entry.2.invoked.isEmpty = false := congrArg (fun p => p.2.1) heq
  rw [(hcalm.skipped entry hentry rfl).1] at hempty
  cases hempty

end Gentest.Runner
