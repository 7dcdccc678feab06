import Gentest.Measured.MeasuredCase
import Gentest.Runner.SyncExecutor
import Gentest.Runner.TestPlan

/-!
# A run

`run_tests_once`, `run_measured_cases` and `run_execution` between the set-up
and the teardown of the shared fixtures: the tests, as often as they are
repeated, the benchmarks, the jitters. Reports and output are left out.
-/

namespace Gentest.Runner

open Loops (loopUntil)
open AsyncExecutor (Env Batch SuiteExecutionPlan planned runTestsAsyncBatch)
open SyncExecutor (Tests Trace runTestsSync runTestsAsyncBatchOn)
open Measured (CaseRun Fn Kind Timing runMeasuredCase)

-- ---------------------------------------------------------------------------
-- The tests
-- ---------------------------------------------------------------------------

/-- What one run of the tests did: the cases begun, and the occurrences
counted. -/
structure TestsRun extends Trace where
  state : RunState
  started : List Nat
  counted : List Nat
  stopped : Bool
  deriving DecidableEq, Repr

structure TestsBehavior where
  env : Env
  tests : Tests

variable (cases : Nat → RegisteredCase) (failFast : Bool)

def plansIncludeAsyncCases (plans : List SuiteExecutionPlan) : Bool :=
  plans.any fun plan =>
    plan.freeLike.any (fun i => (cases i).hasAsyncFn) ||
      plan.suiteGroups.any (fun group => group.idxs.any fun i => (cases i).hasAsyncFn) ||
      plan.globalGroups.any fun group => group.idxs.any fun i => (cases i).hasAsyncFn

def TestsBehavior.asyncEnv (behavior : TestsBehavior) : Env :=
  { behavior.env with cases := fun i => (cases i).toCase, failFast := failFast }

def TestsBehavior.syncTests (behavior : TestsBehavior) : Tests :=
  { behavior.tests with cases := fun i => (cases i).toCase, failFast := failFast }

def runTestsOnce (behavior : TestsBehavior) (plans : List SuiteExecutionPlan) (state : RunState) : TestsRun :=
  if plansIncludeAsyncCases cases plans then
    let out := runTestsAsyncBatchOn (fun _ => behavior.asyncEnv cases failFast) plans state
    let b := out.1.batch
    ⟨out.1.toTrace, b.state, b.started, b.counted, out.2⟩
  else
    let out := runTestsSync (behavior.syncTests cases failFast) plans state
    ⟨out.1.toTrace, out.1.state, out.1.started, out.1.ledger.map Prod.fst, out.2⟩

/-- One iteration over `repeat_n`. -/
def runIteration (behaviors : Nat → TestsBehavior) (plans : List SuiteExecutionPlan) (iter : Nat)
    (s : List TestsRun × RunState) : (List TestsRun × RunState) × Bool :=
  let run := runTestsOnce cases failFast (behaviors iter) plans s.2
  ((s.1 ++ [run], run.state), run.stopped)

def repeatTests (behaviors : Nat → TestsBehavior) (plans : List SuiteExecutionPlan) (repeatN : Nat)
    (state : RunState) : List TestsRun × Bool :=
  let out := loopUntil (runIteration cases failFast behaviors plans) (List.range repeatN) ([], state)
  (out.1.1, out.2)

-- ---------------------------------------------------------------------------
-- Benchmarks and jitters
-- ---------------------------------------------------------------------------

structure TimedRunStatus where
  ok : Bool := true
  stopped : Bool := false
  total : Nat := 0
  passed : Nat := 0
  skipped : Nat := 0
  blocked : Nat := 0
  failed : Nat := 0
  deriving DecidableEq, Repr

/-- A measured case as it is reached: its fixture, its function and the clock. -/
structure MeasuredBehavior where
  acquired : Option String := none
  fn : Fn := {}
  timing : Timing := {}

structure MeasuredRun where
  status : TimedRunStatus := {}
  runs : List (Nat × CaseRun) := []
  deriving DecidableEq, Repr

def CaseRun.outcome (run : CaseRun) : Outcome :=
  if run.passed then .pass
  else if run.failure.skipped then (if run.failure.infraFailure then .blocked else .skip)
  else .fail

def TimedRunStatus.count (s : TimedRunStatus) : Outcome → TimedRunStatus
  | .pass => { s with passed := s.passed + 1 }
  | .skip => { s with skipped := s.skipped + 1 }
  | .blocked => { s with ok := false, blocked := s.blocked + 1 }
  | _ => { s with ok := false, failed := s.failed + 1 }

/-- One iteration of `run_measured_cases`. -/
def measureCase (kind : Kind) (behaviors : Nat → MeasuredBehavior) (i : Nat) (s : MeasuredRun) : MeasuredRun × Bool :=
  let behavior := behaviors s.runs.length
  let run := runMeasuredCase (cases i).toCase kind behavior.timing behavior.acquired behavior.fn
  let outcome := CaseRun.outcome run
  let status := { s.status with total := s.status.total + 1 }.count outcome
  let stop := failFast && (outcome == .blocked || outcome == .fail)
  (⟨{ status with stopped := stop }, s.runs ++ [(i, run)]⟩, stop)

def runMeasuredCases (kind : Kind) (behaviors : Nat → MeasuredBehavior) (idxs : List Nat) : MeasuredRun :=
  (loopUntil (measureCase cases failFast kind behaviors) idxs {}).1

-- ---------------------------------------------------------------------------
-- run_execution
-- ---------------------------------------------------------------------------

structure RunOptions where
  failFast : Bool := false
  repeatN : Nat := 1
  shuffle : Option (Shuffle × UInt64) := none

structure RunBehavior where
  /-- Whether the fixture runtime rejects the run. -/
  gateRejected : Bool := false
  /-- The state the tests begin in. -/
  state : RunState := {}
  tests : Nat → TestsBehavior
  benches : Nat → MeasuredBehavior := fun _ => {}
  jitters : Nat → MeasuredBehavior := fun _ => {}

structure ExecutionRun where
  tests : List TestsRun := []
  benches : MeasuredRun := {}
  jitters : MeasuredRun := {}
  deriving DecidableEq, Repr

def runExecution (opt : RunOptions) (selection : SelectionResult) (behavior : RunBehavior) : ExecutionRun :=
  let plans := buildSuiteExecutionPlan cases selection.testIdxs opt.shuffle
  let tests : List TestsRun × Bool :=
    if !behavior.gateRejected && !selection.testIdxs.isEmpty then
      repeatTests cases opt.failFast behavior.tests plans opt.repeatN behavior.state
    else ([], false)
  let benches : MeasuredRun :=
    if !behavior.gateRejected && !(opt.failFast && tests.2) then
      runMeasuredCases cases opt.failFast .bench behavior.benches selection.benchIdxs
    else {}
  let jitters : MeasuredRun :=
    if !behavior.gateRejected && !(opt.failFast && (tests.2 || benches.status.stopped)) then
      runMeasuredCases cases opt.failFast .jitter behavior.jitters selection.jitterIdxs
    else {}
  ⟨tests.1, benches, jitters⟩

end Gentest.Runner
