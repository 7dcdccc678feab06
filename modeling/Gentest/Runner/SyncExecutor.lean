import Gentest.Runner.AsyncExecutor

/-!
# The synchronous executor

`run_tests_sync`, and the async batch executor on cases without an async
function. Both take what a case does from its occurrence: the n-th case begun
behaves the same whichever executor runs it, and a fixture group is available
or not by the occurrence that would begin next.
-/

namespace Gentest.Runner.SyncExecutor

open Loops (loopUntil)
open AsyncExecutor

structure Tests where
  cases : Nat → Case
  failFast : Bool
  invoke : Nat → InvokeResult
  /-- The reason when `acquire_case_fixture` fails for a group. -/
  fixture : Nat → Option String

-- ---------------------------------------------------------------------------
-- run_tests_sync
-- ---------------------------------------------------------------------------

/-- What a run of the tests has done so far, beside its state: the arguments of
the `record_case_result` calls, the cases whose `fn` or `async_fn` was called,
the occurrences counted when they were begun with what they were counted as,
and those of groups without their fixture. -/
structure Trace where
  results : List (Nat × RunResult) := []
  invoked : List Nat := []
  ledger : List (Nat × Outcome) := []
  unavailable : List Nat := []
  deriving DecidableEq, Repr

structure SyncRun extends Trace where
  state : RunState
  started : List Nat := []
  deriving DecidableEq, Repr

variable (tests : Tests)

def shouldStopAfterFailure (counters : TestCounters) : Bool :=
  tests.failFast && (counters.failures > 0 || counters.blocked > 0)

/-- `if (!state.acc) return; record_case_result(*state.acc, test, rr, ...)`. -/
def SyncRun.record (s : SyncRun) (i : Nat) (test : Case) (rr : RunResult) : SyncRun :=
  { s with
    state := s.state.record test rr
    results := if s.state.acc.isSome then s.results ++ [(i, rr)] else s.results }

def executeOne (i : Nat) (s : SyncRun) : RunResult × SyncRun :=
  let test := tests.cases i
  let n := s.started.length
  let begun := { s with started := s.started ++ [i] }
  if test.shouldSkip then
    let out := makeStaticSkipResult test s.state
    (out.1, { begun with state := out.2, ledger := s.ledger ++ [(n, out.1.outcome)] })
  else
    let out := finishInvokeResult test (tests.invoke n) s.state.countTotal
    (out.1, { begun with state := out.2, invoked := s.invoked ++ [i], ledger := s.ledger ++ [(n, out.1.outcome)] })

def executeAndRecord (i : Nat) (s : SyncRun) : SyncRun :=
  let out := executeOne tests i s
  out.2.record i (tests.cases i) out.1

def runCase (i : Nat) (s : SyncRun) : SyncRun × Bool :=
  let s := executeAndRecord tests i s
  (s, shouldStopAfterFailure tests s.state.counters)

def skipCase (msg : String) (i : Nat) (s : SyncRun) : SyncRun × Bool :=
  let n := s.started.length
  let s :=
    { s with
      state := recordSyntheticSkip (tests.cases i) msg true s.state
      started := s.started ++ [i]
      results := if s.state.acc.isSome then s.results ++ [(i, syntheticSkipResult msg true)] else s.results
      ledger := s.ledger ++ [(n, (syntheticSkipResult msg true).outcome)]
      unavailable := s.unavailable ++ [n] }
  (s, shouldStopAfterFailure tests s.state.counters)

def runGroup (group : FixtureGroupPlan) (s : SyncRun) : SyncRun × Bool :=
  let fixture := if group.idxs.isEmpty then none else tests.fixture s.started.length
  match fixture with
  | some reason => loopUntil (skipCase tests (sharedFixtureUnavailableMessage group.fixture reason)) group.idxs s
  | none => loopUntil (runCase tests) group.idxs s

def runSyncPlan (plan : SuiteExecutionPlan) (s : SyncRun) : SyncRun × Bool :=
  let out := loopUntil (runCase tests) plan.freeLike s
  if out.2 then out
  else
    let out := loopUntil (runGroup tests) plan.suiteGroups out.1
    if out.2 then out else loopUntil (runGroup tests) plan.globalGroups out.1

def runTestsSync (plans : List SuiteExecutionPlan) (state : RunState) : SyncRun × Bool :=
  loopUntil (runSyncPlan tests) plans { state }

-- ---------------------------------------------------------------------------
-- run_tests_async_batch, with its record_case_result calls
-- ---------------------------------------------------------------------------

/-- A batch with its trace. An async case is counted when its run ends, which
is not in the ledger. -/
structure Traced extends Trace where
  batch : Batch
  deriving DecidableEq, Repr

/-- What `handle_case` passes to `record_case_result`, in the state after the
first pumping. -/
def caseResult (env : Env) (i : Nat) (b : Batch) : RunResult :=
  let test := env.cases i
  if test.shouldSkip then (makeStaticSkipResult test b.state).1
  else (finishInvokeResult test (env.invoke b.clock) b.state.countTotal).1

def Trace.note (t : Trace) (acc : Option RunAccumulator) (i : Nat) (rr : RunResult) : List (Nat × RunResult) :=
  if acc.isSome then t.results ++ [(i, rr)] else t.results

def Trace.handle (t : Trace) (env : Env) (i : Nat) (b : Batch) : Trace :=
  let test := env.cases i
  let rr := caseResult env i b
  if test.shouldSkip then { t with results := t.note b.state.acc i rr, ledger := t.ledger ++ [(b.next, rr.outcome)] }
  else if test.hasAsyncFn then { t with invoked := t.invoked ++ [i] }
  else
    { t with
      results := t.note b.state.acc i rr
      invoked := t.invoked ++ [i]
      ledger := t.ledger ++ [(b.next, rr.outcome)] }

variable (answers : Batch → Env)

/-- `handle_case`; the environment may answer by all that was done so far. -/
def handleCaseOn (i : Nat) (t : Traced) : Traced × Bool :=
  let env := answers t.batch
  let pumped := t.batch.pumpAsync env
  let out := handleCase env i t.batch
  (⟨if pumped.2 then t.toTrace else t.toTrace.handle env i pumped.1, out.1⟩, out.2)

def blockCaseOn (message : String) (i : Nat) (t : Traced) : Traced × Bool :=
  let n := t.batch.next
  let rr := syntheticSkipResult message true
  let out := blockCase (answers t.batch) message i t.batch
  let trace : Trace :=
    { t.toTrace with
      results := t.note t.batch.state.acc i rr
      ledger := t.ledger ++ [(n, rr.outcome)]
      unavailable := t.unavailable ++ [n] }
  (⟨trace, out.1⟩, out.2)

def finishOn (t : Traced) : Traced × Bool :=
  let out := t.batch.finishPendingAsyncGroup (answers t.batch)
  (⟨t.toTrace, out.1⟩, out.2)

def collectGroupOn (group : FixtureGroupPlan) (t : Traced) : Traced × Bool :=
  let fixture := if group.idxs.isEmpty then none else (answers t.batch).fixture t.batch.clock
  let t : Traced := ⟨t.toTrace, t.batch.tick⟩
  match fixture with
  | some reason =>
    loopUntil (blockCaseOn answers (sharedFixtureUnavailableMessage group.fixture reason)) group.idxs t
  | none =>
    let out := loopUntil (handleCaseOn answers) group.idxs t
    if out.2 then out else finishOn answers out.1

def runPlanOn (plan : SuiteExecutionPlan) (t : Traced) : Traced × Bool :=
  let out := loopUntil (handleCaseOn answers) plan.freeLike t
  if out.2 then out
  else
    let out := finishOn answers out.1
    if out.2 then out
    else
      let out := loopUntil (collectGroupOn answers) plan.suiteGroups out.1
      if out.2 then out else loopUntil (collectGroupOn answers) plan.globalGroups out.1

def runTestsAsyncBatchOn (plans : List SuiteExecutionPlan) (state : RunState) : Traced × Bool :=
  let t := (loopUntil (runPlanOn answers) plans ⟨{}, { state := state }⟩).1
  let env := answers t.batch
  let b := if !t.batch.shouldStop env then (t.batch.finishPendingAsyncGroup env).1
    else t.batch.cancelPendingAsyncGroup env
  (⟨t.toTrace, b⟩, b.shouldStop env)

end Gentest.Runner.SyncExecutor
