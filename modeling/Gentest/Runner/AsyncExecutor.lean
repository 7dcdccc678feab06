import Gentest.Lib.Loops
import Gentest.Runner.AsyncState

/-!
# The async batch executor

`run_tests_async_batch`: its lambdas are the functions below, over the state
they share. What the tests, the workers and the clock do comes from an `Env`,
which is asked at the count of questions asked so far, so that it may answer
differently every time: which frames the scheduler resumes and what they do,
whether a run holds adopted work, what the cancel hooks do. A call of the
scheduler resumes finitely many frames. Workers may only log in a context they
adopted (`require_owner_context`), so no outcome depends on what they do there.

Five fields of the batch are not in the source: the cases begun, the occurrences
counted and those recorded, the runs that were finalized by force, and what
`cancel_pending_async_group` found. The n-th case begun is occurrence n.
-/

namespace Gentest.Runner.AsyncExecutor

open Loops (loopUntil)

structure FixtureGroupPlan where
  fixture : String
  idxs : List Nat
  deriving DecidableEq, Repr

structure SuiteExecutionPlan where
  freeLike : List Nat := []
  suiteGroups : List FixtureGroupPlan := []
  globalGroups : List FixtureGroupPlan := []
  deriving DecidableEq, Repr

/-- A run, with its occurrence and whether it held adopted work when
`ready_to_finalize` was set. -/
structure Run extends AsyncCaseRun where
  occurrence : Nat
  heldAtReady : Bool := false
  deriving DecidableEq, Repr

structure DeferredCanceledTask where
  task : Option AsyncTask
  runIndex : Nat
  recordResultOnCleanup : Bool := false
  resultRecorded : Bool := false
  /-- Of the run it was taken from. -/
  occurrence : Nat
  deriving DecidableEq, Repr

/-- A run finalized by force: as it was then, what its cancel hooks did, and the
outcome it came to. -/
structure Forced where
  run : AsyncCaseRun
  hooks : List ContextOp
  outcome : Outcome
  deriving DecidableEq, Repr

/-- What `cancel_pending_async_group` found of a run. -/
structure Sample where
  occurrence : Nat
  readyToFinalize : Bool
  heldAtReady : Bool
  adoptedWork : Bool
  deriving DecidableEq, Repr

structure Batch where
  runs : List Run := []
  state : RunState := {}
  failFastStopRequested : Bool := false
  firstUnfinalizedScan : Nat := 0
  deferredCanceledTasks : List DeferredCanceledTask := []
  /-- Questions asked. -/
  clock : Nat := 0
  /-- The cases begun, in order. -/
  started : List Nat := []
  counted : List Nat := []
  recorded : List Nat := []
  forced : List Forced := []
  samples : List Sample := []
  deriving DecidableEq, Repr

-- ---------------------------------------------------------------------------
-- The environment
-- ---------------------------------------------------------------------------

inductive Resumed
  | suspended
  | done (exception : Option TaskException)
  | threw (what : Option String)
  deriving DecidableEq, Repr

structure Resume where
  index : Nat
  ops : List ContextOp := []
  result : Resumed := .suspended
  deriving DecidableEq, Repr

/-- `AsyncSchedulerCore::SuspendedState`, with its location as a text and as
`record_failure_at` keeps it. -/
structure SuspendedState where
  sequence : Nat := 0
  reason : String := ""
  locationText : String := ""
  loc : FailureLoc := {}
  deriving DecidableEq, Repr

structure Env where
  cases : Nat → Case
  failFast : Bool
  /-- `has_adopted_work`, asked about a run. -/
  adopted : Nat → Nat → Bool := fun _ _ => false
  /-- The frames `run_one_ready`, in its loop, or `run_ready` resumes. -/
  resumes : Nat → List Resume := fun _ => []
  /-- The frames `drain_ready_and_adopted_work` resumes before its first wait and
  after each wait. -/
  rounds : Nat → List Resume × List (List Resume) := fun _ => ([], [])
  suspended : Nat → SuspendedState := fun _ => {}
  /-- What the cancel hooks of a context do: they run the teardown of a fixture. -/
  hooks : Nat → List ContextOp := fun _ => []
  create : Nat → List ContextOp × Created := fun _ => ([], .task)
  invoke : Nat → InvokeResult := fun _ => { ctxinfo := {} }
  /-- The reason when `acquire_case_fixture` fails. -/
  fixture : Nat → Option String := fun _ => none

variable (env : Env)

def Batch.tick (b : Batch) : Batch := { b with clock := b.clock + 1 }

def Batch.setRun (b : Batch) (index : Nat) (run : Run) : Batch :=
  { b with runs := b.runs.set index run }

def Batch.modifyRun (b : Batch) (index : Nat) (f : Run → Run) : Batch :=
  match b.runs[index]? with
  | some run => b.setRun index (f run)
  | none => b

def Batch.shouldStop (b : Batch) : Bool :=
  env.failFast &&
    (b.failFastStopRequested || b.state.counters.failures > 0 || b.state.counters.blocked > 0)

-- ---------------------------------------------------------------------------
-- Counting and recording
-- ---------------------------------------------------------------------------

def Batch.countTotal (b : Batch) (occurrence : Nat) : Batch :=
  { b with state := b.state.countTotal, counted := b.counted ++ [occurrence] }

/-- `if (state.acc) record_case_result(...)`. -/
def Batch.recordCaseResult (b : Batch) (occurrence : Nat) (test : Case) (rr : RunResult) : Batch :=
  { b with
    state := b.state.record test rr
    recorded := if b.state.acc.isSome then b.recorded ++ [occurrence] else b.recorded }

def Batch.recordInvokeResult (b : Batch) (run : Run) (inv : InvokeResult) : Batch :=
  let test := env.cases run.caseIndex
  let out := finishInvokeResult test inv b.state
  { b with state := out.2 }.recordCaseResult run.occurrence test out.1

def Batch.finalizeRun (b : Batch) (index : Nat) : Batch :=
  match b.runs[index]? with
  | none => b
  | some run =>
    if run.finalized then b
    else
      let out := finishAsyncRun { run.toAsyncCaseRun with finalized := true }
      let run := { run with toAsyncCaseRun := out.2 }
      ((b.setRun index run).countTotal run.occurrence).recordInvokeResult env run out.1

-- ---------------------------------------------------------------------------
-- The scheduler, as the executor calls it
-- ---------------------------------------------------------------------------

/-- `BatchAsyncScheduler::complete`. -/
def Batch.complete (b : Batch) (index : Nat) : Batch :=
  (b.modifyRun index fun run =>
    if run.finalized || run.readyToFinalize then run
    else { run with readyToFinalize := true, heldAtReady := env.adopted b.clock index }).tick

/-- `resume_one_ready` on a frame it has popped; the frames of a completed run
are canceled. -/
def Batch.resume (b : Batch) (r : Resume) : Batch :=
  match b.runs[r.index]? with
  | none => b
  | some run =>
    if run.finalized || run.readyToFinalize || run.task.all AsyncTask.done then b
    else
      let run := { run with ctxinfo := r.ops.foldl ContextOp.apply run.ctxinfo }
      match r.result with
      | .suspended => b.setRun r.index run
      | .done exception =>
        (b.setRun r.index { run with task := some ⟨true, exception⟩ }).complete env r.index
      | .threw what =>
        (b.setRun r.index { run with toAsyncCaseRun := run.toAsyncCaseRun.resumeThrew what }).complete
          env r.index

def formatCannotResumeMessage (s : SuspendedState) : String :=
  "cannot resume async test" ++
    (if s.locationText.isEmpty then "" else "; suspended at " ++ s.locationText) ++
    (if s.sequence ≠ 0 ∧ !s.reason.isEmpty then ": " ++ s.reason else "")

def runContextCancelHooks (hooks : List ContextOp) (ctx : TestContextInfo) : TestContextInfo :=
  hooks.foldl ContextOp.apply ctx

/-- The marking of one run in `finish_unresumable`. -/
def Batch.markUnresumable (b : Batch) (index : Nat) : Batch :=
  match b.runs[index]? with
  | none => b
  | some run =>
    if run.finalized || run.task.all AsyncTask.done || run.exception ≠ .none then b
    else
      let suspended := env.suspended b.clock
      let message := formatCannotResumeMessage suspended
      let ctx := runContextCancelHooks (env.hooks b.clock)
        (run.ctxinfo.recordFailure message suspended.loc)
      (b.tick.setRun index
        { run with exception := .failure, message := message, ctxinfo := ctx }).complete env index

-- ---------------------------------------------------------------------------
-- Finalization
-- ---------------------------------------------------------------------------

def Batch.advanceFirstUnfinalized (b : Batch) : Batch :=
  { b with firstUnfinalizedScan := b.firstUnfinalizedScan +
      ((b.runs.drop b.firstUnfinalizedScan).takeWhile fun run => run.finalized).length }

/-- The indices from `first_unfinalized_scan` on. -/
def Batch.scanned (b : Batch) : List Nat :=
  List.range' b.firstUnfinalizedScan (b.runs.length - b.firstUnfinalizedScan)

/-- `cancel_active_test_context_without_wait`: the hooks run. -/
def Batch.cancelActive (b : Batch) (index : Nat) : Batch :=
  (b.modifyRun index fun run =>
    { run with ctxinfo := runContextCancelHooks (env.hooks b.clock) run.ctxinfo }).tick

def Batch.finalizeCanceledAdoptedRun (b : Batch) (index : Nat) (requestStop : Bool) : Batch :=
  match b.runs[index]? with
  | none => b
  | some before =>
    if before.finalized then b
    else
      let hooks := env.hooks b.clock
      let run := classifyAsyncException { before.toAsyncCaseRun with finalized := true }
      let run := { run with ctxinfo := runContextCancelHooks hooks run.ctxinfo, task := none }
      let inv := run.invokeResult
      let test := env.cases run.caseIndex
      let b := { b.tick with failFastStopRequested := b.failFastStopRequested || requestStop }
      let b := b.setRun index { before with toAsyncCaseRun := { run with message := "" } }
      let b := b.countTotal before.occurrence
      let out := finishInvokeResult test inv b.state
      let forced : Forced := ⟨before.toAsyncCaseRun, hooks, out.1.outcome⟩
      let b := { b with state := out.2, forced := b.forced ++ [forced] }
      b.recordCaseResult before.occurrence test out.1

/-- One iteration of `finalize_completed_runs`. It asks for adopted work twice. -/
def finalizeCompletedRun (index : Nat) (b : Batch) : Batch × Bool :=
  match b.runs[index]? with
  | none => (b, false)
  | some run =>
    if run.finalized || !run.readyToFinalize then (b, false)
    else
      let forceStopResult :=
        env.failFast && env.adopted b.clock index && asyncRunWouldStopFailFast run.toAsyncCaseRun
      if env.adopted (b.clock + 1) index && !forceStopResult then (b.tick.tick, false)
      else
        let b := if forceStopResult then b.tick.tick.finalizeCanceledAdoptedRun env index true
          else b.tick.tick.finalizeRun env index
        (b, b.shouldStop env)

def Batch.finalizeCompletedRuns (b : Batch) : Batch × Bool :=
  let b := (loopUntil (finalizeCompletedRun env) b.scanned b).1.advanceFirstUnfinalized
  (b, b.shouldStop env)

def Batch.recordCanceledCompletedResult (b : Batch) (deferred : DeferredCanceledTask) : Batch :=
  if deferred.resultRecorded then b
  else
    match b.runs[deferred.runIndex]? with
    | none => b
    | some run =>
      let inv := run.invokeResult
      let run := { run with message := "" }
      ((b.setRun deferred.runIndex run).countTotal run.occurrence).recordInvokeResult env run inv

/-- Each task leaves the list as it is handled; the source clears it at the end. -/
def destroyCanceledTasks : List DeferredCanceledTask → Batch → Batch
  | [], b => { b with deferredCanceledTasks := [] }
  | deferred :: rest, b =>
    let b := { b with deferredCanceledTasks := rest }
    if deferred.task.isNone then destroyCanceledTasks rest b
    else if deferred.recordResultOnCleanup then
      destroyCanceledTasks rest (b.recordCanceledCompletedResult env deferred)
    else destroyCanceledTasks rest b

def Batch.destroyCanceledTasksAfterAdoptedRelease (b : Batch) : Batch :=
  destroyCanceledTasks env b.deferredCanceledTasks b

-- ---------------------------------------------------------------------------
-- Pumping and draining
-- ---------------------------------------------------------------------------

/-- `finalize_completed_runs() || should_stop()`. -/
def Batch.progress (b : Batch) : Batch × Bool :=
  let out := b.finalizeCompletedRuns env
  (out.1, out.2 || out.1.shouldStop env)

def Batch.pumpAsync (b : Batch) : Batch × Bool :=
  let out := b.progress env
  if out.2 then out
  else
    let b := out.1
    let resumes := env.resumes b.clock
    if env.failFast then
      let out := loopUntil (fun r b => (b.resume env r).progress env) resumes b.tick
      if out.2 then out else out.1.progress env
    else (resumes.foldl (fun b r => b.resume env r) b.tick).progress env

/-- The inner loop of `drain_ready_and_adopted_work`. -/
def drainOne (r : Resume) (b : Batch) : Batch × Bool :=
  if b.shouldStop env then (b, true) else (b.resume env r).progress env

/-- One round of `drain_ready_and_adopted_work`, up to its wait. -/
def drainRound (round : List Resume) (b : Batch) : Batch × Bool :=
  let out := loopUntil (drainOne env) round b
  if out.2 then out else out.1.progress env

def markOne (index : Nat) (b : Batch) : Batch × Bool :=
  let out := b.progress env
  if out.2 then out
  else
    let b := out.1
    match b.runs[index]? with
    | none => (b, false)
    | some run =>
      if run.finalized || run.task.all AsyncTask.done || run.exception ≠ .none then (b, false)
      else (b.markUnresumable env index).progress env

def Batch.finishUnresumable (b : Batch) : Batch × Bool :=
  let rounds := env.rounds b.clock
  let out := loopUntil (drainRound env) (rounds.1 :: rounds.2) b.tick
  if out.2 then out
  else loopUntil (markOne env) (List.range out.1.runs.length) out.1

/-- The last loop of `finish_pending_async_group`. -/
def finishPendingRun (index : Nat) (b : Batch) : Batch × Bool :=
  match b.runs[index]? with
  | none => (b, false)
  | some run =>
    if run.finalized then (b, false)
    else
      let adopted := env.adopted b.clock index
      let b := b.tick
      let b :=
        if adopted then
          let b := b.setRun index { run with toAsyncCaseRun :=
            if run.readyToFinalize then classifyAsyncException run.toAsyncCaseRun
            else run.toAsyncCaseRun.cancelBeforeCompletion }
          let b := b.cancelActive env index
          { b.modifyRun index (fun run => { run with finalized := true, task := none }) with
            deferredCanceledTasks := b.deferredCanceledTasks ++
              [⟨run.task, index, true, false, run.occurrence⟩] }
        else
          let b := if run.readyToFinalize then b
            else (b.setRun index { run with toAsyncCaseRun :=
              run.toAsyncCaseRun.cancelBeforeCompletion }).cancelActive env index
          b.finalizeRun env index
      (b, b.shouldStop env)

def Batch.finishPendingAsyncGroup (b : Batch) : Batch × Bool :=
  let out := b.finalizeCompletedRuns env
  if out.2 then out
  else
    let drained := out.1.finishUnresumable env
    let out := drained.1.finalizeCompletedRuns env
    if out.2 then out
    else if drained.2 && env.failFast then (out.1.advanceFirstUnfinalized, true)
    else
      let out := loopUntil (finishPendingRun env) out.1.scanned out.1
      if out.2 then (out.1.advanceFirstUnfinalized, true)
      else
        let b := (out.1.destroyCanceledTasksAfterAdoptedRelease env).advanceFirstUnfinalized
        (b, b.shouldStop env)

/-- One iteration of `cancel_pending_async_group`. -/
def Batch.cancelPendingRun (b : Batch) (index : Nat) : Batch :=
  match b.runs[index]? with
  | none => b
  | some run =>
    if run.finalized then b
    else
      let adopted := env.adopted b.clock index
      let b := b.tick
      let b := if adopted && run.readyToFinalize then
          b.setRun index { run with toAsyncCaseRun := classifyAsyncException run.toAsyncCaseRun }
        else b
      let b := b.cancelActive env index
      { b.modifyRun index (fun run =>
          { run with finalized := true, task := if adopted then none else run.task }) with
        deferredCanceledTasks := if adopted then b.deferredCanceledTasks ++
            [⟨run.task, index, run.readyToFinalize, false, run.occurrence⟩]
          else b.deferredCanceledTasks
        samples := b.samples ++ [⟨run.occurrence, run.readyToFinalize, run.heldAtReady, adopted⟩] }

def Batch.cancelPendingAsyncGroup (b : Batch) : Batch :=
  ((b.scanned.foldl (fun b index => b.cancelPendingRun env index)
    b).destroyCanceledTasksAfterAdoptedRelease env).advanceFirstUnfinalized

-- ---------------------------------------------------------------------------
-- Cases, groups and plans
-- ---------------------------------------------------------------------------

def Batch.next (b : Batch) : Nat := b.started.length

def Batch.begin (b : Batch) (caseIndex : Nat) : Batch :=
  { b with started := b.started ++ [caseIndex], clock := b.clock + 1 }

def Batch.staticSkip (b : Batch) (caseIndex : Nat) : Batch :=
  let test := env.cases caseIndex
  let out := makeStaticSkipResult test b.state
  { b.begin caseIndex with state := out.2, counted := b.counted ++ [b.next] }.recordCaseResult b.next
    test out.1

/-- `execute_one` or `execute_and_record` on a case that is not skipped. -/
def Batch.execute (b : Batch) (caseIndex : Nat) : Batch :=
  let test := env.cases caseIndex
  let counted := (b.begin caseIndex).countTotal b.next
  let out := finishInvokeResult test (env.invoke b.clock) counted.state
  { counted with state := out.2 }.recordCaseResult b.next test out.1

/-- The branch of `handle_case` for an async case. -/
def Batch.startAsync (b : Batch) (caseIndex : Nat) : Batch :=
  let created := env.create b.clock
  let run : Run :=
    { toAsyncCaseRun := scheduleAsyncCase caseIndex created.1 created.2, occurrence := b.next }
  let added := { b.begin caseIndex with runs := b.runs ++ [run] }
  if run.task.isSome && run.exception == .none then added
  else added.finalizeRun env b.runs.length

def handleCase (caseIndex : Nat) (b : Batch) : Batch × Bool :=
  let out := b.pumpAsync env
  if out.2 then out
  else
    let b := out.1
    let test := env.cases caseIndex
    let b :=
      if test.shouldSkip then b.staticSkip env caseIndex
      else if test.hasAsyncFn then b.startAsync env caseIndex
      else b.execute env caseIndex
    b.pumpAsync env

def blockCase (message : String) (caseIndex : Nat) (b : Batch) : Batch × Bool :=
  let test := env.cases caseIndex
  let b :=
    { b.begin caseIndex with
      state := recordSyntheticSkip test message true b.state
      counted := b.counted ++ [b.next]
      recorded := if b.state.acc.isSome then b.recorded ++ [b.next] else b.recorded }
  (b, b.shouldStop env)

def collectGroup (group : FixtureGroupPlan) (b : Batch) : Batch × Bool :=
  let fixture := if group.idxs.isEmpty then none else env.fixture b.clock
  let b := b.tick
  match fixture with
  | some reason =>
    loopUntil (blockCase env (sharedFixtureUnavailableMessage group.fixture reason)) group.idxs b
  | none =>
    let out := loopUntil (handleCase env) group.idxs b
    if out.2 then out else out.1.finishPendingAsyncGroup env

def runPlan (plan : SuiteExecutionPlan) (b : Batch) : Batch × Bool :=
  let out := loopUntil (handleCase env) plan.freeLike b
  if out.2 then out
  else
    let out := out.1.finishPendingAsyncGroup env
    if out.2 then out
    else
      let out := loopUntil (collectGroup env) plan.suiteGroups out.1
      if out.2 then out else loopUntil (collectGroup env) plan.globalGroups out.1

/-- The batch at the end, and what `run_tests_async_batch` returns. -/
def runTestsAsyncBatch (plans : List SuiteExecutionPlan) (state : RunState) : Batch × Bool :=
  let b := (loopUntil (runPlan env) plans { state := state }).1
  let b := if !b.shouldStop env then (b.finishPendingAsyncGroup env).1
    else b.cancelPendingAsyncGroup env
  (b, b.shouldStop env)

def SuiteExecutionPlan.cases (plan : SuiteExecutionPlan) : List Nat :=
  plan.freeLike ++ (plan.suiteGroups ++ plan.globalGroups).flatMap FixtureGroupPlan.idxs

def planned (plans : List SuiteExecutionPlan) : List Nat := plans.flatMap SuiteExecutionPlan.cases

end Gentest.Runner.AsyncExecutor
