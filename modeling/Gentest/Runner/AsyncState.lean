import Gentest.Runner.CaseResult

/-!
# The state of an async run

`AsyncCaseRun`, how the exception of its task is classified, and the forecast
`async_run_would_stop_fail_fast` the executor makes while workers still hold
the context. The buffer a failure is first recorded in is flushed when the
scope of the context ends, so a recorded failure is appended to the context.
-/

namespace Gentest.Runner

/-- What `task->exception()` rethrows, in the order of the handlers. -/
inductive TaskException
  | blocked (reason : String)
  | skip
  | assertion (message : String)
  | failure (what : String)
  | stdException (what : String)
  | unknown
  deriving DecidableEq, Repr

structure AsyncTask where
  done : Bool := false
  exception : Option TaskException := none
  deriving DecidableEq, Repr

structure AsyncCaseRun where
  caseIndex : Nat
  ctxinfo : TestContextInfo := {}
  task : Option AsyncTask := none
  /-- From `start` to `end`. -/
  elapsedS : Rat := 0
  exception : InvokeException := .none
  message : String := ""
  readyToFinalize : Bool := false
  finalized : Bool := false
  deriving DecidableEq, Repr

def TestContextInfo.recordFailure (ctx : TestContextInfo) (msg : String) (loc : FailureLoc := {}) :
    TestContextInfo :=
  { ctx with
    failures := ctx.failures ++ [msg]
    failureLocations := ctx.failureLocations ++ [loc]
    eventLines := ctx.eventLines ++ [msg]
    eventKinds := ctx.eventKinds ++ ['F']
    hasFailures := true }

def TestContextInfo.Coherent (ctx : TestContextInfo) : Prop :=
  ctx.hasFailures = true → ctx.failures ≠ []

/-- What holds of a run until it is finalized: only a task that is done has an
exception, and a skip is that of the task. -/
structure AsyncCaseRun.Sound (run : AsyncCaseRun) : Prop where
  coherent : run.ctxinfo.Coherent
  done : run.task.all AsyncTask.done = false → run.task.bind AsyncTask.exception = none
  skip : run.exception = .skip → run.task.bind AsyncTask.exception = some .skip

-- ---------------------------------------------------------------------------
-- Classification
-- ---------------------------------------------------------------------------

def TaskException.invoke : TaskException → InvokeException
  | .blocked _ => .blocked
  | .skip => .skip
  | .assertion _ => .assertion
  | .failure _ => .failure
  | .stdException _ => .stdException
  | .unknown => .unknown

def TaskException.message : TaskException → Option String
  | .blocked reason => some reason
  | .skip => none
  | .assertion message => some message
  | .failure what => some what
  | .stdException what => some ("std::exception: " ++ what)
  | .unknown => some "unknown exception"

def TaskException.recorded : TaskException → Option String
  | .failure what => some ("FAIL() :: " ++ what)
  | .stdException what => some ("unexpected std::exception: " ++ what)
  | .unknown => some "unknown exception"
  | _ => none

/-- The handler for an exception, as `schedule_async_case` and
`classify_async_exception` share it. -/
def AsyncCaseRun.handle (run : AsyncCaseRun) (ex : TaskException) : AsyncCaseRun :=
  { run with
    exception := ex.invoke
    message := ex.message.getD run.message
    ctxinfo := match ex.recorded with
      | some msg => run.ctxinfo.recordFailure msg
      | none => run.ctxinfo }

/-- The exception `classify_async_exception` has still to look at. -/
def AsyncCaseRun.unclassified (run : AsyncCaseRun) : Option TaskException :=
  if run.exception ≠ .none then none else run.task.bind AsyncTask.exception

/-- The failure `classify_async_exception` is about to record. -/
def AsyncCaseRun.unrecorded (run : AsyncCaseRun) : Option String :=
  run.unclassified.bind TaskException.recorded

def classifyAsyncException (run : AsyncCaseRun) : AsyncCaseRun :=
  match run.unclassified with
  | none => run
  | some ex => run.handle ex

def AsyncCaseRun.invokeResult (run : AsyncCaseRun) : InvokeResult where
  ctxinfo := run.ctxinfo
  exception := run.exception
  elapsedS := run.elapsedS
  message := run.message

def finishAsyncRun (run : AsyncCaseRun) : InvokeResult × AsyncCaseRun :=
  let run := classifyAsyncException run
  (run.invokeResult, { run with message := "" })

inductive ContextOp
  | recordFailure (msg : String) (loc : FailureLoc)
  | log (line : String)
  | requestRuntimeSkip (reason : String) (kind : RuntimeSkipKind)
  | xfail (reason : String)
  deriving DecidableEq, Repr

def ContextOp.apply (ctx : TestContextInfo) : ContextOp → TestContextInfo
  | .recordFailure msg loc => ctx.recordFailure msg loc
  | .log line => { ctx with logs := ctx.logs ++ [line] }
  | .requestRuntimeSkip reason kind =>
    { ctx with runtimeSkipRequested := true, runtimeSkipReason := reason, runtimeSkipKind := kind }
  | .xfail reason =>
    { ctx with
      xfailRequested := true
      xfailReason := if reason.isEmpty then ctx.xfailReason else reason }

/-- What the call of `test.async_fn` comes to. -/
inductive Created
  | task
  | noTask
  | threw (ex : TaskException)
  deriving DecidableEq, Repr

/-- There is no handler for a block here, which is a `std::exception`. -/
def TaskException.atCreation : TaskException → TaskException
  | .blocked reason => .stdException reason
  | ex => ex

def scheduleAsyncCase (caseIndex : Nat) (ops : List ContextOp) (created : Created) : AsyncCaseRun :=
  let run : AsyncCaseRun := { caseIndex := caseIndex, ctxinfo := ops.foldl ContextOp.apply {} }
  match created with
  | .task => { run with task := some {} }
  | .noTask =>
    { run with
      exception := .failure
      message := "async test did not create a coroutine task"
      ctxinfo := run.ctxinfo.recordFailure "async test did not create a coroutine task" }
  | .threw ex => run.handle ex.atCreation

/-- The handlers around `resume` in `resume_one_ready`: a `std::exception` with
its text, or something else. -/
def AsyncCaseRun.resumeThrew (run : AsyncCaseRun) : Option String → AsyncCaseRun
  | some what => { run with exception := .stdException, message := "std::exception: " ++ what }
  | none => { run with exception := .unknown, message := "unknown exception" }

/-- `finish_pending_async_group` on a run that is not ready to be finalized. -/
def AsyncCaseRun.cancelBeforeCompletion (run : AsyncCaseRun) : AsyncCaseRun :=
  if run.exception = .none then
    { run with
      exception := .failure
      message := "async test canceled before completion"
      ctxinfo := run.ctxinfo.recordFailure "async test canceled before completion" }
  else run

-- ---------------------------------------------------------------------------
-- The forecast
-- ---------------------------------------------------------------------------

def asyncRunRequestsXfail (run : AsyncCaseRun) : Bool := run.ctxinfo.xfailRequested

def asyncExceptionWouldStopFailFast (run : AsyncCaseRun) : Bool :=
  if run.exception = .blocked then true
  else if run.exception ≠ .none ∧ run.exception ≠ .skip then !asyncRunRequestsXfail run
  else
    match run.task.bind AsyncTask.exception with
    | none => false
    | some (.blocked _) => true
    | some .skip => false
    | some _ => !asyncRunRequestsXfail run

def asyncRunWouldStopFailFast (run : AsyncCaseRun) : Bool :=
  run.readyToFinalize &&
    (asyncExceptionWouldStopFailFast run ||
      (!asyncRunRequestsXfail run && run.ctxinfo.hasFailures))

end Gentest.Runner
