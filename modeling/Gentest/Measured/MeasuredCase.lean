import Gentest.Lib.Loops
import Gentest.Runner.AsyncState

/-!
# A measured case

`run_measured_case` with its phases: one Setup, the epochs of Call iterations
`run_bench` and `run_jitter` make, one Teardown. What the function does is
given for each of its invocations. The clock decides how long the calibration
goes on, how many epochs are measured and whether a jitter is taken in batches;
the times and statistics themselves are left out.
-/

namespace Gentest.Measured

open Loops (loopUntil)
open Runner

/-- One invocation of `c.fn`: what it does to its context, the errors its
wrapper leaves with `record_bench_error`, and what it throws. -/
structure Invocation where
  ops : List ContextOp := []
  benchErrors : List String := []
  throws : Option TaskException := none
  deriving DecidableEq, Repr

structure Fn where
  setup : Invocation := {}
  call : Nat → Invocation := fun _ => {}
  teardown : Invocation := {}

structure MeasurementCaseFailure where
  reason : String := ""
  sourceFile : String := ""
  sourceLine : Nat := 0
  allocationFailure : Bool := false
  skipped : Bool := false
  infraFailure : Bool := false
  phase : String := ""
  deriving DecidableEq, Repr

-- ---------------------------------------------------------------------------
-- Errors
-- ---------------------------------------------------------------------------

def recordBenchError (error msg : String) : String := if error.isEmpty then msg else error

def firstRecordedFailure (ctx : TestContextInfo) : String := ctx.failures.headD ""

def captureFirstFailureLocation (ctx : TestContextInfo) (failure : MeasurementCaseFailure) :
    MeasurementCaseFailure :=
  if !failure.sourceFile.isEmpty && failure.sourceLine != 0 then failure
  else
    match ctx.failureLocations.find? fun loc => !loc.file.isEmpty && loc.line != 0 with
    | some loc => { failure with sourceFile := loc.file, sourceLine := loc.line }
    | none => failure

-- ---------------------------------------------------------------------------
-- Setup and Teardown
-- ---------------------------------------------------------------------------

/-- `invoke_case_once`, which captures exceptions without recording them. -/
def invokeCaseOnce (inv : Invocation) : InvokeResult :=
  let ctx := inv.ops.foldl ContextOp.apply {}
  match inv.throws with
  | none => { ctxinfo := ctx }
  | some .skip => { ctxinfo := ctx, exception := .skip }
  | some (.assertion message) =>
    let recorded := firstRecordedFailure ctx
    { ctxinfo := ctx, exception := .assertion, message := if recorded.isEmpty then message else recorded }
  | some (.failure what) => { ctxinfo := ctx, exception := .failure, message := "std::exception: " ++ what }
  | some (.blocked what) | some (.stdException what) =>
    { ctxinfo := ctx, exception := .stdException, message := "std::exception: " ++ what }
  | some .unknown => { ctxinfo := ctx, exception := .unknown, message := "unknown exception" }

structure MeasurementPhaseResult where
  ok : Bool := false
  allocationFailure : Bool := false
  runtimeSkipped : Bool := false
  reason : String := ""
  skipReason : String := ""
  skipKind : RuntimeSkipKind := .user
  deriving DecidableEq, Repr

def runMeasurementPhase (inv : Invocation) : MeasurementPhaseResult :=
  let out := invokeCaseOnce inv
  let ctx := out.ctxinfo
  let benchError := inv.benchErrors.foldl recordBenchError ""
  let error := match out.exception with
    | .none => ""
    | .skip => if ctx.runtimeSkipRequested then "" else "skip requested without active runtime skip state"
    | _ => out.message
  let firstFailure := firstRecordedFailure ctx
  let error := if !firstFailure.isEmpty && (out.exception == .assertion || error.isEmpty) then firstFailure else error
  let runtimeSkipped := ctx.runtimeSkipRequested && error.isEmpty
  let skipReason := if ctx.runtimeSkipRequested then ctx.runtimeSkipReason else ""
  let skipKind := if ctx.runtimeSkipRequested then ctx.runtimeSkipKind else .user
  if !benchError.isEmpty then
    { ok := false, allocationFailure := true, reason := benchError, skipReason, skipKind }
  else { ok := !runtimeSkipped && error.isEmpty, runtimeSkipped, reason := error, skipReason, skipKind }

-- ---------------------------------------------------------------------------
-- Epochs of calls
-- ---------------------------------------------------------------------------

/-- The state of the Call phase: the error slot, the location captured and the
iterations started. -/
structure Calls where
  benchError : String := ""
  failure : MeasurementCaseFailure := {}
  started : Nat := 0
  deriving DecidableEq, Repr

structure Epoch extends Calls where
  ctx : TestContextInfo := {}
  thrown : Option TaskException := none
  deriving DecidableEq, Repr

variable (call : Nat → Invocation)

def Epoch.callFn (_ : Nat) (e : Epoch) : Epoch × Bool :=
  let inv := call e.started
  ({ benchError := inv.benchErrors.foldl recordBenchError e.benchError
     failure := e.failure
     started := e.started + 1
     ctx := inv.ops.foldl ContextOp.apply e.ctx
     thrown := inv.throws }, inv.throws.isSome)

def runtimeSkipOrDefault (ctx : TestContextInfo) (defaultReason : String) : String :=
  if ctx.runtimeSkipRequested && !ctx.runtimeSkipReason.isEmpty then ctx.runtimeSkipReason else defaultReason

def handleThrown (defaultSkipReason : String) (ctx : TestContextInfo) (error : String) : TaskException → String
  | .skip => recordBenchError error (runtimeSkipOrDefault ctx defaultSkipReason)
  | .assertion _ => error
  | .failure what => recordBenchError error what
  | .blocked what | .stdException what => recordBenchError error ("std::exception: " ++ what)
  | .unknown => recordBenchError error "unknown exception"

def assertionFallback : Option TaskException → String
  | some (.assertion message) => message
  | _ => ""

/-- The error slot and `had_assert_fail`. -/
def finalizeCallPhaseFailure (defaultSkipReason fallback : String) (ctx : TestContextInfo) (error : String)
    (hadAssert : Bool) : String × Bool :=
  if ctx.runtimeSkipRequested then (recordBenchError error (runtimeSkipOrDefault ctx defaultSkipReason), true)
  else if !(firstRecordedFailure ctx).isEmpty then (recordBenchError error (firstRecordedFailure ctx), true)
  else if !fallback.isEmpty then (recordBenchError error fallback, true)
  else (error, hadAssert)

/-- An epoch of at most `iters` calls; whether one failed. -/
def runCallPhaseWithContext (defaultSkipReason : String) (iters : Nat) (s : Calls) : Calls × Bool :=
  let e := (loopUntil (Epoch.callFn call) (List.range iters) { s with }).1
  let error := match e.thrown with
    | some ex => handleThrown defaultSkipReason e.ctx e.benchError ex
    | none => e.benchError
  let out := finalizeCallPhaseFailure defaultSkipReason (assertionFallback e.thrown) e.ctx error e.thrown.isSome
  ({ benchError := out.1, failure := captureFirstFailureLocation e.ctx e.failure, started := e.started }, out.2)

def runEpochCalls : Nat → Calls → Calls × Bool :=
  runCallPhaseWithContext call "skip requested during benchmark call phase"

def runJitterEpochCalls : Nat → Calls → Calls × Bool :=
  runCallPhaseWithContext call "skip requested during jitter call phase"

structure Timing where
  /-- Whether a calibration epoch took `min_epoch_time_s`. -/
  longEnough : Nat → Bool := fun _ => true
  warmupEpochs : Nat := 1
  /-- The epochs after which the time is up. -/
  measureEpochs : Nat := 12
  useBatch : Bool := false

inductive Kind
  | bench
  | jitter
  deriving DecidableEq, Repr

structure CalibratedEpoch where
  iterations : Nat
  calls : Calls
  hadAssert : Bool

/-- The calibration from `iterations` on, with the doublings left before they
pass 2^30. -/
def calibrateFrom (timing : Timing) : Nat → Nat → Calls → CalibratedEpoch
  | 0, iterations, s =>
    let out := runEpochCalls call iterations s
    if out.2 || timing.longEnough iterations then ⟨iterations, out.1, out.2⟩ else ⟨iterations * 2, out.1, out.2⟩
  | left + 1, iterations, s =>
    let out := runEpochCalls call iterations s
    if out.2 || timing.longEnough iterations then ⟨iterations, out.1, out.2⟩
    else calibrateFrom timing left (iterations * 2) out.1

def calibrateEpochIterations (timing : Timing) (s : Calls) : CalibratedEpoch := calibrateFrom call timing 30 1 s

/-- `batch_iters * batch_samples`. -/
def batchCalls (iters : Nat) : Nat :=
  let batchSamples := if min 64 iters = 0 then 1 else min 64 iters
  max 1 (iters / batchSamples) * batchSamples

def measuredEpoch (timing : Timing) (iters : Nat) : Kind → Calls → Calls × Bool
  | .bench => runEpochCalls call iters
  | .jitter => runJitterEpochCalls call (if timing.useBatch then batchCalls iters else iters)

/-- `run_bench` and `run_jitter`. -/
def runCall (timing : Timing) (kind : Kind) (s : Calls) : Calls :=
  let calibration := calibrateEpochIterations call timing s
  if calibration.hadAssert then calibration.calls
  else
    let iters := calibration.iterations
    let out := loopUntil (fun _ => runEpochCalls call iters) (List.range timing.warmupEpochs) calibration.calls
    if out.2 then out.1
    else (loopUntil (fun _ => measuredEpoch call timing iters kind) (List.range timing.measureEpochs) out.1).1

-- ---------------------------------------------------------------------------
-- run_measured_case
-- ---------------------------------------------------------------------------

inductive BenchPhase
  | setup
  | call
  | teardown
  deriving DecidableEq, Repr

/-- What `run_measured_case` returns, the failure it fills in and the
invocations of the function, in order. -/
structure CaseRun where
  passed : Bool
  failure : MeasurementCaseFailure
  invoked : List BenchPhase
  deriving DecidableEq, Repr

def CaseRun.calls (out : CaseRun) : Nat := out.invoked.count .call

def MeasurementPhaseResult.skipIssue (pr : MeasurementPhaseResult) (phase : String) : String :=
  if pr.skipReason.isEmpty then phase ++ " requested skip" else pr.skipReason

def MeasurementPhaseResult.issue (pr : MeasurementPhaseResult) (phase : String) : String :=
  if pr.runtimeSkipped then pr.skipIssue phase
  else if pr.reason.isEmpty then phase ++ " failed" else pr.reason

def setupFailure (setup teardown : MeasurementPhaseResult) (failure : MeasurementCaseFailure) :
    MeasurementCaseFailure :=
  let infra := setup.skipKind == .sharedFixtureInfra || teardown.skipKind == .sharedFixtureInfra
  if !teardown.ok then
    if setup.runtimeSkipped && teardown.runtimeSkipped then
      let setupIssue := setup.skipIssue "setup"
      let teardownIssue := teardown.skipIssue "teardown"
      { failure with
        reason := if setupIssue = teardownIssue then setupIssue else setupIssue ++ "; teardown: " ++ teardownIssue
        skipped := true
        infraFailure := infra
        phase := "setup+teardown" }
    else
      { failure with
        reason := "setup issue: " ++ setup.issue "setup" ++ "; teardown issue: " ++ teardown.issue "teardown"
        allocationFailure := setup.allocationFailure || teardown.allocationFailure
        skipped := false
        infraFailure := infra
        phase := "setup+teardown" }
  else if setup.runtimeSkipped then
    { failure with
      reason := setup.skipReason
      skipped := true
      infraFailure := setup.skipKind == .sharedFixtureInfra
      phase := "setup" }
  else
    { failure with reason := setup.reason, allocationFailure := setup.allocationFailure, phase := "setup" }

def teardownFailure (callError : String) (teardown : MeasurementPhaseResult) (failure : MeasurementCaseFailure) :
    MeasurementCaseFailure :=
  let infra := teardown.skipKind == .sharedFixtureInfra
  if !callError.isEmpty then
    { failure with
      reason := "call issue: " ++ callError ++ "; teardown issue: " ++ teardown.issue "teardown"
      allocationFailure := teardown.allocationFailure
      skipped := false
      infraFailure := infra
      phase := "call+teardown" }
  else if teardown.runtimeSkipped then
    { failure with
      reason := teardown.skipIssue "teardown"
      allocationFailure := false
      skipped := true
      infraFailure := infra
      phase := "teardown" }
  else
    { failure with reason := teardown.reason, allocationFailure := teardown.allocationFailure, phase := "teardown" }

def unavailableFailure (fixture reason : String) : MeasurementCaseFailure :=
  { reason := sharedFixtureUnavailableMessage fixture reason
    skipped := true
    infraFailure := true
    phase := "allocation" }

/-- `acquired` is the reason when `acquire_case_fixture` fails. -/
def runMeasuredCase (test : Case) (kind : Kind) (timing : Timing) (acquired : Option String) (fn : Fn) : CaseRun :=
  match acquired with
  | some reason => ⟨false, unavailableFailure test.fixture reason, []⟩
  | none =>
    let setup := runMeasurementPhase fn.setup
    let failure := captureFirstFailureLocation (invokeCaseOnce fn.setup).ctxinfo {}
    let teardown := runMeasurementPhase fn.teardown
    let torn := captureFirstFailureLocation (invokeCaseOnce fn.teardown).ctxinfo
    if !setup.ok then ⟨false, setupFailure setup teardown (torn failure), [.setup, .teardown]⟩
    else
      let calls := runCall fn.call timing kind { failure }
      let invoked := .setup :: List.replicate calls.started .call ++ [.teardown]
      if !teardown.ok then ⟨false, teardownFailure calls.benchError teardown (torn calls.failure), invoked⟩
      else if !calls.benchError.isEmpty then
        let failure := { torn calls.failure with reason := calls.benchError, allocationFailure := false, phase := "call" }
        ⟨false, failure, invoked⟩
      else ⟨true, torn calls.failure, invoked⟩

end Gentest.Measured
