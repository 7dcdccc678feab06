import Mathlib.Data.Rat.Defs

/-!
# Cases, contexts and results

The data the runner hands from the invocation of a case to its result:
`gentest::Case`, the fields of `TestContextInfo` an outcome is read from,
`InvokeResult`, `RunResult`, the counters and the accumulator. Durations are
exact rationals in place of `double`; console output is not part of the data.
-/

namespace Gentest.Runner

inductive Outcome
  | pass
  | fail
  | skip
  | blocked
  | xfail
  | xpass
  deriving DecidableEq, Repr

inductive InvokeException
  | none
  | skip
  | blocked
  | assertion
  | failure
  | stdException
  | unknown
  deriving DecidableEq, Repr

inductive RuntimeSkipKind
  | user
  | sharedFixtureInfra
  deriving DecidableEq, Repr

structure FailureLoc where
  file : String := ""
  line : Nat := 0
  deriving DecidableEq, Repr

/-- The part of a registered case the runner reads while it executes it. -/
structure Case where
  name : String
  file : String := ""
  line : Nat := 0
  tags : List String := []
  requirements : List String := []
  skipReason : String := ""
  shouldSkip : Bool := false
  fixture : String := ""
  suite : String := ""
  hasAsyncFn : Bool := false
  deriving DecidableEq, Repr

/-- What a test context has collected by the time its result is computed.
Events carry their kind as in the source: `'F'` marks a failure line. -/
structure TestContextInfo where
  failures : List String := []
  failureLocations : List FailureLoc := []
  logs : List String := []
  eventLines : List String := []
  eventKinds : List Char := []
  hasFailures : Bool := false
  runtimeSkipRequested : Bool := false
  runtimeSkipReason : String := ""
  runtimeSkipKind : RuntimeSkipKind := .user
  xfailRequested : Bool := false
  xfailReason : String := ""
  deriving DecidableEq, Repr

structure InvokeResult where
  ctxinfo : TestContextInfo
  exception : InvokeException := .none
  elapsedS : Rat := 0
  message : String := ""
  deriving DecidableEq, Repr

structure RunResult where
  timeS : Rat := 0
  skipped : Bool := false
  outcome : Outcome := .pass
  skipReason : String := ""
  xfailReason : String := ""
  failures : List String := []
  summaryIssues : List String := []
  logs : List String := []
  timeline : List String := []
  deriving DecidableEq, Repr

/-- `std::size_t` and `int` counters; a run has far fewer than 2^31 results. -/
structure TestCounters where
  total : Nat := 0
  passed : Nat := 0
  skipped : Nat := 0
  blocked : Nat := 0
  xfail : Nat := 0
  xpass : Nat := 0
  failed : Nat := 0
  failures : Nat := 0
  deriving DecidableEq, Repr

structure ReportItem where
  suite : String
  name : String
  timeS : Rat
  skipped : Bool
  skipReason : String
  outcome : Outcome
  failures : List String
  logs : List String
  timeline : List String
  tags : List String
  requirements : List String
  deriving DecidableEq, Repr

structure FailureSummary where
  name : String
  file : String
  line : Nat
  issues : List String
  deriving DecidableEq, Repr

structure GitHubAnnotation where
  file : String
  line : Nat
  title : String
  message : String
  deriving DecidableEq, Repr

structure RunAccumulator where
  reportItems : List ReportItem := []
  failureItems : List FailureSummary := []
  infraErrors : List String := []
  githubAnnotations : List GitHubAnnotation := []
  deriving DecidableEq, Repr

/-- `TestRunContext::record_results`, the counters it is run with and the
accumulator it points to, which may be absent. -/
structure RunState where
  recordResults : Bool := false
  counters : TestCounters := {}
  acc : Option RunAccumulator := none
  deriving DecidableEq, Repr

end Gentest.Runner
