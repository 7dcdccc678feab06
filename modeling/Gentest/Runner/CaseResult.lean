import Gentest.Runner.ResultModel

/-!
# From an invocation to a counted result

`finishInvokeResult` classifies one invocation; `makeStaticSkipResult` and
`recordSyntheticSkip` produce results for cases that are not invoked. Each is
read off `runner_case_result.cpp`, with the counters and the accumulator
passed as a state. `recordCaseResult` is the accumulator's side.

The section at the end states what every one of these paths does to the
counters and to the recorded fields, once, as `Produces`.
-/

namespace Gentest.Runner

-- ---------------------------------------------------------------------------
-- The accumulator
-- ---------------------------------------------------------------------------

def recordFailureSummary (acc : RunAccumulator) (name : String) (issues : List String)
    (file : String) (line : Nat) : RunAccumulator :=
  let issues := if issues.isEmpty then ["failure (no details)"] else issues
  { acc with failureItems := acc.failureItems ++ [⟨name, file, line, issues⟩] }

def recordCaseResult (acc : RunAccumulator) (test : Case) (result : RunResult)
    (includeReportItem : Bool) : RunAccumulator :=
  let acc := if result.summaryIssues.isEmpty then acc
    else recordFailureSummary acc test.name result.summaryIssues test.file test.line
  if !includeReportItem then acc
  else
    let item : ReportItem :=
      { suite := test.suite
        name := test.name
        timeS := result.timeS
        skipped := result.skipped
        skipReason := if result.skipReason.isEmpty then test.skipReason else result.skipReason
        outcome := result.outcome
        failures := result.failures
        logs := result.logs
        timeline := result.timeline
        tags := test.tags
        requirements := test.requirements }
    { acc with reportItems := acc.reportItems ++ [item] }

def addErrorAnnotation (acc : RunAccumulator) (file : String) (line : Nat)
    (title message : String) : RunAccumulator :=
  { acc with githubAnnotations := acc.githubAnnotations ++ [⟨file, line, title, message⟩] }

/-- `if (state.acc) add_error_annotation(*state.acc, ...)`. -/
def RunState.annotate (s : RunState) (file : String) (line : Nat) (title message : String) :
    RunState :=
  { s with acc := s.acc.map fun acc => addErrorAnnotation acc file line title message }

/-- `if (state.acc) record_case_result(*state.acc, ...)`. -/
def RunState.record (s : RunState) (test : Case) (rr : RunResult) : RunState :=
  { s with acc := s.acc.map (recordCaseResult · test rr s.recordResults) }

def RunState.countTotal (s : RunState) : RunState :=
  { s with counters := { s.counters with total := s.counters.total + 1 } }

-- ---------------------------------------------------------------------------
-- Results
-- ---------------------------------------------------------------------------

def makeStaticSkipResult (test : Case) (s : RunState) : RunResult × RunState :=
  let c := s.counters
  ({ skipped := true, outcome := .skip, skipReason := test.skipReason },
    { s with counters := { c with total := c.total + 1, skipped := c.skipped + 1 } })

def eventKind (kinds : List Char) (i : Nat) : Char := kinds.getD i 'L'

def linesOfKind (kind : Char) (lines : List String) (kinds : List Char) : List String :=
  (lines.zipIdx.filter fun line => eventKind kinds line.2 == kind).map Prod.fst

def collectPassVisibleTimeline (lines : List String) (kinds : List Char) : List String :=
  linesOfKind 'A' lines kinds

/-- The n-th failure line is annotated at the n-th recorded location, or at
the case when that location is missing or unusable. -/
def failureLocation (test : Case) (locations : List FailureLoc) (n : Nat) : FailureLoc :=
  match locations[n]? with
  | some loc => if !loc.file.isEmpty && loc.line > 0 then loc else ⟨test.file, test.line⟩
  | none => ⟨test.file, test.line⟩

def RunState.annotateFailures (s : RunState) (test : Case) (locations : List FailureLoc)
    (lines : List String) : RunState :=
  lines.zipIdx.foldl (fun s line =>
    let loc := failureLocation test locations line.2
    s.annotate loc.file loc.line test.name line.1) s

def InvokeException.threwNonSkip (e : InvokeException) : Bool :=
  e != .none && e != .skip && e != .blocked

def finishInvokeResult (test : Case) (inv : InvokeResult) (s : RunState) :
    RunResult × RunState :=
  let ctx := inv.ctxinfo
  let c := s.counters
  let runtimeSkipped := inv.exception == .skip
  let runtimeBlocked := inv.exception == .blocked
  let threwNonSkip := inv.exception.threwNonSkip
  let rr : RunResult := { timeS := inv.elapsedS, logs := ctx.logs, timeline := ctx.eventLines }
  let shouldSkip := runtimeSkipped && ctx.runtimeSkipRequested
  let hasFailures := !ctx.failures.isEmpty
  if runtimeBlocked && !hasFailures then
    let reason := if inv.message.isEmpty then "async test cannot resume" else inv.message
    let issue := "BLOCKED: " ++ reason
    let s := { s with counters := { c with blocked := c.blocked + 1, failures := c.failures + 1 } }
    ({ rr with skipped := true, outcome := .blocked, skipReason := reason, summaryIssues := [issue] },
      s.annotate test.file test.line test.name issue)
  else if shouldSkip && !hasFailures && !threwNonSkip then
    match ctx.runtimeSkipKind with
    | .sharedFixtureInfra =>
      let issue := if ctx.runtimeSkipReason.isEmpty then "shared fixture unavailable"
        else ctx.runtimeSkipReason
      ({ rr with skipped := true, outcome := .blocked, skipReason := "blocked: " ++ issue },
        { s with counters := { c with blocked := c.blocked + 1 } })
    | .user =>
      ({ rr with skipped := true, outcome := .skip, skipReason := ctx.runtimeSkipReason },
        { s with counters := { c with skipped := c.skipped + 1 } })
  else if ctx.xfailRequested && !shouldSkip then
    let reason := ctx.xfailReason
    if hasFailures || threwNonSkip then
      ({ rr with
          xfailReason := reason
          outcome := .xfail
          skipped := true
          skipReason := if reason.isEmpty then "xfail" else "xfail: " ++ reason },
        { s with counters := { c with xfail := c.xfail + 1, skipped := c.skipped + 1 } })
    else
      let failure := if reason.isEmpty then "xpass" else "xpass: " ++ reason
      let s := { s with counters :=
        { c with xpass := c.xpass + 1, failed := c.failed + 1, failures := c.failures + 1 } }
      ({ rr with
          xfailReason := reason
          outcome := .xpass
          failures := [failure]
          summaryIssues := [if reason.isEmpty then "XPASS" else "XPASS: " ++ reason] },
        s.annotate test.file test.line test.name failure)
  else
    let failed := { s with counters := { c with failed := c.failed + 1, failures := c.failures + 1 } }
    let rr := { rr with failures := ctx.failures }
    if hasFailures then
      let lines := linesOfKind 'F' ctx.eventLines ctx.eventKinds
      let summary := if lines.isEmpty then ctx.failures.take 1 else lines
      ({ rr with outcome := .fail, summaryIssues := summary },
        failed.annotateFailures test ctx.failureLocations lines)
    else if !threwNonSkip then
      ({ rr with
          timeline := collectPassVisibleTimeline ctx.eventLines ctx.eventKinds
          outcome := .pass },
        { s with counters := { c with passed := c.passed + 1 } })
    else
      let issue := if inv.message.isEmpty then "fatal assertion or exception (no message)"
        else inv.message
      ({ rr with outcome := .fail, failures := [issue], summaryIssues := [issue] },
        failed.annotate test.file test.line test.name issue)

/-- The result `record_synthetic_skip` builds when there is an accumulator. -/
def syntheticSkipResult (reason : String) (infraFailure : Bool) : RunResult :=
  let issue := if reason.isEmpty then "fixture allocation returned null" else reason
  { skipped := true
    outcome := if infraFailure then .blocked else .skip
    skipReason := if infraFailure then "blocked: " ++ issue else reason }

def recordSyntheticSkip (test : Case) (reason : String) (infraFailure : Bool) (s : RunState) :
    RunState :=
  let c := { s.counters with total := s.counters.total + 1 }
  let c := if infraFailure then { c with blocked := c.blocked + 1 }
    else { c with skipped := c.skipped + 1 }
  { s with counters := c }.record test (syntheticSkipResult reason infraFailure)

def sharedFixtureUnavailableMessage (fixture reason : String) : String :=
  let reason := if reason.isEmpty then "fixture allocation returned null" else reason
  if fixture.isEmpty then reason
  else "shared fixture unavailable for '" ++ fixture ++ "': " ++ reason

-- ---------------------------------------------------------------------------
-- What every path does
-- ---------------------------------------------------------------------------

/-- The move of the counters that goes with an outcome, `total` apart. Only a
block the test itself ran into counts as a failure. -/
def Outcome.tally (o : Outcome) (runtimeBlocked : Bool) (c : TestCounters) : TestCounters :=
  match o with
  | .pass => { c with passed := c.passed + 1 }
  | .fail => { c with failed := c.failed + 1, failures := c.failures + 1 }
  | .skip => { c with skipped := c.skipped + 1 }
  | .blocked =>
    { c with blocked := c.blocked + 1, failures := c.failures + if runtimeBlocked then 1 else 0 }
  | .xfail => { c with xfail := c.xfail + 1, skipped := c.skipped + 1 }
  | .xpass =>
    { c with xpass := c.xpass + 1, failed := c.failed + 1, failures := c.failures + 1 }

/-- The recorded fields agree with the outcome: what the report shows as
skipped or as failed is what the outcome says. -/
structure RunResult.Coherent (rr : RunResult) : Prop where
  skipped : rr.skipped = true ↔ rr.outcome = .skip ∨ rr.outcome = .xfail ∨ rr.outcome = .blocked
  failures : rr.failures ≠ [] ↔ rr.outcome = .fail ∨ rr.outcome = .xpass

def InvokeResult.runtimeBlocked (inv : InvokeResult) : Bool :=
  inv.exception == .blocked && inv.ctxinfo.failures.isEmpty

/-- The priority chain alone: blocked, skip, expected failure, failure. -/
def InvokeResult.outcome (inv : InvokeResult) : Outcome :=
  let ctx := inv.ctxinfo
  if inv.runtimeBlocked then .blocked
  else if inv.exception == .skip && ctx.runtimeSkipRequested then
    if !ctx.failures.isEmpty then .fail
    else if ctx.runtimeSkipKind = .sharedFixtureInfra then .blocked else .skip
  else
    let wentWrong := !ctx.failures.isEmpty || inv.exception.threwNonSkip
    if ctx.xfailRequested then (if wentWrong then .xfail else .xpass)
    else if wentWrong then .fail else .pass

def RunState.reportItems (s : RunState) : Option (List ReportItem) :=
  s.acc.map RunAccumulator.reportItems

@[simp] theorem annotate_reportItems (s : RunState) (file : String) (line : Nat)
    (title message : String) :
    (s.annotate file line title message).reportItems = s.reportItems := by
  cases h : s.acc <;> simp [RunState.annotate, RunState.reportItems, addErrorAnnotation, h]

theorem annotateFailures_frame (s : RunState) (test : Case) (locations : List FailureLoc)
    (lines : List String) :
    (s.annotateFailures test locations lines).counters = s.counters ∧
      (s.annotateFailures test locations lines).recordResults = s.recordResults ∧
      (s.annotateFailures test locations lines).reportItems = s.reportItems := by
  unfold RunState.annotateFailures
  generalize lines.zipIdx = numbered
  induction numbered generalizing s with
  | nil => exact ⟨rfl, rfl, rfl⟩
  | cons line rest ih =>
    obtain ⟨hc, hr, hi⟩ := ih (s.annotate (failureLocation test locations line.2).file
      (failureLocation test locations line.2).line test.name line.1)
    exact ⟨hc, hr, by simpa using hi⟩

/-- One case's result, counted and not yet recorded: the result is coherent
with its outcome `o`, the counters move as that outcome says, and neither the
report nor its configuration changes. -/
structure Produces (o : Outcome) (runtimeBlocked : Bool) (s : RunState)
    (out : RunResult × RunState) : Prop where
  outcome : out.1.outcome = o
  coherent : out.1.Coherent
  counters : out.2.counters = o.tally runtimeBlocked s.counters
  recordResults : out.2.recordResults = s.recordResults
  reportItems : out.2.reportItems = s.reportItems

theorem failed_produces {rr : RunResult} {s : RunState} {test : Case} {locations : List FailureLoc}
    {lines : List String}
    (h : rr.outcome = .fail ∧ rr.skipped = false ∧ rr.failures ≠ []) (runtimeBlocked : Bool) :
    Produces .fail runtimeBlocked s (rr, { s with counters :=
      { s.counters with failed := s.counters.failed + 1, failures := s.counters.failures + 1 }
      }.annotateFailures test locations lines) := by
  obtain ⟨ho, hs, hf⟩ := h
  obtain ⟨hc, hr, hi⟩ := annotateFailures_frame { s with counters :=
    { s.counters with failed := s.counters.failed + 1, failures := s.counters.failures + 1 } }
    test locations lines
  exact ⟨ho, ⟨by simp [ho, hs], by simp [ho, hf]⟩, hc, hr, hi⟩

theorem finishInvokeResult_produces (test : Case) (inv : InvokeResult) (s : RunState) :
    Produces inv.outcome inv.runtimeBlocked s (finishInvokeResult test inv s) := by
  have hthrew : (inv.exception == .skip) = true → inv.exception.threwNonSkip = false := by
    intro h; rw [eq_of_beq h]; rfl
  have hclean : inv.ctxinfo.failures.isEmpty = false → inv.ctxinfo.failures ≠ [] := by
    intro h; simpa using h
  have hempty : inv.ctxinfo.failures.isEmpty = true → inv.ctxinfo.failures = [] := by
    intro h; simpa using h
  unfold finishInvokeResult InvokeResult.outcome InvokeResult.runtimeBlocked
  dsimp only
  -- the conditions of the chain become booleans, and the cases follow its order
  generalize inv.exception.threwNonSkip = threw at *
  generalize (inv.exception == .skip) = skipped at *
  generalize inv.ctxinfo.failures.isEmpty = clean at *
  simp only [Bool.not_not]
  generalize (inv.exception == .blocked && clean) = blocked
  cases blocked with
  | true => exact ⟨rfl, ⟨by simp, by simp⟩, rfl, rfl, annotate_reportItems _ _ _ _ _⟩
  | false =>
    cases hskip : (skipped && inv.ctxinfo.runtimeSkipRequested) with
    | true =>
      simp only [Bool.and_eq_true] at hskip
      simp only [hthrew hskip.1]
      cases clean with
      | true =>
        cases inv.ctxinfo.runtimeSkipKind with
        | sharedFixtureInfra => exact ⟨rfl, ⟨by simp, by simp⟩, rfl, rfl, rfl⟩
        | user => exact ⟨rfl, ⟨by simp, by simp⟩, rfl, rfl, rfl⟩
      | false =>
        simp only [Bool.and_false, Bool.false_and, Bool.not_true, Bool.not_false,
          Bool.false_eq_true, ↓reduceIte]
        exact failed_produces ⟨rfl, rfl, hclean rfl⟩ _
    | false =>
      cases inv.ctxinfo.xfailRequested with
      | true =>
        cases hwrong : (!clean || threw) with
        | true => exact ⟨rfl, ⟨by simp, by simp⟩, rfl, rfl, rfl⟩
        | false => exact ⟨rfl, ⟨by simp, by simp⟩, rfl, rfl, annotate_reportItems _ _ _ _ _⟩
      | false =>
        cases clean with
        | false => exact failed_produces ⟨rfl, rfl, hclean rfl⟩ _
        | true =>
          cases threw with
          | false => exact ⟨rfl, ⟨by simp, by simp [hempty]⟩, rfl, rfl, rfl⟩
          | true => exact ⟨rfl, ⟨by simp, by simp⟩, rfl, rfl, annotate_reportItems _ _ _ _ _⟩

end Gentest.Runner
