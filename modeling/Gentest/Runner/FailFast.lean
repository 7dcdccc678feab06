import Gentest.Runner.ExactlyOnce

/-!
# Fail-fast and the forecast

`async_run_would_stop_fail_fast` forecasts the outcome of a run that workers
still hold, and the executor then stops the batch. The forecast takes every
block for a problem. `finish_invoke_result` does so only while no failure is
recorded: with one, a block is a failure, and an expected one if the test asked
for it. The forecast is also made before the cancel hooks run. Everywhere else
the two agree.
-/

namespace Gentest.Runner

def Outcome.problem : Outcome → Bool
  | .fail | .xpass | .blocked => true
  | .pass | .skip | .xfail => false

/-- The exception `classify_async_exception` leaves in the run. -/
def AsyncCaseRun.classified (run : AsyncCaseRun) : InvokeException :=
  (run.unclassified.map TaskException.invoke).getD run.exception

namespace AsyncExecutor

open Interleaving (mem_of_mem_move)

/-- An expected failure hides what was forecast: the test was blocked and a
failure is recorded by the time its hooks have run, or the hooks themselves
expect a failure of a test that was not skipped. -/
def masked (run : AsyncCaseRun) (hooks : List ContextOp) : Bool :=
  let ctx := runContextCancelHooks hooks run.ctxinfo
  ctx.xfailRequested &&
    if run.classified == .blocked then !ctx.failures.isEmpty
    else !(run.classified == .skip && ctx.runtimeSkipRequested)

-- ---------------------------------------------------------------------------
-- The forecast
-- ---------------------------------------------------------------------------

theorem problem_of_blocked {inv : InvokeResult} (h : inv.exception = .blocked) :
    inv.outcome.problem = !(inv.ctxinfo.xfailRequested && !inv.ctxinfo.failures.isEmpty) := by
  unfold InvokeResult.outcome InvokeResult.runtimeBlocked
  simp only [h, beq_self_eq_true, Bool.true_and]
  cases inv.ctxinfo.failures.isEmpty <;> cases inv.ctxinfo.xfailRequested <;> rfl

theorem problem_of_wrong {inv : InvokeResult} (hnot : inv.exception ≠ .blocked)
    (hwrong : inv.ctxinfo.failures ≠ [] ∨ inv.exception.threwNonSkip = true) :
    inv.outcome.problem = !(inv.ctxinfo.xfailRequested &&
      !(inv.exception == .skip && inv.ctxinfo.runtimeSkipRequested)) := by
  have hchain : inv.runtimeBlocked = false := by simp [InvokeResult.runtimeBlocked, hnot]
  unfold InvokeResult.outcome
  simp only [hchain, Bool.false_eq_true, if_false]
  split
  · rename_i hskip
    have hexception := eq_of_beq (Bool.and_eq_true _ _ ▸ hskip).1
    have hfailures : inv.ctxinfo.failures.isEmpty = false := by
      simpa [hexception, InvokeException.threwNonSkip] using hwrong
    simp [hskip, hfailures, Outcome.problem]
  · rename_i hskip
    have hsome : (!inv.ctxinfo.failures.isEmpty || inv.exception.threwNonSkip) = true := by
      simpa using hwrong
    simp only [hskip, hsome, if_true]
    cases inv.ctxinfo.xfailRequested <;> rfl

theorem contextOps_flags {ctx ctx' : TestContextInfo} (hxfail : ctx'.xfailRequested = ctx.xfailRequested)
    (hskip : ctx'.runtimeSkipRequested = ctx.runtimeSkipRequested) (ops : List ContextOp) :
    (ops.foldl ContextOp.apply ctx').xfailRequested = (ops.foldl ContextOp.apply ctx).xfailRequested ∧
      (ops.foldl ContextOp.apply ctx').runtimeSkipRequested =
        (ops.foldl ContextOp.apply ctx).runtimeSkipRequested := by
  induction ops generalizing ctx ctx' with
  | nil => exact ⟨hxfail, hskip⟩
  | cons op ops ih =>
    cases op with
    | recordFailure msg loc | log line => exact ih hxfail hskip
    | requestRuntimeSkip reason kind => exact ih hxfail rfl
    | xfail reason => exact ih rfl hskip

theorem contextOps_failures {ctx : TestContextInfo} (h : ctx.failures ≠ []) (ops : List ContextOp) :
    (ops.foldl ContextOp.apply ctx).failures ≠ [] := by
  induction ops generalizing ctx with
  | nil => exact h
  | cons op ops ih =>
    cases op with
    | recordFailure msg loc => exact ih (List.append_ne_nil_of_left_ne_nil h _)
    | log line | requestRuntimeSkip reason kind | xfail reason => exact ih h

theorem classify_exception (run : AsyncCaseRun) :
    (classifyAsyncException run).exception = run.classified := by
  unfold classifyAsyncException AsyncCaseRun.classified
  split <;> simp_all [AsyncCaseRun.handle]

theorem classify_ctxinfo (run : AsyncCaseRun) :
    (classifyAsyncException run).ctxinfo.xfailRequested = run.ctxinfo.xfailRequested ∧
      (classifyAsyncException run).ctxinfo.runtimeSkipRequested = run.ctxinfo.runtimeSkipRequested ∧
      (run.ctxinfo.failures ≠ [] → (classifyAsyncException run).ctxinfo.failures ≠ []) := by
  unfold classifyAsyncException
  split
  · exact ⟨rfl, rfl, id⟩
  · rename_i ex hex
    simp only [AsyncCaseRun.handle]
    cases ex.recorded with
    | none => exact ⟨rfl, rfl, id⟩
    | some msg => exact ⟨rfl, rfl, fun h => List.append_ne_nil_of_left_ne_nil h _⟩

theorem classify_blocked {run : AsyncCaseRun} (h : run.classified = .blocked) :
    (classifyAsyncException run).ctxinfo = run.ctxinfo := by
  unfold AsyncCaseRun.classified at h
  unfold classifyAsyncException
  split
  · rfl
  · rename_i ex hex
    have hinvoke : ex.invoke = .blocked := by simpa [hex] using h
    cases ex with
    | blocked reason => rfl
    | skip | assertion message | failure what | stdException what | unknown => cases hinvoke

theorem wrong_of_forecast {run : AsyncCaseRun} (hsound : run.Sound)
    (hstop : asyncRunWouldStopFailFast run = true) (hnot : run.classified ≠ .blocked) :
    run.ctxinfo.failures ≠ [] ∨ run.classified.threwNonSkip = true := by
  simp only [asyncRunWouldStopFailFast, Bool.and_eq_true, Bool.or_eq_true] at hstop
  obtain ⟨-, hexception | hfailures⟩ := hstop
  · right
    unfold asyncExceptionWouldStopFailFast at hexception
    unfold AsyncCaseRun.classified AsyncCaseRun.unclassified at hnot ⊢
    have hskip := hsound.skip
    cases hex : run.exception with
    | blocked => simp [hex] at hnot
    | assertion | failure | stdException | unknown => simp [InvokeException.threwNonSkip]
    | skip =>
      rw [hskip hex] at hexception
      simp [hex] at hexception
    | none =>
      cases htask : run.task.bind AsyncTask.exception with
      | none => simp [hex, htask] at hexception
      | some ex =>
        cases ex with
        | blocked reason => simp [hex, htask, TaskException.invoke] at hnot
        | skip => simp [hex, htask] at hexception
        | assertion message | failure what | stdException what | unknown =>
          simp [TaskException.invoke, InvokeException.threwNonSkip]
  · exact .inl (hsound.coherent hfailures.2)

theorem problem_forcedResult {run : AsyncCaseRun} (hsound : run.Sound)
    (hstop : asyncRunWouldStopFailFast run = true) (hooks : List ContextOp) :
    (forcedResult run hooks).outcome.problem = !masked run hooks := by
  have hexception : (forcedResult run hooks).exception = run.classified := classify_exception run
  obtain ⟨hxfail, hskip, hfailures⟩ := classify_ctxinfo run
  by_cases hblocked : run.classified = .blocked
  · have hctx : (forcedResult run hooks).ctxinfo = runContextCancelHooks hooks run.ctxinfo :=
      congrArg (runContextCancelHooks hooks) (classify_blocked hblocked)
    rw [problem_of_blocked (hexception.trans hblocked), hctx]
    simp [masked, hblocked]
  · have hflags : (forcedResult run hooks).ctxinfo.xfailRequested =
          (runContextCancelHooks hooks run.ctxinfo).xfailRequested ∧
        (forcedResult run hooks).ctxinfo.runtimeSkipRequested =
          (runContextCancelHooks hooks run.ctxinfo).runtimeSkipRequested :=
      contextOps_flags hxfail hskip hooks
    have hwrong : (forcedResult run hooks).ctxinfo.failures ≠ [] ∨
        (forcedResult run hooks).exception.threwNonSkip = true := by
      rw [hexception]
      exact (wrong_of_forecast hsound hstop hblocked).imp
        (fun h => contextOps_failures (hfailures h) hooks) id
    have hnot : (forcedResult run hooks).exception ≠ .blocked := hexception ▸ hblocked
    rw [problem_of_wrong hnot hwrong, hexception, hflags.1, hflags.2]
    simp [masked, hblocked]

-- ---------------------------------------------------------------------------
-- The forecast along a batch
-- ---------------------------------------------------------------------------

def Forced.masked (forced : Forced) : Bool := AsyncExecutor.masked forced.run forced.hooks

/-- A stop is requested for a run that was finalized by force, and what such a
run came to is as the forecast said unless it was masked. -/
structure Batch.Foretold (b : Batch) : Prop where
  sound : ∀ run ∈ b.runs, run.finalized = false → run.toAsyncCaseRun.Sound
  requested : b.failFastStopRequested = true → b.forced ≠ []
  outcome : ∀ forced ∈ b.forced, forced.outcome.problem = !forced.masked
  problem : ∀ forced ∈ b.forced, forced.outcome.problem = true → b.Problem

theorem Batch.Foretold.setRun {b : Batch} {i : Nat} (h : b.Foretold)
    (hsound : run'.finalized = false → run'.toAsyncCaseRun.Sound) : (b.setRun i run').Foretold := by
  refine ⟨fun run hmem hopen => ?_, h.requested, h.outcome, h.problem⟩
  rcases mem_of_mem_move hmem with rfl | hmem
  · exact hsound hopen
  · exact h.sound run hmem hopen

theorem Batch.Foretold.retire {b : Batch} {i : Nat} (h : b.Foretold) (hr : Retires run run') :
    (b.setRun i run').Foretold := h.setRun fun hopen => by simp [hr.finalized] at hopen

theorem Batch.Foretold.apply (h : Batch.Foretold b) (occurrence : Nat) (event : CaseEvent) :
    (b.apply occurrence event).Foretold :=
  ⟨h.sound, h.requested, h.outcome, fun forced hmem hproblem =>
    (h.problem forced hmem hproblem).apply occurrence event⟩

theorem problem_apply (b : Batch) (occurrence : Nat) (test : Case) {inv : InvokeResult}
    (h : inv.outcome.problem = true) : (b.apply occurrence (.invoke test inv)).Problem := by
  have hcounters := (finishInvokeResult_produces test inv b.state.countTotal).counters
  have hstate : (b.apply occurrence (.invoke test inv)).state.counters =
      inv.outcome.tally inv.runtimeBlocked b.state.countTotal.counters := hcounters
  unfold Batch.Problem
  rw [hstate]
  cases houtcome : inv.outcome with
  | fail | xpass => exact .inl (Nat.succ_pos _)
  | blocked => exact .inr (Nat.succ_pos _)
  | pass | skip | xfail => simp [houtcome, Outcome.problem] at h

theorem Batch.Foretold.force {b : Batch} {i : Nat} (h : b.Foretold) (hrun : b.runs[i]? = some run)
    (hopen : run.finalized = false) (hr : Retires run run')
    (hstop : asyncRunWouldStopFailFast run.toAsyncCaseRun = true) (test : Case) (hooks : List ContextOp) :
    (b.force i run run' test hooks).Foretold := by
  have hset := h.retire (i := i) hr
  have hsound := h.sound run (List.mem_of_getElem? hrun) hopen
  have hmem : ∀ forced : Forced, forced ∈ (b.force i run run' test hooks).forced →
      forced ∈ b.forced ∨ forced = ⟨run.toAsyncCaseRun, hooks, (forcedResult run.toAsyncCaseRun hooks).outcome⟩ :=
    fun forced hmem => (List.mem_append.mp hmem).imp id List.mem_singleton.mp
  refine ⟨hset.sound, fun _ => List.append_ne_nil_of_right_ne_nil _ (List.cons_ne_nil _ _),
    fun forced hforced => ?_, fun forced hforced hproblem => ?_⟩
  · rcases hmem forced hforced with hold | rfl
    · exact h.outcome forced hold
    · exact problem_forcedResult hsound hstop hooks
  · rcases hmem forced hforced with hold | rfl
    · refine Batch.Problem.apply ?_ _ _
      exact h.problem forced hold hproblem
    · exact problem_apply _ _ _ hproblem

theorem Batch.Foretold.move (h : Batch.Foretold b) (hmove : Move env b b') : b'.Foretold := by
  cases hmove with
  | tick | advance => exact ⟨h.sound, h.requested, h.outcome, h.problem⟩
  | update hrun hopen hu =>
    exact h.setRun fun _ => hu.sound (h.sound _ (List.mem_of_getElem? hrun) hopen)
  | finish hrun hopen hr event => exact (h.retire hr).apply _ _
  | force hrun hopen hr hstop test hooks => exact h.force hrun hopen hr hstop test hooks
  | @defer _ i run run' hrun hopen hr =>
    have hset := h.retire (i := i) hr
    exact ⟨hset.sound, hset.requested, hset.outcome, hset.problem⟩
  | destroy hdeferred hvoid => exact ⟨h.sound, h.requested, h.outcome, h.problem⟩
  | @settle task rest _ run hdeferred howed hrun event =>
    have hpop : Batch.Foretold { b with deferredCanceledTasks := rest } :=
      ⟨h.sound, h.requested, h.outcome, h.problem⟩
    have hset : (Batch.setRun { b with deferredCanceledTasks := rest } task.runIndex
        { run with message := "" }).Foretold := hpop.setRun fun hopen => by
      have hsound := h.sound run (List.mem_of_getElem? hrun) hopen
      exact ⟨hsound.coherent, hsound.done, hsound.skip⟩
    exact hset.apply _ _

theorem Batch.Foretold.append {b : Batch} {run : Run} (h : b.Foretold) (caseIndex : Nat)
    (hsound : run.finalized = false → run.toAsyncCaseRun.Sound) :
    Batch.Foretold { b.begin caseIndex with runs := b.runs ++ [run] } := by
  refine ⟨fun other hmem hopen => ?_, h.requested, h.outcome, h.problem⟩
  rcases List.mem_append.mp hmem with hmem | hmem
  · exact h.sound other hmem hopen
  · obtain rfl := List.mem_singleton.mp hmem
    exact hsound hopen

theorem Batch.Foretold.batchMove (h : Batch.Foretold b) (hmove : BatchMove env b b') : b'.Foretold := by
  cases hmove with
  | move hmove => exact h.move hmove
  | event caseIndex event =>
    have hbegin : (b.begin caseIndex).Foretold := ⟨h.sound, h.requested, h.outcome, h.problem⟩
    exact hbegin.apply _ _
  | start caseIndex hocc hopen htask hheld hsound => exact h.append caseIndex fun _ => hsound
  | refuse caseIndex hocc hfin event =>
    exact (h.append caseIndex fun hopen => by simp [hfin] at hopen).apply _ _

theorem Batch.Foretold.cancelMove (h : Batch.Foretold b) (hmove : CancelMove env b b') : b'.Foretold := by
  cases hmove with
  | move hmove => exact h.move hmove
  | @cancel i run run' hrun hopen hr adopted =>
    have hset := h.retire (i := i) hr
    cases adopted <;> exact ⟨hset.sound, hset.requested, hset.outcome, hset.problem⟩

-- ---------------------------------------------------------------------------
-- Why a batch stops
-- ---------------------------------------------------------------------------

variable (env : Env) (plans : List SuiteExecutionPlan) (state : RunState)

theorem foretold_runTestsAsyncBatch : (runTestsAsyncBatch env plans state).1.Foretold :=
  runTestsAsyncBatch_invariant env plans state
    ⟨fun _ h => absurd h List.not_mem_nil, nofun, fun _ h => absurd h List.not_mem_nil,
      fun _ h => absurd h List.not_mem_nil⟩
    (fun _ _ h hmove => h.batchMove hmove) fun _ _ h hmove => h.cancelMove hmove

/-- An occurrence is only left without a result when the batch was stopped. -/
theorem stop_of_uncounted {n : Nat} (hn : n < (planned plans).length)
    (h : (runTestsAsyncBatch env plans state).1.counted.count n = 0) :
    (runTestsAsyncBatch env plans state).1.shouldStop env = true := by
  refine shouldStop_cancel (cancel_afterPlans env plans state) ?_
  by_contra hgo
  rw [count_of_go env plans state (by simpa using hgo) hn] at h
  cases h

/-- The batch only stops on a problem that is counted, and what was forecast as
a problem is one. -/
structure StopsOnProblem (out : Batch × Bool) : Prop where
  stopped : (out.2 = true ∨ ∃ n < (planned plans).length, out.1.counted.count n = 0) → out.1.Problem
  forecast : ∀ forced ∈ out.1.forced, forced.outcome.problem = true

theorem fail_fast_stops_on_problem :
    StopsOnProblem plans (runTestsAsyncBatch env plans state) ↔
      ∀ forced ∈ (runTestsAsyncBatch env plans state).1.forced, forced.masked = false := by
  have hforetold := foretold_runTestsAsyncBatch env plans state
  have houtcome : ∀ forced ∈ (runTestsAsyncBatch env plans state).1.forced,
      forced.outcome.problem = true ↔ forced.masked = false := fun forced hmem => by
    rw [hforetold.outcome forced hmem, Bool.not_eq_true']
  refine ⟨fun h forced hmem => (houtcome forced hmem).mp (h.forecast forced hmem), fun h => ?_⟩
  have hforecast : ∀ forced ∈ (runTestsAsyncBatch env plans state).1.forced,
      forced.outcome.problem = true := fun forced hmem => (houtcome forced hmem).mpr (h forced hmem)
  refine ⟨fun hreason => ?_, hforecast⟩
  have hstop : (runTestsAsyncBatch env plans state).1.shouldStop env = true := by
    rcases hreason with hreturned | ⟨n, hn, huncounted⟩
    · exact hreturned
    · exact stop_of_uncounted env plans state hn huncounted
  obtain ⟨-, hrequested | hproblem⟩ := (shouldStop_iff env _).mp hstop
  · obtain ⟨forced, hmem⟩ := List.exists_mem_of_ne_nil _ (hforetold.requested hrequested)
    exact hforetold.problem forced hmem (hforecast forced hmem)
  · exact hproblem

/-- Two cases with fail-fast: the first is async, expects a failure, records one
and is blocked while it holds adopted work. -/
def blockedExpected : Env where
  cases i := { name := "case", hasAsyncFn := i == 0 }
  failFast := true
  adopted _ _ := true
  resumes _ := [{
    index := 0
    ops := [.xfail "known", .recordFailure "expectation" {}]
    result := .done (some (.blocked "abandoned")) }]

/-- The batch returns true with no failure and no block counted: the run came to
an expected failure. -/
theorem stops_without_problem :
    ¬ StopsOnProblem [{ freeLike := [0, 1] }]
      (runTestsAsyncBatch blockedExpected [{ freeLike := [0, 1] }] {}) := by
  intro h
  have hrun : (runTestsAsyncBatch blockedExpected [{ freeLike := [0, 1] }] {}).2 = true ∧
      (runTestsAsyncBatch blockedExpected [{ freeLike := [0, 1] }] {}).1.state.counters.failures = 0 ∧
      (runTestsAsyncBatch blockedExpected [{ freeLike := [0, 1] }] {}).1.state.counters.blocked = 0 := by
    decide +kernel
  obtain ⟨hreturned, hfailures, hblocked⟩ := hrun
  rcases h.stopped (.inl hreturned) with hproblem | hproblem
  · simp [hfailures] at hproblem
  · simp [hblocked] at hproblem

end AsyncExecutor

end Gentest.Runner
