import Gentest.Runner.SyncExecutor

/-!
# The executors agree

Without async runs, pumping, finishing a group and canceling it do nothing, so
the async batch executor goes through the cases as the synchronous one does.
The two are related case by case; `executors_agree` is the result for a run.
-/

namespace Gentest.Runner.SyncExecutor

open Loops
open AsyncExecutor

-- ---------------------------------------------------------------------------
-- A batch without runs
-- ---------------------------------------------------------------------------

/-- No async case was ever begun. -/
structure NoRuns (b : Batch) : Prop where
  runs : b.runs = []
  deferred : b.deferredCanceledTasks = []

variable {env : Env} {b : Batch}

theorem NoRuns.tick (h : NoRuns b) : NoRuns b.tick := ⟨h.runs, h.deferred⟩

theorem shouldStop_tick : b.tick.shouldStop env = b.shouldStop env := rfl

theorem advance_noRuns (h : NoRuns b) : b.advanceFirstUnfinalized = b := by
  have hnone : ((b.runs.drop b.firstUnfinalizedScan).takeWhile fun run => run.finalized).length = 0 := by
    simp [h.runs]
  unfold Batch.advanceFirstUnfinalized
  rw [hnone]
  rfl

theorem scanned_noRuns (h : NoRuns b) : b.scanned = [] := by
  simp [Batch.scanned, h.runs]

theorem finalizeCompleted_noRuns (h : NoRuns b) : b.finalizeCompletedRuns env = (b, b.shouldStop env) := by
  simp [Batch.finalizeCompletedRuns, scanned_noRuns h, loopUntil, advance_noRuns h]

theorem progress_noRuns (h : NoRuns b) : b.progress env = (b, b.shouldStop env) := by
  simp [Batch.progress, finalizeCompleted_noRuns h]

theorem resume_noRuns (h : NoRuns b) (r : Resume) : b.resume env r = b := by
  simp [Batch.resume, h.runs]

/-- Pumping only looks at whether to stop. -/
theorem pump_noRuns (env : Env) (h : NoRuns b) :
    b.pumpAsync env = if b.shouldStop env then (b, true) else (b.tick, false) := by
  unfold Batch.pumpAsync
  rw [progress_noRuns h]
  cases hstop : b.shouldStop env with
  | true => rfl
  | false =>
    have hprogress : b.tick.progress env = (b.tick, false) := by
      rw [progress_noRuns h.tick, shouldStop_tick, hstop]
    have hloop : loopUntil (fun r b => (b.resume env r).progress env) (env.resumes b.clock) b.tick =
        (b.tick, false) := by
      refine loopUntil_fixed fun r _ => ?_
      rw [resume_noRuns h.tick, hprogress]
    have hfold : (env.resumes b.clock).foldl (fun b r => b.resume env r) b.tick = b.tick :=
      foldl_invariant (P := fun b' => b' = b.tick) (fun r _ b' hb' => by rw [hb', resume_noRuns h.tick]) rfl
    simp [hloop, hfold, hprogress]

theorem finishUnresumable_noRuns (h : NoRuns b) (hstop : b.shouldStop env = false) :
    b.finishUnresumable env = (b.tick, false) := by
  have hstop' : b.tick.shouldStop env = false := hstop
  have hprogress : b.tick.progress env = (b.tick, false) := by rw [progress_noRuns h.tick, hstop']
  have hround : ∀ round, drainRound env round b.tick = (b.tick, false) := by
    intro round
    have hone : loopUntil (drainOne env) round b.tick = (b.tick, false) := by
      refine loopUntil_fixed fun r _ => ?_
      simp [drainOne, hstop', resume_noRuns h.tick, hprogress]
    simp [drainRound, hone, hprogress]
  have hrounds : loopUntil (drainRound env) ((env.rounds b.clock).1 :: (env.rounds b.clock).2) b.tick =
      (b.tick, false) := loopUntil_fixed fun round _ => hround round
  simp only [Batch.finishUnresumable, hrounds]
  simp [h.tick.runs, loopUntil]

theorem destroyCanceled_noRuns (h : NoRuns b) : b.destroyCanceledTasksAfterAdoptedRelease env = b := by
  have hsame : { b with deferredCanceledTasks := [] } = b := by rw [← h.deferred]
  simp [Batch.destroyCanceledTasksAfterAdoptedRelease, h.deferred, destroyCanceledTasks, hsame]

theorem finishPending_noRuns (h : NoRuns b) :
    b.finishPendingAsyncGroup env = if b.shouldStop env then (b, true) else (b.tick, false) := by
  unfold Batch.finishPendingAsyncGroup
  rw [finalizeCompleted_noRuns h]
  cases hstop : b.shouldStop env with
  | true => rfl
  | false =>
    have hstop' : b.tick.shouldStop env = false := hstop
    simp [finishUnresumable_noRuns h hstop, finalizeCompleted_noRuns h.tick, hstop', scanned_noRuns h.tick, loopUntil,
      destroyCanceled_noRuns h.tick, advance_noRuns h.tick]

theorem cancelPending_noRuns (h : NoRuns b) : b.cancelPendingAsyncGroup env = b := by
  simp [Batch.cancelPendingAsyncGroup, scanned_noRuns h, destroyCanceled_noRuns h, advance_noRuns h]

-- ---------------------------------------------------------------------------
-- Case by case
-- ---------------------------------------------------------------------------

/-- The environment in which the cases and fixtures do what `tests` says. -/
def answersOf (env : Env) (tests : Tests) (b : Batch) : Env :=
  { env with
    cases := tests.cases
    failFast := tests.failFast
    invoke := fun _ => tests.invoke b.next
    fixture := fun _ => tests.fixture b.next }

/-- The two executors have done the same so far. -/
structure Matches (t : Traced) (s : SyncRun) : Prop where
  state : t.batch.state = s.state
  started : t.batch.started = s.started
  trace : t.toTrace = s.toTrace
  noRuns : NoRuns t.batch
  flag : t.batch.failFastStopRequested = false

structure Goes (tests : Tests) (t : Traced) (s : SyncRun) : Prop extends Matches t s where
  goes : shouldStopAfterFailure tests s.state.counters = false

/-- The outcome of a step of each: the same, and both stop or both go on. -/
def InStep (tests : Tests) (out : Traced × Bool) (out' : SyncRun × Bool) : Prop :=
  Matches out.1 out'.1 ∧ out.2 = out'.2 ∧ (out.2 = false → Goes tests out.1 out'.1)

variable {tests : Tests} {t : Traced} {s : SyncRun}

theorem inStep_loop {body : α → Traced → Traced × Bool} {body' : α → SyncRun → SyncRun × Bool} (as : List α)
    (hbody : ∀ a t s, Goes tests t s → InStep tests (body a t) (body' a s)) (h : Goes tests t s) :
    InStep tests (loopUntil body as t) (loopUntil body' as s) :=
  loopUntil_simulates (fun _ _ h => h.toMatches) hbody h

theorem Matches.shouldStop (h : Matches t s) (env : Env) (henv : env.failFast = tests.failFast) :
    t.batch.shouldStop env = shouldStopAfterFailure tests s.state.counters := by
  simp [Batch.shouldStop, shouldStopAfterFailure, h.flag, h.state, henv]

theorem Matches.next (h : Matches t s) : t.batch.next = s.started.length := by
  rw [Batch.next, h.started]

theorem Matches.tick (h : Matches t s) : Matches ⟨t.toTrace, t.batch.tick⟩ s :=
  ⟨h.state, h.started, h.trace, h.noRuns.tick, h.flag⟩

theorem Goes.tick (h : Goes tests t s) : Goes tests ⟨t.toTrace, t.batch.tick⟩ s := ⟨h.toMatches.tick, h.goes⟩

def handled (env : Env) (i : Nat) (b : Batch) : Batch :=
  if (env.cases i).shouldSkip then b.staticSkip env i else b.execute env i

theorem handleCase_noRuns (h : NoRuns b) (hstop : b.shouldStop env = false)
    (hsync : (env.cases i).hasAsyncFn = false) :
    handleCase env i b = (handled env i b.tick).pumpAsync env := by
  unfold handleCase handled
  rw [pump_noRuns env h, hstop]
  simp [hsync]

theorem handled_noRuns (env : Env) (i : Nat) (h : NoRuns b) : NoRuns (handled env i b) := by
  unfold handled
  split
  · exact ⟨h.runs, h.deferred⟩
  · exact ⟨h.runs, h.deferred⟩

/-- Finishing an invocation does not make an accumulator appear or go. -/
theorem finishInvokeResult_acc (test : Case) (inv : InvokeResult) (state : RunState) :
    (finishInvokeResult test inv state).2.acc.isSome = state.acc.isSome := by
  have hitems := congrArg Option.isSome (finishInvokeResult_produces test inv state).reportItems
  simpa [RunState.reportItems] using hitems

theorem Matches.handled (h : Matches t s) (env : Env) (hsync : (tests.cases i).hasAsyncFn = false) :
    Matches ⟨t.toTrace.handle (answersOf env tests t.batch) i t.batch.tick,
      handled (answersOf env tests t.batch) i t.batch.tick⟩ (executeAndRecord tests i s) := by
  have hruns := handled_noRuns (answersOf env tests t.batch) i h.noRuns.tick
  have hnext := h.next
  have hlength : t.batch.started.length = s.started.length := h.next
  have htrace := h.trace
  unfold SyncExecutor.handled at hruns ⊢
  unfold executeAndRecord executeOne Trace.handle caseResult
  cases hskip : (tests.cases i).shouldSkip with
  | true =>
    refine ⟨?_, ?_, ?_, by simpa [answersOf, hskip] using hruns, ?_⟩
    · simp [Batch.staticSkip, Batch.recordCaseResult, Batch.begin, Batch.tick, SyncRun.record, answersOf, h.state, hskip]
    · simp [Batch.staticSkip, Batch.recordCaseResult, Batch.begin, Batch.tick, SyncRun.record, answersOf, h.started, hskip]
    · simp [Trace.note, SyncRun.record, answersOf, hskip, makeStaticSkipResult, htrace, h.state, hlength, Batch.tick, Batch.next]
    · simpa [answersOf, hskip, Batch.staticSkip, Batch.recordCaseResult, Batch.begin, Batch.tick] using h.flag
  | false =>
    refine ⟨?_, ?_, ?_, by simpa [answersOf, hskip] using hruns, ?_⟩
    · simp [Batch.execute, Batch.recordCaseResult, Batch.begin, Batch.countTotal, Batch.tick, SyncRun.record,
        answersOf, h.state, hnext, hskip]
    · simp [Batch.execute, Batch.recordCaseResult, Batch.begin, Batch.countTotal, Batch.tick, SyncRun.record, answersOf,
        h.started, hskip]
    · simp [Trace.note, SyncRun.record, answersOf, hskip, hsync, finishInvokeResult_acc, htrace, h.state, hlength,
        Batch.tick, Batch.next, RunState.countTotal]
    · simpa [answersOf, hskip, Batch.execute, Batch.recordCaseResult, Batch.countTotal, Batch.begin, Batch.tick]
        using h.flag

theorem handleCaseOn_runCase (hsync : ∀ i, (tests.cases i).hasAsyncFn = false) (i : Nat) (h : Goes tests t s) :
    InStep tests (handleCaseOn (answersOf env tests) i t) (runCase tests i s) := by
  have hstop : t.batch.shouldStop (answersOf env tests t.batch) = false := (h.shouldStop _ rfl).trans h.goes
  have hdone := h.toMatches.handled env (hsync i)
  have hpump := pump_noRuns (answersOf env tests t.batch) hdone.noRuns
  have hstop' := hdone.shouldStop (answersOf env tests t.batch) rfl
  simp only at hpump hstop'
  have hcase : handleCaseOn (answersOf env tests) i t =
      (⟨t.toTrace.handle (answersOf env tests t.batch) i t.batch.tick,
        ((SyncExecutor.handled (answersOf env tests t.batch) i t.batch.tick).pumpAsync (answersOf env tests t.batch)).1⟩,
        ((SyncExecutor.handled (answersOf env tests t.batch) i t.batch.tick).pumpAsync
          (answersOf env tests t.batch)).2) := by
    simp only [handleCaseOn, handleCase_noRuns h.noRuns hstop (hsync i), pump_noRuns _ h.noRuns, hstop]
    rfl
  rw [hcase, hpump, hstop', runCase]
  cases hgo : shouldStopAfterFailure tests (executeAndRecord tests i s).state.counters with
  | true => exact ⟨hdone, rfl, nofun⟩
  | false => exact ⟨hdone.tick, rfl, fun _ => ⟨hdone.tick, hgo⟩⟩

theorem blockCaseOn_skipCase (message : String) (i : Nat) (h : Goes tests t s) :
    InStep tests (blockCaseOn (answersOf env tests) message i t) (skipCase tests message i s) := by
  have hmatch : Matches (blockCaseOn (answersOf env tests) message i t).1 (skipCase tests message i s).1 := by
    refine ⟨?_, ?_, ?_, ⟨h.noRuns.runs, h.noRuns.deferred⟩, h.flag⟩
    · simp [blockCaseOn, blockCase, skipCase, answersOf, h.state]
    · simp [blockCaseOn, blockCase, skipCase, Batch.begin, h.started]
    · simp [blockCaseOn, skipCase, Trace.note, h.state, h.trace, h.next]
  have hstop : (blockCaseOn (answersOf env tests) message i t).2 = (skipCase tests message i s).2 :=
    hmatch.shouldStop _ rfl
  exact ⟨hmatch, hstop, fun hgo => ⟨hmatch, hstop.symm.trans hgo⟩⟩

theorem finishOn_goes (h : Goes tests t s) : finishOn (answersOf env tests) t = (⟨t.toTrace, t.batch.tick⟩, false) := by
  have hstop : t.batch.shouldStop (answersOf env tests t.batch) = false := (h.shouldStop _ rfl).trans h.goes
  simp [finishOn, finishPending_noRuns h.noRuns, hstop]

theorem collectGroupOn_runGroup (hsync : ∀ i, (tests.cases i).hasAsyncFn = false) (group : FixtureGroupPlan)
    (h : Goes tests t s) :
    InStep tests (collectGroupOn (answersOf env tests) group t) (runGroup tests group s) := by
  have hfixture : (if group.idxs.isEmpty then none else (answersOf env tests t.batch).fixture t.batch.clock) =
      if group.idxs.isEmpty then none else tests.fixture s.started.length := by
    simp [answersOf, h.next]
  unfold collectGroupOn runGroup
  simp only [hfixture]
  cases if group.idxs.isEmpty then none else tests.fixture s.started.length with
  | some reason =>
    exact inStep_loop _ (fun i t s h => blockCaseOn_skipCase _ i h) h.tick
  | none =>
    obtain ⟨hend, hsame, hgo⟩ := inStep_loop group.idxs
      (fun i t s h => handleCaseOn_runCase hsync i h) h.tick
    simp only
    generalize loopUntil (handleCaseOn (answersOf env tests)) group.idxs ⟨t.toTrace, t.batch.tick⟩ = out at *
    obtain ⟨t', stop⟩ := out
    cases stop with
    | true => exact ⟨hend, hsame, nofun⟩
    | false =>
      have hgoes := hgo rfl
      simp only [Bool.false_eq_true, if_false, finishOn_goes hgoes]
      exact ⟨hend.tick, hsame, fun _ => hgoes.tick⟩

theorem runPlanOn_runSyncPlan (hsync : ∀ i, (tests.cases i).hasAsyncFn = false) (plan : SuiteExecutionPlan)
    (h : Goes tests t s) :
    InStep tests (runPlanOn (answersOf env tests) plan t) (runSyncPlan tests plan s) := by
  have hgroups : ∀ (groups : List FixtureGroupPlan) {t : Traced} {s : SyncRun}, Goes tests t s →
      InStep tests (loopUntil (collectGroupOn (answersOf env tests)) groups t) (loopUntil (runGroup tests) groups s) :=
    fun groups _ _ h => inStep_loop groups (fun g t s h => collectGroupOn_runGroup hsync g h) h
  obtain ⟨hend, hsame, hgo⟩ := inStep_loop plan.freeLike
    (fun i t s h => handleCaseOn_runCase hsync i h) h
  unfold runPlanOn runSyncPlan
  simp only
  generalize loopUntil (handleCaseOn (answersOf env tests)) plan.freeLike t = out at *
  generalize loopUntil (runCase tests) plan.freeLike s = out' at *
  obtain ⟨t', stop⟩ := out
  obtain ⟨s', stop'⟩ := out'
  cases hsame
  cases stop with
  | true => exact ⟨hend, rfl, nofun⟩
  | false =>
    have hgoes := hgo rfl
    simp only [Bool.false_eq_true, if_false, finishOn_goes hgoes]
    obtain ⟨hend, hsame, hgo⟩ := hgroups plan.suiteGroups hgoes.tick
    generalize loopUntil (collectGroupOn (answersOf env tests)) plan.suiteGroups ⟨t'.toTrace, t'.batch.tick⟩ = out at *
    generalize loopUntil (runGroup tests) plan.suiteGroups s' = out' at *
    obtain ⟨t'', stop⟩ := out
    obtain ⟨s'', stop'⟩ := out'
    cases hsame
    cases stop with
    | true => exact ⟨hend, rfl, nofun⟩
    | false => exact hgroups plan.globalGroups (hgo rfl)

-- ---------------------------------------------------------------------------
-- The run
-- ---------------------------------------------------------------------------

/-- What remains of a step of the traced executor without its trace. -/
def erase (out : Traced × Bool) : Batch × Bool := (out.1.batch, out.2)

theorem erase_loop {body : α → Traced → Traced × Bool} {body' : α → Batch → Batch × Bool} (as : List α)
    (hbody : ∀ a t, body' a t.batch = erase (body a t)) (t : Traced) :
    loopUntil body' as t.batch = erase (loopUntil body as t) := by
  induction as generalizing t with
  | nil => rfl
  | cons a as ih =>
    unfold loopUntil
    rw [hbody a t]
    cases hstop : (body a t).2 with
    | true => rw [if_pos (by rw [erase, hstop]), if_pos rfl]
    | false =>
      rw [if_neg (by rw [erase, hstop]; exact Bool.false_ne_true), if_neg Bool.false_ne_true]
      exact ih (body a t).1

theorem erase_handleCaseOn (env : Env) (i : Nat) (t : Traced) :
    handleCase env i t.batch = erase (handleCaseOn (fun _ => env) i t) := rfl

theorem erase_finishOn (env : Env) (t : Traced) :
    t.batch.finishPendingAsyncGroup env = erase (finishOn (fun _ => env) t) := rfl

theorem erase_collectGroupOn (env : Env) (group : FixtureGroupPlan) (t : Traced) :
    collectGroup env group t.batch = erase (collectGroupOn (fun _ => env) group t) := by
  unfold collectGroupOn collectGroup
  simp only
  cases if group.idxs.isEmpty then none else env.fixture t.batch.clock with
  | some reason => exact erase_loop group.idxs (fun i t => rfl) ⟨t.toTrace, t.batch.tick⟩
  | none =>
    have hcases := erase_loop group.idxs (erase_handleCaseOn env) ⟨t.toTrace, t.batch.tick⟩
    simp only [hcases]
    rw [apply_ite erase, ← erase_finishOn]
    rfl

theorem erase_runPlanOn (env : Env) (plan : SuiteExecutionPlan) (t : Traced) :
    runPlan env plan t.batch = erase (runPlanOn (fun _ => env) plan t) := by
  have hgroups : ∀ (groups : List FixtureGroupPlan) (t : Traced),
      loopUntil (collectGroup env) groups t.batch = erase (loopUntil (collectGroupOn fun _ => env) groups t) :=
    fun groups => erase_loop groups (erase_collectGroupOn env)
  unfold runPlan runPlanOn
  simp only [erase_loop plan.freeLike (erase_handleCaseOn env)]
  simp only [erase, erase_finishOn, hgroups]
  split_ifs <;> rfl

/-- With one environment throughout, the traced executor is the executor. -/
theorem erase_runTestsAsyncBatchOn (env : Env) (plans : List SuiteExecutionPlan) (state : RunState) :
    runTestsAsyncBatch env plans state = erase (runTestsAsyncBatchOn (fun _ => env) plans state) := by
  have hplans := erase_loop plans (erase_runPlanOn env) ⟨{}, { state := state }⟩
  unfold runTestsAsyncBatchOn runTestsAsyncBatch
  simp only [hplans]
  rfl

theorem runCase_started (tests : Tests) (i : Nat) (s : SyncRun) : (runCase tests i s).1.started = s.started ++ [i] := by
  unfold runCase executeAndRecord executeOne
  simp only [SyncRun.record]
  split <;> rfl

/-- A part of the run begins its cases in order: all of them unless it stops. -/
def Begins (cases : List Nat) (s : SyncRun) (out : SyncRun × Bool) : Prop :=
  (out.2 = false → out.1.started = s.started ++ cases) ∧
    ∃ p, p <+: cases ∧ out.1.started = s.started ++ p

theorem begins_loop (body : α → SyncRun → SyncRun × Bool) {f : α → List Nat} (as : List α)
    (hbody : ∀ a s, Begins (f a) s (body a s)) (s : SyncRun) : Begins (as.flatMap f) s (loopUntil body as s) :=
  ⟨loopUntil_trace (m := SyncRun.started) fun a s => (hbody a s).1,
    loopUntil_trace_stopped (m := SyncRun.started) (fun a s => (hbody a s).1) fun a s => (hbody a s).2⟩

theorem Begins.bind {out : SyncRun × Bool} {f : SyncRun → SyncRun × Bool} (h : Begins c s out)
    (hf : ∀ s, Begins c' s (f s)) : Begins (c ++ c') s (if out.2 then out else f out.1) := by
  cases hstop : out.2 with
  | true =>
    obtain ⟨p, hp, hstarted⟩ := h.2
    rw [if_pos rfl]
    refine ⟨fun hgo => ?_, p, hp.trans (List.prefix_append _ _), hstarted⟩
    rw [hstop] at hgo
    cases hgo
  | false =>
    obtain ⟨p, hp, hstarted⟩ := (hf out.1).2
    rw [if_neg Bool.false_ne_true]
    rw [h.1 hstop, List.append_assoc] at hstarted
    refine ⟨fun hgo => ?_, c ++ p, (List.prefix_append_right_inj _).mpr hp, hstarted⟩
    rw [(hf out.1).1 hgo, h.1 hstop, List.append_assoc]

theorem runCases_begins (cases : List Nat) (s : SyncRun) : Begins cases s (loopUntil (runCase tests) cases s) := by
  have h := begins_loop (runCase tests) (f := fun i => [i]) cases
    (fun i s => ⟨fun _ => runCase_started tests i s, [i], List.prefix_rfl, runCase_started tests i s⟩) s
  simpa using h

theorem skipCases_begins (msg : String) (cases : List Nat) (s : SyncRun) :
    Begins cases s (loopUntil (skipCase tests msg) cases s) := by
  have h := begins_loop (skipCase tests msg) (f := fun i => [i]) cases
    (fun i s => ⟨fun _ => rfl, [i], List.prefix_rfl, rfl⟩) s
  simpa using h

theorem runGroup_begins (group : FixtureGroupPlan) (s : SyncRun) : Begins group.idxs s (runGroup tests group s) := by
  unfold runGroup
  simp only
  cases if group.idxs.isEmpty then none else tests.fixture s.started.length with
  | some reason => exact skipCases_begins _ group.idxs s
  | none => exact runCases_begins group.idxs s

theorem runSyncPlan_begins (plan : SuiteExecutionPlan) (s : SyncRun) : Begins plan.cases s (runSyncPlan tests plan s) := by
  have hgroups : ∀ (groups : List FixtureGroupPlan) (s : SyncRun),
      Begins (groups.flatMap FixtureGroupPlan.idxs) s (loopUntil (runGroup tests) groups s) :=
    fun groups => begins_loop _ groups runGroup_begins
  rw [SuiteExecutionPlan.cases, List.flatMap_append]
  exact (runCases_begins plan.freeLike s).bind fun s => (hgroups plan.suiteGroups s).bind (hgroups plan.globalGroups)

theorem runTestsSync_begins (plans : List SuiteExecutionPlan) (state : RunState) :
    Begins (planned plans) { state } (runTestsSync tests plans state) :=
  begins_loop _ plans runSyncPlan_begins { state }

theorem runTestsSync_started (plans : List SuiteExecutionPlan) (state : RunState) :
    (runTestsSync tests plans state).1.started <+: planned plans := by
  obtain ⟨p, hp, hstarted⟩ := (runTestsSync_begins plans state).2
  rw [hstarted]
  exact hp

/-- The counters ask for the stop of a part of the run that stopped. -/
def Stops (tests : Tests) (out : SyncRun × Bool) : Prop :=
  out.2 = true → shouldStopAfterFailure tests out.1.state.counters = true

theorem stops_loop {body : α → SyncRun → SyncRun × Bool} (as : List α) (hbody : ∀ a s, Stops tests (body a s))
    (s : SyncRun) : Stops tests (loopUntil body as s) :=
  loopUntil_stopped (Q := fun s : SyncRun => shouldStopAfterFailure tests s.state.counters = true) hbody

theorem runGroup_stops (group : FixtureGroupPlan) (s : SyncRun) : Stops tests (runGroup tests group s) := by
  unfold runGroup
  simp only
  cases if group.idxs.isEmpty then none else tests.fixture s.started.length with
  | some reason => exact stops_loop group.idxs (fun _ _ h => h) s
  | none => exact stops_loop group.idxs (fun _ _ h => h) s

theorem runSyncPlan_stops (plan : SuiteExecutionPlan) (s : SyncRun) : Stops tests (runSyncPlan tests plan s) := by
  have hgroups : ∀ (groups : List FixtureGroupPlan) (s : SyncRun), Stops tests (loopUntil (runGroup tests) groups s) :=
    fun groups => stops_loop groups runGroup_stops
  unfold runSyncPlan
  simp only
  split_ifs
  · exact stops_loop plan.freeLike (fun _ _ h => h) s
  · exact hgroups _ _
  · exact hgroups _ _

theorem runTestsAsyncBatchOn_runTestsSync (plans : List SuiteExecutionPlan)
    (hsync : ∀ i, (tests.cases i).hasAsyncFn = false) (h : Goes tests ⟨{}, { state := state }⟩ { state }) :
    Matches (runTestsAsyncBatchOn (answersOf env tests) plans state).1 (runTestsSync tests plans state).1 ∧
      (runTestsAsyncBatchOn (answersOf env tests) plans state).2 = (runTestsSync tests plans state).2 := by
  obtain ⟨hend, hsame, hgo⟩ := inStep_loop plans (fun plan t s h => runPlanOn_runSyncPlan hsync plan h) h
  have hlast : Stops tests (loopUntil (runSyncPlan tests) plans { state }) := stops_loop plans runSyncPlan_stops _
  unfold runTestsAsyncBatchOn runTestsSync
  simp only
  generalize loopUntil (runPlanOn (answersOf env tests)) plans ⟨{}, { state := state }⟩ = out at *
  generalize loopUntil (runSyncPlan tests) plans { state } = out' at *
  obtain ⟨t, stop⟩ := out
  obtain ⟨s, stop'⟩ := out'
  cases hsame
  cases stop with
  | true =>
    have hstop : t.batch.shouldStop (answersOf env tests t.batch) = true := (hend.shouldStop _ rfl).trans (hlast rfl)
    simp only [hstop, cancelPending_noRuns hend.noRuns]
    exact ⟨hend, hstop⟩
  | false =>
    have hstop : t.batch.shouldStop (answersOf env tests t.batch) = false := (hend.shouldStop _ rfl).trans (hgo rfl).goes
    simp only [hstop, finishPending_noRuns hend.noRuns]
    exact ⟨hend.tick, hstop⟩

/-- On cases without an async function, and from counters without a failure or
a block, the async batch executor and the synchronous one leave the same
counters, record the same results, run the same cases and return the same. -/
theorem executors_agree (env : Env) (tests : Tests) (plans : List SuiteExecutionPlan) (state : RunState)
    (hsync : ∀ i, (tests.cases i).hasAsyncFn = false) (hfailures : state.counters.failures = 0)
    (hblocked : state.counters.blocked = 0) :
    (runTestsAsyncBatchOn (answersOf env tests) plans state).1.batch.state.counters =
        (runTestsSync tests plans state).1.state.counters ∧
      (runTestsAsyncBatchOn (answersOf env tests) plans state).1.results = (runTestsSync tests plans state).1.results ∧
      (runTestsAsyncBatchOn (answersOf env tests) plans state).1.batch.state.acc =
        (runTestsSync tests plans state).1.state.acc ∧
      (runTestsAsyncBatchOn (answersOf env tests) plans state).1.batch.started =
        (runTestsSync tests plans state).1.started ∧
      (runTestsSync tests plans state).1.started <+: planned plans ∧
      (runTestsAsyncBatchOn (answersOf env tests) plans state).2 = (runTestsSync tests plans state).2 := by
  have hgo : shouldStopAfterFailure tests state.counters = false := by
    simp [shouldStopAfterFailure, hfailures, hblocked]
  obtain ⟨hmatch, hstop⟩ := runTestsAsyncBatchOn_runTestsSync plans hsync
    ⟨⟨rfl, rfl, rfl, ⟨rfl, rfl⟩, rfl⟩, hgo⟩
  refine ⟨congrArg RunState.counters hmatch.state, congrArg Trace.results hmatch.trace, congrArg RunState.acc hmatch.state, hmatch.started,
    runTestsSync_started plans state, hstop⟩

/-- Three free cases and a group without its fixture; the second case throws. -/
def threeCasesAndGroup : Tests where
  cases i := { name := "case", shouldSkip := i == 0 }
  failFast := false
  invoke n := { ctxinfo := {}, exception := if n = 1 then .failure else .none }
  fixture _ := some "no fixture"

def fourCasePlan : SuiteExecutionPlan := { freeLike := [0, 1, 2], globalGroups := [⟨"Db", [3]⟩] }

theorem executors_agree_on_four_cases :
    (runTestsAsyncBatchOn (answersOf { cases := threeCasesAndGroup.cases, failFast := false } threeCasesAndGroup)
        [fourCasePlan] {}).1.batch.state.counters =
      (runTestsSync threeCasesAndGroup [fourCasePlan] {}).1.state.counters ∧
    (runTestsSync threeCasesAndGroup [fourCasePlan] {}).1.state.counters =
      { total := 4, passed := 1, skipped := 1, blocked := 1, failed := 1, failures := 1 } :=
  ⟨(executors_agree _ threeCasesAndGroup _ {} (fun _ => rfl) rfl rfl).1, by decide +kernel⟩

end Gentest.Runner.SyncExecutor
