import Gentest.Measured.PassIffClean
import Gentest.Runner.ExecutorsAgree
import Gentest.Runner.BatchCompletion
import Gentest.Runner.Orchestrator

/-!
# A run in which everything passes

Every test passes as soon as it begins, every fixture is available and every
measured case returns cleanly. Such a run gets to all its cases, with fail-fast
too.
-/

namespace Gentest.Runner

open Loops
open AsyncExecutor
open SyncExecutor (Tests SyncRun runTestsSync runTestsAsyncBatchOn)

/-- Nothing is left to do or wrong in the batch. -/
structure Calm (b : Batch) : Prop where
  runs : ∀ run ∈ b.runs, run.finalized = true
  deferred : b.deferredCanceledTasks = []
  flag : b.failFastStopRequested = false
  failures : b.state.counters.failures = 0
  blocked : b.state.counters.blocked = 0

/-- An async case throws the skip it did not ask for at once, which passes. -/
def calmEnv (cases : Nat → Case) (failFast : Bool) : Env :=
  { cases, failFast, create := fun _ => ([], .threw .skip) }

variable {cases : Nat → Case} {failFast : Bool} {b : Batch}

/-- A step that leaves the batch calm and does not stop. -/
def StaysCalm (out : Batch × Bool) : Prop := Calm out.1 ∧ out.2 = false

theorem Calm.tick (h : Calm b) : Calm b.tick := ⟨h.runs, h.deferred, h.flag, h.failures, h.blocked⟩

theorem Calm.advance (h : Calm b) : Calm b.advanceFirstUnfinalized :=
  ⟨h.runs, h.deferred, h.flag, h.failures, h.blocked⟩

theorem Calm.shouldStop (h : Calm b) (env : Env) : b.shouldStop env = false := by
  simp [Batch.shouldStop, h.flag, h.failures, h.blocked]

theorem Calm.finalized (h : Calm b) {i : Nat} {run : Run} (hrun : b.runs[i]? = some run) : run.finalized = true :=
  h.runs run (List.mem_of_getElem? hrun)

theorem calm_finalizeCompletedRuns (h : Calm b) (env : Env) : StaysCalm (b.finalizeCompletedRuns env) := by
  have hone : ∀ i, finalizeCompletedRun env i b = (b, false) := by
    intro i
    unfold finalizeCompletedRun
    split
    · rfl
    · rename_i run hrun
      simp [h.finalized hrun]
  unfold Batch.finalizeCompletedRuns
  rw [loopUntil_fixed fun i _ => hone i]
  exact ⟨h.advance, h.advance.shouldStop env⟩

theorem calm_progress (h : Calm b) (env : Env) : StaysCalm (b.progress env) := by
  obtain ⟨hcalm, hgo⟩ := calm_finalizeCompletedRuns h env
  refine ⟨hcalm, ?_⟩
  simp [Batch.progress, hgo, hcalm.shouldStop]

theorem resume_calm (h : Calm b) (env : Env) (r : Resume) : b.resume env r = b := by
  unfold Batch.resume
  split
  · rfl
  · rename_i run hrun
    simp [h.finalized hrun]

variable {env : Env}

theorem calm_pumpAsync (env : Env) (h : Calm b) : StaysCalm (b.pumpAsync env) := by
  obtain ⟨hcalm, hgo⟩ := calm_progress h env
  have hresume : ∀ r b, Calm b → StaysCalm ((b.resume env r).progress env) := by
    intro r b h
    rw [resume_calm h]
    exact calm_progress h env
  obtain ⟨hloop, hloopGo⟩ := loopUntil_goes (l := env.resumes (b.progress env).1.clock) hresume hcalm.tick
  have hfold : Calm ((env.resumes (b.progress env).1.clock).foldl (fun b r => b.resume env r) (b.progress env).1.tick) :=
    foldl_invariant (P := Calm) (fun r _ b h => by rw [resume_calm h]; exact h) hcalm.tick
  unfold Batch.pumpAsync
  simp only [hgo, hloopGo, Bool.false_eq_true, if_false]
  split
  · exact calm_progress hloop env
  · exact calm_progress hfold env

theorem calm_finishUnresumable (env : Env) (h : Calm b) : StaysCalm (b.finishUnresumable env) := by
  have hone : ∀ r b, Calm b → StaysCalm (drainOne env r b) := by
    intro r b h
    unfold drainOne
    rw [h.shouldStop env, if_neg Bool.false_ne_true, resume_calm h]
    exact calm_progress h env
  have hround : ∀ round b, Calm b → StaysCalm (drainRound env round b) := by
    intro round b h
    obtain ⟨hcalm, hgo⟩ := loopUntil_goes (l := round) hone h
    unfold drainRound
    simp only [hgo, Bool.false_eq_true, if_false]
    exact calm_progress hcalm env
  have hmark : ∀ i b, Calm b → StaysCalm (markOne env i b) := by
    intro i b h
    obtain ⟨hcalm, hgo⟩ := calm_progress h env
    unfold markOne
    simp only [hgo, Bool.false_eq_true, if_false]
    split
    · exact ⟨hcalm, rfl⟩
    · rename_i run hrun
      simp only [hcalm.finalized hrun, Bool.true_or, if_true]
      exact ⟨hcalm, rfl⟩
  obtain ⟨hcalm, hgo⟩ := loopUntil_goes (l := (env.rounds b.clock).1 :: (env.rounds b.clock).2) hround h.tick
  unfold Batch.finishUnresumable
  simp only [hgo, Bool.false_eq_true, if_false]
  exact loopUntil_goes hmark hcalm

theorem calm_destroyCanceledTasks (h : Calm b) : Calm (b.destroyCanceledTasksAfterAdoptedRelease env) := by
  rw [Batch.destroyCanceledTasksAfterAdoptedRelease, h.deferred, destroyCanceledTasks]
  exact ⟨h.runs, rfl, h.flag, h.failures, h.blocked⟩

theorem calm_finishPendingAsyncGroup (env : Env) (h : Calm b) : StaysCalm (b.finishPendingAsyncGroup env) := by
  obtain ⟨hfirst, hfirstGo⟩ := calm_finalizeCompletedRuns h env
  obtain ⟨hdrained, hdrainedGo⟩ := calm_finishUnresumable env hfirst
  obtain ⟨hsecond, hsecondGo⟩ := calm_finalizeCompletedRuns hdrained env
  have hone : ∀ i b, Calm b → StaysCalm (finishPendingRun env i b) := by
    intro i b h
    unfold finishPendingRun
    split
    · exact ⟨h, rfl⟩
    · rename_i run hrun
      simp only [h.finalized hrun, if_true]
      exact ⟨h, rfl⟩
  have hloop : ∀ is : List Nat, StaysCalm (loopUntil (finishPendingRun env) is _) := fun is => loopUntil_goes hone hsecond
  unfold Batch.finishPendingAsyncGroup
  simp only [hfirstGo, hdrainedGo, hsecondGo, (hloop _).2, Bool.false_and, Bool.false_eq_true, if_false]
  have hend : ∀ is : List Nat, Calm (Batch.destroyCanceledTasksAfterAdoptedRelease env _) :=
    fun is => calm_destroyCanceledTasks (hloop is).1
  exact ⟨(hend _).advance, (hend _).advance.shouldStop env⟩

-- ---------------------------------------------------------------------------
-- Cases that pass at once
-- ---------------------------------------------------------------------------

theorem Calm.pass (h : Calm b) (n : Nat) (test : Case) {inv : InvokeResult} (hpass : inv.outcome = .pass) :
    Calm (b.apply n (.invoke test inv)) := by
  have hcounters : ((CaseEvent.invoke test inv).apply b.state).2.counters =
      Outcome.tally .pass inv.runtimeBlocked b.state.countTotal.counters := by
    rw [← hpass]
    exact (finishInvokeResult_produces test inv b.state.countTotal).counters
  refine ⟨h.runs, h.deferred, h.flag, ?_, ?_⟩
  · rw [Batch.apply, hcounters]
    exact h.failures
  · rw [Batch.apply, hcounters]
    exact h.blocked

theorem startAsync_calmEnv (b : Batch) (i : Nat) :
    ∃ (run : Run) (inv : InvokeResult), run.finalized = true ∧ inv.outcome = .pass ∧
      b.startAsync (calmEnv cases failFast) i =
        Batch.apply { b.begin i with runs := b.runs ++ [run] } b.next (.invoke (cases i) inv) := by
  refine ⟨{ caseIndex := i, exception := .skip, finalized := true, occurrence := b.next },
    { ctxinfo := {}, exception := .skip }, rfl, rfl, ?_⟩
  have hadded : b.startAsync (calmEnv cases failFast) i =
      Batch.finalizeRun (calmEnv cases failFast)
        { b.begin i with runs := b.runs ++ [{ caseIndex := i, exception := .skip, occurrence := b.next }] }
        b.runs.length := rfl
  rw [hadded, Batch.finalizeRun]
  simp only [List.getElem?_concat_length, Bool.false_eq_true, if_false]
  rw [recordInvokeResult_eq]
  · simp only [Batch.setRun, List.set_append_right _ _ (Nat.le_refl _), Nat.sub_self, List.set_cons_zero]
    rfl
  · rfl

theorem calm_middle (h : Calm b) (i : Nat) :
    Calm (if (cases i).shouldSkip then b.staticSkip (calmEnv cases failFast) i
      else if (cases i).hasAsyncFn then b.startAsync (calmEnv cases failFast) i
      else b.execute (calmEnv cases failFast) i) := by
  split_ifs
  · exact ⟨h.runs, h.deferred, h.flag, h.failures, h.blocked⟩
  · obtain ⟨run, inv, hfin, hpass, heq⟩ := startAsync_calmEnv b i
    have hbegun : Calm { b.begin i with runs := b.runs ++ [run] } := by
      refine ⟨fun other hmem => ?_, h.deferred, h.flag, h.failures, h.blocked⟩
      rcases List.mem_append.mp hmem with hmem | hmem
      · exact h.runs other hmem
      · rw [List.mem_singleton.mp hmem]
        exact hfin
    rw [heq]
    exact hbegun.pass b.next (cases i) hpass
  · have hbegun : Calm (b.begin i) := ⟨h.runs, h.deferred, h.flag, h.failures, h.blocked⟩
    rw [execute_eq]
    exact hbegun.pass b.next (cases i) (by rfl)

theorem calm_handleCase (h : Calm b) (i : Nat) : StaysCalm (handleCase (calmEnv cases failFast) i b) := by
  obtain ⟨hcalm, hgo⟩ := calm_pumpAsync (calmEnv cases failFast) h
  unfold handleCase
  simp only [hgo, Bool.false_eq_true, if_false]
  exact calm_pumpAsync _ (calm_middle hcalm i)

theorem calm_collectGroup (h : Calm b) (group : FixtureGroupPlan) :
    StaysCalm (collectGroup (calmEnv cases failFast) group b) := by
  obtain ⟨hcalm, hgo⟩ : StaysCalm (loopUntil (handleCase (calmEnv cases failFast)) group.idxs b.tick) :=
    loopUntil_goes (fun i b h => calm_handleCase h i) h.tick
  have hfixture : (if group.idxs.isEmpty then none else (calmEnv cases failFast).fixture b.clock) = none := by
    split <;> rfl
  unfold collectGroup
  simp only [hfixture, hgo, Bool.false_eq_true, if_false]
  exact calm_finishPendingAsyncGroup _ hcalm

theorem calm_runPlan (h : Calm b) (plan : SuiteExecutionPlan) : StaysCalm (runPlan (calmEnv cases failFast) plan b) := by
  have hgroups : ∀ (groups : List FixtureGroupPlan) {b : Batch}, Calm b →
      StaysCalm (loopUntil (collectGroup (calmEnv cases failFast)) groups b) :=
    fun groups _ h => loopUntil_goes (fun group b h => calm_collectGroup h group) h
  obtain ⟨hfree, hfreeGo⟩ : StaysCalm (loopUntil (handleCase (calmEnv cases failFast)) plan.freeLike b) :=
    loopUntil_goes (fun i b h => calm_handleCase h i) h
  obtain ⟨hfinish, hfinishGo⟩ := calm_finishPendingAsyncGroup (calmEnv cases failFast) hfree
  obtain ⟨hsuite, hsuiteGo⟩ := hgroups plan.suiteGroups hfinish
  unfold runPlan
  simp only [hfreeGo, hfinishGo, hsuiteGo, Bool.false_eq_true, if_false]
  exact hgroups plan.globalGroups hsuite

theorem calm_runTestsAsyncBatch (plans : List SuiteExecutionPlan) {state : RunState}
    (hfailures : state.counters.failures = 0) (hblocked : state.counters.blocked = 0) :
    StaysCalm (runTestsAsyncBatch (calmEnv cases failFast) plans state) := by
  have hinit : Calm { state := state } := ⟨fun _ h => absurd h List.not_mem_nil, rfl, rfl, hfailures, hblocked⟩
  obtain ⟨hcalm, -⟩ : StaysCalm (afterPlans (calmEnv cases failFast) plans state) := by
    unfold afterPlans
    exact loopUntil_goes (fun plan b h => calm_runPlan h plan) hinit
  have hend : Calm (runTestsAsyncBatch (calmEnv cases failFast) plans state).1 := by
    rw [runTestsAsyncBatch_of_go _ (hcalm.shouldStop _)]
    exact (calm_finishPendingAsyncGroup _ hcalm).1
  exact ⟨hend, hend.shouldStop (calmEnv cases failFast)⟩

-- ---------------------------------------------------------------------------
-- The synchronous executor
-- ---------------------------------------------------------------------------

def calmTests (cases : Nat → Case) (failFast : Bool) : Tests where
  cases
  failFast
  invoke _ := { ctxinfo := {} }
  fixture _ := none

structure CalmState (state : RunState) : Prop where
  failures : state.counters.failures = 0
  blocked : state.counters.blocked = 0

def StaysCalmSync (out : SyncRun × Bool) : Prop := CalmState out.1.state ∧ out.2 = false

theorem CalmState.stop {state : RunState} (h : CalmState state) (tests : Tests) :
    SyncExecutor.shouldStopAfterFailure tests state.counters = false := by
  simp [SyncExecutor.shouldStopAfterFailure, h.failures, h.blocked]

theorem calm_runCase {s : SyncRun} (h : CalmState s.state) (i : Nat) :
    StaysCalmSync (SyncExecutor.runCase (calmTests cases failFast) i s) := by
  have hstate : CalmState (SyncExecutor.runCase (calmTests cases failFast) i s).1.state := by
    unfold SyncExecutor.runCase SyncExecutor.executeAndRecord SyncExecutor.executeOne
    dsimp only
    split
    · exact ⟨h.failures, h.blocked⟩
    · exact ⟨h.failures, h.blocked⟩
  exact ⟨hstate, hstate.stop _⟩

theorem calm_runGroup {s : SyncRun} (h : CalmState s.state) (group : FixtureGroupPlan) :
    StaysCalmSync (SyncExecutor.runGroup (calmTests cases failFast) group s) := by
  have hfixture : (if group.idxs.isEmpty then none else (calmTests cases failFast).fixture s.started.length) = none := by
    split <;> rfl
  unfold SyncExecutor.runGroup
  simp only [hfixture]
  exact loopUntil_goes (P := fun s : SyncRun => CalmState s.state) (fun i s h => calm_runCase h i) h

theorem calm_runSyncPlan {s : SyncRun} (h : CalmState s.state) (plan : SuiteExecutionPlan) :
    StaysCalmSync (SyncExecutor.runSyncPlan (calmTests cases failFast) plan s) := by
  have hgroups : ∀ (groups : List FixtureGroupPlan) {s : SyncRun}, CalmState s.state →
      StaysCalmSync (loopUntil (SyncExecutor.runGroup (calmTests cases failFast)) groups s) :=
    fun groups _ h => loopUntil_goes (P := fun s : SyncRun => CalmState s.state) (fun group s h => calm_runGroup h group) h
  obtain ⟨hfree, hfreeGo⟩ :
      StaysCalmSync (loopUntil (SyncExecutor.runCase (calmTests cases failFast)) plan.freeLike s) :=
    loopUntil_goes (P := fun s : SyncRun => CalmState s.state) (fun i s h => calm_runCase h i) h
  obtain ⟨hsuite, hsuiteGo⟩ := hgroups plan.suiteGroups hfree
  unfold SyncExecutor.runSyncPlan
  simp only [hfreeGo, hsuiteGo, Bool.false_eq_true, if_false]
  exact hgroups plan.globalGroups hsuite

theorem calm_runTestsSync (plans : List SuiteExecutionPlan) {state : RunState} (h : CalmState state) :
    StaysCalmSync (runTestsSync (calmTests cases failFast) plans state) :=
  loopUntil_goes (P := fun s : SyncRun => CalmState s.state) (fun plan _ h => calm_runSyncPlan h plan) h

-- ---------------------------------------------------------------------------
-- The run
-- ---------------------------------------------------------------------------

def calmBehavior (cases : Nat → Case) : TestsBehavior := ⟨calmEnv cases false, calmTests cases false⟩

theorem calm_runTestsOnce (table : Nat → RegisteredCase) (plans : List SuiteExecutionPlan) {state : RunState}
    (h : CalmState state) :
    CalmState (runTestsOnce table failFast (calmBehavior cases) plans state).state ∧
      (runTestsOnce table failFast (calmBehavior cases) plans state).stopped = false := by
  unfold runTestsOnce
  split
  · obtain ⟨hcalm, hgo⟩ := calm_runTestsAsyncBatch plans
      h.failures h.blocked
    have herase := SyncExecutor.erase_runTestsAsyncBatchOn (calmEnv (fun i => (table i).toCase) failFast) plans state
    rw [herase] at hcalm hgo
    exact ⟨⟨hcalm.failures, hcalm.blocked⟩, hgo⟩
  · obtain ⟨hcalm, hgo⟩ := calm_runTestsSync plans h
    exact ⟨hcalm, hgo⟩

theorem calm_repeatTests (table : Nat → RegisteredCase) (plans : List SuiteExecutionPlan) (repeatN : Nat)
    {state : RunState} (h : CalmState state) :
    (repeatTests table failFast (fun _ => calmBehavior cases) plans repeatN state).2 = false := by
  have hbody : ∀ iter (s : List TestsRun × RunState), CalmState s.2 →
      CalmState (runIteration table failFast (fun _ => calmBehavior cases) plans iter s).1.2 ∧
        (runIteration table failFast (fun _ => calmBehavior cases) plans iter s).2 = false :=
    fun _ _ h => calm_runTestsOnce table plans h
  exact (loopUntil_goes (P := fun s : List TestsRun × RunState => CalmState s.2) hbody h).2

/-- A measured case that returns cleanly passes, and is invoked. -/
theorem calm_runMeasuredCase (test : Case) (kind : Measured.Kind) (timing : Measured.Timing) :
    (Measured.runMeasuredCase test kind timing none {}).passed = true ∧
      (Measured.runMeasuredCase test kind timing none {}).invoked ≠ [] := by
  have hclean : Measured.Invocation.Clean {} := ⟨rfl, rfl, rfl, rfl⟩
  have hpasses := (Measured.passes_clean_calls {} test kind timing hclean
    fun _ _ => hclean).mpr (.inl hclean)
  refine ⟨hpasses.passes.mpr ⟨rfl, hclean, fun _ _ => hclean, hclean⟩, fun hnone => ?_⟩
  have hteardown := hpasses.teardown rfl
  rw [hnone] at hteardown
  cases hteardown

theorem calm_runMeasuredCases (failFast : Bool) (table : Nat → RegisteredCase) (kind : Measured.Kind) (idxs : List Nat) :
    (runMeasuredCases table failFast kind (fun _ => {}) idxs).status.stopped = false ∧
      ∀ i ∈ idxs, ∃ run, (i, run) ∈ (runMeasuredCases table failFast kind (fun _ => {}) idxs).runs ∧
        run.invoked ≠ [] := by
  have hpass : ∀ i s, (measureCase table failFast kind (fun _ => {}) i s).1.status.stopped = false ∧
      (measureCase table failFast kind (fun _ => {}) i s).2 = false := by
    intro i s
    have hrun := (calm_runMeasuredCase (table i).toCase kind {}).1
    simp [measureCase, CaseRun.outcome, hrun]
  obtain ⟨hstopped, hgo⟩ := loopUntil_goes (P := fun s : MeasuredRun => s.status.stopped = false)
    (s := {}) (fun i s _ => hpass i s) rfl
  refine ⟨hstopped, ?_⟩
  refine loopUntil_finished (P := fun _ => True)
    (D := fun i (s : MeasuredRun) => ∃ run, (i, run) ∈ s.runs ∧ run.invoked ≠ []) (fun _ _ _ _ => trivial)
    (fun i _ s _ _ => ?_) (fun i j s _ => ?_) trivial hgo
  · exact ⟨_, List.mem_append_right _ (List.mem_singleton.mpr rfl), (calm_runMeasuredCase (table i).toCase kind {}).2⟩
  · rintro ⟨run, hmem, hinvoked⟩
    exact ⟨run, List.mem_append_left _ hmem, hinvoked⟩

end Gentest.Runner
