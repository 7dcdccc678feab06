import Gentest.Runner.ExactlyOnce
import Gentest.Runner.ExecutorsAgree

/-!
# Statically skipped tests

Both test executors look at `should_skip` before they call anything. What they
do with the cases begun is said of their traces: no skipped case is invoked, and
each occurrence of one is counted once, as skipped or, in a group without its
fixture, as blocked.
-/

namespace Gentest.Runner.SyncExecutor

open Loops
open AsyncExecutor
open Interleaving (kept_of_moves)

/-- What the trace says about the cases begun. -/
structure Trace.Honours (cases : Nat → Case) (started : List Nat) (t : Trace) : Prop where
  invoked : ∀ i ∈ t.invoked, (cases i).shouldSkip = false
  bounded : ∀ entry ∈ t.ledger, entry.1 < started.length
  counted : ∀ n i, started[n]? = some i → (cases i).shouldSkip = true →
    t.ledger.filter (fun entry => entry.1 == n) = [(n, .skip)] ∨
      t.ledger.filter (fun entry => entry.1 == n) = [(n, .blocked)] ∧ n ∈ t.unavailable

theorem honours_init (cases : Nat → Case) : Trace.Honours cases [] {} :=
  ⟨nofun, nofun, nofun⟩

variable {cases : Nat → Case} {started : List Nat} {t t' : Trace}

/-- One more case is begun, with `entries` in the ledger for it. -/
theorem Trace.Honours.begin {i : Nat} {l : List (Nat × Outcome)} (h : t.Honours cases started)
    (hinvoked : t'.invoked = t.invoked ∨ t'.invoked = t.invoked ++ [i] ∧ (cases i).shouldSkip = false)
    (hledger : t'.ledger = t.ledger ++ l) (hentries : ∀ entry ∈ l, entry.1 = started.length)
    (hunavailable : ∀ n ∈ t.unavailable, n ∈ t'.unavailable)
    (hskip : (cases i).shouldSkip = true → l = [(started.length, .skip)] ∨
      l = [(started.length, .blocked)] ∧ started.length ∈ t'.unavailable) :
    t'.Honours cases (started ++ [i]) where
  invoked j hj := by
    rcases hinvoked with hsame | ⟨hnew, hgo⟩
    · exact h.invoked j (hsame ▸ hj)
    · rw [hnew, List.mem_append, List.mem_singleton] at hj
      rcases hj with hj | rfl
      · exact h.invoked j hj
      · exact hgo
  bounded entry hmem := by
    rw [hledger, List.mem_append] at hmem
    rw [List.length_append, List.length_singleton]
    rcases hmem with hmem | hmem
    · exact Nat.lt_succ_of_lt (h.bounded entry hmem)
    · rw [hentries entry hmem]
      exact Nat.lt_succ_self _
  counted n j hn hj := by
    have hother : ∀ n < started.length, l.filter (fun entry => entry.1 == n) = [] := by
      intro n hlt
      refine List.filter_eq_nil_iff.mpr fun entry hmem => ?_
      rw [hentries entry hmem, beq_iff_eq]
      omega
    have hfresh : t.ledger.filter (fun entry => entry.1 == started.length) = [] := by
      refine List.filter_eq_nil_iff.mpr fun entry hmem => ?_
      have := h.bounded entry hmem
      rw [beq_iff_eq]
      omega
    rw [hledger, List.filter_append]
    rcases Nat.lt_or_ge n started.length with hlt | hge
    · rw [List.getElem?_append_left hlt] at hn
      rw [hother n hlt, List.append_nil]
      exact (h.counted n j hn hj).imp id fun hblocked => ⟨hblocked.1, hunavailable n hblocked.2⟩
    · rw [List.getElem?_append_right hge] at hn
      obtain ⟨hzero, hji⟩ := List.getElem?_eq_some_iff.mp hn
      obtain rfl : n = started.length := by simp at hzero; omega
      simp only [Nat.sub_self, List.getElem_cons_zero] at hji
      rw [hfresh, List.nil_append]
      rcases hskip (hji ▸ hj) with rfl | ⟨rfl, hmem⟩
      · exact .inl (by simp)
      · exact .inr ⟨by simp, hmem⟩

-- ---------------------------------------------------------------------------
-- run_tests_sync
-- ---------------------------------------------------------------------------

variable {tests : Tests}

def SyncRun.Honours (tests : Tests) (s : SyncRun) : Prop := s.toTrace.Honours tests.cases s.started

theorem honours_runCase {s : SyncRun} (h : s.Honours tests) (i : Nat) : (runCase tests i s).1.Honours tests := by
  unfold SyncRun.Honours
  rw [runCase_started]
  cases hskip : (tests.cases i).shouldSkip with
  | true =>
    refine Trace.Honours.begin h (.inl ?_) ?_ (by simp) (fun n hn => ?_)
      fun _ => .inl rfl
    · simp [runCase, executeAndRecord, executeOne, SyncRun.record, hskip]
    · simp [runCase, executeAndRecord, executeOne, SyncRun.record, hskip, makeStaticSkipResult]
    · simpa [runCase, executeAndRecord, executeOne, SyncRun.record, hskip] using hn
  | false =>
    refine Trace.Honours.begin (l := [(s.started.length, (executeOne tests i s).1.outcome)]) h
      (.inr ⟨?_, hskip⟩) ?_ (by simp) (fun n hn => ?_) fun hnot => ?_
    · simp [runCase, executeAndRecord, executeOne, SyncRun.record, hskip]
    · simp [runCase, executeAndRecord, executeOne, SyncRun.record, hskip]
    · simpa [runCase, executeAndRecord, executeOne, SyncRun.record, hskip] using hn
    · rw [hskip] at hnot
      cases hnot

theorem honours_skipCase {s : SyncRun} (h : s.Honours tests) (msg : String) (i : Nat) :
    (skipCase tests msg i s).1.Honours tests := by
  refine Trace.Honours.begin h (.inl rfl) rfl (by simp) (fun n hn => ?_)
    fun _ => .inr ⟨rfl, ?_⟩
  · exact List.mem_append_left _ hn
  · exact List.mem_append_right _ (List.mem_singleton.mpr rfl)

theorem honours_loop {body : α → SyncRun → SyncRun × Bool} {s : SyncRun} (as : List α)
    (hbody : ∀ a s, s.Honours tests → (body a s).1.Honours tests) (h : s.Honours tests) :
    (loopUntil body as s).1.Honours tests :=
  loopUntil_invariant (P := SyncRun.Honours tests) (fun a _ => hbody a) h

theorem honours_runGroup {s : SyncRun} (h : s.Honours tests) (group : FixtureGroupPlan) :
    (runGroup tests group s).1.Honours tests := by
  unfold runGroup
  simp only
  cases if group.idxs.isEmpty then none else tests.fixture s.started.length with
  | some reason => exact honours_loop group.idxs (fun i s h => honours_skipCase h _ i) h
  | none => exact honours_loop group.idxs (fun i s h => honours_runCase h i) h

theorem honours_runSyncPlan {s : SyncRun} (h : s.Honours tests) (plan : SuiteExecutionPlan) :
    (runSyncPlan tests plan s).1.Honours tests := by
  have hfree := honours_loop plan.freeLike (fun i s h => honours_runCase h i) h
  have hgroups : ∀ (groups : List FixtureGroupPlan) {s : SyncRun}, s.Honours tests →
      (loopUntil (runGroup tests) groups s).1.Honours tests :=
    fun groups _ => honours_loop groups fun group _ h => honours_runGroup h group
  unfold runSyncPlan
  simp only
  split_ifs
  · exact hfree
  · exact hgroups _ hfree
  · exact hgroups _ (hgroups _ hfree)

theorem honours_runTestsSync (tests : Tests) (plans : List SuiteExecutionPlan) (state : RunState) :
    (runTestsSync tests plans state).1.Honours tests :=
  honours_loop plans (fun plan _ h => honours_runSyncPlan h plan) (honours_init tests.cases)

-- ---------------------------------------------------------------------------
-- run_tests_async_batch
-- ---------------------------------------------------------------------------

variable {env : Env}

/-- Only cases that are not skipped have runs. -/
def RunsOpen (cases : Nat → Case) (b : Batch) : Prop :=
  ∀ n ∈ b.runs.map Run.occurrence, ∃ i, b.started[n]? = some i ∧ (cases i).shouldSkip = false

theorem occurrences_move (h : Move env b b') : b'.runs.map Run.occurrence = b.runs.map Run.occurrence := by
  cases h with
  | tick | advance | destroy hdeferred hvoid => rfl
  | update hrun hopen hu => exact map_occurrence_set hrun hu.occurrence
  | finish hrun hopen hr event => exact map_occurrence_set hrun hr.occurrence
  | force hrun hopen hr hstop test hooks => exact map_occurrence_set hrun hr.occurrence
  | defer hrun hopen hr => exact map_occurrence_set hrun hr.occurrence
  | settle hdeferred howed hrun event => exact map_occurrence_set hrun rfl

theorem occurrences_moves (h : Moves env b b') : b'.runs.map Run.occurrence = b.runs.map Run.occurrence :=
  kept_of_moves (P := fun c => c.runs.map Run.occurrence = b.runs.map Run.occurrence) h
    (fun _ _ hc hmove => (occurrences_move hmove).trans hc) rfl

theorem RunsOpen.moves (h : RunsOpen cases b) (hmoves : Moves env b b') : RunsOpen cases b' := by
  unfold RunsOpen
  rw [occurrences_moves hmoves, started_moves env hmoves]
  exact h

theorem RunsOpen.same {b b' : Batch} {i : Nat} (h : RunsOpen cases b)
    (hruns : b'.runs.map Run.occurrence = b.runs.map Run.occurrence) (hstarted : b'.started = b.started ++ [i]) :
    RunsOpen cases b' := by
  intro n hn
  rw [hruns] at hn
  obtain ⟨j, hj, hopen⟩ := h n hn
  exact ⟨j, by rw [hstarted, List.getElem?_append_left (List.getElem?_eq_some_iff.mp hj).1, hj], hopen⟩

theorem RunsOpen.startAsync {b : Batch} {i : Nat} (h : RunsOpen cases b) (hgo : (cases i).shouldSkip = false)
    (hstarted : (b.startAsync env i).started = b.started ++ [i]) : RunsOpen cases (b.startAsync env i) := by
  have hruns : (b.startAsync env i).runs.map Run.occurrence = b.runs.map Run.occurrence ++ [b.next] := by
    unfold Batch.startAsync
    dsimp only
    split
    · simp
    · rw [occurrences_moves (moves_finalizeRun env _ _)]
      simp
  intro n hn
  rw [hruns, List.mem_append, List.mem_singleton] at hn
  rcases hn with hn | rfl
  · obtain ⟨j, hj, hopen⟩ := h n hn
    exact ⟨j, by rw [hstarted, List.getElem?_append_left (List.getElem?_eq_some_iff.mp hj).1, hj], hopen⟩
  · exact ⟨i, by rw [hstarted]; simp [Batch.next], hgo⟩

structure Traced.Honours (env : Env) (t : Traced) : Prop where
  trace : t.toTrace.Honours env.cases t.batch.started
  runs : RunsOpen env.cases t.batch

theorem Traced.Honours.moves {t : Traced} (h : t.Honours env) (hmoves : Moves env t.batch b) :
    Traced.Honours env ⟨t.toTrace, b⟩ :=
  ⟨by rw [started_moves env hmoves]; exact h.trace, h.runs.moves hmoves⟩

/-- The case that `handle_case` begins after its first pumping. -/
def middle (env : Env) (i : Nat) (b : Batch) : Batch :=
  if (env.cases i).shouldSkip then b.staticSkip env i
  else if (env.cases i).hasAsyncFn then b.startAsync env i
  else b.execute env i

theorem honours_middle {t : Traced} (h : t.Honours env) (i : Nat) :
    Traced.Honours env ⟨t.toTrace.handle env i t.batch, middle env i t.batch⟩ := by
  have hstarted : (middle env i t.batch).started = t.batch.started ++ [i] := started_middle env t.batch i
  constructor
  · show Trace.Honours env.cases (middle env i t.batch).started (t.toTrace.handle env i t.batch)
    rw [hstarted]
    unfold Trace.handle
    dsimp only
    cases hskip : (env.cases i).shouldSkip with
    | true =>
      exact Trace.Honours.begin (l := [(t.batch.next, .skip)]) h.trace (.inl rfl)
        (by simp [caseResult, hskip, makeStaticSkipResult]) (by simp [Batch.next]) (fun n hn => hn) fun _ => .inl rfl
    | false =>
      cases (env.cases i).hasAsyncFn with
      | true =>
        refine Trace.Honours.begin (l := []) h.trace (.inr ⟨rfl, hskip⟩) (by simp) (by simp) (fun n hn => hn) ?_
        simp [hskip]
      | false =>
        refine Trace.Honours.begin (l := [(t.batch.next, (caseResult env i t.batch).outcome)]) h.trace
          (.inr ⟨rfl, hskip⟩) (by simp) (by simp [Batch.next]) (fun n hn => hn) ?_
        simp [hskip]
  · show RunsOpen env.cases (middle env i t.batch)
    revert hstarted
    unfold middle
    split_ifs with hskip hasync
    · exact fun hstarted => h.runs.same rfl hstarted
    · exact fun hstarted => h.runs.startAsync (by simpa using hskip) hstarted
    · exact fun hstarted => h.runs.same rfl hstarted

theorem honours_handleCaseOn {t : Traced} (h : t.Honours env) (i : Nat) :
    (handleCaseOn (fun _ => env) i t).1.Honours env := by
  have hpumped := h.moves (moves_pumpAsync env t.batch)
  unfold handleCaseOn handleCase
  dsimp only
  split
  · exact hpumped
  · exact (honours_middle hpumped i).moves (moves_pumpAsync env _)

theorem honours_blockCaseOn {t : Traced} (h : t.Honours env) (message : String) (i : Nat) :
    (blockCaseOn (fun _ => env) message i t).1.Honours env := by
  refine ⟨?_, h.runs.same rfl rfl⟩
  refine Trace.Honours.begin h.trace (.inl rfl) rfl (by simp [Batch.next])
    (fun n hn => ?_) fun _ => .inr ⟨rfl, ?_⟩
  · exact List.mem_append_left _ hn
  · exact List.mem_append_right _ (List.mem_singleton.mpr rfl)

theorem honours_finishOn {t : Traced} (h : t.Honours env) : (finishOn (fun _ => env) t).1.Honours env :=
  h.moves (moves_finishPendingAsyncGroup env t.batch)

theorem honours_loopOn {body : α → Traced → Traced × Bool} {t : Traced} (as : List α)
    (hbody : ∀ a t, t.Honours env → (body a t).1.Honours env) (h : t.Honours env) :
    (loopUntil body as t).1.Honours env :=
  loopUntil_invariant (P := Traced.Honours env) (fun a _ => hbody a) h

theorem honours_collectGroupOn {t : Traced} (h : t.Honours env) (group : FixtureGroupPlan) :
    (collectGroupOn (fun _ => env) group t).1.Honours env := by
  have htick : Traced.Honours env ⟨t.toTrace, t.batch.tick⟩ := h.moves (.single .tick)
  unfold collectGroupOn
  simp only
  cases if group.idxs.isEmpty then none else env.fixture t.batch.clock with
  | some reason => exact honours_loopOn group.idxs (fun i t h => honours_blockCaseOn h _ i) htick
  | none =>
    have hcases := honours_loopOn group.idxs (fun i t h => honours_handleCaseOn h i) htick
    simp only
    split
    · exact hcases
    · exact honours_finishOn hcases

theorem honours_runPlanOn {t : Traced} (h : t.Honours env) (plan : SuiteExecutionPlan) :
    (runPlanOn (fun _ => env) plan t).1.Honours env := by
  have hfree := honours_loopOn plan.freeLike (fun i t h => honours_handleCaseOn h i) h
  have hgroups : ∀ (groups : List FixtureGroupPlan) {t : Traced}, t.Honours env →
      (loopUntil (collectGroupOn fun _ => env) groups t).1.Honours env :=
    fun groups _ => honours_loopOn groups fun group _ h => honours_collectGroupOn h group
  unfold runPlanOn
  simp only
  split_ifs
  · exact hfree
  · exact honours_finishOn hfree
  · exact hgroups _ (honours_finishOn hfree)
  · exact hgroups _ (hgroups _ (honours_finishOn hfree))

theorem honours_plansOn (env : Env) (plans : List SuiteExecutionPlan) (state : RunState) :
    (loopUntil (runPlanOn fun _ => env) plans ⟨{}, { state := state }⟩).1.Honours env :=
  honours_loopOn plans (fun plan _ h => honours_runPlanOn h plan) ⟨honours_init env.cases, nofun⟩

theorem occurrences_cancelMove (h : CancelMove env b b') : b'.runs.map Run.occurrence = b.runs.map Run.occurrence := by
  cases h with
  | move h => exact occurrences_move h
  | cancel hrun hopen hr adopted => cases adopted <;> exact map_occurrence_set hrun hr.occurrence

/-- The batch after the plans, from which the run is finished or canceled. -/
theorem batch_plansOn (env : Env) (plans : List SuiteExecutionPlan) (state : RunState) :
    (loopUntil (runPlanOn fun _ => env) plans ⟨{}, { state := state }⟩).1.batch = (afterPlans env plans state).1 :=
  (congrArg Prod.fst (erase_loop plans (erase_runPlanOn env) ⟨{}, { state := state }⟩)).symm

theorem batch_runOn (env : Env) (plans : List SuiteExecutionPlan) (state : RunState) :
    (runTestsAsyncBatchOn (fun _ => env) plans state).1.batch = (runTestsAsyncBatch env plans state).1 :=
  (congrArg Prod.fst (erase_runTestsAsyncBatchOn env plans state)).symm

theorem honours_runTestsAsyncBatchOn (env : Env) (plans : List SuiteExecutionPlan) (state : RunState) :
    (runTestsAsyncBatchOn (fun _ => env) plans state).1.Honours env := by
  have hplans := honours_plansOn env plans state
  have hstarted : (runTestsAsyncBatchOn (fun _ => env) plans state).1.batch.started =
      (loopUntil (runPlanOn fun _ => env) plans ⟨{}, { state := state }⟩).1.batch.started := by
    rw [batch_runOn, started_runTestsAsyncBatch, ← batch_plansOn]
  have hruns : (runTestsAsyncBatchOn (fun _ => env) plans state).1.batch.runs.map Run.occurrence =
      (loopUntil (runPlanOn fun _ => env) plans ⟨{}, { state := state }⟩).1.batch.runs.map Run.occurrence := by
    rw [batch_runOn, batch_plansOn]
    exact kept_of_moves (P := fun c => c.runs.map Run.occurrence = (afterPlans env plans state).1.runs.map Run.occurrence)
      (cancel_afterPlans env plans state) (fun _ _ hc hmove => (occurrences_cancelMove hmove).trans hc) rfl
  refine ⟨?_, ?_⟩
  · rw [hstarted]
    exact hplans.trace
  · unfold RunsOpen
    rw [hruns, hstarted]
    exact hplans.runs

/-- An occurrence without a run was counted once, when it was begun. -/
theorem counted_of_no_run {b : Batch} (honce : b.Once) (hshape : b.Shape) {n : Nat} (hn : n < b.next)
    (hrun : ∀ run ∈ b.runs, run.occurrence ≠ n) : b.counted.count n = 1 := by
  have htally := honce n
  have hpending : b.runs.countP (Run.pending n) = 0 :=
    countP_eq_zero_of_false fun run hmem => by simp [Run.pending, hrun run hmem]
  have howes : b.deferredCanceledTasks.countP (DeferredCanceledTask.owes n) = 0 := by
    refine countP_eq_zero_of_false fun deferred hmem => ?_
    obtain ⟨-, -, run, hget, -, hocc⟩ := hshape.deferred deferred hmem
    simp [DeferredCanceledTask.owes, ← hocc, hrun run (List.mem_of_getElem? hget)]
  have hdrops : b.samples.countP (Sample.drops n) = 0 := by
    refine countP_eq_zero_of_false fun sample hmem => ?_
    obtain ⟨-, run, hmem, -, hocc, -⟩ := hshape.samples sample hmem
    simp [Sample.drops, ← hocc, hrun run hmem]
  rw [if_pos hn, Batch.tally, hpending, howes, hdrops] at htally
  exact htally

theorem counted_runTestsAsyncBatch {plans : List SuiteExecutionPlan} {state : RunState} {n i : Nat}
    (hn : (runTestsAsyncBatch env plans state).1.started[n]? = some i) (hskip : (env.cases i).shouldSkip = true) :
    (runTestsAsyncBatch env plans state).1.counted.count n = 1 := by
  refine counted_of_no_run (once_runTestsAsyncBatch env plans state) (shape_runTestsAsyncBatch env plans state)
    (List.getElem?_eq_some_iff.mp hn).1 fun run hmem hocc => ?_
  have hopen := (honours_runTestsAsyncBatchOn env plans state).runs
  rw [batch_runOn] at hopen
  obtain ⟨j, hj, hgo⟩ := hopen n (List.mem_map.mpr ⟨run, hmem, hocc⟩)
  rw [hn] at hj
  cases hj
  rw [hskip] at hgo
  cases hgo

/-- A batch that returned false began every planned case. -/
theorem all_started_runTestsAsyncBatch {plans : List SuiteExecutionPlan} {state : RunState}
    (h : (runTestsAsyncBatch env plans state).2 = false) :
    (runTestsAsyncBatch env plans state).1.started = planned plans := by
  have hstop : (runTestsAsyncBatch env plans state).1.shouldStop env = false := h
  have hgo : (afterPlans env plans state).1.shouldStop env = false := by
    by_contra hnot
    rw [shouldStop_cancel (cancel_afterPlans env plans state) (by simpa using hnot)] at hstop
    cases hstop
  rw [started_runTestsAsyncBatch, (begins_afterPlans env plans state).all (go_of_not_stop env hgo)]
  rfl

end Gentest.Runner.SyncExecutor
