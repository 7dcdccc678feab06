import Gentest.Runner.BatchControl

/-!
# What the executor leaves at the end of a group

The runs before `first_unfinalized_scan` are finalized, so the loops that start
there reach every run that is not. Where `finish_pending_async_group` is not
stopped, and after `cancel_pending_async_group`, every run is finalized and no
task is put aside. The cases of the plans begin in their order.
-/

namespace Gentest.Runner.AsyncExecutor

open Interleaving (kept_of_moves)
open Loops
open Relation (ReflTransGen)

/-- The run at an index is finalized. -/
def Batch.Done (b : Batch) (i : Nat) : Prop := ∃ run, b.runs[i]? = some run ∧ run.finalized = true

/-- No run before the scan is open. -/
def Batch.Scanned (b : Batch) : Prop := ∀ i < b.firstUnfinalizedScan, b.Done i

/-- No run is open and no task is put aside. -/
structure Batch.Closed (b : Batch) : Prop where
  runs : ∀ run ∈ b.runs, run.finalized = true
  deferred : b.deferredCanceledTasks = []

-- ---------------------------------------------------------------------------
-- Runs stay finalized
-- ---------------------------------------------------------------------------

theorem Batch.Done.setRun {b : Batch} {i j : Nat} (h : b.Done i) (hrun : b.runs[j]? = some run)
    (hfin : run.finalized = true → run'.finalized = true) : (b.setRun j run').Done i := by
  obtain ⟨done, hdone, hfinal⟩ := h
  by_cases hij : j = i
  · subst hij
    rw [hrun] at hdone
    cases hdone
    exact ⟨run', runs_setRun hrun run', hfin hfinal⟩
  · exact ⟨done, (List.getElem?_set_ne hij).trans hdone, hfinal⟩

theorem Batch.Done.move {b : Batch} {i : Nat} (h : b.Done i) (hmove : Move env b b') : b'.Done i := by
  cases hmove with
  | tick | advance => exact h
  | update hrun hopen hu => exact h.setRun hrun fun hfin => by simp [hfin] at hopen
  | finish hrun hopen hr event => exact h.setRun hrun fun _ => hr.finalized
  | force hrun hopen hr hstop test hooks => exact h.setRun hrun fun _ => hr.finalized
  | defer hrun hopen hr => exact h.setRun hrun fun _ => hr.finalized
  | destroy hdeferred hvoid => exact h
  | settle hdeferred howed hrun event => exact h.setRun hrun id

theorem Batch.Done.append {b b' : Batch} {i : Nat} (h : b.Done i) (hruns : b'.runs = b.runs ++ [run]) :
    b'.Done i := by
  obtain ⟨done, hdone, hfinal⟩ := h
  have hi := (List.getElem?_eq_some_iff.mp hdone).1
  exact ⟨done, by rw [hruns, List.getElem?_append_left hi]; exact hdone, hfinal⟩

theorem Batch.Done.batchMove {b : Batch} {i : Nat} (h : b.Done i) (hmove : BatchMove env b b') :
    b'.Done i := by
  cases hmove with
  | move hmove => exact h.move hmove
  | event caseIndex event => exact h
  | start caseIndex hocc hopen htask hheld hsound => exact h.append rfl
  | refuse caseIndex hocc hfin event => exact h.append rfl

theorem Batch.Done.cancelMove {b : Batch} {i : Nat} (h : b.Done i) (hmove : CancelMove env b b') :
    b'.Done i := by
  cases hmove with
  | move hmove => exact h.move hmove
  | cancel hrun hopen hr adopted => cases adopted <;> exact h.setRun hrun fun _ => hr.finalized

/-- The moves that begin no case keep the number of runs. -/
theorem length_cancelMove (hmove : CancelMove env b b') : b'.runs.length = b.runs.length := by
  have hset : ∀ (i : Nat) (run : Run), (b.setRun i run).runs.length = b.runs.length :=
    fun i run => List.length_set
  cases hmove with
  | move hmove =>
    cases hmove with
    | tick | advance => rfl
    | update hrun hopen hu => exact hset _ _
    | finish hrun hopen hr event => exact hset _ _
    | force hrun hopen hr hstop test hooks => exact hset _ _
    | defer hrun hopen hr => exact hset _ _
    | destroy hdeferred hvoid => rfl
    | settle hdeferred howed hrun event => exact hset _ _
  | cancel hrun hopen hr adopted => cases adopted <;> exact hset _ _

theorem length_cancelMoves (h : ReflTransGen (CancelMove env) b b') :
    b'.runs.length = b.runs.length :=
  kept_of_moves (P := fun c => c.runs.length = b.runs.length) h
    (fun _ _ hc hmove => (length_cancelMove hmove).trans hc) rfl

theorem Batch.Done.cancelMoves {b : Batch} {i : Nat} (h : b.Done i)
    (hmoves : ReflTransGen (CancelMove env) b b') : b'.Done i :=
  kept_of_moves (P := fun c => c.Done i) hmoves (fun _ _ hc hmove => hc.cancelMove hmove) h

-- ---------------------------------------------------------------------------
-- The scan
-- ---------------------------------------------------------------------------

theorem Batch.Scanned.advance {b : Batch} (h : b.Scanned) : b.advanceFirstUnfinalized.Scanned := by
  intro i hi
  by_cases hold : i < b.firstUnfinalizedScan
  · exact h i hold
  · -- the runs that `advance_first_unfinalized` passes are finalized
    have htaken : i - b.firstUnfinalizedScan <
        ((b.runs.drop b.firstUnfinalizedScan).takeWhile fun run => run.finalized).length := by
      simp only [Batch.advanceFirstUnfinalized] at hi
      omega
    have hstarts := List.takeWhile_prefix (fun run : Run => run.finalized)
      (l := b.runs.drop b.firstUnfinalizedScan)
    have hget := List.prefix_iff_getElem?.mp hstarts _ htaken
    have hall := List.all_eq_true.mp (List.all_takeWhile (p := fun run : Run => run.finalized)
      (l := b.runs.drop b.firstUnfinalizedScan))
    refine ⟨_, ?_, hall _ (List.getElem_mem htaken)⟩
    rw [List.getElem?_drop] at hget
    rwa [show b.firstUnfinalizedScan + (i - b.firstUnfinalizedScan) = i by omega] at hget

theorem Batch.Scanned.move (h : Batch.Scanned b) (hmove : Move env b b') : b'.Scanned := by
  have hkept : b'.firstUnfinalizedScan = b.firstUnfinalizedScan → b'.Scanned :=
    fun hscan i hi => (h i (hscan ▸ hi)).move hmove
  cases hmove with
  | advance => exact h.advance
  | tick => exact hkept rfl
  | update hrun hopen hu => exact hkept rfl
  | finish hrun hopen hr event => exact hkept rfl
  | force hrun hopen hr hstop test hooks => exact hkept rfl
  | defer hrun hopen hr => exact hkept rfl
  | destroy hdeferred hvoid => exact hkept rfl
  | settle hdeferred howed hrun event => exact hkept rfl

theorem Batch.Scanned.batchMove (h : Batch.Scanned b) (hmove : BatchMove env b b') : b'.Scanned := by
  have hkept : b'.firstUnfinalizedScan = b.firstUnfinalizedScan → b'.Scanned :=
    fun hscan i hi => (h i (hscan ▸ hi)).batchMove hmove
  cases hmove with
  | move hmove => exact h.move hmove
  | event caseIndex event => exact hkept rfl
  | start caseIndex hocc hopen htask hheld hsound => exact hkept rfl
  | refuse caseIndex hocc hfin event => exact hkept rfl

theorem Batch.Scanned.batchMoves (h : Batch.Scanned b) (hmoves : BatchMoves env b b') : b'.Scanned :=
  kept_of_moves hmoves (fun _ _ hc hmove => hc.batchMove hmove) h

theorem Batch.Scanned.moves (h : Batch.Scanned b) (hmoves : Moves env b b') : b'.Scanned :=
  kept_of_moves hmoves (fun _ _ hc hmove => hc.move hmove) h

/-- Once the runs from the scan on are finalized as well, all are. -/
theorem runs_of_scanned {b b' : Batch} (h : b.Scanned) (hmoves : ReflTransGen (CancelMove env) b b')
    (hrest : ∀ i ∈ b.scanned, b'.Done i) : ∀ run ∈ b'.runs, run.finalized = true := by
  intro run hmem
  obtain ⟨i, hi⟩ := List.getElem?_of_mem hmem
  have hlt : i < b.runs.length := by
    rw [← length_cancelMoves hmoves]
    exact (List.getElem?_eq_some_iff.mp hi).1
  have hdone : b'.Done i := by
    by_cases hold : i < b.firstUnfinalizedScan
    · exact (h i hold).cancelMoves hmoves
    · exact hrest i (by simp only [Batch.scanned, List.mem_range'_1]; omega)
  obtain ⟨done, hget, hfinal⟩ := hdone
  rw [hi] at hget
  cases hget
  exact hfinal

-- ---------------------------------------------------------------------------
-- The loops over the open runs
-- ---------------------------------------------------------------------------

variable (env : Env)

theorem done_setRun {b : Batch} {i : Nat} (hrun : b.runs[i]? = some run) (hfin : run'.finalized = true) :
    (b.setRun i run').Done i := ⟨run', runs_setRun hrun run', hfin⟩

theorem done_finalizeRun {b : Batch} {i : Nat} (hrun : b.runs[i]? = some run) :
    (b.finalizeRun env i).Done i := by
  unfold Batch.finalizeRun
  simp only [hrun]
  split
  · rename_i hfin
    exact ⟨run, hrun, hfin⟩
  · rw [recordInvokeResult_eq]
    · refine done_setRun hrun ?_
      simp [finishAsyncRun, classify_setFinalized]
    · rfl

theorem done_finishPendingRun {b : Batch} {i : Nat} (hi : i < b.runs.length) :
    (finishPendingRun env i b).1.Done i := by
  obtain ⟨run, hrun⟩ : ∃ run, b.runs[i]? = some run := ⟨_, List.getElem?_eq_getElem hi⟩
  have hticked : b.tick.runs[i]? = some run := hrun
  unfold finishPendingRun
  simp only [hrun]
  split
  · rename_i hfin
    exact ⟨run, hrun, hfin⟩
  · split
    · have hnow := runs_cancelActive env (runs_setRun hticked
        { run with toAsyncCaseRun := if run.readyToFinalize then classifyAsyncException run.toAsyncCaseRun
          else run.toAsyncCaseRun.cancelBeforeCompletion })
      rw [modifyRun_of_some hnow]
      exact done_setRun hnow rfl
    · split
      · exact done_finalizeRun env hticked
      · exact done_finalizeRun env (runs_cancelActive env (runs_setRun hticked _))

theorem done_cancelPendingRun {b : Batch} {i : Nat} (hi : i < b.runs.length) :
    (b.cancelPendingRun env i).Done i := by
  obtain ⟨run, hrun⟩ : ∃ run, b.runs[i]? = some run := ⟨_, List.getElem?_eq_getElem hi⟩
  have hticked : b.tick.runs[i]? = some run := hrun
  unfold Batch.cancelPendingRun
  simp only [hrun]
  split
  · rename_i hfin
    exact ⟨run, hrun, hfin⟩
  · split
    · have hnow := runs_cancelActive env (runs_setRun hticked
        { run with toAsyncCaseRun := classifyAsyncException run.toAsyncCaseRun })
      rw [modifyRun_of_some hnow]
      exact done_setRun hnow rfl
    · have hnow := runs_cancelActive env hticked
      rw [modifyRun_of_some hnow]
      exact done_setRun hnow rfl

theorem destroyCanceledTasks_deferred (tasks : List DeferredCanceledTask) (b : Batch) :
    (destroyCanceledTasks env tasks b).deferredCanceledTasks = [] := by
  induction tasks generalizing b with
  | nil => rfl
  | cons deferred rest ih =>
    unfold destroyCanceledTasks
    dsimp only
    split
    · exact ih _
    · split <;> exact ih _

/-- After the loop over the open runs, the tasks put aside are destroyed. -/
theorem closed_of_loop {b b' : Batch} (h : b.Scanned) (hmoves : ReflTransGen (CancelMove env) b b')
    (hdone : ∀ i ∈ b.scanned, b'.Done i) :
    (b'.destroyCanceledTasksAfterAdoptedRelease env).advanceFirstUnfinalized.Closed := by
  have hdestroy : ReflTransGen (CancelMove env) b'
      (b'.destroyCanceledTasksAfterAdoptedRelease env).advanceFirstUnfinalized :=
    Moves.cancel env ((moves_destroyCanceledTasks env rfl).tail .advance)
  refine ⟨?_, destroyCanceledTasks_deferred env _ b'⟩
  exact runs_of_scanned h (hmoves.trans hdestroy) fun i hi => (hdone i hi).cancelMoves hdestroy

theorem lt_of_mem_scanned {b : Batch} {i : Nat} (h : i ∈ b.scanned) : i < b.runs.length := by
  simp only [Batch.scanned, List.mem_range'_1] at h
  omega

theorem closed_finishPendingAsyncGroup {b : Batch} (hscan : b.Scanned)
    (h : (b.finishPendingAsyncGroup env).2 = false) : (b.finishPendingAsyncGroup env).1.Closed := by
  have hfirst := hscan.moves (moves_finalizeCompletedRuns env b)
  have hdrained := (hfirst.moves (moves_finishUnresumable env _)).moves (moves_finalizeCompletedRuns env _)
  unfold Batch.finishPendingAsyncGroup at h ⊢
  dsimp only at h ⊢
  split at h
  · simp_all
  · split at h
    · simp_all
    · split at h
      · cases h
      · split at h
        · cases h
        · rename_i hnot₁ hnot₂ hnot₃ hnot₄
          rw [if_neg hnot₁, if_neg hnot₂, if_neg hnot₃, if_neg hnot₄]
          generalize (((b.finalizeCompletedRuns env).1.finishUnresumable env).1.finalizeCompletedRuns
            env).1 = c at hdrained hnot₄
          have hmove : ∀ (i : Nat) (s : Batch), ReflTransGen (CancelMove env) s (finishPendingRun env i s).1 :=
            fun i s => Moves.cancel env (moves_finishPendingRun env i s)
          refine closed_of_loop env hdrained
            (Moves.cancel env (moves_loopUntil env (moves_finishPendingRun env) _ _)) ?_
          refine loopUntil_finished (P := fun s => s.runs.length = c.runs.length)
            (D := fun i s => s.Done i) (fun i _ s hs => (length_cancelMoves (hmove i s)).trans hs)
            (fun i hi s hs _ => done_finishPendingRun env (hs ▸ lt_of_mem_scanned hi))
            (fun i j s _ hd => hd.cancelMoves (hmove j s)) rfl (by simpa using hnot₄)

theorem closed_cancelPendingAsyncGroup {b : Batch} (hscan : b.Scanned) :
    (b.cancelPendingAsyncGroup env).Closed := by
  have hmoves := cancel_cancelPendingRun env
  refine closed_of_loop env hscan ?_ ?_
  · exact foldl_invariant (P := ReflTransGen (CancelMove env) b)
      (fun i _ b' h => h.trans (hmoves b' i)) .refl
  · exact foldl_finished (P := fun s => s.runs.length = b.runs.length)
      (D := fun i s => s.Done i) (fun i _ s hs => (length_cancelMoves (hmoves s i)).trans hs)
      (fun i hi s hs => done_cancelPendingRun env (hs ▸ lt_of_mem_scanned hi))
      (fun i j s _ hd => hd.cancelMoves (hmoves s j)) rfl

-- ---------------------------------------------------------------------------
-- A closed batch
-- ---------------------------------------------------------------------------

theorem Batch.Closed.not_open {b : Batch} {i : Nat} (h : b.Closed) (hrun : b.runs[i]? = some run)
    (hopen : run.finalized = false) : False := by
  simp [h.runs run (List.mem_of_getElem? hrun)] at hopen

/-- Nothing but the scan and the questions change in it. -/
theorem Batch.Closed.move (h : Batch.Closed b) (hmove : Move env b b') : b'.Closed := by
  cases hmove with
  | tick | advance => exact ⟨h.runs, h.deferred⟩
  | update hrun hopen hu => exact (h.not_open hrun hopen).elim
  | finish hrun hopen hr event => exact (h.not_open hrun hopen).elim
  | force hrun hopen hr hstop test hooks => exact (h.not_open hrun hopen).elim
  | defer hrun hopen hr => exact (h.not_open hrun hopen).elim
  | destroy hdeferred hvoid =>
    rw [h.deferred] at hdeferred
    cases hdeferred
  | settle hdeferred howed hrun event =>
    rw [h.deferred] at hdeferred
    cases hdeferred

theorem closed_collectGroup (group : FixtureGroupPlan) (b : Batch) (h : b.Closed) (hscan : b.Scanned)
    (hgo : (collectGroup env group b).2 = false) : (collectGroup env group b).1.Closed := by
  unfold collectGroup at hgo ⊢
  dsimp only at hgo ⊢
  split
  · exact loopUntil_invariant (P := Batch.Closed) (fun _ _ _ hb => ⟨hb.runs, hb.deferred⟩)
      ⟨h.runs, h.deferred⟩
  · rename_i hfixture
    simp only [hfixture] at hgo
    split at hgo
    · simp_all
    · rename_i hnot
      rw [if_neg hnot]
      refine closed_finishPendingAsyncGroup env (Batch.Scanned.batchMoves ?_
        (batchMoves_loopUntil env (batchMoves_handleCase env) group.idxs b.tick)) hgo
      exact hscan

theorem closed_groups {b : Batch} (groups : List FixtureGroupPlan) (h : b.Closed) (hscan : b.Scanned)
    (hgo : (loopUntil (collectGroup env) groups b).2 = false) :
    (loopUntil (collectGroup env) groups b).1.Closed := by
  have hboth := loopUntil_kept (Q := fun b => b.Closed ∧ b.Scanned)
    (fun group b hb hgo => ⟨closed_collectGroup env group b hb.1 hb.2 hgo,
      hb.2.batchMoves (batchMoves_collectGroup env group b)⟩) ⟨h, hscan⟩ hgo
  exact hboth.1

theorem closed_runPlan (plan : SuiteExecutionPlan) (b : Batch) (hscan : b.Scanned)
    (hgo : (runPlan env plan b).2 = false) : (runPlan env plan b).1.Closed := by
  have hfree := hscan.batchMoves (batchMoves_loopUntil env (batchMoves_handleCase env) plan.freeLike b)
  have hfinish := hfree.moves (moves_finishPendingAsyncGroup env _)
  unfold runPlan at hgo ⊢
  dsimp only at hgo ⊢
  split at hgo
  · simp_all
  · split at hgo
    · simp_all
    · rename_i hnot₁ hnot₂
      rw [if_neg hnot₁, if_neg hnot₂]
      have hclosed := closed_finishPendingAsyncGroup env hfree (by simpa using hnot₂)
      split at hgo
      · simp_all
      · rename_i hnot₃
        rw [if_neg hnot₃]
        have hsuite := closed_groups env plan.suiteGroups hclosed hfinish (by simpa using hnot₃)
        exact closed_groups env plan.globalGroups hsuite
          (hfinish.batchMoves (batchMoves_loopUntil env (batchMoves_collectGroup env) _ _)) hgo

/-- The batch after the loop over the plans. -/
def afterPlans (plans : List SuiteExecutionPlan) (state : RunState) : Batch × Bool :=
  loopUntil (runPlan env) plans { state := state }

theorem runTestsAsyncBatch_of_stop {plans : List SuiteExecutionPlan} {state : RunState}
    (h : (afterPlans env plans state).1.shouldStop env = true) :
    (runTestsAsyncBatch env plans state).1 = (afterPlans env plans state).1.cancelPendingAsyncGroup env := by
  unfold afterPlans at h ⊢
  simp only [runTestsAsyncBatch, h, Bool.not_true, Bool.false_eq_true, if_false]

theorem runTestsAsyncBatch_of_go {plans : List SuiteExecutionPlan} {state : RunState}
    (h : (afterPlans env plans state).1.shouldStop env = false) :
    (runTestsAsyncBatch env plans state).1 =
      ((afterPlans env plans state).1.finishPendingAsyncGroup env).1 := by
  unfold afterPlans at h ⊢
  simp only [runTestsAsyncBatch, h, Bool.not_false, if_true]

theorem stop_of_afterPlans {plans : List SuiteExecutionPlan} {state : RunState}
    (h : (afterPlans env plans state).2 = true) : (afterPlans env plans state).1.shouldStop env = true :=
  stop_of_loopUntil env (stop_of_runPlan env) h

theorem go_of_not_stop {plans : List SuiteExecutionPlan} {state : RunState}
    (h : (afterPlans env plans state).1.shouldStop env = false) : (afterPlans env plans state).2 = false := by
  by_contra hstopped
  have hstop := stop_of_afterPlans env (by simpa using hstopped)
  simp [h] at hstop

theorem batchMoves_afterPlans (plans : List SuiteExecutionPlan) (state : RunState) :
    BatchMoves env { state := state } (afterPlans env plans state).1 :=
  batchMoves_loopUntil env (batchMoves_runPlan env) plans _

theorem scanned_init (state : RunState) : Batch.Scanned { state := state } :=
  fun i hi => absurd hi (Nat.not_lt_zero i)

theorem closed_init (state : RunState) : Batch.Closed { state := state } :=
  ⟨fun _ hmem => absurd hmem List.not_mem_nil, rfl⟩

theorem scanned_afterPlans (plans : List SuiteExecutionPlan) (state : RunState) :
    (afterPlans env plans state).1.Scanned :=
  (scanned_init state).batchMoves (batchMoves_afterPlans env plans state)

theorem closed_afterPlans {plans : List SuiteExecutionPlan} {state : RunState}
    (h : (afterPlans env plans state).2 = false) : (afterPlans env plans state).1.Closed := by
  have hboth := loopUntil_kept (Q := fun b => b.Closed ∧ b.Scanned)
    (fun plan b hb hgo => ⟨closed_runPlan env plan b hb.2 hgo,
      hb.2.batchMoves (batchMoves_runPlan env plan b)⟩) ⟨closed_init state, scanned_init state⟩ h
  exact hboth.1

/-- At the end every run is finalized and no task is put aside. -/
theorem closed_runTestsAsyncBatch (plans : List SuiteExecutionPlan) (state : RunState) :
    (runTestsAsyncBatch env plans state).1.Closed := by
  cases hstop : (afterPlans env plans state).1.shouldStop env with
  | true =>
    rw [runTestsAsyncBatch_of_stop env hstop]
    exact closed_cancelPendingAsyncGroup env (scanned_afterPlans env plans state)
  | false =>
    rw [runTestsAsyncBatch_of_go env hstop]
    exact kept_of_moves (moves_finishPendingAsyncGroup env _) (fun _ _ hc hmove => hc.move env hmove)
      (closed_afterPlans env (go_of_not_stop env hstop))

-- ---------------------------------------------------------------------------
-- The cases that begin
-- ---------------------------------------------------------------------------

/-- A function begins the cases in their order: all, unless it asks to stop. -/
structure Begins (b : Batch) (cases : List Nat) (out : Batch × Bool) : Prop where
  some : ∃ begun, begun <+: cases ∧ out.1.started = b.started ++ begun
  all : out.2 = false → out.1.started = b.started ++ cases

theorem started_moves {b b' : Batch} (h : Moves env b b') : b'.started = b.started :=
  kept_of_moves (P := fun c => c.started = b.started) h
    (fun _ _ hc hmove => by cases hmove <;> exact hc) rfl

theorem Begins.of_moves {out : Batch × Bool} (h : Moves env b out.1) : Begins b [] out :=
  have hsame : out.1.started = b.started ++ [] := by rw [started_moves env h, List.append_nil]
  ⟨⟨[], List.nil_prefix, hsame⟩, fun _ => hsame⟩

theorem Begins.tick {out : Batch × Bool} (h : Begins (Batch.tick b) cases out) : Begins b cases out :=
  ⟨h.some, h.all⟩

theorem Begins.andThen {out out' : Batch × Bool} (h : Begins b cases out) (h' : Begins out.1 cases' out') :
    Begins b (cases ++ cases') (if out.2 then out else out') := by
  split
  · rename_i hstop
    obtain ⟨begun, hbegun, hout⟩ := h.some
    exact ⟨⟨begun, hbegun.trans (List.prefix_append _ _), hout⟩, fun hgo => by simp [hgo] at hstop⟩
  · rename_i hgo
    have hall := h.all (by simpa using hgo)
    obtain ⟨begun, hbegun, hout⟩ := h'.some
    refine ⟨⟨cases ++ begun, (List.prefix_append_right_inj _).mpr hbegun, ?_⟩, fun hgo' => ?_⟩
    · rw [hout, hall, List.append_assoc]
    · rw [h'.all hgo', hall, List.append_assoc]

theorem Begins.loop {body : α → Batch → Batch × Bool} {f : α → List Nat}
    (hbody : ∀ a b, Begins b (f a) (body a b)) (as : List α) (b : Batch) :
    Begins b (as.flatMap f) (loopUntil body as b) :=
  ⟨loopUntil_trace_stopped (m := Batch.started) (fun a b => (hbody a b).all) (fun a b => (hbody a b).some),
    loopUntil_trace (m := Batch.started) fun a b => (hbody a b).all⟩

theorem started_middle (b : Batch) (caseIndex : Nat) :
    (if (env.cases caseIndex).shouldSkip then b.staticSkip env caseIndex
      else if (env.cases caseIndex).hasAsyncFn then b.startAsync env caseIndex
      else b.execute env caseIndex).started = b.started ++ [caseIndex] := by
  split
  · rfl
  · split
    · unfold Batch.startAsync
      dsimp only
      split
      · rfl
      · exact started_moves env (moves_finalizeRun env _ _)
    · rfl

theorem begins_handleCase (caseIndex : Nat) (b : Batch) :
    Begins b [caseIndex] (handleCase env caseIndex b) := by
  have hpump := Begins.of_moves env (moves_pumpAsync env b)
  have hstarted : ∀ c : Batch, c.started = (b.pumpAsync env).1.started ++ [caseIndex] →
      Begins (b.pumpAsync env).1 [caseIndex] (c.pumpAsync env) := by
    intro c hc
    have hsame := started_moves env (moves_pumpAsync env c)
    exact ⟨⟨[caseIndex], List.prefix_refl _, hsame.trans hc⟩, fun _ => hsame.trans hc⟩
  exact hpump.andThen (hstarted _ (started_middle env _ caseIndex))

theorem begins_blockCase (message : String) (caseIndex : Nat) (b : Batch) :
    Begins b [caseIndex] (blockCase env message caseIndex b) :=
  ⟨⟨[caseIndex], List.prefix_refl _, rfl⟩, fun _ => rfl⟩

theorem begins_collectGroup (group : FixtureGroupPlan) (b : Batch) :
    Begins b group.idxs (collectGroup env group b) := by
  have hidxs : group.idxs.flatMap (fun caseIndex => [caseIndex]) = group.idxs := by simp
  unfold collectGroup
  dsimp only
  split
  · rename_i reason _
    have hloop := Begins.loop (begins_blockCase env
      (sharedFixtureUnavailableMessage group.fixture reason)) group.idxs b.tick
    rw [hidxs] at hloop
    exact hloop.tick
  · have hloop := Begins.loop (begins_handleCase env) group.idxs b.tick
    rw [hidxs] at hloop
    have hfinish := hloop.andThen (Begins.of_moves env (moves_finishPendingAsyncGroup env _))
    rw [List.append_nil] at hfinish
    exact hfinish.tick

theorem begins_runPlan (plan : SuiteExecutionPlan) (b : Batch) :
    Begins b plan.cases (runPlan env plan b) := by
  have hfree := Begins.loop (begins_handleCase env) plan.freeLike b
  have hgroups := Begins.loop (begins_collectGroup env)
  have hplan := hfree.andThen ((Begins.of_moves env (moves_finishPendingAsyncGroup env _)).andThen
    ((hgroups plan.suiteGroups _).andThen (hgroups plan.globalGroups _)))
  have hcases : plan.freeLike.flatMap (fun caseIndex => [caseIndex]) ++ ([] ++
      (plan.suiteGroups.flatMap FixtureGroupPlan.idxs ++
        plan.globalGroups.flatMap FixtureGroupPlan.idxs)) = plan.cases := by
    simp [SuiteExecutionPlan.cases]
  rw [← hcases]
  exact hplan

theorem begins_afterPlans (plans : List SuiteExecutionPlan) (state : RunState) :
    Begins { state := state } (planned plans) (afterPlans env plans state) :=
  Begins.loop (begins_runPlan env) plans _

end Gentest.Runner.AsyncExecutor
