import Gentest.Runner.BatchAccounting
import Gentest.Runner.BatchCompletion
import Mathlib.Data.List.Nodup

/-!
# Every planned case is counted once

At the end of `run_tests_async_batch` nothing is open and nothing is put aside,
so an occurrence that began is counted or was left out by
`cancel_pending_async_group`. That function asks for adopted work again; a run
that was ready and has released its adopted work since is left out.
-/

namespace Gentest.Runner.AsyncExecutor

open Interleaving (kept_of_moves)
open Relation (ReflTransGen)

variable (env : Env)

-- ---------------------------------------------------------------------------
-- What the cancellation finds
-- ---------------------------------------------------------------------------

/-- What `cancel_pending_async_group` finds of the runs at the indices: each that
is open asks one question about adopted work and one for its hooks. -/
def found (runs : List Run) : List Nat → Nat → List Sample
  | [], _ => []
  | i :: indices, clock =>
    match runs[i]? with
    | none => found runs indices clock
    | some run =>
      if run.finalized then found runs indices clock
      else ⟨run.occurrence, run.readyToFinalize, run.heldAtReady, env.adopted clock i⟩ ::
        found runs indices (clock + 2)

def Batch.found (b : Batch) : List Sample := AsyncExecutor.found env b.runs b.scanned b.clock

theorem found_congr {runs runs' : List Run} {indices : List Nat}
    (h : ∀ i ∈ indices, runs'[i]? = runs[i]?) (clock : Nat) :
    found env runs' indices clock = found env runs indices clock := by
  induction indices generalizing clock with
  | nil => rfl
  | cons i indices ih =>
    have hrest := ih fun j hj => h j (List.mem_cons_of_mem _ hj)
    simp only [found, h i (List.mem_cons_self ..), hrest]

theorem runs_modifyRun_ne (b : Batch) (f : Run → Run) {i j : Nat} (h : j ≠ i) :
    (b.modifyRun i f).runs[j]? = b.runs[j]? := by
  unfold Batch.modifyRun
  split
  · exact List.getElem?_set_ne h.symm
  · rfl

theorem modifyRun_frame (b : Batch) (i : Nat) (f : Run → Run) :
    (b.modifyRun i f).samples = b.samples ∧ (b.modifyRun i f).clock = b.clock := by
  unfold Batch.modifyRun
  split <;> exact ⟨rfl, rfl⟩

theorem cancelPendingRun_frame {b : Batch} {i : Nat} (hrun : b.runs[i]? = some run)
    (hopen : run.finalized = false) :
    (b.cancelPendingRun env i).samples = b.samples ++
        [⟨run.occurrence, run.readyToFinalize, run.heldAtReady, env.adopted b.clock i⟩] ∧
      (b.cancelPendingRun env i).clock = b.clock + 2 ∧
      ∀ j ≠ i, (b.cancelPendingRun env i).runs[j]? = b.runs[j]? := by
  unfold Batch.cancelPendingRun
  simp only [hrun, hopen, Bool.false_eq_true, if_false]
  -- the batch before the hooks, with the run classified or as it was
  generalize hclassified : (if (env.adopted b.clock i && run.readyToFinalize) = true then
    b.tick.setRun i { run with toAsyncCaseRun := classifyAsyncException run.toAsyncCaseRun }
    else b.tick) = c
  have hc : c.samples = b.samples ∧ c.clock = b.clock + 1 ∧ ∀ j ≠ i, c.runs[j]? = b.runs[j]? := by
    subst hclassified
    split
    · exact ⟨rfl, rfl, fun j hj => List.getElem?_set_ne hj.symm⟩
    · exact ⟨rfl, rfl, fun j _ => rfl⟩
  obtain ⟨hsamples, hclock, hothers⟩ := hc
  refine ⟨?_, ?_, fun j hj => ?_⟩
  · rw [← hsamples]
    exact congrArg (· ++ _) (modifyRun_frame c i _).1
  · rw [(modifyRun_frame _ i _).2]
    show (c.modifyRun i _).clock + 1 = _
    rw [(modifyRun_frame c i _).2, hclock]
  · rw [← hothers j hj, ← runs_modifyRun_ne c _ hj]
    exact runs_modifyRun_ne _ _ hj

theorem samples_cancelLoop {indices : List Nat} (hnodup : indices.Nodup) (b : Batch) :
    (indices.foldl (fun b i => b.cancelPendingRun env i) b).samples =
      b.samples ++ found env b.runs indices b.clock := by
  induction indices generalizing b with
  | nil => simp [found]
  | cons i indices ih =>
    obtain ⟨hnot, hrest⟩ := List.nodup_cons.mp hnodup
    rw [List.foldl_cons, ih hrest]
    cases hrun : b.runs[i]? with
    | none =>
      have hsame : b.cancelPendingRun env i = b := by simp [Batch.cancelPendingRun, hrun]
      simp [found, hrun, hsame]
    | some run =>
      cases hfin : run.finalized with
      | true =>
        have hsame : b.cancelPendingRun env i = b := by simp [Batch.cancelPendingRun, hrun, hfin]
        simp [found, hrun, hsame, hfin]
      | false =>
        obtain ⟨hsamples, hclock, hothers⟩ := cancelPendingRun_frame env hrun hfin
        have hkept : ∀ j ∈ indices, (b.cancelPendingRun env i).runs[j]? = b.runs[j]? :=
          fun j hj => hothers j fun heq => hnot (heq ▸ hj)
        rw [found_congr env hkept, hsamples, hclock]
        simp [found, hrun, hfin]

-- ---------------------------------------------------------------------------
-- The batch at the end
-- ---------------------------------------------------------------------------

theorem samples_moves {b b' : Batch} (h : Moves env b b') : b'.samples = b.samples :=
  kept_of_moves (P := fun c => c.samples = b.samples) h
    (fun _ _ hc hmove => by cases hmove <;> exact hc) rfl

theorem samples_batchMoves {b b' : Batch} (h : BatchMoves env b b') : b'.samples = b.samples := by
  refine kept_of_moves (P := fun c => c.samples = b.samples) h (fun c c' hc hmove => ?_) rfl
  cases hmove with
  | move hmove => exact (samples_moves env (.single hmove)).trans hc
  | event caseIndex event => exact hc
  | start caseIndex hocc hopen htask hheld hsound => exact hc
  | refuse caseIndex hocc hfin event => exact hc

theorem samples_cancelPendingAsyncGroup (b : Batch) :
    (b.cancelPendingAsyncGroup env).samples = b.samples ++ b.found env := by
  have hnodup : b.scanned.Nodup := List.nodup_range'
  have hloop := samples_cancelLoop env hnodup b
  exact (samples_moves env (moves_destroyCanceledTasks env rfl)).trans hloop

variable (plans : List SuiteExecutionPlan) (state : RunState)

theorem samples_runTestsAsyncBatch :
    (runTestsAsyncBatch env plans state).1.samples =
      if (afterPlans env plans state).1.shouldStop env then (afterPlans env plans state).1.found env
      else [] := by
  have hnone : (afterPlans env plans state).1.samples = [] :=
    samples_batchMoves env (batchMoves_afterPlans env plans state)
  cases hstop : (afterPlans env plans state).1.shouldStop env with
  | true =>
    rw [runTestsAsyncBatch_of_stop env hstop, samples_cancelPendingAsyncGroup, hnone]
    rfl
  | false =>
    rw [runTestsAsyncBatch_of_go env hstop]
    exact (samples_moves env (moves_finishPendingAsyncGroup env _)).trans hnone

theorem cancel_afterPlans :
    ReflTransGen (CancelMove env) (afterPlans env plans state).1 (runTestsAsyncBatch env plans state).1 := by
  cases hstop : (afterPlans env plans state).1.shouldStop env with
  | true =>
    rw [runTestsAsyncBatch_of_stop env hstop]
    exact cancel_cancelPendingAsyncGroup env _
  | false =>
    rw [runTestsAsyncBatch_of_go env hstop]
    exact Moves.cancel env (moves_finishPendingAsyncGroup env _)

theorem runTestsAsyncBatch_invariant {P : Batch → Prop} (hinit : P { state := state })
    (hbatch : ∀ b b', P b → BatchMove env b b' → P b')
    (hcancel : ∀ b b', P b → CancelMove env b b' → P b') : P (runTestsAsyncBatch env plans state).1 :=
  kept_of_moves (cancel_afterPlans env plans state) hcancel
    (kept_of_moves (batchMoves_afterPlans env plans state) hbatch hinit)

theorem shape_init : Batch.Shape { state := state } :=
  ⟨List.nodup_nil, fun _ h => absurd h List.not_mem_nil, fun _ h => absurd h List.not_mem_nil,
    fun _ h => absurd h List.not_mem_nil, fun _ h => absurd h List.not_mem_nil⟩

theorem shape_runTestsAsyncBatch : (runTestsAsyncBatch env plans state).1.Shape :=
  runTestsAsyncBatch_invariant env plans state (shape_init state)
    (fun _ _ h hmove => h.batchMove hmove) fun _ _ h hmove => h.cancelMove hmove

theorem once_runTestsAsyncBatch : (runTestsAsyncBatch env plans state).1.Once := by
  have hboth := runTestsAsyncBatch_invariant (P := fun b => b.Shape ∧ b.Once) env plans state
    ⟨shape_init state, fun _ => rfl⟩
    (fun b b' h hmove => ⟨h.1.batchMove hmove, Batch.Once.batchMove h.1 h.2 hmove⟩)
    fun b b' h hmove => ⟨h.1.cancelMove hmove, Batch.Once.cancelMove h.1 h.2 hmove⟩
  exact hboth.2

theorem totals_runTestsAsyncBatch : Totals state (runTestsAsyncBatch env plans state).1 :=
  runTestsAsyncBatch_invariant env plans state ⟨rfl, rfl, by split <;> rfl⟩
    (fun _ _ h hmove => h.batchMove hmove) fun _ _ h hmove => h.cancelMove hmove

theorem started_runTestsAsyncBatch :
    (runTestsAsyncBatch env plans state).1.started = (afterPlans env plans state).1.started := by
  refine kept_of_moves (P := fun c => c.started = (afterPlans env plans state).1.started)
    (cancel_afterPlans env plans state) (fun c c' hc hmove => ?_) rfl
  cases hmove with
  | move hmove => exact (started_moves env (.single hmove)).trans hc
  | cancel hrun hopen hr adopted => cases adopted <;> exact hc

-- ---------------------------------------------------------------------------
-- Exactly once
-- ---------------------------------------------------------------------------

/-- The accounting of a batch that was started from `state`. The cases began in
the order of the plans, so occurrence n is the n-th planned; a run that was ready
while it held adopted work is counted. -/
structure ExactlyOnce (b : Batch) : Prop where
  begun : b.started <+: planned plans
  total : b.state.counters.total = state.counters.total + b.counted.length
  recorded : b.recorded = if state.acc.isSome then b.counted else []
  atMostOnce : ∀ n, b.counted.count n ≤ if n < (planned plans).length then 1 else 0
  exactly : env.failFast = false → ∀ n < (planned plans).length, b.counted.count n = 1
  held : ∀ run ∈ b.runs, run.heldAtReady = true → b.counted.count run.occurrence = 1

theorem countP_eq_zero_of_false {p : α → Bool} {as : List α} (h : ∀ a ∈ as, p a = false) :
    as.countP p = 0 := List.countP_eq_zero.mpr fun a ha => by simp [h a ha]

theorem count_of_closed {b : Batch} (hclosed : b.Closed) (honce : b.Once) (n : Nat) :
    b.counted.count n + b.samples.countP (Sample.drops n) = if n < b.next then 1 else 0 := by
  have htally := honce n
  have hruns : b.runs.countP (Run.pending n) = 0 :=
    countP_eq_zero_of_false fun run hmem => pending_finalized (hclosed.runs run hmem) n
  simp only [Batch.tally, hclosed.deferred, hruns, List.countP_nil] at htally
  omega

/-- No run that was ready while it held adopted work is left out, exactly when
each that was sampled still held some. -/
theorem held_counted_iff {b : Batch} (hclosed : b.Closed) (honce : b.Once) (hshape : b.Shape) :
    (∀ run ∈ b.runs, run.heldAtReady = true → b.counted.count run.occurrence = 1) ↔
      ∀ sample ∈ b.samples, sample.heldAtReady = true → sample.adoptedWork = true := by
  have hcount : ∀ run ∈ b.runs, b.counted.count run.occurrence +
      b.samples.countP (Sample.drops run.occurrence) = 1 := fun run hmem => by
    rw [count_of_closed hclosed honce, if_pos (hshape.bounded run hmem)]
  constructor
  · intro hcounted sample hmem hheld
    obtain ⟨-, run, hrun, -, hocc, hsame⟩ := hshape.samples sample hmem
    have hone := hcounted run hrun (hsame.trans hheld)
    have hnone : b.samples.countP (Sample.drops run.occurrence) = 0 := by
      have := hcount run hrun
      omega
    have hkept := List.countP_eq_zero.mp hnone sample hmem
    simp only [Sample.drops, hocc, beq_self_eq_true, Bool.true_and, Bool.not_eq_true', Bool.and_eq_false_iff,
      not_or, Bool.not_eq_false] at hkept
    exact hkept.1
  · intro hadopted run hrun hheld
    have hnone : b.samples.countP (Sample.drops run.occurrence) = 0 := by
      refine countP_eq_zero_of_false fun sample hmem => ?_
      by_contra hdrops
      simp only [Sample.drops, Bool.not_eq_false, Bool.and_eq_true, beq_iff_eq, Bool.not_eq_true'] at hdrops
      obtain ⟨hready, other, hother, -, hocc, hsame⟩ := hshape.samples sample hmem
      obtain rfl : other = run :=
        List.inj_on_of_nodup_map hshape.nodup hother hrun (hocc.trans hdrops.1)
      have hsample := hsame.symm.trans hheld
      simp [hadopted sample hmem hsample, hready hsample] at hdrops
    have := hcount run hrun
    omega

theorem shouldStop_failFast {b : Batch} (h : env.failFast = false) : b.shouldStop env = false := by
  simp [Batch.shouldStop, h]

theorem started_of_plans : (runTestsAsyncBatch env plans state).1.started <+: planned plans := by
  obtain ⟨begun, hbegun, hstarted⟩ := (begins_afterPlans env plans state).some
  rw [started_runTestsAsyncBatch, hstarted]
  exact hbegun

theorem count_of_go {n : Nat} (h : (afterPlans env plans state).1.shouldStop env = false)
    (hn : n < (planned plans).length) : (runTestsAsyncBatch env plans state).1.counted.count n = 1 := by
  have hcount := count_of_closed (closed_runTestsAsyncBatch env plans state)
    (once_runTestsAsyncBatch env plans state) n
  have hnext : (runTestsAsyncBatch env plans state).1.next = (planned plans).length := by
    unfold Batch.next
    rw [started_runTestsAsyncBatch, (begins_afterPlans env plans state).all (go_of_not_stop env h)]
    rfl
  have hnone : (runTestsAsyncBatch env plans state).1.samples = [] := by
    rw [samples_runTestsAsyncBatch, h]
    rfl
  rwa [hnone, hnext, if_pos hn, List.countP_nil] at hcount

/-- The executor counts and records every planned occurrence once without
fail-fast, and at most once with it. It leaves out a run that was ready while it
held adopted work exactly when the cancellation finds that work released. -/
theorem async_batch_exactly_once :
    ExactlyOnce env plans state (runTestsAsyncBatch env plans state).1 ↔
      ((afterPlans env plans state).1.shouldStop env = true →
        ∀ sample ∈ (afterPlans env plans state).1.found env,
          sample.heldAtReady = true → sample.adoptedWork = true) := by
  have hclosed := closed_runTestsAsyncBatch env plans state
  have honce := once_runTestsAsyncBatch env plans state
  have htotals := totals_runTestsAsyncBatch env plans state
  have hcount := count_of_closed hclosed honce
  have hheld := held_counted_iff hclosed honce (shape_runTestsAsyncBatch env plans state)
  have hsamples : (∀ sample ∈ (runTestsAsyncBatch env plans state).1.samples,
      sample.heldAtReady = true → sample.adoptedWork = true) ↔
      ((afterPlans env plans state).1.shouldStop env = true →
        ∀ sample ∈ (afterPlans env plans state).1.found env,
          sample.heldAtReady = true → sample.adoptedWork = true) := by
    rw [samples_runTestsAsyncBatch]
    split <;> simp_all
  rw [← hsamples, ← hheld]
  have hbegun := started_of_plans env plans state
  refine ⟨fun h => h.held, fun h =>
    ⟨hbegun, htotals.total, htotals.recorded, fun n => ?_, fun hfast n hn => ?_, h⟩⟩
  · have hle : (runTestsAsyncBatch env plans state).1.next ≤ (planned plans).length := hbegun.length_le
    have hn := hcount n
    split at hn <;> split <;> omega
  · exact count_of_go env plans state (shouldStop_failFast env hfast) hn

/-- Two cases with fail-fast: the first is async and completes while it holds
adopted work, which is released before the cancellation asks; the second fails. -/
def releasedEarly : Env where
  cases i := { name := "case", hasAsyncFn := i == 0 }
  failFast := true
  adopted clock _ := clock < 18
  resumes _ := [{ index := 0, result := .done none }]
  invoke _ := { ctxinfo := {}, exception := .failure, message := "fails" }

/-- The run that was ready is neither counted nor recorded. -/
theorem held_run_left_out :
    ¬ ExactlyOnce releasedEarly [{ freeLike := [0, 1] }] {}
      (runTestsAsyncBatch releasedEarly [{ freeLike := [0, 1] }] {}).1 := by
  intro h
  have hdropped : ∃ run ∈ (runTestsAsyncBatch releasedEarly [{ freeLike := [0, 1] }] {}).1.runs,
      run.heldAtReady = true ∧ (runTestsAsyncBatch releasedEarly
        [{ freeLike := [0, 1] }] {}).1.counted.count run.occurrence = 0 := by decide +kernel
  obtain ⟨run, hmem, hheld, hzero⟩ := hdropped
  rw [h.held run hmem hheld] at hzero
  cases hzero

end Gentest.Runner.AsyncExecutor
