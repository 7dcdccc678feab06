import Gentest.Lib.Interleaving
import Gentest.Runner.BatchMoves

/-!
# Exactly-once accounting

Every occurrence the executor has begun is in one place: counted, in a run that
is not finalized, in a task put aside whose result is owed, or left out by
`cancel_pending_async_group`. The moves of the executor take it from one place
to another.
-/

namespace Gentest.Runner.AsyncExecutor

open Interleaving (countP_move mem_of_mem_move)

def Run.pending (n : Nat) (run : Run) : Bool := !run.finalized && run.occurrence == n

def DeferredCanceledTask.owes (n : Nat) (deferred : DeferredCanceledTask) : Bool :=
  deferred.recordResultOnCleanup && deferred.occurrence == n

/-- The run is left out: it is neither counted nor put aside. -/
def Sample.drops (n : Nat) (sample : Sample) : Bool :=
  sample.occurrence == n && !(sample.adoptedWork && sample.readyToFinalize)

/-- In how many places the occurrence is. -/
def Batch.tally (b : Batch) (n : Nat) : Nat :=
  b.counted.count n + b.runs.countP (Run.pending n) +
    b.deferredCanceledTasks.countP (DeferredCanceledTask.owes n) + b.samples.countP (Sample.drops n)

def Batch.Once (b : Batch) : Prop := ∀ n, b.tally n = if n < b.next then 1 else 0

structure Batch.Shape (b : Batch) : Prop where
  nodup : (b.runs.map Run.occurrence).Nodup
  bounded : ∀ run ∈ b.runs, run.occurrence < b.next
  openRuns : ∀ run ∈ b.runs, run.finalized = false →
    run.task.isSome = true ∧ (run.heldAtReady = true → run.readyToFinalize = true)
  deferred : ∀ deferred ∈ b.deferredCanceledTasks,
    deferred.task.isSome = true ∧ deferred.resultRecorded = false ∧
      ∃ run, b.runs[deferred.runIndex]? = some run ∧ run.finalized = true ∧
        run.occurrence = deferred.occurrence
  samples : ∀ sample ∈ b.samples, (sample.heldAtReady = true → sample.readyToFinalize = true) ∧
    ∃ run ∈ b.runs, run.finalized = true ∧ run.occurrence = sample.occurrence ∧
      run.heldAtReady = sample.heldAtReady

-- ---------------------------------------------------------------------------
-- The runs and what refers to them
-- ---------------------------------------------------------------------------

theorem map_occurrence_set {runs : List Run} {i : Nat} (hrun : runs[i]? = some run)
    (hocc : run'.occurrence = run.occurrence) :
    (runs.set i run').map Run.occurrence = runs.map Run.occurrence := by
  obtain ⟨hi, rfl⟩ := List.getElem?_eq_some_iff.mp hrun
  rw [List.map_set, hocc, ← List.map_set, List.set_getElem_self]

/-- A run that is finalized stays in its place, finalized. -/
theorem finalized_set {runs : List Run} {i j : Nat} (hrun : runs[i]? = some run)
    (hocc : run'.occurrence = run.occurrence)
    (hfin : run.finalized = true → run'.finalized = true ∧ run'.heldAtReady = run.heldAtReady)
    (hother : runs[j]? = some other) (hdone : other.finalized = true) :
    ∃ now, (runs.set i run')[j]? = some now ∧ now.finalized = true ∧
      now.occurrence = other.occurrence ∧ now.heldAtReady = other.heldAtReady := by
  by_cases hij : i = j
  · subst hij
    rw [hrun] at hother
    cases hother
    obtain ⟨hi, -⟩ := List.getElem?_eq_some_iff.mp hrun
    exact ⟨run', by simp [hi], (hfin hdone).1, hocc, (hfin hdone).2⟩
  · exact ⟨other, by rw [List.getElem?_set_ne hij]; exact hother, hdone, rfl, rfl⟩

theorem Batch.Shape.setRun {b : Batch} {i : Nat} (h : b.Shape) (hrun : b.runs[i]? = some run)
    (hocc : run'.occurrence = run.occurrence)
    (hfin : run.finalized = true → run'.finalized = true ∧ run'.heldAtReady = run.heldAtReady)
    (hopen : run'.finalized = false →
      run'.task.isSome = true ∧ (run'.heldAtReady = true → run'.readyToFinalize = true)) :
    (b.setRun i run').Shape where
  nodup := by
    rw [show (b.setRun i run').runs = b.runs.set i run' from rfl, map_occurrence_set hrun hocc]
    exact h.nodup
  bounded other hmem := by
    rcases mem_of_mem_move hmem with rfl | hmem
    · rw [hocc]
      exact h.bounded run (List.mem_of_getElem? hrun)
    · exact h.bounded other hmem
  openRuns other hmem ho := by
    rcases mem_of_mem_move hmem with rfl | hmem
    · exact hopen ho
    · exact h.openRuns other hmem ho
  deferred d hmem := by
    obtain ⟨htask, hnew, other, hother, hdone, heq⟩ := h.deferred d hmem
    obtain ⟨now, hnow, hfinal, hsame, -⟩ := finalized_set hrun hocc hfin hother hdone
    exact ⟨htask, hnew, now, hnow, hfinal, hsame.trans heq⟩
  samples sample hmem := by
    obtain ⟨hready, other, hother, hdone, heq, hheld⟩ := h.samples sample hmem
    obtain ⟨j, hj⟩ := List.getElem?_of_mem hother
    obtain ⟨now, hnow, hfinal, hsame, hkept⟩ := finalized_set hrun hocc hfin hj hdone
    exact ⟨hready, now, List.mem_of_getElem? hnow, hfinal, hsame.trans heq, hkept.trans hheld⟩

theorem Batch.Shape.apply (h : Batch.Shape b) (occurrence : Nat) (event : CaseEvent) :
    (b.apply occurrence event).Shape := ⟨h.nodup, h.bounded, h.openRuns, h.deferred, h.samples⟩

/-- A run that retires, whatever else the move does. -/
theorem Batch.Shape.retire {b : Batch} {i : Nat} (h : b.Shape) (hrun : b.runs[i]? = some run)
    (hopen : run.finalized = false) (hr : Retires run run') : (b.setRun i run').Shape :=
  h.setRun hrun hr.occurrence (fun hfin => by simp [hfin] at hopen)
    fun ho => by simp [hr.finalized] at ho

theorem Batch.Shape.defer {b : Batch} {i : Nat} (h : b.Shape) (hrun : b.runs[i]? = some run)
    (hopen : run.finalized = false) (hr : Retires run run') (owed : Bool) :
    (b.defer i run run' owed).Shape := by
  have hset := h.retire hrun hopen hr
  refine ⟨hset.nodup, hset.bounded, hset.openRuns, fun d hmem => ?_, hset.samples⟩
  rcases List.mem_append.mp hmem with hmem | hmem
  · exact hset.deferred d hmem
  · obtain rfl := List.mem_singleton.mp hmem
    exact ⟨(h.openRuns run (List.mem_of_getElem? hrun) hopen).1, rfl, run', runs_setRun hrun run',
      hr.finalized, hr.occurrence⟩

theorem Batch.Shape.pop {b : Batch} {task : DeferredCanceledTask} (h : b.Shape)
    (hdeferred : b.deferredCanceledTasks = task :: rest) :
    Batch.Shape { b with deferredCanceledTasks := rest } :=
  ⟨h.nodup, h.bounded, h.openRuns,
    fun d hmem => h.deferred d (hdeferred ▸ List.mem_cons_of_mem _ hmem), h.samples⟩

theorem Batch.Shape.move (h : Batch.Shape b) (hmove : Move env b b') : b'.Shape := by
  cases hmove with
  | tick => exact ⟨h.nodup, h.bounded, h.openRuns, h.deferred, h.samples⟩
  | advance => exact ⟨h.nodup, h.bounded, h.openRuns, h.deferred, h.samples⟩
  | update hrun hopen hu =>
    have hold := h.openRuns _ (List.mem_of_getElem? hrun) hopen
    exact h.setRun hrun hu.occurrence (fun hfin => by simp [hfin] at hopen)
      fun _ => ⟨hu.task hold.1, hu.held hold.2⟩
  | finish hrun hopen hr event => exact (h.retire hrun hopen hr).apply _ _
  | force hrun hopen hr hstop test hooks =>
    have hset := h.retire hrun hopen hr
    exact ⟨hset.nodup, hset.bounded, hset.openRuns, hset.deferred, hset.samples⟩
  | defer hrun hopen hr => exact h.defer hrun hopen hr true
  | destroy hdeferred hvoid => exact h.pop hdeferred
  | @settle task rest _ run hdeferred howed hrun event =>
    refine Batch.Shape.apply ?_ _ _
    exact (h.pop hdeferred).setRun hrun rfl (fun hfin => ⟨hfin, rfl⟩)
      fun ho => h.openRuns run (List.mem_of_getElem? hrun) ho

theorem Batch.Shape.append {b : Batch} {run : Run} (h : b.Shape) (caseIndex : Nat)
    (hocc : run.occurrence = b.next)
    (hopen : run.finalized = false → run.task.isSome = true ∧ run.heldAtReady = false) :
    Batch.Shape { b.begin caseIndex with runs := b.runs ++ [run] } := by
  have hnext : (b.begin caseIndex).next = b.next + 1 := by simp [Batch.next, Batch.begin]
  refine ⟨?_, fun other hmem => ?_, fun other hmem ho => ?_, fun d hmem => ?_, fun sample hmem => ?_⟩
  · rw [List.map_append, List.nodup_append]
    refine ⟨h.nodup, by simp, fun n hn m hm => ?_⟩
    obtain ⟨other, hother, rfl⟩ := List.mem_map.mp hn
    obtain rfl : m = b.next := by simpa [hocc] using hm
    exact Nat.ne_of_lt (h.bounded other hother)
  · rw [show Batch.next { b.begin caseIndex with runs := b.runs ++ [run] } = b.next + 1 from hnext]
    rcases List.mem_append.mp hmem with hmem | hmem
    · exact Nat.lt_succ_of_lt (h.bounded other hmem)
    · obtain rfl := List.mem_singleton.mp hmem
      rw [hocc]
      exact Nat.lt_succ_self _
  · rcases List.mem_append.mp hmem with hmem | hmem
    · exact h.openRuns other hmem ho
    · obtain rfl := List.mem_singleton.mp hmem
      exact ⟨(hopen ho).1, fun hheld => by simp [(hopen ho).2] at hheld⟩
  · obtain ⟨htask, hnew, other, hother, hdone⟩ := h.deferred d hmem
    obtain ⟨hi, -⟩ := List.getElem?_eq_some_iff.mp hother
    exact ⟨htask, hnew, other, (List.getElem?_append_left hi).trans hother, hdone⟩
  · obtain ⟨hready, other, hother, hdone⟩ := h.samples sample hmem
    exact ⟨hready, other, List.mem_append_left _ hother, hdone⟩

theorem Batch.Shape.begin {b : Batch} (h : b.Shape) (caseIndex : Nat) : (b.begin caseIndex).Shape := by
  refine ⟨h.nodup, fun run hmem => ?_, h.openRuns, h.deferred, h.samples⟩
  rw [show (b.begin caseIndex).next = b.next + 1 by simp [Batch.next, Batch.begin]]
  exact Nat.lt_succ_of_lt (h.bounded run hmem)

theorem Batch.Shape.batchMove (h : Batch.Shape b) (hmove : BatchMove env b b') : b'.Shape := by
  cases hmove with
  | move hmove => exact h.move hmove
  | event caseIndex event => exact (h.begin caseIndex).apply _ _
  | start caseIndex hocc hopen htask hheld hsound =>
    exact h.append caseIndex hocc fun _ => ⟨htask, hheld⟩
  | refuse caseIndex hocc hfin event =>
    exact (h.append caseIndex hocc fun ho => by simp [hfin] at ho).apply _ _

theorem Batch.Shape.cancelMove (h : Batch.Shape b) (hmove : CancelMove env b b') : b'.Shape := by
  cases hmove with
  | move hmove => exact h.move hmove
  | @cancel i run run' hrun hopen hr adopted =>
    have hbase : (if adopted then b.defer i run run' run.readyToFinalize else b.setRun i run').Shape := by
      cases adopted with
      | true => exact h.defer hrun hopen hr _
      | false => exact h.retire hrun hopen hr
    have hmem' : run' ∈ (if adopted then b.defer i run run' run.readyToFinalize
        else b.setRun i run').runs := by
      cases adopted <;> exact List.mem_of_getElem? (runs_setRun hrun run')
    refine ⟨hbase.nodup, ?_, hbase.openRuns, hbase.deferred, fun sample hmem => ?_⟩
    · cases adopted <;> exact hbase.bounded
    · have hsamples : sample ∈ b.samples ++
          [⟨run.occurrence, run.readyToFinalize, run.heldAtReady, adopted⟩] := hmem
      rcases List.mem_append.mp hsamples with hold | hnew
      · refine hbase.samples sample ?_
        cases adopted <;> exact hold
      · obtain rfl := List.mem_singleton.mp hnew
        exact ⟨(h.openRuns run (List.mem_of_getElem? hrun) hopen).2, run', hmem', hr.finalized,
          hr.occurrence, hr.heldAtReady⟩

-- ---------------------------------------------------------------------------
-- One place for each occurrence
-- ---------------------------------------------------------------------------

theorem tally_setRun {b : Batch} {i : Nat} (hrun : b.runs[i]? = some run) (run' : Run) (n : Nat) :
    (b.setRun i run').tally n + (if run.pending n then 1 else 0) =
      b.tally n + if run'.pending n then 1 else 0 := by
  have hmove := countP_move (Run.pending n) hrun run'
  simp only [Batch.tally, Batch.setRun]
  omega

theorem tally_apply (b : Batch) (occurrence : Nat) (event : CaseEvent) (n : Nat) :
    (b.apply occurrence event).tally n = b.tally n + if occurrence = n then 1 else 0 := by
  have hcount : (b.counted ++ [occurrence]).count n = b.counted.count n + if occurrence = n then 1 else 0 := by
    simp [List.count_append, List.count_singleton]
  simp only [Batch.tally, Batch.apply, hcount]
  omega

theorem pending_open {run : Run} (hopen : run.finalized = false) (n : Nat) :
    run.pending n = (run.occurrence == n) := by
  simp [Run.pending, hopen]

theorem pending_finalized {run : Run} (hfin : run.finalized = true) (n : Nat) : run.pending n = false := by
  simp [Run.pending, hfin]

theorem tally_retire {b : Batch} {i : Nat} (hrun : b.runs[i]? = some run) (hopen : run.finalized = false)
    (hr : Retires run run') (n : Nat) :
    (b.setRun i run').tally n + (if run.occurrence = n then 1 else 0) = b.tally n := by
  have hset := tally_setRun hrun run' n
  rw [pending_open hopen, pending_finalized hr.finalized] at hset
  simpa using hset

theorem tally_defer {b : Batch} {i : Nat} (hrun : b.runs[i]? = some run) (hopen : run.finalized = false)
    (hr : Retires run run') (owed : Bool) (n : Nat) :
    (b.defer i run run' owed).tally n + (if run.occurrence = n then 1 else 0) =
      b.tally n + if owed = true ∧ run.occurrence = n then 1 else 0 := by
  have hset := tally_retire hrun hopen hr n
  have hnew : (b.defer i run run' owed).tally n =
      (b.setRun i run').tally n + if owed = true ∧ run.occurrence = n then 1 else 0 := by
    simp only [Batch.tally, Batch.defer, List.countP_append, List.countP_singleton,
      DeferredCanceledTask.owes, Bool.and_eq_true, beq_iff_eq]
    simp only [Batch.setRun]
    omega
  omega

theorem tally_pop {b : Batch} {task : DeferredCanceledTask}
    (hdeferred : b.deferredCanceledTasks = task :: rest) (n : Nat) :
    Batch.tally { b with deferredCanceledTasks := rest } n + (if task.owes n then 1 else 0) =
      b.tally n := by
  simp only [Batch.tally, hdeferred, List.countP_cons]
  omega

theorem Batch.Once.move (hshape : Batch.Shape b) (h : b.Once) (hmove : Move env b b') : b'.Once := by
  intro n
  have hn := h n
  cases hmove with
  | tick => exact hn
  | advance => exact hn
  | @update _ i run run' hrun hopen hu =>
    have hset := tally_setRun hrun run' n
    have hsame : run'.pending n = run.pending n := by
      simp [Run.pending, hu.finalized, hu.occurrence]
    rw [hsame] at hset
    show (b.setRun i run').tally n = if n < b.next then 1 else 0
    omega
  | @finish _ i run run' hrun hopen hr event =>
    have hset := tally_retire hrun hopen hr n
    have happly := tally_apply (b.setRun i run') run.occurrence event n
    show ((b.setRun i run').apply run.occurrence event).tally n = if n < b.next then 1 else 0
    omega
  | @force _ i run run' hrun hopen hr hstop test hooks =>
    have hset := tally_retire hrun hopen hr n
    have happly := tally_apply (b.setRun i run') run.occurrence
      (.invoke test (forcedResult run.toAsyncCaseRun hooks)) n
    show ((b.setRun i run').apply run.occurrence
      (.invoke test (forcedResult run.toAsyncCaseRun hooks))).tally n = if n < b.next then 1 else 0
    omega
  | @defer _ i run run' hrun hopen hr =>
    have hdefer := tally_defer hrun hopen hr true n
    show (b.defer i run run' true).tally n = if n < b.next then 1 else 0
    simp only [true_and] at hdefer
    omega
  | @destroy task rest _ hdeferred hvoid =>
    have hpop := tally_pop hdeferred n
    obtain ⟨htask, hnew, run, hrun, -⟩ := hshape.deferred task (by simp [hdeferred])
    have howes : task.owes n = false := by
      rcases hvoid with hnone | hnot | hrec | hmissing
      · simp [Option.isNone_iff_eq_none.mp hnone] at htask
      · simp [DeferredCanceledTask.owes, hnot]
      · simp [hnew] at hrec
      · simp [hmissing] at hrun
    rw [howes] at hpop
    exact hpop.trans hn
  | @settle task rest _ run hdeferred howed hrun event =>
    have hpop := tally_pop hdeferred n
    have hset := tally_setRun (b := { b with deferredCanceledTasks := rest }) hrun
      { run with message := "" } n
    have happly := tally_apply (Batch.setRun { b with deferredCanceledTasks := rest } task.runIndex
      { run with message := "" }) run.occurrence event n
    obtain ⟨-, -, other, hother, -, hocc⟩ := hshape.deferred task (by simp [hdeferred])
    rw [hrun] at hother
    cases hother
    have howes : task.owes n = (run.occurrence == n) := by
      simp [DeferredCanceledTask.owes, howed, hocc]
    have hsame : Run.pending n { run with message := "" } = run.pending n := rfl
    rw [howes] at hpop
    rw [hsame] at hset
    simp only [beq_iff_eq] at hpop
    refine happly.trans ?_
    show _ = if n < b.next then 1 else 0
    omega

theorem next_begin (b : Batch) (caseIndex : Nat) : (b.begin caseIndex).next = b.next + 1 := by
  simp [Batch.next, Batch.begin]

theorem tally_append (b : Batch) (run : Run) (caseIndex n : Nat) :
    Batch.tally { b.begin caseIndex with runs := b.runs ++ [run] } n =
      b.tally n + if run.pending n then 1 else 0 := by
  simp only [Batch.tally, Batch.begin, List.countP_append, List.countP_singleton]
  omega

theorem Batch.Once.batchMove (hshape : Batch.Shape b) (h : b.Once) (hmove : BatchMove env b b') :
    b'.Once := by
  cases hmove with
  | move hmove => exact Batch.Once.move hshape h hmove
  | event caseIndex event =>
    intro n
    have hn := h n
    have happly := tally_apply (b.begin caseIndex) b.next event n
    show _ = if n < (b.begin caseIndex).next then 1 else 0
    rw [happly, next_begin, show (b.begin caseIndex).tally n = b.tally n from rfl, hn]
    split <;> split <;> split <;> omega
  | @start run caseIndex hocc hopen htask hheld hsound =>
    intro n
    have hn := h n
    show _ = if n < (b.begin caseIndex).next then 1 else 0
    rw [tally_append, pending_open hopen, hocc, next_begin, hn]
    simp only [beq_iff_eq]
    split <;> split <;> split <;> omega
  | @refuse run caseIndex hocc hfin event =>
    intro n
    have hn := h n
    show _ = if n < (b.begin caseIndex).next then 1 else 0
    rw [tally_apply, tally_append, pending_finalized hfin, next_begin, hn]
    simp only [Bool.false_eq_true, if_false]
    split <;> split <;> split <;> omega

theorem Batch.Once.cancelMove (hshape : Batch.Shape b) (h : b.Once) (hmove : CancelMove env b b') :
    b'.Once := by
  cases hmove with
  | move hmove => exact Batch.Once.move hshape h hmove
  | @cancel i run run' hrun hopen hr adopted =>
    intro n
    have hnext : (b.cancelRun i run run' adopted).next = b.next := by cases adopted <;> rfl
    rw [hnext, ← h n]
    -- what the sample drops is what is not put aside
    have hsample : (b.cancelRun i run run' adopted).tally n =
        (if adopted then b.defer i run run' run.readyToFinalize else b.setRun i run').tally n +
          if run.occurrence = n ∧ (adopted && run.readyToFinalize) = false then 1 else 0 := by
      cases adopted <;>
        simp only [Batch.tally, Batch.cancelRun, Batch.defer, Batch.setRun, List.countP_append,
          List.countP_singleton, Sample.drops, Bool.and_eq_true, beq_iff_eq, Bool.not_eq_true',
          if_true, if_false, Bool.false_eq_true] <;> omega
    rw [hsample]
    cases adopted with
    | true =>
      have hdefer := tally_defer hrun hopen hr run.readyToFinalize n
      simp only [if_true, Bool.true_and]
      cases hready : run.readyToFinalize with
      | true =>
        simp only [hready, true_and] at hdefer
        simp only [Bool.true_eq_false, and_false, if_false]
        omega
      | false =>
        simp only [hready, Bool.false_eq_true, false_and, if_false] at hdefer
        simp only [and_true]
        omega
    | false =>
      have hretire := tally_retire hrun hopen hr n
      simp only [Bool.false_eq_true, if_false, Bool.false_and, and_true]
      omega

-- ---------------------------------------------------------------------------
-- The counter and the accumulator
-- ---------------------------------------------------------------------------

/-- What was counted and recorded, started from `s₀`. -/
structure Totals (s₀ : RunState) (b : Batch) : Prop where
  acc : b.state.acc.isSome = s₀.acc.isSome
  total : b.state.counters.total = s₀.counters.total + b.counted.length
  recorded : b.recorded = if s₀.acc.isSome then b.counted else []

theorem tally_total (o : Outcome) (runtimeBlocked : Bool) (c : TestCounters) :
    (o.tally runtimeBlocked c).total = c.total := by
  cases o <;> rfl

theorem Totals.apply (h : Totals s₀ b) (occurrence : Nat) (event : CaseEvent) :
    Totals s₀ (b.apply occurrence event) := by
  obtain ⟨o, hcounted, -⟩ := event.apply_counted b.state
  refine ⟨hcounted.acc.trans h.acc, ?_, ?_⟩
  · have htotal : (event.apply b.state).2.counters.total = b.state.counters.total + 1 := by
      rw [hcounted.counters, tally_total]
      rfl
    simp only [Batch.apply, htotal, h.total, List.length_append, List.length_singleton]
    omega
  · simp only [Batch.apply, h.acc, h.recorded]
    split <;> rfl

theorem Totals.same (h : Totals s₀ b) (hstate : b'.state = b.state) (hcounted : b'.counted = b.counted)
    (hrecorded : b'.recorded = b.recorded) : Totals s₀ b' := by
  refine ⟨?_, ?_, ?_⟩
  · rw [hstate]
    exact h.acc
  · rw [hstate, hcounted]
    exact h.total
  · rw [hrecorded, hcounted]
    exact h.recorded

theorem Totals.move (h : Totals s₀ b) (hmove : Move env b b') : Totals s₀ b' := by
  cases hmove with
  | tick | advance => exact h.same rfl rfl rfl
  | update hrun hopen hu => exact h.same rfl rfl rfl
  | @finish _ i run run' hrun hopen hr event =>
    have hset : Totals s₀ (b.setRun i run') := h.same rfl rfl rfl
    exact hset.apply _ _
  | force hrun hopen hr hstop test hooks =>
    refine Totals.apply ?_ _ _
    exact h.same rfl rfl rfl
  | defer hrun hopen hr => exact h.same rfl rfl rfl
  | destroy hdeferred hvoid => exact h.same rfl rfl rfl
  | settle hdeferred howed hrun event =>
    refine Totals.apply ?_ _ _
    exact h.same rfl rfl rfl

theorem Totals.batchMove (h : Totals s₀ b) (hmove : BatchMove env b b') : Totals s₀ b' := by
  cases hmove with
  | move hmove => exact h.move hmove
  | event caseIndex event =>
    refine Totals.apply ?_ _ _
    exact h.same rfl rfl rfl
  | start caseIndex hocc hopen htask hheld hsound => exact h.same rfl rfl rfl
  | refuse caseIndex hocc hfin event =>
    refine Totals.apply ?_ _ _
    exact h.same rfl rfl rfl

theorem Totals.cancelMove (h : Totals s₀ b) (hmove : CancelMove env b b') : Totals s₀ b' := by
  cases hmove with
  | move hmove => exact h.move hmove
  | cancel hrun hopen hr adopted => cases adopted <;> exact h.same rfl rfl rfl

end Gentest.Runner.AsyncExecutor
