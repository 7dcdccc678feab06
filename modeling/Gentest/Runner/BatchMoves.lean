import Gentest.Runner.AsyncExecutor
import Gentest.Runner.Reporting
import Mathlib.Logic.Relation

/-!
# What the batch executor can do

Every function of the executor is a sequence of moves: it updates a run that is
not finalized, finalizes one and counts it, puts one aside, takes one back, or
begins a case. `Move` lists them with what they change, so that a fact about the
batch is proved once for each move and holds after every function.
-/

namespace Gentest.Runner.AsyncExecutor

open Loops (loopUntil loopUntil_invariant foldl_invariant)
open Relation (ReflTransGen)

/-- An event is counted and recorded for an occurrence. -/
def Batch.apply (b : Batch) (occurrence : Nat) (event : CaseEvent) : Batch :=
  { b with
    state := (event.apply b.state).2
    counted := b.counted ++ [occurrence]
    recorded := if b.state.acc.isSome then b.recorded ++ [occurrence] else b.recorded }

/-- The change of a run that is not finalized. -/
structure Updates (run run' : Run) : Prop where
  occurrence : run'.occurrence = run.occurrence
  finalized : run'.finalized = run.finalized
  task : run.task.isSome = true → run'.task.isSome = true
  held : (run.heldAtReady = true → run.readyToFinalize = true) →
    run'.heldAtReady = true → run'.readyToFinalize = true
  sound : run.toAsyncCaseRun.Sound → run'.toAsyncCaseRun.Sound

/-- The run is finalized. -/
structure Retires (run run' : Run) : Prop where
  occurrence : run'.occurrence = run.occurrence
  heldAtReady : run'.heldAtReady = run.heldAtReady
  finalized : run'.finalized = true

/-- The result of a run finalized by force. -/
def forcedResult (run : AsyncCaseRun) (hooks : List ContextOp) : InvokeResult :=
  let run := classifyAsyncException run
  { run with ctxinfo := runContextCancelHooks hooks run.ctxinfo }.invokeResult

def Batch.force (b : Batch) (i : Nat) (run run' : Run) (test : Case) (hooks : List ContextOp) : Batch :=
  let inv := forcedResult run.toAsyncCaseRun hooks
  let forced : Forced := ⟨run.toAsyncCaseRun, hooks, inv.outcome⟩
  ({ b with failFastStopRequested := true, forced := b.forced ++ [forced] }.setRun i run').apply
    run.occurrence (.invoke test inv)

/-- The run is put aside with its task. -/
def Batch.defer (b : Batch) (i : Nat) (run run' : Run) (owed : Bool) : Batch :=
  { b.setRun i run' with
    deferredCanceledTasks := b.deferredCanceledTasks ++ [⟨run.task, i, owed, false, run.occurrence⟩] }

/-- What the cancellation of the group does with a run. -/
def Batch.cancelRun (b : Batch) (i : Nat) (run run' : Run) (adopted : Bool) : Batch :=
  let sample : Sample := ⟨run.occurrence, run.readyToFinalize, run.heldAtReady, adopted⟩
  { (if adopted then b.defer i run run' run.readyToFinalize else b.setRun i run') with
    samples := b.samples ++ [sample] }

inductive Move (env : Env) : Batch → Batch → Prop
  | tick : Move env b b.tick
  | advance : Move env b b.advanceFirstUnfinalized
  | update {b : Batch} {i : Nat} {run run' : Run} (hrun : b.runs[i]? = some run)
      (hopen : run.finalized = false) (h : Updates run run') : Move env b (b.setRun i run')
  | finish {b : Batch} {i : Nat} {run run' : Run} (hrun : b.runs[i]? = some run)
      (hopen : run.finalized = false) (h : Retires run run') (event : CaseEvent) :
      Move env b ((b.setRun i run').apply run.occurrence event)
  | force {b : Batch} {i : Nat} {run run' : Run} (hrun : b.runs[i]? = some run)
      (hopen : run.finalized = false) (h : Retires run run')
      (hstop : asyncRunWouldStopFailFast run.toAsyncCaseRun = true) (test : Case)
      (hooks : List ContextOp) : Move env b (b.force i run run' test hooks)
  | defer {b : Batch} {i : Nat} {run run' : Run} (hrun : b.runs[i]? = some run)
      (hopen : run.finalized = false) (h : Retires run run') : Move env b (b.defer i run run' true)
  /-- A task put aside is destroyed. -/
  | destroy {b : Batch} (hdeferred : b.deferredCanceledTasks = deferred :: rest)
      (h : deferred.task.isNone = true ∨ deferred.recordResultOnCleanup = false ∨
        deferred.resultRecorded = true ∨ b.runs[deferred.runIndex]? = none) :
      Move env b { b with deferredCanceledTasks := rest }
  /-- It is destroyed, and its run counted. -/
  | settle {b : Batch} {run : Run} (hdeferred : b.deferredCanceledTasks = deferred :: rest)
      (howed : deferred.recordResultOnCleanup = true) (hrun : b.runs[deferred.runIndex]? = some run)
      (event : CaseEvent) :
      Move env b (({ b with deferredCanceledTasks := rest }.setRun deferred.runIndex
        { run with message := "" }).apply run.occurrence event)

/-- Outside the functions that finalize, a case begins. -/
inductive BatchMove (env : Env) : Batch → Batch → Prop
  | move (h : Move env b b') : BatchMove env b b'
  /-- A case that is not async, or whose group has no fixture. -/
  | event (caseIndex : Nat) (event : CaseEvent) :
      BatchMove env b ((b.begin caseIndex).apply b.next event)
  | start {b : Batch} {run : Run} (caseIndex : Nat) (hocc : run.occurrence = b.next)
      (hopen : run.finalized = false) (htask : run.task.isSome = true)
      (hheld : run.heldAtReady = false) (hsound : run.toAsyncCaseRun.Sound) :
      BatchMove env b { b.begin caseIndex with runs := b.runs ++ [run] }
  /-- An async case that has no task is counted at once. -/
  | refuse {b : Batch} {run : Run} (caseIndex : Nat) (hocc : run.occurrence = b.next)
      (hfin : run.finalized = true) (event : CaseEvent) :
      BatchMove env b ({ b.begin caseIndex with runs := b.runs ++ [run] }.apply b.next event)

/-- `cancel_pending_async_group` also puts runs aside, and leaves some out. -/
inductive CancelMove (env : Env) : Batch → Batch → Prop
  | move (h : Move env b b') : CancelMove env b b'
  | cancel {b : Batch} {i : Nat} {run run' : Run} (hrun : b.runs[i]? = some run)
      (hopen : run.finalized = false) (h : Retires run run') (adopted : Bool) :
      CancelMove env b (b.cancelRun i run run' adopted)

/-- Any number of moves. -/
abbrev Moves (env : Env) : Batch → Batch → Prop := ReflTransGen (Move env)

-- ---------------------------------------------------------------------------
-- Counting and recording is one event
-- ---------------------------------------------------------------------------

theorem finishInvokeResult_acc (test : Case) (inv : InvokeResult) (s : RunState) :
    (finishInvokeResult test inv s).2.acc.isSome = s.acc.isSome := by
  have hitems := congrArg Option.isSome (finishInvokeResult_produces test inv s).reportItems
  simpa [RunState.reportItems] using hitems

theorem recordInvokeResult_eq (env : Env) (b : Batch) (run : Run) (inv : InvokeResult)
    (h : run.occurrence = occurrence) :
    (b.countTotal occurrence).recordInvokeResult env run inv =
      b.apply occurrence (.invoke (env.cases run.caseIndex) inv) := by
  subst h
  simp only [Batch.recordInvokeResult, Batch.recordCaseResult, Batch.countTotal, Batch.apply,
    CaseEvent.apply, finishInvokeResult_acc]
  rfl

theorem staticSkip_eq (env : Env) (b : Batch) (caseIndex : Nat) :
    b.staticSkip env caseIndex =
      (b.begin caseIndex).apply b.next (.staticSkip (env.cases caseIndex)) := rfl

theorem execute_eq (env : Env) (b : Batch) (caseIndex : Nat) :
    b.execute env caseIndex =
      (b.begin caseIndex).apply b.next (.invoke (env.cases caseIndex) (env.invoke b.clock)) := by
  simp only [Batch.execute, Batch.recordCaseResult, Batch.countTotal, Batch.apply, CaseEvent.apply,
    finishInvokeResult_acc]
  rfl

theorem blockCase_eq (env : Env) (b : Batch) (message : String) (caseIndex : Nat) :
    (blockCase env message caseIndex b).1 =
      (b.begin caseIndex).apply b.next (.syntheticSkip (env.cases caseIndex) message true) := rfl

-- ---------------------------------------------------------------------------
-- Updates of a run
-- ---------------------------------------------------------------------------

theorem recordFailure_coherent (ctx : TestContextInfo) (msg : String) (loc : FailureLoc) :
    (ctx.recordFailure msg loc).Coherent := by
  simp [TestContextInfo.Coherent, TestContextInfo.recordFailure]

theorem contextOps_coherent {ctx : TestContextInfo} (h : ctx.Coherent) (ops : List ContextOp) :
    (ops.foldl ContextOp.apply ctx).Coherent := by
  refine foldl_invariant (P := TestContextInfo.Coherent) (fun op _ ctx h => ?_) h
  cases op with
  | recordFailure msg loc => exact recordFailure_coherent _ _ _
  | log line | requestRuntimeSkip reason kind | xfail reason => exact h

theorem handle_coherent {run : AsyncCaseRun} (h : run.ctxinfo.Coherent) (ex : TaskException) :
    (run.handle ex).ctxinfo.Coherent := by
  cases ex with
  | blocked reason | skip | assertion message => exact h
  | failure what | stdException what | unknown => exact recordFailure_coherent _ _ _

theorem classify_sound {run : AsyncCaseRun} (h : run.Sound) : (classifyAsyncException run).Sound := by
  unfold classifyAsyncException
  split
  · exact h
  · rename_i ex hex
    refine ⟨handle_coherent h.coherent ex, h.done, fun hskip => ?_⟩
    have htask : run.task.bind AsyncTask.exception = some ex := by
      unfold AsyncCaseRun.unclassified at hex
      split at hex
      · cases hex
      · exact hex
    have hinvoke : ex.invoke = .skip := hskip
    obtain rfl : ex = .skip := by
      cases ex with
      | skip => rfl
      | blocked reason | assertion message | failure what | stdException what | unknown => cases hinvoke
    exact htask

/-- The classification changes the exception, the message and the context. -/
theorem classify_frame (run : AsyncCaseRun) :
    (classifyAsyncException run).task = run.task ∧
      (classifyAsyncException run).readyToFinalize = run.readyToFinalize ∧
      (classifyAsyncException run).finalized = run.finalized := by
  unfold classifyAsyncException
  split <;> exact ⟨rfl, rfl, rfl⟩

theorem Updates.refl (run : Run) : Updates run run := ⟨rfl, rfl, id, id, id⟩

theorem Updates.of_frame {run : Run} {new : AsyncCaseRun} (htask : new.task = run.task)
    (hready : new.readyToFinalize = run.readyToFinalize) (hfin : new.finalized = run.finalized)
    (hsound : run.toAsyncCaseRun.Sound → new.Sound) :
    Updates run { run with toAsyncCaseRun := new } :=
  ⟨rfl, hfin, fun h => htask ▸ h, fun h hheld => hready ▸ h hheld, hsound⟩

theorem Updates.classify (run : Run) :
    Updates run { run with toAsyncCaseRun := classifyAsyncException run.toAsyncCaseRun } :=
  let hframe := classify_frame run.toAsyncCaseRun
  .of_frame hframe.1 hframe.2.1 hframe.2.2 classify_sound

theorem Updates.cancelBeforeCompletion (run : Run) :
    Updates run { run with toAsyncCaseRun := run.toAsyncCaseRun.cancelBeforeCompletion } := by
  unfold AsyncCaseRun.cancelBeforeCompletion
  split
  · exact .of_frame rfl rfl rfl fun h => ⟨recordFailure_coherent _ _ _, h.done, nofun⟩
  · exact .refl run

theorem Updates.hooks (run : Run) (hooks : List ContextOp) :
    Updates run { run with ctxinfo := runContextCancelHooks hooks run.ctxinfo } :=
  ⟨rfl, rfl, id, id, fun h => ⟨contextOps_coherent h.coherent hooks, h.done, h.skip⟩⟩

theorem Updates.ready (run : Run) (held : Bool) :
    Updates run { run with readyToFinalize := true, heldAtReady := held } :=
  ⟨rfl, rfl, id, fun _ _ => rfl, fun h => ⟨h.coherent, h.done, h.skip⟩⟩

-- ---------------------------------------------------------------------------
-- The functions of the executor
-- ---------------------------------------------------------------------------

theorem modifyRun_of_some {b : Batch} (h : b.runs[i]? = some run) (f : Run → Run) :
    b.modifyRun i f = b.setRun i (f run) := by
  simp [Batch.modifyRun, h]

theorem setRun_self {b : Batch} {i : Nat} (h : b.runs[i]? = some run) : b.setRun i run = b := by
  obtain ⟨hi, rfl⟩ := List.getElem?_eq_some_iff.mp h
  simp [Batch.setRun]

theorem runs_setRun {b : Batch} {i : Nat} (h : b.runs[i]? = some run) (run' : Run) :
    (b.setRun i run').runs[i]? = some run' := by
  obtain ⟨hi, -⟩ := List.getElem?_eq_some_iff.mp h
  simp [Batch.setRun, hi]

variable (env : Env)

theorem Moves.update {b : Batch} {i : Nat} (hrun : b.runs[i]? = some run) (hopen : run.finalized = false)
    (h : Updates run run') : Moves env b (b.setRun i run') :=
  .single (.update hrun hopen h)

theorem moves_complete (b : Batch) (i : Nat) : Moves env b (b.complete env i) := by
  refine .tail ?_ .tick
  cases hrun : b.runs[i]? with
  | none => simpa only [Batch.modifyRun, hrun] using ReflTransGen.refl
  | some run =>
    rw [modifyRun_of_some hrun]
    split
    · rw [setRun_self hrun]
    · rename_i hopen
      simp only [Bool.or_eq_true, not_or, Bool.not_eq_true] at hopen
      exact Moves.update env hrun hopen.1 (.ready run _)

theorem moves_update_complete {b : Batch} {i : Nat} (hrun : b.runs[i]? = some run)
    (hopen : run.finalized = false) (h : Updates run run') :
    Moves env b ((b.setRun i run').complete env i) :=
  (Moves.update env hrun hopen h).trans (moves_complete env _ i)

theorem moves_resume (b : Batch) (r : Resume) : Moves env b (b.resume env r) := by
  unfold Batch.resume
  split
  · exact .refl
  · rename_i run hrun
    split
    · exact .refl
    · rename_i hlive
      simp only [Bool.or_eq_true, not_or, Bool.not_eq_true] at hlive
      obtain ⟨⟨hopen, -⟩, hlive⟩ := hlive
      have hctx : run.toAsyncCaseRun.Sound → (r.ops.foldl ContextOp.apply run.ctxinfo).Coherent :=
        fun h => contextOps_coherent h.coherent r.ops
      -- the task is not done, so it has no exception and the run was not skipped
      have hnot : run.toAsyncCaseRun.Sound → run.exception ≠ .skip := fun h hskip => by
        have htask := h.skip hskip
        rw [h.done hlive] at htask
        cases htask
      dsimp only
      split
      · exact Moves.update env hrun hopen ⟨rfl, rfl, id, id, fun h => ⟨hctx h, h.done, h.skip⟩⟩
      · exact moves_update_complete env hrun hopen ⟨rfl, rfl, fun _ => rfl, id,
          fun h => ⟨hctx h, nofun, fun hskip => (hnot h hskip).elim⟩⟩
      · rename_i what _
        refine moves_update_complete env hrun hopen ?_
        cases what <;> exact ⟨rfl, rfl, id, id, fun h => ⟨hctx h, h.done, nofun⟩⟩

theorem moves_markUnresumable (b : Batch) (i : Nat) : Moves env b (b.markUnresumable env i) := by
  unfold Batch.markUnresumable
  split
  · exact .refl
  · rename_i run hrun
    split
    · exact .refl
    · rename_i hlive
      simp only [Bool.or_eq_true, not_or, Bool.not_eq_true] at hlive
      refine .head .tick (moves_update_complete env hrun hlive.1.1 ⟨rfl, rfl, id, id, fun h => ?_⟩)
      exact ⟨contextOps_coherent (recordFailure_coherent _ _ _) _, h.done, nofun⟩

theorem classify_setFinalized (run : AsyncCaseRun) :
    classifyAsyncException { run with finalized := true } =
      { classifyAsyncException run with finalized := true } := by
  unfold classifyAsyncException
  have hsame : AsyncCaseRun.unclassified { run with finalized := true } = run.unclassified := rfl
  rw [hsame]
  split <;> rfl

theorem moves_finalizeRun (b : Batch) (i : Nat) : Moves env b (b.finalizeRun env i) := by
  unfold Batch.finalizeRun
  split
  · exact .refl
  · rename_i run hrun
    split
    · exact .refl
    · rename_i hopen
      simp only [Bool.not_eq_true] at hopen
      dsimp only
      rw [recordInvokeResult_eq]
      · refine .single (Move.finish hrun hopen ?_ _)
        exact ⟨rfl, rfl, by simp [finishAsyncRun, classify_setFinalized]⟩
      · rfl

theorem finalizeCanceledAdoptedRun_eq {b : Batch} {i : Nat} (hrun : b.runs[i]? = some run)
    (hopen : run.finalized = false) :
    ∃ run' test, Retires run run' ∧ b.finalizeCanceledAdoptedRun env i true =
      b.tick.force i run run' test (env.hooks b.clock) := by
  refine ⟨{ run with toAsyncCaseRun :=
    { classifyAsyncException { run.toAsyncCaseRun with finalized := true } with
      ctxinfo := runContextCancelHooks (env.hooks b.clock)
        (classifyAsyncException { run.toAsyncCaseRun with finalized := true }).ctxinfo
      task := none
      message := "" } }, env.cases (classifyAsyncException
        { run.toAsyncCaseRun with finalized := true }).caseIndex, ⟨rfl, rfl, ?_⟩, ?_⟩
  · simp [classify_setFinalized]
  · unfold Batch.finalizeCanceledAdoptedRun
    simp only [hrun, hopen, Bool.false_eq_true, if_false, Bool.or_true]
    unfold Batch.force Batch.apply Batch.recordCaseResult
    simp only [finishInvokeResult_acc, (finishInvokeResult_produces _ _ _).outcome]
    rw [classify_setFinalized]
    rfl

theorem moves_finalizeCanceledAdoptedRun {b : Batch} {i : Nat} (hrun : b.runs[i]? = some run)
    (hstop : asyncRunWouldStopFailFast run.toAsyncCaseRun = true) :
    Moves env b (b.finalizeCanceledAdoptedRun env i true) := by
  cases hopen : run.finalized with
  | true =>
    have hsame : b.finalizeCanceledAdoptedRun env i true = b := by
      simp [Batch.finalizeCanceledAdoptedRun, hrun, hopen]
    rw [hsame]
  | false =>
    obtain ⟨run', test, hretires, heq⟩ := finalizeCanceledAdoptedRun_eq env hrun hopen
    rw [heq]
    have hticked : b.tick.runs[i]? = some run := hrun
    exact .head .tick (.single (.force hticked hopen hretires hstop test _))

theorem moves_finalizeCompletedRun (i : Nat) (b : Batch) :
    Moves env b (finalizeCompletedRun env i b).1 := by
  unfold finalizeCompletedRun
  split
  · exact .refl
  · rename_i run hrun
    split
    · exact .refl
    · dsimp only
      have htick : Moves env b b.tick.tick := .head .tick (.single .tick)
      split
      · exact htick
      · split
        · rename_i hforce
          simp only [Bool.and_eq_true] at hforce
          exact htick.trans (moves_finalizeCanceledAdoptedRun env hrun hforce.2)
        · exact htick.trans (moves_finalizeRun env _ i)

/-- A loop whose body only moves only moves. -/
theorem moves_loopUntil {body : α → Batch → Batch × Bool} (hbody : ∀ a b, Moves env b (body a b).1)
    (as : List α) (b : Batch) : Moves env b (loopUntil body as b).1 :=
  loopUntil_invariant (P := Moves env b) (fun a _ b' h => h.trans (hbody a b')) .refl

theorem moves_finalizeCompletedRuns (b : Batch) : Moves env b (b.finalizeCompletedRuns env).1 :=
  (moves_loopUntil env (moves_finalizeCompletedRun env) b.scanned b).tail .advance

theorem moves_progress (b : Batch) : Moves env b (b.progress env).1 := moves_finalizeCompletedRuns env b

theorem moves_pumpAsync (b : Batch) : Moves env b (b.pumpAsync env).1 := by
  have hprogress := moves_progress env b
  have hresume : ∀ (r : Resume) (b : Batch), Moves env b ((b.resume env r).progress env).1 :=
    fun r b => (moves_resume env b r).trans (moves_progress env _)
  unfold Batch.pumpAsync
  dsimp only
  split
  · exact hprogress
  · refine hprogress.trans (.head .tick ?_)
    split
    · have hloop := moves_loopUntil env hresume (env.resumes (b.progress env).1.clock) (b.progress env).1.tick
      split
      · exact hloop
      · exact hloop.trans (moves_progress env _)
    · refine .trans ?_ (moves_progress env _)
      exact foldl_invariant (P := Moves env (b.progress env).1.tick)
        (fun r _ b' h => h.trans (moves_resume env b' r)) .refl

theorem moves_drainOne (r : Resume) (b : Batch) : Moves env b (drainOne env r b).1 := by
  unfold drainOne
  split
  · exact .refl
  · exact (moves_resume env b r).trans (moves_progress env _)

theorem moves_drainRound (round : List Resume) (b : Batch) : Moves env b (drainRound env round b).1 := by
  have hloop := moves_loopUntil env (moves_drainOne env) round b
  unfold drainRound
  dsimp only
  split
  · exact hloop
  · exact hloop.trans (moves_progress env _)

theorem moves_markOne (i : Nat) (b : Batch) : Moves env b (markOne env i b).1 := by
  have hprogress := moves_progress env b
  unfold markOne
  dsimp only
  split
  · exact hprogress
  · split
    · exact hprogress
    · split
      · exact hprogress
      · exact hprogress.trans ((moves_markUnresumable env _ i).trans (moves_progress env _))

theorem moves_finishUnresumable (b : Batch) : Moves env b (b.finishUnresumable env).1 := by
  have hdrain := moves_loopUntil env (moves_drainRound env)
    ((env.rounds b.clock).1 :: (env.rounds b.clock).2) b.tick
  unfold Batch.finishUnresumable
  dsimp only
  split
  · exact .head .tick hdrain
  · exact .head .tick (hdrain.trans (moves_loopUntil env (moves_markOne env) _ _))

theorem cancelActive_eq {b : Batch} {i : Nat} (hrun : b.runs[i]? = some run) :
    b.cancelActive env i = (b.setRun i { run with
      ctxinfo := runContextCancelHooks (env.hooks b.clock) run.ctxinfo }).tick := by
  simp [Batch.cancelActive, modifyRun_of_some hrun]

theorem moves_cancelActive {b : Batch} {i : Nat} (hrun : b.runs[i]? = some run)
    (hopen : run.finalized = false) : Moves env b (b.cancelActive env i) := by
  rw [cancelActive_eq env hrun]
  exact (Moves.update env hrun hopen (.hooks run _)).tail .tick

theorem moves_update_cancelActive {b : Batch} {i : Nat} (hrun : b.runs[i]? = some run)
    (hopen : run.finalized = false) (h : Updates run run') :
    Moves env b ((b.setRun i run').cancelActive env i) :=
  (Moves.update env hrun hopen h).trans
    (moves_cancelActive env (runs_setRun hrun run') (h.finalized.trans hopen))

theorem runs_cancelActive {b : Batch} {i : Nat} (hrun : b.runs[i]? = some run) :
    (b.cancelActive env i).runs[i]? = some { run with
      ctxinfo := runContextCancelHooks (env.hooks b.clock) run.ctxinfo } := by
  rw [cancelActive_eq env hrun]
  exact runs_setRun hrun _

/-- A run put aside after its update takes its own task along. -/
theorem moves_update_defer {b : Batch} {i : Nat} (hrun : b.runs[i]? = some run)
    (hopen : run.finalized = false) (h : Updates run run') (htask : run'.task = run.task) :
    Moves env b { ((b.setRun i run').cancelActive env i).modifyRun i
        (fun run => { run with finalized := true, task := none }) with
      deferredCanceledTasks := ((b.setRun i run').cancelActive env i).deferredCanceledTasks ++
        [⟨run.task, i, true, false, run.occurrence⟩] } := by
  refine (moves_update_cancelActive env hrun hopen h).trans (.single ?_)
  obtain ⟨now, hnow, hsame, hocc, hfin⟩ : ∃ now : Run,
      ((b.setRun i run').cancelActive env i).runs[i]? = some now ∧ now.task = run.task ∧
        now.occurrence = run.occurrence ∧ now.finalized = false :=
    ⟨_, runs_cancelActive env (runs_setRun hrun run'), htask, h.occurrence, h.finalized.trans hopen⟩
  rw [modifyRun_of_some hnow, ← hsame, ← hocc]
  exact .defer hnow hfin ⟨rfl, rfl, rfl⟩

theorem classify_task (run : Run) :
    (classifyAsyncException run.toAsyncCaseRun).task = run.task := (classify_frame _).1

theorem cancelBeforeCompletion_task (run : AsyncCaseRun) : run.cancelBeforeCompletion.task = run.task := by
  unfold AsyncCaseRun.cancelBeforeCompletion
  split <;> rfl

theorem moves_finishPendingRun (i : Nat) (b : Batch) : Moves env b (finishPendingRun env i b).1 := by
  unfold finishPendingRun
  split
  · exact .refl
  · rename_i run hrun
    split
    · exact .refl
    · rename_i hopen
      simp only [Bool.not_eq_true] at hopen
      have hticked : b.tick.runs[i]? = some run := hrun
      refine .head .tick ?_
      dsimp only
      split
      · split
        · exact moves_update_defer env hticked hopen (.classify run) (classify_task run)
        · exact moves_update_defer env hticked hopen (.cancelBeforeCompletion run)
            (cancelBeforeCompletion_task _)
      · split
        · exact moves_finalizeRun env _ i
        · exact (moves_update_cancelActive env hticked hopen (.cancelBeforeCompletion run)).trans
            (moves_finalizeRun env _ i)

theorem moves_recordCanceledCompletedResult {b : Batch}
    (hdeferred : b.deferredCanceledTasks = deferred :: rest)
    (howed : deferred.recordResultOnCleanup = true) :
    Moves env b ({ b with deferredCanceledTasks := rest }.recordCanceledCompletedResult env deferred) := by
  unfold Batch.recordCanceledCompletedResult
  split
  · rename_i hrecorded
    exact .single (.destroy hdeferred (.inr (.inr (.inl hrecorded))))
  · split
    · rename_i hnone
      exact .single (.destroy hdeferred (.inr (.inr (.inr hnone))))
    · rename_i run hrun
      dsimp only
      rw [recordInvokeResult_eq]
      · exact .single (.settle hdeferred howed hrun _)
      · rfl

theorem recordCanceledCompletedResult_deferred (b : Batch) (deferred : DeferredCanceledTask) :
    (b.recordCanceledCompletedResult env deferred).deferredCanceledTasks = b.deferredCanceledTasks := by
  unfold Batch.recordCanceledCompletedResult
  split
  · rfl
  · split <;> rfl

theorem moves_destroyCanceledTasks (h : Batch.deferredCanceledTasks b = tasks) :
    Moves env b (destroyCanceledTasks env tasks b) := by
  induction tasks generalizing b with
  | nil =>
    unfold destroyCanceledTasks
    rw [← h]
  | cons deferred rest ih =>
    unfold destroyCanceledTasks
    dsimp only
    split
    · rename_i hnone
      exact .head (.destroy h (.inl hnone)) (ih rfl)
    · split
      · rename_i howed
        exact (moves_recordCanceledCompletedResult env h howed).trans
          (ih (recordCanceledCompletedResult_deferred env _ _))
      · rename_i howed
        exact .head (.destroy h (.inr (.inl (by simpa using howed)))) (ih rfl)

theorem moves_finishPendingAsyncGroup (b : Batch) : Moves env b (b.finishPendingAsyncGroup env).1 := by
  have hfirst := moves_finalizeCompletedRuns env b
  unfold Batch.finishPendingAsyncGroup
  dsimp only
  split
  · exact hfirst
  · have hdrained := hfirst.trans ((moves_finishUnresumable env _).trans
      (moves_finalizeCompletedRuns env _))
    split
    · exact hdrained
    · split
      · exact hdrained.tail .advance
      · refine hdrained.trans ?_
        have hloop := moves_loopUntil env (moves_finishPendingRun env)
        split
        · exact (hloop _ _).tail .advance
        · exact ((hloop _ _).trans (moves_destroyCanceledTasks env rfl)).tail .advance

theorem Moves.cancel (h : Moves env b b') : ReflTransGen (CancelMove env) b b' :=
  h.lift id fun _ _ => CancelMove.move

theorem cancel_cancelPendingRun (b : Batch) (i : Nat) :
    ReflTransGen (CancelMove env) b (b.cancelPendingRun env i) := by
  unfold Batch.cancelPendingRun
  split
  · exact .refl
  · rename_i run hrun
    split
    · exact .refl
    · rename_i hopen
      simp only [Bool.not_eq_true] at hopen
      have hticked : b.tick.runs[i]? = some run := hrun
      dsimp only
      generalize hadopted : env.adopted b.clock i = adopted
      -- the run as it stands when its hooks have run
      obtain ⟨c, now, hmoves, hnow, htask, hocc, hready, hheld, hfin, hc⟩ : ∃ (c : Batch) (now : Run),
          Moves env b.tick c ∧ c.runs[i]? = some now ∧ now.task = run.task ∧
          now.occurrence = run.occurrence ∧ now.readyToFinalize = run.readyToFinalize ∧
          now.heldAtReady = run.heldAtReady ∧ now.finalized = false ∧
          (if (adopted && run.readyToFinalize) = true then
            b.tick.setRun i { run with toAsyncCaseRun := classifyAsyncException run.toAsyncCaseRun }
            else b.tick).cancelActive env i = c := by
        split
        · obtain ⟨htask, hready, hfin⟩ := classify_frame run.toAsyncCaseRun
          exact ⟨_, _, moves_update_cancelActive env hticked hopen (.classify run),
            runs_cancelActive env (runs_setRun hticked _), htask, rfl, hready, rfl, hfin.trans hopen, rfl⟩
        · exact ⟨_, _, moves_cancelActive env hticked hopen, runs_cancelActive env hticked, rfl, rfl, rfl,
            rfl, hopen, rfl⟩
      rw [hc, modifyRun_of_some hnow, ← htask, ← hocc, ← hready, ← hheld]
      refine .trans ((Moves.cancel env (.head .tick hmoves))) (.single ?_)
      have hretires : Retires now { now with
          finalized := true, task := if adopted then none else now.task } := ⟨rfl, rfl, rfl⟩
      have hcancel : CancelMove env c (c.cancelRun i now _ adopted) := .cancel hnow hfin hretires adopted
      cases adopted <;> exact hcancel

theorem cancel_cancelPendingAsyncGroup (b : Batch) :
    ReflTransGen (CancelMove env) b (b.cancelPendingAsyncGroup env) := by
  refine .tail (.trans ?_ (Moves.cancel env (moves_destroyCanceledTasks env rfl))) (.move .advance)
  exact foldl_invariant (P := ReflTransGen (CancelMove env) b)
    (fun i _ b' h => h.trans (cancel_cancelPendingRun env b' i)) .refl

theorem scheduleAsyncCase_sound {ops : List ContextOp} {created : Created}
    (h : (scheduleAsyncCase caseIndex ops created).task.isSome = true) :
    (scheduleAsyncCase caseIndex ops created).Sound := by
  cases created with
  | task => exact ⟨contextOps_coherent (fun h => by cases h) ops, fun _ => rfl, nofun⟩
  | noTask => cases h
  | threw ex => cases h

theorem scheduleAsyncCase_finalized (caseIndex : Nat) (ops : List ContextOp) (created : Created) :
    (scheduleAsyncCase caseIndex ops created).finalized = false := by
  cases created <;> rfl

theorem batchMove_startAsync (b : Batch) (caseIndex : Nat) :
    BatchMove env b (b.startAsync env caseIndex) := by
  unfold Batch.startAsync
  dsimp only
  have hopen := scheduleAsyncCase_finalized caseIndex (env.create b.clock).1 (env.create b.clock).2
  split
  · rename_i htask
    simp only [Bool.and_eq_true] at htask
    exact .start caseIndex rfl hopen htask.1 rfl (scheduleAsyncCase_sound htask.1)
  · unfold Batch.finalizeRun
    simp only [List.getElem?_concat_length, hopen, Bool.false_eq_true, if_false]
    rw [recordInvokeResult_eq]
    · simp only [Batch.setRun, List.set_append_right _ _ (Nat.le_refl _), Nat.sub_self, List.set_cons_zero]
      refine .refuse caseIndex rfl ?_ _
      simp [finishAsyncRun, classify_setFinalized]
    · rfl

theorem batchMove_middle (b : Batch) (caseIndex : Nat) :
    BatchMove env b (if (env.cases caseIndex).shouldSkip then b.staticSkip env caseIndex
      else if (env.cases caseIndex).hasAsyncFn then b.startAsync env caseIndex
      else b.execute env caseIndex) := by
  split
  · rw [staticSkip_eq]
    exact .event caseIndex _
  · split
    · exact batchMove_startAsync env b caseIndex
    · rw [execute_eq]
      exact .event caseIndex _

/-- Any number of moves, with cases that begin. -/
abbrev BatchMoves (env : Env) : Batch → Batch → Prop := ReflTransGen (BatchMove env)

theorem Moves.batch (h : Moves env b b') : BatchMoves env b b' := h.lift id fun _ _ => BatchMove.move

theorem batchMoves_handleCase (caseIndex : Nat) (b : Batch) :
    BatchMoves env b (handleCase env caseIndex b).1 := by
  have hpump := Moves.batch env (moves_pumpAsync env b)
  unfold handleCase
  dsimp only
  split
  · exact hpump
  · exact hpump.trans (.head (batchMove_middle env _ caseIndex)
      (Moves.batch env (moves_pumpAsync env _)))

theorem batchMoves_blockCase (message : String) (caseIndex : Nat) (b : Batch) :
    BatchMoves env b (blockCase env message caseIndex b).1 := by
  rw [blockCase_eq]
  exact .single (.event caseIndex _)

theorem batchMoves_loopUntil {body : α → Batch → Batch × Bool}
    (hbody : ∀ a b, BatchMoves env b (body a b).1) (as : List α) (b : Batch) :
    BatchMoves env b (loopUntil body as b).1 :=
  loopUntil_invariant (P := BatchMoves env b) (fun a _ b' h => h.trans (hbody a b')) .refl

theorem batchMoves_collectGroup (group : FixtureGroupPlan) (b : Batch) :
    BatchMoves env b (collectGroup env group b).1 := by
  unfold collectGroup
  dsimp only
  refine .head (.move .tick) ?_
  split
  · exact batchMoves_loopUntil env (batchMoves_blockCase env _) _ _
  · have hloop := batchMoves_loopUntil env (batchMoves_handleCase env) group.idxs b.tick
    split
    · exact hloop
    · exact hloop.trans (Moves.batch env (moves_finishPendingAsyncGroup env _))

theorem batchMoves_runPlan (plan : SuiteExecutionPlan) (b : Batch) :
    BatchMoves env b (runPlan env plan b).1 := by
  have hfree := batchMoves_loopUntil env (batchMoves_handleCase env) plan.freeLike b
  have hgroups := batchMoves_loopUntil env (batchMoves_collectGroup env)
  unfold runPlan
  dsimp only
  split
  · exact hfree
  · have hfinish := hfree.trans (Moves.batch env (moves_finishPendingAsyncGroup env _))
    split
    · exact hfinish
    · have hsuite := hfinish.trans (hgroups plan.suiteGroups _)
      split
      · exact hsuite
      · exact hsuite.trans (hgroups plan.globalGroups _)

end Gentest.Runner.AsyncExecutor
