import Gentest.Lib.Interleaving
import Gentest.Runner.AsyncState
import Mathlib.Data.List.Chain

/-!
# The context of a run that is finalized

The last worker to release its lease closes a context that is no longer
running, and a failure recorded in a closed context aborts the process. The
runner stops the context when the task completes and classifies the exception
of the task when it finalizes the run; each path it takes is a list of
operations, and the workers run between any two of them.

`request_context_stop` loads the state and stores `Stopping` without a lock, so
these are two operations.
-/

namespace Gentest.Async.ContextClose

open Interleaving (run run_happened Happened)
open Gentest.Runner

inductive ContextState
  | running
  | stopping
  | closed
  deriving DecidableEq, Repr

inductive Op
  /-- `finish_unresumable`: the failure it records itself. -/
  | recordUnresumable (message : String)
  | classify
  | stopLoad
  | stopStore
  | cancelHooks
  | closeIfReleased
  | waitForAdopted
  | closeToLateOperations
  | readyToFinalize
  deriving DecidableEq, Repr

inductive Path
  /-- The coroutine is done, or its resumption threw. -/
  | complete
  | unresumable (message : String)
  | finalizeRun
  | finalizeCanceledAdopted
  /-- The last loop of `finish_pending_async_group`. -/
  | finishPending (adopted : Bool)
  /-- `cancel_pending_async_group`. -/
  | cancelPending (adopted : Bool)
  deriving DecidableEq, Repr

def requestContextStop : List Op := [.stopLoad, .stopStore]

def finishActiveTestContext : List Op :=
  requestContextStop ++ [.waitForAdopted, .closeToLateOperations]

def cancelActiveTestContextWithoutWait : List Op :=
  requestContextStop ++ [.cancelHooks, .closeIfReleased]

def destroyAfterAdoptedRelease : List Op := [.waitForAdopted, .closeIfReleased]

def finalizeRunOps : List Op := .classify :: finishActiveTestContext

/-- The operations of a path; `ready` is `ready_to_finalize` as it begins. -/
def Path.ops (ready : Bool) : Path → List Op
  | .complete => requestContextStop ++ [.readyToFinalize]
  | .unresumable message =>
    [.recordUnresumable message, .cancelHooks] ++ requestContextStop ++ [.readyToFinalize]
  | .finalizeRun => finalizeRunOps
  | .finalizeCanceledAdopted =>
    .classify :: cancelActiveTestContextWithoutWait ++ destroyAfterAdoptedRelease
  | .finishPending true =>
    (if ready then [.classify] else []) ++ cancelActiveTestContextWithoutWait ++
      destroyAfterAdoptedRelease
  | .finishPending false =>
    (if ready then [] else cancelActiveTestContextWithoutWait) ++ finalizeRunOps
  | .cancelPending true =>
    (if ready then [.classify] else []) ++ cancelActiveTestContextWithoutWait ++
      destroyAfterAdoptedRelease
  | .cancelPending false => cancelActiveTestContextWithoutWait

structure World where
  state : ContextState := .running
  /-- `adopted_contexts`. -/
  leases : Nat := 0
  /-- Workers that released the last lease and have not closed yet. -/
  closers : Nat := 0
  run : AsyncCaseRun := { caseIndex := 0 }
  /-- What is left of the path the runner is on. -/
  todo : List Op := []
  /-- What `request_context_stop` loaded. -/
  loaded : ContextState := .running
  aborted : Bool := false
  deriving DecidableEq, Repr

inductive Step
  | acquire
  | release
  /-- `close_context_if_released` of a worker that released the last lease. -/
  | close
  /-- The coroutine ends; its promise keeps the exception, if any. -/
  | taskDone (exception : Option TaskException)
  /-- The resumption itself threw a `std::exception` or something else. -/
  | resumeThrew (what : Option String)
  | begin (path : Path)
  | runner
  deriving DecidableEq, Repr

/-- `close_context_if_released`. -/
def World.closeIfReleased (w : World) : World :=
  if w.leases = 0 ∧ w.state ≠ .running then { w with state := .closed } else w

/-- When the runner may take a path; it samples the leases as it does. -/
def World.mayBegin (w : World) : Path → Bool
  | .complete => !w.run.readyToFinalize &&
    (w.run.exception != .none || w.run.task.all AsyncTask.done)
  | .unresumable _ => !w.run.readyToFinalize && w.run.exception == .none &&
    w.run.task.any fun task => !task.done
  | .finalizeRun => (w.run.readyToFinalize && w.leases == 0) || w.run.task.isNone
  | .finalizeCanceledAdopted => w.run.readyToFinalize && w.leases != 0
  | .finishPending adopted | .cancelPending adopted => adopted == (w.leases != 0)

/-- The flags and the exception a path sets before its first operation. -/
def beginRun (path : Path) (run : AsyncCaseRun) : AsyncCaseRun :=
  match path with
  | .complete => run
  | .unresumable message => { run with exception := .failure, message := message }
  | .finishPending _ =>
    if run.readyToFinalize then { run with finalized := true }
    else { run.cancelBeforeCompletion with finalized := true }
  | _ => { run with finalized := true }

/-- The failure the next operation records in the context, if it records one:
`require_owner_context` aborts when the context is closed. -/
def World.records (w : World) : Option String :=
  match w.todo with
  | .recordUnresumable message :: _ => some message
  | .classify :: _ => w.run.unrecorded
  | _ => none

def World.touches (w : World) : Bool :=
  w.records.isSome || w.todo.head? == some .cancelHooks

def World.perform (w : World) : Op → World
  | .recordUnresumable message =>
    { w with run := { w.run with ctxinfo := w.run.ctxinfo.recordFailure message } }
  | .classify => { w with run := classifyAsyncException w.run }
  | .stopLoad => { w with loaded := w.state }
  | .stopStore => if w.loaded = .closed then w else { w with state := .stopping }
  | .closeIfReleased => w.closeIfReleased
  | .closeToLateOperations => { w with state := .closed }
  | .readyToFinalize => { w with run := { w.run with readyToFinalize := true } }
  | .cancelHooks | .waitForAdopted => w

def World.step (w : World) (a : Step) : Option World :=
  if w.aborted then none
  else
    match a with
    | .acquire => some { w with leases := w.leases + 1 }
    | .release =>
      if w.leases = 0 then none
      else some { w with
        leases := w.leases - 1
        closers := if w.leases = 1 then w.closers + 1 else w.closers }
    | .close =>
      if w.closers = 0 then none
      else some { w.closeIfReleased with closers := w.closers - 1 }
    | .taskDone exception =>
      if !w.todo.isEmpty || w.run.readyToFinalize || w.run.finalized then none
      else w.run.task.map fun _ =>
        { w with run := { w.run with task := some { done := true, exception := exception } } }
    | .resumeThrew what =>
      if !w.todo.isEmpty || w.run.readyToFinalize || w.run.finalized then none
      else some { w with run := w.run.resumeThrew what }
    | .begin path =>
      if !w.todo.isEmpty || w.run.finalized || !w.mayBegin path then none
      else some { w with
        run := beginRun path w.run
        todo := path.ops w.run.readyToFinalize }
    | .runner =>
      match w.todo with
      | [] => none
      | .waitForAdopted :: rest => if w.leases = 0 then some { w with todo := rest } else none
      | op :: rest =>
        if w.records.isSome && w.state = .closed then some { w with aborted := true }
        else some { w.perform op with todo := rest }

-- ---------------------------------------------------------------------------
-- The order of the operations
-- ---------------------------------------------------------------------------

def Op.closes : Op → Bool
  | .closeIfReleased | .closeToLateOperations => true
  | _ => false

/-- `recorded`: the classification would record a failure. -/
def Op.touches (recorded : Bool) : Op → Bool
  | .recordUnresumable _ | .cancelHooks => true
  | .classify => recorded
  | _ => false

/-- No touch comes after an operation that closes, and every store has its load
right before it. -/
structure Ordered (recorded : Bool) (todo : List Op) : Prop where
  closes : todo.Pairwise fun op later => op.closes = true → later.touches recorded = false
  stores : todo.IsChain fun op next => next = .stopStore → op = .stopLoad

instance (recorded : Bool) (todo : List Op) : Decidable (Ordered recorded todo) :=
  haveI : DecidableRel fun op later : Op => op.closes = true → later.touches recorded = false := fun op later =>
    inferInstanceAs (Decidable (op.closes = true → later.touches recorded = false))
  haveI : DecidableRel fun op next : Op => next = .stopStore → op = .stopLoad := fun op next =>
    inferInstanceAs (Decidable (next = .stopStore → op = .stopLoad))
  decidable_of_iff
    ((todo.Pairwise fun op later => op.closes = true → later.touches recorded = false) ∧
      todo.IsChain fun op next => next = .stopStore → op = .stopLoad)
    ⟨fun h => ⟨h.1, h.2⟩, fun h => ⟨h.closes, h.stores⟩⟩

theorem Ordered.tail (h : Ordered recorded (op :: rest)) : Ordered recorded rest :=
  ⟨(List.pairwise_cons.mp h.closes).2, h.stores.tail⟩

theorem Op.touches_mono (h : Op.touches true op = false) (recorded : Bool) :
    op.touches recorded = false := by
  cases op <;> simp_all [Op.touches]

theorem Ordered.mono (h : Ordered true todo) (recorded : Bool) : Ordered recorded todo :=
  ⟨h.closes.imp fun hlater hcloses => Op.touches_mono (hlater hcloses) recorded, h.stores⟩

/-- What `classify_async_exception` would record is known before the path. -/
theorem Ordered.ops (path : Path) (ready recorded : Bool)
    (h : path = .finishPending false → ready = false → recorded = false) :
    Ordered recorded (path.ops ready) := by
  cases path with
  | complete => cases ready <;> exact Ordered.mono (by decide) _
  | unresumable message =>
    refine Ordered.mono ⟨?_, ?_⟩ _
    · simp [Path.ops, requestContextStop, Op.closes]
    · simp [Path.ops, requestContextStop]
  | finalizeRun => cases ready <;> exact Ordered.mono (by decide) _
  | finalizeCanceledAdopted => cases ready <;> exact Ordered.mono (by decide) _
  | finishPending adopted =>
    cases adopted with
    | true => cases ready <;> exact Ordered.mono (by decide) _
    | false =>
      cases ready with
      | true => exact Ordered.mono (by decide) _
      -- the hooks come first, and the classification after the close is void
      | false => rw [h rfl rfl]; decide
  | cancelPending adopted =>
    cases adopted <;> cases ready <;> exact Ordered.mono (by decide) _

theorem ops_head (path : Path) (ready : Bool) : (path.ops ready).head? ≠ some .stopStore := by
  cases path with
  | complete | unresumable message | finalizeRun | finalizeCanceledAdopted => simp [Path.ops, requestContextStop, finalizeRunOps]
  | finishPending adopted => cases adopted <;> cases ready <;> decide
  | cancelPending adopted => cases adopted <;> cases ready <;> decide

theorem finalized_of_closes (path : Path) (ready : Bool) (run : AsyncCaseRun) (hmem : op ∈ path.ops ready)
    (hcloses : Op.closes op = true) : (beginRun path run).finalized = true := by
  cases path with
  | complete =>
    simp only [Path.ops, requestContextStop, List.cons_append, List.nil_append, List.mem_cons, List.not_mem_nil, or_false] at hmem
    rcases hmem with rfl | rfl | rfl <;> cases hcloses
  | unresumable message =>
    simp only [Path.ops, requestContextStop, List.cons_append, List.nil_append, List.mem_cons, List.not_mem_nil, or_false] at hmem
    rcases hmem with rfl | rfl | rfl | rfl | rfl <;> cases hcloses
  | finalizeRun | finalizeCanceledAdopted | cancelPending adopted => rfl
  | finishPending adopted =>
    unfold beginRun
    dsimp only
    split <;> rfl

theorem unrecorded_eq_none {run : AsyncCaseRun} (h : run.exception ≠ .none) : run.unrecorded = none := by
  simp [AsyncCaseRun.unrecorded, AsyncCaseRun.unclassified, h]

/-- A run that is not ready has its exception set before the last loop of
`finish_pending_async_group` goes on with it. -/
theorem unrecorded_finishPending {run : AsyncCaseRun} (hready : run.readyToFinalize = false)
    (adopted : Bool) : (beginRun (.finishPending adopted) run).unrecorded = none := by
  apply unrecorded_eq_none
  simp only [beginRun, hready, Bool.false_eq_true, if_false]
  unfold AsyncCaseRun.cancelBeforeCompletion
  split
  · exact nofun
  · rename_i h
    exact h

theorem TaskException.invoke_ne_none (ex : TaskException) : ex.invoke ≠ .none := by
  cases ex <;> exact nofun

theorem unrecorded_classify (run : AsyncCaseRun) : (classifyAsyncException run).unrecorded = none := by
  unfold classifyAsyncException
  split
  · rename_i h
    simp [AsyncCaseRun.unrecorded, h]
  · exact unrecorded_eq_none (TaskException.invoke_ne_none _)

-- ---------------------------------------------------------------------------
-- Who closed the context
-- ---------------------------------------------------------------------------

/-- A stop request has loaded the state and will store over what comes now. -/
def World.storing (w : World) : Prop := w.todo.head? = some .stopStore ∧ w.loaded ≠ .closed

/-- The step is a worker's that finds no lease left and a context that is no
longer running, and the runner does not store over it. -/
def World.Closes (w : World) (a : Step) : Prop :=
  a = .close ∧ w.leases = 0 ∧ w.state ≠ .running ∧ ¬w.storing

def World.Spent (w : World) : Prop :=
  w.run.finalized = true ∧ ∀ op ∈ w.todo, op.touches w.run.unrecorded.isSome = false

/-- `early`: a worker closed the context. -/
structure Inv (early : Prop) (w : World) : Prop where
  ordered : Ordered w.run.unrecorded.isSome w.todo
  finalized : ∀ op ∈ w.todo, op.closes = true → w.run.finalized = true
  kept : early → w.state = .closed ∧ ¬w.storing
  closed : w.state = .closed → early ∨ w.storing ∨ w.Spent

theorem Inv.congr (hw : Inv early w) (h : early ↔ early') : Inv early' w :=
  ⟨hw.ordered, hw.finalized, fun he => hw.kept (h.mpr he), fun hc => (hw.closed hc).imp_left h.mp⟩

theorem Inv.frame {w w' : World} (hw : Inv early w) (hstate : w'.state = w.state)
    (hrun : w'.run = w.run) (htodo : w'.todo = w.todo) (hloaded : w'.loaded = w.loaded) :
    Inv early w' := by
  obtain ⟨ho, hf, hk, hc⟩ := hw
  refine ⟨?_, ?_, ?_, ?_⟩
  · simpa only [hrun, htodo] using ho
  · simpa only [hrun, htodo] using hf
  · simpa only [World.storing, hstate, htodo, hloaded] using hk
  · simpa only [World.storing, World.Spent, hstate, hrun, htodo, hloaded] using hc

theorem Ordered.weaken (h : Ordered recorded todo) (hrec : recorded' = true → recorded = true) :
    Ordered recorded' todo := by
  cases recorded with
  | true => exact h.mono _
  | false =>
    obtain rfl : recorded' = false := by simpa using hrec
    exact h

theorem Op.touches_weaken (h : Op.touches recorded op = false) (hrec : recorded' = true → recorded = true) :
    op.touches recorded' = false := by
  cases recorded with
  | true => exact Op.touches_mono h _
  | false =>
    obtain rfl : recorded' = false := by simpa using hrec
    exact h

theorem Inv.not_storing {w w' : World} (hw : Inv early w) (htodo : w.todo = op :: rest)
    (hop : op ≠ .stopLoad) (htodo' : w'.todo = rest) : ¬w'.storing := by
  rintro ⟨hhead, -⟩
  have hstores := hw.ordered.stores
  rw [htodo, List.isChain_cons] at hstores
  rw [htodo'] at hhead
  exact hop (hstores.1 _ hhead rfl)

theorem not_storing_of_head {w : World} (htodo : w.todo = op :: rest) (hop : op ≠ .stopStore) :
    ¬w.storing := by
  rintro ⟨hhead, -⟩
  rw [htodo] at hhead
  exact hop (Option.some.inj hhead)

theorem Inv.advance {w w' : World} (hw : Inv early w) (htodo : w.todo = op :: rest)
    (hload : op ≠ .stopLoad) (hstore : ¬w.storing) (htodo' : w'.todo = rest)
    (hstate : w'.state = w.state) (hfin : w'.run.finalized = w.run.finalized)
    (hrec : w'.run.unrecorded.isSome = true → w.run.unrecorded.isSome = true) : Inv early w' := by
  have hnot := hw.not_storing htodo hload htodo'
  refine ⟨?_, fun later hmem hcloses => ?_, fun he => ?_, fun hc => ?_⟩
  · rw [htodo']
    exact (htodo ▸ hw.ordered).tail.weaken hrec
  · rw [hfin]
    refine hw.finalized later ?_ hcloses
    rw [htodo, ← htodo']
    exact List.mem_cons_of_mem _ hmem
  · exact ⟨hstate ▸ (hw.kept he).1, hnot⟩
  · rcases hw.closed (hstate ▸ hc) with he | hs | hspent
    · exact .inl he
    · exact absurd hs hstore
    · refine .inr (.inr ⟨hfin ▸ hspent.1, fun later hmem => Op.touches_weaken (hspent.2 later ?_) hrec⟩)
      rw [htodo, ← htodo']
      exact List.mem_cons_of_mem _ hmem

theorem Inv.close {w w' : World} (hw : Inv early w) (htodo : w.todo = op :: rest)
    (hcloses : op.closes = true) (htodo' : w'.todo = rest) (hrun : w'.run = w.run)
    (hstate : w.state = .closed → w'.state = .closed) : Inv early w' := by
  have hload : op ≠ .stopLoad := by
    rintro rfl
    cases hcloses
  have hordered := htodo ▸ hw.ordered
  refine ⟨?_, fun later hmem hl => ?_, fun he => ?_, fun _ => .inr (.inr ⟨?_, fun later hmem => ?_⟩)⟩
  · rw [htodo', hrun]
    exact hordered.tail
  · rw [hrun]
    refine hw.finalized later ?_ hl
    rw [htodo, ← htodo']
    exact List.mem_cons_of_mem _ hmem
  · exact ⟨hstate (hw.kept he).1, hw.not_storing htodo hload htodo'⟩
  · rw [hrun]
    exact hw.finalized op (htodo ▸ List.mem_cons_self ..) hcloses
  · rw [hrun]
    rw [htodo'] at hmem
    exact (List.pairwise_cons.mp hordered.closes).1 later hmem hcloses

theorem Inv.stopLoad {w w' : World} (hw : Inv early w) (htodo : w.todo = .stopLoad :: rest)
    (htodo' : w'.todo = rest) (hrun : w'.run = w.run) (hstate : w'.state = w.state)
    (hloaded : w'.loaded = w.state) : Inv early w' := by
  refine ⟨?_, fun later hmem hl => ?_, fun he => ?_, fun hc => ?_⟩
  · rw [htodo', hrun]
    exact (htodo ▸ hw.ordered).tail
  · rw [hrun]
    refine hw.finalized later ?_ hl
    rw [htodo, ← htodo']
    exact List.mem_cons_of_mem _ hmem
  · have hclosed := (hw.kept he).1
    exact ⟨hstate.trans hclosed, fun hs => hs.2 (hloaded.trans hclosed)⟩
  · rcases hw.closed (hstate ▸ hc) with he | hs | hspent
    · exact .inl he
    · exact absurd hs (not_storing_of_head htodo nofun)
    · refine .inr (.inr ⟨hrun ▸ hspent.1, fun later hmem => ?_⟩)
      rw [hrun]
      refine hspent.2 later ?_
      rw [htodo, ← htodo']
      exact List.mem_cons_of_mem _ hmem

theorem classify_finalized (run : AsyncCaseRun) :
    (classifyAsyncException run).finalized = run.finalized := by
  unfold classifyAsyncException
  split <;> rfl

theorem closeIfReleased_closed (w : World) (h : w.state = .closed) : w.closeIfReleased.state = .closed := by
  unfold World.closeIfReleased
  split
  · rfl
  · exact h

theorem closeIfReleased_run (w : World) : w.closeIfReleased.run = w.run := by
  unfold World.closeIfReleased
  split <;> rfl

theorem Inv.perform {w : World} (hw : Inv early w) (htodo : w.todo = op :: rest) :
    Inv early { w.perform op with todo := rest } := by
  cases op with
  | recordUnresumable message =>
    exact hw.advance htodo nofun (not_storing_of_head htodo nofun) rfl rfl rfl id
  | classify =>
    refine hw.advance htodo nofun (not_storing_of_head htodo nofun) rfl rfl (classify_finalized w.run) ?_
    intro h
    simp [World.perform, unrecorded_classify] at h
  | stopLoad => exact hw.stopLoad htodo rfl rfl rfl rfl
  | stopStore =>
    by_cases hloaded : w.loaded = .closed
    · simp only [World.perform, hloaded, if_true]
      exact hw.advance htodo nofun (fun hs => hs.2 hloaded) rfl rfl rfl id
    · have hstoring : w.storing := ⟨by simp [htodo], hloaded⟩
      simp only [World.perform, hloaded, if_false]
      refine ⟨(htodo ▸ hw.ordered).tail, fun later hmem hl => ?_, fun he => ?_, nofun⟩
      · exact hw.finalized later (htodo ▸ List.mem_cons_of_mem _ hmem) hl
      · exact absurd hstoring (hw.kept he).2
  | cancelHooks => exact hw.advance htodo nofun (not_storing_of_head htodo nofun) rfl rfl rfl id
  | closeIfReleased =>
    exact hw.close htodo rfl rfl (closeIfReleased_run w) (closeIfReleased_closed w)
  | waitForAdopted => exact hw.advance htodo nofun (not_storing_of_head htodo nofun) rfl rfl rfl id
  | closeToLateOperations => exact hw.close htodo rfl rfl rfl fun _ => rfl
  | readyToFinalize => exact hw.advance htodo nofun (not_storing_of_head htodo nofun) rfl rfl rfl id

theorem Inv.workerClose {w : World} (hw : Inv early w) (closers : Nat) :
    Inv (early ∨ w.Closes .close) { w.closeIfReleased with closers := closers } := by
  by_cases hcond : w.leases = 0 ∧ w.state ≠ .running
  · rw [show w.closeIfReleased = { w with state := .closed } from if_pos hcond]
    by_cases hstoring : w.storing
    · refine ⟨hw.ordered, hw.finalized, fun he => ?_, fun _ => .inr (.inl hstoring)⟩
      rcases he with he | hcloses
      · exact absurd hstoring (hw.kept he).2
      · exact absurd hstoring hcloses.2.2.2
    · exact ⟨hw.ordered, hw.finalized, fun _ => ⟨rfl, hstoring⟩,
        fun _ => .inl (.inr ⟨rfl, hcond.1, hcond.2, hstoring⟩)⟩
  · have hnot : ¬w.Closes .close := fun h => hcond ⟨h.2.1, h.2.2.1⟩
    rw [show w.closeIfReleased = w from if_neg hcond]
    refine Inv.congr ?_ (or_iff_left hnot).symm
    exact hw.frame rfl rfl rfl rfl

/-- Between two paths nothing but a worker can have closed the context. -/
theorem Inv.between {w w' : World} (hw : Inv early w) (htodo : w.todo = [])
    (hfin : w.run.finalized = false) (hstate : w'.state = w.state)
    (hordered : Ordered w'.run.unrecorded.isSome w'.todo)
    (hfinal : ∀ op ∈ w'.todo, op.closes = true → w'.run.finalized = true)
    (hhead : w'.todo.head? ≠ some .stopStore) : Inv early w' := by
  refine ⟨hordered, hfinal, fun he => ⟨hstate ▸ (hw.kept he).1, fun hs => hhead hs.1⟩, fun hc => ?_⟩
  rcases hw.closed (hstate ▸ hc) with he | hs | hspent
  · exact .inl he
  · simp [World.storing, htodo] at hs
  · simp [World.Spent, hfin] at hspent

theorem Inv.begin {w : World} (hw : Inv early w) (htodo : w.todo = []) (hfin : w.run.finalized = false)
    (path : Path) :
    Inv early { w with run := beginRun path w.run, todo := path.ops w.run.readyToFinalize } := by
  refine hw.between htodo hfin rfl (Ordered.ops _ _ _ ?_) (fun op hmem => finalized_of_closes _ _ _ hmem)
    (ops_head _ _)
  rintro rfl hready
  rw [unrecorded_finishPending hready]
  rfl

theorem Ordered.nil : Ordered recorded [] := ⟨List.Pairwise.nil, List.IsChain.nil⟩

theorem Inv.resumed {w : World} (hw : Inv early w) (htodo : w.todo = []) (hfin : w.run.finalized = false)
    (run : AsyncCaseRun) : Inv early { w with run := run } := by
  refine hw.between htodo hfin rfl ?_ ?_ ?_
  · simpa only [htodo] using Ordered.nil
  · simp [htodo]
  · simp [htodo]

theorem Inv.step {w w' : World} (hw : Inv early w) (h : w.step a = some w') :
    Inv (early ∨ w.Closes a) w' := by
  have hother : a ≠ .close → (early ↔ early ∨ w.Closes a) := by
    intro hne
    simp [World.Closes, hne]
  unfold World.step at h
  split at h
  · cases h
  cases a with
  | acquire =>
    cases h
    refine Inv.congr ?_ (hother nofun)
    exact hw.frame rfl rfl rfl rfl
  | release =>
    dsimp only at h
    split at h
    · cases h
    · cases h
      refine Inv.congr ?_ (hother nofun)
      exact hw.frame rfl rfl rfl rfl
  | close =>
    dsimp only at h
    split at h
    · cases h
    · cases h; exact hw.workerClose _
  | taskDone exception =>
    dsimp only at h
    split at h
    · cases h
    · rename_i hidle
      simp only [Bool.or_eq_true, not_or, Bool.not_eq_true, Bool.not_eq_false', List.isEmpty_iff] at hidle
      simp only [Option.map_eq_some_iff] at h
      obtain ⟨task, -, rfl⟩ := h
      exact (hw.resumed hidle.1.1 hidle.2 _).congr (hother nofun)
  | resumeThrew what =>
    dsimp only at h
    split at h
    · cases h
    · rename_i hidle
      simp only [Bool.or_eq_true, not_or, Bool.not_eq_true, Bool.not_eq_false', List.isEmpty_iff] at hidle
      cases h
      exact (hw.resumed hidle.1.1 hidle.2 _).congr (hother nofun)
  | begin path =>
    dsimp only at h
    split at h
    · cases h
    · rename_i hidle
      simp only [Bool.or_eq_true, not_or, Bool.not_eq_true, Bool.not_eq_false', List.isEmpty_iff] at hidle
      cases h
      exact (hw.begin hidle.1.1 hidle.1.2 path).congr (hother nofun)
  | runner =>
    dsimp only at h
    refine Inv.congr ?_ (hother nofun)
    split at h
    · cases h
    · rename_i rest htodo
      split at h
      · cases h; exact hw.advance htodo nofun (not_storing_of_head htodo nofun) rfl rfl rfl id
      · cases h
    · rename_i op rest _ htodo
      split at h
      · cases h; exact hw.frame rfl rfl rfl rfl
      · cases h; exact hw.perform htodo

theorem Inv.init {w₀ : World} (hstate : w₀.state = .running) (htodo : w₀.todo = []) : Inv False w₀ where
  ordered := by simpa only [htodo] using Ordered.nil
  finalized := by simp [htodo]
  kept := False.elim
  closed hc := by simp [hstate] at hc

-- ---------------------------------------------------------------------------
-- The runner's own touches
-- ---------------------------------------------------------------------------

theorem World.touches_head {w : World} (h : w.touches = true) :
    ∃ op rest, w.todo = op :: rest ∧ op.touches w.run.unrecorded.isSome = true := by
  cases htodo : w.todo with
  | nil => simp [World.touches, World.records, htodo] at h
  | cons op rest =>
    refine ⟨op, rest, rfl, ?_⟩
    cases op <;> simp_all [World.touches, World.records, Op.touches]

theorem Inv.closed_iff {w : World} (hw : Inv early w) (ht : w.touches = true) :
    w.state = .closed ↔ early := by
  obtain ⟨op, rest, htodo, htouch⟩ := World.touches_head ht
  refine ⟨fun hc => ?_, fun he => (hw.kept he).1⟩
  rcases hw.closed hc with he | hs | hspent
  · exact he
  · refine absurd hs (not_storing_of_head htodo ?_)
    rintro rfl
    cases htouch
  · have hnot := hspent.2 op (htodo ▸ List.mem_cons_self ..)
    simp [hnot] at htouch

theorem classify_failures {run : AsyncCaseRun} (h : run.unrecorded = some msg) :
    (classifyAsyncException run).ctxinfo.failures = run.ctxinfo.failures ++ [msg] := by
  obtain ⟨ex, hex, hrec⟩ := Option.bind_eq_some_iff.mp h
  simp [classifyAsyncException, AsyncCaseRun.handle, hex, hrec, TestContextInfo.recordFailure]

theorem World.step_records {w : World} (hrec : w.records = some msg) (halive : w.aborted = false) :
    ∃ w', w.step .runner = some w' ∧
      (w'.aborted = false ∧ w'.run.ctxinfo.failures = w.run.ctxinfo.failures ++ [msg] ↔
        w.state ≠ .closed) := by
  by_cases hclosed : w.state = .closed
  · refine ⟨{ w with aborted := true }, ?_, by simp [hclosed]⟩
    cases htodo : w.todo with
    | nil => simp [World.records, htodo] at hrec
    | cons op rest => cases op <;> simp_all [World.step, World.records]
  · cases htodo : w.todo with
    | nil => simp [World.records, htodo] at hrec
    | cons op rest =>
      refine ⟨{ w.perform op with todo := rest }, ?_, ?_⟩
      · cases op <;> simp_all [World.step, World.records]
      · cases op with
        | recordUnresumable message =>
          obtain rfl : message = msg := by simpa [World.records, htodo] using hrec
          simp [World.perform, TestContextInfo.recordFailure, hclosed, halive]
        | classify =>
          have hun : w.run.unrecorded = some msg := by simpa [World.records, htodo] using hrec
          simp [World.perform, classify_failures hun, hclosed, halive]
        | stopLoad | stopStore | cancelHooks | closeIfReleased | waitForAdopted
        | closeToLateOperations | readyToFinalize => simp [World.records, htodo] at hrec

/-- In every interleaving, whenever the runner is about to record a failure or
to run the cancel hooks: the context is open, and what it records is kept,
exactly when no worker has released the last lease of a stopped context and
closed it before. -/
theorem finalisation_context_open {w₀ w : World} (hstate : w₀.state = .running) (htodo : w₀.todo = [])
    (h : run World.step w₀ steps = some w) (ht : w.touches = true) :
    (w.state ≠ .closed ↔ ¬Happened World.step World.Closes w₀ steps) ∧
      ∀ msg, w.records = some msg → w.aborted = false → ∃ w', w.step .runner = some w' ∧
        (w'.aborted = false ∧ w'.run.ctxinfo.failures = w.run.ctxinfo.failures ++ [msg] ↔
          ¬Happened World.step World.Closes w₀ steps) := by
  have hw : Inv (Happened World.step World.Closes w₀ steps) w :=
    run_happened (P := Inv) (fun _ _ _ _ => Inv.step) (Inv.init hstate htodo) h
  have hiff := (hw.closed_iff ht).not
  refine ⟨hiff, fun msg hrec halive => ?_⟩
  obtain ⟨w', hstep, hkept⟩ := World.step_records hrec halive
  exact ⟨w', hstep, hkept.trans hiff⟩

def oneWorker : World := { leases := 1, run := { caseIndex := 0, task := some {} } }

def releasedFirst : List Step :=
  [.release, .close, .taskDone (some (.stdException "boom")), .begin .complete, .runner, .runner,
    .runner, .begin .finalizeRun]

theorem finalisation_context_open_released_first :
    ∃ w w' : World, run World.step oneWorker releasedFirst = some w ∧ w.step .runner = some w' ∧
      w.state ≠ .closed ∧ w'.aborted = false ∧
      w'.run.ctxinfo.failures = ["unexpected std::exception: boom"] := by
  have hreach : ∃ w, run World.step oneWorker releasedFirst = some w ∧ w.touches = true ∧
      w.records = some "unexpected std::exception: boom" ∧ w.aborted = false ∧
      w.state ≠ .closed ∧ w.run.ctxinfo.failures = [] := ⟨_, rfl, rfl, rfl, rfl, nofun, rfl⟩
  obtain ⟨w, hrun, ht, hrec, halive, hopen, hnone⟩ := hreach
  obtain ⟨hiff, hkept⟩ := finalisation_context_open rfl rfl hrun ht
  obtain ⟨w', hstep, hkept⟩ := hkept _ hrec halive
  obtain ⟨halive', hfailures⟩ := hkept.mpr (hiff.mp hopen)
  exact ⟨w, w', hrun, hstep, hopen, halive', by rw [hfailures, hnone]; rfl⟩

/-- The worker still holds its lease when the task throws, and releases it
before the run is finalized. -/
def releasedAfterThrow : List Step :=
  [.taskDone (some (.stdException "boom")), .begin .complete, .runner, .runner, .runner, .release,
    .close, .begin .finalizeRun]

/-- The exception of the task is not reported: the process aborts. -/
theorem finalisation_aborts :
    ∃ w w' : World, run World.step oneWorker releasedAfterThrow = some w ∧ w.touches = true ∧
      w.state = .closed ∧ w.step .runner = some w' ∧ w'.aborted = true :=
  ⟨_, _, rfl, rfl, rfl, rfl, rfl⟩

end Gentest.Async.ContextClose
