import Gentest.Context.LocalBuffer
import Gentest.Runner.AsyncState

/-!
# Running a task to its end

`run_async_task_blocking` tells a failure from a success by whether it has a text to
report: the text of the exception or, where that is empty, the first failure recorded
in the context.
-/

namespace Gentest.Async.Blocking

open Gentest.Context (Thread ContextId)
open Gentest.Runner (TaskException TestContextInfo)

inductive BlockingAsyncStatus
  | completed
  | blocked
  deriving DecidableEq, Repr

/-- Where the scheduler has stopped: the reason it leaves, the exception of the task,
and the thread with the context the task ran in. -/
structure SchedulerEnd where
  status : BlockingAsyncStatus := .completed
  blockedReason : String := ""
  exception : Option TaskException := none
  thread : Thread := {}
  ctx : ContextId

def firstRecordedFailure (info : TestContextInfo) : String :=
  info.failures.headD ""

/-- What the context holds after `flush_current_buffer_for`. -/
def flushed (t : Thread) (ctx : ContextId) : TestContextInfo :=
  ((t.flushCurrentBufferFor (some ctx)).contexts ctx).info

def firstFailureOrEmpty (t : Thread) (ctx : ContextId) : String :=
  firstRecordedFailure (flushed t ctx)

def runtimeSkipReasonOrDefault (t : Thread) (ctx : ContextId) : String :=
  if (t.contexts ctx).info.runtimeSkipReason ≠ "" then (t.contexts ctx).info.runtimeSkipReason else "skip requested"

/-- What the handlers leave in `error_out`. -/
def exceptionText (t : Thread) (ctx : ContextId) : TaskException → String
  | .blocked reason => reason
  | .skip => runtimeSkipReasonOrDefault t ctx
  | .assertion message => if firstFailureOrEmpty t ctx = "" then message else firstFailureOrEmpty t ctx
  | .failure what => "std::exception: " ++ what
  | .stdException what => "std::exception: " ++ what
  | .unknown => "unknown exception"

/-- The end of `run_async_task_blocking`: the value it returns and `error_out`. -/
def runAsyncTaskBlocking (s : SchedulerEnd) : Bool × String :=
  let t := s.thread.flushCurrentBufferFor (some s.ctx)
  match s.status with
  | .blocked => (false, if s.blockedReason = "" then "async task cannot resume" else s.blockedReason)
  | .completed =>
    let thrown := (s.exception.map (exceptionText t s.ctx)).getD ""
    let errorOut := if thrown = "" then firstFailureOrEmpty t s.ctx else thrown
    (errorOut.isEmpty, errorOut)

-- ---------------------------------------------------------------------------
-- Success
-- ---------------------------------------------------------------------------

/-- The failures recorded in the context, those still in the buffer with them. -/
def SchedulerEnd.failures (s : SchedulerEnd) : List String :=
  (flushed s.thread s.ctx).failures

/-- The task completed without an exception and nothing failed. -/
def SchedulerEnd.Succeeded (s : SchedulerEnd) : Prop :=
  s.status = .completed ∧ s.exception = none ∧ s.failures = []

/-- The value returned and the text agree with each other and with what happened. -/
def ReportsSuccess (s : SchedulerEnd) : Prop :=
  ((runAsyncTaskBlocking s).1 = true ↔ s.Succeeded) ∧
    ((runAsyncTaskBlocking s).2 ≠ "" ↔ (runAsyncTaskBlocking s).1 = false)

def HasText : TaskException → Prop
  | .blocked reason => reason ≠ ""
  | .assertion message => message ≠ ""
  | _ => True

variable {s : SchedulerEnd} {t : Thread} {c : ContextId}

theorem flushed_flush : flushed (t.flushCurrentBufferFor (some c)) c = flushed t c := by
  have hempty : (t.flushCurrentBufferFor (some c)).currentBuffer.owner ≠ some c ∨
      (t.flushCurrentBufferFor (some c)).currentBuffer.empty = true := by
    simp only [Thread.flushCurrentBufferFor]
    split
    · assumption
    · exact .inr rfl
  have hsame : (t.flushCurrentBufferFor (some c)).flushCurrentBufferFor (some c) = t.flushCurrentBufferFor (some c) :=
    if_pos hempty
  rw [flushed, hsame, flushed]

theorem firstFailureOrEmpty_flush :
    firstFailureOrEmpty (t.flushCurrentBufferFor (some c)) c = (flushed t c).failures.headD "" := by
  rw [firstFailureOrEmpty, flushed_flush, firstRecordedFailure]

/-- The handlers and the fallback leave no text exactly when the exception has none and
the first failure has none. -/
theorem exceptionText_eq_empty (ex : TaskException) :
    exceptionText t c ex = "" ∧ firstFailureOrEmpty t c = "" ↔ ¬HasText ex ∧ firstFailureOrEmpty t c = "" := by
  cases ex with
  | blocked reason => simp [exceptionText, HasText]
  | assertion message =>
    simp only [exceptionText, HasText, not_not]
    constructor
    · rintro ⟨htext, hfirst⟩
      rw [if_pos hfirst] at htext
      exact ⟨htext, hfirst⟩
    · rintro ⟨htext, hfirst⟩
      exact ⟨by rw [if_pos hfirst, htext], hfirst⟩
  | skip =>
    simp only [exceptionText, HasText, not_true_eq_false, false_and, iff_false, not_and, runtimeSkipReasonOrDefault]
    intro htext
    split at htext
    · contradiction
    · exact absurd htext (by decide)
  | failure what | stdException what => simp [exceptionText, HasText]
  | unknown => simp [exceptionText, HasText]

theorem runAsyncTaskBlocking_blocked (h : s.status = .blocked) :
    (runAsyncTaskBlocking s).1 = false ∧ (runAsyncTaskBlocking s).2 ≠ "" := by
  unfold runAsyncTaskBlocking
  rw [h]
  refine ⟨rfl, ?_⟩
  dsimp only
  split
  · decide
  · assumption

theorem runAsyncTaskBlocking_agree : (runAsyncTaskBlocking s).2 ≠ "" ↔ (runAsyncTaskBlocking s).1 = false := by
  cases hstatus : s.status with
  | blocked => exact iff_of_true (runAsyncTaskBlocking_blocked hstatus).2 (runAsyncTaskBlocking_blocked hstatus).1
  | completed => simp [runAsyncTaskBlocking, hstatus]

/-- A completed task is a success for the caller when neither its exception nor the
first failure has a text. -/
theorem runAsyncTaskBlocking_completed (h : s.status = .completed) :
    (runAsyncTaskBlocking s).1 = true ↔ (∀ ex, s.exception = some ex → ¬HasText ex) ∧ s.failures.headD "" = "" := by
  have hfirst : firstFailureOrEmpty (s.thread.flushCurrentBufferFor (some s.ctx)) s.ctx = s.failures.headD "" :=
    firstFailureOrEmpty_flush
  cases hex : s.exception with
  | none => simp [runAsyncTaskBlocking, h, hex, hfirst]
  | some ex =>
    have htext := exceptionText_eq_empty (t := s.thread.flushCurrentBufferFor (some s.ctx)) (c := s.ctx) ex
    rw [hfirst] at htext
    simp only [runAsyncTaskBlocking, h, hex, hfirst, Option.map_some, Option.getD_some, String.isEmpty_iff]
    simp only [Option.some.injEq, forall_eq']
    rw [← htext]
    split
    · rename_i hthrown
      exact ⟨fun hempty => ⟨hthrown, hempty⟩, And.right⟩
    · rename_i hthrown
      exact ⟨fun hempty => absurd hempty hthrown, fun hboth => absurd hboth.1 hthrown⟩

/-- Success is reported exactly on success unless a completed task failed without a
text to tell it by. -/
theorem reportsSuccess_iff :
    ReportsSuccess s ↔
      (s.status = .completed → s.failures.headD "" = "" →
        s.exception = none ∧ s.failures = [] ∨ ∃ ex, s.exception = some ex ∧ HasText ex) := by
  rw [ReportsSuccess, and_iff_left runAsyncTaskBlocking_agree]
  cases hstatus : s.status with
  | blocked =>
    have hfalse := (runAsyncTaskBlocking_blocked hstatus).1
    simp [hfalse, SchedulerEnd.Succeeded, hstatus]
  | completed =>
    rw [runAsyncTaskBlocking_completed hstatus]
    simp only [SchedulerEnd.Succeeded, hstatus, true_and, true_implies]
    cases hex : s.exception with
    | none =>
      simp only [reduceCtorEq, false_implies, implies_true, true_and, false_and, exists_false, or_false]
      refine ⟨Iff.mp, fun h => ⟨h, fun hfailures => ?_⟩⟩
      rw [hfailures]
      rfl
    | some ex =>
      simp only [Option.some.injEq, forall_eq', reduceCtorEq, false_and, iff_false, not_and, false_or, exists_eq_left']
      exact ⟨fun h hfirst => not_not.mp fun htext => h htext hfirst, fun h htext hfirst => htext (h hfirst)⟩

/-- A task that ends with `gentest::assertion("")` and records nothing. -/
theorem empty_assertion_passes :
    (runAsyncTaskBlocking { exception := some (.assertion ""), ctx := 0 }).1 = true ∧
      ¬ReportsSuccess { exception := some (.assertion ""), ctx := 0 } := by
  have hpasses : (runAsyncTaskBlocking { exception := some (.assertion ""), ctx := 0 }).1 = true := by decide
  refine ⟨hpasses, fun hreport => ?_⟩
  obtain ⟨-, hex, -⟩ := hreport.1.mp hpasses
  cases hex

end Gentest.Async.Blocking
