import Gentest.Async.Wakeup
import Mathlib.Data.List.DropRight

/-!
# Unresumable tests

`drain_ready_and_adopted_work` tests the ready queue, the adopted contexts and
the timers one after the other, each behind its own lock, and
`finish_unresumable` marks the runs that are still suspended when all three
tests found nothing. `BlockingAsyncScheduler::run` makes the same tests for one
task. Workers hold a lease on the context of a run: a coroutine starts them
with it, and they post before they release it.

A frame stands for the run that owns it. The sleep of both schedulers is in
`Gentest.Async.Wakeup`; here it ends at any time.
-/

namespace Gentest.Async.Unresumable

open Interleaving (run run_history)

-- ---------------------------------------------------------------------------
-- What the threads share
-- ---------------------------------------------------------------------------

/-- `suspended`: the task has a coroutine that is not done, and no exception is
set. -/
structure Run where
  finalized : Bool
  readyToFinalize : Bool
  suspended : Bool
  complete_of_ready : readyToFinalize = true → suspended = false

def Run.isOpen (run : Run) : Bool := !run.finalized && !run.readyToFinalize

/-- The test of the marking loop of `finish_unresumable`. -/
def Run.waits (run : Run) : Bool := !run.finalized && run.suspended

def Run.flags (run : Run) : Wakeup.RunFlags :=
  ⟨run.finalized, true, run.readyToFinalize, run.suspended⟩

def Run.fail (run : Run) : Run := { run with suspended := false, complete_of_ready := fun _ => rfl }

def Run.complete (run : Run) : Run :=
  { run with readyToFinalize := true, suspended := false, complete_of_ready := fun _ => rfl }

def Run.finalize (run : Run) : Run := { run with finalized := run.finalized || run.readyToFinalize }

structure Shared where
  /-- The owners of the frames queued. -/
  ready : List Nat := []
  /-- `adopted_contexts` of each run. -/
  leases : Nat → Nat := fun _ => 0
  timers : AsyncTimerQueue := {}
  active : Nat → Bool := fun _ => false
  /-- The run whose frame a token posts. -/
  tokenOwner : Nat → Nat := fun _ => 0
  runs : List Run := []

def Shared.isOpen (s : Shared) (index : Nat) : Bool := s.runs[index]?.any Run.isOpen

def Shared.waits (s : Shared) (index : Nat) : Bool := s.runs[index]?.any Run.waits

def Shared.unfinishedAdoptedWork (s : Shared) (index : Nat) : Bool :=
  s.runs[index]?.any fun run => Wakeup.unfinishedAdoptedWork run.flags (s.leases index)

def Shared.mapRuns (s : Shared) (f : Nat → Run → Run) : Shared := { s with runs := s.runs.mapIdx f }

/-- `AsyncSchedulerCore::post`: the frames of a run that was canceled or
completed are known no more. -/
def Shared.post (s : Shared) (owner : Nat) : Shared :=
  if s.isOpen owner then { s with ready := s.ready ++ [owner] } else s

def Shared.deactivate (s : Shared) (token : Nat) : Shared :=
  { s with active := Function.update s.active token false }

def Shared.lease (s : Shared) (index count : Nat) : Shared :=
  { s with leases := Function.update s.leases index count }

def Shared.purge (s : Shared) : Shared := { s with timers := s.timers.purgeStale s.active }

/-- `cancel_owner` and `ready_to_finalize`. -/
def Shared.complete (s : Shared) (index : Nat) : Shared :=
  { s.mapRuns (fun k run => if k = index then run.complete else run) with
    ready := s.ready.filter (· ≠ index) }

def Shared.fail (s : Shared) (index : Nat) : Shared :=
  s.mapRuns fun k run => if k = index then run.fail else run

/-- `finalize_completed_runs` has finalized some of the completed runs. -/
def Shared.finalize (s : Shared) (indices : List Nat) : Shared :=
  s.mapRuns fun k run => if k ∈ indices then run.finalize else run

/-- What a worker that holds a lease does in one step. The exchange of a token
and the cancellation in its hook come before the push of its frame. -/
inductive WorkerOp
  | deactivate (token : Nat)
  | push (owner : Nat)
  | fork
  | release
  deriving DecidableEq, Repr

def Shared.worker (s : Shared) (lease : Nat) (op : WorkerOp) : Option Shared :=
  if s.leases lease = 0 then none
  else some <|
    match op with
    | .deactivate token => s.deactivate token
    | .push owner => s.post owner
    | .fork => s.lease lease (s.leases lease + 1)
    | .release => s.lease lease (s.leases lease - 1)

inductive Action
  | post (owner : Nat)
  | deactivate (token : Nat)
  | scheduleTimer (deadline : Int) (token : Nat)
  | startWorker (index : Nat)
  deriving DecidableEq, Repr

def Shared.act (s : Shared) : Action → Shared
  | .post owner => s.post owner
  | .deactivate token => s.deactivate token
  | .scheduleTimer deadline token =>
    { s with
      timers := s.timers.push deadline token
      active := Function.update s.active token true }
  | .startWorker index => s.lease index (s.leases index + 1)

/-- A due token is posted, unless it was posted or canceled meanwhile or its
hook refuses. -/
def Shared.postTimer (s : Shared) (token : Nat) (accepted : Bool) : Shared :=
  if !s.active token then s
  else if accepted then (s.deactivate token).post (s.tokenOwner token)
  else s.deactivate token

-- ---------------------------------------------------------------------------
-- The two schedulers
-- ---------------------------------------------------------------------------

inductive Step
  | worker (lease : Nat) (op : WorkerOp)
  | postDueTimers (now : Int)
  | postTimer (accepted : Bool)
  | hasReady
  | shouldStop (stop : Bool)
  /-- `after_progress`, which finalizes, and `should_stop`. -/
  | callbacks (finalized : List Nat) (stop : Bool)
  /-- `skip`: the frame is done, or its run is finalized. -/
  | popReady (skip : Bool)
  | coroutine (action : Action)
  /-- The coroutine suspends again, or its run is complete. -/
  | resumed (complete : Bool)
  | resumeThrew
  | isDone
  /-- The read of one run's `adopted_contexts`. -/
  | scan
  | hasPendingTimers
  | waited
  /-- The verdict on one run. -/
  | mark
  /-- A cancel hook or a stop callback of a marked run sets an event. -/
  | hookPost (owner : Nat)
  | complete
  deriving DecidableEq, Repr

/-- Where `post_due_timers` returns to. -/
inductive After
  | hasReady
  | resumeOneReady
  | drain
  deriving DecidableEq, Repr

namespace Batch

/-- `BatchAsyncScheduler` in `finish_unresumable`. -/
inductive Pc
  | drain
  | posting (due : List Nat) (after : After)
  | hasReady
  | ready
  | runOneReady
  | resumeOneReady
  | resuming (owner : Nat)
  | progressed
  | drained
  | scanning (index : Nat)
  | pendingTimers
  | waiting
  | woken
  | marking (index : Nat)
  | testing (index : Nat)
  | marked (index : Nat)
  | completed (index : Nat)
  | returned (stopped : Bool)
  deriving DecidableEq, Repr

def pcAfter : After → Pc
  | .hasReady => .hasReady
  | .resumeOneReady => .resumeOneReady
  | .drain => .drain

structure World where
  shared : Shared := {}
  pc : Pc := .drain

/-- The callbacks run, and the scheduler goes on at `next` or returns. -/
def World.callbacks (w : World) (finalized : List Nat) (stop : Bool) (next : Pc) : World :=
  { shared := w.shared.finalize finalized
    pc := if stop then .returned true else next }

/-- `post_due_timers` takes the due tokens out of the queue. -/
def World.postDueTimers (w : World) (now : Int) (after : After) : World :=
  let due := w.shared.timers.popDue w.shared.active now
  { shared := { w.shared with timers := due.2 }, pc := .posting due.1 after }

def World.next (w : World) (index : Nat) : Pc :=
  if index < w.shared.runs.length then .marking index else .returned false

def World.step (w : World) : Step → Option World
  | .worker lease op => (w.shared.worker lease op).map fun s => { w with shared := s }
  | .postDueTimers now =>
    match w.pc with
    | .drain => some (w.postDueTimers now .hasReady)
    | .runOneReady => some (w.postDueTimers now .resumeOneReady)
    | .woken => some (w.postDueTimers now .drain)
    | _ => none
  | .postTimer accepted =>
    match w.pc with
    | .posting [] after => some { w with pc := pcAfter after }
    | .posting (token :: due) after =>
      some { shared := w.shared.postTimer token accepted, pc := .posting due after }
    | _ => none
  | .hasReady =>
    match w.pc with
    | .hasReady => some { w with pc := if w.shared.ready.isEmpty then .drained else .ready }
    | _ => none
  | .shouldStop stop =>
    match w.pc with
    | .ready => some { w with pc := if stop then .returned true else .runOneReady }
    | _ => none
  | .callbacks finalized stop =>
    match w.pc with
    | .progressed => some (w.callbacks finalized stop .hasReady)
    | .drained => some (w.callbacks finalized stop (.scanning 0))
    | .marking index => some (w.callbacks finalized stop (.testing index))
    | .completed index => some (w.callbacks finalized stop (w.next (index + 1)))
    | _ => none
  | .popReady skip =>
    match w.pc, w.shared.ready with
    | .resumeOneReady, [] => some { w with pc := .drained }
    | .resumeOneReady, owner :: rest => some
        { shared := { w.shared with ready := rest }
          pc := if skip then .resumeOneReady else .resuming owner }
    | _, _ => none
  | .coroutine action =>
    match w.pc with
    | .resuming _ => some { w with shared := w.shared.act action }
    | _ => none
  | .resumed complete =>
    match w.pc with
    | .resuming owner => some
        { shared := if complete then w.shared.complete owner else w.shared, pc := .progressed }
    | _ => none
  | .scan =>
    match w.pc with
    | .scanning index => some { w with pc :=
        if index < w.shared.runs.length then
          if w.shared.unfinishedAdoptedWork index then .waiting else .scanning (index + 1)
        else .pendingTimers }
    | _ => none
  | .hasPendingTimers =>
    match w.pc with
    | .pendingTimers => some
        { shared := w.shared.purge
          pc := if w.shared.timers.hasPending w.shared.active then .waiting else w.next 0 }
    | _ => none
  | .waited =>
    match w.pc with
    | .waiting => some { w with pc := .woken }
    | _ => none
  | .mark =>
    match w.pc with
    | .testing index =>
      if w.shared.waits index then some { shared := w.shared.fail index, pc := .marked index }
      else some { w with pc := w.next (index + 1) }
    | _ => none
  | .hookPost owner =>
    match w.pc with
    | .marked _ | .completed _ => some { w with shared := w.shared.post owner }
    | _ => none
  | .complete =>
    match w.pc with
    | .marked index => some { shared := w.shared.complete index, pc := .completed index }
    | _ => none
  -- the batch catches what a coroutine throws: its run is complete
  | .resumeThrew | .isDone => none

end Batch

namespace Blocking

/-- `BlockingAsyncScheduler::run`, for the one task it runs. -/
inductive Pc
  | loop
  | posting (due : List Nat) (after : After)
  | popReady
  | resuming
  | drained
  | hasReady
  | tested
  | adopted
  | pendingTimers
  | waiting
  | left
  | completed
  | blocked
  | threw
  deriving DecidableEq, Repr

def pcAfter : After → Pc
  | .hasReady => .hasReady
  | .resumeOneReady => .popReady
  | .drain => .loop

structure World where
  shared : Shared := {}
  pc : Pc := .loop

def World.postDueTimers (w : World) (now : Int) (after : After) : World :=
  let due := w.shared.timers.popDue w.shared.active now
  { shared := { w.shared with timers := due.2 }, pc := .posting due.1 after }

def World.step (w : World) : Step → Option World
  | .worker lease op => (w.shared.worker lease op).map fun s => { w with shared := s }
  | .postDueTimers now =>
    match w.pc with
    | .loop => some (w.postDueTimers now .resumeOneReady)
    | .drained => some (w.postDueTimers now .hasReady)
    | _ => none
  | .postTimer accepted =>
    match w.pc with
    | .posting [] after => some { w with pc := pcAfter after }
    | .posting (token :: due) after =>
      some { shared := w.shared.postTimer token accepted, pc := .posting due after }
    | _ => none
  | .popReady skip =>
    match w.pc, w.shared.ready with
    | .popReady, [] => some { w with pc := .drained }
    | .popReady, _ :: rest => some
        { shared := { w.shared with ready := rest }, pc := if skip then .loop else .resuming }
    | _, _ => none
  | .coroutine action =>
    match w.pc with
    | .resuming => some { w with shared := w.shared.act action }
    | _ => none
  | .resumed complete =>
    match w.pc with
    | .resuming => some
        { shared := if complete then w.shared.fail 0 else w.shared, pc := .loop }
    | _ => none
  | .resumeThrew =>
    match w.pc with
    | .resuming => some { shared := w.shared.fail 0, pc := .threw }
    | _ => none
  | .hasReady =>
    match w.pc with
    | .hasReady => some { w with pc := if w.shared.ready.isEmpty then .tested else .loop }
    | _ => none
  | .isDone =>
    match w.pc with
    | .tested => some { w with pc := if w.shared.waits 0 then .adopted else .completed }
    | _ => none
  | .scan =>
    match w.pc with
    | .adopted => some { w with pc := if w.shared.leases 0 = 0 then .pendingTimers else .waiting }
    | _ => none
  | .hasPendingTimers =>
    match w.pc with
    | .pendingTimers => some
        { shared := w.shared.purge
          pc := if w.shared.timers.hasPending w.shared.active then .waiting else .left }
    | _ => none
  | .waited =>
    match w.pc with
    | .waiting => some { w with pc := .loop }
    | _ => none
  | .mark =>
    match w.pc with
    | .left => some { w with pc := if w.shared.waits 0 then .blocked else .completed }
    | _ => none
  | .shouldStop _ | .callbacks _ _ | .hookPost _ | .complete => none

end Blocking

-- ---------------------------------------------------------------------------
-- What the tests establish
-- ---------------------------------------------------------------------------

def Step.testsReady : Step → Bool
  | .hasReady | .popReady _ => true
  | _ => false

/-- The step posts a frame of run `index` from outside the coroutines. -/
def Step.posts (index : Nat) : Step → Bool
  | .worker _ (.push owner) | .hookPost owner => owner == index
  | _ => false

/-- The steps since the last test of the ready queue. -/
def sinceTest (steps : List Step) : List Step := steps.rtakeWhile fun step => !step.testsReady

/-- A frame of run `index` was posted since the last test of the ready queue. -/
def postedSince (steps : List Step) (index : Nat) : Bool := (sinceTest steps).any (Step.posts index)

/-- How far the tests have come, and for which runs no lease was found. -/
inductive Phase
  | unknown
  | empty
  | swept (checked : Nat → Prop)
  | settled (checked : Nat → Prop)

def Shared.Swept (s : Shared) (checked : Nat → Prop) : Prop :=
  ∀ index, checked index → s.waits index = true → s.leases index = 0

def Shared.Settled (s : Shared) : Prop :=
  ∀ timer ∈ s.timers.timers, s.active timer.token = false

def Phase.Holds (s : Shared) : Phase → Prop
  | .unknown | .empty => True
  | .swept checked => s.Swept checked
  | .settled checked => s.Swept checked ∧ s.Settled

/-- Since the queue was found empty it holds what was posted since. -/
structure Known (phase : Phase) (steps : List Step) (s : Shared) : Prop where
  holds : phase.Holds s
  ready : phase ≠ .unknown → ∀ index, s.isOpen index = true →
    (index ∈ s.ready ↔ postedSince steps index = true)

/-- The step adds nothing to wait for, and no frame but the one it posts. -/
structure Keeps (step : Step) (s s' : Shared) : Prop where
  notTest : step.testsReady = false
  isOpen : ∀ index, s'.isOpen index = true → s.isOpen index = true
  waits : ∀ index, s'.waits index = true → s.waits index = true
  leases : ∀ index, s.leases index = 0 → s'.leases index = 0
  timers : s.Settled → s'.Settled
  ready : ∀ index, s'.isOpen index = true →
    (index ∈ s'.ready ↔ index ∈ s.ready ∨ step.posts index = true)

theorem postedSince_keep (h : Step.testsReady a = false) (steps : List Step) (index : Nat) :
    postedSince (steps ++ [a]) index = (postedSince steps index || a.posts index) := by
  simp [postedSince, sinceTest, h]

theorem postedSince_test (h : Step.testsReady a = true) (steps : List Step) (index : Nat) :
    postedSince (steps ++ [a]) index = false := by
  simp [postedSince, sinceTest, h]

theorem Known.unknown : Known .unknown steps s := ⟨trivial, fun h => absurd rfl h⟩

theorem Known.test (h : Step.testsReady a = true) (hempty : Shared.ready s = []) :
    Known .empty (steps ++ [a]) s :=
  ⟨trivial, fun _ index _ => by simp [hempty, postedSince_test h]⟩

theorem Known.add (h : Known p steps s) (hp : p ≠ .unknown) (hq : Phase.Holds s q) : Known q steps s :=
  ⟨hq, fun _ => h.ready hp⟩

theorem Shared.Swept.keep (h : Shared.Swept s checked) (hk : Keeps a s s') : s'.Swept checked :=
  fun index hchecked hwaits => hk.leases index (h index hchecked (hk.waits index hwaits))

theorem Phase.Holds.keep {p : Phase} (h : p.Holds s) (hk : Keeps a s s') : p.Holds s' := by
  cases p with
  | unknown | empty => trivial
  | swept checked => exact Shared.Swept.keep h hk
  | settled checked => exact ⟨Shared.Swept.keep h.1 hk, hk.timers h.2⟩

theorem Known.keep (h : Known p steps s) (hk : Keeps a s s') : Known p (steps ++ [a]) s' := by
  refine ⟨h.holds.keep hk, fun hp index hopen => ?_⟩
  rw [hk.ready index hopen, h.ready hp index (hk.isOpen index hopen), postedSince_keep hk.notTest,
    Bool.or_eq_true]

-- ---------------------------------------------------------------------------
-- What each step keeps
-- ---------------------------------------------------------------------------

theorem Shared.isOpen_of_waits (h : Shared.waits s index = true) : s.isOpen index = true := by
  simp only [Shared.waits, Shared.isOpen, Option.any_eq_true] at h ⊢
  obtain ⟨run, hrun, hwaits⟩ := h
  refine ⟨run, hrun, ?_⟩
  simp only [Run.waits, Run.isOpen, Bool.and_eq_true, Bool.not_eq_true'] at hwaits ⊢
  refine ⟨hwaits.1, ?_⟩
  cases hready : run.readyToFinalize with
  | false => rfl
  | true => simp [run.complete_of_ready hready] at hwaits

theorem Shared.any_mapRuns (s : Shared) (p : Run → Bool) (f : Nat → Run → Run) (index : Nat)
    (hf : ∀ k run, p (f k run) = true → p run = true) (h : (s.mapRuns f).runs[index]?.any p = true) :
    s.runs[index]?.any p = true := by
  simp only [Shared.mapRuns, List.getElem?_mapIdx, Option.any_map, Option.any_eq_true] at h ⊢
  obtain ⟨run, hrun, hp⟩ := h
  exact ⟨run, hrun, hf index run hp⟩

theorem Keeps.mapRuns (ha : Step.testsReady a = false) (hposts : ∀ index, a.posts index = false)
    (s : Shared) (f : Nat → Run → Run) (hopen : ∀ k run, (f k run).isOpen = true → run.isOpen = true)
    (hwaits : ∀ k run, (f k run).waits = true → run.waits = true) : Keeps a s (s.mapRuns f) where
  notTest := ha
  isOpen index := s.any_mapRuns _ f index hopen
  waits index := s.any_mapRuns _ f index hwaits
  leases _ h := h
  timers h := h
  ready index _ := by simp [hposts index, Shared.mapRuns]

theorem Keeps.refl (ha : Step.testsReady a = false) (hposts : ∀ index, a.posts index = false)
    (s : Shared) : Keeps a s s where
  notTest := ha
  isOpen _ h := h
  waits _ h := h
  leases _ h := h
  timers h := h
  ready index _ := by simp [hposts index]

theorem Keeps.finalize (s : Shared) (indices : List Nat) (stop : Bool) :
    Keeps (.callbacks indices stop) s (s.finalize indices) := by
  refine Keeps.mapRuns rfl (fun _ => rfl) s _ (fun k run h => ?_) (fun k run h => ?_)
  · split at h
    · simp only [Run.isOpen, Run.finalize, Bool.not_or, Bool.and_eq_true] at h ⊢
      exact ⟨h.1.1, h.2⟩
    · exact h
  · split at h
    · simp only [Run.waits, Run.finalize, Bool.not_or, Bool.and_eq_true] at h ⊢
      exact ⟨h.1.1, h.2⟩
    · exact h

theorem Keeps.fail (s : Shared) (index : Nat) : Keeps .mark s (s.fail index) := by
  refine Keeps.mapRuns rfl (fun _ => rfl) s _ (fun k run h => ?_) (fun k run h => ?_)
  · split at h <;> exact h
  · split at h
    · simp [Run.waits, Run.fail] at h
    · exact h

theorem Keeps.complete (s : Shared) (index : Nat) : Keeps .complete s (s.complete index) := by
  have hruns : Keeps .complete s
      (s.mapRuns fun k run => if k = index then run.complete else run) := by
    refine Keeps.mapRuns rfl (fun _ => rfl) s _ (fun k run h => ?_) (fun k run h => ?_)
    · split at h
      · simp [Run.isOpen, Run.complete] at h
      · exact h
    · split at h
      · simp [Run.waits, Run.complete] at h
      · exact h
  refine ⟨rfl, hruns.isOpen, hruns.waits, hruns.leases, hruns.timers, fun other hopen => ?_⟩
  have hne : other ≠ index := by
    rintro rfl
    simp only [Shared.complete, Shared.isOpen, Shared.mapRuns, List.getElem?_mapIdx, Option.any_map,
      Option.any_eq_true, if_true] at hopen
    obtain ⟨run, -, hopen⟩ := hopen
    simp [Run.isOpen, Run.complete] at hopen
  simp [Shared.complete, Step.posts, hne]

theorem Keeps.purge (s : Shared) : Keeps .hasPendingTimers s s.purge where
  notTest := rfl
  isOpen _ h := h
  waits _ h := h
  leases _ h := h
  timers h timer hmem := h timer (List.dropWhile_subset _ hmem)
  ready index _ := by simp [Shared.purge, Step.posts]

theorem Keeps.post (ha : Step.testsReady a = false) (hposts : ∀ index, a.posts index = (owner == index))
    (s : Shared) : Keeps a s (s.post owner) := by
  unfold Shared.post
  split
  · refine ⟨ha, fun _ h => h, fun _ h => h, fun _ h => h, fun h => h, fun index _ => ?_⟩
    rw [hposts index, beq_iff_eq, List.mem_append, List.mem_singleton, eq_comm (a := owner)]
  · rename_i hclosed
    refine ⟨ha, fun _ h => h, fun _ h => h, fun _ h => h, fun h => h, fun index hopen => ?_⟩
    have hne : owner ≠ index := by
      rintro rfl
      exact hclosed hopen
    simp [hposts index, hne]

theorem Keeps.deactivate (ha : Step.testsReady a = false) (hposts : ∀ index, a.posts index = false)
    (s : Shared) (token : Nat) : Keeps a s (s.deactivate token) where
  notTest := ha
  isOpen _ h := h
  waits _ h := h
  leases _ h := h
  timers h timer hmem := by
    simp only [Shared.deactivate, Function.update_apply]
    split
    · rfl
    · exact h timer hmem
  ready index _ := by simp [hposts index, Shared.deactivate]

theorem Keeps.lease (ha : Step.testsReady a = false) (hposts : ∀ index, a.posts index = false)
    (s : Shared) (hheld : s.leases index ≠ 0) (count : Nat) : Keeps a s (s.lease index count) where
  notTest := ha
  isOpen _ h := h
  waits _ h := h
  leases other h := by
    have hne : other ≠ index := by
      rintro rfl
      exact hheld h
    simp [Shared.lease, Function.update_of_ne hne, h]
  timers h := h
  ready other _ := by simp [hposts other, Shared.lease]

/-- A worker posts, cancels and forks only under a lease, so none comes back to
a run that has none left. -/
theorem Keeps.worker {lease : Nat} (h : Shared.worker s lease op = some s') :
    Keeps (.worker lease op) s s' := by
  unfold Shared.worker at h
  split at h
  · cases h
  · rename_i hheld
    cases op with
    | deactivate token => cases h; exact Keeps.deactivate rfl (fun _ => rfl) s token
    | push owner => cases h; exact Keeps.post rfl (fun _ => rfl) s
    | fork => cases h; exact Keeps.lease rfl (fun _ => rfl) s hheld _
    | release => cases h; exact Keeps.lease rfl (fun _ => rfl) s hheld _

theorem Shared.leases_of_scan (h : Shared.unfinishedAdoptedWork s index = false)
    (hwaits : s.waits index = true) : s.leases index = 0 := by
  simp only [Shared.waits, Option.any_eq_true] at hwaits
  obtain ⟨run, hrun, hwaits⟩ := hwaits
  simp only [Run.waits, Bool.and_eq_true, Bool.not_eq_true'] at hwaits
  simp only [Shared.unfinishedAdoptedWork, hrun, Option.any_some, Wakeup.unfinishedAdoptedWork,
    Run.flags, hwaits, Bool.not_true, Bool.or_false, Bool.false_or, Bool.or_true] at h
  simpa using h

theorem Shared.settled_of_test (h : (Shared.timers s).hasPending s.active = false) :
    s.purge.Settled := by
  intro timer hmem
  have hnone : s.timers.nextDeadline s.active = none := by
    simpa [AsyncTimerQueue.hasPending] using h
  exact AsyncTimerQueue.nextDeadline_eq_none s.active s.timers hnone timer (List.dropWhile_subset _ hmem)

-- ---------------------------------------------------------------------------
-- The batch scheduler
-- ---------------------------------------------------------------------------

namespace Batch

def Pc.phase : Pc → Phase
  | .drained => .empty
  | .scanning index => .swept (· < index)
  | .pendingTimers => .swept fun _ => True
  | .marking _ | .testing _ | .marked _ | .completed _ => .settled fun _ => True
  | _ => .unknown

def Inv (steps : List Step) (w : World) : Prop := Known w.pc.phase steps w.shared

theorem Inv.callbacks {w : World} {next : Pc}
    (h : Known next.phase (steps ++ [.callbacks finalized stop]) (w.shared.finalize finalized)) :
    Inv (steps ++ [.callbacks finalized stop]) (w.callbacks finalized stop next) := by
  cases stop with
  | true => exact Known.unknown
  | false => exact h

theorem Inv.next {w : World} (h : Known (.settled fun _ => True) steps s) (index : Nat) :
    Known (w.next index).phase steps s := by
  unfold World.next
  split
  · exact h
  · exact Known.unknown

theorem Inv.scan {s : Shared} (h : Known (.swept (· < index)) steps s)
    (hscan : s.unfinishedAdoptedWork index = false) : Known (.swept (· < index + 1)) steps s := by
  refine h.add nofun fun other hlt hwaits => ?_
  rcases Nat.lt_succ_iff_lt_or_eq.mp hlt with hlt | rfl
  · exact h.holds other hlt hwaits
  · exact Shared.leases_of_scan hscan hwaits

theorem Inv.scanned {s : Shared} (h : Known (.swept (· < index)) steps s)
    (hend : s.runs.length ≤ index) : Known (.swept fun _ => True) steps s := by
  refine h.add nofun fun other _ hwaits => ?_
  rcases Nat.lt_or_ge other index with hlt | hge
  · exact h.holds other hlt hwaits
  · have hnone : s.runs[other]? = none := List.getElem?_eq_none (Nat.le_trans hend hge)
    simp [Shared.waits, hnone] at hwaits

theorem Inv.step {w w' : World} (hw : Inv steps w) (h : w.step a = some w') :
    Inv (steps ++ [a]) w' := by
  obtain ⟨s, pc⟩ := w
  cases a with
  | worker lease op =>
    simp only [World.step, Option.map_eq_some_iff] at h
    obtain ⟨s', hworker, rfl⟩ := h
    exact hw.keep (Keeps.worker hworker)
  | postDueTimers now =>
    simp only [World.step] at h
    split at h
    · cases h; exact Known.unknown
    · cases h; exact Known.unknown
    · cases h; exact Known.unknown
    · cases h
  | postTimer accepted =>
    simp only [World.step] at h
    split at h
    · rename_i after
      cases h
      cases after <;> exact Known.unknown
    · cases h; exact Known.unknown
    · cases h
  | hasReady =>
    simp only [World.step] at h
    split at h
    · cases h
      unfold Inv
      dsimp only
      split
      · rename_i hempty
        exact Known.test rfl (List.isEmpty_iff.mp hempty)
      · exact Known.unknown
    · cases h
  | shouldStop stop =>
    simp only [World.step] at h
    split at h
    · cases h
      cases stop <;> exact Known.unknown
    · cases h
  | callbacks finalized stop =>
    simp only [World.step] at h
    split at h
    · cases h; exact Inv.callbacks Known.unknown
    · cases h
      refine Inv.callbacks ((hw.keep (Keeps.finalize s finalized stop)).add nofun ?_)
      exact fun index hlt => absurd hlt (Nat.not_lt_zero index)
    · cases h; exact Inv.callbacks (hw.keep (Keeps.finalize s finalized stop))
    · cases h; exact Inv.callbacks (Inv.next (hw.keep (Keeps.finalize s finalized stop)) _)
    · cases h
  | popReady skip =>
    simp only [World.step] at h
    split at h
    · rename_i hempty
      cases h
      exact Known.test rfl hempty
    · cases h
      cases skip <;> exact Known.unknown
    · cases h
  | coroutine action =>
    simp only [World.step] at h
    split at h
    · cases h; exact Known.unknown
    · cases h
  | resumed complete =>
    simp only [World.step] at h
    split at h
    · cases h; exact Known.unknown
    · cases h
  | resumeThrew | isDone => cases h
  | scan =>
    simp only [World.step] at h
    split at h
    · rename_i index
      cases h
      have hw := hw.keep (Keeps.refl (a := .scan) rfl (fun _ => rfl) s)
      unfold Inv
      dsimp only
      split
      · split
        · exact Known.unknown
        · rename_i hscan
          exact Inv.scan hw (by simpa using hscan)
      · rename_i hend
        exact Inv.scanned hw (Nat.le_of_not_lt hend)
    · cases h
  | hasPendingTimers =>
    simp only [World.step] at h
    split at h
    · cases h
      have hw := hw.keep (Keeps.purge s)
      unfold Inv
      dsimp only
      split
      · exact Known.unknown
      · rename_i htimers
        exact Inv.next (hw.add nofun ⟨hw.holds, Shared.settled_of_test (by simpa using htimers)⟩) _
    · cases h
  | waited =>
    simp only [World.step] at h
    split at h
    · cases h; exact Known.unknown
    · cases h
  | mark =>
    simp only [World.step] at h
    split at h
    · split at h
      · cases h; exact hw.keep (Keeps.fail s _)
      · cases h; exact Inv.next (hw.keep (Keeps.refl rfl (fun _ => rfl) s)) _
    · cases h
  | hookPost owner =>
    simp only [World.step] at h
    split at h
    · cases h; exact hw.keep (Keeps.post rfl (fun _ => rfl) s)
    · cases h; exact hw.keep (Keeps.post rfl (fun _ => rfl) s)
    · cases h
  | complete =>
    simp only [World.step] at h
    split at h
    · cases h; exact hw.keep (Keeps.complete s _)
    · cases h

theorem Inv.reachable {w₀ w : World} (h0 : w₀.pc = .drain) (h : run World.step w₀ steps = some w) :
    Inv steps w := by
  refine run_history (P := Inv) (fun _ _ _ _ => Inv.step) ?_ h
  unfold Inv
  rw [h0]
  exact Known.unknown

end Batch

-- ---------------------------------------------------------------------------
-- The blocking scheduler
-- ---------------------------------------------------------------------------

namespace Blocking

def Pc.phase : Pc → Phase
  | .tested | .adopted => .empty
  | .pendingTimers => .swept (· = 0)
  | .left => .settled (· = 0)
  | _ => .unknown

def Inv (steps : List Step) (w : World) : Prop := Known w.pc.phase steps w.shared

theorem Inv.step {w w' : World} (hw : Inv steps w) (h : w.step a = some w') :
    Inv (steps ++ [a]) w' := by
  obtain ⟨s, pc⟩ := w
  cases a with
  | worker lease op =>
    simp only [World.step, Option.map_eq_some_iff] at h
    obtain ⟨s', hworker, rfl⟩ := h
    exact hw.keep (Keeps.worker hworker)
  | postDueTimers now =>
    simp only [World.step] at h
    split at h
    · cases h; exact Known.unknown
    · cases h; exact Known.unknown
    · cases h
  | postTimer accepted =>
    simp only [World.step] at h
    split at h
    · rename_i after
      cases h
      cases after <;> exact Known.unknown
    · cases h; exact Known.unknown
    · cases h
  | popReady skip =>
    simp only [World.step] at h
    split at h
    · cases h; exact Known.unknown
    · cases h
      cases skip <;> exact Known.unknown
    · cases h
  | coroutine action =>
    simp only [World.step] at h
    split at h
    · cases h; exact Known.unknown
    · cases h
  | resumed complete =>
    simp only [World.step] at h
    split at h
    · cases h; exact Known.unknown
    · cases h
  | resumeThrew =>
    simp only [World.step] at h
    split at h
    · cases h; exact Known.unknown
    · cases h
  | hasReady =>
    simp only [World.step] at h
    split at h
    · cases h
      unfold Inv
      dsimp only
      split
      · rename_i hempty
        exact Known.test rfl (List.isEmpty_iff.mp hempty)
      · exact Known.unknown
    · cases h
  | isDone =>
    simp only [World.step] at h
    split at h
    · cases h
      unfold Inv
      dsimp only
      split
      · exact hw.keep (Keeps.refl rfl (fun _ => rfl) s)
      · exact Known.unknown
    · cases h
  | scan =>
    simp only [World.step] at h
    split at h
    · cases h
      have hw := hw.keep (Keeps.refl (a := .scan) rfl (fun _ => rfl) s)
      unfold Inv
      dsimp only
      split
      · rename_i hleases
        exact hw.add nofun fun index hindex _ => hindex ▸ hleases
      · exact Known.unknown
    · cases h
  | hasPendingTimers =>
    simp only [World.step] at h
    split at h
    · cases h
      have hw := hw.keep (Keeps.purge s)
      unfold Inv
      dsimp only
      split
      · exact Known.unknown
      · rename_i htimers
        exact hw.add nofun ⟨hw.holds, Shared.settled_of_test (by simpa using htimers)⟩
    · cases h
  | waited =>
    simp only [World.step] at h
    split at h
    · cases h; exact Known.unknown
    · cases h
  | mark =>
    simp only [World.step] at h
    split at h
    · cases h
      unfold Inv
      dsimp only
      split <;> exact Known.unknown
    · cases h
  | shouldStop stop | callbacks finalized stop | hookPost owner | complete => cases h

theorem Inv.reachable {w₀ w : World} (h0 : w₀.pc = .loop) (h : run World.step w₀ steps = some w) :
    Inv steps w := by
  refine run_history (P := Inv) (fun _ _ _ _ => Inv.step) ?_ h
  unfold Inv
  rw [h0]
  exact Known.unknown

end Blocking

-- ---------------------------------------------------------------------------
-- The verdict
-- ---------------------------------------------------------------------------

structure Sound (s : Shared) (index : Nat) : Prop where
  ready : index ∉ s.ready
  timers : ∀ timer ∈ s.timers.timers, s.tokenOwner timer.token = index → s.active timer.token = false
  leases : s.leases index = 0

theorem Known.sound_iff {checked : Nat → Prop} (h : Known (.settled checked) steps s)
    (hchecked : checked index) (hwaits : Shared.waits s index = true) :
    Sound s index ↔ postedSince steps index = false := by
  have hready := h.ready nofun index (Shared.isOpen_of_waits hwaits)
  constructor
  · intro hsound
    have hnot := hready.not.mp hsound.ready
    simpa using hnot
  · intro hnone
    exact ⟨fun hmem => by simp [hready.mp hmem] at hnone, fun timer hmem _ => h.holds.2 timer hmem,
      h.holds.1 index hchecked hwaits⟩

theorem Batch.testing_of_marked {w w' : Batch.World} (h : w.step .mark = some w')
    (hpc : w'.pc = .marked index) : w.pc = .testing index ∧ w.shared.waits index = true := by
  obtain ⟨s, pc⟩ := w
  simp only [Batch.World.step] at h
  split at h
  · split at h
    · rename_i other hwaits
      cases h
      cases hpc
      exact ⟨rfl, hwaits⟩
    · cases h
      simp only [Batch.World.next] at hpc
      split at hpc <;> cases hpc
  · cases h

theorem Blocking.left_of_blocked {w w' : Blocking.World} (h : w.step .mark = some w')
    (hpc : w'.pc = .blocked) : w.pc = .left ∧ w.shared.waits 0 = true := by
  obtain ⟨s, pc⟩ := w
  simp only [Blocking.World.step] at h
  split at h
  · cases h
    dsimp only at hpc
    split at hpc
    · rename_i hwaits
      exact ⟨rfl, hwaits⟩
    · cases hpc
  · cases h

/-- For every interleaving and both schedulers: a run marked unresumable has no
lease and no active timer, and the verdict on it is sound exactly when no frame
of it was posted after the last test of the ready queue. -/
theorem unresumable_verdict (steps : List Step) :
    (∀ (w₀ w w' : Batch.World) (index : Nat), w₀.pc = .drain →
      run Batch.World.step w₀ steps = some w → w.step .mark = some w' → w'.pc = .marked index →
      (Sound w.shared index ↔ postedSince steps index = false) ∧
        w.shared.leases index = 0 ∧ w.shared.Settled) ∧
    ∀ w₀ w w' : Blocking.World, w₀.pc = .loop →
      run Blocking.World.step w₀ steps = some w → w.step .mark = some w' → w'.pc = .blocked →
      (Sound w.shared 0 ↔ postedSince steps 0 = false) ∧
        w.shared.leases 0 = 0 ∧ w.shared.Settled := by
  refine ⟨fun w₀ w w' index h0 h hmark hpc => ?_, fun w₀ w w' h0 h hmark hpc => ?_⟩
  · have hw := Batch.Inv.reachable h0 h
    obtain ⟨htesting, hwaits⟩ := Batch.testing_of_marked hmark hpc
    unfold Batch.Inv at hw
    rw [htesting] at hw
    exact ⟨hw.sound_iff trivial hwaits, hw.holds.1 index trivial hwaits, hw.holds.2⟩
  · have hw := Blocking.Inv.reachable h0 h
    obtain ⟨hleft, hwaits⟩ := Blocking.left_of_blocked hmark hpc
    unfold Blocking.Inv at hw
    rw [hleft] at hw
    exact ⟨hw.sound_iff rfl hwaits, hw.holds.1 0 rfl hwaits, hw.holds.2⟩

def leased : Shared :=
  { leases := fun index => if index = 0 then 1 else 0, runs := [⟨false, false, true, nofun⟩] }

/-- The worker lets go of the run while the scheduler sleeps, and the scheduler
finds nothing afterwards. -/
def releasedAsleep : List Step :=
  [.postDueTimers 0, .postTimer true, .hasReady, .callbacks [] false, .scan, .waited,
    .worker 0 .release, .postDueTimers 1, .postTimer true, .postDueTimers 1, .postTimer true,
    .hasReady, .callbacks [] false, .scan, .scan, .hasPendingTimers, .callbacks [] false]

theorem unresumable_verdict_released :
    ∃ w w' : Batch.World, run Batch.World.step { shared := leased } releasedAsleep = some w ∧
      w.step .mark = some w' ∧ w'.pc = .marked 0 ∧ Sound w.shared 0 := by
  have hreach : ∃ w w' : Batch.World,
      run Batch.World.step { shared := leased } releasedAsleep = some w ∧
      w.step .mark = some w' ∧ w'.pc = .marked 0 := ⟨_, _, rfl, rfl, rfl⟩
  obtain ⟨w, w', hrun, hmark, hpc⟩ := hreach
  obtain ⟨hiff, -⟩ := (unresumable_verdict releasedAsleep).1 _ w w' 0 rfl hrun hmark hpc
  exact ⟨w, w', hrun, hmark, hpc, hiff.mpr rfl⟩

/-- The worker posts and releases between the test of the queue and the read of
its counter. -/
def postedLateBatch : List Step :=
  [.postDueTimers 0, .postTimer true, .hasReady, .callbacks [] false, .worker 0 (.push 0),
    .worker 0 .release, .scan, .scan, .hasPendingTimers, .callbacks [] false]

def postedLateBlocking : List Step :=
  [.postDueTimers 0, .postTimer true, .popReady false, .postDueTimers 0, .postTimer true, .hasReady,
    .isDone, .worker 0 (.push 0), .worker 0 .release, .scan, .hasPendingTimers]

/-- Both schedulers give up a run whose frame is queued. -/
theorem posted_frame_discarded :
    (∃ w w' : Batch.World, run Batch.World.step { shared := leased } postedLateBatch = some w ∧
      w.step .mark = some w' ∧ w'.pc = .marked 0 ∧ ¬Sound w.shared 0) ∧
    ∃ w w' : Blocking.World, run Blocking.World.step { shared := leased } postedLateBlocking = some w ∧
      w.step .mark = some w' ∧ w'.pc = .blocked ∧ ¬Sound w.shared 0 :=
  ⟨⟨_, _, rfl, rfl, rfl, fun h => h.ready (by decide)⟩,
    ⟨_, _, rfl, rfl, rfl, fun h => h.ready (by decide)⟩⟩

end Gentest.Async.Unresumable
