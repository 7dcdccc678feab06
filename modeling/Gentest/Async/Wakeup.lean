import Gentest.Lib.Interleaving
import Gentest.Async.TimerQueue
import Mathlib.Logic.Function.Basic

/-!
# The scheduler's sleep

`wait_for_ready_or_adopted_release` holds the mutex of the wake while it
samples the generation and tests the ready queue, the adopted contexts and the
timers, each behind its own lock. A worker changes one of those first and
increments the generation afterwards, which needs that mutex.

What the scheduler thread does between two waits is left open: any change to
what it shares. `hooks` counts the posts under way whose hook has canceled a
timer, `pending` the workers between their change and their increment. Only the
scheduler thread cancels a frame, so that a post under way for it does nothing
more is one of those changes.
-/

namespace Gentest.Async.Wakeup

open Interleaving (run run_invariant)

/-- What `has_unfinished_adopted_work` reads of a run. `suspended` says that its
task has a coroutine that is not done and no exception is set. -/
structure RunFlags where
  finalized : Bool
  hasContext : Bool
  readyToFinalize : Bool
  suspended : Bool
  deriving DecidableEq, Repr

structure Shared where
  /-- The owners of the frames queued. -/
  ready : List Nat := []
  adoptedContexts : Nat → Nat := fun _ => 0
  timers : AsyncTimerQueue := {}
  active : Nat → Bool := fun _ => false
  runs : List RunFlags := []
  generation : Nat := 0
  hooks : Nat := 0
  pending : Nat := 0

/-- The test of `has_unfinished_adopted_work` on one run. -/
def unfinishedAdoptedWork (flags : RunFlags) (adopted : Nat) : Bool :=
  if flags.finalized || !flags.hasContext || adopted == 0 then false
  else flags.readyToFinalize || flags.suspended

/-- Where the scheduler thread is in `wait_for_ready_or_adopted_release`; all
points but the first and the last hold the mutex of the wake. -/
inductive Pc
  | outside
  | sampled (generation : Nat)
  | scanning (generation : Nat) (index : Nat)
  | noAdoptedWork (generation : Nat)
  | mayStop (generation : Nat)
  | reading (generation : Nat)
  | blocked (generation : Nat) (deadline : Option Int)
  deriving DecidableEq, Repr

def Pc.locked : Pc → Bool
  | .outside | .blocked _ _ => false
  | _ => true

structure World where
  shared : Shared := {}
  pc : Pc := .outside

inductive Step
  /-- Anything the scheduler thread does outside the wait. -/
  | act (shared : Shared)
  | sample
  | hasReady
  | scan
  | nextTimerDeadline
  | shouldStop (stop : Bool)
  /-- The deadline of the wait, and the one the renderer asks for. -/
  | readDeadline (renderer : Option Int)
  /-- The condition variable returns: notified, spuriously or at the deadline. -/
  | wake (timedOut : Bool)
  | workerCancelTimer (token : Nat)
  | workerPush (owner : Nat) (fromHook : Bool)
  | workerAcquire (index : Nat)
  | workerRelease (index : Nat)
  | workerScheduleTimer (deadline : Int) (token : Nat)
  | workerNotify

def wakeDeadline (timer renderer : Option Int) : Option Int :=
  match renderer, timer with
  | some r, some t => if r < t then some r else some t
  | some r, none => some r
  | none, timer => timer

def World.scan (w : World) (generation index : Nat) : World :=
  match w.shared.runs[index]? with
  | none => { w with pc := .noAdoptedWork generation }
  | some flags =>
    if unfinishedAdoptedWork flags (w.shared.adoptedContexts index) then
      { w with pc := .mayStop generation }
    else { w with pc := .scanning generation (index + 1) }

/-- `next_timer_deadline` purges the queue as it looks. -/
def Shared.purge (s : Shared) : Shared := { s with timers := s.timers.purgeStale s.active }

def Shared.push (s : Shared) (owner : Nat) : Shared :=
  { s with ready := s.ready ++ [owner], pending := s.pending + 1 }

def Shared.release (s : Shared) (index : Nat) : Shared :=
  let left := s.adoptedContexts index - 1
  { s with
    adoptedContexts := Function.update s.adoptedContexts index left
    pending := if left = 0 then s.pending + 1 else s.pending }

def World.step (w : World) : Step → Option World
  | .act shared => if w.pc = .outside then some { w with shared := shared } else none
  | .sample => if w.pc = .outside then some { w with pc := .sampled w.shared.generation } else none
  | .hasReady =>
    match w.pc with
    | .sampled g =>
      some { w with pc := if w.shared.ready.isEmpty then .scanning g 0 else .outside }
    | _ => none
  | .scan =>
    match w.pc with
    | .scanning g index => some (w.scan g index)
    | _ => none
  | .nextTimerDeadline =>
    match w.pc with
    | .noAdoptedWork g => some
        { shared := w.shared.purge
          pc := if w.shared.timers.hasPending w.shared.active then .mayStop g else .outside }
    | _ => none
  | .shouldStop stop =>
    match w.pc with
    | .mayStop g => some { w with pc := if stop then .outside else .reading g }
    | _ => none
  | .readDeadline renderer =>
    match w.pc with
    | .reading g => some
        { shared := w.shared.purge
          pc := .blocked g (wakeDeadline (w.shared.timers.nextDeadline w.shared.active) renderer) }
    | _ => none
  | .wake timedOut =>
    match w.pc with
    | .blocked g deadline =>
      if w.shared.generation ≠ g ∨ (timedOut = true ∧ deadline.isSome = true) then
        some { w with pc := .outside }
      else some w
    | _ => none
  | .workerCancelTimer token =>
    some { w with shared := { w.shared with
      active := Function.update w.shared.active token false
      hooks := w.shared.hooks + 1 } }
  | .workerPush owner fromHook =>
    if !fromHook then some { w with shared := w.shared.push owner }
    else if w.shared.hooks = 0 then none
    else some { w with shared := { w.shared.push owner with hooks := w.shared.hooks - 1 } }
  | .workerAcquire index => some { w with shared := { w.shared with
      adoptedContexts :=
        Function.update w.shared.adoptedContexts index (w.shared.adoptedContexts index + 1) } }
  | .workerRelease index =>
    if w.shared.adoptedContexts index = 0 then none
    else some { w with shared := w.shared.release index }
  | .workerScheduleTimer deadline token => some { w with shared := { w.shared with
      timers := w.shared.timers.push deadline token
      pending := w.shared.pending + 1 } }
  | .workerNotify =>
    if w.pc.locked ∨ w.shared.pending = 0 then none
    else some { w with shared := { w.shared with
      generation := w.shared.generation + 1
      pending := w.shared.pending - 1 } }

-- ---------------------------------------------------------------------------
-- What the sleeper knows
-- ---------------------------------------------------------------------------

def Shared.Work (s : Shared) : Prop :=
  (∃ index flags, s.runs[index]? = some flags ∧
    unfinishedAdoptedWork flags (s.adoptedContexts index) = true) ∨
  ∃ timer ∈ s.timers.timers, s.active timer.token = true

def Shared.Bounds (s : Shared) (deadline : Option Int) : Prop :=
  ∀ timer ∈ s.timers.timers, s.active timer.token = true → ∃ d, deadline = some d ∧ d ≤ timer.deadline

/-- No increment came since the sample and none is under way. -/
def Shared.Quiet (s : Shared) (generation : Nat) : Prop :=
  s.generation = generation ∧ s.hooks = 0 ∧ s.pending = 0

/-- What each test established holds as long as everything stays quiet. -/
def Inv (w : World) : Prop :=
  match w.pc with
  | .outside => True
  | .sampled g => w.shared.generation = g
  | .scanning g _ | .noAdoptedWork g =>
    w.shared.generation = g ∧ (w.shared.Quiet g → w.shared.ready = [])
  | .mayStop g | .reading g =>
    w.shared.generation = g ∧ (w.shared.Quiet g → w.shared.ready = [] ∧ w.shared.Work)
  | .blocked g deadline =>
    g ≤ w.shared.generation ∧
      (w.shared.Quiet g → w.shared.ready = [] ∧ w.shared.Work ∧ w.shared.Bounds deadline)

theorem not_quiet {s : Shared} (h : s.hooks ≠ 0 ∨ s.pending ≠ 0) (g : Nat) : ¬s.Quiet g := by
  rintro ⟨-, hh, hp⟩
  exact h.elim (· hh) (· hp)

theorem Inv.noisy {w : World} {s : Shared} (hw : Inv w) (hgen : s.generation = w.shared.generation)
    (h : s.hooks ≠ 0 ∨ s.pending ≠ 0) : Inv { w with shared := s } := by
  have hq := not_quiet h
  obtain ⟨shared, pc⟩ := w
  unfold Inv at hw ⊢
  cases pc with
  | outside => trivial
  | sampled g => exact hgen.trans hw
  | scanning g index | noAdoptedWork g => exact ⟨hgen.trans hw.1, fun h => absurd h (hq g)⟩
  | mayStop g | reading g => exact ⟨hgen.trans hw.1, fun h => absurd h (hq g)⟩
  | blocked g deadline => exact ⟨Nat.le_trans hw.1 hgen.ge, fun h => absurd h (hq g)⟩

theorem Inv.mono {w : World} {s : Shared} (hw : Inv w) (hgen : s.generation = w.shared.generation)
    (hquiet : ∀ g, s.Quiet g → w.shared.Quiet g) (hready : s.ready = w.shared.ready)
    (hwork : w.shared.Work → s.Work) (hbounds : ∀ d, w.shared.Bounds d → s.Bounds d) :
    Inv { w with shared := s } := by
  obtain ⟨shared, pc⟩ := w
  unfold Inv at hw ⊢
  cases pc with
  | outside => trivial
  | sampled g => exact hgen.trans hw
  | scanning g index | noAdoptedWork g =>
    exact ⟨hgen.trans hw.1, fun h => hready.trans (hw.2 (hquiet g h))⟩
  | mayStop g | reading g =>
    refine ⟨hgen.trans hw.1, fun h => ?_⟩
    obtain ⟨hr, hk⟩ := hw.2 (hquiet g h)
    exact ⟨hready.trans hr, hwork hk⟩
  | blocked g deadline =>
    refine ⟨Nat.le_trans hw.1 hgen.ge, fun h => ?_⟩
    obtain ⟨hr, hk, hb⟩ := hw.2 (hquiet g h)
    exact ⟨hready.trans hr, hwork hk, hbounds deadline hb⟩

theorem unfinishedAdoptedWork_pos (h : unfinishedAdoptedWork flags n = true) (hm : m ≠ 0) :
    unfinishedAdoptedWork flags m = true := by
  unfold unfinishedAdoptedWork at h ⊢
  split at h
  · cases h
  · rename_i hn
    simp only [Bool.or_eq_true, not_or] at hn
    rw [if_neg]
    · exact h
    · simpa [hm] using hn.1

theorem Shared.Work.update (h : Shared.Work s) (index count : Nat) (hcount : count ≠ 0) :
    Shared.Work { s with adoptedContexts := Function.update s.adoptedContexts index count } := by
  refine h.imp_left ?_
  rintro ⟨other, flags, hflags, hwork⟩
  refine ⟨other, flags, hflags, ?_⟩
  by_cases ho : other = index
  · subst ho
    simpa using unfinishedAdoptedWork_pos hwork hcount
  · simpa [Function.update_of_ne ho] using hwork

theorem Shared.Work.purge (h : Shared.Work s) : s.purge.Work := by
  refine h.imp_right ?_
  rintro ⟨timer, hmem, hactive⟩
  exact ⟨timer, (AsyncTimerQueue.mem_purgeStale s.active s.timers hactive).mpr hmem, hactive⟩

theorem Shared.Bounds.purge (h : Shared.Bounds s deadline) : s.purge.Bounds deadline :=
  fun timer hmem hactive =>
    h timer ((AsyncTimerQueue.mem_purgeStale s.active s.timers hactive).mp hmem) hactive

theorem bounds_wakeDeadline (s : Shared) (renderer : Option Int) :
    s.Bounds (wakeDeadline (s.timers.nextDeadline s.active) renderer) := by
  intro timer hmem hactive
  cases hnext : s.timers.nextDeadline s.active with
  | none =>
    have hnone := AsyncTimerQueue.nextDeadline_eq_none s.active s.timers hnext timer hmem
    simp [hactive] at hnone
  | some d =>
    have hle := (AsyncTimerQueue.nextDeadline_eq_some s.active s.timers hnext).2 timer hmem hactive
    cases renderer with
    | none => exact ⟨d, rfl, hle⟩
    | some r =>
      simp only [wakeDeadline]
      split
      · exact ⟨r, rfl, by omega⟩
      · exact ⟨d, rfl, hle⟩

theorem Inv.scan {w : World} (hw : Inv w) (hpc : w.pc = .scanning g index) : Inv (w.scan g index) := by
  obtain ⟨shared, pc⟩ := w
  obtain rfl : pc = .scanning g index := hpc
  have hw : shared.generation = g ∧ (shared.Quiet g → shared.ready = []) := hw
  unfold World.scan
  split
  · exact hw
  · rename_i flags hflags
    split
    · rename_i hwork
      exact ⟨hw.1, fun hq => ⟨hw.2 hq, .inl ⟨index, flags, hflags, hwork⟩⟩⟩
    · exact hw

theorem Inv.outside {s : Shared} : Inv ⟨s, .outside⟩ := trivial

theorem Inv.nextTimerDeadline {s : Shared} (hw : Inv ⟨s, .noAdoptedWork g⟩)
    (hpending : s.timers.hasPending s.active = true) : Inv ⟨s.purge, .mayStop g⟩ := by
  refine ⟨hw.1, fun hq => ⟨hw.2 hq, Shared.Work.purge (.inr ?_)⟩⟩
  obtain ⟨deadline, hnext⟩ := Option.isSome_iff_exists.mp hpending
  obtain ⟨⟨timer, hmem, hactive, -⟩, -⟩ := AsyncTimerQueue.nextDeadline_eq_some s.active s.timers hnext
  exact ⟨timer, hmem, hactive⟩

theorem Inv.readDeadline {s : Shared} (hw : Inv ⟨s, .reading g⟩) (renderer : Option Int) :
    Inv ⟨s.purge, .blocked g (wakeDeadline (s.timers.nextDeadline s.active) renderer)⟩ := by
  refine ⟨hw.1.ge, fun hq => ?_⟩
  obtain ⟨hready, hwork⟩ := hw.2 hq
  exact ⟨hready, hwork.purge, (bounds_wakeDeadline s renderer).purge⟩

/-- An increment needs the mutex, so it only meets a thread that is outside or
asleep. -/
theorem Inv.notify {s s' : Shared} {pc : Pc} (hw : Inv ⟨s, pc⟩) (hlocked : pc.locked = false)
    (hgen : s'.generation = s.generation + 1) : Inv ⟨s', pc⟩ := by
  cases pc with
  | outside => trivial
  | blocked g deadline =>
    have hle : g ≤ s.generation := hw.1
    refine ⟨by simp only [hgen]; omega, fun hq => ?_⟩
    have heq : s'.generation = g := hq.1
    omega
  | sampled g | scanning g index | noAdoptedWork g | mayStop g | reading g => cases hlocked

theorem Inv.lease {w : World} (hw : Inv w) (index count : Nat) (hcount : count ≠ 0) :
    Inv { w with shared := { w.shared with
      adoptedContexts := Function.update w.shared.adoptedContexts index count } } :=
  hw.mono rfl (fun _ h => h) rfl (fun h => h.update index count hcount) (fun _ h => h)

theorem Inv.release {w : World} (hw : Inv w) (index : Nat) :
    Inv { w with shared := w.shared.release index } := by
  by_cases hlast : w.shared.adoptedContexts index - 1 = 0
  · exact hw.noisy rfl (.inr (by simp [Shared.release, hlast]))
  · have hlease := hw.lease index _ hlast
    have heq : w.shared.release index = { w.shared with
        adoptedContexts := Function.update w.shared.adoptedContexts index
          (w.shared.adoptedContexts index - 1) } := by simp [Shared.release, hlast]
    rw [heq]
    exact hlease

theorem Inv.step {w w' : World} (hw : Inv w) (h : w.step a = some w') : Inv w' := by
  cases a with
  | act shared =>
    simp only [World.step] at h
    split at h
    · rename_i hpc
      cases h
      simp only [hpc]
      exact Inv.outside
    · cases h
  | sample =>
    simp only [World.step] at h
    split at h
    · cases h; exact rfl
    · cases h
  | hasReady =>
    obtain ⟨s, pc⟩ := w
    simp only [World.step] at h
    split at h
    · rename_i g
      cases h
      split
      · rename_i hempty
        exact ⟨hw, fun _ => List.isEmpty_iff.mp hempty⟩
      · exact Inv.outside
    · cases h
  | scan =>
    simp only [World.step] at h
    split at h
    · rename_i hpc
      cases h
      exact hw.scan hpc
    · cases h
  | nextTimerDeadline =>
    obtain ⟨s, pc⟩ := w
    simp only [World.step] at h
    split at h
    · cases h
      split
      · rename_i hpending
        exact hw.nextTimerDeadline hpending
      · exact Inv.outside
    · cases h
  | shouldStop stop =>
    obtain ⟨s, pc⟩ := w
    simp only [World.step] at h
    split at h
    · cases h
      cases stop with
      | true => exact Inv.outside
      | false => exact hw
    · cases h
  | readDeadline renderer =>
    obtain ⟨s, pc⟩ := w
    simp only [World.step] at h
    split at h
    · cases h
      exact hw.readDeadline renderer
    · cases h
  | wake timedOut =>
    obtain ⟨s, pc⟩ := w
    simp only [World.step] at h
    split at h
    · split at h
      · cases h; exact Inv.outside
      · cases h; exact hw
    · cases h
  | workerCancelTimer token => cases h; exact hw.noisy rfl (.inl (Nat.succ_ne_zero _))
  | workerPush owner fromHook =>
    simp only [World.step] at h
    split at h
    · cases h; exact hw.noisy rfl (.inr (Nat.succ_ne_zero _))
    · split at h
      · cases h
      · cases h; exact hw.noisy rfl (.inr (Nat.succ_ne_zero _))
  | workerAcquire index => cases h; exact hw.lease index _ (Nat.succ_ne_zero _)
  | workerRelease index =>
    simp only [World.step] at h
    split at h
    · cases h
    · cases h; exact hw.release index
  | workerScheduleTimer deadline token => cases h; exact hw.noisy rfl (.inr (Nat.succ_ne_zero _))
  | workerNotify =>
    obtain ⟨s, pc⟩ := w
    simp only [World.step] at h
    split at h
    · cases h
    · rename_i hunlocked
      cases h
      exact hw.notify (by simpa using fun hl => hunlocked (.inl hl)) rfl

theorem Inv.reachable {w₀ w : World} (h0 : w₀.pc = .outside) (h : run World.step w₀ steps = some w) :
    Inv w := by
  obtain ⟨s, pc⟩ := w₀
  obtain rfl : pc = .outside := h0
  exact run_invariant (fun _ _ _ => Inv.step) Inv.outside h

-- ---------------------------------------------------------------------------
-- No lost wakeup
-- ---------------------------------------------------------------------------

/-- From any state outside the wait and in every interleaving: a scheduler
asleep on the generation it sampled, with no worker between its change and its
increment, has no frame ready, sleeps no longer than to the earliest active
timer, and has something to wait for. -/
theorem sleep_misses_no_wakeup {w₀ w : World} (h0 : w₀.pc = .outside)
    (h : run World.step w₀ steps = some w) (hpc : w.pc = .blocked g deadline)
    (hcurrent : w.shared.generation = g) (hhooks : w.shared.hooks = 0)
    (hpending : w.shared.pending = 0) :
    w.shared.ready = [] ∧ w.shared.Bounds deadline ∧ w.shared.Work := by
  have hw := Inv.reachable h0 h
  obtain ⟨s, pc⟩ := w
  obtain rfl : pc = .blocked g deadline := hpc
  obtain ⟨hready, hwork, hbounds⟩ := hw.2 ⟨hcurrent, hhooks, hpending⟩
  exact ⟨hready, hbounds, hwork⟩

def suspendedRun : World :=
  { shared := { runs := [⟨false, true, false, true⟩], active := fun token => token == 7 } }

/-- A worker takes a lease and schedules the timer, and the scheduler sleeps on
both; the worker pushes, releases and wakes it, and the scheduler resumes the
frame and sleeps on the timer. -/
def sleepTwice : List Step :=
  [.workerAcquire 0, .workerScheduleTimer 30 7, .workerNotify, .sample, .hasReady, .scan,
    .shouldStop false, .readDeadline (some 20), .wake false, .workerPush 0 false, .workerRelease 0,
    .workerNotify, .workerNotify, .wake false,
    .act { suspendedRun.shared with timers := AsyncTimerQueue.push {} 30 7, generation := 3 },
    .sample, .hasReady, .scan, .scan, .nextTimerDeadline, .shouldStop false, .readDeadline (some 50)]

theorem sleep_misses_no_wakeup_twice :
    ∃ w, run World.step suspendedRun sleepTwice = some w ∧ w.pc = .blocked 3 (some 30) ∧
      w.shared.ready = [] ∧ w.shared.Bounds (some 30) ∧ w.shared.Work := by
  have hreach : ∃ w, run World.step suspendedRun sleepTwice = some w ∧
      w.pc = .blocked 3 (some 30) ∧ w.shared.generation = 3 ∧ w.shared.hooks = 0 ∧
      w.shared.pending = 0 := ⟨_, rfl, rfl, rfl, rfl, rfl⟩
  obtain ⟨w, hrun, hpc, hcurrent, hhooks, hpending⟩ := hreach
  exact ⟨w, hrun, hpc, sleep_misses_no_wakeup rfl hrun hpc hcurrent hhooks hpending⟩

end Gentest.Async.Wakeup
