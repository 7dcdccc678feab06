import Mathlib.Data.List.Sort
import Mathlib.Data.List.TakeWhile

/-!
# The timer queue

`AsyncTimerQueue` is a priority queue of deadlines, earliest first and in the
order of registration among equal ones. A timer whose token is no longer active
stays in the queue until it reaches the top. The queue is the list of its
timers in the order they leave it, which the structure carries.
-/

namespace Gentest.Async

structure Timer where
  deadline : Int
  sequence : Nat
  token : Nat
  deriving DecidableEq, Repr

/-- `a` leaves the queue no later than `b`. -/
def Timer.Before (a b : Timer) : Prop :=
  a.deadline < b.deadline ∨ (a.deadline = b.deadline ∧ a.sequence ≤ b.sequence)

instance (a b : Timer) : Decidable (a.Before b) := inferInstanceAs (Decidable (_ ∨ _))

instance : Std.Total Timer.Before where
  total a b := by unfold Timer.Before; omega

instance : IsTrans Timer Timer.Before where
  trans a b c hab hbc := by unfold Timer.Before at *; omega

structure AsyncTimerQueue where
  timers : List Timer := []
  nextSequence : Nat := 0
  sorted : timers.Pairwise Timer.Before := by exact List.Pairwise.nil

namespace AsyncTimerQueue

def push (q : AsyncTimerQueue) (deadline : Int) (token : Nat) : AsyncTimerQueue where
  timers := q.timers.orderedInsert Timer.Before ⟨deadline, q.nextSequence, token⟩
  nextSequence := q.nextSequence + 1
  sorted := q.sorted.orderedInsert _ _

def purgeStale (active : Nat → Bool) (q : AsyncTimerQueue) : AsyncTimerQueue where
  timers := q.timers.dropWhile fun timer => !active timer.token
  nextSequence := q.nextSequence
  sorted := q.sorted.sublist (List.dropWhile_sublist _)

/-- The deadline on top once the stale timers above it are gone. -/
def nextDeadline (active : Nat → Bool) (q : AsyncTimerQueue) : Option Int :=
  (q.purgeStale active).timers.head?.map Timer.deadline

def hasPending (active : Nat → Bool) (q : AsyncTimerQueue) : Bool := (q.nextDeadline active).isSome

/-- The loop of `pop_due`: the tokens due, and the timers left. -/
def popDueFrom (active : Nat → Bool) (now : Int) : List Timer → List Nat × List Timer
  | [] => ([], [])
  | timer :: rest =>
    if !active timer.token then popDueFrom active now rest
    else if timer.deadline > now then ([], timer :: rest)
    else
      let out := popDueFrom active now rest
      (timer.token :: out.1, out.2)

theorem popDueFrom_sublist (active : Nat → Bool) (now : Int) (timers : List Timer) :
    (popDueFrom active now timers).2.Sublist timers := by
  induction timers with
  | nil => exact List.Sublist.slnil
  | cons timer rest ih =>
    unfold popDueFrom
    split
    · exact ih.cons timer
    · split
      · exact List.Sublist.refl _
      · exact ih.cons timer

def popDue (active : Nat → Bool) (now : Int) (q : AsyncTimerQueue) : List Nat × AsyncTimerQueue :=
  ((popDueFrom active now q.timers).1,
    { timers := (popDueFrom active now q.timers).2
      nextSequence := q.nextSequence
      sorted := q.sorted.sublist (popDueFrom_sublist active now q.timers) })

theorem mem_purgeStale (active : Nat → Bool) (q : AsyncTimerQueue) (hactive : active timer.token = true) :
    timer ∈ (q.purgeStale active).timers ↔ timer ∈ q.timers := by
  refine ⟨fun h => List.dropWhile_subset _ h, fun h => ?_⟩
  have hsplit := List.takeWhile_append_dropWhile (p := fun timer => !active timer.token) (l := q.timers)
  rw [← hsplit, List.mem_append] at h
  refine h.resolve_left fun hstale => ?_
  have hinactive := List.mem_takeWhile_imp hstale
  simp [hactive] at hinactive

theorem nextDeadline_eq_some (active : Nat → Bool) (q : AsyncTimerQueue)
    (h : q.nextDeadline active = some deadline) :
    (∃ timer ∈ q.timers, active timer.token = true ∧ timer.deadline = deadline) ∧
      ∀ timer ∈ q.timers, active timer.token = true → deadline ≤ timer.deadline := by
  unfold nextDeadline at h
  cases hpurged : (q.purgeStale active).timers with
  | nil => simp [hpurged] at h
  | cons top rest =>
    simp only [hpurged, List.head?_cons, Option.map_some, Option.some.injEq] at h
    have htop : active top.token = true := by
      have hhead := List.head?_dropWhile_not (fun timer : Timer => !active timer.token) q.timers
      have hpurged' : q.timers.dropWhile (fun timer => !active timer.token) = top :: rest := hpurged
      simpa [hpurged'] using hhead
    have hsorted := (q.purgeStale active).sorted
    rw [hpurged, List.pairwise_cons] at hsorted
    refine ⟨⟨top, (mem_purgeStale active q htop).mp (by simp [hpurged]), htop, h⟩, fun timer hmem hactive => ?_⟩
    have hmem := (mem_purgeStale active q hactive).mpr hmem
    rw [hpurged, List.mem_cons] at hmem
    rcases hmem with rfl | hmem
    · exact h.ge
    · rcases hsorted.1 timer hmem with hlt | ⟨heq, -⟩ <;> omega

theorem nextDeadline_eq_none (active : Nat → Bool) (q : AsyncTimerQueue)
    (h : q.nextDeadline active = none) (timer : Timer) (hmem : timer ∈ q.timers) :
    active timer.token = false := by
  cases hactive : active timer.token with
  | false => rfl
  | true =>
    have hmem := (mem_purgeStale active q hactive).mpr hmem
    have hempty : (q.purgeStale active).timers = [] := by simpa [nextDeadline] using h
    simp [hempty] at hmem

end AsyncTimerQueue

end Gentest.Async
