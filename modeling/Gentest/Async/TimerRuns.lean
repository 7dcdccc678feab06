import Gentest.Async.TimerQueue
import Gentest.Lib.Sorting
import Mathlib.Data.List.Nodup

/-!
# Runs of the timer queue

`post` and `cancel` deactivate tokens outside the queue, and the queue drops
stale timers only when they reach the top. What it is for is `Waiting`: who
waits until when, in the order of arrival, each until it is handed out when it
is due or all are cleared. On every run the queue gives the answers of
`Waiting`, and no timer of an active token is ever missing from it.
-/

namespace Gentest.Async

namespace AsyncTimerQueue

/-- `timers_ = {}`: the next sequence number stays. -/
def clear (q : AsyncTimerQueue) : AsyncTimerQueue where
  timers := []
  nextSequence := q.nextSequence
  sorted := List.Pairwise.nil

end AsyncTimerQueue

/-- What is asked of the queue, and the end of a token elsewhere. A null token
may be pushed. -/
inductive TimerOp where
  | push (deadline : Int) (token : Option Nat)
  | deactivate (token : Nat)
  | popDue (now : Int)
  | nextDeadline
  | clear
  deriving DecidableEq, Repr

inductive TimerAnswer where
  | done
  | due (tokens : List Nat)
  | deadline (first : Option Int)
  deriving DecidableEq, Repr

def deactivated (token : Nat) (active : Nat → Bool) : Nat → Bool :=
  fun other => other ≠ token && active other

/-- The queue, and which tokens are active: each is until it is deactivated. -/
structure TimerState where
  queue : AsyncTimerQueue := {}
  active : Nat → Bool := fun _ => true

def TimerState.step (s : TimerState) : TimerOp → TimerAnswer × TimerState
  | .push deadline (some token) => (.done, { s with queue := s.queue.push deadline token })
  | .push _ none => (.done, s)
  | .deactivate token => (.done, { s with active := deactivated token s.active })
  | .popDue now =>
    let out := s.queue.popDue s.active now
    (.due out.1, { s with queue := out.2 })
  | .nextDeadline =>
    (.deadline (s.queue.nextDeadline s.active), { s with queue := s.queue.purgeStale s.active })
  | .clear => (.done, { s with queue := s.queue.clear })

structure Waiting where
  entries : List (Int × Nat) := []
  active : Nat → Bool := fun _ => true

namespace Waiting

def isDue (w : Waiting) (now : Int) (entry : Int × Nat) : Bool :=
  w.active entry.2 && decide (entry.1 ≤ now)

@[simp] theorem isDue_mk (w : Waiting) (now deadline : Int) (token : Nat) :
    w.isDue now (deadline, token) = (w.active token && decide (deadline ≤ now)) := rfl

/-- The active entries due, by deadline and among equal ones by arrival. -/
def due (w : Waiting) (now : Int) : List (Int × Nat) :=
  (w.entries.filter (w.isDue now)).insertionSort fun a b => a.1 ≤ b.1

def firstDeadline (w : Waiting) : Option Int :=
  ((w.entries.filter fun entry => w.active entry.2).map Prod.fst).min?

def step (w : Waiting) : TimerOp → TimerAnswer × Waiting
  | .push deadline (some token) => (.done, { w with entries := w.entries ++ [(deadline, token)] })
  | .push _ none => (.done, w)
  | .deactivate token => (.done, { w with active := deactivated token w.active })
  | .popDue now =>
    (.due ((w.due now).map Prod.snd),
      { w with entries := w.entries.filter fun entry => !w.isDue now entry })
  | .nextDeadline => (.deadline w.firstDeadline, w)
  | .clear => (.done, { w with entries := [] })

end Waiting

def answers {σ : Type} (step : σ → TimerOp → TimerAnswer × σ) : σ → List TimerOp → List TimerAnswer × σ
  | s, [] => ([], s)
  | s, op :: ops =>
    let out := step s op
    let rest := answers step out.2 ops
    (out.1 :: rest.1, rest.2)

-- ---------------------------------------------------------------------------
-- What leaves the queue
-- ---------------------------------------------------------------------------

namespace AsyncTimerQueue

variable {active : Nat → Bool} {now : Int} {timers : List Timer}

theorem popDueFrom_tokens (hsorted : timers.Pairwise Timer.Before) :
    (popDueFrom active now timers).1 =
      (timers.filter fun timer => active timer.token && decide (timer.deadline ≤ now)).map Timer.token := by
  induction hsorted with
  | nil => rfl
  | @cons timer rest hbefore _ ih =>
    unfold popDueFrom
    cases hactive : active timer.token with
    | false => simp [hactive, ih]
    | true =>
      by_cases hlate : timer.deadline > now
      · have hnone : rest.filter (fun t => active t.token && decide (t.deadline ≤ now)) = [] := by
          rw [List.filter_eq_nil_iff]
          intro later hmem hdue
          simp only [Bool.and_eq_true, decide_eq_true_eq] at hdue
          rcases hbefore later hmem with hlt | ⟨heq, -⟩ <;> omega
        have hnot : ¬timer.deadline ≤ now := by omega
        simp [hactive, hlate, hnot, hnone]
      · have hdue : timer.deadline ≤ now := by omega
        simp [hactive, hlate, hdue, ih]

theorem popDueFrom_rest (hsorted : timers.Pairwise Timer.Before) :
    (popDueFrom active now timers).2.filter (fun timer => active timer.token) =
      (timers.filter fun timer => active timer.token).filter fun timer => !decide (timer.deadline ≤ now) := by
  induction hsorted with
  | nil => rfl
  | @cons timer rest hbefore _ ih =>
    unfold popDueFrom
    cases hactive : active timer.token with
    | false => simp [hactive, ih]
    | true =>
      by_cases hlate : timer.deadline > now
      · have hall : ∀ later ∈ rest, now < later.deadline := fun later hmem => by
          rcases hbefore later hmem with hlt | ⟨heq, -⟩ <;> omega
        have hrest : (rest.filter fun t => active t.token).filter (fun t => !decide (t.deadline ≤ now)) =
            rest.filter fun t => active t.token := by
          refine List.filter_eq_self.mpr fun later hmem => ?_
          simpa using hall later (List.mem_of_mem_filter hmem)
        have hnot : ¬timer.deadline ≤ now := by omega
        simp only [hactive, hlate, hnot, hrest, List.filter_cons, ↓reduceIte, Bool.not_true, decide_false,
          Bool.not_false, Bool.false_eq_true]
      · have hdue : timer.deadline ≤ now := by omega
        simp [hactive, hlate, hdue, ih]

theorem purgeStale_active (q : AsyncTimerQueue) :
    (q.purgeStale active).timers.filter (fun timer => active timer.token) =
      q.timers.filter fun timer => active timer.token := by
  have hstale : (q.timers.takeWhile fun timer => !active timer.token).filter (fun t => active t.token) = [] := by
    refine List.filter_eq_nil_iff.mpr fun timer hmem hactive => ?_
    simpa [hactive] using List.mem_takeWhile_imp hmem
  conv_rhs => rw [← List.takeWhile_append_dropWhile (p := fun timer => !active timer.token) (l := q.timers)]
  rw [List.filter_append, hstale, List.nil_append]
  rfl

theorem nextDeadline_min (q : AsyncTimerQueue) :
    q.nextDeadline active =
      ((q.timers.filter fun timer => active timer.token).map Timer.deadline).min? := by
  cases hnext : q.nextDeadline active with
  | none =>
    have hnone : q.timers.filter (fun timer => active timer.token) = [] := by
      refine List.filter_eq_nil_iff.mpr fun timer hmem => ?_
      simp [nextDeadline_eq_none active q hnext timer hmem]
    simp [hnone]
  | some deadline =>
    obtain ⟨⟨first, hmem, hactive, rfl⟩, hle⟩ := nextDeadline_eq_some active q hnext
    symm
    rw [List.min?_eq_some_iff]
    refine ⟨List.mem_map_of_mem (List.mem_filter.mpr ⟨hmem, hactive⟩), ?_⟩
    simp only [List.mem_map, List.mem_filter]
    rintro _ ⟨timer, ⟨hmem, hactive⟩, rfl⟩
    exact hle timer hmem hactive

end AsyncTimerQueue

-- ---------------------------------------------------------------------------
-- The queue follows who waits
-- ---------------------------------------------------------------------------

def Timer.entry (timer : Timer) : Int × Nat := (timer.deadline, timer.token)

/-- `arrivals` are the timers of those who wait, in the order of arrival; the
active ones among them are what the queue holds that is active. -/
structure Follows (s : TimerState) (w : Waiting) (arrivals : List Timer) : Prop where
  active : s.active = w.active
  entries : w.entries = arrivals.map Timer.entry
  inOrder : arrivals.Pairwise fun a b => a.sequence < b.sequence
  below : ∀ timer ∈ arrivals, timer.sequence < s.queue.nextSequence
  queued : (s.queue.timers.filter fun timer => s.active timer.token).Perm
    (arrivals.filter fun timer => s.active timer.token)

/-- Timers by `Before` are their entries by deadline: among equal deadlines
the earlier arrival has the smaller number. -/
theorem entries_sorted {timers arrivals : List Timer} (hsorted : timers.Pairwise Timer.Before)
    (hinOrder : arrivals.Pairwise fun a b => a.sequence < b.sequence) (hperm : timers.Perm arrivals) :
    timers.map Timer.entry = (arrivals.map Timer.entry).insertionSort fun a b => a.1 ≤ b.1 := by
  have hagree : arrivals.Pairwise fun a b => Timer.Before a b ↔ a.deadline ≤ b.deadline := by
    refine hinOrder.imp fun hlt => ?_
    unfold Timer.Before
    omega
  have hnodup : (arrivals.map Timer.sequence).Nodup :=
    List.pairwise_map.mpr (hinOrder.imp fun hlt => hlt.ne)
  have hsort : timers = arrivals.insertionSort Timer.Before := by
    have hperm' := hperm.trans (List.perm_insertionSort Timer.Before arrivals).symm
    refine hperm'.eq_of_pairwise (fun a b ha hb hab hba => ?_) hsorted (List.pairwise_insertionSort _ _)
    refine List.inj_on_of_nodup_map hnodup (hperm.mem_iff.mp ha) ((List.mem_insertionSort _).mp hb) ?_
    unfold Timer.Before at hab hba
    omega
  rw [hsort, Sorting.insertionSort_eq hagree]
  exact List.map_insertionSort _ _ _ (s := fun a b : Int × Nat => a.1 ≤ b.1) fun _ _ _ _ => Iff.rfl

section

variable {s : TimerState} {w : Waiting} {arrivals : List Timer}

theorem Follows.queued_eq (h : Follows s w arrivals) (pred : Timer → Bool) :
    ((s.queue.timers.filter fun timer => s.active timer.token).filter pred).map Timer.entry =
      (((arrivals.filter fun timer => s.active timer.token).filter pred).map Timer.entry).insertionSort
        fun a b => a.1 ≤ b.1 :=
  entries_sorted ((s.queue.sorted.filter _).filter _) ((h.inOrder.filter _).filter _) (h.queued.filter pred)

theorem Follows.entries_due (h : Follows s w arrivals) (now : Int) :
    w.entries.filter (w.isDue now) =
      ((arrivals.filter fun timer => s.active timer.token).filter
        fun timer => decide (timer.deadline ≤ now)).map Timer.entry := by
  rw [h.entries, List.filter_map, List.filter_filter]
  congr 1
  refine List.filter_congr fun timer _ => ?_
  rw [Function.comp_apply, Timer.entry, Waiting.isDue_mk, h.active]
  exact Bool.and_comm _ _

theorem Follows.popDue_eq (h : Follows s w arrivals) (now : Int) :
    (s.queue.popDue s.active now).1 = (w.due now).map Prod.snd := by
  have htokens : (s.queue.popDue s.active now).1 = (((s.queue.timers.filter fun timer =>
      s.active timer.token).filter fun timer => decide (timer.deadline ≤ now)).map Timer.entry).map Prod.snd := by
    rw [List.map_map, List.filter_filter]
    refine (AsyncTimerQueue.popDueFrom_tokens s.queue.sorted).trans ?_
    congr 1
    exact List.filter_congr fun timer _ => Bool.and_comm _ _
  rw [htokens, h.queued_eq, Waiting.due, h.entries_due]

theorem Follows.nextDeadline_eq (h : Follows s w arrivals) :
    s.queue.nextDeadline s.active = w.firstDeadline := by
  have hperm := h.queued.map Timer.deadline
  have hentries : (w.entries.filter fun entry => w.active entry.2).map Prod.fst =
      (arrivals.filter fun timer => s.active timer.token).map Timer.deadline := by
    rw [h.entries, List.filter_map, List.map_map, h.active]
    rfl
  rw [AsyncTimerQueue.nextDeadline_min, Waiting.firstDeadline, hentries]
  ext deadline
  rw [List.min?_eq_some_iff, List.min?_eq_some_iff, hperm.mem_iff]
  simp only [hperm.mem_iff]

theorem Follows.push (h : Follows s w arrivals) (deadline : Int) (token : Nat) :
    Follows { s with queue := s.queue.push deadline token }
      { w with entries := w.entries ++ [(deadline, token)] }
      (arrivals ++ [⟨deadline, s.queue.nextSequence, token⟩]) where
  active := h.active
  entries := by simp [h.entries, Timer.entry]
  inOrder := by
    refine List.pairwise_append.mpr ⟨h.inOrder, List.pairwise_singleton _ _, ?_⟩
    intro timer hmem last hlast
    obtain rfl := List.mem_singleton.mp hlast
    exact h.below timer hmem
  below := by
    simp only [AsyncTimerQueue.push, List.mem_append, List.mem_singleton]
    rintro timer (hmem | rfl)
    · exact Nat.lt_succ_of_lt (h.below timer hmem)
    · exact Nat.lt_succ_self _
  queued := by
    refine ((List.perm_orderedInsert _ _ _).filter _).trans ?_
    refine List.Perm.trans ?_ ((List.perm_append_singleton _ _).filter _).symm
    simp only [List.filter_cons]
    split
    · exact h.queued.cons _
    · exact h.queued

theorem Follows.deactivate (h : Follows s w arrivals) (token : Nat) :
    Follows { s with active := deactivated token s.active } { w with active := deactivated token w.active }
      arrivals where
  active := by simp [h.active]
  entries := h.entries
  inOrder := h.inOrder
  below := h.below
  queued := by
    have hfilter (timers : List Timer) :
        (timers.filter fun timer => deactivated token s.active timer.token) =
          (timers.filter fun timer => s.active timer.token).filter fun timer => timer.token ≠ token := by
      rw [List.filter_filter]
      rfl
    rw [hfilter, hfilter]
    exact h.queued.filter _

theorem Follows.popDue (h : Follows s w arrivals) (now : Int) :
    Follows { s with queue := (s.queue.popDue s.active now).2 }
      { w with entries := w.entries.filter fun entry => !w.isDue now entry }
      (arrivals.filter fun timer => !w.isDue now timer.entry) where
  active := h.active
  entries := by
    rw [h.entries, List.filter_map]
    rfl
  inOrder := h.inOrder.filter _
  below := fun timer hmem => h.below timer (List.mem_of_mem_filter hmem)
  queued := by
    refine (List.Perm.of_eq (AsyncTimerQueue.popDueFrom_rest s.queue.sorted)).trans ?_
    refine (h.queued.filter _).trans (List.Perm.of_eq ?_)
    rw [List.filter_filter, List.filter_filter]
    refine List.filter_congr fun timer _ => ?_
    rw [Timer.entry, Waiting.isDue_mk, h.active]
    cases w.active timer.token with
    | false => simp
    | true => exact Bool.and_true _

theorem Follows.purgeStale (h : Follows s w arrivals) :
    Follows { s with queue := s.queue.purgeStale s.active } w arrivals where
  active := h.active
  entries := h.entries
  inOrder := h.inOrder
  below := h.below
  queued := (List.Perm.of_eq s.queue.purgeStale_active).trans h.queued

theorem Follows.clear (h : Follows s w arrivals) :
    Follows { s with queue := s.queue.clear } { w with entries := [] } [] where
  active := h.active
  entries := rfl
  inOrder := List.Pairwise.nil
  below := fun _ hmem => nomatch hmem
  queued := List.Perm.refl _

theorem Follows.step (h : Follows s w arrivals) (op : TimerOp) :
    (s.step op).1 = (w.step op).1 ∧ ∃ arrivals, Follows (s.step op).2 (w.step op).2 arrivals := by
  cases op with
  | push deadline token =>
    cases token with
    | none => exact ⟨rfl, arrivals, h⟩
    | some token => exact ⟨rfl, _, h.push deadline token⟩
  | deactivate token => exact ⟨rfl, arrivals, h.deactivate token⟩
  | popDue now => exact ⟨congrArg TimerAnswer.due (h.popDue_eq now), _, h.popDue now⟩
  | nextDeadline => exact ⟨congrArg TimerAnswer.deadline h.nextDeadline_eq, arrivals, h.purgeStale⟩
  | clear => exact ⟨rfl, [], h.clear⟩

theorem Follows.run (h : Follows s w arrivals) (ops : List TimerOp) :
    (answers TimerState.step s ops).1 = (answers Waiting.step w ops).1 ∧
      ∃ arrivals, Follows (answers TimerState.step s ops).2 (answers Waiting.step w ops).2 arrivals := by
  induction ops generalizing s w arrivals with
  | nil => exact ⟨rfl, arrivals, h⟩
  | cons op ops ih =>
    obtain ⟨hanswer, arrivals, hnext⟩ := h.step op
    obtain ⟨hanswers, hend⟩ := ih hnext
    exact ⟨by rw [answers, answers, hanswer, hanswers], hend⟩

end

theorem Follows.initial : Follows {} {} [] where
  active := rfl
  entries := rfl
  inOrder := List.Pairwise.nil
  below := fun _ hmem => nomatch hmem
  queued := List.Perm.refl _

/-- On every run the queue answers as `Waiting` does, and the active timers it
holds are the active entries that wait, by deadline and arrival. -/
theorem timer_queue_answers_waiting (ops : List TimerOp) :
    let queue := answers TimerState.step {} ops
    let waiting := answers Waiting.step {} ops
    queue.1 = waiting.1 ∧ queue.2.active = waiting.2.active ∧
      (queue.2.queue.timers.filter fun timer => queue.2.active timer.token).map Timer.entry =
        (waiting.2.entries.filter fun entry => waiting.2.active entry.2).insertionSort fun a b => a.1 ≤ b.1 := by
  intro queue waiting
  obtain ⟨hanswers, arrivals, hend⟩ := Follows.initial.run ops
  refine ⟨hanswers, hend.active, ?_⟩
  have hactive : waiting.2.entries.filter (fun entry => waiting.2.active entry.2) =
      (arrivals.filter fun timer => queue.2.active timer.token).map Timer.entry := by
    rw [hend.entries, List.filter_map, hend.active]
    rfl
  rw [hactive]
  exact entries_sorted (queue.2.queue.sorted.filter _) (hend.inOrder.filter _) hend.queued

/-- A stale timer on top, one below it that is due, and a later one. -/
example : (answers TimerState.step {} [.push 5 (some 0), .push 9 (some 2), .push 5 (some 1), .deactivate 0,
    .nextDeadline, .popDue 7, .nextDeadline]).1 =
    [.done, .done, .done, .done, .deadline (some 5), .due [1], .deadline (some 9)] := by decide

end Gentest.Async
